import OrderFlow.Runs.Keys
import OrderFlow.Runs.Submissions
import OrderFlow.Runs.Versions

/-!
What was ordered. The columns a submission fills in are never written again, so
the row of an order, the event that is published for it and every copy of it that
a call reads or caches have the customer, the goods and the amount of one request.
-/
namespace OrderFlow
open AsyncCoroutine AsyncPool

variable {deployment : Deployment} {allows : Pipeline → Moment → Prop} {pool after : Pipeline}
  {thread : Nat} {op : Op} {outcome : Outcome Exn op.Reply} {trace : List Moment} {label : Moment}

/-- The thread committed the insert of this order as this request has it. -/
def Enters (trace : List Moment) (thread : Nat) (id : Uuid) (payload : OrderCreate) : Prop :=
  ∃ hop outcome, Label.did thread
    (.commit (Repository.createWrites (Repository.newRow payload id) hop)) outcome ∈ trace ∧
    outcome.Took ()

/-- The thread was started with this request, and entered its order. -/
structure OrderedBy (trace : List Moment) (thread : Nat) (id : Uuid) (payload : OrderCreate)
    (key : Option String) : Prop where
  started : Label.start thread (.submitOrder payload key) ∈ trace
  enters : Enters trace thread id payload

/-- The row has what the request asked for. -/
structure OrderRow.Keeps (row : OrderRow) (payload : OrderCreate) : Prop where
  customerId : row.customerId = payload.customerId
  sku : row.sku = payload.sku
  quantity : row.quantity = payload.quantity
  amountCents : row.amountCents = payload.amountCents
  failMode : row.failMode = payload.failMode

theorem OrderedBy.later {id : Uuid} {payload : OrderCreate} {key : Option String}
    (ordered : OrderedBy trace thread id payload key) (label : Moment) :
    OrderedBy (label :: trace) thread id payload key := by
  obtain ⟨started, hop, outcome, inserted, took⟩ := ordered
  exact ⟨List.mem_cons_of_mem _ started, hop, outcome, List.mem_cons_of_mem _ inserted, took⟩

theorem newRow_keeps (payload : OrderCreate) (id : Uuid) :
    (Repository.newRow payload id).Keeps payload :=
  ⟨rfl, rfl, rfl, rfl, rfl⟩

theorem newRow_orders (world : World) (payload : OrderCreate) (id : Uuid) (hop : Nat) :
    (world.write (Repository.createWrites (Repository.newRow payload id) hop)).orders =
      Function.update world.orders id (some (Repository.newRow payload id)) := rfl

/-- No change touches what was asked for. -/
theorem OrderRow.Keeps.changed {row : OrderRow} {payload : OrderCreate}
    (keeps : row.Keeps payload) (changes : OrderChanges) : (changes.apply row).Keeps payload :=
  ⟨keeps.customerId, keeps.sku, keeps.quantity, keeps.amountCents, keeps.failMode⟩

/-- The insert a submission commits is that of its own request. -/
theorem inserted_ordered (reached : Reachable (system deployment) allows World.empty pool)
    {payload : OrderCreate} {key : Option String} {id : Uuid} (hop : Nat) (outcome : Outcome Exn Unit)
    (standing : stage deployment pool thread = .submitting (.drawn payload key id))
    (took : outcome.Took ()) : ∃ given, OrderedBy (.did thread
      (.commit (Repository.createWrites (Repository.newRow payload id) hop)) outcome :: pool.trace)
        thread id payload given ∧ key = Service.usableKey given := by
  obtain ⟨made, given, started, rfl, same⟩ := submission_started reached thread _ standing
  exact ⟨given, ⟨List.mem_cons_of_mem _ started, hop, outcome, List.mem_cons_self .., took⟩, same⟩

/-! ### Rows -/

/-- A row keeps the request it was entered for. -/
theorem keeps_step {id : Uuid} {payload : OrderCreate}
    (reached : Reachable (system deployment) allows World.empty pool)
    (moved : Step (system deployment) pool label after)
    (kept : ∃ row, pool.world.orders id = some row ∧ row.Keeps payload) :
    ∃ row, after.world.orders id = some row ∧ row.Keeps payload := by
  obtain ⟨row, found, keeps⟩ := kept
  rcases step_versions reached moved with ⟨orders, _⟩ | ⟨thread, op, outcome, rfl, act, change⟩
  · exact ⟨row, by rw [orders, found], keeps⟩
  · cases change with
    | same orders _ => exact ⟨row, by rw [orders, found], keeps⟩
    | inserted given key new hop _ standing world _ =>
      have absent := drawn_absent reached thread given key new standing
      have other : id ≠ new := by
        rintro rfl
        rw [found] at absent
        cases absent
      exact ⟨row, by rw [world, newRow_orders, Function.update_of_ne other, found], keeps⟩
    | updated delivery token aim reason read note hop _ _ world _ =>
      rw [world, transition_orders]
      by_cases same : id = read.id
      · subst same
        rw [Function.update_self, found]
        exact ⟨_, rfl, keeps.changed _⟩
      · rw [Function.update_of_ne same]
        exact ⟨row, found, keeps⟩

/-- What was entered is there, as it was asked for. -/
theorem entered_kept (reached : Reachable (system deployment) allows World.empty pool) {id : Uuid}
    {payload : OrderCreate} (enters : Enters pool.trace thread id payload) :
    ∃ row, pool.world.orders id = some row ∧ row.Keeps payload := by
  induction reached with
  | init =>
    obtain ⟨hop, outcome, member, _⟩ := enters
    cases member
  | @step pool label after reached permitted moved ih =>
    obtain ⟨hop, outcome, member, took⟩ := enters
    rw [step_trace moved] at member
    rcases List.mem_cons.mp member with rfl | before
    · rcases step_cases reached moved with ⟨actor, op, outcome', same, act⟩ | ⟨actor, turn⟩ |
        ⟨_, same, _⟩
      · cases same
        refine ⟨_, ?_, newRow_keeps payload id⟩
        obtain ⟨fate, performed⟩ := act.performed
        rcases perform_commit performed with ⟨error, rfl, _⟩ | ⟨_, world⟩
        · rcases took with heard | ⟨error, late⟩
          · cases heard
          · cases late
        · rw [world, newRow_orders]
          exact Function.update_self ..
      · exact (turn.not_did _ _ _ rfl).elim
      · cases same
    · exact keeps_step reached moved (ih ⟨hop, outcome, before, took⟩)

/-! ### Submissions and events -/

/-- A submission past its insert has ordered what it was asked for. -/
theorem stored_ordered (reached : Reachable (system deployment) allows World.empty pool)
    (thread : Nat) (submission : Submission) (id : Uuid)
    (standing : stage deployment pool thread = .submitting submission)
    (stored : submission.stored = some id) :
    ∃ payload key, OrderedBy pool.trace thread id payload key ∧
      submission.Of payload (Service.usableKey key) := by
  refine each_stage (P := fun pool thread stage => ∀ submission id, stage = .submitting submission →
    submission.stored = some id → ∃ payload key, OrderedBy pool.trace thread id payload key ∧
      submission.Of payload (Service.usableKey key))
    ?_ ?_ ?_ reached thread submission id standing stored
  · rintro pool thread stage (_ | _ | _ | _) submission id standing stored <;> cases standing <;>
      cases stored
  · intro pool label after _ _ moved thread stage _ known submission id standing stored
    obtain ⟨payload, key, ordered, same⟩ := known submission id standing stored
    rw [step_trace moved]
    exact ⟨payload, key, ordered.later label, same⟩
  · intro pool after thread op outcome reached _ _ act known submission id standing stored
    obtain ⟨first, before, moved⟩ := act.progress.submission standing
    have earlier : first.stored = some id → ∃ payload key,
        OrderedBy after.trace thread id payload key ∧
          submission.Of payload (Service.usableKey key) := by
      intro storedBefore
      obtain ⟨payload, key, ordered, same⟩ := known first id before storedBefore
      rw [act.trace]
      exact ⟨payload, key, ordered.later _, moved.of same⟩
    cases moved with
    | inserts payload key drawn hop =>
      obtain ⟨given, ordered, rfl⟩ := inserted_ordered reached hop (.ok ()) before (.inl rfl)
      have same : drawn = id := by
        cases usable : Service.usableKey given <;> rw [usable] at stored <;> cases stored <;> rfl
      subst same
      rw [act.trace]
      refine ⟨payload, given, ordered, ?_⟩
      cases Service.usableKey given <;> exact ⟨rfl, rfl⟩
    | reserves | names | stamps | publishes | finishes => exact earlier stored
    | _ => cases stored

/-- A published event says what was ordered. -/
theorem published_ordered (reached : Reachable (system deployment) allows World.empty pool)
    {event : OrderEvent} (published : PublishedBy deployment pool.trace thread event) :
    ∃ payload key eventId instant, OrderedBy pool.trace thread event.orderId payload key ∧
      event = submittedEvent payload event.orderId eventId instant := by
  induction reached with
  | init =>
    obtain ⟨past, _, _, _, _, _, _, _, _, inside, _⟩ := published
    cases List.suffix_nil.mp inside
  | @step pool label after reached permitted moved ih =>
    obtain ⟨past, happened⟩ := published
    rw [step_trace moved] at happened ⊢
    rcases happened.split with before | ⟨rfl, _, _, outcome, payload, given, id, eventId, instant, rfl, _,
      standing, same⟩
    · obtain ⟨payload, key, eventId, instant, ordered, same⟩ := ih ⟨past, before⟩
      exact ⟨payload, key, eventId, instant, ordered.later label, same⟩
    · obtain ⟨made, key, ordered, rfl, _⟩ :=
        stored_ordered reached thread _ id standing rfl
      subst same
      exact ⟨payload, key, eventId, instant, ordered.later _, rfl⟩

end OrderFlow
