import OrderFlow.Ladder
import OrderFlow.Runs.Attempts
import OrderFlow.Runs.Versions

/-!
Where the columns of an order come from. Whatever fails, expires or is delivered
again, a verdict in the table is one `fulfil` gave for the order, in a call of
`handle` on a record that names it.
-/
namespace OrderFlow
open AsyncCoroutine AsyncPool

variable {deployment : Deployment} {allows : Pipeline → Moment → Prop} {pool after : Pipeline}
  {thread : Nat} {op : Op} {outcome : Outcome Exn op.Reply} {trace : List Moment}
  {record : ConsumerRecord} {label : Moment}

/-- A call of `handle` on the record called `fulfil` for the event, which ended so. -/
def Fulfilled (trace : List Moment) (record : ConsumerRecord) (event : OrderEvent)
    (result : Except Exn Unit) : Prop :=
  ∃ thread later past outcome, trace = later ++ .did thread (.fulfil event) outcome :: past ∧
    outcome.reply = result ∧ Entered past thread record

/-- The record decodes to an event of this order. -/
def About (deployment : Deployment) (record : ConsumerRecord) (event : OrderEvent) (id : Uuid) :
    Prop :=
  deployment.platform.modelValidate record.value = .ok event ∧ event.orderId = id

/-- `fulfil` was called for the order and ended so, on a record of this attempt. -/
structure Judged (deployment : Deployment) (trace : List Moment) (id : Uuid) (attempt : Nat)
    (result : Except Exn Unit) : Prop where
  judged : ∃ record event, Fulfilled trace record event result ∧
    About deployment record event id ∧ record.headers.getAttempt = attempt

/-- What `_fail` writes as the reason. -/
def explanation : Except Exn Unit → Option PyStr
  | .error (.transient message) => some message
  | .error (.permanent message) => some message
  | _ => none

/-- The status is PROCESSING and unexplained, or one that a call of `fulfil` led to. -/
def Led (deployment : Deployment) (trace : List Moment) (id : Uuid) (attempt : Nat)
    (aim : OrderStatus) (reason : Option PyStr) : Prop :=
  aim = .processing ∧ reason = none ∨ ∃ result, Concludes result ∧
    deployment.settings.aim attempt result = aim ∧ explanation result = reason ∧
      Judged deployment trace id attempt result

theorem Fulfilled.later {event : OrderEvent} {result : Except Exn Unit}
    (fulfilled : Fulfilled trace record event result) (label : Moment) :
    Fulfilled (label :: trace) record event result := by
  obtain ⟨thread, later, past, outcome, rfl, ended, entered⟩ := fulfilled
  exact ⟨thread, label :: later, past, outcome, rfl, ended, entered⟩

theorem Judged.later {id : Uuid} {attempt : Nat} {result : Except Exn Unit}
    (judged : Judged deployment trace id attempt result) (label : Moment) :
    Judged deployment (label :: trace) id attempt result := by
  obtain ⟨record, event, fulfilled, about⟩ := judged
  exact ⟨record, event, fulfilled.later label, about⟩

theorem Led.later {id : Uuid} {attempt : Nat} {aim : OrderStatus} {reason : Option PyStr}
    (led : Led deployment trace id attempt aim reason) (label : Moment) :
    Led deployment (label :: trace) id attempt aim reason := by
  rcases led with begun | ⟨result, concludes, aims, explains, judged⟩
  · exact .inl begun
  · exact .inr ⟨result, concludes, aims, explains, judged.later label⟩

/-! ### Deliveries -/

/-- What a delivery on its way to a commit has seen. -/
def Phase.Seen (deployment : Deployment) (trace : List Moment) (delivery : Delivery deployment) :
    Phase → Prop
  | .towards aim reason | .read aim reason _ =>
      Led deployment trace delivery.event.orderId delivery.attempt aim reason
  | _ => True

theorem Phase.Seen.later {delivery : Delivery deployment} {phase : Phase}
    (seen : phase.Seen deployment trace delivery) (label : Moment) :
    phase.Seen deployment (label :: trace) delivery := by
  cases phase with
  | towards | read => exact Led.later seen label
  | _ => trivial

/-- The way `fulfil` ended decides where a delivery goes on to. -/
theorem decide_seen {delivery : Delivery deployment} {result : Except Exn Unit}
    (fulfilled : Fulfilled trace delivery.record delivery.event result) :
    (Phase.decide delivery result).Seen deployment trace delivery := by
  have judged : Judged deployment trace delivery.event.orderId delivery.attempt result :=
    ⟨delivery.record, delivery.event, fulfilled, ⟨delivery.valid, rfl⟩, rfl⟩
  cases result with
  | ok done => exact .inr ⟨.ok done, trivial, rfl, rfl, judged⟩
  | error error =>
    cases error with
    | transient message =>
      simp only [Phase.decide]
      split
      · rename_i below
        exact .inr ⟨.error (.transient message), trivial, if_pos below, rfl, judged⟩
      · rename_i last
        exact .inr ⟨.error (.transient message), trivial, if_neg last, rfl, judged⟩
    | permanent message => exact .inr ⟨.error (.permanent message), trivial, rfl, rfl, judged⟩
    | _ => trivial

theorem deliveries_seen (reached : Reachable (system deployment) allows World.empty pool)
    (thread : Nat) (delivery : Delivery deployment) (token : String) (phase : Phase)
    (standing : stage deployment pool thread = .holding delivery token phase) :
    phase.Seen deployment pool.trace delivery := by
  refine each_stage (P := fun pool _ stage => ∀ delivery token phase,
    stage = .holding delivery token phase → phase.Seen deployment pool.trace delivery)
    ?_ ?_ ?_ reached thread delivery token phase standing
  · intro pool thread stage begins delivery token phase standing
    exact (begins_holding begins standing).elim
  · intro pool label after _ _ moved thread stage _ known delivery token phase standing
    rw [step_trace moved]
    exact (known delivery token phase standing).later label
  · intro pool after thread op outcome reached _ _ act known delivery token phase standing
    rw [act.trace]
    rcases act.progress.holding standing with ⟨first, before, moved⟩ | ⟨rfl, _⟩
    · have seen := (known delivery token first before).later (.did thread op outcome)
      cases moved with
      | checks row =>
        unfold Phase.checked
        split
        · trivial
        · exact .inl ⟨rfl, rfl⟩
      | fulfils reason result =>
        refine decide_seen ⟨thread, [], pool.trace, _, rfl, rfl, ?_⟩
        exact entered reached thread delivery.record (by rw [before]; rfl) (by rw [before]; rfl)
      | rereads aim reason row => exact seen
      | stays => exact seen
      | _ => trivial
    · trivial

/-! ### Rows -/

/-- A call of `handle` has begun on a record of this order and attempt. -/
def Attempted (deployment : Deployment) (trace : List Moment) (id : Uuid) (attempt : Nat) : Prop :=
  ∃ thread record event outcome,
    Label.did thread (.handleCall Consumer.processor.name record) outcome ∈ trace ∧
      About deployment record event id ∧ record.headers.getAttempt = attempt

/-- A call of `fulfil` for the order led to this status. -/
def Reached (deployment : Deployment) (trace : List Moment) (id : Uuid) (status : OrderStatus) :
    Prop :=
  ∃ attempt result, Judged deployment trace id attempt result ∧ Concludes result ∧
    deployment.settings.aim attempt result = status

/-- Every column of the row has its origin. -/
structure Earned (deployment : Deployment) (trace : List Moment) (row : OrderRow) : Prop where
  status : row.status.terminal = true → Reached deployment trace row.id row.status
  attempts : row.attempts = 0 ∨ Attempted deployment trace row.id row.attempts
  reason : ∀ message, row.failureReason = some message → ∃ attempt result,
    Judged deployment trace row.id attempt result ∧ explanation result = some message

/-- The hop is no verdict, or one that a call of `fulfil` led to. -/
def HopEarned (deployment : Deployment) (trace : List Moment) (id : Uuid)
    (hop : StatusTransition) : Prop :=
  hop.toStatus.terminal = true → Reached deployment trace id hop.toStatus

theorem Reached.later {id : Uuid} {status : OrderStatus}
    (reached : Reached deployment trace id status) (label : Moment) :
    Reached deployment (label :: trace) id status := by
  obtain ⟨attempt, result, judged, leads⟩ := reached
  exact ⟨attempt, result, judged.later label, leads⟩

theorem Earned.later {row : OrderRow} (earned : Earned deployment trace row) (label : Moment) :
    Earned deployment (label :: trace) row where
  status terminal := (earned.status terminal).later label
  attempts := by
    rcases earned.attempts with none | ⟨thread, record, event, outcome, member, about⟩
    · exact .inl none
    · exact .inr ⟨thread, record, event, outcome, List.mem_cons_of_mem _ member, about⟩
  reason message explained := by
    obtain ⟨attempt, result, judged, explains⟩ := earned.reason message explained
    exact ⟨attempt, result, judged.later label, explains⟩

theorem Led.reached {id : Uuid} {attempt : Nat} {aim : OrderStatus} {reason : Option PyStr}
    (led : Led deployment trace id attempt aim reason) (terminal : aim.terminal = true) :
    Reached deployment trace id aim := by
  rcases led with ⟨rfl, _⟩ | ⟨result, concludes, aims, _, judged⟩
  · cases terminal
  · exact ⟨attempt, result, judged, concludes, aims⟩

theorem column_set {Value : Type} [DecidableEq Value] (written read old : Value) :
    (if written = read then none else some written).getD old = old ∨
      (if written = read then none else some written).getD old = written := by
  by_cases same : written = read <;> simp [same]

/-- The columns of a row after a change: as they were, or as the new row has them. -/
theorem changes_columns (read moved row : OrderRow) :
    (((Repository.changesOf read moved).apply row).status = row.status ∨
        ((Repository.changesOf read moved).apply row).status = moved.status) ∧
      (((Repository.changesOf read moved).apply row).attempts = row.attempts ∨
        ((Repository.changesOf read moved).apply row).attempts = moved.attempts) ∧
      (((Repository.changesOf read moved).apply row).failureReason = row.failureReason ∨
        ((Repository.changesOf read moved).apply row).failureReason = moved.failureReason) :=
  ⟨column_set .., column_set .., column_set ..⟩

/-- A change is made column by column; what it leaves alone was earned before. -/
theorem Earned.changed {read row : OrderRow} {attempt : Nat} {aim : OrderStatus}
    {reason : Option PyStr} (earned : Earned deployment trace row)
    (attempted : Attempted deployment trace row.id attempt)
    (led : Led deployment trace row.id attempt aim reason) :
    Earned deployment trace ((Repository.changesOf read
      (Repository.transitionRow read aim attempt reason)).apply row) := by
  obtain ⟨status, attempts, explains⟩ :=
    changes_columns read (Repository.transitionRow read aim attempt reason) row
  constructor
  · intro terminal
    rcases status with kept | set
    · rw [kept] at terminal ⊢
      exact earned.status terminal
    · rw [set] at terminal ⊢
      exact led.reached terminal
  · rcases attempts with kept | set
    · rw [kept]
      exact earned.attempts
    · rw [set]
      exact .inr attempted
  · intro message explained
    rcases explains with kept | set
    · exact earned.reason message (kept ▸ explained)
    · rw [set] at explained
      rcases led with ⟨_, none⟩ | ⟨result, _, _, explains, judged⟩
      · rw [show reason = some message from explained] at none
        cases none
      · exact ⟨attempt, result, judged, explains.trans explained⟩

/-- What a delivery about to commit writes was earned. -/
theorem reading_led (reached : Reachable (system deployment) allows World.empty pool)
    {delivery : Delivery deployment} {token : String} {aim : OrderStatus}
    {reason : Option PyStr} {row : OrderRow}
    (standing : stage deployment pool thread = .holding delivery token (.read aim reason row)) :
    row.id = delivery.event.orderId ∧ Attempted deployment pool.trace row.id delivery.attempt ∧
      Led deployment pool.trace row.id delivery.attempt aim reason := by
  have named := (sighted reached thread delivery token _ standing).named aim reason row rfl
  rw [named]
  refine ⟨rfl, ?_, deliveries_seen reached thread delivery token _ standing⟩
  obtain ⟨since, before, outcome, split, _⟩ := entered reached thread delivery.record
    (by rw [standing]; rfl) (by rw [standing]; rfl)
  refine ⟨thread, delivery.record, delivery.event, outcome, ?_, ⟨delivery.valid, rfl⟩, rfl⟩
  rw [split]
  exact List.mem_append_right _ (List.mem_cons_self ..)

theorem rows_earned (reached : Reachable (system deployment) allows World.empty pool) :
    ∀ id row, pool.world.orders id = some row → Earned deployment pool.trace row := by
  induction reached with
  | init =>
    intro id row found
    cases found
  | @step pool label after reached permitted moved ih =>
    intro id row found
    rw [step_trace moved]
    apply Earned.later
    rcases step_versions reached moved with ⟨orders, _⟩ | ⟨thread, op, outcome, rfl, act, change⟩
    · exact ih id row (orders ▸ found)
    · cases change with
      | same orders _ => exact ih id row (orders ▸ found)
      | inserted payload key new hop _ _ world _ =>
        rw [world, create_orders] at found
        by_cases same : id = (Repository.newRow payload new).id
        · rw [same, Function.update_self] at found
          cases found
          refine ⟨?_, .inl rfl, ?_⟩
          · rintro ⟨⟩
          · rintro message ⟨⟩
        · rw [Function.update_of_ne same] at found
          exact ih id row found
      | updated delivery token aim reason read note hop _ standing world _ =>
        rw [world, transition_orders] at found
        by_cases same : id = read.id
        · rw [same, Function.update_self, Option.map_eq_some_iff] at found
          obtain ⟨before, stood, rfl⟩ := found
          obtain ⟨_, attempted, led⟩ := reading_led reached standing
          rw [← row_named reached read.id before stood] at attempted led
          exact (ih read.id before stood).changed attempted led
        · rw [Function.update_of_ne same] at found
          exact ih id row found

theorem hops_earned (reached : Reachable (system deployment) allows World.empty pool) :
    ∀ id, ∀ hop ∈ pool.world.transitions id, HopEarned deployment pool.trace id hop := by
  induction reached with
  | init =>
    intro id hop member
    cases member
  | @step pool label after reached permitted moved ih =>
    intro id hop member terminal
    rw [step_trace moved]
    apply Reached.later
    rcases step_versions reached moved with ⟨_, trails⟩ | ⟨thread, op, outcome, rfl, act, change⟩
    · exact ih id hop (trails ▸ member) terminal
    · cases change with
      | same _ trails => exact ih id hop (trails ▸ member) terminal
      | inserted payload key new number _ _ world _ =>
        rw [world, create_transitions] at member
        rcases mem_committed member with rfl | before
        · cases terminal
        · exact ih id hop before terminal
      | updated delivery token aim reason read note number _ standing world _ =>
        rw [world, transition_transitions] at member
        by_cases same : id = read.id
        · subst same
          rcases mem_committed member with rfl | before
          · obtain ⟨_, _, led⟩ := reading_led reached standing
            exact led.reached terminal
          · exact ih read.id hop before terminal
        · rw [Function.update_of_ne same] at member
          exact ih id hop member terminal

end OrderFlow
