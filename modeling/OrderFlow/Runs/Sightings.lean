import OrderFlow.Guarantees.CacheCoherence
import OrderFlow.Runs.Underway

/-!
What was there to be seen. The worlds a run has been through make its history; an
order a call holds, and an order the cache has, is put together from a row and a
trail of that history.
-/
namespace OrderFlow
open AsyncCoroutine AsyncPool

variable {deployment : Deployment} {allows : Pipeline → Moment → Prop} {pool after : Pipeline}
  {thread : Nat} {op : Op} {outcome : Outcome Exn op.Reply} {history : List World} {id : Uuid}

/-- The worlds of a run, newest first. -/
def worlds (past : List (Pipeline × Moment)) (pool : Pipeline) : List World :=
  pool.world :: past.map fun step => step.1.world

/-- The row stood at some moment. -/
def RowStood (history : List World) (id : Uuid) (row : OrderRow) : Prop :=
  row.id = id ∧ ∃ world ∈ history, world.orders id = some row

/-- The trail stood at one moment, the row then or at an earlier one. -/
def Assembled (history : List World) (order : Order) : Prop :=
  ∃ world older, world :: older <:+ history ∧
    world.transitions order.row.id = order.transitions ∧
    ∃ earlier ∈ world :: older, earlier.orders order.row.id = some order.row

theorem RowStood.later {row : OrderRow} (stood : RowStood history id row) (world : World) :
    RowStood (world :: history) id row := by
  obtain ⟨named, moment, member, found⟩ := stood
  exact ⟨named, moment, List.mem_cons_of_mem _ member, found⟩

theorem Assembled.later {order : Order} (assembled : Assembled history order) (world : World) :
    Assembled (world :: history) order := by
  obtain ⟨moment, older, suffix, trail, row⟩ := assembled
  exact ⟨moment, older, suffix.trans (List.suffix_cons ..), trail, row⟩

/-- A version that stands is put together from one moment. -/
theorem Stands.assembled {world : World} {order : Order} (stands : Stands world order) :
    Assembled (world :: history) order :=
  ⟨world, history, List.suffix_rfl, stands.trail, world, List.mem_cons_self .., stands.row⟩

/-- A row that was read, with the trail that is there now. -/
theorem RowStood.assembled {row : OrderRow} {world : World} (stood : RowStood history id row) :
    Assembled (world :: history) ⟨row, world.transitions id⟩ := by
  obtain ⟨rfl, moment, member, found⟩ := stood
  exact ⟨world, history, List.suffix_rfl, rfl, moment, List.mem_cons_of_mem _ member, found⟩

/-! ### Copies -/

/-- What a call holds was there. -/
def Copy.Witnessed (history : List World) : Copy → Prop
  | .reading id row => RowStood history id row
  | .held order | .created order | .written order | .put order => Assembled history order
  | .empty | .changing _ _ _ | .creating _ _ => True

theorem Copy.Witnessed.later {copy : Copy} (witnessed : copy.Witnessed history) (world : World) :
    copy.Witnessed (world :: history) := by
  cases copy with
  | reading id row => exact RowStood.later witnessed world
  | held order | created order | written order | put order =>
    exact Assembled.later witnessed world
  | _ => trivial

theorem Copy.Witnessed.shown {copy : Copy} {order : Order} (witnessed : copy.Witnessed history)
    (shows : copy.shows = some order) : Assembled history order := by
  cases copy with
  | held held | created held | written held =>
    cases shows
    exact witnessed
  | _ => cases shows

theorem flushed_witnessed (copy : Copy) (hopId : Nat) (writes : List Write) :
    (copy.flushed hopId writes).Witnessed history := by
  unfold Copy.flushed
  split <;> trivial

/-- The copy of a call that commits a change is the version that stands. -/
theorem committing_current
    (reached : Reachable (system deployment) (GuardedRuns deployment) World.empty pool)
    {writes : List Write} {outcome : Outcome Exn Unit}
    (act : Acts deployment pool after thread (.commit writes) outcome)
    (commits : (copy deployment pool thread).Commits writes) :
    (copy deployment pool thread).writes = [] ∨
      (copy deployment pool thread).Current pool.world := by
  cases held : copy deployment pool thread with
  | changing order changes hop =>
    rw [held] at commits
    rcases commits with rfl | ⟨⟨⟩, _⟩
    obtain ⟨delivery, token, aim, reason, row, standing, _⟩ :=
      commits_update act.permitted (List.mem_cons_self ..)
    have works := working guardedRuns_closed guardedRuns_outlive reached thread delivery token _ standing
    rw [← held]
    exact .inr works.1
  | creating row hop => exact .inr trivial
  | _ => exact .inl rfl

theorem committed_witnessed
    (reached : Reachable (system deployment) (GuardedRuns deployment) World.empty pool)
    {writes : List Write} {outcome : Outcome Exn Unit}
    (act : Acts deployment pool after thread (.commit writes) outcome)
    (world : after.world = pool.world.write writes)
    (commits : (copy deployment pool thread).Commits writes) :
    (copy deployment pool thread).committed.Witnessed (after.world :: history) := by
  rcases committing_current reached act commits with none | current
  · cases held : copy deployment pool thread <;> rw [held] at none <;> trivial
  · have stands := committed_current reached act world commits current
    cases held : copy deployment pool thread with
    | changing order changes hop =>
      rw [held] at stands
      exact Stands.assembled stands
    | creating row hop =>
      rw [held] at stands
      exact Stands.assembled stands
    | _ => trivial

/-- A thread's own operation. -/
theorem witnessed_own
    (reached : Reachable (system deployment) (GuardedRuns deployment) World.empty pool)
    (moved : Step (system deployment) pool (.did thread op outcome) after)
    (act : Acts deployment pool after thread op outcome)
    (witnessed : (copy deployment pool thread).Witnessed history) :
    (copy deployment after thread).Witnessed (after.world :: history) := by
  obtain ⟨fate, performed⟩ := act.performed
  have permitted := copy_permitted reached moved
  have stays := witnessed.later after.world
  rw [copy_own moved]
  cases op with
  | selectOrder id =>
    obtain ⟨world, ⟨error, rfl⟩ | rfl | ⟨error, rfl⟩⟩ := perform_selectOrder performed
    · cases copy deployment pool thread <;> trivial
    · cases found : pool.world.orders id with
      | none => cases copy deployment pool thread <;> trivial
      | some row =>
        have stood : RowStood (after.world :: history) id row :=
          ⟨row_named reached id row found, _, List.mem_cons_self .., by rw [world]; exact found⟩
        cases copy deployment pool thread <;> exact stood
    · cases copy deployment pool thread <;> trivial
  | selectTransitions id =>
    obtain ⟨world, result⟩ := perform_selectTransitions performed
    have reads : ∃ row, copy deployment pool thread = .reading id row := by
      cases held : copy deployment pool thread <;> rw [held] at permitted <;>
        first | exact permitted | exact permitted.elim
    obtain ⟨row, reads⟩ := reads
    rw [reads] at witnessed ⊢
    rcases result with ⟨error, rfl⟩ | rfl | ⟨error, rfl⟩
    · trivial
    · rw [← world]
      exact RowStood.assembled witnessed
    · trivial
  | flush writes =>
    rcases outcome with hopId | error | error
    · have goes : ((copy deployment pool thread).flushed hopId writes).Witnessed
          (after.world :: history) := flushed_witnessed ..
      cases held : copy deployment pool thread <;> rw [held] at goes <;> exact goes
    · cases copy deployment pool thread <;> trivial
    · cases copy deployment pool thread <;> trivial
  | commit writes =>
    rcases perform_commit performed with ⟨error, rfl, world⟩ | ⟨rfl | ⟨error, rfl⟩, world⟩
    · cases copy deployment pool thread <;> trivial
    · have commits : (copy deployment pool thread).Commits writes := by
        cases held : copy deployment pool thread <;> rw [held] at permitted <;>
          first | exact permitted | exact permitted.elim
      have committed : (copy deployment pool thread).committed.Witnessed (after.world :: history) :=
        committed_witnessed reached act world commits
      cases held : copy deployment pool thread <;> rw [held] at committed <;> exact committed
    · cases copy deployment pool thread <;> trivial
  | set key text ttl =>
    cases key with
    | order orderId =>
      have shown : (copy deployment pool thread).shown.Witnessed (after.world :: history) := by
        unfold Copy.shown
        split
        · rename_i order shows
          exact (witnessed.shown shows).later _
        · exact stays
      cases held : copy deployment pool thread <;> rw [held] at shown <;> exact shown
    | _ => cases held : copy deployment pool thread <;> rw [held] at stays <;> exact stays
  | rollback | handleCall name record => cases copy deployment pool thread <;> trivial
  | _ => cases held : copy deployment pool thread <;> rw [held] at stays <;> exact stays

/-! ### Readers -/

inductive Sight where
  | nothing
  | entry (text : String)
  | absent
  | selected (row : OrderRow)
  | whole (order : Order)

/-- What a read of an order has last seen of it; other calls are apart. -/
inductive Glance where
  | apart
  | reading (id : Uuid) (sight : Sight)

namespace Glance

def allowed : Glance → Op → Prop
  | .reading id _, .get key => key = .order id.str
  | .reading id _, .selectOrder asked => asked = id
  | .reading id _, .selectTransitions asked => asked = id
  | _, _ => True

def next : Glance → (op : Op) → Outcome Exn op.Reply → Glance
  | .reading id _, .get _, .ok (some text) => .reading id (.entry text)
  | .reading id _, .selectOrder _, .ok none => .reading id .absent
  | .reading id _, .selectOrder _, .ok (some row) => .reading id (.selected row)
  | .reading id (.selected row), .selectTransitions _, .ok trail => .reading id (.whole ⟨row, trail⟩)
  | glance, _, _ => glance

def monitor : Monitor Op Op.Reply Exn Call Glance where
  allowed := allowed
  next := next
  idle := .apart
  born
    | .readOrder id => .reading id .nothing
    | _ => .apart

theorem quiet_apart (op : Op) (_ : True) : monitor.Quiet .apart op :=
  ⟨by cases op <;> trivial, fun _ => by cases op <;> rfl⟩

/-- Operations that show a reader nothing. -/
def Blind : Op → Prop
  | .get _ | .selectOrder _ | .selectTransitions _ => False
  | _ => True

theorem quiet_blind (glance : Glance) (op : Op) (blind : Blind op) : monitor.Quiet glance op := by
  cases op with
  | get | selectOrder | selectTransitions => exact blind.elim
  | _ => rcases glance with _ | ⟨id, _ | _ | _ | _ | _⟩ <;> exact ⟨trivial, fun _ => rfl⟩

/-- How a look into the cache ends. -/
def Looked (deployment : Deployment) (id : Uuid) (result : Except Exn (Option OrderOut))
    (left : Glance) : Prop :=
  (∃ sight, left = .reading id sight) ∧ ∀ out, result = .ok (some out) →
    ∃ text, left = .reading id (.entry text) ∧ deployment.platform.modelValidateJson text = some out

theorem cached_looks (deployment : Deployment) (id : Uuid) :
    monitor.Follows (Cache.getOrder deployment id.str) (Looked deployment id) (.reading id .nothing) := by
  have counts : ∀ field, (incrStat field).Uses Blind := fun field =>
    .tryCatch (Coroutine.uses_perform trivial) fun _ => trivial
  have unheard : ∀ {left : Glance} {result : Except Exn (Option OrderOut)},
      (∃ sight, left = .reading id sight) → (∀ out, result ≠ .ok (some out)) →
        Looked deployment id result left := fun seen other =>
    ⟨seen, fun out answered => (other out answered).elim⟩
  refine Protocol.Follows.bind (Q := fun result left => (∃ sight, left = .reading id sight) ∧
    ∀ raw, result = .ok (some (some raw)) → left = .reading id (.entry raw)) ?_ ?_ ?_
  · refine .tryCatch (Q := fun result left => (∃ sight, left = .reading id sight) ∧
      ∀ raw, result = .ok (some (some raw)) → left = .reading id (.entry raw)) ?_ (fun _ _ held => held) ?_
    · refine .perform_bind rfl (fun raw => ?_) (fun _ => ⟨⟨_, rfl⟩, by rintro _ ⟨⟩⟩)
        fun _ => ⟨⟨_, rfl⟩, by rintro _ ⟨⟩⟩
      cases raw with
      | none => exact ⟨⟨_, rfl⟩, by rintro _ ⟨⟩⟩
      | some raw => exact ⟨⟨_, rfl⟩, by rintro _ ⟨⟩; rfl⟩
    · intro error left held
      exact ⟨held.1, by rintro _ ⟨⟩⟩
  · rintro raw left ⟨seen, entry⟩
    split
    · exact unheard seen (by rintro _ ⟨⟩)
    · refine (Protocol.Follows.of_uses (counts _) (quiet_blind left)).bind ?_ ?_
      · rintro _ _ rfl
        exact unheard seen (by rintro _ ⟨⟩)
      · rintro _ _ rfl
        exact unheard seen (by rintro _ ⟨⟩)
    · rename_i raw
      obtain rfl := entry raw rfl
      refine (Protocol.Follows.of_uses (counts _) (quiet_blind _)).bind ?_ ?_
      · rintro _ _ rfl
        split
        · rename_i out parsed
          refine ⟨seen, ?_⟩
          rintro _ ⟨⟩
          exact ⟨raw, rfl, parsed⟩
        · exact .perform_bind trivial (fun _ => unheard seen (by rintro _ ⟨⟩))
            (fun _ => unheard seen (by rintro _ ⟨⟩)) fun _ => unheard seen (by rintro _ ⟨⟩)
      · rintro _ _ rfl
        exact unheard seen (by rintro _ ⟨⟩)
  · rintro error left ⟨seen, _⟩
    exact unheard seen (by rintro _ ⟨⟩)

/-- How two SELECTs for an order end. -/
def Selected (id : Uuid) (result : Except Exn (Option Order)) (left : Glance) : Prop :=
  (result = .ok none → left = .reading id .absent) ∧
    ∀ order, result = .ok (some order) → left = .reading id (.whole order)

theorem getOrder_selects (id : Uuid) (sight : Sight) :
    monitor.Follows (Repository.getOrder id) (Selected id) (.reading id sight) := by
  refine .perform_bind rfl (fun found => ?_) (fun _ => ⟨by rintro ⟨⟩, by rintro _ ⟨⟩⟩)
    fun _ => ⟨by rintro ⟨⟩, by rintro _ ⟨⟩⟩
  cases found with
  | none => exact ⟨fun _ => rfl, by rintro _ ⟨⟩⟩
  | some row =>
    refine .perform_bind rfl (fun trail => ?_) (fun _ => ⟨by rintro ⟨⟩, by rintro _ ⟨⟩⟩)
      fun _ => ⟨by rintro ⟨⟩, by rintro _ ⟨⟩⟩
    refine ⟨by rintro ⟨⟩, ?_⟩
    rintro _ ⟨⟩
    rfl

/-- What a finished read answers with. -/
def Answered (deployment : Deployment) (id : Uuid) :
    Except Exn (Option OrderRead) → Glance → Prop
  | .ok none, left => left = .reading id .absent
  | .ok (some ⟨out, .cache⟩), left => ∃ text, left = .reading id (.entry text) ∧
      deployment.platform.modelValidateJson text = some out
  | .ok (some ⟨out, .database⟩), left =>
      ∃ order, left = .reading id (.whole order) ∧ out = OrderOut.ofOrder order
  | .error _, _ => True

theorem readOrder_answers (deployment : Deployment) (id : Uuid) :
    monitor.Follows (Service.readOrder deployment id) (Answered deployment id) (.reading id .nothing) := by
  refine (cached_looks deployment id).bind ?_ fun _ _ _ => trivial
  rintro cached left ⟨⟨sight, rfl⟩, looked⟩
  cases cached with
  | some out => exact looked out rfl
  | none =>
    refine (getOrder_selects id sight).bind ?_ fun _ _ _ => trivial
    rintro found left ⟨absent, held⟩
    cases found with
    | none => exact absent rfl
    | some order =>
      obtain rfl := held order rfl
      have puts : (Cache.putOrder deployment order).Uses Blind :=
        .tryCatch (Coroutine.uses_perform trivial) fun _ => trivial
      refine (Protocol.Follows.of_uses puts (quiet_blind _)).bind ?_ fun _ _ _ => trivial
      rintro _ _ rfl
      exact ⟨order, rfl, rfl⟩

/-- What a call leaves behind, given its result. -/
def goal (deployment : Deployment) : Call → Except Exn Result → Glance → Prop
  | .readOrder id, .ok (.read answer), left => Answered deployment id (.ok answer) left
  | _, _, _ => True

theorem keeps (deployment : Deployment) (call : Call) :
    monitor.Follows (program deployment call) (goal deployment call) (monitor.born call) := by
  have apart : ∀ {program : Prog Result}, monitor.Follows program (fun _ _ => True) .apart :=
    fun {program} => (Protocol.Follows.of_uses (Coroutine.uses_all program) quiet_apart).mono
      fun _ _ _ => trivial
  cases call with
  | worker consumer => exact apart
  | submitOrder payload key => exact apart
  | readOrder id => exact (readOrder_answers deployment id).bind (fun _ _ said => said) fun _ _ _ => trivial

end Glance

/-- What the thread's read has last seen. -/
def glance (pool : Pipeline) (thread : Nat) : Glance :=
  Glance.monitor.record pool.trace thread

/-! ### The cache -/

/-- The text is a dump of the order as it was committed. -/
def WasCached (deployment : Deployment) (history : List World) (id : Uuid) (text : String) : Prop :=
  ∃ order, order.row.id = id ∧ Assembled history order ∧
    text = deployment.platform.modelDumpJson (OrderOut.ofOrder order)

theorem WasCached.later {text : String} (cached : WasCached deployment history id text)
    (world : World) : WasCached deployment (world :: history) id text := by
  obtain ⟨order, named, assembled, dumped⟩ := cached
  exact ⟨order, named, assembled.later world, dumped⟩

/-- What a call puts under an order's key was committed. -/
theorem put_witnessed {text : String} {ttl : Nat}
    (permitted : (copy deployment pool thread).allowed deployment (.set (.order id.str) text ttl))
    (witnessed : (copy deployment pool thread).Witnessed history) :
    WasCached deployment history id text := by
  have shown : ∃ order, (copy deployment pool thread).shows = some order ∧
      id.str = order.row.id.str ∧
      text = deployment.platform.modelDumpJson (OrderOut.ofOrder order) := by
    cases held : copy deployment pool thread <;> rw [held] at permitted <;> exact permitted
  obtain ⟨order, shows, same, dumped⟩ := shown
  exact ⟨order, (uuid_str_injective same).symm, witnessed.shown shows, dumped⟩

theorem entries_own (moved : Step (system deployment) pool (.did thread op outcome) after)
    (reached : Reachable (system deployment) allows World.empty pool)
    (act : Acts deployment pool after thread op outcome) {text : String}
    (witnessed : (copy deployment pool thread).Witnessed history)
    (entries : ∀ text, pool.world.redis (.order id.str) = some text →
      WasCached deployment history id text)
    (cached : after.world.redis (.order id.str) = some text) :
    WasCached deployment history id text := by
  by_cases puts : ∃ text ttl, op = .set (.order id.str) text ttl
  · obtain ⟨put, ttl, rfl⟩ := puts
    obtain ⟨fate, performed⟩ := act.performed
    rcases perform_set performed with ⟨_, _, same⟩ | ⟨_, written⟩
    · exact entries text (same ▸ cached)
    · rw [written] at cached
      simp only [World.setRedis, Function.update_self, Option.some.injEq] at cached
      exact cached ▸ put_witnessed (copy_permitted reached moved) witnessed
  · refine entries text (entry_before act ?_ cached)
    rintro put ttl rfl
    exact puts ⟨put, ttl, rfl⟩

/-! ### What readers have seen -/

/-- What a read has seen of the order was there. -/
def Sight.Genuine (deployment : Deployment) (history : List World) (id : Uuid) : Sight → Prop
  | .nothing => True
  | .entry text => WasCached deployment history id text
  | .absent => ∃ world ∈ history, world.orders id = none
  | .selected row => RowStood history id row
  | .whole order => order.row.id = id ∧ Assembled history order

def Glance.Genuine (deployment : Deployment) (history : List World) : Glance → Prop
  | .apart => True
  | .reading id sight => sight.Genuine deployment history id

theorem Glance.Genuine.later {glance : Glance} (genuine : glance.Genuine deployment history)
    (world : World) : glance.Genuine deployment (world :: history) := by
  cases glance with
  | apart => trivial
  | reading id sight =>
    cases sight with
    | nothing => trivial
    | entry text =>
      have cached : WasCached deployment history id text := genuine
      exact cached.later world
    | absent =>
      obtain ⟨moment, member, none⟩ := genuine
      exact ⟨moment, List.mem_cons_of_mem _ member, none⟩
    | selected row =>
      have stood : RowStood history id row := genuine
      exact stood.later world
    | whole order => exact ⟨genuine.1, genuine.2.later world⟩

/-- A reader's own operation shows it what is there. -/
theorem genuine_own (reached : Reachable (system deployment) allows World.empty pool)
    (moved : Step (system deployment) pool (.did thread op outcome) after)
    (act : Acts deployment pool after thread op outcome)
    (entries : ∀ id text, pool.world.redis (.order id.str) = some text →
      WasCached deployment history id text)
    (genuine : (glance pool thread).Genuine deployment history) :
    (glance after thread).Genuine deployment (after.world :: history) := by
  obtain ⟨fate, performed⟩ := act.performed
  have permitted : (glance pool thread).allowed op := by
    cases moved with
    | did _ call _ resume fate _ world awaiting performed =>
      exact Monitor.allowed_of_awaiting (Glance.keeps deployment) reached awaiting
  have own : glance after thread = (glance pool thread).next op outcome := by
    rw [glance, step_trace moved]
    exact Monitor.record_did_self ..
  rw [own]
  have stays := genuine.later after.world
  generalize glance pool thread = seen at permitted genuine stays
  cases seen with
  | apart => cases op <;> trivial
  | reading id sight =>
    cases op with
    | get key =>
      obtain rfl := permitted
      obtain ⟨_, ⟨error, rfl⟩ | rfl | ⟨error, rfl⟩⟩ := perform_get performed
      · cases sight <;> exact stays
      · cases stored : pool.world.redis (.order id.str) with
        | none => cases sight <;> exact stays
        | some text =>
          have cached : WasCached deployment (after.world :: history) id text :=
            (entries id text stored).later _
          cases sight <;> exact cached
      · cases sight <;> exact stays
    | selectOrder asked =>
      obtain rfl := permitted
      obtain ⟨world, ⟨error, rfl⟩ | rfl | ⟨error, rfl⟩⟩ := perform_selectOrder performed
      · cases sight <;> exact stays
      · cases found : pool.world.orders asked with
        | none =>
          have absent : ∃ moment ∈ after.world :: history, moment.orders asked = none :=
            ⟨_, List.mem_cons_self .., by rw [world]; exact found⟩
          cases sight <;> exact absent
        | some row =>
          have stood : RowStood (after.world :: history) asked row :=
            ⟨row_named reached asked row found, _, List.mem_cons_self .., by rw [world]; exact found⟩
          cases sight <;> exact stood
      · cases sight <;> exact stays
    | selectTransitions asked =>
      obtain rfl := permitted
      obtain ⟨world, ⟨error, rfl⟩ | rfl | ⟨error, rfl⟩⟩ := perform_selectTransitions performed
      · cases sight <;> exact stays
      · cases sight with
        | selected row =>
          have stood : RowStood history asked row := genuine
          rw [← world]
          exact ⟨stood.1, stood.assembled⟩
        | _ => exact stays
      · cases sight <;> exact stays
    | _ => cases sight <;> exact stays

/-- Nobody else tells a reader anything; a call begins with nothing seen. -/
theorem glance_other {label : Moment} (moved : Step (system deployment) pool label after)
    (others : ∀ op outcome, label ≠ .did thread op outcome) :
    glance after thread = glance pool thread ∨ glance after thread = .apart ∨
      ∃ id, glance after thread = .reading id .nothing := by
  unfold glance
  rw [step_trace moved]
  cases label with
  | did actor op outcome =>
    have differ : thread ≠ actor := by
      rintro rfl
      exact others op outcome rfl
    exact .inl (Monitor.record_did_other _ differ ..)
  | start actor call | again actor call =>
    by_cases same : thread = actor
    · cases call with
      | readOrder id => exact .inr (.inr ⟨id, by simp [Monitor.record, same, Glance.monitor]⟩)
      | _ => exact .inr (.inl (by simp [Monitor.record, same, Glance.monitor]))
    · exact .inl (by simp [Monitor.record, same])
  | crash actor =>
    by_cases same : thread = actor
    · exact .inr (.inl (by simp [Monitor.record, same, Glance.monitor]))
    · exact .inl (by simp [Monitor.record, same])
  | event event => exact .inl rfl

/-! ### Whole runs -/

/-- Copies, cached texts and what readers have seen all come from the run's history. -/
structure Historic (deployment : Deployment) (history : List World) (pool : Pipeline) : Prop where
  copies : ∀ thread, (copy deployment pool thread).Witnessed history
  entries : ∀ id text, pool.world.redis (.order id.str) = some text →
    WasCached deployment history id text
  glances : ∀ thread, (glance pool thread).Genuine deployment history

theorem Historic.step (historic : Historic deployment history pool)
    (reached : Reachable (system deployment) (GuardedRuns deployment) World.empty pool)
    {label : Moment} (moved : Step (system deployment) pool label after) :
    Historic deployment (after.world :: history) after := by
  have copies : ∀ thread, (∀ op outcome, label ≠ .did thread op outcome) →
      (copy deployment after thread).Witnessed (after.world :: history) := by
    intro thread others
    rcases copy_other moved others with same | emptied
    · rw [same]
      exact (historic.copies thread).later _
    · rw [emptied]
      trivial
  have glances : ∀ thread, (∀ op outcome, label ≠ .did thread op outcome) →
      (glance after thread).Genuine deployment (after.world :: history) := by
    intro thread others
    rcases glance_other moved others with same | same | ⟨id, same⟩
    · rw [same]
      exact (historic.glances thread).later _
    · rw [same]
      trivial
    · rw [same]
      trivial
  rcases step_cases reached moved with ⟨actor, op, outcome, rfl, act⟩ | ⟨actor, turn⟩ |
    ⟨event, rfl, happening⟩
  · refine ⟨fun thread => ?_, fun id text cached => ?_, fun thread => ?_⟩
    · by_cases same : thread = actor
      · subst same
        exact witnessed_own reached moved act (historic.copies thread)
      · refine copies thread ?_
        rintro _ _ ⟨⟩
        exact same rfl
    · exact (entries_own moved reached act (historic.copies actor) (historic.entries id) cached).later _
    · by_cases same : thread = actor
      · subst same
        exact genuine_own reached moved act historic.entries (historic.glances thread)
      · refine glances thread ?_
        rintro _ _ ⟨⟩
        exact same rfl
  · refine ⟨fun thread => copies thread (turn.not_did thread), fun id text cached => ?_,
      fun thread => glances thread (turn.not_did thread)⟩
    rw [turn.world] at cached
    exact (historic.entries id text cached).later _
  · refine ⟨fun thread => copies thread (by rintro _ _ ⟨⟩), fun id text cached => ?_,
      fun thread => glances thread (by rintro _ _ ⟨⟩)⟩
    rcases happen_redis happening.happened (.order id.str) with same | ⟨_, none⟩
    · rw [same] at cached
      exact (historic.entries id text cached).later _
    · rw [none] at cached
      cases cached

theorem historic {past : List (Pipeline × Moment)}
    (path : Path (system deployment) (GuardedRuns deployment) (.initial .empty) past pool) :
    Historic deployment (worlds past pool) pool := by
  induction path with
  | here =>
    refine ⟨fun thread => trivial, fun id text cached => ?_, fun thread => trivial⟩
    cases cached
  | step walked permitted moved ih => exact ih.step (walked.reachable .init) moved

end OrderFlow
