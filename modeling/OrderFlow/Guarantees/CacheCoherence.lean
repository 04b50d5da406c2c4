import OrderFlow.Runs.Keys
import OrderFlow.Runs.Versions
import OrderFlow.Sample

/-!
The cached order at rest. The put after a commit makes the entry current again,
unless a call that read the order before that commit puts what it read after it.
-/
namespace OrderFlow
open AsyncCoroutine AsyncPool

variable {deployment : Deployment} {allows : Pipeline → Moment → Prop} {pool after : Pipeline}
  {thread : Nat} {op : Op} {outcome : Outcome Exn op.Reply} {label : Moment}

/-- No commit and no put of an order in the cache fails, and no call crashes. -/
structure Healthy (label : Moment) : Prop where
  commits : ∀ thread writes outcome, label = .did thread (.commit writes) outcome →
    outcome = .ok ()
  puts : ∀ thread orderId text ttl outcome,
    label = .did thread (.set (.order orderId) text ttl) outcome → outcome = .ok ()
  stays : ∀ thread, label ≠ .crash thread

/-- The call is at work with a copy of the order. -/
def Holding (deployment : Deployment) (pool : Pipeline) (thread : Nat) (id : Uuid) : Prop :=
  pool.InFlight thread ∧ (copy deployment pool thread).of = some id

/-- No change of an order commits while another call holds a copy of it. -/
def Coherent (deployment : Deployment) (pool : Pipeline) (label : Moment) : Prop :=
  Healthy label ∧ ∀ thread id, Holding deployment pool thread id → ¬ Disturbs label thread id

/-! ### Copies of calls in flight -/

theorem in_flight_before (moved : Step (system deployment) pool label after)
    (running : after.InFlight thread) :
    pool.InFlight thread ∨ copy deployment after thread = .empty := by
  obtain ⟨current, held, suspended⟩ := running
  cases moved with
  | start actor call unused =>
    by_cases same : thread = actor
    · right
      simp [copy, Monitor.record, same, Copy.monitor]
    · simp only [Function.update_of_ne same] at held
      exact .inl ⟨current, held, suspended⟩
  | did actor call op resume fate outcome world awaiting performed =>
    by_cases same : thread = actor
    · subst same
      exact .inl ⟨_, awaiting, trivial⟩
    · simp only [Function.update_of_ne same] at held
      exact .inl ⟨current, held, suspended⟩
  | again actor call next result ended loops =>
    by_cases same : thread = actor
    · right
      simp [copy, Monitor.record, same, Copy.monitor]
    · simp only [Function.update_of_ne same] at held
      exact .inl ⟨current, held, suspended⟩
  | crash actor inFlight =>
    by_cases same : thread = actor
    · simp [same] at held
    · simp only [Function.update_of_ne same] at held
      exact .inl ⟨current, held, suspended⟩
  | event event world happened => exact .inl ⟨current, held, suspended⟩

/-- The copy of every call in flight is the version that stands. -/
theorem held_current
    (reached : Reachable (system deployment) (Coherent deployment) World.empty pool) :
    ∀ thread, pool.InFlight thread → (copy deployment pool thread).Current pool.world := by
  induction reached with
  | init =>
    intro thread running
    obtain ⟨_, held, _⟩ := running
    cases held
  | step reached permitted moved ih =>
    intro thread running
    cases in_flight_before moved running with
    | inl before =>
      apply current_step reached moved (ih thread before)
      intro id held
      exact permitted.2 thread id ⟨before, held⟩
    | inr emptied =>
      rw [emptied]
      trivial

/-- A call never ends between its commit and the put after it. -/
theorem written_in_flight (reached : Reachable (system deployment) allows World.empty pool)
    {order : Order} (written : copy deployment pool thread = .written order) :
    pool.InFlight thread := by
  cases held : pool.threads thread with
  | none =>
    have idle := Monitor.record_gone (Copy.monitor deployment) reached thread held
    rw [copy, idle] at written
    cases written
  | some running =>
    have follows := Monitor.follows_of_reachable (Copy.keeps deployment) reached thread running held
    have loosened : ∀ result, ¬ Copy.goal running.call result (copy deployment pool thread) := by
      intro result reached
      have loose := Copy.goal_loose reached
      rw [written] at loose
      cases loose
    obtain ⟨call, program⟩ := running
    cases program with
    | await op resume => exact ⟨_, held, trivial⟩
    | ret value => exact (loosened _ follows).elim
    | raise error => exact (loosened _ follows).elim

/-- Nobody else's step takes away what a call has to put. -/
theorem written_kept (reached : Reachable (system deployment) allows World.empty pool)
    (moved : Step (system deployment) pool label after) (healthy : Healthy label) {order : Order}
    (written : copy deployment pool thread = .written order)
    (others : ∀ op outcome, label ≠ .did thread op outcome) :
    copy deployment after thread = .written order := by
  obtain ⟨current, held, suspended⟩ := written_in_flight reached written
  have same : (∀ call, label ≠ .start thread call) → (∀ call, label ≠ .again thread call) →
      copy deployment after thread = copy deployment pool thread := by
    intro starts again
    unfold copy
    rw [step_trace moved]
    cases label with
    | did actor op outcome =>
      refine Monitor.record_did_other _ ?_ ..
      intro same
      exact others op outcome (same ▸ rfl)
    | start actor call =>
      have differ : thread ≠ actor := fun same => starts call (same ▸ rfl)
      simp [Monitor.record, differ]
    | again actor call =>
      have differ : thread ≠ actor := fun same => again call (same ▸ rfl)
      simp [Monitor.record, differ]
    | crash actor => exact (healthy.stays actor rfl).elim
    | event event => rfl
  rw [← written]
  apply same
  · intro call begins
    subst begins
    cases moved with
    | start _ _ unused => exact started_of_held reached thread current held unused
  · intro call loops
    subst loops
    cases moved with
    | again _ _ _ _ ended _ =>
      rw [held] at ended
      cases ended
      exact suspended

/-! ### The entry -/

/-- The text is the dump of the order as it is committed. -/
def UpToDate (deployment : Deployment) (world : World) (id : Uuid) (text : String) : Prop :=
  ∃ order, order.row.id = id ∧ Stands world order ∧
    text = deployment.platform.modelDumpJson (OrderOut.ofOrder order)

/-- A call has committed the order and is about to put it. -/
def Overwrites (deployment : Deployment) (pool : Pipeline) (id : Uuid) : Prop :=
  ∃ thread order, copy deployment pool thread = .written order ∧ order.row.id = id

theorem UpToDate.same {world later : World} {id : Uuid} {text : String}
    (upToDate : UpToDate deployment world id text) (orders : later.orders id = world.orders id)
    (transitions : later.transitions id = world.transitions id) :
    UpToDate deployment later id text := by
  obtain ⟨order, rfl, stands, shows⟩ := upToDate
  exact ⟨order, rfl, ⟨orders.trans stands.row, transitions.trans stands.trail⟩, shows⟩

/-- Only a put writes the entry of an order; expiry and deletion take it away. -/
theorem entry_before (act : Acts deployment pool after thread op outcome) {orderId text : String}
    (other : ∀ text ttl, op ≠ .set (.order orderId) text ttl)
    (cached : after.world.redis (.order orderId) = some text) :
    pool.world.redis (.order orderId) = some text := by
  obtain ⟨fate, performed⟩ := act.performed
  have elsewhere : ∀ {key : Key} {value : Option String}, key ≠ .order orderId →
      after.world = pool.world.setRedis key value → pool.world.redis (.order orderId) = some text := by
    intro key value differ written
    rw [written] at cached
    simpa [World.setRedis, Function.update_of_ne differ.symm] using cached
  have onGuard : ∀ {key : Key} {value : Option String}, (∃ eventId, key = .eventGuard eventId) →
      after.world = pool.world.setRedis key value → pool.world.redis (.order orderId) = some text := by
    intro key value guard written
    obtain ⟨eventId, rfl⟩ := guard
    exact elsewhere (by simp) written
  cases op with
  | setNx key value ttl =>
    have guard := permitted_guard act.permitted (.inl ⟨_, _, rfl⟩)
    rcases perform_setNx performed with ⟨_, _, same⟩ | ⟨_, _, written⟩ | ⟨_, _, same⟩
    · exact same ▸ cached
    · exact onGuard guard written
    · exact same ▸ cached
  | set key value ttl =>
    rcases perform_set performed with ⟨_, _, same⟩ | ⟨_, written⟩
    · exact same ▸ cached
    · apply elsewhere ?_ written
      intro same
      exact other value ttl (same ▸ rfl)
  | delete key =>
    rcases perform_delete performed with ⟨_, _, same⟩ | ⟨_, written⟩
    · exact same ▸ cached
    · by_cases differ : key = .order orderId
      · rw [written, differ] at cached
        simp [World.setRedis] at cached
      · exact elsewhere differ written
  | evalComplete key value ttl =>
    have guard := permitted_guard act.permitted (.inr (.inl ⟨_, _, rfl⟩))
    rcases perform_evalComplete performed with ⟨_, _, same⟩ | ⟨_, _, written⟩ | ⟨_, _, same⟩
    · exact same ▸ cached
    · exact onGuard guard written
    · exact same ▸ cached
  | evalRelease key value =>
    have guard := permitted_guard act.permitted (.inr (.inr ⟨_, rfl⟩))
    rcases perform_evalRelease performed with ⟨_, _, same⟩ | ⟨_, _, written⟩ | ⟨_, _, same⟩
    · exact same ▸ cached
    · exact onGuard guard written
    · exact same ▸ cached
  | _ =>
    rw [perform_redis performed rfl] at cached
    exact cached

/-- What a call puts is the version that stands. -/
theorem put_up_to_date {text : String} {ttl : Nat} {id : Uuid}
    (permitted : (copy deployment pool thread).allowed deployment (.set (.order id.str) text ttl))
    (current : (copy deployment pool thread).Current pool.world) :
    UpToDate deployment pool.world id text := by
  have shown : ∃ order, (copy deployment pool thread).shows = some order ∧
      id.str = order.row.id.str ∧
      text = deployment.platform.modelDumpJson (OrderOut.ofOrder order) := by
    cases held : copy deployment pool thread <;> rw [held] at permitted <;> exact permitted
  obtain ⟨order, shows, same, dumped⟩ := shown
  have stands : Stands pool.world order := by
    cases held : copy deployment pool thread <;> rw [held] at shows current <;> cases shows <;>
      exact current
  exact ⟨order, (uuid_str_injective same).symm, stands, dumped⟩

/-- A put that succeeds leaves what it put. -/
theorem entry_put {id : Uuid} {put text : String} {ttl : Nat} {fate : Fate}
    (performed : perform deployment thread (.set (.order id.str) put ttl) pool.world fate =
      some (.ok (), after.world))
    (upToDate : UpToDate deployment pool.world id put)
    (cached : after.world.redis (.order id.str) = some text) :
    UpToDate deployment after.world id text := by
  rcases perform_set performed with ⟨_, lost, _⟩ | ⟨_, written⟩
  · cases lost
  · have same : put = text := by
      rw [written] at cached
      simpa [World.setRedis] using cached
    rw [written, ← same]
    exact upToDate.same rfl rfl

/-- After its commit a call can only put the order it committed. -/
theorem written_puts {order : Order} (permitted : (Copy.written order).allowed deployment op) :
    ∃ text ttl, op = .set (.order order.row.id.str) text ttl := by
  cases op with
  | set key text ttl =>
    cases key with
    | order orderId =>
      obtain ⟨shown, shows, named, _⟩ := permitted
      cases shows
      exact ⟨text, ttl, by rw [named]⟩
    | _ => exact permitted.elim
  | _ => exact permitted.elim

/-- A commit of a change leaves a call that has to put it. -/
theorem updated_overwrites {before row : OrderRow} {note : Option PyStr} {hop : Nat}
    (moved : Step (system deployment) pool
      (.did thread (.commit (Repository.transitionWrites before row note hop)) (.ok ())) after)
    (permitted : (copy deployment pool thread).allowed deployment
      (.commit (Repository.transitionWrites before row note hop))) :
    Overwrites deployment after before.id := by
  obtain ⟨order, named, drafts⟩ := changes_drafted permitted
  have own := copy_own moved
  rw [drafts] at own
  exact ⟨thread, _, own, (changes_id ..).trans named⟩

/-- An entry that is there stays current under the step of one call, or that call
    has just committed a change and will overwrite it. -/
theorem up_to_date_acts (reached : Reachable (system deployment) allows World.empty pool)
    (moved : Step (system deployment) pool (.did thread op outcome) after)
    (healthy : Healthy (.did thread op outcome))
    (act : Acts deployment pool after thread op outcome) {id : Uuid} {text : String}
    (upToDate : UpToDate deployment pool.world id text) :
    UpToDate deployment after.world id text ∨ Overwrites deployment after id := by
  cases versions_change act with
  | same orders transitions =>
    exact .inl (upToDate.same (congrFun orders id) (congrFun transitions id))
  | inserted payload key new hop commits drawn world wrote =>
    left
    have differ : id ≠ (Repository.newRow payload new).id := by
      intro same
      obtain ⟨order, named, stands, _⟩ := upToDate
      have absent := drawn_absent reached thread payload key new drawn
      have found := stands.row
      rw [named, same] at found
      cases absent.symm.trans found
    apply upToDate.same
    · rw [world, create_orders, Function.update_of_ne differ]
    · rw [world, create_transitions, Function.update_of_ne differ]
  | updated delivery token aim reason row note hop commits reading world wrote =>
    subst commits
    by_cases same : id = row.id
    · right
      have ended := healthy.commits _ _ _ rfl
      subst ended
      rw [same]
      exact updated_overwrites moved (copy_permitted reached moved)
    · left
      apply upToDate.same
      · rw [world, transition_orders, Function.update_of_ne same]
      · rw [world, transition_transitions, Function.update_of_ne same]

/-- A cached entry is current, or a call is about to make it so. -/
theorem entry_accounted
    (reached : Reachable (system deployment) (Coherent deployment) World.empty pool) :
    ∀ id text, pool.world.redis (.order id.str) = some text →
      UpToDate deployment pool.world id text ∨ Overwrites deployment pool id := by
  induction reached with
  | init =>
    intro id text cached
    cases cached
  | @step pool label after reached permitted moved ih =>
    intro id text cached
    have kept : (∀ thread op outcome, label ≠ .did thread op outcome) →
        Overwrites deployment pool id → Overwrites deployment after id := by
      intro others overwrites
      obtain ⟨thread, order, written, named⟩ := overwrites
      exact ⟨thread, order, written_kept reached moved permitted.1 written (others thread), named⟩
    rcases step_cases reached moved with ⟨thread, op, outcome, rfl, act⟩ | ⟨thread, turn⟩ |
      ⟨event, rfl, happening⟩
    · obtain ⟨fate, performed⟩ := act.performed
      by_cases puts : ∃ put ttl, op = .set (.order id.str) put ttl
      · obtain ⟨put, ttl, rfl⟩ := puts
        have running : pool.InFlight thread := by
          cases moved with
          | did _ call _ resume _ _ _ awaiting _ => exact ⟨_, awaiting, trivial⟩
        have shown := put_up_to_date (copy_permitted reached moved)
          (held_current reached thread running)
        have ended := permitted.1.puts _ _ _ _ _ rfl
        subst ended
        exact .inl (entry_put performed shown cached)
      · have before := entry_before act (fun put ttl same => puts ⟨put, ttl, same⟩) cached
        cases ih id text before with
        | inl upToDate => exact up_to_date_acts reached moved permitted.1 act upToDate
        | inr overwrites =>
          right
          obtain ⟨other, order, written, named⟩ := overwrites
          by_cases own : other = thread
          · subst own
            have mine := copy_permitted reached moved
            rw [written] at mine
            obtain ⟨put, ttl, same⟩ := written_puts mine
            exact (puts ⟨put, ttl, named ▸ same⟩).elim
          · refine ⟨other, order, ?_, named⟩
            apply written_kept reached moved permitted.1 written
            intro op' outcome' same
            cases same
            exact own rfl
    · rw [turn.world] at cached
      cases ih id text cached with
      | inl upToDate =>
        rw [turn.world]
        exact .inl upToDate
      | inr overwrites => exact .inr (kept turn.not_did overwrites)
    · rcases happen_redis happening.happened (.order id.str) with same | ⟨_, gone⟩
      · rw [same] at cached
        obtain ⟨orders, transitions, _⟩ := happen_frame happening.happened
        cases ih id text cached with
        | inl upToDate => exact .inl (upToDate.same (congrFun orders id) (congrFun transitions id))
        | inr overwrites =>
          exact .inr (kept (fun thread op outcome same => by cases same) overwrites)
      · rw [gone] at cached
        cases cached

/-- In every state in which no call holds a copy of the order, its entry is the
    committed row with its trail, and reads back as it where dumps are read back. -/
theorem cache_coherent_at_rest
    (reached : Reachable (system deployment) (Coherent deployment) World.empty pool) {id : Uuid}
    {text : String} (rest : ∀ thread, ¬ Holding deployment pool thread id)
    (cached : pool.world.redis (.order id.str) = some text) :
    ∃ row, pool.world.orders id = some row ∧
      text = deployment.platform.modelDumpJson
        (OrderOut.ofOrder ⟨row, pool.world.transitions id⟩) ∧
      ((∀ out, deployment.platform.modelValidateJson (deployment.platform.modelDumpJson out) =
          some out) →
        deployment.platform.modelValidateJson text =
          some (OrderOut.ofOrder ⟨row, pool.world.transitions id⟩)) := by
  cases entry_accounted reached id text cached with
  | inl upToDate =>
    obtain ⟨order, named, stands, dumped⟩ := upToDate
    subst named
    have trail := stands.trail
    refine ⟨order.row, stands.row, ?_, fun reads => ?_⟩
    · rw [trail]
      exact dumped
    · rw [trail, dumped]
      exact reads _
  | inr overwrites =>
    obtain ⟨thread, order, written, named⟩ := overwrites
    have running := written_in_flight reached written
    have held : (copy deployment pool thread).of = some id := by
      rw [written, ← named]
      rfl
    exact (rest thread ⟨running, held⟩).elim

namespace Sample

/-- No commit while another thread holds a copy of any order, and no fault. -/
def orderly (pool : Pipeline) (label : Moment) : Bool :=
  faultless label && match label with
    | .did actor (.commit _) _ =>
        (starts pool.trace).all fun thread => thread = actor || (copy shop pool thread).of = none
    | _ => true

theorem faultless_healthy (label : Moment) (passes : faultless label = true) : Healthy label := by
  constructor
  · intro thread writes outcome same
    subst same
    cases outcome with
    | ok value => rfl
    | _ => cases passes
  · intro thread orderId text ttl outcome same
    subst same
    cases outcome with
    | ok value => rfl
    | _ => cases passes
  · intro thread same
    subst same
    cases passes

theorem orderly_sound (pool : Pipeline) (label : Moment)
    (reached : Reachable (system shop) allows World.empty pool)
    (passes : orderly pool label = true) : Coherent shop pool label := by
  unfold orderly at passes
  obtain ⟨healthy, alone⟩ := (Bool.and_eq_true _ _).mp passes
  refine ⟨faultless_healthy label healthy, fun thread id holding disturbs => ?_⟩
  obtain ⟨running, held⟩ := holding
  obtain ⟨actor, writes, outcome, changes, differ, rfl, _, _⟩ := disturbs
  have member : thread ∈ starts pool.trace := by
    by_contra never
    obtain ⟨current, present, _⟩ := running
    apply started_of_held reached thread current present
    intro label inside call same
    exact never (mem_starts (same ▸ inside))
  have free := List.all_eq_true.mp alone thread member
  have other : thread ≠ actor := fun same => differ same.symm
  simp [other, held] at free

/-- A worker takes a record, completes the order, and ends its pass. -/
def completes (thread : Nat) (token : Fin (2 ^ 128)) : Moves :=
  consume {} thread .processor ++ runs thread 2 ++ [.run thread (draw token)] ++ runs thread 16

/-- The worker comes after the API's put. -/
def putFirst : Moves := submit 0 none 1 2 ++ runs 0 2 ++ completes 1 3

/-- The API's put comes after the worker is through. -/
def putLast : Moves := submit 0 none 1 2 ++ completes 1 3 ++ runs 0 2

/-- The order is completed, its entry is there and current or not, and no call is in flight. -/
def restsWith (current : Bool) (pool : Pipeline) : Bool :=
  status pool 1 = some .completed &&
    (pool.world.redis (.order (Uuid.str ⟨1⟩))).any (fun text =>
      (pool.world.orders ⟨1⟩).any fun row => current = decide (text =
        platform.modelDumpJson (OrderOut.ofOrder ⟨row, pool.world.transitions ⟨1⟩⟩))) &&
    (starts pool.trace).all fun thread => suspended pool thread = false

theorem rests {current : Bool} (reached : Reachable (system shop) allows World.empty pool)
    (passes : restsWith current pool = true) : ∃ row text, pool.world.orders ⟨1⟩ = some row ∧
      row.status = .completed ∧ pool.world.redis (.order (Uuid.str ⟨1⟩)) = some text ∧
      (∀ thread, ¬ pool.InFlight thread) ∧ current = decide (text =
        platform.modelDumpJson (OrderOut.ofOrder ⟨row, pool.world.transitions ⟨1⟩⟩)) := by
  unfold restsWith status at passes
  simp only [Bool.and_eq_true, decide_eq_true_eq, Option.any_eq_true, Option.map_eq_some_iff,
    List.all_eq_true] at passes
  obtain ⟨⟨completed, text, cached, row, found, same⟩, ended⟩ := passes
  obtain ⟨_, held, status⟩ := completed
  rw [found] at held
  cases held
  exact ⟨row, text, found, status, cached, not_in_flight reached ended, same⟩

end Sample

theorem cache_coherent_at_rest_run : ∃ (pool : Pipeline) (row : OrderRow),
    pool.world.orders ⟨1⟩ = some row ∧ row.status = .completed ∧
      pool.world.redis (.order (Uuid.str ⟨1⟩)) = some (Sample.platform.modelDumpJson
        (OrderOut.ofOrder ⟨row, pool.world.transitions ⟨1⟩⟩)) := by
  obtain ⟨pool, reached, facts⟩ := Sample.play_checks {} Sample.fulfils [Sample.event none 1 2]
    Sample.putFirst (fun pool label reached => Sample.orderly_sound pool label reached)
    (Sample.restsWith true) (by decide +kernel)
  obtain ⟨row, text, found, completed, cached, rest, _⟩ := Sample.rests reached facts
  obtain ⟨held, same, dumped, _⟩ :=
    cache_coherent_at_rest reached (fun thread holding => rest thread holding.1) cached
  rw [found] at same
  cases same
  exact ⟨pool, row, found, completed, dumped ▸ cached⟩

/-- The API puts the order it created after the worker put the completed one: with all
    calls over and nothing failed, the entry is not the order. -/
theorem stale_entry_at_rest : ∃ (pool : Pipeline) (row : OrderRow) (text : String),
    Reachable (system Sample.shop) (fun _ label => Healthy label) World.empty pool ∧
      (∀ thread, ¬ pool.InFlight thread) ∧ pool.world.orders ⟨1⟩ = some row ∧
      row.status = .completed ∧ pool.world.redis (.order (Uuid.str ⟨1⟩)) = some text ∧
      text ≠ Sample.platform.modelDumpJson
        (OrderOut.ofOrder ⟨row, pool.world.transitions ⟨1⟩⟩) := by
  obtain ⟨pool, reached, facts⟩ := Sample.play_shows {} Sample.fulfils [Sample.event none 1 2]
    Sample.putLast (fun _ => Sample.faultless_healthy) (Sample.restsWith false) (by decide +kernel)
  obtain ⟨row, text, found, completed, cached, rest, stale⟩ := Sample.rests reached facts
  exact ⟨pool, row, text, reached, rest, found, completed, cached, of_decide_eq_false stale.symm⟩

end OrderFlow
