import OrderFlow.Copies
import OrderFlow.Runs.Rows
import OrderFlow.Trails

/-!
Versions of an order over whole runs. A commit is the only step that makes a new
version; trail rows are numbered upwards; and a call's copy stays the committed
version until another call commits one.
-/
namespace OrderFlow
open AsyncCoroutine AsyncPool

variable {deployment : Deployment} {allows : Pipeline → Moment → Prop} {pool after : Pipeline}
  {thread : Nat} {op : Op} {outcome : Outcome Exn op.Reply}

/-! ### Commits -/

/-- The step is a commit of these writes, and it took effect. -/
def Wrote (pool after : Pipeline) (thread : Nat) (writes : List Write) : Prop :=
  ∃ outcome : Outcome Exn Unit, after.trace = .did thread (.commit writes) outcome :: pool.trace ∧
    outcome.Took ()

/-- How one operation changes the orders and their trails. -/
inductive VersionsChange (deployment : Deployment) (pool after : Pipeline) (thread : Nat)
    (op : Op) : Prop where
  | same (orders : after.world.orders = pool.world.orders)
      (transitions : after.world.transitions = pool.world.transitions)
  | inserted (payload : OrderCreate) (key : Option String) (id : Uuid) (hop : Nat)
      (commits : op = .commit (Repository.createWrites (Repository.newRow payload id) hop))
      (before : stage deployment pool thread = .submitting (.drawn payload key id))
      (world : after.world =
        pool.world.write (Repository.createWrites (Repository.newRow payload id) hop))
      (wrote : Wrote pool after thread
        (Repository.createWrites (Repository.newRow payload id) hop))
  | updated (delivery : Delivery deployment) (token : String) (aim : OrderStatus)
      (reason : Option PyStr) (row : OrderRow) (note : PyStr) (hop : Nat)
      (commits : op = .commit (Repository.transitionWrites row
        (Repository.transitionRow row aim delivery.attempt reason) (some note) hop))
      (before : stage deployment pool thread = .holding delivery token (.read aim reason row))
      (world : after.world = pool.world.write (Repository.transitionWrites row
        (Repository.transitionRow row aim delivery.attempt reason) (some note) hop))
      (wrote : Wrote pool after thread (Repository.transitionWrites row
        (Repository.transitionRow row aim delivery.attempt reason) (some note) hop))

theorem versions_change (act : Acts deployment pool after thread op outcome) :
    VersionsChange deployment pool after thread op := by
  obtain ⟨fate, performed⟩ := act.performed
  cases op with
  | commit writes =>
    rcases perform_commit performed with ⟨_, _, same⟩ | ⟨took, written⟩
    · exact .same (by rw [same]) (by rw [same])
    · have permitted := act.permitted
      have wrote : Wrote pool after thread writes := ⟨outcome, act.trace, took⟩
      cases before : stage deployment pool thread with
      | submitting submission =>
        rw [before] at permitted
        cases submission with
        | drawn payload key id =>
          obtain ⟨hop, rfl⟩ := permitted
          exact .inserted payload key id hop rfl before written wrote
        | _ => exact permitted.elim
      | holding delivery token phase =>
        rw [before] at permitted
        cases phase with
        | read aim reason row =>
          obtain ⟨note, hop, rfl⟩ := permitted
          exact .updated delivery token aim reason row note hop rfl before written wrote
        | absent | closed =>
          obtain rfl := permitted
          exact .same (by rw [written]; rfl) (by rw [written]; rfl)
        | moved aim reason | towards aim reason | sent aim => cases aim <;> exact permitted.elim
        | _ => exact permitted.elim
      | archiving record =>
        rw [before] at permitted
        obtain rfl := permitted
        exact .same (by rw [written]; rfl) (by rw [written]; rfl)
      | _ =>
        rw [before] at permitted
        exact permitted.elim
  | _ => exact .same (perform_orders performed rfl) (perform_transitions performed rfl)

/-- A step makes a new version of an order through an operation of one thread, if at all. -/
theorem step_versions {label : Moment}
    (reached : Reachable (system deployment) allows World.empty pool)
    (moved : Step (system deployment) pool label after) :
    (after.world.orders = pool.world.orders ∧ after.world.transitions = pool.world.transitions) ∨
      ∃ thread op outcome, label = .did thread op outcome ∧
        Acts deployment pool after thread op outcome ∧
        VersionsChange deployment pool after thread op := by
  rcases step_cases reached moved with ⟨thread, op, outcome, rfl, act⟩ | ⟨thread, turn⟩ |
    ⟨event, rfl, happening⟩
  · exact .inr ⟨thread, op, outcome, rfl, act, versions_change act⟩
  · exact .inl (by rw [turn.world]; exact ⟨rfl, rfl⟩)
  · have frame := happen_frame happening.happened
    exact .inl ⟨frame.1, frame.2.1⟩

/-- An order that is not there has no trail. -/
theorem untracked (reached : Reachable (system deployment) allows World.empty pool) :
    ∀ id, pool.world.orders id = none → pool.world.transitions id = [] := by
  induction reached with
  | init => exact fun _ _ => rfl
  | @step pool label after reached permitted moved ih =>
    intro id absent
    rcases step_versions reached moved with ⟨orders, transitions⟩ | ⟨thread, op, outcome, rfl, act, change⟩
    · rw [transitions]
      exact ih id (orders ▸ absent)
    · cases change with
      | same orders transitions =>
        rw [transitions]
        exact ih id (orders ▸ absent)
      | inserted payload key new hop _ _ world _ =>
        rw [world, create_orders] at absent
        by_cases same : id = new
        · subst same
          simp [Repository.newRow] at absent
        · have other : id ≠ (Repository.newRow payload new).id := same
          rw [Function.update_of_ne other] at absent
          rw [world, create_transitions, Function.update_of_ne other]
          exact ih id absent
      | updated delivery token aim reason row note hop _ reading world _ =>
        rw [world, transition_orders] at absent
        by_cases same : id = row.id
        · subst same
          simp only [Function.update_self, Option.map_eq_none_iff] at absent
          have sight := sighted reached thread delivery token _ reading
          obtain ⟨current, found⟩ := sight.known rfl
          rw [← sight.named aim reason row rfl, absent] at found
          cases found
        · rw [Function.update_of_ne same] at absent
          rw [world, transition_transitions, Function.update_of_ne same]
          exact ih id absent

/-! ### What threads hold -/

theorem copy_permitted (reached : Reachable (system deployment) allows World.empty pool)
    (moved : Step (system deployment) pool (.did thread op outcome) after) :
    (copy deployment pool thread).allowed deployment op := by
  cases moved with
  | did _ call _ resume fate _ world awaiting performed =>
    exact Monitor.allowed_of_awaiting (Copy.keeps deployment) reached awaiting

theorem copy_own (moved : Step (system deployment) pool (.did thread op outcome) after) :
    copy deployment after thread = (copy deployment pool thread).next op outcome := by
  unfold copy
  rw [step_trace moved]
  exact Monitor.record_did_self ..

theorem copy_begins {call : Call}
    (moved : Step (system deployment) pool (.start thread call) after) :
    copy deployment after thread = .empty := by
  unfold copy
  rw [step_trace moved]
  simp [Monitor.record, Copy.monitor]

/-- Nobody else touches the copy a thread holds; a call begins with none. -/
theorem copy_other {label : Moment} (moved : Step (system deployment) pool label after)
    (others : ∀ op outcome, label ≠ .did thread op outcome) :
    copy deployment after thread = copy deployment pool thread ∨
      copy deployment after thread = .empty := by
  unfold copy
  rw [step_trace moved]
  cases label with
  | did actor op outcome =>
    have differ : thread ≠ actor := by
      rintro rfl
      exact others op outcome rfl
    exact .inl (Monitor.record_did_other _ differ ..)
  | start actor call | again actor call | crash actor =>
    by_cases same : thread = actor
    · exact .inr (by simp [Monitor.record, same, Copy.monitor])
    · exact .inl (by simp [Monitor.record, same])
  | event event => exact .inl rfl

/-- The number of a trail row a thread has flushed and not committed. -/
def Copy.drafted : Copy → Option StatusTransition
  | .changing _ _ hop | .creating _ hop => some hop
  | _ => none

/-- The operation flushed and numbered a trail row. -/
def Flushes : (op : Op) → Outcome Exn op.Reply → Nat → Prop
  | .flush _, .ok numbered, hopId => numbered = hopId
  | _, _, _ => False

theorem flushed_drafted {copy : Copy} {writes : List Write} {hopId : Nat} {hop : StatusTransition}
    (drafts : (copy.flushed hopId writes).drafted = some hop) : hopId = hop.id := by
  unfold Copy.flushed at drafts
  split at drafts
  · cases drafts
    rfl
  · cases drafts
    rfl
  · cases drafts

theorem next_drafted {copy : Copy} {hop : StatusTransition}
    (drafts : (copy.next op outcome).drafted = some hop) :
    copy.drafted = some hop ∨ Flushes op outcome hop.id := by
  cases op with
  | flush writes =>
    cases outcome with
    | ok hopId =>
      have flushed : (copy.flushed hopId writes).drafted = some hop := by
        cases copy <;> exact drafts
      exact .inr (flushed_drafted flushed)
    | _ => cases copy <;> cases drafts
  | set key text ttl =>
    cases key with
    | order orderId => cases copy <;> exact .inl drafts
    | _ => cases copy <;> exact .inl drafts
  | selectOrder id => rcases outcome with (_ | row) | _ | _ <;> cases copy <;> cases drafts
  | selectTransitions id | commit writes => cases outcome <;> cases copy <;> cases drafts
  | rollback | handleCall name record => cases copy <;> cases drafts
  | _ => cases copy <;> exact .inl drafts

/-- What a thread commits on the order tables is what it flushed. -/
theorem commits_drafted {copy : Copy} {writes : List Write} {write : Write}
    (permitted : copy.allowed deployment (.commit writes)) (member : write ∈ writes)
    (onOrder : write.onOrder = true) : writes = copy.writes := by
  have commits : copy.Commits writes := by
    cases copy <;> first | exact permitted | exact permitted.elim
  rcases commits with same | ⟨_, letters⟩
  · exact same
  · rw [letters write member] at onOrder
    cases onOrder

theorem creates_drafted {copy : Copy} {row : OrderRow} {hopId : Nat}
    (permitted : copy.allowed deployment (.commit (Repository.createWrites row hopId))) :
    copy = .creating row ⟨hopId, none, .pending, some (py "order accepted")⟩ := by
  have same := commits_drafted permitted (List.mem_cons_self ..) rfl
  cases copy with
  | creating other hop =>
    simp only [Repository.createWrites, Copy.writes, Copy.insertWrites, List.cons.injEq,
      Write.insertOrder.injEq, Write.insertTransition.injEq, and_true] at same
    rw [same.1, same.2.2]
  | _ => cases same

theorem changes_drafted {copy : Copy} {row moved : OrderRow} {note : Option PyStr} {hopId : Nat}
    (permitted : copy.allowed deployment
      (.commit (Repository.transitionWrites row moved note hopId))) :
    ∃ order, order.row.id = row.id ∧ copy = .changing order (Repository.changesOf row moved)
      ⟨hopId, some row.status, moved.status, note⟩ := by
  have same := commits_drafted permitted (List.mem_cons_self ..) rfl
  cases copy with
  | changing order changes hop =>
    simp only [Repository.transitionWrites, Copy.writes, Copy.changeWrites, List.cons.injEq,
      Write.updateOrder.injEq, Write.insertTransition.injEq, and_true] at same
    obtain ⟨⟨id, rfl⟩, _, rfl⟩ := same
    exact ⟨order, id.symm, rfl⟩
  | _ => cases same

/-- Trail rows are numbered below the next number. -/
structure Numbered (deployment : Deployment) (pool : Pipeline) : Prop where
  committed : ∀ id, ∀ hop ∈ pool.world.transitions id, hop.id < pool.world.nextTransition
  drafted : ∀ thread hop, (copy deployment pool thread).drafted = some hop →
    hop.id < pool.world.nextTransition

theorem numbers_grow (act : Acts deployment pool after thread op outcome) :
    pool.world.nextTransition ≤ after.world.nextTransition := by
  obtain ⟨fate, performed⟩ := act.performed
  cases op with
  | flush writes =>
    rcases perform_flush performed with ⟨_, _, same⟩ | ⟨_, world⟩
    · rw [same]
    · rw [world]
      exact Nat.le_succ _
  | _ => exact le_of_eq (perform_numbers performed rfl).symm

theorem mem_committed {transitions : Uuid → List StatusTransition} {id written : Uuid}
    {new hop : StatusTransition} (member : hop ∈
      Function.update transitions written (insertHop new (transitions written)) id) :
    hop = new ∨ hop ∈ transitions id := by
  by_cases same : id = written
  · subst same
    rw [Function.update_self, mem_insertHop] at member
    exact member
  · rw [Function.update_of_ne same] at member
    exact .inr member

theorem Numbered.acts (numbered : Numbered deployment pool)
    (reached : Reachable (system deployment) allows World.empty pool)
    (moved : Step (system deployment) pool (.did thread op outcome) after)
    (act : Acts deployment pool after thread op outcome) : Numbered deployment after := by
  have grows := numbers_grow act
  have permitted := copy_permitted reached moved
  constructor
  · intro id hop member
    have known : hop ∈ pool.world.transitions id → hop.id < after.world.nextTransition :=
      fun before => lt_of_lt_of_le (numbered.committed id hop before) grows
    have mine : (copy deployment pool thread).drafted = some hop →
        hop.id < after.world.nextTransition :=
      fun drafts => lt_of_lt_of_le (numbered.drafted thread hop drafts) grows
    cases versions_change act with
    | same _ transitions => exact known (transitions ▸ member)
    | inserted payload key new hopId commits _ world _ =>
      subst commits
      have drafts := creates_drafted permitted
      rw [world, create_transitions] at member
      rcases mem_committed member with rfl | before
      · exact mine (by rw [drafts]; rfl)
      · exact known before
    | updated delivery token aim reason row note hopId commits _ world _ =>
      subst commits
      obtain ⟨order, _, drafts⟩ := changes_drafted permitted
      rw [world, transition_transitions] at member
      rcases mem_committed member with rfl | before
      · exact mine (by rw [drafts]; rfl)
      · exact known before
  · intro other hop drafts
    by_cases same : other = thread
    · subst same
      rw [copy_own moved] at drafts
      rcases next_drafted drafts with before | flushes
      · exact lt_of_lt_of_le (numbered.drafted other hop before) grows
      · obtain ⟨fate, performed⟩ := act.performed
        unfold Flushes at flushes
        split at flushes
        · rcases perform_flush performed with ⟨_, lost, _⟩ | ⟨took, world⟩
          · cases lost
          · rcases took with answered | ⟨_, late⟩
            · cases answered
              rw [world, ← flushes]
              exact Nat.lt_succ_self _
            · cases late
        · cases flushes
    · have others : ∀ op' outcome', (.did thread op outcome : Moment) ≠
          .did other op' outcome' := by
        rintro _ _ ⟨⟩
        exact same rfl
      rcases copy_other moved others with unchanged | emptied
      · rw [unchanged] at drafts
        exact lt_of_lt_of_le (numbered.drafted other hop drafts) grows
      · rw [emptied] at drafts
        cases drafts

theorem numbered (reached : Reachable (system deployment) allows World.empty pool) :
    Numbered deployment pool := by
  induction reached with
  | init =>
    constructor
    · intro id hop member
      cases member
    · intro thread hop drafts
      cases drafts
  | @step pool label after reached permitted moved ih =>
    have kept : (∀ thread op outcome, label ≠ .did thread op outcome) →
        after.world.transitions = pool.world.transitions →
        after.world.nextTransition = pool.world.nextTransition → Numbered deployment after := by
      intro others transitions next
      constructor
      · intro id hop member
        rw [transitions] at member
        rw [next]
        exact ih.committed id hop member
      · intro thread hop drafts
        rw [next]
        rcases copy_other moved (others thread) with same | emptied
        · rw [same] at drafts
          exact ih.drafted thread hop drafts
        · rw [emptied] at drafts
          cases drafts
    rcases step_cases reached moved with ⟨thread, op, outcome, rfl, act⟩ | ⟨thread, turn⟩ |
      ⟨event, rfl, happening⟩
    · exact ih.acts reached moved act
    · exact kept turn.not_did (by rw [turn.world]) (by rw [turn.world])
    · exact kept (by rintro _ _ _ ⟨⟩) (happen_frame happening.happened).2.1
        (happen_numbers happening.happened)

/-! ### Columns -/

/-- A change that was flushed sets the attempt to a number the column takes. -/
def Copy.Fits : Copy → Prop
  | .changing _ changes _ => changes.attempts.getD 0 < 2 ^ 31
  | _ => True

theorem flushed_copy_fits {copy : Copy} {writes : List Write} {hopId : Nat}
    (fit : writes.all Write.fits = true) : (copy.flushed hopId writes).Fits := by
  unfold Copy.flushed
  split
  · trivial
  · simp only [List.all_cons, Write.fits, int32, Bool.and_eq_true, decide_eq_true_eq] at fit
    unfold Copy.Fits
    omega
  · trivial

theorem next_fits {copy : Copy} (fits : copy.Fits)
    (flushed : ∀ writes hop, Flushes op outcome hop → op = .flush writes →
      writes.all Write.fits = true) : (copy.next op outcome).Fits := by
  cases op with
  | flush writes =>
    cases outcome with
    | ok hopId =>
      have goes : (copy.flushed hopId writes).Fits :=
        flushed_copy_fits (flushed writes hopId rfl rfl)
      cases copy <;> exact goes
    | _ => cases copy <;> trivial
  | set key text ttl =>
    cases key with
    | order orderId => cases copy <;> trivial
    | _ => cases copy <;> exact fits
  | selectOrder id => rcases outcome with (_ | row) | _ | _ <;> cases copy <;> trivial
  | selectTransitions id | commit writes => cases outcome <;> cases copy <;> trivial
  | rollback | handleCall name record => cases copy <;> trivial
  | _ => cases copy <;> exact fits

/-- The attempts column holds what an INTEGER column can. -/
structure Fitting (deployment : Deployment) (pool : Pipeline) : Prop where
  rows : ∀ id row, pool.world.orders id = some row → row.attempts < 2 ^ 31
  copies : ∀ thread, (copy deployment pool thread).Fits

theorem Fitting.acts (fitting : Fitting deployment pool)
    (reached : Reachable (system deployment) allows World.empty pool)
    (moved : Step (system deployment) pool (.did thread op outcome) after)
    (act : Acts deployment pool after thread op outcome) : Fitting deployment after := by
  constructor
  · intro id row found
    cases versions_change act with
    | same orders _ => exact fitting.rows id row (orders ▸ found)
    | inserted payload key new hop _ _ world _ =>
      rw [world, create_orders] at found
      by_cases same : id = (Repository.newRow payload new).id
      · rw [same, Function.update_self] at found
        cases found
        simp [Repository.newRow]
      · rw [Function.update_of_ne same] at found
        exact fitting.rows id row found
    | updated delivery token aim reason read note hop commits _ world _ =>
      subst commits
      obtain ⟨order, _, drafts⟩ := changes_drafted (copy_permitted reached moved)
      have fits := fitting.copies thread
      rw [drafts] at fits
      rw [world, transition_orders] at found
      by_cases same : id = read.id
      · rw [same, Function.update_self, Option.map_eq_some_iff] at found
        obtain ⟨before, stood, rfl⟩ := found
        have below := fitting.rows _ before stood
        simp only [OrderChanges.apply]
        cases set : (Repository.changesOf read
          (Repository.transitionRow read aim delivery.attempt reason)).attempts with
        | none => exact below
        | some attempts =>
          simp only [Copy.Fits, set, Option.getD_some] at fits
          exact fits
      · rw [Function.update_of_ne same] at found
        exact fitting.rows id row found
  · intro other
    by_cases same : other = thread
    · subst same
      rw [copy_own moved]
      refine next_fits (fitting.copies other) ?_
      intro writes hop flushes flush
      subst flush
      obtain ⟨fate, performed⟩ := act.performed
      cases outcome with
      | ok numbered => exact flush_fits performed
      | _ => cases flushes
    · have others : ∀ op' outcome', (.did thread op outcome : Moment) ≠
          .did other op' outcome' := by
        rintro _ _ ⟨⟩
        exact same rfl
      rcases copy_other moved others with unchanged | emptied
      · rw [unchanged]
        exact fitting.copies other
      · rw [emptied]
        trivial

theorem all_fit (reached : Reachable (system deployment) allows World.empty pool) :
    Fitting deployment pool := by
  induction reached with
  | init =>
    constructor
    · intro id row found
      cases found
    · intro thread
      trivial
  | @step pool label after reached permitted moved ih =>
    have kept : (∀ thread op outcome, label ≠ .did thread op outcome) →
        after.world.orders = pool.world.orders → Fitting deployment after := by
      intro others orders
      constructor
      · intro id row found
        exact ih.rows id row (orders ▸ found)
      · intro thread
        rcases copy_other moved (others thread) with same | emptied
        · rw [same]
          exact ih.copies thread
        · rw [emptied]
          trivial
    rcases step_cases reached moved with ⟨thread, op, outcome, rfl, act⟩ | ⟨thread, turn⟩ |
      ⟨event, rfl, happening⟩
    · exact ih.acts reached moved act
    · exact kept turn.not_did (by rw [turn.world])
    · exact kept (by rintro _ _ _ ⟨⟩) (happen_frame happening.happened).1

/-! ### Copies and the version that stands -/

/-- The order is the committed version. -/
structure Stands (world : World) (order : Order) : Prop where
  row : world.orders order.row.id = some order.row
  trail : world.transitions order.row.id = order.transitions

namespace Copy

/-- The order a copy is of; a new order is nobody else's yet. -/
def of : Copy → Option Uuid
  | .reading id _ => some id
  | .held order | .changing order _ _ | .created order | .written order => some order.row.id
  | .empty | .creating _ _ | .put _ => none

/-- The copy is the version that stands, as far as it was read. -/
def Current (world : World) : Copy → Prop
  | .reading id row => world.orders id = some row
  | .held order | .created order | .written order => Stands world order
  | .changing order _ hop => Stands world order ∧ ∀ earlier ∈ order.transitions, earlier.id < hop.id
  | .empty | .creating _ _ | .put _ => True

theorem Current.frame {copy : Copy} {world later : World} (current : copy.Current world)
    (same : ∀ id, copy.of = some id →
      later.orders id = world.orders id ∧ later.transitions id = world.transitions id) :
    copy.Current later := by
  have stands : ∀ {order : Order}, copy.of = some order.row.id → Stands world order →
      Stands later order := by
    intro order ofOrder stands
    obtain ⟨orders, transitions⟩ := same _ ofOrder
    exact ⟨orders ▸ stands.row, transitions ▸ stands.trail⟩
  cases copy with
  | reading id row => exact (same id rfl).1.trans current
  | held order | created order | written order => exact stands rfl current
  | changing order changes hop => exact ⟨stands rfl current.1, current.2⟩
  | _ => trivial

end Copy

/-- Only a submission that drew its order's id commits a new row. -/
theorem inserts_drawn {stage : Stage deployment} {writes : List Write} {row : OrderRow}
    (permitted : stage.allowed deployment (.commit writes))
    (member : Write.insertOrder row ∈ writes) :
    ∃ payload key id, stage = .submitting (.drawn payload key id) ∧
      row = Repository.newRow payload id := by
  cases stage with
  | submitting submission =>
    cases submission with
    | drawn payload key id =>
      obtain ⟨hop, rfl⟩ := permitted
      simp only [Repository.createWrites, List.mem_cons, Write.insertOrder.injEq, reduceCtorEq,
        List.not_mem_nil, or_self, or_false] at member
      exact ⟨payload, key, id, rfl, member⟩
    | _ => exact permitted.elim
  | holding delivery token phase =>
    cases phase with
    | read aim reason read =>
      obtain ⟨note, hop, rfl⟩ := permitted
      simp [Repository.transitionWrites] at member
    | absent | closed =>
      obtain rfl := permitted
      cases member
    | moved aim reason | towards aim reason | sent aim => cases aim <;> exact permitted.elim
    | _ => exact permitted.elim
  | archiving record =>
    obtain rfl := permitted
    simp at member
  | _ => exact permitted.elim

/-- A commit of what was flushed makes the version the thread holds next. -/
theorem committed_current {writes : List Write} {outcome : Outcome Exn Unit}
    (reached : Reachable (system deployment) allows World.empty pool)
    (act : Acts deployment pool after thread (.commit writes) outcome)
    (world : after.world = pool.world.write writes)
    (commits : (copy deployment pool thread).Commits writes)
    (current : (copy deployment pool thread).Current pool.world) :
    (copy deployment pool thread).committed.Current after.world := by
  cases held : copy deployment pool thread with
  | changing order changes hop =>
    rw [held] at commits current
    rcases commits with rfl | ⟨⟨⟩, _⟩
    obtain ⟨stands, above⟩ := current
    constructor
    · rw [world]
      show Function.update pool.world.orders order.row.id
        ((pool.world.orders order.row.id).map changes.apply) order.row.id = _
      rw [Function.update_self, stands.row]
      rfl
    · rw [world]
      show Function.update pool.world.transitions order.row.id
        (insertHop hop (pool.world.transitions order.row.id)) order.row.id = _
      rw [Function.update_self, stands.trail, insertHop_above above]
      rfl
  | creating row hop =>
    rw [held] at commits
    rcases commits with rfl | ⟨⟨⟩, _⟩
    have empty : pool.world.transitions row.id = [] := by
      obtain ⟨payload, key, id, drawn, rfl⟩ := inserts_drawn act.permitted (List.mem_cons_self ..)
      exact untracked reached _ (drawn_absent reached thread payload key id drawn)
    constructor
    · rw [world]
      show Function.update pool.world.orders row.id (some row) row.id = _
      rw [Function.update_self]
    · rw [world]
      show Function.update pool.world.transitions row.id
        (insertHop hop (pool.world.transitions row.id)) row.id = _
      rw [Function.update_self, empty]
      rfl
  | _ => trivial

/-- A flush numbers the new trail row above the ones that stand. -/
theorem flushed_current {copy : Copy}
    (reached : Reachable (system deployment) allows World.empty pool) (writes : List Write)
    (world : after.world =
      { pool.world with nextTransition := pool.world.nextTransition + 1 })
    (current : copy.Current pool.world) :
    (copy.flushed pool.world.nextTransition writes).Current after.world := by
  unfold Copy.flushed
  split
  · trivial
  · have stands := current
    refine ⟨⟨by rw [world]; exact stands.row, by rw [world]; exact stands.trail⟩, ?_⟩
    intro earlier member
    rw [← stands.trail] at member
    exact (numbered reached).committed _ earlier member
  · trivial

/-- A thread's own operations keep its copy the version that stands. -/
theorem copy_current (reached : Reachable (system deployment) allows World.empty pool)
    (moved : Step (system deployment) pool (.did thread op outcome) after)
    (act : Acts deployment pool after thread op outcome)
    (current : (∃ id, op = .selectOrder id) ∨
      (copy deployment pool thread).Current pool.world) :
    (copy deployment after thread).Current after.world := by
  obtain ⟨fate, performed⟩ := act.performed
  have permitted := copy_permitted reached moved
  have kept : (∀ id, op ≠ .selectOrder id) → after.world.orders = pool.world.orders →
      after.world.transitions = pool.world.transitions →
      (copy deployment pool thread).Current after.world :=
    fun other orders transitions => (current.resolve_left fun ⟨id, same⟩ => other id same).frame
      fun _ _ => ⟨congrFun orders _, congrFun transitions _⟩
  rw [copy_own moved]
  cases op with
  | selectOrder id =>
    obtain ⟨world, lost | took⟩ := perform_selectOrder performed
    · obtain ⟨error, rfl⟩ := lost
      cases copy deployment pool thread <;> trivial
    · rw [world]
      rcases took with rfl | ⟨error, rfl⟩
      · cases found : pool.world.orders id with
        | none => cases copy deployment pool thread <;> trivial
        | some row => cases copy deployment pool thread <;> exact found
      · cases copy deployment pool thread <;> trivial
  | selectTransitions id =>
    have current := current.resolve_left (by rintro ⟨_, ⟨⟩⟩)
    obtain ⟨world, result⟩ := perform_selectTransitions performed
    have reads : ∃ row, copy deployment pool thread = .reading id row := by
      cases held : copy deployment pool thread <;> rw [held] at permitted <;>
        first | exact permitted | exact permitted.elim
    obtain ⟨row, reads⟩ := reads
    rw [reads] at current ⊢
    rw [world]
    rcases result with ⟨error, rfl⟩ | rfl | ⟨error, rfl⟩
    · trivial
    · have named := row_named reached id row current
      exact ⟨named ▸ current, by rw [named]⟩
    · trivial
  | flush writes =>
    have current := current.resolve_left (by rintro ⟨_, ⟨⟩⟩)
    rcases perform_flush performed with ⟨error, rfl, world⟩ | ⟨rfl | ⟨error, rfl⟩, world⟩
    · cases copy deployment pool thread <;> trivial
    · have goes := flushed_current reached writes world current
      cases held : copy deployment pool thread <;> rw [held] at goes <;> exact goes
    · cases copy deployment pool thread <;> trivial
  | commit writes =>
    have current := current.resolve_left (by rintro ⟨_, ⟨⟩⟩)
    rcases perform_commit performed with ⟨error, rfl, world⟩ | ⟨rfl | ⟨error, rfl⟩, world⟩
    · cases copy deployment pool thread <;> trivial
    · have commits : (copy deployment pool thread).Commits writes := by
        cases held : copy deployment pool thread <;> rw [held] at permitted <;>
          first | exact permitted | exact permitted.elim
      have committed := committed_current reached act world commits current
      cases held : copy deployment pool thread <;> rw [held] at committed <;> exact committed
    · cases copy deployment pool thread <;> trivial
  | set key text ttl =>
    have stays := kept (by rintro _ ⟨⟩) (perform_orders performed rfl)
      (perform_transitions performed rfl)
    cases key with
    | order orderId =>
      have shown : (copy deployment pool thread).shown.Current after.world := by
        unfold Copy.shown
        split
        · trivial
        · exact stays
      cases held : copy deployment pool thread <;> rw [held] at shown <;> exact shown
    | _ => cases held : copy deployment pool thread <;> rw [held] at stays <;> exact stays
  | rollback | handleCall name record => cases copy deployment pool thread <;> trivial
  | _ =>
    have stays := kept (by rintro _ ⟨⟩) (perform_orders performed rfl)
      (perform_transitions performed rfl)
    cases held : copy deployment pool thread <;> rw [held] at stays <;> exact stays

/-- Another call commits a change of the order. -/
def Disturbs (label : Moment) (thread : Nat) (id : Uuid) : Prop :=
  ∃ actor writes outcome changes, actor ≠ thread ∧ label = .did actor (.commit writes) outcome ∧
    outcome.Took () ∧ Write.updateOrder id changes ∈ writes

/-- An order that is there keeps its version unless a change of it is committed. -/
theorem version_stays {label : Moment} {id : Uuid}
    (reached : Reachable (system deployment) allows World.empty pool)
    (moved : Step (system deployment) pool label after) (known : Known pool id)
    (others : ∀ op outcome, label ≠ .did thread op outcome)
    (undisturbed : ¬ Disturbs label thread id) :
    after.world.orders id = pool.world.orders id ∧
      after.world.transitions id = pool.world.transitions id := by
  rcases step_versions reached moved with ⟨orders, transitions⟩ | ⟨actor, op, outcome, rfl, act, change⟩
  · exact ⟨congrFun orders id, congrFun transitions id⟩
  · cases change with
    | same orders transitions => exact ⟨congrFun orders id, congrFun transitions id⟩
    | inserted payload key new hop _ drawn world _ =>
      have differ : id ≠ new := by
        rintro rfl
        obtain ⟨row, found⟩ := known
        rw [drawn_absent reached actor payload key id drawn] at found
        cases found
      have other : id ≠ (Repository.newRow payload new).id := differ
      rw [world, create_orders, create_transitions]
      exact ⟨Function.update_of_ne other .., Function.update_of_ne other ..⟩
    | updated delivery token aim reason row note hop commits _ world wrote =>
      have differ : id ≠ row.id := by
        rintro rfl
        obtain ⟨heard, trace, took⟩ := wrote
        have label := (step_trace moved).symm.trans trace
        rw [List.cons.injEq] at label
        refine undisturbed ⟨actor, _, heard, _, ?_, label.1, took, List.mem_cons_self ..⟩
        rintro rfl
        exact others op outcome rfl
      rw [world, transition_orders, transition_transitions]
      exact ⟨Function.update_of_ne differ .., Function.update_of_ne differ ..⟩

theorem Copy.Current.known {copy : Copy} {pool : Pipeline} {id : Uuid}
    (current : copy.Current pool.world) (ofOrder : copy.of = some id) : Known pool id := by
  cases copy with
  | reading of row =>
    cases ofOrder
    exact ⟨row, current⟩
  | held order | created order | written order =>
    cases ofOrder
    exact ⟨order.row, current.row⟩
  | changing order changes hop =>
    cases ofOrder
    exact ⟨order.row, current.1.row⟩
  | _ => cases ofOrder

/-- A copy stays the version that stands while nobody else changes the order. -/
theorem current_step {label : Moment}
    (reached : Reachable (system deployment) allows World.empty pool)
    (moved : Step (system deployment) pool label after)
    (current : (copy deployment pool thread).Current pool.world)
    (undisturbed : ∀ id, (copy deployment pool thread).of = some id → ¬ Disturbs label thread id) :
    (copy deployment after thread).Current after.world := by
  by_cases own : ∃ op outcome, label = .did thread op outcome
  · obtain ⟨op, outcome, rfl⟩ := own
    rcases step_cases reached moved with ⟨actor, op, outcome, same, act⟩ | ⟨actor, turn⟩ |
      ⟨event, same, _⟩
    · cases same
      exact copy_current reached moved act (.inr current)
    · exact (turn.not_did _ _ _ rfl).elim
    · cases same
  · have others : ∀ op outcome, label ≠ .did thread op outcome :=
      fun op outcome same => own ⟨op, outcome, same⟩
    rcases copy_other moved others with same | emptied
    · rw [same]
      exact current.frame fun id ofOrder =>
        version_stays reached moved (current.known ofOrder) others (undisturbed id ofOrder)
    · rw [emptied]
      trivial

end OrderFlow
