import OrderFlow.Guarantees.AuditTrail

/-!
What `read_order` reads of one order: the row, then the trail, by two SELECTs. It
is one committed version unless a change of the order commits between the two.
-/
namespace OrderFlow
open AsyncCoroutine AsyncPool

variable {deployment : Deployment} {pool after : Pipeline} {reader : Nat} {id : Uuid}
  {past : List (Pipeline × Moment)}

/-- No change of the order commits between the reader's two SELECTs. -/
def Untorn (deployment : Deployment) (reader : Nat) (pool : Pipeline) (label : Moment) : Prop :=
  ∀ id row, copy deployment pool reader = .reading id row → ¬ Disturbs label reader id

/-- At one moment of the run, this was the committed row with its committed trail. -/
def Stood (past : List (Pipeline × Moment)) (order : Order) : Prop :=
  ∃ step ∈ past, Stands step.1.world order

theorem Stood.later {order : Order} (stood : Stood past order)
    (step : Pipeline × Moment) : Stood (step :: past) order := by
  obtain ⟨moment, member, stands⟩ := stood
  exact ⟨moment, List.mem_cons_of_mem _ member, stands⟩

/-- What a read of this order awaits. -/
def ReadOp (id : Uuid) : Op → Prop
  | .get _ | .delete _ | .hincrby _ _ | .selectTransitions _ => True
  | .set (.order _) _ _ => True
  | .selectOrder asked => asked = id
  | _ => False

theorem readOrder_uses (deployment : Deployment) (id : Uuid) :
    (program deployment (.readOrder id)).Uses (ReadOp id) := by
  have counts : ∀ field, (incrStat field).Uses (ReadOp id) := fun field =>
    .tryCatch (Coroutine.uses_perform trivial) fun _ => trivial
  refine .bind (.bind ?_ fun cached => ?_) fun _ => trivial
  · refine .bind (.tryCatch (.bind (Coroutine.uses_perform trivial) fun _ => trivial)
      fun _ => trivial) fun raw => ?_
    split
    · trivial
    · exact .bind (counts _) fun _ => trivial
    · refine .bind (counts _) fun _ => ?_
      split
      · trivial
      · exact .bind (Coroutine.uses_perform trivial) fun _ => trivial
  · cases cached with
    | some order => trivial
    | none =>
      refine .bind (.bind (Coroutine.uses_perform rfl) fun found => ?_) fun found => ?_
      · cases found with
        | none => trivial
        | some row => exact .bind (Coroutine.uses_perform trivial) fun _ => trivial
      · cases found with
        | none => trivial
        | some order =>
          exact .bind (.tryCatch (Coroutine.uses_perform trivial) fun _ => trivial)
            fun _ => trivial

/-- What a reader holds: the row that stands, or a version that stood. -/
def Versioned (pool : Pipeline) (past : List (Pipeline × Moment)) (id : Uuid) : Copy → Prop
  | .empty => True
  | .reading asked row => asked = id ∧ pool.world.orders id = some row
  | .held order | .put order => order.row.id = id ∧ Stood past order
  | _ => False

theorem Versioned.step {copy : Copy} (versioned : Versioned pool past id copy)
    (step : Pipeline × Moment)
    (same : ∀ row, copy = .reading id row → after.world.orders id = pool.world.orders id) :
    Versioned after (step :: past) id copy := by
  cases copy with
  | reading asked row =>
    obtain ⟨rfl, found⟩ := versioned
    exact ⟨rfl, (same row rfl).trans found⟩
  | held order | put order => exact ⟨versioned.1, versioned.2.later step⟩
  | _ => exact versioned

theorem Versioned.shown {copy : Copy} {order : Order} (versioned : Versioned pool past id copy)
    (shows : copy.shows = some order) : order.row.id = id ∧ Stood past order := by
  cases copy with
  | held held =>
    cases shows
    exact versioned
  | created | written => exact versioned.elim
  | _ => cases shows

/-- A reader's own operation. -/
theorem versioned_own {op : Op} {outcome : Outcome Exn op.Reply} {copy : Copy} {fate : Fate}
    {label : Moment} (uses : ReadOp id op) (permitted : copy.allowed deployment op)
    (performed : perform deployment reader op pool.world fate = some (outcome, after.world))
    (named : ∀ row, pool.world.orders id = some row → row.id = id)
    (versioned : Versioned pool past id copy) :
    Versioned after ((pool, label) :: past) id (copy.next op outcome) := by
  have kept : op.onTables = false → Versioned after ((pool, label) :: past) id copy := fun other =>
    versioned.step _ fun _ _ => congrFun (perform_orders performed other) id
  cases op with
  | get key | delete key | hincrby field amount =>
    have stays := kept rfl
    cases copy <;> exact stays
  | set key text ttl =>
    have stays := kept rfl
    cases key with
    | order orderId => cases copy <;> first | exact stays | exact versioned.elim
    | _ => exact uses.elim
  | selectOrder asked =>
    obtain rfl := uses
    obtain ⟨world, ⟨error, rfl⟩ | rfl | ⟨error, rfl⟩⟩ := perform_selectOrder performed
    · cases copy <;> trivial
    · cases found : pool.world.orders asked with
      | none => cases copy <;> trivial
      | some row =>
        have reads : Versioned after ((pool, label) :: past) asked (.reading asked row) :=
          ⟨rfl, by rw [world, found]⟩
        cases copy <;> exact reads
    · cases copy <;> trivial
  | selectTransitions asked =>
    have reads : ∃ row, copy = .reading asked row := by
      cases copy <;> first | exact permitted | exact permitted.elim
    obtain ⟨row, rfl⟩ := reads
    obtain ⟨rfl, found⟩ := versioned
    obtain ⟨world, ⟨error, rfl⟩ | rfl | ⟨error, rfl⟩⟩ := perform_selectTransitions performed
    · trivial
    · have same := named row found
      refine ⟨same, (pool, label), List.mem_cons_self .., ?_⟩
      exact ⟨by rw [same]; exact found, by rw [same]⟩
    · trivial
  | _ => exact uses.elim

/-- A reader at work. -/
def Reads (deployment : Deployment) (pool : Pipeline) (past : List (Pipeline × Moment))
    (reader : Nat) (id : Uuid) : Prop :=
  ∀ program, pool.threads reader = some ⟨.readOrder id, program⟩ →
    program.Uses (ReadOp id) ∧ Versioned pool past id (copy deployment pool reader)

theorem reads_versioned
    (walked : Path (system deployment) (Untorn deployment reader) (.initial .empty) past pool) :
    Reads deployment pool past reader id := by
  induction walked with
  | here =>
    intro program held
    cases held
  | @step past pool label after walked permitted moved ih =>
    intro program held
    have reached := walked.reachable .init
    have elsewhere : (∀ op outcome, label ≠ .did reader op outcome) →
        pool.threads reader = some ⟨.readOrder id, program⟩ →
        program.Uses (ReadOp id) ∧
          Versioned after ((pool, label) :: past) id (copy deployment after reader) := by
      intro others before
      obtain ⟨uses, versioned⟩ := ih program before
      refine ⟨uses, ?_⟩
      rcases copy_other moved others with same | emptied
      · rw [same]
        refine versioned.step _ fun row reading => ?_
        rw [reading] at versioned
        exact (version_stays reached moved ⟨row, versioned.2⟩ others (permitted id row reading)).1
      · rw [emptied]
        trivial
    have taken := moved
    cases moved with
    | did thread call op resume fate outcome world awaiting performed =>
      by_cases same : reader = thread
      · subst same
        simp only [Function.update_self, Option.some.injEq, Thread.mk.injEq] at held
        obtain ⟨rfl, rfl⟩ := held
        obtain ⟨uses, versioned⟩ := ih _ awaiting
        refine ⟨uses.2 _, ?_⟩
        rw [copy_own taken]
        exact versioned_own uses.1 (copy_permitted reached taken) performed
          (fun row found => row_named reached id row found) versioned
      · simp only [Function.update_of_ne same] at held
        refine elsewhere ?_ held
        rintro _ _ ⟨⟩
        exact same rfl
    | start thread call unused =>
      by_cases same : reader = thread
      · subst same
        simp only [Function.update_self, Option.some.injEq, Thread.mk.injEq] at held
        obtain ⟨rfl, rfl⟩ := held
        refine ⟨readOrder_uses deployment id, ?_⟩
        rw [copy_begins taken]
        trivial
      · simp only [Function.update_of_ne same] at held
        exact elsewhere (by rintro _ _ ⟨⟩) held
    | again thread call next result ended loops =>
      by_cases same : reader = thread
      · subst same
        simp only [Function.update_self, Option.some.injEq, Thread.mk.injEq] at held
        obtain ⟨rfl, rfl⟩ := held
        simp only [system, OrderFlow.again] at loops
        split at loops <;> cases loops
      · simp only [Function.update_of_ne same] at held
        exact elsewhere (by rintro _ _ ⟨⟩) held
    | crash thread inFlight =>
      by_cases same : reader = thread
      · subst same
        simp at held
      · simp only [Function.update_of_ne same] at held
        exact elsewhere (by rintro _ _ ⟨⟩) held
    | event event world happened => exact elsewhere (by rintro _ _ ⟨⟩) held

/-- The status is the one the last hop of the trail made. -/
def SameStatus (out : OrderOut) : Prop :=
  ∃ last, out.transitions.getLast? = some last ∧ out.status = last.toStatus

theorem Audited.sameStatus {order : Order} (audited : Audited order) :
    SameStatus (OrderOut.ofOrder order) := by
  obtain ⟨last, ends, standing⟩ := audited.trail.last
  refine ⟨⟨last.fromStatus, last.toStatus, last.note⟩, ?_, standing.symm⟩
  simp [OrderOut.ofOrder, ends]

/-- A version that stood in a run that keeps deliveries apart has the status of its trail. -/
theorem Stood.sameStatus {order : Order} {allows : Pipeline → Moment → Prop}
    (walked : Path (system deployment) allows (.initial .empty) past pool)
    (guardedRun : ∀ step ∈ past, GuardedRuns deployment step.1 step.2)
    (stood : Stood past order) : SameStatus (OrderOut.ofOrder order) := by
  obtain ⟨⟨moment, label⟩, member, stands⟩ := stood
  obtain ⟨_, earlier, _, _, before, _, _⟩ := (walked.mono guardedRun).taken member
  have audited := all_audited (fun pool tp record permitted => permitted.1 tp record rfl)
    (fun pool label permitted => permitted.2) (before.reachable .init) _ _ stands.row
  rw [stands.trail] at audited
  exact audited.sameStatus

/-- What was read of the order is the committed row with its committed trail of one
    moment; where the guard keeps deliveries apart, the row's status is its trail's. -/
def IsVersion (deployment : Deployment) (past : List (Pipeline × Moment)) (id : Uuid)
    (out : OrderOut) : Prop :=
  ∃ order, Stood past order ∧ order.row.id = id ∧ out = OrderOut.ofOrder order ∧
    ((∀ step ∈ past, GuardedRuns deployment step.1 step.2) → SameStatus out)

/-- What the reader answered from the database, and what it put in the cache. -/
structure ReadsVersions (deployment : Deployment) (past : List (Pipeline × Moment))
    (pool : Pipeline) (reader : Nat) (id : Uuid) : Prop where
  returned : ∀ out,
    pool.threads reader = some ⟨.readOrder id, .ret (.read (some ⟨out, .database⟩))⟩ →
    IsVersion deployment past id out
  cached : ∀ before program key text ttl outcome,
    (before, .did reader (.set key text ttl) outcome) ∈ past →
    before.threads reader = some ⟨.readOrder id, program⟩ →
    key = .order id.str ∧ ∃ out, text = deployment.platform.modelDumpJson out ∧
      IsVersion deployment past id out

theorem read_one_version
    (walked : Path (system deployment) (Untorn deployment reader) (.initial .empty) past pool) :
    ReadsVersions deployment past pool reader id := by
  have version : ∀ order, Stood past order → order.row.id = id →
      IsVersion deployment past id (OrderOut.ofOrder order) := fun order stood same =>
    ⟨order, stood, same, rfl, fun guardedRun => stood.sameStatus walked guardedRun⟩
  constructor
  · intro out ended
    obtain ⟨_, versioned⟩ := reads_versioned walked _ ended
    obtain ⟨_, puts⟩ := Monitor.follows_of_reachable (Copy.keeps deployment)
      (walked.reachable .init) reader _ ended
    obtain ⟨order, put, rfl⟩ := puts out rfl
    have holds : copy deployment pool reader = .put order := put
    rw [holds] at versioned
    exact version order versioned.2 versioned.1
  · intro before program key text ttl outcome member held
    obtain ⟨later, earlier, taken, rfl, walkedBefore, _, moved⟩ := walked.taken member
    obtain ⟨uses, versioned⟩ := reads_versioned walkedBefore program held
    have permitted := copy_permitted (walkedBefore.reachable .init) moved
    cases moved with
    | did _ call _ resume fate _ world awaiting performed =>
      cases held.symm.trans awaiting
      cases key with
      | order orderId =>
        obtain ⟨order, shows, rfl, rfl⟩ : ∃ order, (copy deployment before reader).shows =
            some order ∧ orderId = order.row.id.str ∧
            text = deployment.platform.modelDumpJson (OrderOut.ofOrder order) := by
          cases holds : copy deployment before reader <;> rw [holds] at permitted <;> exact permitted
        obtain ⟨same, moment, member, stands⟩ := versioned.shown shows
        refine ⟨by rw [same], _, rfl, version order ⟨moment, ?_, stands⟩ same⟩
        exact List.mem_append_right _ (List.mem_cons_of_mem _ member)
      | _ => exact uses.1.elim

namespace Sample

/-- What a read of this order answered from the database. -/
def answered (pool : Pipeline) (thread : Nat) (id : Uuid) : Option OrderOut :=
  match pool.threads thread with
  | some ⟨.readOrder asked, .ret (.read (some ⟨out, .database⟩))⟩ =>
      if asked = id then some out else none
  | _ => none

theorem threads_of_answered {pool : Pipeline} {thread : Nat} {id : Uuid} {out : OrderOut}
    (read : answered pool thread id = some out) :
    pool.threads thread = some ⟨.readOrder id, .ret (.read (some ⟨out, .database⟩))⟩ := by
  unfold answered at read
  split at read
  · rename_i held
    split at read
    · rename_i same
      cases read
      rw [← same]
      exact held
    · cases read
  · cases read

/-- A reader has read the row when a worker moves the order on. -/
def readBetween : Moves :=
  submit 0 none 1 2 ++ [.start 2 (.readOrder ⟨1⟩)] ++ runs 2 3 ++ consume {} 1 .processor ++
    runs 1 2 ++ [.run 1 (draw 3)] ++ runs 1 5 ++ runs 2 2

/-- The reader is through when the worker comes. -/
def readBefore : Moves :=
  submit 0 none 1 2 ++ [.start 2 (.readOrder ⟨1⟩)] ++ runs 2 5 ++ consume {} 1 .processor ++
    runs 1 2 ++ [.run 1 (draw 3)] ++ runs 1 5

def uncommitted : Moment → Bool
  | .did _ (.commit _) _ => false
  | _ => true

/-- No commit at all between the reader's SELECTs, and no fault. -/
def untorn (pool : Pipeline) (label : Moment) : Bool :=
  faultless label && match copy shop pool 2 with
    | .reading _ _ => uncommitted label
    | _ => true

theorem untorn_sound (pool : Pipeline) (label : Moment) (passes : untorn pool label = true) :
    Untorn shop 2 pool label ∧ GuardedRuns shop pool label := by
  rw [untorn, Bool.and_eq_true] at passes
  refine ⟨?_, faultless_guarded pool label passes.1⟩
  rintro id row reading ⟨actor, writes, outcome, changes, _, rfl, _⟩
  have still := passes.2
  rw [reading] at still
  cases still

end Sample

theorem read_one_version_run : ∃ past pool out,
    Path (system Sample.shop) (Untorn Sample.shop 2) (.initial .empty) past pool ∧
      pool.threads 2 = some ⟨.readOrder ⟨1⟩, .ret (.read (some ⟨out, .database⟩))⟩ ∧
      Sample.status pool 1 = some .processing ∧ SameStatus out := by
  obtain ⟨past, pool, path, facts⟩ := Sample.play_paths {} Sample.fulfils [Sample.event none 1 2]
    Sample.readBefore Sample.untorn_sound (fun pool =>
      (Sample.answered pool 2 ⟨1⟩).isSome && Sample.status pool 1 = some .processing)
    (by decide +kernel)
  simp only [Bool.and_eq_true, decide_eq_true_eq, Option.isSome_iff_exists] at facts
  obtain ⟨⟨out, answered⟩, moved⟩ := facts
  have ended := Sample.threads_of_answered answered
  have each : ∀ step ∈ past, Untorn Sample.shop 2 step.1 step.2 ∧
      GuardedRuns Sample.shop step.1 step.2 := by
    intro step member
    obtain ⟨_, _, _, _, _, permitted, _⟩ := path.taken member
    exact permitted
  have walked := path.mono fun step member => (each step member).1
  obtain ⟨_, _, _, _, same⟩ := (read_one_version walked).returned out ended
  exact ⟨past, pool, out, walked, ended, moved, same fun step member => (each step member).2⟩

/-- A commit between the two SELECTs: the answer, and the entry it leaves in the cache,
    have the status of one version and the trail of the next. -/
theorem read_torn : ∃ (pool : Pipeline) (out : OrderOut),
    Reachable (system Sample.shop) (GuardedRuns Sample.shop) World.empty pool ∧
      pool.threads 2 = some ⟨.readOrder ⟨1⟩, .ret (.read (some ⟨out, .database⟩))⟩ ∧
      pool.world.redis (.order (Uuid.str ⟨1⟩)) = some (Sample.platform.modelDumpJson out) ∧
      ¬ SameStatus out := by
  obtain ⟨pool, reached, facts⟩ := Sample.play_shows {} Sample.fulfils [Sample.event none 1 2]
    Sample.readBetween Sample.faultless_guarded (fun pool =>
      (Sample.answered pool 2 ⟨1⟩).any fun out => out.status = .pending &&
        (out.transitions.getLast?.map (·.toStatus)) = some .processing &&
        pool.world.redis (.order (Uuid.str ⟨1⟩)) = some (Sample.platform.modelDumpJson out))
    (by decide +kernel)
  obtain ⟨out, answered, shows⟩ := (Option.any_eq_true _ _).mp facts
  simp only [Bool.and_eq_true, decide_eq_true_eq] at shows
  obtain ⟨⟨pending, processing⟩, cached⟩ := shows
  refine ⟨pool, out, reached, Sample.threads_of_answered answered, cached, ?_⟩
  rintro ⟨last, ends, same⟩
  have moved : some last.toStatus = some OrderStatus.processing := by
    simpa [ends] using processing
  rw [pending] at same
  rw [← same] at moved
  cases moved

end OrderFlow
