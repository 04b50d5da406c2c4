import OrderFlow.Runs.Attempts

/-!
One call of `handle` in a run. A stretch from the state the call begins in, with
whatever else goes on meanwhile; what the call keeps, and how long a guard lasts.
-/
namespace OrderFlow
open AsyncCoroutine AsyncPool

variable {deployment : Deployment} {allows : Pipeline → Moment → Prop}
  {start pool after : Pipeline} {thread : Nat} {op : Op} {outcome : Outcome Exn op.Reply}
  {record : ConsumerRecord} {eventId : String} {label : Moment}
  {past : List (Pipeline × Moment)}

/-- The event's guard key does not expire. -/
def Unexpired (eventId : String) (_ : Pipeline) (label : Moment) : Prop :=
  label ≠ .event (.expire (.eventGuard eventId))

/-- A call of the processor's `handle` on the record, from its start to some moment before
    it answers. -/
structure Handles (deployment : Deployment) (eventId : String) (thread : Nat)
    (record : ConsumerRecord) (start : Pipeline) (past : List (Pipeline × Moment))
    (pool : Pipeline) : Prop where
  path : Path (system deployment) (Unexpired eventId) start
    (past ++ [(start, .did thread (.handleCall Consumer.processor.name record) (.ok ()))]) pool
  inside : ∀ step ∈ past, ∀ name other,
    (∀ outcome, step.2 ≠ .did thread (.handleCall name other) outcome) ∧
      ∀ result outcome, step.2 ≠ .did thread (.handleReturn name other result) outcome

/-- A run under no condition. -/
abbrev Ran (deployment : Deployment) (pool : Pipeline) : Prop :=
  Reachable (system deployment) (fun _ _ => True) World.empty pool

theorem ran_along {start : Pipeline}
    (path : Path (system deployment) allows start past pool) (ran : Ran deployment start) :
    Ran deployment pool := by
  apply (path.mono ?_).reachable ran
  intro step member
  trivial

/-- What holds once the call has begun and is kept by its moments holds to the end of the
    stretch, and held before each of its steps. -/
theorem Handles.keeps {P : Pipeline → Prop}
    (handles : Handles deployment eventId thread record start past pool)
    (ran : Ran deployment start)
    (begins : ∀ entered, Ran deployment entered → Acts deployment start entered thread
      (.handleCall Consumer.processor.name record) (.ok ()) → P entered)
    (steps : ∀ pool label after, Ran deployment pool → Unexpired eventId pool label →
      (pool, label) ∈ past → Step (system deployment) pool label after → P pool → P after) :
    P pool ∧ Ran deployment pool ∧ ∀ step ∈ past, P step.1 ∧ Ran deployment step.1 := by
  have path := handles.path
  clear handles
  induction past generalizing pool with
  | nil =>
    cases path with
    | step walked permitted moved =>
      cases walked with
      | here =>
        refine ⟨?_, .step ran trivial moved, fun step member => by cases member⟩
        rcases step_cases ran moved with ⟨actor, op, outcome, same, act⟩ | ⟨actor, turn⟩ |
          ⟨event, same, _⟩
        · cases same
          exact begins _ (.step ran trivial moved) act
        · exact (turn.not_did _ _ _ rfl).elim
        · cases same
  | cons step past ih =>
    cases path with
    | step walked permitted moved =>
      rename_i before label
      obtain ⟨holds, reached, earlier⟩ := ih (fun pool label after ran unexpired member =>
        steps pool label after ran unexpired (List.mem_cons_of_mem _ member)) walked
      refine ⟨steps _ _ _ reached permitted (List.mem_cons_self ..) moved holds,
        .step reached trivial moved, ?_⟩
      intro other member
      rcases List.mem_cons.mp member with rfl | older
      · exact ⟨holds, reached⟩
      · exact earlier other older

theorem handed_along {consumer : Consumer}
    (path : Path (system deployment) allows start past pool)
    (handed : Handed deployment start consumer record) : Handed deployment pool consumer record := by
  induction path with
  | here => exact handed
  | step walked permitted moved ih => exact ih.later moved

/-! ### The guard key -/

/-- A tombstone stays until it expires. -/
theorem tombstone_kept (ran : Ran deployment pool) (unexpired : Unexpired eventId pool label)
    (moved : Step (system deployment) pool label after)
    (finished : pool.world.redis (.eventGuard eventId) = some done) :
    after.world.redis (.eventGuard eventId) = some done := by
  rcases step_cases ran moved with ⟨actor, op, outcome, rfl, act⟩ | ⟨actor, turn⟩ |
    ⟨event, rfl, happening⟩
  · cases guard_change act eventId with
    | same redis => exact redis.trans finished
    | claimed _ _ _ _ _ _ free =>
      rw [free] at finished
      cases finished
    | completed _ _ _ _ _ _ _ _ _ redis => exact redis
    | released delivery token phase _ standing _ held =>
      rw [finished] at held
      have tombstone : done = token := Option.some.inj held
      exact (token_ne_done ran actor (by rw [standing]; rfl) tombstone.symm).elim
  · rw [turn.world]
    exact finished
  · rcases happen_redis happening.happened (.eventGuard eventId) with same | ⟨rfl, _⟩
    · exact same.trans finished
    · exact (unexpired rfl).elim

theorem tombstone_lasts (ran : Ran deployment start)
    (path : Path (system deployment) (Unexpired eventId) start past pool)
    (finished : start.world.redis (.eventGuard eventId) = some done) :
    pool.world.redis (.eventGuard eventId) = some done := by
  induction path with
  | here => exact finished
  | step walked permitted moved ih => exact tombstone_kept (ran_along walked ran) permitted moved ih

/-- The token of a call at work is safe from everybody else. -/
theorem token_kept {delivery : Delivery deployment} {token : String} (ran : Ran deployment pool)
    (unexpired : Unexpired eventId pool label)
    (moved : Step (system deployment) pool label after)
    (others : ∀ op outcome, label ≠ .did thread op outcome)
    (carries : (stage deployment pool thread).carries = some (delivery, token))
    (held : pool.world.redis (.eventGuard eventId) = some token) :
    after.world.redis (.eventGuard eventId) = some token := by
  rcases step_cases ran moved with ⟨actor, op, outcome, rfl, act⟩ | ⟨actor, turn⟩ |
    ⟨event, rfl, happening⟩
  · have differ : thread ≠ actor := by
      intro same
      exact others op outcome (same ▸ rfl)
    exact (guard_change act eventId).keeps ran differ carries held
  · rw [turn.world]
    exact held
  · rcases happen_redis happening.happened (.eventGuard eventId) with same | ⟨rfl, _⟩
    · exact same.trans held
    · exact (unexpired rfl).elim

/-! ### The stage of the call -/

theorem stage_kept (ran : Ran deployment pool) (moved : Step (system deployment) pool label after)
    (others : ∀ op outcome, label ≠ .did thread op outcome) :
    stage deployment after thread = stage deployment pool thread ∨
      stage deployment after thread = .outside ∨ pool.Unused thread := by
  rcases step_cases ran moved with ⟨actor, op, outcome, rfl, act⟩ | ⟨actor, turn⟩ |
    ⟨event, rfl, happening⟩
  · have differ : thread ≠ actor := by
      intro same
      exact others op outcome (same ▸ rfl)
    exact .inl (act.others thread differ)
  · by_cases same : thread = actor
    · subst same
      rcases turn.own with ⟨_, _, unused, _⟩ | ⟨_, _, _, outside⟩ | ⟨_, outside⟩
      · exact .inr (.inr unused)
      · exact .inr (.inl outside)
      · exact .inr (.inl outside)
    · exact .inl (turn.others thread same)
  · exact .inl (happening.stages thread)

theorem called_entered {entered : Pipeline} (act : Acts deployment start entered thread
    (.handleCall Consumer.processor.name record) (.ok ())) :
    stage deployment entered thread = .entered record := by
  rw [act.own, Stage.entering act.permitted]
  rfl

theorem used_kept (moved : Step (system deployment) pool label after)
    (used : ¬ pool.Unused thread) : ¬ after.Unused thread := by
  intro unused
  apply used
  intro past member
  apply unused past
  rw [step_trace moved]
  exact List.mem_cons_of_mem _ member

/-- What a call keeps of its stage to the end of the stretch, by its own steps and through
    those of others. -/
theorem Handles.stays {Q : Pipeline → Stage deployment → Prop}
    (handles : Handles deployment eventId thread record start past pool)
    (ran : Ran deployment start)
    (outside : ∀ pool label after, Ran deployment pool → Unexpired eventId pool label →
      Step (system deployment) pool label after → Q pool (stage deployment pool thread) →
      Q after .outside)
    (begins : ∀ entered, Acts deployment start entered thread
      (.handleCall Consumer.processor.name record) (.ok ()) → Q entered (.entered record))
    (others : ∀ pool label after, Ran deployment pool → Unexpired eventId pool label →
      Step (system deployment) pool label after → (∀ op outcome, label ≠ .did thread op outcome) →
      Q pool (stage deployment pool thread) → Q after (stage deployment pool thread))
    (own : ∀ pool op outcome after, Ran deployment pool →
      (pool, .did thread op outcome) ∈ past →
      Step (system deployment) pool (.did thread op outcome) after →
      Acts deployment pool after thread op outcome → Q pool (stage deployment pool thread) →
      Q after (stage deployment after thread)) :
    Q pool (stage deployment pool thread) ∧ Ran deployment pool ∧
      ∀ step ∈ past, Q step.1 (stage deployment step.1 thread) ∧ Ran deployment step.1 := by
  have stands := handles.keeps (P := fun pool => ¬ pool.Unused thread ∧
    Q pool (stage deployment pool thread)) ran ?_ ?_
  · obtain ⟨⟨_, known⟩, reached, earlier⟩ := stands
    exact ⟨known, reached, fun step member =>
      ⟨(earlier step member).1.2, (earlier step member).2⟩⟩
  · intro entered reached act
    constructor
    · apply started_of_did reached
      rw [act.trace]
      exact List.mem_cons_self ..
    · rw [called_entered act]
      exact begins entered act
  · intro pool label after ran unexpired member moved known
    obtain ⟨used, known⟩ := known
    refine ⟨used_kept moved used, ?_⟩
    by_cases mine : ∃ op outcome, label = .did thread op outcome
    · obtain ⟨op, outcome, rfl⟩ := mine
      rcases step_cases ran moved with ⟨actor, _, _, same, act⟩ | ⟨actor, turn⟩ | ⟨event, same, _⟩
      · cases same
        exact own pool op outcome after ran member moved act known
      · exact (turn.not_did _ _ _ rfl).elim
      · cases same
    · have theirs : ∀ op outcome, label ≠ .did thread op outcome :=
        fun op outcome same => mine ⟨op, outcome, same⟩
      rcases stage_kept ran moved theirs with same | gone | unused
      · rw [same]
        exact others pool label after ran unexpired moved theirs known
      · rw [gone]
        exact outside pool label after ran unexpired moved known
      · exact (used unused).elim

end OrderFlow
