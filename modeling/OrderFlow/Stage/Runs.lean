import OrderFlow.Stage.Keeps

/-!
Invariants over whole runs. A step of a run is an operation one thread awaited,
a thread beginning or ending a call, or the environment moving; an invariant
that survives the three holds of every reachable pool.
-/
namespace OrderFlow
open AsyncCoroutine AsyncPool

variable {deployment : Deployment} {allows : Pipeline → Moment → Prop} {pool after : Pipeline}
  {thread : Nat}

/-- One thread's operation. -/
structure Acts (deployment : Deployment) (pool after : Pipeline) (thread : Nat) (op : Op)
    (outcome : Outcome Exn op.Reply) : Prop where
  permitted : (stage deployment pool thread).allowed deployment op
  looped : (Loop.monitor deployment.settings).allowed
    ((Loop.monitor deployment.settings).record pool.trace thread) op
  performed : ∃ fate, perform deployment thread op pool.world fate = some (outcome, after.world)
  trace : after.trace = .did thread op outcome :: pool.trace
  own : stage deployment after thread = (stage deployment pool thread).next deployment op outcome
  others : ∀ other, other ≠ thread → stage deployment after other = stage deployment pool other

/-- One thread beginning a call, going round its loop or crashing. -/
structure Turns (deployment : Deployment) (pool after : Pipeline) (label : Moment)
    (thread : Nat) : Prop where
  world : after.world = pool.world
  trace : after.trace = label :: pool.trace
  own : (∃ call, label = .start thread call ∧ pool.Unused thread ∧
      stage deployment pool thread = .outside ∧
      stage deployment after thread = (Stage.monitor deployment).born call) ∨
    (∃ call, label = .again thread call ∧ stage deployment pool thread = .outside ∧
      stage deployment after thread = .outside) ∨
    label = .crash thread ∧ stage deployment after thread = .outside
  others : ∀ other, other ≠ thread → stage deployment after other = stage deployment pool other

/-- The environment moving. -/
structure Happens (deployment : Deployment) (pool after : Pipeline) (event : Event) : Prop where
  happened : happen deployment event pool.world = some after.world
  trace : after.trace = .event event :: pool.trace
  stages : ∀ thread, stage deployment after thread = stage deployment pool thread

theorem acts_of_did {call : Call} {op : Op} {resume : Except Exn op.Reply → Prog Result}
    {fate : Fate} {outcome : Outcome Exn op.Reply} {world : World} {threads}
    (reached : Reachable (system deployment) allows World.empty pool)
    (awaiting : pool.threads thread = some ⟨call, .await op resume⟩)
    (performed : perform deployment thread op pool.world fate = some (outcome, world)) :
    Acts deployment pool ⟨world, threads, .did thread op outcome :: pool.trace⟩ thread op
      outcome where
  permitted := Monitor.allowed_of_awaiting (Stage.keeps deployment) reached awaiting
  looped := Monitor.allowed_of_awaiting (Loop.keeps deployment) reached awaiting
  performed := ⟨fate, performed⟩
  trace := rfl
  own := Monitor.record_did_self ..
  others := fun _ differ => Monitor.record_did_other _ differ ..

/-- The worker that loops ended its pass outside of any call. -/
theorem looping_outside {call next : Call} {result : Result}
    (reached : Reachable (system deployment) allows World.empty pool)
    (ended : pool.threads thread = some ⟨call, .ret result⟩)
    (loops : OrderFlow.again call result = some next) :
    stage deployment pool thread = .outside ∧
      (Stage.monitor deployment).born next = .outside := by
  have left := Monitor.follows_of_reachable (Stage.keeps deployment) reached thread _ ended
  simp only [OrderFlow.again] at loops
  split at loops
  · cases loops
    exact ⟨left, rfl⟩
  · cases loops

theorem step_cases {label : Moment} (reached : Reachable (system deployment) allows World.empty pool)
    (moved : Step (system deployment) pool label after) :
    (∃ thread op outcome, label = .did thread op outcome ∧
      Acts deployment pool after thread op outcome) ∨
    (∃ thread, Turns deployment pool after label thread) ∨
    (∃ event, label = .event event ∧ Happens deployment pool after event) := by
  have other : ∀ {world threads} {label : Moment} {other thread : Nat}, other ≠ thread →
      (∃ call, label = .start thread call) ∨ (∃ call, label = .again thread call) ∨
        label = .crash thread →
      stage deployment ⟨world, threads, label :: pool.trace⟩ other =
        stage deployment pool other := by
    rintro world threads label other thread differ (⟨call, rfl⟩ | ⟨call, rfl⟩ | rfl)
    · simp [stage, Monitor.record, differ]
    · simp [stage, Monitor.record, differ]
    · simp [stage, Monitor.record, differ]
  cases moved with
  | did thread call op resume fate outcome world awaiting performed =>
    exact .inl ⟨thread, op, outcome, rfl, acts_of_did reached awaiting performed⟩
  | start thread call unused =>
    refine .inr (.inl ⟨thread, rfl, rfl, .inl ⟨call, rfl, unused, ?_, ?_⟩, fun _ differ =>
      other differ (.inl ⟨call, rfl⟩)⟩)
    · exact Monitor.record_unused _ reached thread unused
    · simp [stage, Monitor.record]
  | again thread call next result ended loops =>
    obtain ⟨before, born⟩ := looping_outside reached ended loops
    refine .inr (.inl ⟨thread, rfl, rfl, .inr (.inl ⟨next, rfl, before, ?_⟩), fun _ differ =>
      other differ (.inr (.inl ⟨next, rfl⟩))⟩)
    simpa [stage, Monitor.record] using born
  | crash thread running =>
    refine .inr (.inl ⟨thread, rfl, rfl, .inr (.inr ⟨rfl, ?_⟩), fun _ differ =>
      other differ (.inr (.inr rfl))⟩)
    simp [stage, Monitor.record, Stage.monitor]
  | event event world happened =>
    exact .inr (.inr ⟨event, rfl, happened, rfl, fun _ => rfl⟩)

/-- The stages a thread can be in when a call begins. -/
inductive Stage.Begins : Stage deployment → Prop where
  | outside : Begins .outside
  | asks (payload : OrderCreate) (key : String) : Begins (.submitting (.asking payload key))
  | misses (payload : OrderCreate) : Begins (.submitting (.missed payload none))
  | reads : Begins .reading

theorem Turns.not_did {label : Moment} (turn : Turns deployment pool after label thread)
    (actor : Nat) (op : Op) (outcome : Outcome Exn op.Reply) : label ≠ .did actor op outcome := by
  rcases turn.own with ⟨_, rfl, _⟩ | ⟨_, rfl, _⟩ | ⟨rfl, _⟩ <;> rintro ⟨⟩

theorem Turns.begins {label : Moment} (turn : Turns deployment pool after label thread) :
    Stage.Begins (stage deployment after thread) := by
  rcases turn.own with ⟨call, _, _, _, own⟩ | ⟨call, _, _, own⟩ | ⟨_, own⟩
  · rw [own]
    cases call with
    | worker consumer => exact .outside
    | submitOrder payload idempotencyKey =>
      simp only [Stage.monitor]
      split
      · exact .asks ..
      · exact .misses ..
    | readOrder orderId => exact .reads
  · rw [own]
    exact .outside
  · rw [own]
    exact .outside

/-- What survives every kind of step holds of every reachable pool. -/
theorem run_invariant {P : Pipeline → Prop}
    (init : P (.initial .empty))
    (acts : ∀ pool after thread op outcome,
      Reachable (system deployment) allows World.empty pool → P pool →
      allows pool (.did thread op outcome) → Acts deployment pool after thread op outcome →
      P after)
    (turns : ∀ pool after label thread,
      Reachable (system deployment) allows World.empty pool → P pool →
      allows pool label → Turns deployment pool after label thread → P after)
    (happens : ∀ pool after event,
      Reachable (system deployment) allows World.empty pool → P pool →
      allows pool (.event event) → Happens deployment pool after event → P after)
    (reached : Reachable (system deployment) allows World.empty pool) : P pool := by
  induction reached with
  | init => exact init
  | @step pool label after reached permitted moved ih =>
    rcases step_cases reached moved with ⟨thread, op, outcome, rfl, act⟩ | ⟨thread, turn⟩ |
      ⟨event, rfl, happening⟩
    · exact acts _ _ _ _ _ reached ih permitted act
    · exact turns _ _ _ _ reached ih permitted turn
    · exact happens _ _ _ reached ih permitted happening

/-- A fact about each thread's stage: it is there when a call begins, the thread's
    own operations keep it, and the steps of others do not take it away. -/
theorem each_stage {P : Pipeline → Nat → Stage deployment → Prop}
    (begins : ∀ pool thread stage, Stage.Begins stage → P pool thread stage)
    (stays : ∀ pool label after, Reachable (system deployment) allows World.empty pool →
      allows pool label → Step (system deployment) pool label after →
      ∀ thread stage, (∀ op outcome, label ≠ .did thread op outcome) →
        P pool thread stage → P after thread stage)
    (own : ∀ pool after thread op outcome,
      Reachable (system deployment) allows World.empty pool →
      allows pool (.did thread op outcome) →
      Step (system deployment) pool (.did thread op outcome) after →
      Acts deployment pool after thread op outcome →
      P pool thread (stage deployment pool thread) →
      P after thread (stage deployment after thread))
    (reached : Reachable (system deployment) allows World.empty pool) (thread : Nat) :
    P pool thread (stage deployment pool thread) := by
  induction reached generalizing thread with
  | init => exact begins _ _ _ .outside
  | @step pool label after reached permitted moved ih =>
    rcases step_cases reached moved with ⟨actor, op, outcome, rfl, act⟩ | ⟨actor, turn⟩ |
      ⟨event, rfl, happening⟩
    · by_cases same : thread = actor
      · subst same
        exact own _ _ _ _ _ reached permitted moved act (ih thread)
      · rw [act.others thread same]
        refine stays _ _ _ reached permitted moved _ _ ?_ (ih thread)
        rintro op outcome ⟨⟩
        exact same rfl
    · by_cases same : thread = actor
      · subst same
        exact begins _ _ _ turn.begins
      · rw [turn.others thread same]
        refine stays _ _ _ reached permitted moved _ _ ?_ (ih thread)
        rcases turn.own with ⟨_, rfl, _⟩ | ⟨_, rfl, _⟩ | ⟨rfl, _⟩ <;> rintro op outcome ⟨⟩
    · rw [happening.stages thread]
      exact stays _ _ _ reached permitted moved _ _ (by rintro op outcome ⟨⟩) (ih thread)

end OrderFlow
