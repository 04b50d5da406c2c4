import OrderFlow.Async.Pool

/-!
A coroutine run to its end with no one else moving: how such runs compose, and a
total-correctness judgement with one rule for each construct of a program.
-/
namespace AsyncPool
open AsyncCoroutine

variable {Op : Type} {Reply : Op → Type} {Exn World Value Next Fate : Type}

/-- A coroutine run to its end with no one else moving. -/
inductive Alone (perform : (op : Op) → World → Fate → Option (Outcome Exn (Reply op) × World))
    (allows : (op : Op) → Outcome Exn (Reply op) → Prop) :
    Coroutine Op Reply Exn Value → World → Except Exn Value → World → Prop where
  | ret (value : Value) (world : World) : Alone perform allows (.ret value) world (.ok value) world
  | raise (error : Exn) (world : World) :
      Alone perform allows (.raise error) world (.error error) world
  | await {op : Op} {resume : Except Exn (Reply op) → Coroutine Op Reply Exn Value}
      {world middle after : World} {fate : Fate} {outcome : Outcome Exn (Reply op)}
      {result : Except Exn Value}
      (performed : perform op world fate = some (outcome, middle)) (permitted : allows op outcome)
      (rest : Alone perform allows (resume outcome.reply) middle result after) :
      Alone perform allows (.await op resume) world result after

variable {perform : (op : Op) → World → Fate → Option (Outcome Exn (Reply op) × World)}
  {allows : (op : Op) → Outcome Exn (Reply op) → Prop}
  {program : Coroutine Op Reply Exn Value} {world after : World}

theorem alone_ret {value : Value} {result : Except Exn Value} :
    Alone perform allows (.ret value) world result after ↔ result = .ok value ∧ after = world := by
  constructor
  · intro run
    cases run
    exact ⟨rfl, rfl⟩
  · intro same
    obtain ⟨rfl, rfl⟩ := same
    exact .ret ..

theorem alone_raise {error : Exn} {result : Except Exn Value} :
    Alone perform allows (.raise error) world result after ↔
      result = .error error ∧ after = world := by
  constructor
  · intro run
    cases run
    exact ⟨rfl, rfl⟩
  · intro same
    obtain ⟨rfl, rfl⟩ := same
    exact .raise ..

theorem alone_perform {op : Op} {result : Except Exn (Reply op)} :
    Alone perform allows (Coroutine.perform op) world result after ↔
      ∃ fate outcome, perform op world fate = some (outcome, after) ∧ allows op outcome ∧
        result = outcome.reply := by
  constructor
  · intro run
    cases run with
    | @await _ _ _ middle _ fate outcome _ performed permitted rest =>
      cases outcome with
      | ok value =>
        cases rest
        exact ⟨fate, _, performed, permitted, rfl⟩
      | lost error | late error =>
        cases rest
        exact ⟨fate, _, performed, permitted, rfl⟩
  · intro done
    obtain ⟨fate, outcome, performed, permitted, rfl⟩ := done
    refine .await performed permitted ?_
    cases outcome with
    | ok value => exact .ret ..
    | lost error | late error => exact .raise ..

theorem Alone.mono {weaker : (op : Op) → Outcome Exn (Reply op) → Prop}
    {result : Except Exn Value} (run : Alone perform allows program world result after)
    (implies : ∀ op outcome, allows op outcome → weaker op outcome) :
    Alone perform weaker program world result after := by
  induction run with
  | ret => exact .ret ..
  | raise => exact .raise ..
  | await performed permitted rest ih => exact .await performed (implies _ _ permitted) ih

/-- A run of two programs in sequence stops in the first or goes on in the second. -/
theorem alone_bind {next : Value → Coroutine Op Reply Exn Next} {result : Except Exn Next} :
    Alone perform allows (program >>= next) world result after ↔
      (∃ value middle, Alone perform allows program world (.ok value) middle ∧
        Alone perform allows (next value) middle result after) ∨
      ∃ error, Alone perform allows program world (.error error) after ∧ result = .error error := by
  induction program generalizing world with
  | ret value =>
    simp only [Coroutine.ret_bind]
    constructor
    · intro run
      exact .inl ⟨value, world, .ret .., run⟩
    · intro runs
      rcases runs with ⟨found, middle, first, second⟩ | ⟨error, first, _⟩
      · cases first
        exact second
      · cases first
  | raise error =>
    simp only [Coroutine.raise_bind]
    constructor
    · intro run
      cases run
      exact .inr ⟨error, .raise .., rfl⟩
    · intro runs
      rcases runs with ⟨found, middle, first, _⟩ | ⟨raised, first, rfl⟩
      · cases first
      · cases first
        exact .raise ..
  | await op resume ih =>
    simp only [Coroutine.await_bind]
    constructor
    · intro run
      cases run with
      | await performed permitted rest =>
        rcases (ih _).mp rest with ⟨value, middle, first, second⟩ | ⟨error, first, same⟩
        · exact .inl ⟨value, middle, .await performed permitted first, second⟩
        · exact .inr ⟨error, .await performed permitted first, same⟩
    · intro runs
      rcases runs with ⟨value, middle, first, second⟩ | ⟨error, first, same⟩
      · cases first with
        | await performed permitted rest =>
          exact .await performed permitted ((ih _).mpr (.inl ⟨value, middle, rest, second⟩))
      · cases first with
        | await performed permitted rest =>
          exact .await performed permitted ((ih _).mpr (.inr ⟨error, rest, same⟩))

theorem alone_tryCatch {handler : Exn → Coroutine Op Reply Exn Value}
    {result : Except Exn Value} :
    Alone perform allows (MonadExcept.tryCatch program handler) world result after ↔
      (∃ value, Alone perform allows program world (.ok value) after ∧ result = .ok value) ∨
      ∃ error middle, Alone perform allows program world (.error error) middle ∧
        Alone perform allows (handler error) middle result after := by
  induction program generalizing world with
  | ret value =>
    simp only [Coroutine.ret_tryCatch]
    constructor
    · intro run
      cases run
      exact .inl ⟨value, .ret .., rfl⟩
    · intro runs
      rcases runs with ⟨found, first, rfl⟩ | ⟨error, middle, first, _⟩
      · cases first
        exact .ret ..
      · cases first
  | raise error =>
    simp only [Coroutine.raise_tryCatch]
    constructor
    · intro run
      exact .inr ⟨error, world, .raise .., run⟩
    · intro runs
      rcases runs with ⟨found, first, _⟩ | ⟨raised, middle, first, second⟩
      · cases first
      · cases first
        exact second
  | await op resume ih =>
    simp only [Coroutine.await_tryCatch]
    constructor
    · intro run
      cases run with
      | await performed permitted rest =>
        rcases (ih _).mp rest with ⟨value, first, same⟩ | ⟨error, middle, first, second⟩
        · exact .inl ⟨value, .await performed permitted first, same⟩
        · exact .inr ⟨error, middle, .await performed permitted first, second⟩
    · intro runs
      rcases runs with ⟨value, first, same⟩ | ⟨error, middle, first, second⟩
      · cases first with
        | await performed permitted rest =>
          exact .await performed permitted ((ih _).mpr (.inl ⟨value, rest, same⟩))
      · cases first with
        | await performed permitted rest =>
          exact .await performed permitted ((ih _).mpr (.inr ⟨error, middle, rest, second⟩))

/-- The program comes to an end, and every end it can come to meets the goal. -/
structure Yields (perform : (op : Op) → World → Fate → Option (Outcome Exn (Reply op) × World))
    (allows : (op : Op) → Outcome Exn (Reply op) → Prop) (program : Coroutine Op Reply Exn Value)
    (world : World) (Q : Except Exn Value → World → Prop) : Prop where
  ends : ∃ result after, Alone perform allows program world result after
  meets : ∀ result after, Alone perform allows program world result after → Q result after

namespace Yields
variable {Q weaker : Except Exn Value → World → Prop}

theorem ret {value : Value} (holds : Q (.ok value) world) :
    Yields perform allows (.ret value) world Q := by
  constructor
  · exact ⟨_, _, .ret ..⟩
  · intro result after run
    obtain ⟨rfl, rfl⟩ := alone_ret.mp run
    exact holds

theorem raise {error : Exn} (holds : Q (.error error) world) :
    Yields perform allows (.raise error) world Q := by
  constructor
  · exact ⟨_, _, .raise ..⟩
  · intro result after run
    obtain ⟨rfl, rfl⟩ := alone_raise.mp run
    exact holds

theorem mono (yields : Yields perform allows program world Q)
    (implies : ∀ result after, Q result after → weaker result after) :
    Yields perform allows program world weaker :=
  ⟨yields.ends, fun result after run => implies _ _ (yields.meets result after run)⟩

theorem operation {op : Op} {Q : Except Exn (Reply op) → World → Prop}
    (answers : ∃ fate outcome after, perform op world fate = some (outcome, after) ∧
      allows op outcome)
    (holds : ∀ fate outcome after, perform op world fate = some (outcome, after) →
      allows op outcome → Q outcome.reply after) :
    Yields perform allows (Coroutine.perform op) world Q := by
  constructor
  · obtain ⟨fate, outcome, after, performed, permitted⟩ := answers
    exact ⟨_, after, alone_perform.mpr ⟨fate, outcome, performed, permitted, rfl⟩⟩
  · intro result after run
    obtain ⟨fate, outcome, performed, permitted, rfl⟩ := alone_perform.mp run
    exact holds fate outcome after performed permitted

theorem bind {next : Value → Coroutine Op Reply Exn Next} {Q : Except Exn Value → World → Prop}
    {last : Except Exn Next → World → Prop}
    (first : Yields perform allows program world Q)
    (rest : ∀ value middle, Q (.ok value) middle →
      Yields perform allows (next value) middle last)
    (fails : ∀ error middle, Q (.error error) middle → last (.error error) middle) :
    Yields perform allows (program >>= next) world last := by
  constructor
  · obtain ⟨result, middle, run⟩ := first.ends
    cases result with
    | ok value =>
      obtain ⟨result, after, more⟩ := (rest value middle (first.meets _ _ run)).ends
      exact ⟨result, after, alone_bind.mpr (.inl ⟨value, middle, run, more⟩)⟩
    | error error => exact ⟨_, middle, alone_bind.mpr (.inr ⟨error, run, rfl⟩)⟩
  · intro result after run
    rcases alone_bind.mp run with ⟨value, middle, begins, more⟩ | ⟨error, begins, rfl⟩
    · exact (rest value middle (first.meets _ _ begins)).meets _ _ more
    · exact fails error after (first.meets _ _ begins)

theorem tryCatch {handler : Exn → Coroutine Op Reply Exn Value}
    {last : Except Exn Value → World → Prop}
    (body : Yields perform allows program world Q)
    (returns : ∀ value after, Q (.ok value) after → last (.ok value) after)
    (handles : ∀ error middle, Q (.error error) middle →
      Yields perform allows (handler error) middle last) :
    Yields perform allows (MonadExcept.tryCatch program handler) world last := by
  constructor
  · obtain ⟨result, middle, run⟩ := body.ends
    cases result with
    | ok value => exact ⟨_, middle, alone_tryCatch.mpr (.inl ⟨value, run, rfl⟩)⟩
    | error error =>
      obtain ⟨result, after, more⟩ := (handles error middle (body.meets _ _ run)).ends
      exact ⟨result, after, alone_tryCatch.mpr (.inr ⟨error, middle, run, more⟩)⟩
  · intro result after run
    rcases alone_tryCatch.mp run with ⟨value, begins, rfl⟩ | ⟨error, middle, begins, more⟩
    · exact returns value after (body.meets _ _ begins)
    · exact (handles error middle (body.meets _ _ begins)).meets _ _ more

end Yields

/-- The program returns, with a value and a state the goal accepts. -/
abbrev Returns (perform : (op : Op) → World → Fate → Option (Outcome Exn (Reply op) × World))
    (allows : (op : Op) → Outcome Exn (Reply op) → Prop) (program : Coroutine Op Reply Exn Value)
    (world : World) (Q : Value → World → Prop) : Prop :=
  Yields perform allows program world fun result after => ∃ value, result = .ok value ∧ Q value after

/-- The program raises, with an error and a state the goal accepts. -/
abbrev Raises (perform : (op : Op) → World → Fate → Option (Outcome Exn (Reply op) × World))
    (allows : (op : Op) → Outcome Exn (Reply op) → Prop) (program : Coroutine Op Reply Exn Value)
    (world : World) (Q : Exn → World → Prop) : Prop :=
  Yields perform allows program world fun result after => ∃ error, result = .error error ∧ Q error after

namespace Returns
variable {Q weaker : Value → World → Prop}

theorem ret {value : Value} (holds : Q value world) :
    Returns perform allows (.ret value) world Q :=
  Yields.ret ⟨value, rfl, holds⟩

theorem mono (returns : Returns perform allows program world Q)
    (implies : ∀ value after, Q value after → weaker value after) :
    Returns perform allows program world weaker := by
  apply Yields.mono returns
  intro result after ended
  obtain ⟨value, same, holds⟩ := ended
  exact ⟨value, same, implies value after holds⟩

theorem bind {next : Value → Coroutine Op Reply Exn Next} {last : Except Exn Next → World → Prop}
    (first : Returns perform allows program world Q)
    (rest : ∀ value middle, Q value middle → Yields perform allows (next value) middle last) :
    Yields perform allows (program >>= next) world last := by
  refine Yields.bind first ?_ ?_
  · intro value middle ended
    obtain ⟨_, same, holds⟩ := ended
    cases same
    exact rest value middle holds
  · intro error middle ended
    obtain ⟨_, same, _⟩ := ended
    cases same

theorem tryCatch {handler : Exn → Coroutine Op Reply Exn Value}
    (body : Returns perform allows program world Q) :
    Returns perform allows (MonadExcept.tryCatch program handler) world Q := by
  refine Yields.tryCatch body ?_ ?_
  · intro value after ended
    exact ended
  · intro error middle ended
    obtain ⟨_, same, _⟩ := ended
    cases same

end Returns

namespace Raises
variable {Q : Exn → World → Prop}

theorem bind {next : Value → Coroutine Op Reply Exn Next}
    (first : Raises perform allows program world Q) :
    Raises perform allows (program >>= next) world Q := by
  refine Yields.bind first ?_ ?_
  · intro value middle ended
    obtain ⟨_, same, _⟩ := ended
    cases same
  · intro error middle ended
    obtain ⟨_, same, holds⟩ := ended
    cases same
    exact ⟨error, rfl, holds⟩

theorem tryCatch {handler : Exn → Coroutine Op Reply Exn Value}
    {last : Except Exn Value → World → Prop}
    (body : Raises perform allows program world Q)
    (handles : ∀ error middle, Q error middle →
      Yields perform allows (handler error) middle last) :
    Yields perform allows (MonadExcept.tryCatch program handler) world last := by
  refine Yields.tryCatch body ?_ ?_
  · intro value after ended
    obtain ⟨_, same, _⟩ := ended
    cases same
  · intro error middle ended
    obtain ⟨_, same, holds⟩ := ended
    cases same
    exact handles error middle holds

end Raises

/-! ### Partial correctness -/

/-- Every end the program can come to meets the goal. -/
def Ensures (perform : (op : Op) → World → Fate → Option (Outcome Exn (Reply op) × World))
    (allows : (op : Op) → Outcome Exn (Reply op) → Prop) (program : Coroutine Op Reply Exn Value)
    (world : World) (Q : Except Exn Value → World → Prop) : Prop :=
  ∀ result after, Alone perform allows program world result after → Q result after

namespace Ensures
variable {Q : Except Exn Value → World → Prop}

theorem ret {value : Value} (holds : Q (.ok value) world) :
    Ensures perform allows (.ret value) world Q := by
  intro result after run
  obtain ⟨rfl, rfl⟩ := alone_ret.mp run
  exact holds

theorem raise {error : Exn} (holds : Q (.error error) world) :
    Ensures perform allows (.raise error) world Q := by
  intro result after run
  obtain ⟨rfl, rfl⟩ := alone_raise.mp run
  exact holds

theorem operation {op : Op} {Q : Except Exn (Reply op) → World → Prop}
    (holds : ∀ fate outcome after, perform op world fate = some (outcome, after) →
      allows op outcome → Q outcome.reply after) :
    Ensures perform allows (Coroutine.perform op) world Q := by
  intro result after run
  obtain ⟨fate, outcome, performed, permitted, rfl⟩ := alone_perform.mp run
  exact holds fate outcome after performed permitted

theorem mono {weaker : Except Exn Value → World → Prop}
    (ensures : Ensures perform allows program world Q)
    (implies : ∀ result after, Q result after → weaker result after) :
    Ensures perform allows program world weaker := by
  intro result after run
  exact implies result after (ensures result after run)

theorem bind {next : Value → Coroutine Op Reply Exn Next} {last : Except Exn Next → World → Prop}
    (first : Ensures perform allows program world Q)
    (rest : ∀ value middle, Q (.ok value) middle →
      Ensures perform allows (next value) middle last)
    (fails : ∀ error middle, Q (.error error) middle → last (.error error) middle) :
    Ensures perform allows (program >>= next) world last := by
  intro result after run
  rcases alone_bind.mp run with ⟨value, middle, begins, more⟩ | ⟨error, begins, rfl⟩
  · exact rest value middle (first _ _ begins) _ _ more
  · exact fails error after (first _ _ begins)

theorem tryCatch {handler : Exn → Coroutine Op Reply Exn Value}
    {last : Except Exn Value → World → Prop}
    (body : Ensures perform allows program world Q)
    (returns : ∀ value after, Q (.ok value) after → last (.ok value) after)
    (handles : ∀ error middle, Q (.error error) middle →
      Ensures perform allows (handler error) middle last) :
    Ensures perform allows (MonadExcept.tryCatch program handler) world last := by
  intro result after run
  rcases alone_tryCatch.mp run with ⟨value, begins, rfl⟩ | ⟨error, middle, begins, more⟩
  · exact returns value after (body _ _ begins)
  · exact handles error middle (body _ _ begins) _ _ more

/-- What no operation of the program changes is as it was. -/
theorem frame {Part : Type} (part : World → Part) {permits : Op → Prop}
    (uses : program.Uses permits)
    (keeps : ∀ op, permits op → ∀ world fate outcome after,
      perform op world fate = some (outcome, after) → part after = part world) :
    Ensures perform allows program world fun _ after => part after = part world := by
  intro result after run
  induction run with
  | ret => rfl
  | raise => rfl
  | await performed permitted rest ih =>
    have later := ih (uses.2 _)
    rw [later]
    exact keeps _ uses.1 _ _ _ _ performed

end Ensures

/-! ### Another semantics of the same operations -/

/-- A run depends on the operations its program uses only. -/
theorem Alone.transfer
    {other : (op : Op) → World → Fate → Option (Outcome Exn (Reply op) × World)}
    {permits : Op → Prop} {result : Except Exn Value} (uses : program.Uses permits)
    (agree : ∀ op, permits op → ∀ world fate, other op world fate = perform op world fate)
    (run : Alone perform allows program world result after) :
    Alone other allows program world result after := by
  induction run with
  | ret => exact .ret ..
  | raise => exact .raise ..
  | await performed permitted rest ih =>
    exact .await ((agree _ uses.1 _ _).trans performed) permitted (ih (uses.2 _))

theorem Ensures.transfer
    {other : (op : Op) → World → Fate → Option (Outcome Exn (Reply op) × World)}
    {permits : Op → Prop} {goal : Except Exn Value → World → Prop} (uses : program.Uses permits)
    (agree : ∀ op, permits op → ∀ world fate, other op world fate = perform op world fate)
    (ensures : Ensures perform allows program world goal) :
    Ensures other allows program world goal := by
  intro result after run
  apply ensures
  apply run.transfer uses
  intro op permitted world fate
  exact (agree op permitted world fate).symm

theorem Yields.transfer
    {other : (op : Op) → World → Fate → Option (Outcome Exn (Reply op) × World)}
    {permits : Op → Prop} {goal : Except Exn Value → World → Prop} (uses : program.Uses permits)
    (agree : ∀ op, permits op → ∀ world fate, other op world fate = perform op world fate)
    (yields : Yields perform allows program world goal) :
    Yields other allows program world goal := by
  constructor
  · obtain ⟨result, after, run⟩ := yields.ends
    exact ⟨result, after, run.transfer uses agree⟩
  · exact Ensures.transfer uses agree yields.meets

/-! ### Runs with a log -/

/-- One operation of a run, with the state it was performed in. -/
structure Entry (Op : Type) (Reply : Op → Type) (Exn World : Type) where
  world : World
  op : Op
  outcome : Outcome Exn (Reply op)

/-- The same semantics, keeping a log of the operations. -/
def recording (perform : (op : Op) → World → Fate → Option (Outcome Exn (Reply op) × World))
    (op : Op) (state : World × List (Entry Op Reply Exn World)) (fate : Fate) :
    Option (Outcome Exn (Reply op) × (World × List (Entry Op Reply Exn World))) :=
  (perform op state.1 fate).map fun done => (done.1, (done.2, state.2 ++ [⟨state.1, op, done.1⟩]))

theorem recording_some {op : Op} {state last : World × List (Entry Op Reply Exn World)} {fate : Fate}
    {outcome : Outcome Exn (Reply op)} :
    recording perform op state fate = some (outcome, last) ↔
      ∃ after, perform op state.1 fate = some (outcome, after) ∧
        last = (after, state.2 ++ [⟨state.1, op, outcome⟩]) := by
  simp only [recording, Option.map_eq_some_iff, Prod.mk.injEq, Prod.exists]
  constructor
  · intro done
    obtain ⟨_, after, performed, rfl, rfl⟩ := done
    exact ⟨after, performed, rfl⟩
  · intro done
    obtain ⟨after, performed, rfl⟩ := done
    exact ⟨outcome, after, performed, rfl, rfl⟩

variable {permits : Op → Prop} {goal : Except Exn Value → World → Prop}

end AsyncPool
