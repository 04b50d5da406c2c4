import OrderFlow.Async.Pool

/-!
Runs written out as schedules: a list of moves is played on a pool, and what can
be played is reachable.
-/
namespace AsyncPool
open AsyncCoroutine

variable {Op : Type} {Reply : Op → Type} {Exn World Call Result Event Fate : Type}

inductive Move (Call Event Fate : Type) where
  | start (thread : Nat) (call : Call)
  | run (thread : Nat) (fate : Fate)
  | again (thread : Nat)
  | crash (thread : Nat)
  | event (event : Event)

variable (system : System Op Reply Exn World Call Result Event Fate)

namespace Pool

def unused (pool : Pool Op Reply Exn World Call Result Event) (thread : Nat) : Bool :=
  pool.trace.all fun
    | .start other _ => other != thread
    | _ => true

theorem unused_sound {pool : Pool Op Reply Exn World Call Result Event} {thread : Nat}
    (free : pool.unused thread = true) : pool.Unused thread := by
  intro label member call same
  subst same
  have := List.all_eq_true.mp free _ member
  simp at this

/-- One move, with the label it carries. -/
def move (pool : Pool Op Reply Exn World Call Result Event) :
    Move Call Event Fate →
    Option (Label Op Reply Exn Call Event × Pool Op Reply Exn World Call Result Event)
  | .start thread call =>
      if pool.unused thread then
        some (.start thread call, ⟨pool.world,
          Function.update pool.threads thread (some ⟨call, system.program call⟩),
          .start thread call :: pool.trace⟩)
      else none
  | .run thread fate =>
      match pool.threads thread with
      | some ⟨call, .await op resume⟩ =>
          match system.perform thread op pool.world fate with
          | some (outcome, world) => some (.did thread op outcome, ⟨world,
              Function.update pool.threads thread (some ⟨call, resume outcome.reply⟩),
              .did thread op outcome :: pool.trace⟩)
          | none => none
      | _ => none
  | .again thread =>
      match pool.threads thread with
      | some ⟨call, .ret result⟩ =>
          match system.again call result with
          | some next => some (.again thread next, ⟨pool.world,
              Function.update pool.threads thread (some ⟨next, system.program next⟩),
              .again thread next :: pool.trace⟩)
          | none => none
      | _ => none
  | .crash thread =>
      match pool.threads thread with
      | some ⟨_, .await _ _⟩ => some (.crash thread, ⟨pool.world,
          Function.update pool.threads thread none, .crash thread :: pool.trace⟩)
      | _ => none
  | .event event =>
      match system.event event pool.world with
      | some world => some (.event event, ⟨world, pool.threads, .event event :: pool.trace⟩)
      | none => none

theorem move_step {pool after : Pool Op Reply Exn World Call Result Event}
    {label : Label Op Reply Exn Call Event} {chosen : Move Call Event Fate}
    (moved : pool.move system chosen = some (label, after)) : Step system pool label after := by
  cases chosen with
  | start thread call =>
    simp only [move] at moved
    split at moved
    · rename_i free
      cases moved
      exact .start thread call (unused_sound free)
    · cases moved
  | run thread fate =>
    simp only [move] at moved
    split at moved
    · rename_i call op resume awaiting
      split at moved
      · rename_i outcome world performed
        cases moved
        exact .did thread call op resume fate outcome world awaiting performed
      · cases moved
    · cases moved
  | again thread =>
    simp only [move] at moved
    split at moved
    · rename_i call result ended
      split at moved
      · rename_i next loops
        cases moved
        exact .again thread call next result ended loops
      · cases moved
    · cases moved
  | crash thread =>
    simp only [move] at moved
    split at moved
    · rename_i call op resume held
      cases moved
      exact .crash thread ⟨_, held, trivial⟩
    · cases moved
  | event event =>
    simp only [move] at moved
    split at moved
    · rename_i world happened
      cases moved
      exact .event event world happened
    · cases moved

/-- Play a schedule whose every label passes the test. -/
def play (permits : Pool Op Reply Exn World Call Result Event →
    Label Op Reply Exn Call Event → Bool) :
    List (Move Call Event Fate) → Pool Op Reply Exn World Call Result Event →
    Option (Pool Op Reply Exn World Call Result Event)
  | [], pool => some pool
  | chosen :: rest, pool =>
      match pool.move system chosen with
      | some (label, after) => if permits pool label then after.play permits rest else none
      | none => none

theorem play_reachable
    {allows : Pool Op Reply Exn World Call Result Event → Label Op Reply Exn Call Event → Prop}
    {permits : Pool Op Reply Exn World Call Result Event → Label Op Reply Exn Call Event → Bool}
    {first : World}
    (sound : ∀ pool label, Reachable system allows first pool → permits pool label = true →
      allows pool label)
    (moves : List (Move Call Event Fate)) {pool after : Pool Op Reply Exn World Call Result Event}
    (reached : Reachable system allows first pool)
    (played : pool.play system permits moves = some after) :
    Reachable system allows first after := by
  induction moves generalizing pool with
  | nil =>
    cases played
    exact reached
  | cons chosen rest ih =>
    simp only [play] at played
    split at played
    · rename_i label middle moved
      split at played
      · rename_i passes
        exact ih (.step reached (sound pool label reached passes) (move_step system moved)) played
      · cases played
    · cases played

theorem play_path
    {allows : Pool Op Reply Exn World Call Result Event → Label Op Reply Exn Call Event → Prop}
    {permits : Pool Op Reply Exn World Call Result Event → Label Op Reply Exn Call Event → Bool}
    (sound : ∀ pool label, permits pool label = true → allows pool label)
    (moves : List (Move Call Event Fate))
    {start pool after : Pool Op Reply Exn World Call Result Event} {past}
    (walked : Path system allows start past pool)
    (played : pool.play system permits moves = some after) :
    ∃ past, Path system allows start past after := by
  induction moves generalizing pool past with
  | nil =>
    cases played
    exact ⟨past, walked⟩
  | cons chosen rest ih =>
    simp only [play] at played
    split at played
    · rename_i label middle moved
      split at played
      · rename_i passes
        exact ih (.step walked (sound pool label passes) (move_step system moved)) played
      · cases played
    · cases played

/-- One move is one step. -/
theorem play_step
    {permits : Pool Op Reply Exn World Call Result Event → Label Op Reply Exn Call Event → Bool}
    {chosen : Move Call Event Fate} {pool after : Pool Op Reply Exn World Call Result Event}
    (played : pool.play system permits [chosen] = some after) :
    ∃ label, permits pool label = true ∧ Step system pool label after := by
  simp only [play] at played
  split at played
  · rename_i label middle moved
    split at played
    · rename_i passes
      cases played
      exact ⟨label, passes, move_step system moved⟩
    · cases played
  · cases played

end Pool

end AsyncPool
