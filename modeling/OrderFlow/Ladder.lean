import Mathlib.Logic.Relation
import OrderFlow.World

/-!
The retry ladder of one event, as it is meant: attempts on consecutive numbers,
each of them ending in a retry, in the completed or in the failed order. This is
the purpose of the two consumers together; nothing here is translated from them.
-/
namespace OrderFlow

/-- The status an attempt leads its order to when `fulfil` ended so. -/
def Settings.aim (settings : Settings) (attempt : Nat) : Except Exn Unit → OrderStatus
  | .ok _ => .completed
  | .error (.transient _) => if (attempt : Int) < settings.maxAttempts then .pending else .failed
  | .error _ => .failed

/-- `fulfil` returned, or raised a TransientError or a PermanentError. -/
def Concludes : Except Exn Unit → Prop
  | .ok _ => True
  | .error (.transient _) => True
  | .error (.permanent _) => True
  | .error _ => False

/-- Where the attempt in progress stands. -/
inductive Rung where
  | waiting
  | begun
  | answered (result : Except Exn Unit)
  | rescheduled (result : Except Exn Unit)
  | owed (result : Except Exn Unit)
  | condemned (result : Except Exn Unit)
  | ended (result : Except Exn Unit)

namespace Rung

/-- How the attempt ended, once it has. -/
def results : Rung → List (Except Exn Unit)
  | .waiting | .begun => []
  | .answered result | .rescheduled result | .owed result | .condemned result
  | .ended result => [result]

/-- The status the attempt has to have led to by now. -/
def Due (aim : OrderStatus) : Rung → Prop
  | .waiting | .begun | .answered _ => True
  | .rescheduled _ | .owed _ => aim = .pending
  | .condemned _ => aim = .failed
  | .ended _ => aim ≠ .pending

/-- The hops the attempt has made. -/
def hops (aim : Except Exn Unit → OrderStatus) : Rung → List OrderStatus
  | .waiting => []
  | .begun | .answered _ => [.processing]
  | .rescheduled _ | .owed _ => [.processing, .pending]
  | .condemned _ => [.processing, .failed]
  | .ended result => [.processing, aim result]

/-- The topics the attempt has put a record of the event on. -/
def puts (settings : Settings) (aim : Except Exn Unit → OrderStatus) : Rung → List String
  | .owed _ => [settings.topicRetry]
  | .ended result => if aim result = .failed then [settings.topicDlq] else []
  | _ => []

end Rung

/-- The results of the attempts that were retried, and the attempt in progress. -/
structure Ladder where
  earlier : List (Except Exn Unit)
  rung : Rung

namespace Ladder
variable (settings : Settings) (first : Nat)

/-- The number of the attempt in progress. -/
def attempt (ladder : Ladder) : Nat := first + ladder.earlier.length

def aim (ladder : Ladder) (result : Except Exn Unit) : OrderStatus :=
  settings.aim (ladder.attempt first) result

/-- Every call of `fulfil`: its attempt and how it ended. -/
def tries (ladder : Ladder) : List (Nat × Except Exn Unit) :=
  (ladder.earlier ++ ladder.rung.results).mapIdx fun i result => (first + i, result)

def status (ladder : Ladder) : OrderStatus :=
  match ladder.rung with
  | .waiting | .rescheduled _ | .owed _ => .pending
  | .begun | .answered _ => .processing
  | .condemned _ => .failed
  | .ended result => ladder.aim settings first result

def trail (ladder : Ladder) : List OrderStatus :=
  .pending :: (List.replicate ladder.earlier.length [.processing, .pending]).flatten ++
    ladder.rung.hops (ladder.aim settings first)

/-- The topics of the records put out: a retry is sent and replayed. -/
def puts (ladder : Ladder) : List String :=
  (List.replicate ladder.earlier.length [settings.topicRetry, settings.topicOrders]).flatten ++
    ladder.rung.puts settings (ladder.aim settings first)

def start : Ladder := ⟨[], .waiting⟩

inductive Climbs : Ladder → Ladder → Prop
  | begins (earlier : List (Except Exn Unit)) : Climbs ⟨earlier, .waiting⟩ ⟨earlier, .begun⟩
  | answers (earlier : List (Except Exn Unit)) {result : Except Exn Unit}
      (concludes : Concludes result) : Climbs ⟨earlier, .begun⟩ ⟨earlier, .answered result⟩
  | reschedules (earlier : List (Except Exn Unit)) {result : Except Exn Unit}
      (again : settings.aim (first + earlier.length) result = .pending) :
      Climbs ⟨earlier, .answered result⟩ ⟨earlier, .rescheduled result⟩
  | owes (earlier : List (Except Exn Unit)) (result : Except Exn Unit) :
      Climbs ⟨earlier, .rescheduled result⟩ ⟨earlier, .owed result⟩
  | replays (earlier : List (Except Exn Unit)) (result : Except Exn Unit) :
      Climbs ⟨earlier, .owed result⟩ ⟨earlier ++ [result], .waiting⟩
  | completes (earlier : List (Except Exn Unit)) {result : Except Exn Unit}
      (done : settings.aim (first + earlier.length) result = .completed) :
      Climbs ⟨earlier, .answered result⟩ ⟨earlier, .ended result⟩
  | condemns (earlier : List (Except Exn Unit)) {result : Except Exn Unit}
      (last : settings.aim (first + earlier.length) result = .failed) :
      Climbs ⟨earlier, .answered result⟩ ⟨earlier, .condemned result⟩
  | buries (earlier : List (Except Exn Unit)) (result : Except Exn Unit) :
      Climbs ⟨earlier, .condemned result⟩ ⟨earlier, .ended result⟩

/-- The ladder can be climbed to here. -/
abbrev Climbed (ladder : Ladder) : Prop :=
  Relation.ReflTransGen (Climbs settings first) start ladder

/-- Every attempt but the last was retried, and the last led where it stands. -/
structure Sound (ladder : Ladder) : Prop where
  retried : ∀ i result, ladder.earlier[i]? = some result →
    Concludes result ∧ settings.aim (first + i) result = .pending
  last : ∀ result ∈ ladder.rung.results,
    Concludes result ∧ ladder.rung.Due (ladder.aim settings first result)

variable {settings : Settings} {first : Nat} {ladder later : Ladder}

theorem aim_pending {attempt : Nat} {result : Except Exn Unit}
    (again : settings.aim attempt result = .pending) :
    (∃ message, result = .error (.transient message)) ∧ (attempt : Int) < settings.maxAttempts := by
  unfold Settings.aim at again
  split at again
  · cases again
  · rename_i message
    split at again
    · rename_i below
      exact ⟨⟨message, rfl⟩, below⟩
    · cases again
  · cases again

theorem Sound.climbs (sound : Sound settings first ladder)
    (climbs : Climbs settings first ladder later) : Sound settings first later := by
  obtain ⟨retried, last⟩ := sound
  cases climbs with
  | begins earlier => exact ⟨retried, by simp [Rung.results]⟩
  | answers earlier concludes =>
    refine ⟨retried, ?_⟩
    simp only [Rung.results, List.mem_singleton, forall_eq]
    exact ⟨concludes, trivial⟩
  | replays earlier result =>
    simp only [Rung.results, List.mem_singleton, forall_eq] at last
    refine ⟨?_, by simp [Rung.results]⟩
    intro i other found
    rcases Nat.lt_or_ge i earlier.length with before | past
    · rw [List.getElem?_append_left before] at found
      exact retried i other found
    · rw [List.getElem?_append_right past] at found
      have here : i = earlier.length := by
        have bound := (List.getElem?_eq_some_iff.mp found).1
        simp only [List.length_singleton] at bound
        omega
      subst here
      simp only [Nat.sub_self, List.getElem?_cons_zero, Option.some.injEq] at found
      exact found ▸ last
  | buries earlier result =>
    refine ⟨retried, ?_⟩
    simp only [Rung.results, List.mem_singleton, forall_eq] at last ⊢
    refine ⟨last.1, fun pending => ?_⟩
    have failed : settings.aim (first + earlier.length) result = .failed := last.2
    rw [aim, attempt, failed] at pending
    cases pending
  | reschedules earlier due | condemns earlier due =>
    refine ⟨retried, ?_⟩
    simp only [Rung.results, List.mem_singleton, forall_eq] at last ⊢
    exact ⟨last.1, due⟩
  | completes earlier done =>
    refine ⟨retried, ?_⟩
    simp only [Rung.results, List.mem_singleton, forall_eq] at last ⊢
    refine ⟨last.1, fun pending => ?_⟩
    rw [aim, attempt, done] at pending
    cases pending
  | owes earlier result =>
    refine ⟨retried, ?_⟩
    simp only [Rung.results, List.mem_singleton, forall_eq] at last ⊢
    exact last

theorem sound (climbed : Climbed settings first ladder) : Sound settings first ladder := by
  induction climbed with
  | refl =>
    constructor
    · intro i result found
      cases found
    · intro result member
      cases member
  | tail _ climbs ih => exact ih.climbs climbs

/-! ### What a ladder comes to -/

/-- The attempts that were retried were below the last one. -/
theorem Sound.retries_bounded (sound : Sound settings first ladder) :
    (ladder.earlier.length : Int) ≤ max 0 (settings.maxAttempts - first) := by
  rcases Nat.eq_zero_or_pos ladder.earlier.length with none | some
  · omega
  · have inside : ladder.earlier.length - 1 < ladder.earlier.length := by omega
    have below := (aim_pending (sound.retried _ _ (List.getElem?_eq_getElem inside)).2).2
    omega

/-- A ladder puts out two records for each retry, and one letter at most. -/
theorem Sound.puts_bounded (sound : Sound settings first ladder) :
    ((ladder.puts settings first).length : Int) ≤
      2 * max 0 (settings.maxAttempts - first) + 1 := by
  have bounded := sound.retries_bounded
  have single : (ladder.rung.puts settings (ladder.aim settings first)).length ≤ 1 := by
    unfold Rung.puts
    split
    · simp
    · split <;> simp
    · simp
  have total : (ladder.puts settings first).length =
      ladder.earlier.length * 2 + (ladder.rung.puts settings (ladder.aim settings first)).length := by
    simp [puts]
  omega

/-- How a ladder that is over stands there. -/
structure Ends (settings : Settings) (first : Nat) (earlier : List (Except Exn Unit))
    (last : Except Exn Unit) : Prop where
  bounded : (earlier.length : Int) ≤ max 0 (settings.maxAttempts - first)
  retried : ∀ i result, earlier[i]? = some result →
    (∃ message, result = .error (.transient message)) ∧
      (first + i : Nat) < settings.maxAttempts
  stops : last = .ok () ∨ (∃ message, last = .error (.permanent message)) ∨
    (∃ message, last = .error (.transient message)) ∧
      settings.maxAttempts ≤ (first + earlier.length : Nat)

theorem Sound.ends {earlier : List (Except Exn Unit)} {last : Except Exn Unit}
    (sound : Sound settings first ⟨earlier, .ended last⟩) : Ends settings first earlier last := by
  obtain ⟨concludes, ended⟩ := sound.last last (List.mem_singleton_self _)
  refine ⟨sound.retries_bounded, ?_, ?_⟩
  · intro i result found
    exact aim_pending (sound.retried i result found).2
  · cases last with
    | ok done => exact .inl rfl
    | error error =>
      cases error with
      | permanent message => exact .inr (.inl ⟨message, rfl⟩)
      | transient message =>
        refine .inr (.inr ⟨⟨message, rfl⟩, ?_⟩)
        by_contra below
        rw [Int.not_le] at below
        have again : settings.aim (first + earlier.length) (.error (.transient message)) =
            .pending := by
          simp only [Settings.aim]
          rw [if_pos below]
        exact ended again
      | _ => exact concludes.elim

end Ladder
end OrderFlow
