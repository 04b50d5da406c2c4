import Mathlib.Order.Bounds.Basic
import OrderFlow.Async.Alone
import OrderFlow.Rounding
import OrderFlow.Sample

/-!
`backoff_delay` stays within its cap and grows with the attempt, when the float
product does not overflow and half the base delay is within the cap.
-/
namespace OrderFlow
open AsyncCoroutine AsyncPool

variable {deployment : Deployment} {attempt : Nat}

/-- `backoff_delay(attempt)` called in some state, with any draw `uniform` may give. -/
def BacksOff (deployment : Deployment) (attempt : Nat) (world : World) (result : Except Exn ℚ)
    (after : World) : Prop :=
  Alone (perform deployment 0) (fun _ _ => True)
    (Processing.backoffDelay deployment.settings attempt) world result after

/-- The delays `backoff_delay(attempt)` can return. -/
def delays (deployment : Deployment) (attempt : Nat) : Set ℚ :=
  fun delay => ∃ world after, BacksOff deployment attempt world (.ok delay) after

/-- The exact value the longest draw of this attempt has. -/
def longest (settings : Settings) (attempt : Nat) : ℚ :=
  max (settings.retryBaseDelaySeconds / 2)
    (min settings.retryMaxDelaySeconds (settings.retryBaseDelaySeconds * 2 ^ (attempt - 1)))

/-- The cap is rounded as the delay is. The last part is about `_fail`'s
    `not_before`, read by the scheduler at any later time. -/
structure BackoffWithinCap (deployment : Deployment) (attempt : Nat) : Prop where
  returns : ∀ world, ∃ result after, BacksOff deployment attempt world result after
  bounded : ∀ world result after, BacksOff deployment attempt world result after →
    ∃ delay, result = .ok delay ∧ 0 ≤ delay ∧ delay ≤ round3 deployment.settings.retryMaxDelaySeconds
  grows : ∀ earlier, 1 ≤ earlier → earlier ≤ attempt → ∃ low high,
    IsGreatest (delays deployment earlier) low ∧ IsGreatest (delays deployment attempt) high ∧
      low ≤ high
  due : ∀ delay ∈ delays deployment attempt, ∀ now later, now ≤ later →
    now + delay - later ≤ round3 deployment.settings.retryMaxDelaySeconds

theorem backsOff_overflows (large : 1024 < attempt) {world after : World}
    {result : Except Exn ℚ} : BacksOff deployment attempt world result after ↔
      result = .error .overflow ∧ after = world := by
  unfold BacksOff Processing.backoffDelay
  rw [Processing.scaledDelay_overflows _ large]
  constructor
  · intro run
    cases run
    exact ⟨rfl, rfl⟩
  · intro same
    obtain ⟨rfl, rfl⟩ := same
    exact .raise ..

/-- The draw lies between half the base and the ceiling, whichever is larger. -/
theorem backsOff_draws (fits : attempt ≤ 1024) (positive : 1 ≤ attempt) {world after : World}
    {result : Except Exn ℚ} : BacksOff deployment attempt world result after ↔
      ∃ draw, result = .ok (round3 draw) ∧ after = world ∧
        min (deployment.settings.retryBaseDelaySeconds / 2)
          (min deployment.settings.retryMaxDelaySeconds
            (deployment.settings.retryBaseDelaySeconds * 2 ^ (attempt - 1))) ≤ draw ∧
        draw ≤ longest deployment.settings attempt := by
  unfold BacksOff Processing.backoffDelay
  rw [Processing.scaledDelay_fits _ fits positive]
  constructor
  · intro run
    cases run with
    | await performed permitted rest =>
      obtain ⟨oracle, reply, answered, same⟩ := perform_local performed rfl
      simp only [answer] at answered
      split at answered
      · rename_i between
        cases answered
        subst same
        cases rest
        exact ⟨oracle.draw, rfl, rfl, between⟩
      · cases answered
  · intro drawn
    obtain ⟨draw, rfl, rfl, between⟩ := drawn
    have performed : perform deployment 0 (.uniform (deployment.settings.retryBaseDelaySeconds / 2)
        (min deployment.settings.retryMaxDelaySeconds
          (deployment.settings.retryBaseDelaySeconds * 2 ^ (attempt - 1)))) after
        (.normal { draw }) = some (.ok draw, after) := by
      unfold longest at between
      simp only [perform, answer]
      rw [if_pos between]
    exact .await performed trivial (.ret ..)

theorem delays_greatest (fits : attempt ≤ 1024) (positive : 1 ≤ attempt) :
    IsGreatest (delays deployment attempt) (round3 (longest deployment.settings attempt)) := by
  constructor
  · refine ⟨.empty, .empty, (backsOff_draws fits positive).mpr ⟨_, rfl, rfl, ?_, le_refl _⟩⟩
    exact (min_le_left _ _).trans (le_max_left _ _)
  · intro delay possible
    obtain ⟨world, after, run⟩ := possible
    obtain ⟨draw, same, _, _, above⟩ := (backsOff_draws fits positive).mp run
    cases same
    exact round3_mono above

theorem longest_mono (base : 0 ≤ deployment.settings.retryBaseDelaySeconds) {earlier : Nat}
    (le : earlier ≤ attempt) :
    longest deployment.settings earlier ≤ longest deployment.settings attempt := by
  have power : (2 : ℚ) ^ (earlier - 1) ≤ 2 ^ (attempt - 1) := by
    apply pow_le_pow_right₀
    · norm_num
    · omega
  have scaled := mul_le_mul_of_nonneg_left power base
  exact max_le_max (le_refl _) (min_le_min (le_refl _) scaled)

/-- The longest draw is within the cap exactly when half the base delay is. -/
theorem longest_within (settings : Settings) (attempt : Nat) :
    round3 (longest settings attempt) ≤ round3 settings.retryMaxDelaySeconds ↔
      round3 (settings.retryBaseDelaySeconds / 2) ≤ round3 settings.retryMaxDelaySeconds := by
  constructor
  · intro within
    exact (round3_mono (le_max_left _ _)).trans within
  · intro half
    unfold longest
    rcases le_total (settings.retryBaseDelaySeconds / 2)
      (min settings.retryMaxDelaySeconds
        (settings.retryBaseDelaySeconds * 2 ^ (attempt - 1))) with below | above
    · rw [max_eq_right below]
      exact round3_mono (min_le_left _ _)
    · rw [max_eq_left above]
      exact half

theorem overflow_not_within (large : 1024 < attempt) : ¬ BackoffWithinCap deployment attempt := by
  intro within
  obtain ⟨delay, same, _⟩ :=
    within.bounded .empty _ _ ((backsOff_overflows large).mpr ⟨rfl, rfl⟩)
  cases same

theorem wide_not_within (fits : attempt ≤ 1024) (positive : 1 ≤ attempt)
    (wide : round3 deployment.settings.retryMaxDelaySeconds <
      round3 (deployment.settings.retryBaseDelaySeconds / 2)) :
    ¬ BackoffWithinCap deployment attempt := by
  intro within
  obtain ⟨world, after, run⟩ := (delays_greatest fits positive).1
  obtain ⟨delay, same, _, below⟩ := within.bounded world _ after run
  cases same
  have half := (longest_within _ _).mp below
  linarith

theorem backoff_within_cap (base : 0 < deployment.settings.retryBaseDelaySeconds)
    (cap : 0 < deployment.settings.retryMaxDelaySeconds) (positive : 1 ≤ attempt) :
    BackoffWithinCap deployment attempt ↔
      attempt ≤ 1024 ∧ round3 (deployment.settings.retryBaseDelaySeconds / 2) ≤
        round3 deployment.settings.retryMaxDelaySeconds := by
  constructor
  · intro within
    by_cases fits : attempt ≤ 1024
    · refine ⟨fits, ?_⟩
      by_contra wide
      exact wide_not_within fits positive (not_le.mp wide) within
    · exact (overflow_not_within (not_le.mp fits) within).elim
  · intro conditions
    obtain ⟨fits, half⟩ := conditions
    have greatest : IsGreatest (delays deployment attempt) _ := delays_greatest fits positive
    have below : ∀ delay ∈ delays deployment attempt,
        delay ≤ round3 deployment.settings.retryMaxDelaySeconds := by
      intro delay possible
      exact (greatest.2 possible).trans ((longest_within _ _).mpr half)
    constructor
    · intro world
      refine ⟨_, _, (backsOff_draws fits positive).mpr ⟨_, rfl, rfl, ?_, le_refl _⟩⟩
      exact (min_le_left _ _).trans (le_max_left _ _)
    · intro world result after run
      obtain ⟨draw, same, _, above, _⟩ := (backsOff_draws fits positive).mp run
      subst same
      refine ⟨round3 draw, rfl, ?_, below _ ⟨world, after, run⟩⟩
      apply round3_nonneg
      refine le_trans (le_min ?_ (le_min cap.le ?_)) above
      · linarith
      · positivity
    · intro earlier first le
      have least : IsGreatest (delays deployment earlier) _ :=
        delays_greatest (le.trans fits) first
      refine ⟨_, _, least, greatest, ?_⟩
      exact round3_mono (longest_mono base.le le)
    · intro delay possible now later le
      have := below delay possible
      linarith

theorem backoff_within_cap_third : BackoffWithinCap Sample.shop 3 := by
  have base : 0 < Sample.shop.settings.retryBaseDelaySeconds := by decide +kernel
  have cap : 0 < Sample.shop.settings.retryMaxDelaySeconds := by decide +kernel
  refine (backoff_within_cap base cap (by omega)).mpr ⟨by omega, ?_⟩
  apply round3_mono
  decide +kernel

namespace Sample

def patient : Settings := { maxAttempts := 2000 }

def impatient : Settings := { retryBaseDelaySeconds := 10, retryMaxDelaySeconds := 1 }

end Sample

/-- The 1025th attempt of 2000 overflows; with a base of 10 s and a cap of 1 s a
    first delay of 5 s can be drawn. -/
theorem backoff_beyond_cap : ¬ BackoffWithinCap (Sample.deployment Sample.patient Sample.fulfils) 1025 ∧
    ¬ BackoffWithinCap (Sample.deployment Sample.impatient Sample.fulfils) 1 := by
  constructor
  · apply overflow_not_within
    omega
  · apply wide_not_within
    · omega
    · omega
    · decide +kernel

end OrderFlow
