import OrderFlow.Python

/-!
Rounding to milliseconds, half to even, keeps the order of the values it rounds.
-/
namespace OrderFlow

def roundHalfEven (scaled : ℚ) : Int :=
  let low := ⌊scaled⌋
  let part := scaled - low
  if part < 1 / 2 then low else if 1 / 2 < part then low + 1
    else if low % 2 = 0 then low else low + 1

theorem round3_eq (value : ℚ) : round3 value = roundHalfEven (value * 1000) / 1000 := by
  simp only [round3, roundHalfEven]

theorem roundHalfEven_bounds (scaled : ℚ) :
    ⌊scaled⌋ ≤ roundHalfEven scaled ∧ roundHalfEven scaled ≤ ⌊scaled⌋ + 1 := by
  simp only [roundHalfEven]
  split_ifs <;> omega

theorem roundHalfEven_mono {low high : ℚ} (le : low ≤ high) :
    roundHalfEven low ≤ roundHalfEven high := by
  by_cases same : ⌊low⌋ = ⌊high⌋
  · have parts : low - ⌊low⌋ ≤ high - ⌊low⌋ := by linarith
    simp only [roundHalfEven, ← same]
    split_ifs
    all_goals first
      | omega
      | exfalso; linarith
  · have floors : ⌊low⌋ ≤ ⌊high⌋ := Int.floor_le_floor le
    have below := (roundHalfEven_bounds low).2
    have above := (roundHalfEven_bounds high).1
    omega

theorem roundHalfEven_int (n : Int) : roundHalfEven n = n := by
  simp [roundHalfEven]

theorem round3_mono {low high : ℚ} (le : low ≤ high) : round3 low ≤ round3 high := by
  have rounded : roundHalfEven (low * 1000) ≤ roundHalfEven (high * 1000) := by
    apply roundHalfEven_mono
    linarith
  have cast : (roundHalfEven (low * 1000) : ℚ) ≤ roundHalfEven (high * 1000) := by
    exact_mod_cast rounded
  rw [round3_eq, round3_eq]
  linarith

theorem round3_nonneg {value : ℚ} (nonneg : 0 ≤ value) : 0 ≤ round3 value := by
  have zero : round3 0 = 0 := by
    have exact0 := roundHalfEven_int 0
    simp only [Int.cast_zero] at exact0
    simp [round3_eq, exact0]
  rw [← zero]
  exact round3_mono nonneg

end OrderFlow
