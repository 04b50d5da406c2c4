import OrderFlow.Decimal
import OrderFlow.Kafka.Headers

/-!
What the accessors read from headers that `build` wrote.
-/
namespace OrderFlow

/-- `text.encode("utf-8", "replace").decode("utf-8", "replace")`. -/
def replaced (text : PyStr) : String :=
  String.ofList (text.map fun c => if c.surrogate then '?' else Char.ofNat c.val)

@[simp] theorem decodeReplace_encode (text : String) : decodeReplace text.toByteArray = text := by
  have decoded : String.fromUTF8? text.toByteArray = some text := decode_encode text
  unfold decodeReplace
  rw [decoded]

@[simp] theorem decodeReplace_encodeReplace (text : PyStr) :
    decodeReplace (encodeReplace text) = replaced text :=
  decodeReplace_encode _

theorem charOf_code {c : CodePoint} (whole : c.surrogate = false) :
    CodePoint.ofChar (Char.ofNat c.val) = c := by
  have below := c.isLt
  have valid : c.val.isValidChar := by
    simp only [CodePoint.surrogate, Bool.and_eq_false_iff, decide_eq_false_iff_not] at whole
    unfold Nat.isValidChar
    omega
  have same : (Char.ofNat c.val).toNat = c.val := by
    rw [Char.ofNat, dif_pos valid]
    rfl
  cases c
  simp only [CodePoint.ofChar, same]

theorem surrogate_ofChar (c : Char) : (CodePoint.ofChar c).surrogate = false := by
  have valid : c.toNat.isValidChar := c.valid
  unfold Nat.isValidChar at valid
  rw [Bool.eq_false_iff]
  intro surrogate
  simp only [CodePoint.surrogate, CodePoint.ofChar, Bool.and_eq_true] at surrogate
  have low := of_decide_eq_true surrogate.1
  have high := of_decide_eq_true surrogate.2
  omega

/-- Replacing loses nothing exactly when there was no lone surrogate. -/
theorem py_replaced (text : PyStr) :
    py (replaced text) = text ↔ ∀ c ∈ text, c.surrogate = false := by
  unfold py replaced
  rw [String.toList_ofList, List.map_map]
  constructor
  · intro same c member
    rw [← same] at member
    obtain ⟨original, _, rfl⟩ := List.mem_map.mp member
    exact surrogate_ofChar _
  · intro whole
    have each : ∀ c ∈ text, CodePoint.ofChar (if c.surrogate then '?' else Char.ofNat c.val) = c := by
      intro c member
      simp only [whole c member, Bool.false_eq_true, ↓reduceIte]
      exact charOf_code (whole c member)
    exact (List.map_congr_left each).trans (List.map_id text)

/-- A text that was decoded has nothing to replace. -/
theorem replaced_py (text : String) : replaced (py text) = text := by
  have each : ∀ c : Char, (if (CodePoint.ofChar c).surrogate then '?'
      else Char.ofNat (CodePoint.ofChar c).val) = c := by
    intro c
    rw [surrogate_ofChar]
    exact Char.ofNat_toNat c
  unfold replaced py
  rw [List.map_map]
  have same := List.map_congr_left (l := text.toList) fun c _ => each c
  rw [List.map_id'] at same
  exact (congrArg String.ofList same).trans (String.ofList_toList)

/-- A text that was cut and replaced once is left as it is. -/
theorem replaced_again (text : PyStr) :
    replaced ((py (replaced (text.take 500))).take 500) = replaced (text.take 500) := by
  have short : (py (replaced (text.take 500))).length ≤ 500 := by
    simp only [py, replaced, String.toList_ofList, List.length_map, List.length_take]
    omega
  rw [List.take_of_length_le short, replaced_py]

namespace Headers
variable (platform : Platform) (attempt : Nat) (notBefore : Option PyFloat) (error : Option PyStr)
  (originTopic : Option String) (failedAt : String)

theorem get_attempt_build :
    (build platform attempt notBefore error originTopic failedAt).get attemptName =
      some (toString attempt) := by
  cases notBefore <;> cases error <;> cases originTopic <;>
    simp [build, get, toDict, attemptName, notBeforeName, errorName, originTopicName, failedAtName]

theorem get_notBefore_build :
    (build platform attempt notBefore error originTopic failedAt).get notBeforeName =
      notBefore.map platform.reprFloat := by
  cases notBefore <;> cases error <;> cases originTopic <;>
    simp [build, get, toDict, attemptName, notBeforeName, errorName, originTopicName, failedAtName]

theorem getError_build :
    (build platform attempt notBefore error originTopic failedAt).getError =
      error.map fun text => replaced (text.take 500) := by
  cases notBefore <;> cases error <;> cases originTopic <;>
    simp [build, getError, get, toDict, attemptName, notBeforeName, errorName, originTopicName,
      failedAtName]

theorem getOriginTopic_build :
    (build platform attempt notBefore error originTopic failedAt).getOriginTopic = originTopic := by
  cases notBefore <;> cases error <;> cases originTopic <;>
    simp [build, getOriginTopic, get, toDict, attemptName, notBeforeName, errorName,
      originTopicName, failedAtName]

/-- The attempt survives as long as it has at most 4300 digits. -/
theorem getAttempt_build (positive : 1 ≤ attempt) (short : attempt < 10 ^ 4300) :
    (build platform attempt notBefore error originTopic failedAt).getAttempt = attempt := by
  unfold getAttempt
  rw [get_attempt_build]
  have nonempty : toString attempt ≠ "" := by
    obtain ⟨digits, text, some, _⟩ := decimal_digits attempt
    rw [Nat.toString_eq_ofList_toDigits, text]
    simpa using some
  simp only [if_neg nonempty, pyInt_toString, if_pos short]
  omega

/-- A longer attempt is read as the first one. -/
theorem getAttempt_build_cases (positive : 1 ≤ attempt) :
    (build platform attempt notBefore error originTopic failedAt).getAttempt = attempt ∨
      (build platform attempt notBefore error originTopic failedAt).getAttempt = 1 := by
  by_cases short : attempt < 10 ^ 4300
  · exact .inl (getAttempt_build _ _ _ _ _ _ positive short)
  · right
    unfold getAttempt
    rw [get_attempt_build]
    simp only [pyInt_toString, if_neg short]
    split <;> rfl

/-- The time survives as far as floats do when they are printed and read. -/
theorem getNotBefore_build (empty : platform.floatOf "" = none)
    (reads : ∀ time, notBefore = some time →
      platform.floatOf (platform.reprFloat time) = some time) :
    (build platform attempt notBefore error originTopic failedAt).getNotBefore platform =
      notBefore.getD (.num 0) := by
  unfold getNotBefore
  rw [get_notBefore_build]
  cases notBefore with
  | none => rfl
  | some time =>
    have same := reads time rfl
    have printed : platform.reprFloat time ≠ "" := by
      intro blank
      rw [blank, empty] at same
      cases same
    simp only [Option.map_some, if_neg printed, same, Option.getD_some]

theorem getAttempt_lt (headers : Headers) : headers.getAttempt < 10 ^ 4300 := by
  have one : ∀ limit : Nat, limit ≠ 0 → 1 < 10 ^ limit := fun limit positive =>
    Nat.one_lt_pow positive (by decide)
  unfold getAttempt
  split
  · exact one _ (by decide)
  · split
    · exact one _ (by decide)
    · split
      · rename_i n read
        have below := pyInt_lt read
        rcases Int.le_total 1 n with large | small
        · rw [Int.max_eq_right large]
          exact below
        · rw [Int.max_eq_left small]
          exact one _ (by decide)
      · exact one _ (by decide)

/-- What an accessor read survives being written and read again. -/
theorem getAttempt_rebuild (headers : Headers) :
    (build platform headers.getAttempt notBefore error originTopic failedAt).getAttempt =
      headers.getAttempt :=
  getAttempt_build _ _ _ _ _ _ headers.one_le_getAttempt headers.getAttempt_lt

end Headers
end OrderFlow
