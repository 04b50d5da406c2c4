import OrderFlow.Kafka.Codec
import OrderFlow.Sample

/-!
The retry headers round trip: a consumer reads what `build` wrote, over any
number of hops through the retry topic.
-/
namespace OrderFlow.Headers

/-- The headers `RetryScheduler` publishes a record with. -/
def replayed (platform : Platform) (headers : Headers) : Headers :=
  build platform headers.getAttempt none (headers.getError.map py) none ""

theorem replayed_built (deployment : Deployment) (headers : Headers) :
    buildHeaders deployment headers.getAttempt none (headers.getError.map py) none =
      .ret (replayed deployment.platform headers) := rfl

/-- What the accessors read from the headers. -/
structure Decodes (platform : Platform) (headers : Headers) (attempt : Nat) (notBefore : PyFloat)
    (error originTopic : Option String) : Prop where
  attempt : headers.getAttempt = attempt
  notBefore : headers.getNotBefore platform = notBefore
  error : headers.getError = error
  originTopic : headers.getOriginTopic = originTopic

variable {platform : Platform} {attempt : Nat} {notBefore : Option PyFloat} {error : Option PyStr}
  {originTopic : Option String} {failedAt : String}

theorem getAttempt_replayed (headers : Headers) :
    (replayed platform headers).getAttempt = headers.getAttempt :=
  getAttempt_rebuild ..

/-- An error that was cut before is read back as it is. -/
theorem getError_replayed {headers : Headers}
    (cut : headers.getError = error.map fun text => replaced (text.take 500)) :
    (replayed platform headers).getError = headers.getError := by
  unfold replayed
  rw [getError_build, cut]
  cases error with
  | none => rfl
  | some text => exact congrArg some (replaced_again text)

/-- A hop changes neither the attempt nor the error, so no number of hops does. -/
theorem hops_keep (platform : Platform) (hops : Nat) {headers : Headers}
    (cut : headers.getError = error.map fun text => replaced (text.take 500)) :
    ((replayed platform)^[hops] headers).getAttempt = headers.getAttempt ∧
      ((replayed platform)^[hops] headers).getError = headers.getError := by
  induction hops with
  | zero => exact ⟨rfl, rfl⟩
  | succ hops ih =>
    obtain ⟨attempt, same⟩ := ih
    rw [Function.iterate_succ_apply']
    constructor
    · rw [getAttempt_replayed]
      exact attempt
    · rw [getError_replayed (same.trans cut)]
      exact same

theorem codec_round_trip (positive : 1 ≤ attempt) (short : attempt < 10 ^ 4300)
    (empty : platform.floatOf "" = none)
    (reads : ∀ time, notBefore = some time →
      platform.floatOf (platform.reprFloat time) = some time) :
    Decodes platform (build platform attempt notBefore error originTopic failedAt) attempt
      (notBefore.getD (.num 0)) (error.map fun text => replaced (text.take 500)) originTopic ∧
    (∀ hops, Decodes platform
      ((replayed platform)^[hops + 1] (build platform attempt notBefore error originTopic failedAt))
      attempt (.num 0) (error.map fun text => replaced (text.take 500)) none) ∧
    ∀ headers : Headers, 1 ≤ headers.getAttempt := by
  have cut := getError_build platform attempt notBefore error originTopic failedAt
  have written := getAttempt_build platform attempt notBefore error originTopic failedAt
    positive short
  refine ⟨⟨written, ?_, cut, ?_⟩, fun hops => ?_, one_le_getAttempt⟩
  · exact getNotBefore_build _ _ _ _ _ _ empty reads
  · exact getOriginTopic_build ..
  · obtain ⟨attempts, errors⟩ := hops_keep platform (hops + 1) cut
    refine ⟨attempts.trans written, ?_, errors.trans cut, ?_⟩
    · rw [Function.iterate_succ_apply']
      exact getNotBefore_build _ _ _ _ _ _ empty (by rintro _ ⟨⟩)
    · rw [Function.iterate_succ_apply']
      exact getOriginTopic_build ..

/-- A retry of the third attempt, due at 5 s, over three hops. -/
theorem codec_round_trip_retry : ∃ headers : Headers,
    headers = build Sample.platform 3 (some (.num 5)) (some (py "boom")) (some "orders.created") "" ∧
      headers.getNotBefore Sample.platform = .num 5 ∧
      ((replayed Sample.platform)^[3] headers).getAttempt = 3 ∧
      ((replayed Sample.platform)^[3] headers).getError = some "boom" := by
  have short : ∀ digits, 1 ≤ digits → 3 < 10 ^ digits := fun digits some =>
    lt_of_lt_of_le (by decide : 3 < 10 ^ 1) (Nat.pow_le_pow_right (by decide) some)
  have reads : ∀ time, some (PyFloat.num 5) = some time →
      Sample.platform.floatOf (Sample.platform.reprFloat time) = some time := by
    intro time same
    cases same
    decide +kernel
  have trip := @codec_round_trip Sample.platform 3 (some (.num 5)) (some (py "boom"))
    (some "orders.created") "" (by decide) (short _ (by decide)) (by decide +kernel) reads
  obtain ⟨built, hops, _⟩ := trip
  exact ⟨_, rfl, built.notBefore, (hops 2).attempt, (hops 2).error.trans (by decide +kernel)⟩

end OrderFlow.Headers
