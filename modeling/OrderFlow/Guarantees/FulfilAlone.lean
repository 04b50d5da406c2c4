import OrderFlow.Guarantees.AuditTrail
import OrderFlow.Runs.Tally
import OrderFlow.Runs.Underway

/-!
`fulfil` is the work that must not be done twice at once. Where the guard keeps
deliveries apart it is called for an order in PROCESSING, by the one call that is
deciding its fate, and never again once the order has its verdict.
-/
namespace OrderFlow
open AsyncCoroutine AsyncPool

variable {deployment : Deployment} {pool after start : Pipeline} {thread : Nat}
  {event : OrderEvent} {outcome : Outcome Exn Unit} {past : List (Pipeline × Moment)}

/-- How things stand when a call of `handle` on the record calls `fulfil` for the event. -/
structure FulfilsAlone (deployment : Deployment) (pool : Pipeline) (thread : Nat)
    (event : OrderEvent) (record : ConsumerRecord) : Prop where
  entered : Entered pool.trace thread record
  value : record.value = deployment.platform.modelDump event
  row : ∃ row, pool.world.orders event.orderId = some row ∧ row.status = .processing ∧
    row.attempts = record.headers.getAttempt ∧ row.failureReason = none
  guard : ∃ id, Drew pool.trace thread id ∧
    pool.world.redis (.eventGuard event.eventId) = some id.hex
  alone : ∀ other, other ≠ thread → ¬ (stage deployment pool other).Decides event.orderId

/-- Of the calls on an order one at most is deciding. -/
theorem decides_alone (reached : Reachable (system deployment) (GuardedRuns deployment) World.empty pool)
    {other : Nat} {id : Uuid} (decides : (stage deployment pool thread).Decides id)
    (also : (stage deployment pool other).Decides id) : thread = other := by
  obtain ⟨delivery, token, phase, standing, deciding, named⟩ := decides
  obtain ⟨second, mine, stands, standingToo, decidingToo, namedToo⟩ := also
  obtain ⟨_, publisher, published⟩ := delivery_event thread delivery guardedRuns_closed reached
    (by rw [standing]; rfl) (by rw [standing]; rfl)
  obtain ⟨_, publisher', published'⟩ := delivery_event other second guardedRuns_closed reached
    (by rw [standingToo]; rfl) (by rw [standingToo]; rfl)
  have same : delivery.event = second.event :=
    one_event reached published published' (.inl (named.trans namedToo.symm))
  refine guard_exclusive guardedRuns_outlive reached standing (deciding_guarded deciding)
    standingToo (deciding_guarded decidingToo) ?_
  rw [Delivery.guard, Delivery.guard, same]

/-- `fulfil` is called by a delivery that has moved its order to PROCESSING. -/
theorem fulfil_standing (reached : Reachable (system deployment) (GuardedRuns deployment) World.empty pool)
    (moved : Step (system deployment) pool (.did thread (.fulfil event) outcome) after) :
    ∃ (delivery : Delivery deployment) (token : String) (reason : Option PyStr),
      stage deployment pool thread = .holding delivery token (.moved .processing reason) ∧
        event = delivery.event := by
  rcases step_cases reached moved with ⟨actor, op, heard, same, act⟩ | ⟨actor, turn⟩ | ⟨_, same, _⟩
  · cases same
    exact fulfilling act.permitted
  · exact (turn.not_did _ _ _ rfl).elim
  · cases same

/-- The row stands as the delivery moved it. -/
theorem processing_row (reached : Reachable (system deployment) (GuardedRuns deployment) World.empty pool)
    {delivery : Delivery deployment} {token : String} {reason : Option PyStr}
    (standing : stage deployment pool thread = .holding delivery token (.moved .processing reason)) :
    ∃ row, pool.world.orders delivery.event.orderId = some row ∧ row.status = .processing ∧
      row.attempts = delivery.record.headers.getAttempt ∧ row.failureReason = none := by
  obtain ⟨⟨row, found, status, attempts, reasoned⟩, unexplained⟩ :=
    underway guardedRuns_closed guardedRuns_outlive reached thread delivery token _ standing
  exact ⟨row, found, status, attempts, reasoned.trans (unexplained rfl)⟩

/-- Whenever `fulfil` is called, the order is in PROCESSING with the attempt of the record
    the caller is on, the guard is the caller's, and nobody else is deciding the order. -/
theorem fulfil_alone (reached : Reachable (system deployment) (GuardedRuns deployment) World.empty pool)
    (moved : Step (system deployment) pool (.did thread (.fulfil event) outcome) after) :
    ∃ record, FulfilsAlone deployment pool thread event record := by
  obtain ⟨delivery, token, reason, standing, rfl⟩ := fulfil_standing reached moved
  have inCall : (stage deployment pool thread).record = some delivery.record := by
    rw [standing]
    rfl
  have consumes : (stage deployment pool thread).consumer = some .processor := by
    rw [standing]
    rfl
  obtain ⟨value, _⟩ := delivery_event thread delivery guardedRuns_closed reached inCall consumes
  obtain ⟨id, drew, rfl⟩ := token_drawn reached thread delivery token (by rw [standing]; rfl)
  refine ⟨delivery.record, entered reached thread delivery.record inCall consumes, value,
    processing_row reached standing, ⟨id, drew, ?_⟩, ?_⟩
  · exact guarded guardedRuns_outlive reached thread delivery id.hex _ standing rfl
  · intro other differ decides
    exact differ (decides_alone reached decides ⟨delivery, id.hex, _, standing, rfl, rfl⟩)

/-! ### After the verdict -/

/-- Once an order has its verdict, its row and trail stay as they are for good, and `fulfil`
    is never called for it again. -/
theorem finished_order_rests
    (reached : Reachable (system deployment) (GuardedRuns deployment) World.empty start)
    (path : Path (system deployment) (GuardedRuns deployment) start past pool) {id : Uuid}
    {row : OrderRow} (found : start.world.orders id = some row)
    (terminal : row.status.terminal = true) :
    pool.world.orders id = some row ∧ pool.world.transitions id = start.world.transitions id ∧
      ∀ before thread event outcome,
        (before, Label.did thread (.fulfil event) outcome) ∈ past → event.orderId ≠ id := by
  induction path with
  | here =>
    refine ⟨found, rfl, ?_⟩
    intro before thread event outcome member
    cases member
  | @step past pool label after walked permitted moved ih =>
    obtain ⟨stands, trail, never⟩ := ih
    have ran := walked.reachable reached
    obtain ⟨later, unchanged⟩ := finished_step ran moved stands terminal
    refine ⟨later, unchanged.trans trail, ?_⟩
    intro before thread event outcome member
    rcases List.mem_cons.mp member with same | earlier
    · cases same
      rintro rfl
      obtain ⟨delivery, token, reason, standing, rfl⟩ := fulfil_standing ran moved
      obtain ⟨worked, foundToo, processing, _⟩ := processing_row ran standing
      rw [stands] at foundToo
      cases foundToo
      rw [processing] at terminal
      cases terminal
    · exact never before thread event outcome earlier

namespace Sample

/-- A worker has called `fulfil`, and failed the order. -/
def workedOn : Moves :=
  submit 0 (some .permanent) 1 2 ++ consume {} 1 .processor ++ runs 1 2 ++ [.run 1 (draw 3)] ++
    runs 1 6 ++ [.run 1 (result (.error (.permanent poisoned)))] ++ runs 1 4

def callsFulfil : Moment → Bool
  | .did _ (.fulfil called) _ => decide (called = Sample.event (some .permanent) 1 2)
  | _ => false

theorem fulfil_called : ∃ (pool after : Pipeline) (thread : Nat) (outcome : Outcome Exn Unit),
    Reachable (system shop) (GuardedRuns shop) World.empty pool ∧
      Step (system shop) pool (.did thread (.fulfil (Sample.event (some .permanent) 1 2)) outcome)
        after := by
  obtain ⟨pool, reached, facts⟩ := play_shows {} fulfils [Sample.event (some .permanent) 1 2]
    workedOn faultless_guarded (fun pool => pool.trace.any callsFulfil) (by decide +kernel)
  obtain ⟨label, member, calls⟩ := List.any_eq_true.mp facts
  obtain ⟨later, past, split⟩ := List.append_of_mem member
  obtain ⟨before, taken, reachedBefore, _, _, moved⟩ := taken_of_trace reached split
  cases label with
  | did thread op outcome =>
    cases op with
    | fulfil called =>
      obtain rfl : called = Sample.event (some .permanent) 1 2 := of_decide_eq_true calls
      exact ⟨before, taken, thread, outcome, reachedBefore, moved⟩
    | _ => cases calls
  | _ => cases calls

end Sample

theorem fulfil_alone_run : ∃ (pool : Pipeline) (thread : Nat) (record : ConsumerRecord),
    FulfilsAlone Sample.shop pool thread (Sample.event (some .permanent) 1 2) record := by
  obtain ⟨pool, after, thread, outcome, reached, moved⟩ := Sample.fulfil_called
  exact ⟨pool, thread, fulfil_alone reached moved⟩

/-- The order has failed when another worker takes its record again. -/
theorem finished_order_rests_run : ∃ (pool : Pipeline) (past : List (Pipeline × Moment))
    (row : OrderRow), row.status = .failed ∧ past ≠ [] ∧ pool.world.orders ⟨1⟩ = some row ∧
      ∀ before thread event outcome,
        (before, Label.did thread (.fulfil event) outcome) ∈ past → event.orderId ≠ ⟨1⟩ := by
  obtain ⟨start, past, pool, reached, path, facts⟩ := Sample.play_walks {} Sample.fulfils
    [Sample.event (some .permanent) 1 2] Sample.workedOn
    (Sample.consume {} 2 .processor ++ Sample.runs 2 2 ++ [.run 2 (Sample.draw 4)] ++
      Sample.runs 2 2 ++ Sample.runs 1 7)
    Sample.faultless_guarded Sample.faultless_guarded (fun start pool =>
      Sample.status start 1 = some .failed && start.trace.length < pool.trace.length)
    (by decide +kernel)
  simp only [Bool.and_eq_true, decide_eq_true_eq, Sample.status, Option.map_eq_some_iff] at facts
  obtain ⟨⟨row, found, failed⟩, longer⟩ := facts
  obtain ⟨stands, _, never⟩ := finished_order_rests reached path found (by rw [failed]; rfl)
  refine ⟨pool, past, row, failed, ?_, stands, never⟩
  rintro rfl
  cases path
  omega

end OrderFlow
