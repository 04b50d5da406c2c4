import OrderFlow.Guarantees.AuditTrail
import OrderFlow.Runs.Entries
import OrderFlow.Runs.Verdicts

/-!
Verdicts are earned. However calls fail, overlap, crash and are repeated, what the
table says of an order was said by a call of `fulfil` for it; where events come from
submissions only, the data of the order alone decide which verdict it can be.
-/
namespace OrderFlow
open AsyncCoroutine AsyncPool

variable {deployment : Deployment} {allows : Pipeline → Moment → Prop} {pool after : Pipeline}
  {thread : Nat}

/-- In any run at all, every column of a row and every verdict in its trail has its origin. -/
theorem verdicts_earned (reached : Reachable (system deployment) allows World.empty pool)
    {id : Uuid} {row : OrderRow} (found : pool.world.orders id = some row) :
    Earned deployment pool.trace row ∧
      ∀ hop ∈ pool.world.transitions id, HopEarned deployment pool.trace id hop :=
  ⟨rows_earned reached id row found, hops_earned reached id⟩

/-! ### The data decide -/

/-- What the work demands of an order. -/
structure OrderRow.Fulfillable (row : OrderRow) : Prop where
  quantity : 0 < row.quantity
  amount : 0 ≤ row.amountCents ∧ row.amountCents ≤ Processing.maxOrderValueCents
  sku : Processing.hasUnknownSku row.sku = false
  failMode : row.failMode = none

/-- The event has the data of this row. -/
structure OrderEvent.Tells (event : OrderEvent) (row : OrderRow) : Prop where
  sku : event.sku = row.sku
  quantity : event.quantity = row.quantity
  amountCents : event.amountCents = row.amountCents
  failMode : event.failMode = row.failMode

theorem validate_ok (isPrintable : Char → Bool) (event : OrderEvent) :
    Processing.validate isPrintable event = .ok () ↔ 0 < event.quantity ∧
      (0 ≤ event.amountCents ∧ event.amountCents ≤ Processing.maxOrderValueCents) ∧
      Processing.hasUnknownSku event.sku = false ∧ event.failMode ≠ some .permanent := by
  unfold Processing.validate
  by_cases positive : event.quantity ≤ 0
  · simp [positive]
  · by_cases negative : event.amountCents < 0
    · simp [positive, negative]
    · by_cases above : event.amountCents > Processing.maxOrderValueCents
      · simp [positive, negative, above]
      · cases known : Processing.hasUnknownSku event.sku with
        | true => simp [positive, negative, above]
        | false =>
          by_cases mode : event.failMode = some .permanent
          · simp [positive, negative, above, mode]
          · simp only [positive, negative, above, mode, ↓reduceIte]
            refine ⟨fun _ => ⟨by omega, ⟨by omega, by omega⟩, trivial, mode⟩, fun _ => rfl⟩

theorem fulfil_ok (isPrintable : Char → Bool) {event : OrderEvent} {row : OrderRow}
    (tells : event.Tells row) : Processing.fulfil isPrintable event = .ok () ↔ row.Fulfillable := by
  obtain ⟨sku, quantity, amountCents, failMode⟩ := tells
  have valid := validate_ok isPrintable event
  rw [sku, quantity, amountCents, failMode] at valid
  unfold Processing.fulfil
  rw [failMode]
  constructor
  · intro returned
    cases validated : Processing.validate isPrintable event with
    | error error =>
      rw [validated] at returned
      cases returned
    | ok done =>
      obtain ⟨positive, bounded, known, calm⟩ := valid.mp validated
      simp only [validated] at returned
      refine ⟨positive, bounded, known, ?_⟩
      cases mode : row.failMode with
      | none => rfl
      | some kind =>
        cases kind with
        | transient => simp [mode] at returned
        | permanent => exact absurd mode calm
  · rintro ⟨positive, bounded, known, mode⟩
    rw [valid.mpr ⟨positive, bounded, known, by simp [mode]⟩]
    simp [mode]

/-- `fulfil` looks at nothing but the order's data. -/
theorem fulfil_same (isPrintable : Char → Bool) {first second : OrderEvent} {row : OrderRow}
    (tells : first.Tells row) (also : second.Tells row) :
    Processing.fulfil isPrintable first = Processing.fulfil isPrintable second := by
  simp only [Processing.fulfil, Processing.validate, tells.sku, tells.quantity, tells.amountCents,
    tells.failMode, also.sku, also.quantity, also.amountCents, also.failMode]

/-- The calls of `fulfil` in the trace ended as they may. -/
theorem fulfilled_may (reached : Reachable (system deployment) allows World.empty pool)
    {record : ConsumerRecord} {event : OrderEvent} {result : Except Exn Unit}
    (fulfilled : Fulfilled pool.trace record event result) :
    deployment.mayFulfil event result = true := by
  obtain ⟨thread, later, past, outcome, split, rfl, _⟩ := fulfilled
  obtain ⟨before, taken, reached, _, _, moved⟩ := taken_of_trace reached split
  rcases step_cases reached moved with ⟨actor, op, heard, same, act⟩ | ⟨actor, turn⟩ | ⟨_, same, _⟩
  · cases same
    obtain ⟨fate, performed⟩ := act.performed
    obtain ⟨oracle, reply, answers, ended⟩ := perform_local performed rfl
    simp only [answer, Option.ite_none_right_eq_some, Option.some.injEq, Prod.mk.injEq] at answers
    obtain ⟨may, rfl, _⟩ := answers
    rw [ended]
    cases result : oracle.result <;> rw [result] at may <;> exact may
  · exact (turn.not_did _ _ _ rfl).elim
  · cases same

/-- A call of `handle` in the trace was made with a record of its consumer's topic. -/
theorem entered_handed (reached : Reachable (system deployment) allows World.empty pool)
    {record : ConsumerRecord} {past : List Moment} (later : List Moment) (split : pool.trace = later ++ past)
    (entered : Entered past thread record) :
    ∃ before, Reachable (system deployment) allows World.empty before ∧
      before.trace <:+ pool.trace ∧ Handed deployment before .processor record := by
  obtain ⟨since, earlier, outcome, rfl, _⟩ := entered
  rw [← List.append_assoc] at split
  obtain ⟨before, taken, reachedBefore, rfl, _, moved⟩ := taken_of_trace reached split
  rcases step_cases reachedBefore moved with ⟨actor, op, heard, same, act⟩ | ⟨actor, turn⟩ |
    ⟨_, same, _⟩
  · cases same
    obtain ⟨consumer, named, handed⟩ := handed_over reachedBefore act.looped
    obtain rfl := name_injective named
    exact ⟨before, reachedBefore, ⟨later ++ since ++ [.did thread (.handleCall Consumer.processor.name record) outcome],
      by rw [split]; simp⟩, handed⟩
  · exact (turn.not_did _ _ _ rfl).elim
  · cases same

/-- Where only submissions publish, `fulfil` is called with the data of the order's row. -/
theorem fulfilled_tells (closed : Closed allows)
    (reached : Reachable (system deployment) allows World.empty pool) {record : ConsumerRecord}
    {event : OrderEvent} {result : Except Exn Unit} {row : OrderRow}
    (fulfilled : Fulfilled pool.trace record event result)
    (about : About deployment record event row.id)
    (found : pool.world.orders row.id = some row) : event.Tells row := by
  obtain ⟨thread, later, past, outcome, split, _, entered⟩ := fulfilled
  obtain ⟨before, reachedBefore, earlier, handed⟩ :=
    entered_handed reached (later ++ [.did thread (.fulfil event) outcome]) (by rw [split]; simp) entered
  obtain ⟨publisher, sent, published, value⟩ := handed_event closed reachedBefore handed (by rintro ⟨⟩)
  obtain ⟨valid, named⟩ := about
  rw [value, deployment.platform.modelValidate_dump] at valid
  cases valid
  obtain ⟨payload, key, eventId, instant, ordered, same⟩ := published_ordered reachedBefore published
  obtain ⟨hop, heard, inserted, took⟩ := ordered.enters
  obtain ⟨stands, foundToo, keeps⟩ :=
    entered_kept reached ⟨hop, heard, earlier.subset inserted, took⟩
  rw [named, found] at foundToo
  cases foundToo
  rw [same]
  exact ⟨keeps.sku.symm, keeps.quantity.symm, keeps.amountCents.symm, keeps.failMode.symm⟩

/-- A finished order has the verdict its data call for, and a failure is the one they cause. -/
structure Determined (deployment : Deployment) (row : OrderRow) : Prop where
  completed : row.status = .completed → row.Fulfillable
  failed : row.status = .failed → ¬ row.Fulfillable
  reason : ∀ message, row.failureReason = some message → ∀ event : OrderEvent, event.Tells row →
    explanation (Processing.fulfil deployment.platform.isPrintable event) = some message

section
variable (closed : Closed allows)
  (fulfils : ∀ event result, deployment.mayFulfil event result = true →
    result = Processing.fulfil deployment.platform.isPrintable event)
include closed fulfils

/-- What a call of `fulfil` for the order led to is what its data call for. -/
theorem Reached.fulfillable (ran : Reachable (system deployment) allows World.empty pool)
    {row : OrderRow} (found : pool.world.orders row.id = some row) {status : OrderStatus}
    (reached : Reached deployment pool.trace row.id status) :
    (status = .completed → row.Fulfillable) ∧ (status = .failed → ¬ row.Fulfillable) := by
  obtain ⟨attempt, result, ⟨record, event, fulfilled, about, _⟩, concludes, rfl⟩ := reached
  have tells := fulfilled_tells closed ran fulfilled about found
  have same := fulfils event result (fulfilled_may ran fulfilled)
  rw [← fulfil_ok deployment.platform.isPrintable tells, ← same]
  cases result with
  | ok done => exact ⟨fun _ => rfl, by rintro ⟨⟩⟩
  | error error =>
    refine ⟨?_, by rintro _ ⟨⟩⟩
    cases error with
    | transient message =>
      simp only [Settings.aim]
      split <;> rintro ⟨⟩
    | _ => rintro ⟨⟩

/-- Where only submissions publish and `fulfil` is the repository's, no fault, expiry or
    overlap gives an order another verdict, or another reason, than its data do; its trail
    never has both verdicts. -/
theorem verdict_determined (reached : Reachable (system deployment) allows World.empty pool)
    {id : Uuid} {row : OrderRow} (found : pool.world.orders id = some row) :
    Determined deployment row ∧ ∀ hop ∈ pool.world.transitions id,
      (hop.toStatus = .completed → row.Fulfillable) ∧ (hop.toStatus = .failed → ¬ row.Fulfillable) := by
  obtain rfl := row_named reached id row found
  have earned := rows_earned reached row.id row found
  have hops := hops_earned reached row.id
  refine ⟨⟨?_, ?_, ?_⟩, fun hop member => ⟨?_, ?_⟩⟩
  · intro same
    have leads := earned.status (by rw [same]; rfl)
    exact (leads.fulfillable closed fulfils reached found).1 same
  · intro same
    have leads := earned.status (by rw [same]; rfl)
    exact (leads.fulfillable closed fulfils reached found).2 same
  · intro message explained event tells
    obtain ⟨attempt, result, ⟨record, read, fulfilled, about, _⟩, explains⟩ :=
      earned.reason message explained
    have also := fulfilled_tells closed reached fulfilled about found
    rw [← explains, fulfils read result (fulfilled_may reached fulfilled),
      fulfil_same deployment.platform.isPrintable tells also]
  · intro same
    have leads := hops hop member (by rw [same]; rfl)
    exact (leads.fulfillable closed fulfils reached found).1 same
  · intro same
    have leads := hops hop member (by rw [same]; rfl)
    exact (leads.fulfillable closed fulfils reached found).2 same

end

/-! ### One call explains a row -/

/-- The row is as it was entered, or one call of `handle` wrote all of it. -/
def Explained (deployment : Deployment) (trace : List Moment) (row : OrderRow) : Prop :=
  row.status = .pending ∧ row.attempts = 0 ∧ row.failureReason = none ∨
    Attempted deployment trace row.id row.attempts ∧
      Led deployment trace row.id row.attempts row.status row.failureReason

theorem Explained.later {trace : List Moment} {row : OrderRow}
    (explained : Explained deployment trace row) (label : Moment) :
    Explained deployment (label :: trace) row := by
  rcases explained with entered | ⟨⟨thread, record, event, outcome, member, about⟩, led⟩
  · exact .inl entered
  · exact .inr ⟨⟨thread, record, event, outcome, List.mem_cons_of_mem _ member, about⟩,
      led.later label⟩

/-- Where the guard keeps deliveries apart, the columns of a row belong together. -/
theorem row_explained (reached : Reachable (system deployment) (GuardedRuns deployment) World.empty pool)
    {id : Uuid} {row : OrderRow} (found : pool.world.orders id = some row) :
    Explained deployment pool.trace row := by
  have closed : Closed (GuardedRuns deployment) := fun pool tp record permitted =>
    permitted.1 tp record rfl
  have outlive : ∀ pool label, GuardedRuns deployment pool label →
      GuardsOutlive deployment pool label := fun pool label permitted => permitted.2
  induction reached generalizing row with
  | init => cases found
  | @step pool label after reached permitted moved ih =>
    rw [step_trace moved]
    apply Explained.later
    rcases step_versions reached moved with ⟨orders, _⟩ | ⟨thread, op, outcome, rfl, act, change⟩
    · exact ih (orders ▸ found)
    · cases change with
      | same orders _ => exact ih (orders ▸ found)
      | inserted payload key new hop _ _ world _ =>
        rw [world, newRow_orders] at found
        by_cases same : id = new
        · rw [same, Function.update_self] at found
          cases found
          exact .inl ⟨rfl, rfl, rfl⟩
        · rw [Function.update_of_ne same] at found
          exact ih found
      | updated delivery token aim reason read note hop commits standing world _ =>
        subst commits
        rw [world, transition_orders] at found
        by_cases same : id = read.id
        · obtain ⟨current, reads, _⟩ := working closed outlive reached thread delivery token _ standing
          obtain ⟨order, rfl, stands, _⟩ := current.version reads (copy_permitted reached moved)
          rw [same, Function.update_self, stands.row, Option.map_some, changes_apply] at found
          cases found
          obtain ⟨_, attempted, led⟩ := reading_led reached standing
          exact .inr ⟨attempted, led⟩
        · rw [Function.update_of_ne same] at found
          exact ih found

namespace Sample

/-- A worker crashes before `fulfil`; once the guard has expired another takes the record
    and fails the order. -/
def failedOver : Moves :=
  submit 0 (some .permanent) 1 2 ++ consume {} 1 .processor ++ runs 1 2 ++ [.run 1 (draw 3)] ++
    runs 1 5 ++ [.crash 1, .event (.expire (.eventGuard (Uuid.str ⟨2⟩)))] ++
    consume {} 2 .processor ++ runs 2 2 ++ [.run 2 (draw 4)] ++ runs 2 6 ++
    [.run 2 (result (.error (.permanent poisoned)))] ++ runs 2 4

theorem failed_over : ∃ (pool : Pipeline) (row : OrderRow),
    Reachable (system shop) (GuardedRuns shop) World.empty pool ∧
      pool.world.orders ⟨1⟩ = some row ∧ row.status = .failed ∧
      row.failureReason = some poisoned := by
  obtain ⟨pool, reached, facts⟩ := play_checks {} fulfils [event (some .permanent) 1 2]
    failedOver (fun pool label reached => guardedly_sound pool label reached)
    (fun pool => (pool.world.orders ⟨1⟩).any fun row => row.status = .failed &&
      row.failureReason = some poisoned) (by decide +kernel)
  obtain ⟨row, found, shows⟩ := (Option.any_eq_true _ _).mp facts
  simp only [Bool.and_eq_true, decide_eq_true_eq] at shows
  exact ⟨pool, row, reached, found, shows.1, shows.2⟩

end Sample

theorem verdicts_earned_run : ∃ (pool : Pipeline) (row : OrderRow), row.status = .failed ∧
    Earned Sample.shop pool.trace row ∧
    ∀ hop ∈ pool.world.transitions ⟨1⟩, HopEarned Sample.shop pool.trace ⟨1⟩ hop := by
  obtain ⟨pool, row, reached, found, failed, _⟩ := Sample.failed_over
  exact ⟨pool, row, failed, verdicts_earned reached found⟩

theorem verdict_determined_run : ∃ row : OrderRow, row.status = .failed ∧
    Determined Sample.shop row := by
  obtain ⟨pool, row, reached, found, failed, _⟩ := Sample.failed_over
  exact ⟨row, failed, (verdict_determined (fun pool tp record permitted => permitted.1 tp record rfl)
    (fun _ _ => Sample.fulfils_sound) reached found).1⟩

theorem row_explained_run : ∃ (pool : Pipeline) (row : OrderRow),
    row.failureReason = some Sample.poisoned ∧ Explained Sample.shop pool.trace row := by
  obtain ⟨pool, row, reached, found, _, reason⟩ := Sample.failed_over
  exact ⟨pool, row, reason, row_explained reached found⟩

end OrderFlow
