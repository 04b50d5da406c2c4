import OrderFlow.Runs.Outcomes
import OrderFlow.Sample

/-!
Failed orders and their dead letters. The FAILED row is committed first and the
dead letter published after; a fault between the two loses the letter, because
the next delivery stops at the terminal check.
-/
namespace OrderFlow
open AsyncCoroutine AsyncPool

variable {deployment : Deployment} {allows : Pipeline → Moment → Prop} {pool after : Pipeline}
  {thread : Nat} {op : Op} {outcome : Outcome Exn op.Reply}

/-- A call of the order consumer's `handle` on a record with this event is running. -/
def HandlingEvent (deployment : Deployment) (pool : Pipeline) (event : OrderEvent) : Prop :=
  ∃ thread record, (stage deployment pool thread).consumer = some .processor ∧
    (stage deployment pool thread).record = some record ∧
    record.value = deployment.platform.modelDump event

/-- Events come from submissions only, and no fault strikes a call between its
    FAILED commit taking effect and its dead letter: no crash, no send that
    raises without effect, no commit that raises although it took effect. -/
def LettersUndisturbed (deployment : Deployment) (pool : Pipeline) (label : Moment) : Prop :=
  (∀ tp record, label ≠ .event (.produce tp record)) ∧
  ∀ thread delivery token, (∀ reason,
      stage deployment pool thread = .holding delivery token (.moved .failed reason) →
      label ≠ .crash thread ∧ ∀ topic key value headers error,
        label ≠ .did thread (.send topic key value headers) (.lost error)) ∧
    ∀ reason row, stage deployment pool thread = .holding delivery token (.read .failed reason row) →
      ∀ writes error, label ≠ .did thread (.commit writes) (.late error)

/-- Some delivery has committed the order's FAILED row and still owes the letter. -/
def Owed (deployment : Deployment) (pool : Pipeline) (event : OrderEvent) : Prop :=
  ∃ thread delivery token reason, delivery.event = event ∧
    stage deployment pool thread = .holding delivery token (.moved .failed reason)

/-- A delivery that owes the letter goes on owing it until it is published. -/
theorem owed_step {delivery : Delivery deployment} {token : String} {reason : Option PyStr}
    (permitted : LettersUndisturbed deployment pool (.did thread op outcome))
    (act : Acts deployment pool after thread op outcome)
    (before : stage deployment pool thread = .holding delivery token (.moved .failed reason))
    (dumped : delivery.record.value = deployment.platform.modelDump delivery.event) :
    stage deployment after thread = .holding delivery token (.moved .failed reason) ∨
      DeadLettered deployment after (deployment.platform.modelDump delivery.event) := by
  obtain ⟨fate, performed⟩ := act.performed
  have allowed := act.permitted
  have own := act.own
  rw [before] at allowed own
  cases op with
  | set key value ttl =>
    cases key with
    | order orderId => exact .inl own
    | _ => exact allowed.elim
  | utcnow =>
    obtain ⟨oracle, reply, answered, same⟩ := perform_local performed rfl
    simp only [answer, Option.some.injEq, Prod.mk.injEq] at answered
    obtain ⟨rfl, _⟩ := answered
    subst same
    exact .inl own
  | send topic key value headers =>
    rcases perform_send performed with ⟨error, rfl, _⟩ | ⟨_, partition, _, world⟩
    · exact (((permitted.2 thread delivery token).1 reason before).2 _ _ _ _ error rfl).elim
    · refine .inr ?_
      have letter := letter_published allowed world
      rwa [dumped, wrapRaw_dump] at letter
  | _ => exact allowed.elim

theorem Owed.stays {label : Moment} {event : OrderEvent}
    (reached : Reachable (system deployment) (LettersUndisturbed deployment) World.empty pool)
    (permitted : LettersUndisturbed deployment pool label)
    (moved : Step (system deployment) pool label after) (owed : Owed deployment pool event) :
    Owed deployment after event ∨
      DeadLettered deployment after (deployment.platform.modelDump event) := by
  have closed : Closed (LettersUndisturbed deployment) := fun pool tp record permitted =>
    permitted.1 tp record rfl
  obtain ⟨thread, delivery, token, reason, rfl, before⟩ := owed
  have kept : stage deployment after thread = stage deployment pool thread →
      Owed deployment after delivery.event :=
    fun same => ⟨thread, delivery, token, reason, rfl, same.trans before⟩
  rcases step_cases reached moved with ⟨actor, op, outcome, rfl, act⟩ | ⟨actor, turn⟩ |
    ⟨event, rfl, happening⟩
  · by_cases same : thread = actor
    · subst same
      have dumped := (delivery_event thread delivery closed reached (by rw [before]; rfl)
        (by rw [before]; rfl)).1
      rcases owed_step permitted act before dumped with still | letter
      · exact .inl ⟨thread, delivery, token, reason, rfl, still⟩
      · exact .inr letter
    · exact .inl (kept (act.others thread same))
  · by_cases same : thread = actor
    · subst same
      rcases turn.own with ⟨_, _, _, outside, _⟩ | ⟨_, _, outside, _⟩ | ⟨rfl, _⟩
      · rw [before] at outside
        cases outside
      · rw [before] at outside
        cases outside
      · exact (((permitted.2 thread delivery token).1 reason before).1 rfl).elim
    · exact .inl (kept (turn.others thread same))
  · exact .inl (kept (happening.stages thread))

/-- The letter of a failed order is on the DLQ, or its delivery still owes it. -/
def Lettered (deployment : Deployment) (pool : Pipeline) (id : Uuid) : Prop :=
  ∃ publisher event, PublishedBy deployment pool.trace publisher event ∧ event.orderId = id ∧
    (Owed deployment pool event ∨
      DeadLettered deployment pool (deployment.platform.modelDump event))

/-- The commit that makes an order FAILED leaves its delivery owing the letter. -/
theorem condemned {delivery : Delivery deployment} {token : String} {aim : OrderStatus}
    {reason : Option PyStr} {read : OrderRow} {note : PyStr} {hop : Nat}
    (permitted : LettersUndisturbed deployment pool (.did thread op outcome))
    (act : Acts deployment pool after thread op outcome)
    (before : stage deployment pool thread = .holding delivery token (.read aim reason read))
    (commits : op = .commit (Repository.transitionWrites read
      (Repository.transitionRow read aim delivery.attempt reason) (some note) hop))
    (aims : aim = .failed) :
    after.world = pool.world ∨
      stage deployment after thread = .holding delivery token (.moved .failed reason) := by
  subst aims
  obtain ⟨fate, performed⟩ := act.performed
  have own := act.own
  rw [before] at own
  subst commits
  rcases perform_commit performed with ⟨_, _, same⟩ | ⟨rfl | ⟨error, rfl⟩, _⟩
  · exact .inl same
  · exact .inr own
  · exact ((permitted.2 thread delivery token).2 reason read before _ error rfl).elim

theorem failed_lettered
    (reached : Reachable (system deployment) (LettersUndisturbed deployment) World.empty pool) :
    ∀ id row, pool.world.orders id = some row → row.status = .failed →
      Lettered deployment pool id := by
  have closed : Closed (LettersUndisturbed deployment) := fun pool tp record permitted =>
    permitted.1 tp record rfl
  induction reached with
  | init => rintro id row ⟨⟩
  | @step pool label after reached permitted moved ih =>
    intro id row found failed
    have before : ∀ earlier, pool.world.orders id = some earlier → earlier.status = .failed →
        Lettered deployment after id := by
      intro earlier stood condemned
      obtain ⟨publisher, event, published, same, owed | letter⟩ := ih id earlier stood condemned
      · exact ⟨publisher, event, published.kept moved, same, owed.stays reached permitted moved⟩
      · exact ⟨publisher, event, published.kept moved, same, .inr (letter.stays moved)⟩
    rcases step_orders reached moved with same | ⟨thread, op, outcome, rfl, act, change⟩
    · exact before row (same ▸ found) failed
    · cases change with
      | same orders => exact before row (orders ▸ found) failed
      | inserted payload key new _ _ orders _ =>
        by_cases same : id = new
        · rw [orders, same, Function.update_self] at found
          cases found
          cases failed
        · rw [orders, Function.update_of_ne same] at found
          exact before row found failed
      | updated delivery token aim reason read note hop commits reading _ orders =>
        by_cases same : id = read.id
        · have now := found
          rw [orders, same, Function.update_self, Option.map_eq_some_iff] at found
          obtain ⟨earlier, stood, rfl⟩ := found
          by_cases already : earlier.status = .failed
          · exact before earlier (same ▸ stood) already
          · have aims : aim = .failed := by
              by_contra other
              by_cases kept : aim = read.status <;>
                simp [OrderChanges.apply, Repository.changesOf, Repository.transitionRow, kept] at failed
              · exact already failed
              · exact other failed
            rcases condemned permitted act reading commits aims with nothing | owes
            · rw [nothing] at now
              exact before _ now failed
            · obtain ⟨_, publisher, published⟩ := delivery_event thread delivery closed reached
                (by rw [reading]; rfl) (by rw [reading]; rfl)
              have named := (sighted reached thread delivery token _ reading).named aim reason read
                rfl
              exact ⟨publisher, delivery.event, published.kept moved, by rw [same, named],
                .inl ⟨thread, delivery, token, reason, rfl, owes⟩⟩
        · rw [orders, Function.update_of_ne same] at found
          exact before row found failed

/-- A failed order is not committed past without its dead letter. -/
theorem failed_order_dead_lettered (id : Uuid) (row : OrderRow)
    (reached : Reachable (system deployment) (LettersUndisturbed deployment) World.empty pool)
    (found : pool.world.orders id = some row) (failed : row.status = .failed) :
    ∃ publisher event, PublishedBy deployment pool.trace publisher event ∧ event.orderId = id ∧
      (HandlingEvent deployment pool event ∨ Waiting deployment pool .processor event ∨
        DeadLettered deployment pool (deployment.platform.modelDump event)) := by
  have closed : Closed (LettersUndisturbed deployment) := fun pool tp record permitted =>
    permitted.1 tp record rfl
  obtain ⟨publisher, event, published, same, owed | letter⟩ := failed_lettered reached id row found failed
  · obtain ⟨thread, delivery, token, reason, rfl, standing⟩ := owed
    have dumped := (delivery_event thread delivery closed reached (by rw [standing]; rfl)
      (by rw [standing]; rfl)).1
    exact ⟨publisher, delivery.event, published, same, .inl ⟨thread, delivery.record,
      by rw [standing]; rfl, by rw [standing]; rfl, dumped⟩⟩
  · exact ⟨publisher, event, published, same, .inr (.inr letter)⟩

namespace Sample

/-- A permanent failure, dead-lettered without a fault. -/
def lettered : Moves :=
  submit 0 (some .permanent) 1 2 ++ consume {} 1 .processor ++ runs 1 2 ++ [.run 1 (draw 3)] ++
    runs 1 6 ++ [.run 1 (result (.error (.permanent poisoned)))] ++ runs 1 7

theorem faultless_undisturbed (pool : Pipeline) (label : Moment) (passes : faultless label = true) :
    LettersUndisturbed shop pool label := by
  refine ⟨?_, fun thread delivery token => ⟨fun reason _ => ⟨?_, ?_⟩, fun reason row _ => ?_⟩⟩
  · rintro tp record rfl
    cases passes
  · rintro rfl
    cases passes
  · rintro topic key value headers error rfl
    cases passes
  · rintro writes error rfl
    cases passes

end Sample

theorem failed_order_dead_lettered_run : ∃ pool publisher event,
    PublishedBy Sample.shop pool.trace publisher event ∧ event.orderId = ⟨1⟩ ∧
      (HandlingEvent Sample.shop pool event ∨ Waiting Sample.shop pool .processor event ∨
        DeadLettered Sample.shop pool (Sample.shop.platform.modelDump event)) := by
  obtain ⟨pool, reached, facts⟩ := Sample.play_shows {} Sample.fulfils
    [Sample.event (some .permanent) 1 2] Sample.lettered Sample.faultless_undisturbed
    (fun pool => (pool.world.orders ⟨1⟩).map (·.status) = some .failed) (by decide +kernel)
  simp only [decide_eq_true_eq, Option.map_eq_some_iff] at facts
  obtain ⟨row, found, failed⟩ := facts
  exact ⟨pool, failed_order_dead_lettered ⟨1⟩ row reached found failed⟩

/-! ### A letter that is lost -/

namespace Sample

/-- The dead letter's send raises after the FAILED row is committed, and the next
    delivery stops at the terminal check. -/
def letterLost : Moves :=
  submit 0 (some .permanent) 1 2 ++ consume {} 1 .processor ++ runs 1 2 ++ [.run 1 (draw 3)] ++
    runs 1 6 ++ [.run 1 (result (.error (.permanent poisoned)))] ++ runs 1 6 ++ [.run 1 .lost] ++
    runs 1 2 ++ [.run 1 (.normal { time := 1 })] ++ runs 1 1 ++ [.again 1] ++ runs 1 1 ++
    [.run 1 (take "orders.created" 0 1)] ++ runs 1 3 ++ [.run 1 (draw 4)] ++ runs 1 8

/-- The order is failed, no call is running, and nothing is left to deliver. -/
def failedAndBare (pool : Pipeline) : Bool :=
  (pool.world.orders ⟨1⟩).map (·.status) = some .failed && starts pool.trace = [1, 0] &&
    produced pool.trace = [] && [1, 0].all (fun thread => (stage shop pool thread).consumer = none) &&
    [0, 1, 2].all (fun partition => (pool.world.logs ⟨"orders.created", partition⟩).length ≤
      pool.world.committed "order-processors" ⟨"orders.created", partition⟩) &&
    (pool.world.logs ⟨"orders.dlq", 0⟩).length = 0

end Sample

theorem failed_order_loses_letter : ∃ pool row,
    Reachable (system Sample.shop) Sample.SubmittedOnly World.empty pool ∧
      pool.world.orders ⟨1⟩ = some row ∧ row.status = .failed ∧ ∀ event,
        ¬ (HandlingEvent Sample.shop pool event ∨ Waiting Sample.shop pool .processor event ∨
          DeadLettered Sample.shop pool (Sample.shop.platform.modelDump event)) := by
  obtain ⟨pool, reached, facts⟩ := Sample.play_shows {} Sample.fulfils
    [Sample.event (some .permanent) 1 2] Sample.letterLost Sample.submittedOnly_sound
    Sample.failedAndBare (by decide +kernel)
  simp only [Sample.failedAndBare, Bool.and_eq_true, decide_eq_true_eq, List.all_eq_true,
    Option.map_eq_some_iff] at facts
  obtain ⟨⟨⟨⟨⟨⟨row, found, failed⟩, threads⟩, inside⟩, idle⟩, below⟩, empty⟩ := facts
  refine ⟨pool, row, reached, found, failed, fun event => ?_⟩
  rintro (⟨thread, record, handling, _⟩ | waiting | letter)
  · have none : (stage Sample.shop pool thread).consumer = none :=
      Sample.every_thread (P := fun stage => stage.consumer = none) reached rfl
        (by rw [threads]; exact idle) thread
    rw [none] at handling
    cases handling
  · have none : ¬ Waiting Sample.shop pool .processor event :=
      Sample.not_waiting reached inside fun partition (home : partition < 3) =>
        below partition (by simp only [List.mem_cons, List.not_mem_nil]; omega)
    exact none waiting
  · have none : ¬ DeadLettered Sample.shop pool (Sample.shop.platform.modelDump event) :=
      Sample.not_lettered reached (by rw [inside]; simp) empty
    exact none letter

end OrderFlow
