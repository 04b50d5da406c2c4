import OrderFlow.Runs.Ascent
import OrderFlow.Runs.Verdicts
import OrderFlow.Runs.Working

/-!
Deliveries that have written. Where the guard keeps deliveries apart, the row of an
order is what the delivery at work on it last wrote, from its commit until it gives
the guard up.
-/
namespace OrderFlow
open AsyncCoroutine AsyncPool

variable {deployment : Deployment} {allows : Pipeline → Moment → Prop} {pool after : Pipeline}
  {thread : Nat} {op : Op} {outcome : Outcome Exn op.Reply} {delivery : Delivery deployment}
  {token : String} {aim : OrderStatus} {reason : Option PyStr}

/-- The row of the order has what this delivery writes for the aim. -/
def Written (pool : Pipeline) (delivery : Delivery deployment) (aim : OrderStatus)
    (reason : Option PyStr) : Prop :=
  ∃ row, pool.world.orders delivery.event.orderId = some row ∧ row.status = aim ∧
    row.attempts = delivery.attempt ∧ row.failureReason = reason

/-- What a delivery that has moved its order on left in the table. -/
def Underway (pool : Pipeline) (delivery : Delivery deployment) : Phase → Prop
  | .moved aim reason => Written pool delivery aim reason ∧ (aim = .processing → reason = none)
  | .towards _ _ => Written pool delivery .processing none
  | _ => True

theorem Written.kept (written : Written pool delivery aim reason)
    (orders : after.world.orders delivery.event.orderId = pool.world.orders delivery.event.orderId) :
    Written after delivery aim reason := by
  obtain ⟨row, found, columns⟩ := written
  exact ⟨row, orders.trans found, columns⟩

theorem Written.known (written : Written pool delivery aim reason) :
    Known pool delivery.event.orderId := by
  obtain ⟨row, found, _⟩ := written
  exact ⟨row, found⟩

theorem Underway.kept {phase : Phase} (underway : Underway pool delivery phase)
    (orders : phase.guarded = true → Known pool delivery.event.orderId →
      after.world.orders delivery.event.orderId = pool.world.orders delivery.event.orderId) :
    Underway after delivery phase := by
  cases phase with
  | moved aim reason => exact ⟨underway.1.kept (orders rfl underway.1.known), underway.2⟩
  | towards aim reason => exact Written.kept underway (orders rfl (Written.known underway))
  | _ => trivial

/-- Only the first commit of a delivery aims at PROCESSING. -/
theorem Led.unexplained {trace : List Moment} {id : Uuid} {attempt : Nat}
    (led : Led deployment trace id attempt aim reason) (begins : aim = .processing) :
    reason = none := by
  rcases led with ⟨_, none⟩ | ⟨result, _, aims, _⟩
  · exact none
  · exact absurd (aims.trans begins) Settings.aim_ne_processing

/-- The call of `fulfil` leaves the row as it is. -/
theorem decide_underway (written : Written pool delivery .processing none)
    (result : Except Exn Unit) : Underway pool delivery (Phase.decide delivery result) := by
  rcases decide_deciding delivery result with ⟨aim, reason, decided⟩ | decided
  · rw [decided]
    exact written
  · rw [decided]
    trivial

theorem Underway.own (reached : Reachable (system deployment) allows World.empty pool)
    (moved : Step (system deployment) pool (.did thread op outcome) after)
    (act : Acts deployment pool after thread op outcome) {first phase : Phase}
    (before : stage deployment pool thread = .holding delivery token first)
    (progress : first.Progress delivery token op outcome phase)
    (works : Works deployment pool thread delivery first)
    (underway : Underway pool delivery first) : Underway after delivery phase := by
  obtain ⟨fate, performed⟩ := act.performed
  cases progress with
  | checks row =>
    unfold Phase.checked
    split <;> trivial
  | writes aim reason row note hop =>
    obtain ⟨current, reads, _⟩ := works
    obtain ⟨order, rfl, stands, above⟩ := current.version reads (copy_permitted reached moved)
    have next := transition_stands aim delivery.attempt reason (some note) stands above
    rw [← act.commits rfl] at next
    obtain ⟨named, _, led⟩ := reading_led reached before
    exact ⟨⟨_, named ▸ next.row, rfl, rfl, rfl⟩, led.unexplained⟩
  | fulfils reason result =>
    obtain ⟨written, unexplained⟩ := underway
    obtain rfl := unexplained rfl
    exact decide_underway (written.kept (congrFun (perform_orders performed rfl) _)) result.reply
  | stays _ idle =>
    exact underway.kept fun _ _ => congrFun (perform_idle performed idle).1 _
  | _ => trivial

theorem underway (closed : Closed allows)
    (outlive : ∀ pool label, allows pool label → GuardsOutlive deployment pool label)
    (reached : Reachable (system deployment) allows World.empty pool) :
    ∀ thread (delivery : Delivery deployment) token phase,
      stage deployment pool thread = .holding delivery token phase →
        Underway pool delivery phase := by
  induction reached with
  | init =>
    intro thread delivery token phase standing
    cases standing
  | @step pool label after reached permitted moved ih =>
    intro thread delivery token phase standing
    have others : stage deployment pool thread = .holding delivery token phase →
        (∀ op outcome, label ≠ .did thread op outcome) → Underway after delivery phase := by
      intro before elsewhere
      have held := ih thread delivery token phase before
      exact held.kept fun guarded known => (version_stays reached moved known elsewhere
        (guarded_undisturbed closed outlive reached moved before guarded)).1
    rcases step_cases reached moved with ⟨actor, op, outcome, rfl, act⟩ | ⟨actor, turn⟩ |
      ⟨event, rfl, happening⟩
    · by_cases same : thread = actor
      · subst same
        rcases act.progress.holding standing with ⟨first, before, progress⟩ | ⟨rfl, _⟩
        · exact (ih thread delivery token first before).own reached moved act before progress
            (working closed outlive reached thread delivery token first before)
        · trivial
      · refine others ?_ ?_
        · rw [← act.others thread same]
          exact standing
        · rintro _ _ ⟨⟩
          exact same rfl
    · by_cases same : thread = actor
      · subst same
        exact (begins_holding turn.begins standing).elim
      · refine others ?_ (turn.not_did thread)
        rw [← turn.others thread same]
        exact standing
    · refine others ?_ (by rintro _ _ ⟨⟩)
      rw [← happening.stages thread]
      exact standing

theorem guardedRuns_closed : Closed (GuardedRuns deployment) :=
  fun _ tp record permitted => permitted.1 tp record rfl

theorem guardedRuns_outlive (pool : Pipeline) (label : Moment)
    (permitted : GuardedRuns deployment pool label) : GuardsOutlive deployment pool label :=
  permitted.2

/-- A step leaves a finished order as it is. -/
theorem finished_step {label : Moment} {id : Uuid} {row : OrderRow}
    (reached : Reachable (system deployment) (GuardedRuns deployment) World.empty pool)
    (moved : Step (system deployment) pool label after) (found : pool.world.orders id = some row)
    (terminal : row.status.terminal = true) :
    after.world.orders id = some row ∧ after.world.transitions id = pool.world.transitions id := by
  rcases step_versions reached moved with ⟨orders, trails⟩ | ⟨thread, op, outcome, rfl, act, change⟩
  · exact ⟨by rw [orders, found], by rw [trails]⟩
  · cases change with
    | same orders trails => exact ⟨by rw [orders, found], by rw [trails]⟩
    | inserted payload key new hop _ standing world _ =>
      have absent := drawn_absent reached thread payload key new standing
      have other : id ≠ (Repository.newRow payload new).id := by
        rintro rfl
        exact Option.some_ne_none row (found.symm.trans absent)
      rw [world, create_orders, create_transitions, Function.update_of_ne other,
        Function.update_of_ne other]
      exact ⟨found, rfl⟩
    | updated delivery token aim reason read note hop commits standing world _ =>
      subst commits
      have other : id ≠ read.id := by
        rintro rfl
        obtain ⟨current, reads, hops, _⟩ :=
          working guardedRuns_closed guardedRuns_outlive reached thread delivery token _ standing
        obtain ⟨order, rfl, stands, _⟩ := current.version reads (copy_permitted reached moved)
        rw [stands.row] at found
        cases found
        rw [hops_terminal terminal] at hops
        cases hops
      rw [world, transition_orders, transition_transitions, Function.update_of_ne other,
        Function.update_of_ne other]
      exact ⟨found, rfl⟩

end OrderFlow
