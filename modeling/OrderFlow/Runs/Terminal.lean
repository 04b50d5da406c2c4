import OrderFlow.Runs.Publication

/-!
Terminal orders. Between its terminal check and its last status commit a delivery
works on an order that was open when it looked. As long as no other delivery
finishes the order in that window, a finished order stays finished.
-/
namespace OrderFlow
open AsyncCoroutine AsyncPool

variable {deployment : Deployment} {allows : Pipeline → Moment → Prop} {pool after : Pipeline}
  {thread : Nat} {op : Op} {outcome : Outcome Exn op.Reply}

/-- Past the terminal check, with a status commit still to come. -/
def Phase.deciding : Phase → Bool
  | .read _ _ _ => true
  | .moved .processing _ => true
  | .towards _ _ => true
  | _ => false

/-- The thread is deciding the fate of this order. -/
def Stage.Decides (stage : Stage deployment) (id : Uuid) : Prop :=
  ∃ delivery token phase, stage = .holding delivery token phase ∧ phase.deciding = true ∧
    delivery.event.orderId = id

/-- Nobody commits a terminal status for an order another delivery is deciding. -/
def TerminalCommitsAlone (deployment : Deployment) (pool : Pipeline) (label : Moment) : Prop :=
  ∀ thread writes outcome id changes status, label = .did thread (.commit writes) outcome →
    Write.updateOrder id changes ∈ writes → changes.status = some status →
    status.terminal = true → ∀ other, other ≠ thread → ¬ (stage deployment pool other).Decides id

/-- The order is there and not finished. -/
def OpenOrder (pool : Pipeline) (id : Uuid) : Prop :=
  ∃ row, pool.world.orders id = some row ∧ row.status.terminal = false

def Finished (pool : Pipeline) (id : Uuid) : Prop :=
  ∃ row, pool.world.orders id = some row ∧ row.status.terminal = true

theorem decide_deciding (delivery : Delivery deployment) (result : Except Exn Unit) :
    (∃ aim reason, Phase.decide delivery result = .towards aim reason) ∨
      Phase.decide delivery result = .aborting := by
  unfold Phase.decide
  split
  · exact .inl ⟨_, _, rfl⟩
  · split <;> exact .inl ⟨_, _, rfl⟩
  · exact .inl ⟨_, _, rfl⟩
  · exact .inr rfl

/-- A delivery starts deciding by reading a row that is not terminal. -/
theorem Phase.Progress.deciding {delivery : Delivery deployment} {token : String}
    {before later : Phase} (moved : Phase.Progress delivery token before op outcome later)
    (decides : later.deciding = true) : before.deciding = true ∨
      ∃ row, Selects op outcome delivery.event.orderId (some row) ∧ row.status.terminal = false := by
  cases moved with
  | checks row =>
    unfold checked at decides
    split at decides
    · cases decides
    · rename_i live
      exact .inr ⟨row, ⟨rfl, rfl⟩, by simpa using live⟩
  | writes aim reason row note hop => exact .inl rfl
  | fulfils reason result => exact .inl rfl
  | rereads aim reason row => exact .inl rfl
  | stays => exact .inl decides
  | _ => cases decides

/-- A delivery that goes on deciding has not committed a terminal status. -/
theorem Phase.Progress.keeps_deciding {delivery : Delivery deployment} {token : String}
    {before later : Phase} {writes : List Write} {id : Uuid} {changes : OrderChanges}
    {status : OrderStatus} (moved : Phase.Progress delivery token before op outcome later)
    (decides : later.deciding = true) (commits : op = .commit writes)
    (member : Write.updateOrder id changes ∈ writes) (written : changes.status = some status) :
    status.terminal = false := by
  cases moved with
  | writes aim reason row note hop =>
    cases commits
    cases aim with
    | processing =>
      rcases List.mem_cons.mp member with same | other
      · cases same
        simp only [Repository.changesOf, Repository.transitionRow] at written
        obtain ⟨_, ⟨⟩⟩ := Option.ite_none_left_eq_some.mp written
        rfl
      · rcases List.mem_cons.mp other with same | none
        · cases same
        · cases none
    | _ => cases decides
  | stays _ idle =>
    subst commits
    cases writes with
    | nil => cases member
    | cons first rest => cases idle
  | fulfils | rereads | checks => cases commits
  | _ => cases decides

/-- What a step of the run does to the order a delivery decides. -/
theorem OrdersChange.open_order {id : Uuid} (change : OrdersChange deployment pool after thread op)
    (isOpen : OpenOrder pool id)
    (notFinished : ∀ writes changes status, op = .commit writes →
      Write.updateOrder id changes ∈ writes → changes.status = some status →
      status.terminal = false) : OpenOrder after id := by
  obtain ⟨row, found, live⟩ := isOpen
  cases change with
  | same orders => exact ⟨row, orders ▸ found, live⟩
  | inserted payload key new _ _ orders _ =>
    by_cases same : id = new
    · exact ⟨_, by rw [orders, same, Function.update_self], rfl⟩
    · exact ⟨row, by rw [orders, Function.update_of_ne same, found], live⟩
  | updated delivery token aim reason read note hop commits _ _ orders =>
    by_cases same : id = read.id
    · subst same
      refine ⟨_, by rw [orders, Function.update_self, found]; rfl, ?_⟩
      cases written : (Repository.changesOf read
        (Repository.transitionRow read aim delivery.attempt reason)).status with
      | none => simpa [OrderChanges.apply, written] using live
      | some status =>
        have := notFinished _ _ status commits (List.mem_cons_self ..) written
        simpa [OrderChanges.apply, written] using this
    · exact ⟨row, by rw [orders, Function.update_of_ne same, found], live⟩

/-- The orders that deliveries are deciding are open, and were when they were read. -/
structure DecidesOpen (deployment : Deployment) (pool : Pipeline) : Prop where
  current : ∀ thread id, (stage deployment pool thread).Decides id → OpenOrder pool id
  seen : ∀ thread delivery token aim reason row,
    stage deployment pool thread = .holding delivery token (.read aim reason row) →
    row.status.terminal = false

theorem begins_holding {stage : Stage deployment} (begins : stage.Begins)
    {delivery : Delivery deployment} {token : String} {phase : Phase} :
    stage ≠ .holding delivery token phase := by
  cases begins <;> rintro ⟨⟩

theorem decides_open
    (reached : Reachable (system deployment) (TerminalCommitsAlone deployment) World.empty pool) :
    DecidesOpen deployment pool := by
  refine run_invariant ?_ ?_ ?_ ?_ reached
  · constructor
    · rintro thread id ⟨_, _, _, ⟨⟩, _⟩
    · rintro thread delivery token aim reason row ⟨⟩
  · intro pool after thread op outcome reached known permitted act
    have change := orders_change act
    constructor
    · rintro other id ⟨delivery, token, phase, standing, decides, rfl⟩
      by_cases same : other = thread
      · subst same
        rcases act.progress.holding standing with ⟨first, before, moved⟩ | ⟨rfl, _⟩
        · rcases moved.deciding decides with earlier | ⟨row, selects, live⟩
          · refine change.open_order (known.current other _ ⟨_, _, _, before, earlier, rfl⟩) ?_
            intro writes changes status commits member written
            exact moved.keeps_deciding decides commits member written
          · obtain ⟨stood, world⟩ := act.selects selects
            exact ⟨row, world ▸ stood, live⟩
        · cases decides
      · rw [act.others other same] at standing
        refine change.open_order (known.current other _ ⟨_, _, _, standing, decides, rfl⟩) ?_
        intro writes changes status commits member written
        by_contra finished
        rw [Bool.not_eq_false] at finished
        subst commits
        exact permitted _ _ _ _ _ _ rfl member written finished other same
          ⟨_, _, _, standing, decides, rfl⟩
    · intro other delivery token aim reason row standing
      by_cases same : other = thread
      · subst same
        rcases act.progress.holding standing with ⟨first, before, moved⟩ | ⟨aims, _⟩
        · rcases moved.read rfl with rfl | ⟨selects, ⟨_, live, _⟩ | rfl⟩
          · exact known.seen other delivery token aim reason row before
          · exact live
          · obtain ⟨stood, _⟩ := act.selects selects
            obtain ⟨current, found, live⟩ := known.current other _ ⟨_, _, _, before, rfl, rfl⟩
            rw [stood] at found
            cases found
            exact live
        · cases aims
      · rw [act.others other same] at standing
        exact known.seen other delivery token aim reason row standing
  · intro pool after label thread _ known _ turn
    constructor
    · rintro other id ⟨delivery, token, phase, standing, decides, same⟩
      by_cases own : other = thread
      · subst own
        exact (begins_holding turn.begins standing).elim
      · rw [turn.others other own] at standing
        rw [OpenOrder, turn.world]
        exact known.current other id ⟨_, _, _, standing, decides, same⟩
    · intro other delivery token aim reason row standing
      by_cases own : other = thread
      · subst own
        exact (begins_holding turn.begins standing).elim
      · rw [turn.others other own] at standing
        exact known.seen other delivery token aim reason row standing
  · intro pool after event _ known _ happening
    constructor
    · rintro other id ⟨delivery, token, phase, standing, decides, same⟩
      rw [happening.stages other] at standing
      rw [OpenOrder, (happen_frame happening.happened).1]
      exact known.current other id ⟨_, _, _, standing, decides, same⟩
    · intro other delivery token aim reason row standing
      rw [happening.stages other] at standing
      exact known.seen other delivery token aim reason row standing

/-- A finished order keeps its status through a step that respects the deciders. -/
theorem finished_stays {label : Moment} {id : Uuid} {row : OrderRow}
    (reached : Reachable (system deployment) (TerminalCommitsAlone deployment) World.empty pool)
    (moved : Step (system deployment) pool label after) (found : pool.world.orders id = some row)
    (terminal : row.status.terminal = true) :
    ∃ later, after.world.orders id = some later ∧ later.status = row.status := by
  rcases step_orders reached moved with same | ⟨thread, op, outcome, _, _, change⟩
  · exact ⟨row, same ▸ found, rfl⟩
  · cases change with
    | same orders => exact ⟨row, orders ▸ found, rfl⟩
    | inserted payload key new drawn _ orders _ =>
      by_cases same : id = new
      · subst same
        rw [drawn_absent reached thread payload key id drawn] at found
        cases found
      · exact ⟨row, by rw [orders, Function.update_of_ne same, found], rfl⟩
    | updated delivery token aim reason read note hop _ reading _ orders =>
      by_cases same : id = read.id
      · have named := (sighted reached thread delivery token _ reading).named aim reason read rfl
        obtain ⟨current, stood, live⟩ := (decides_open reached).current thread id
          ⟨delivery, token, _, reading, rfl, by rw [same, named]⟩
        rw [found] at stood
        cases stood
        rw [terminal] at live
        cases live
      · exact ⟨row, by rw [orders, Function.update_of_ne same, found], rfl⟩

end OrderFlow
