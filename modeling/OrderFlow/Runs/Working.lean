import OrderFlow.Runs.Guard
import OrderFlow.Runs.Versions

/-!
Deliveries at work. While the guard keeps deliveries apart, nobody else changes
the order of one: what it read stands until it commits, and it commits a hop the
status allows.
-/
namespace OrderFlow
open AsyncCoroutine AsyncPool

variable {deployment : Deployment} {allows : Pipeline → Moment → Prop} {pool after : Pipeline}
  {thread : Nat} {op : Op} {outcome : Outcome Exn op.Reply}

/-- Nobody else changes the order of a delivery that has its guard. -/
theorem guarded_undisturbed (closed : Closed allows)
    (outlive : ∀ pool label, allows pool label → GuardsOutlive deployment pool label)
    (reached : Reachable (system deployment) allows World.empty pool) {label : Moment}
    (moved : Step (system deployment) pool label after) {delivery : Delivery deployment}
    {token : String} {phase : Phase}
    (standing : stage deployment pool thread = .holding delivery token phase)
    (holds : phase.guarded = true) : ¬ Disturbs label thread delivery.event.orderId := by
  rintro ⟨actor, writes, heard, changes, differ, rfl, _, member⟩
  rcases step_cases reached moved with ⟨_, _, _, same, act⟩ | ⟨_, turn⟩ | ⟨_, same, _⟩
  · cases same
    obtain ⟨second, mine, aim, reason, row, reading, same⟩ := commits_update act.permitted member
    have named := (sighted reached actor second mine _ reading).named aim reason row rfl
    obtain ⟨_, publisher, published⟩ := delivery_event thread delivery closed reached
      (by rw [standing]; rfl) (by rw [standing]; rfl)
    obtain ⟨_, publisher', published'⟩ := delivery_event actor second closed reached
      (by rw [reading]; rfl) (by rw [reading]; rfl)
    have event : delivery.event = second.event :=
      one_event reached published published' (.inl (same.trans named))
    refine differ (guard_exclusive outlive reached reading rfl standing holds ?_)
    rw [Delivery.guard, Delivery.guard, event]
  · exact turn.not_did _ _ _ rfl
  · cases same

/-- The row a copy was read with; what was shown or not read says nothing. -/
def Copy.Reads (row : OrderRow) : Copy → Prop
  | .reading _ read => read = row
  | .held order | .changing order _ _ => order.row = row
  | .empty | .creating _ _ | .put _ => True
  | .created _ | .written _ => False

theorem Copy.Reads.of_current {copy : Copy} {row : OrderRow} {id : Uuid} (reads : copy.Reads row)
    (reached : Reachable (system deployment) allows World.empty pool)
    (current : copy.Current pool.world) (ofOrder : copy.of = some id) : id = row.id := by
  cases copy with
  | reading of read =>
    cases ofOrder
    cases reads
    exact (row_named reached _ _ current).symm
  | held order | changing order changes hop =>
    cases ofOrder
    cases reads
    rfl
  | created order | written order => exact reads.elim
  | _ => cases ofOrder

/-- The order is there with this status. -/
def HasStatus (pool : Pipeline) (id : Uuid) (status : OrderStatus) : Prop :=
  ∃ row, pool.world.orders id = some row ∧ row.status = status

/-- What a delivery at work knows of its order: the copy it read stands, and the
    hop it aims at is one the status allows, explained when it has to be. -/
def Works (deployment : Deployment) (pool : Pipeline) (thread : Nat)
    (delivery : Delivery deployment) : Phase → Prop
  | .read aim reason row => (copy deployment pool thread).Current pool.world ∧
      (copy deployment pool thread).Reads row ∧ row.status.hops aim = true ∧
      reason.isSome = aim.explained
  | .moved .processing _ => HasStatus pool delivery.event.orderId .processing
  | .towards aim reason => HasStatus pool delivery.event.orderId .processing ∧
      reason.isSome = aim.explained
  | _ => True

theorem processing_hops (aim : OrderStatus) : OrderStatus.processing.hops aim = true := by
  cases aim <;> rfl

theorem live_hops {status : OrderStatus} (live : status.terminal = false) :
    status.hops .processing = true := by
  cases status <;> first | rfl | cases live

theorem decide_works (delivery : Delivery deployment) (result : Except Exn Unit)
    (working : HasStatus pool delivery.event.orderId .processing) :
    Works deployment pool thread delivery (Phase.decide delivery result) := by
  unfold Phase.decide
  split
  · exact ⟨working, rfl⟩
  · split
    · exact ⟨working, rfl⟩
    · exact ⟨working, rfl⟩
  · exact ⟨working, rfl⟩
  · trivial

/-- A read order is carried along until it is committed. -/
theorem reads_next {copy : Copy} {delivery : Delivery deployment} {token : String}
    {aim : OrderStatus} {reason : Option PyStr} {row : OrderRow}
    (permitted : (Stage.holding delivery token (.read aim reason row)).allowed deployment op)
    (still : (Stage.holding delivery token (.read aim reason row)).next deployment op outcome =
      .holding delivery token (.read aim reason row))
    (reads : copy.Reads row) : (copy.next op outcome).Reads row := by
  cases op with
  | selectTransitions id =>
    cases outcome with
    | ok trail => cases copy <;> trivial
    | _ => cases copy <;> trivial
  | flush writes =>
    cases outcome with
    | ok hopId =>
      have flushed : (copy.flushed hopId writes).Reads row := by
        unfold Copy.flushed
        split
        · trivial
        · exact reads
        · trivial
      cases copy <;> exact flushed
    | _ => cases copy <;> trivial
  | commit writes => cases outcome <;> cases still
  | _ => exact permitted.elim

theorem selected_current (reached : Reachable (system deployment) allows World.empty pool)
    (moved : Step (system deployment) pool (.did thread op outcome) after)
    (act : Acts deployment pool after thread op outcome) {id : Uuid} {row : OrderRow}
    (selects : Selects op outcome id (some row)) :
    (copy deployment after thread).Current after.world ∧
      (copy deployment after thread).Reads row := by
  unfold Selects at selects
  split at selects
  · obtain ⟨rfl, rfl⟩ := selects
    refine ⟨copy_current reached moved act (.inl ⟨_, rfl⟩), ?_⟩
    rw [copy_own moved]
    cases copy deployment pool thread <;> rfl
  · cases selects

/-- What a delivery commits was flushed for the version it read, which stands. -/
theorem Copy.Current.version {copy : Copy} {row moved : OrderRow} {note : Option PyStr}
    {hopId : Nat} {world : World} (current : copy.Current world) (reads : copy.Reads row)
    (permitted : copy.allowed deployment
      (.commit (Repository.transitionWrites row moved note hopId))) :
    ∃ order, order.row = row ∧ Stands world order ∧
      ∀ earlier ∈ order.transitions, earlier.id < hopId := by
  obtain ⟨order, _, drafts⟩ := changes_drafted permitted
  rw [drafts] at current reads
  exact ⟨order, reads, current.1, current.2⟩

/-- A transition of the version that stands makes the next one. -/
theorem transition_stands {world : World} {order : Order} {hopId : Nat} (toStatus : OrderStatus)
    (attempts : Nat) (failureReason note : Option PyStr) (stands : Stands world order)
    (above : ∀ earlier ∈ order.transitions, earlier.id < hopId) :
    Stands (world.write (Repository.transitionWrites order.row
        (Repository.transitionRow order.row toStatus attempts failureReason) note hopId))
      ⟨Repository.transitionRow order.row toStatus attempts failureReason,
        order.transitions ++ [⟨hopId, some order.row.status, toStatus, note⟩]⟩ := by
  constructor
  · rw [transition_orders]
    show Function.update world.orders order.row.id _ order.row.id = _
    rw [Function.update_self, stands.row, Option.map_some, changes_apply]
  · rw [transition_transitions]
    show Function.update world.transitions order.row.id _ order.row.id = _
    rw [Function.update_self, stands.trail]
    exact insertHop_above above

/-- A new order's version. -/
theorem create_stands {world : World} {row : OrderRow} (hopId : Nat)
    (empty : world.transitions row.id = []) :
    Stands (world.write (Repository.createWrites row hopId))
      ⟨row, [⟨hopId, none, .pending, some (py "order accepted")⟩]⟩ := by
  constructor
  · rw [create_orders, Function.update_self]
  · rw [create_transitions, Function.update_self, empty]
    rfl

theorem HasStatus.same {id : Uuid} {status : OrderStatus} (stands : HasStatus pool id status)
    (orders : after.world.orders id = pool.world.orders id) : HasStatus after id status := by
  obtain ⟨row, found, same⟩ := stands
  exact ⟨row, orders.trans found, same⟩

/-- A delivery's own operations keep what it knows. -/
theorem Works.own (reached : Reachable (system deployment) allows World.empty pool)
    (moved : Step (system deployment) pool (.did thread op outcome) after)
    (act : Acts deployment pool after thread op outcome) {delivery : Delivery deployment}
    {token : String} {first phase : Phase}
    (before : stage deployment pool thread = .holding delivery token first)
    (standing : stage deployment after thread = .holding delivery token phase)
    (progress : first.Progress delivery token op outcome phase)
    (works : Works deployment pool thread delivery first) :
    Works deployment after thread delivery phase := by
  obtain ⟨fate, performed⟩ := act.performed
  cases progress with
  | checks row =>
    unfold Phase.checked
    split
    · trivial
    · rename_i live
      obtain ⟨current, reads⟩ := selected_current reached moved act ⟨rfl, rfl⟩
      exact ⟨current, reads, live_hops (by simpa using live), rfl⟩
  | rereads aim reason row =>
    obtain ⟨working, explains⟩ := works
    obtain ⟨current, reads⟩ := selected_current reached moved act ⟨rfl, rfl⟩
    obtain ⟨stood, found, processing⟩ := working
    have same : pool.world.orders delivery.event.orderId = some row :=
      (act.selects ⟨rfl, rfl⟩).1
    rw [found] at same
    cases same
    refine ⟨current, reads, ?_, explains⟩
    rw [processing]
    exact processing_hops aim
  | writes aim reason row note hop =>
    cases aim with
    | processing =>
      obtain ⟨current, reads, _, _⟩ := works
      obtain ⟨order, rfl, stands, above⟩ := current.version reads (copy_permitted reached moved)
      have world := act.commits rfl
      have named := (sighted reached thread delivery token _ before).named _ _ _ rfl
      have next := transition_stands .processing delivery.attempt reason (some note) stands above
      rw [← world] at next
      exact ⟨_, named ▸ next.row, rfl⟩
    | _ => trivial
  | fulfils reason result =>
    refine decide_works delivery result.reply ?_
    exact works.same (congrFun (perform_orders performed rfl) _)
  | stays _ idle =>
    have orders := congrFun (perform_idle performed idle).1 delivery.event.orderId
    cases first with
    | read aim reason row =>
      obtain ⟨current, reads, hop, explains⟩ := works
      refine ⟨copy_current reached moved act (.inr current), ?_, hop, explains⟩
      have permitted := act.permitted
      have own := act.own
      rw [before] at permitted own
      rw [copy_own moved]
      exact reads_next permitted (own.symm.trans standing) reads
    | moved aim reason =>
      cases aim with
      | processing => exact HasStatus.same works orders
      | _ => trivial
    | towards aim reason => exact ⟨works.1.same orders, works.2⟩
    | _ => trivial
  | _ => trivial

theorem HasStatus.known {id : Uuid} {status : OrderStatus} (stands : HasStatus pool id status) :
    Known pool id := by
  obtain ⟨row, found, _⟩ := stands
  exact ⟨row, found⟩

/-- The steps of others leave it in peace, unless they change the order. -/
theorem Works.others (reached : Reachable (system deployment) allows World.empty pool)
    {label : Moment} (moved : Step (system deployment) pool label after)
    (others : ∀ op outcome, label ≠ .did thread op outcome) {delivery : Delivery deployment}
    {token : String} {phase : Phase}
    (standing : stage deployment pool thread = .holding delivery token phase)
    (undisturbed : phase.deciding = true → ¬ Disturbs label thread delivery.event.orderId)
    (works : Works deployment pool thread delivery phase) :
    Works deployment after thread delivery phase := by
  have stays : phase.deciding = true → HasStatus pool delivery.event.orderId .processing →
      HasStatus after delivery.event.orderId .processing := fun decides working =>
    working.same (version_stays reached moved working.known others (undisturbed decides)).1
  cases phase with
  | read aim reason row =>
    obtain ⟨current, reads, hop, explains⟩ := works
    have named := (sighted reached thread delivery token _ standing).named aim reason row rfl
    refine ⟨current_step reached moved current ?_, ?_, hop, explains⟩
    · intro id ofOrder
      obtain rfl := reads.of_current reached current ofOrder
      rw [named]
      exact undisturbed rfl
    · rcases copy_other moved others with same | emptied
      · rw [same]
        exact reads
      · rw [emptied]
        trivial
  | moved aim reason =>
    cases aim with
    | processing => exact stays rfl works
    | _ => trivial
  | towards aim reason => exact ⟨stays rfl works.1, works.2⟩
  | _ => trivial

/-- In a run that keeps deliveries apart, every delivery at work is undisturbed. -/
theorem working (closed : Closed allows)
    (outlive : ∀ pool label, allows pool label → GuardsOutlive deployment pool label)
    (reached : Reachable (system deployment) allows World.empty pool) :
    ∀ thread delivery token phase, stage deployment pool thread = .holding delivery token phase →
      Works deployment pool thread delivery phase := by
  induction reached with
  | init =>
    intro thread delivery token phase standing
    cases standing
  | @step pool label after reached permitted moved ih =>
    intro thread delivery token phase standing
    have others : stage deployment pool thread = .holding delivery token phase →
        (∀ op outcome, label ≠ .did thread op outcome) →
        Works deployment after thread delivery phase := fun before elsewhere =>
      (ih thread delivery token phase before).others reached moved elsewhere before fun decides =>
        guarded_undisturbed closed outlive reached moved before (deciding_guarded decides)
    rcases step_cases reached moved with ⟨actor, op, outcome, rfl, act⟩ | ⟨actor, turn⟩ |
      ⟨event, rfl, happening⟩
    · by_cases same : thread = actor
      · subst same
        rcases act.progress.holding standing with ⟨first, before, progress⟩ | ⟨rfl, _⟩
        · exact (ih thread delivery token first before).own reached moved act before standing
            progress
        · trivial
      · refine others ?_ ?_
        · rw [← act.others thread same]
          exact standing
        · rintro _ _ ⟨⟩
          exact same rfl
    · by_cases same : thread = actor
      · subst same
        exact (begins_holding turn.begins standing).elim
      · refine others ?_ (turn.not_did thread)
        rw [← turn.others thread same]
        exact standing
    · refine others ?_ (by rintro _ _ ⟨⟩)
      rw [← happening.stages thread]
      exact standing

end OrderFlow
