import OrderFlow.Runs.Ascent

/-!
A run on the ladder. From a fresh order on, every step that leaves its event in
peace climbs or stays, and what the run has shown by then is the ladder's.
-/
namespace OrderFlow
open AsyncCoroutine AsyncPool

variable {deployment : Deployment} {pool after start : Pipeline} {thread : Nat} {op : Op}
  {outcome : Outcome Exn op.Reply} {event : OrderEvent} {record : ConsumerRecord} {label : Moment}
  {first : Nat} {ladder : Ladder} {place : TopicPartition × Nat} {past : List (Pipeline × Moment)}

/-- The event is left in peace, and its records are handed over once. -/
def Peaceful (deployment : Deployment) (event : OrderEvent) (pool : Pipeline) (label : Moment) : Prop :=
  Undisturbed deployment event pool label ∧ OnceDelivered deployment event pool label

/-- An order just created, with one record on `orders.created` that nobody was handed yet. -/
structure Fresh (deployment : Deployment) (event : OrderEvent) (first : Nat)
    (place : TopicPartition × Nat) (pool : Pipeline) : Prop where
  status : HasStatus pool event.orderId .pending
  trail : (pool.world.transitions event.orderId).map StatusTransition.toStatus = [.pending]
  apart : Apart deployment event pool
  topic : place.1.topic = deployment.settings.topicOrders
  stands : ∃ entry, (pool.world.logs place.1)[place.2]? = some entry ∧
    Carries deployment.platform entry event ∧ entry.record.headers.getAttempt = first
  only : ∀ tp offset entry, deployment.settings.carriesEvents tp.topic →
    (pool.world.logs tp)[offset]? = some entry → Carries deployment.platform entry event →
      place = (tp, offset)
  untouched : ∀ thread name record outcome, At place record →
    Label.did thread (.handleCall name record) outcome ∉ pool.trace
  unguarded : pool.world.redis (.eventGuard event.eventId) ≠ some done

/-! ### The start -/

/-- A call that is on a record was called with it. -/
theorem called_with (ran : Ran deployment pool)
    (inCall : (stage deployment pool thread).record = some record) :
    ∃ name outcome, Label.did thread (.handleCall name record) outcome ∈ pool.trace := by
  induction ran with
  | init => cases inCall
  | @step pool label after reached permitted moved ih =>
    rw [step_trace moved]
    rcases Climbing.inCall_before reached moved inCall with before | ⟨name, outcome, rfl⟩
    · obtain ⟨name, outcome, called⟩ := ih before
      exact ⟨name, outcome, List.mem_cons_of_mem _ called⟩
    · exact ⟨name, outcome, List.mem_cons_self ..⟩

theorem committed_called (ran : Ran deployment pool) {consumer : Consumer}
    (committed : Committed pool.trace consumer record) :
    ∃ thread name outcome, Label.did thread (.handleCall name record) outcome ∈ pool.trace := by
  refine each_answer (P := fun pool _ record => ∃ thread name outcome,
    Label.did thread (.handleCall name record) outcome ∈ pool.trace) ?_ ?_ ran committed
  · rintro pool label after _ _ moved _ record ⟨thread, name, outcome, called⟩
    rw [step_trace moved]
    exact ⟨thread, name, outcome, List.mem_cons_of_mem _ called⟩
  · intro pool thread _ record reached _ _ inCall
    exact ⟨thread, called_with reached inCall⟩

theorem Fresh.climbing (fresh : Fresh deployment event first place pool) (ran : Ran deployment pool) :
    Climbing deployment event first .start place pool := by
  have nobody : ∀ thread record, (stage deployment pool thread).record = some record →
      ¬ Ours deployment event record := by
    intro thread record inCall ours
    obtain ⟨_, _, handed⟩ := ours.handed ran inCall
    obtain ⟨entry, found, carries⟩ := ours.entry fresh.apart handed
    have here := fresh.only record.tp record.offset entry ours.topic found carries
    obtain ⟨name, outcome, called⟩ := called_with ran inCall
    refine fresh.untouched thread name record outcome ?_ called
    rw [here]
    exact ⟨rfl, rfl⟩
  constructor
  · exact fresh.apart
  · exact fresh.status
  · exact fresh.trail
  · exact fun _ => fresh.unguarded
  · exact fun _ => ⟨fresh.topic, fresh.stands⟩
  · exact fun thread record inCall ours => (nobody thread record inCall ours).elim
  · intro thread delivery token phase standing ours
    exact (nobody thread delivery.record (by rw [standing]; rfl) ours).elim
  · exact fun thread _ record ours inCall _ => (nobody thread record inCall ours).elim
  · intro tp offset entry topic found carries
    exact .inl ⟨fresh.only tp offset entry topic found carries, rfl⟩
  · intro _ consumer record here committed
    obtain ⟨thread, name, outcome, called⟩ := committed_called ran committed
    exact fresh.untouched thread name record outcome here called
  · rintro _ ⟨⟩

/-! ### The way -/

/-- A call on another record of the event leaves. -/
theorem Climbing.departs (climbing : Climbing deployment event first ladder place pool)
    (ran : Ran deployment pool) (moved : Step (system deployment) pool (.did thread op outcome) after)
    (act : Acts deployment pool after thread op outcome)
    (undisturbed : Undisturbed deployment event pool (.did thread op outcome))
    (inCall : (stage deployment pool thread).record = some record)
    (ours : Ours deployment event record)
    (elsewhere : ¬ (ladder.rung.live = true ∧ At place record))
    (leaves : ladder.rung.Leaves (stage deployment pool thread)) :
    Climbing deployment event first ladder place after ∧
      tried deployment event (pool, .did thread op outcome) = none ∧
        put deployment event (pool, .did thread op outcome) = none := by
  have parting := parts act (undisturbed.answered thread record op outcome inCall ours rfl) leaves
  generalize standing : stage deployment pool thread = before at parting
  generalize left : stage deployment after thread = next at parting
  cases parting with
  | lingers still stays leaves =>
    constructor
    · refine climbing.lingers ran moved act undisturbed.produced inCall still ?_ ?_
      · rw [left, standing]
        exact stays
      · rw [left]
        exact .inr ⟨elsewhere, leaves⟩
    · apply unseen
      constructor
      · rintro _ rfl
        cases still
      · rintro _ _ _ _ rfl
        cases still
  | returns consumer answering returned =>
    refine ⟨?_, rfl, rfl⟩
    refine climbing.ends_call ran moved act undisturbed.produced inCall left
      (.inr ⟨elsewhere, consumer, thread, ?_⟩)
    rw [standing, returned] at inCall
    cases inCall
    rw [act.trace]
    exact List.mem_cons_self ..

/-- Every step of a peaceful run climbs or stays. -/
theorem Climbing.step (climbing : Climbing deployment event first ladder place pool)
    (sound : Ladder.Sound deployment.settings first ladder) (ran : Ran deployment pool)
    (moved : Step (system deployment) pool label after) (peaceful : Peaceful deployment event pool label) :
    ∃ later spot, Climbing deployment event first later spot after ∧
      Marks deployment event first ladder later (pool, label) := by
  obtain ⟨undisturbed, once⟩ := peaceful
  rcases step_cases ran moved with ⟨actor, op, outcome, rfl, act⟩ | ⟨actor, turn⟩ |
    ⟨happened, rfl, happening⟩
  · by_cases mine : ∃ record, (stage deployment pool actor).record = some record ∧
        Ours deployment event record
    · obtain ⟨record, inCall, ours⟩ := mine
      rcases climbing.placed actor record inCall ours with ⟨live, here, suits⟩ | ⟨elsewhere, leaves⟩
      · exact climbing.ascends sound ran moved act undisturbed ⟨live, here, ours, inCall, suits⟩
      · obtain ⟨stays, silent⟩ :=
          climbing.departs ran moved act undisturbed inCall ours elsewhere leaves
        exact ⟨ladder, place, stays, .silent silent⟩
    · have foreign : ∀ record, (stage deployment pool actor).record = some record →
          ¬ Ours deployment event record := fun record inCall ours => mine ⟨record, inCall, ours⟩
      have silent := climbing.apart.silent ran act foreign
      refine ⟨ladder, place, ?_, .silent silent⟩
      by_cases calls : ∃ name record, op = .handleCall name record ∧ Ours deployment event record
      · obtain ⟨name, record, rfl, ours⟩ := calls
        exact climbing.enters ran moved act undisturbed.produced once ours
      · exact climbing.foreign_stays ran moved act undisturbed.produced foreign
          fun name record same ours => calls ⟨name, record, same, ours⟩
  · refine ⟨ladder, place, climbing.turn_stays ran moved turn undisturbed, .silent ?_⟩
    cases label with
    | did other op outcome => exact (turn.not_did other op outcome rfl).elim
    | _ => exact ⟨rfl, rfl⟩
  · exact ⟨ladder, place, climbing.happens_stays ran moved happening undisturbed.produced,
      .silent ⟨rfl, rfl⟩⟩

/-- A run has climbed a ladder: where it stands there, and what it has shown. -/
structure OnLadder (deployment : Deployment) (event : OrderEvent) (first : Nat)
    (past : List (Pipeline × Moment)) (ladder : Ladder) (place : TopicPartition × Nat)
    (pool : Pipeline) : Prop where
  climbed : Ladder.Climbed deployment.settings first ladder
  climbing : Climbing deployment event first ladder place pool
  tries : (past.filterMap (tried deployment event)).reverse = ladder.tries first
  puts : (past.filterMap (put deployment event)).reverse = ladder.puts deployment.settings first

theorem on_ladder (ran : Ran deployment start) (fresh : Fresh deployment event first place start)
    (path : Path (system deployment) (Peaceful deployment event) start past pool) :
    ∃ ladder spot, OnLadder deployment event first past ladder spot pool := by
  induction path with
  | here => exact ⟨.start, place, .refl, fresh.climbing ran, rfl, rfl⟩
  | @step past pool label after walked permitted moved ih =>
    obtain ⟨ladder, spot, climbed, climbing, tries, puts⟩ := ih
    obtain ⟨later, next, climbs, marks⟩ :=
      climbing.step (Ladder.sound climbed) (ran_along walked ran) moved permitted
    refine ⟨later, next, ?_, climbs, ?_, ?_⟩
    · rcases marks.climbs with rfl | up
      · exact climbed
      · exact climbed.tail up
    · rw [marks.tries, ← tries, List.filterMap_cons]
      cases tried deployment event (pool, label) <;> simp
    · rw [marks.puts, ← puts, List.filterMap_cons]
      cases put deployment event (pool, label) <;> simp

/-- While the ladder goes on, a record of the event waits to be handled. -/
theorem Climbing.waiting (climbing : Climbing deployment event first ladder place pool)
    (ran : Ran deployment pool) (live : ladder.rung.live = true) :
    Waiting deployment pool ladder.rung.consumer event := by
  obtain ⟨topic, entry, found, carries, _⟩ := climbing.stands live
  have same : place.1 = ⟨ladder.rung.consumer.topic deployment.settings, place.1.partition⟩ := by
    rw [← topic]
  refine ⟨place.1.partition, place.2, entry, same ▸ found, carries, ?_⟩
  by_contra past
  obtain ⟨record, partition, offset, handed, committed⟩ :=
    committed_past ran (Nat.lt_of_not_le past)
  refine climbing.unspent live _ record ⟨?_, offset⟩ committed
  rw [same, ← handed.topic, ← partition]
  rfl

end OrderFlow
