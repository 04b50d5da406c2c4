import OrderFlow.Kafka.Offsets
import OrderFlow.Runs.Provenance

/-!
Who works on a partition. A worker comes to a partition by its assignment only, and
is done with it when it has lost it and has no record of it left.
-/
namespace OrderFlow
open AsyncCoroutine AsyncPool

variable {deployment : Deployment} {allows : Pipeline → Moment → Prop} {pool after : Pipeline}
  {thread : Nat} {tp : TopicPartition} {record : ConsumerRecord} {label : Moment}

/-- Where the thread stands in its loop. -/
def loop (deployment : Deployment) (pool : Pipeline) (thread : Nat) : Loop :=
  (Loop.monitor deployment.settings).record pool.trace thread

/-- The partitions of the batch that is being worked through. -/
def Loop.onHand : Loop → List TopicPartition
  | .off => []
  | .on _ batch _ => batch.map Prod.fst

/-- The worker holds the partition, or still has records of it. -/
def WorksOn (deployment : Deployment) (pool : Pipeline) (thread : Nat) (tp : TopicPartition) : Prop :=
  (pool.world.positions thread tp).isSome ∨ tp ∈ (loop deployment pool thread).onHand

/-- The worker is inside its `handle` with this record. -/
def InHand (deployment : Deployment) (pool : Pipeline) (thread : Nat) (consumer : Consumer)
    (record : ConsumerRecord) : Prop :=
  ∃ batch, loop deployment pool thread = .on consumer batch (.inside record)

/-- A partition is given to a worker only when nobody else works on it. -/
def HandsOver (deployment : Deployment) (pool : Pipeline) (label : Moment) : Prop :=
  ∀ thread consumer partition, label = .event (.assign thread consumer partition) →
    ∀ other, other ≠ thread →
      ¬ WorksOn deployment pool other ⟨consumer.topic deployment.settings, partition⟩

/-! ### Records in hand -/

theorem Loop.Next.onHand {batch : Batch} (next : Loop.Next batch tp record) :
    tp ∈ batch.map Prod.fst := by
  obtain ⟨rest, more, rfl⟩ := next
  exact List.mem_cons_self ..

/-- The record in hand is the next one of the batch. -/
theorem hand_next (reached : Reachable (system deployment) allows World.empty pool) (thread : Nat) :
    ∀ consumer batch, loop deployment pool thread = .on consumer batch (.inside record) →
      ∃ tp, Loop.Next batch tp record := by
  refine Monitor.each_record (Loop.monitor deployment.settings) (P := fun _ _ (loop : Loop) =>
    ∀ consumer batch, loop = .on consumer batch (.inside record) → ∃ tp, Loop.Next batch tp record)
    (Loop.keeps deployment) ?_ ?_ (fun _ _ _ _ _ _ _ _ _ known => known) ?_ reached thread
  · rintro _ _ _ _ ⟨⟩
  · rintro _ _ (_ | _ | _) _ _ ⟨⟩
  · intro pool after actor op outcome _ _ _ permitted known consumer batch now
    generalize (Loop.monitor deployment.settings).record pool.trace actor = before
      at permitted known now
    cases before with
    | off => cases now
    | on owner held turn =>
      cases op with
      | handleCall name handed =>
        cases now
        exact permitted.2.2
      | handleReturn name handed result =>
        obtain ⟨_, rfl, next⟩ := permitted
        rcases result with _ | ack
        · cases now
        · cases outcome <;> cases now
          all_goals exact next
      | getmany | seek | commitOffset => cases outcome <;> cases now
      | _ => exact known consumer batch now

theorem InHand.place {consumer : Consumer}
    (reached : Reachable (system deployment) allows World.empty pool)
    (hand : InHand deployment pool thread consumer record) :
    WorksOn deployment pool thread record.tp ∧ Handed deployment pool consumer record := by
  obtain ⟨batch, inside⟩ := hand
  obtain ⟨tp, next⟩ := hand_next reached thread consumer batch inside
  have disciplined := (loop_invariant reached).running thread consumer batch _ inside
  obtain ⟨rest, more, rfl⟩ := next
  obtain ⟨topic, first, run, _, logged⟩ := disciplined.segments _ (List.mem_cons_self ..)
  obtain ⟨place, _⟩ := run
  refine ⟨.inr ?_, logged record (List.mem_cons_self ..), ?_⟩
  · rw [inside, place]
    exact List.mem_cons_self ..
  · rw [← topic, ← place]
    rfl

/-! ### Coming to a partition -/

/-- The operations of a worker give it no partition. -/
theorem perform_positions_kept {op : Op} {outcome : Outcome Exn op.Reply} {world next : World}
    {fate : Fate} (performed : perform deployment thread op world fate = some (outcome, next))
    (held : (next.positions thread tp).isSome) : (world.positions thread tp).isSome := by
  rcases perform_cases performed with ⟨_, _, rfl⟩ | ⟨value, oracle, answered, _⟩
  · exact held
  · cases op with
    | getmany topic =>
      obtain ⟨segments, others⟩ := fetch_spec (answer_getmany answered)
      by_cases fetched : ∃ records, (tp, records) ∈ value
      · obtain ⟨records, member⟩ := fetched
        obtain ⟨_, _, position, before, _⟩ := segments _ member
        simp [before]
      · rw [← others tp fun records member => fetched ⟨records, member⟩]
        exact held
    | seek place offset =>
      simp only [answer] at answered
      split at answered
      · rename_i holds
        cases answered
        by_cases same : tp = place
        · exact same ▸ holds
        · simpa [World.setPosition, Function.update_of_ne same] using held
      · cases answered
    | stopConsumer =>
      cases answered
      simp at held
    | _ =>
      rw [← answer_positions answered rfl]
      exact held

theorem ready_onHand {batch : Batch} (member : tp ∈ (ready batch).map Prod.fst) :
    tp ∈ batch.map Prod.fst :=
  List.map_subset _ (ready_subset batch) member

/-- What a worker has on hand it had on hand, or holds. -/
theorem onHand_kept {op : Op} {outcome : Outcome Exn op.Reply} {world next : World} {fate : Fate}
    (performed : perform deployment thread op world fate = some (outcome, next)) (before : Loop)
    (member : tp ∈ (before.next op outcome).onHand) :
    tp ∈ before.onHand ∨ (world.positions thread tp).isSome := by
  cases before with
  | off => cases member
  | on consumer batch turn =>
    cases op with
    | getmany topic =>
      rcases perform_cases performed with ⟨error, rfl, _⟩ | ⟨fetched, oracle, answered, took⟩
      · cases member
      · rcases took with rfl | ⟨error, rfl⟩
        · obtain ⟨segment, mine, rfl⟩ := List.mem_map.mp (ready_onHand member)
          obtain ⟨_, _, position, held, _⟩ := (fetch_spec (answer_getmany answered)).1 segment mine
          exact .inr (by simp [held])
        · cases member
    | seek place offset =>
      cases outcome with
      | ok _ => exact .inl (List.map_subset _ (List.tail_sublist batch).subset (ready_onHand member))
      | _ => cases member
    | commitOffset group place offset =>
      cases outcome with
      | ok _ =>
        refine .inl ?_
        rcases batch with _ | ⟨⟨place, _ | ⟨record, rest⟩⟩, more⟩
        · exact member
        · exact member
        · have later : tp ∈ (ready ((place, rest) :: more)).map Prod.fst := member
          have kept := ready_onHand later
          exact kept
      | _ => cases member
    | handleReturn name record result =>
      rcases result with _ | ack
      · exact .inl member
      · cases outcome <;> exact .inl member
    | _ => exact .inl member

theorem happen_assigns {event : Event} {world next : World}
    (happened : happen deployment event world = some next)
    (held : (next.positions thread tp).isSome) :
    (world.positions thread tp).isSome ∨ ∃ consumer partition,
      event = .assign thread consumer partition ∧
        tp = ⟨consumer.topic deployment.settings, partition⟩ := by
  have placed : ∀ {actor place position}, ((world.setPosition actor place position).positions
      thread tp).isSome → (world.positions thread tp).isSome ∨
        (actor = thread ∧ place = tp ∧ position.isSome) := by
    intro actor place position held
    by_cases own : thread = actor
    · subst own
      by_cases same : tp = place
      · subst same
        simp only [World.setPosition, Function.update_self] at held
        exact .inr ⟨rfl, rfl, held⟩
      · simp only [World.setPosition, Function.update_self, Function.update_of_ne same] at held
        exact .inl held
    · simp only [World.setPosition, Function.update_of_ne own] at held
      exact .inl held
  cases event with
  | expire key =>
    simp only [happen, Option.ite_none_right_eq_some] at happened
    obtain ⟨_, same⟩ := happened
    cases same
    exact .inl held
  | assign actor consumer partition =>
    cases happened
    rcases placed held with before | ⟨rfl, rfl, _⟩
    · exact .inl before
    · exact .inr ⟨consumer, partition, rfl, rfl⟩
  | revoke actor place =>
    cases happened
    rcases placed held with before | ⟨_, _, ⟨⟩⟩
    exact .inl before
  | _ =>
    cases happened
    exact .inl held

/-- A worker comes to work on a partition when it is assigned to it. -/
theorem worksOn_step (moved : Step (system deployment) pool label after)
    (works : WorksOn deployment after thread tp) :
    WorksOn deployment pool thread tp ∨ ∃ consumer partition,
      label = .event (.assign thread consumer partition) ∧
        tp = ⟨consumer.topic deployment.settings, partition⟩ := by
  cases moved with
  | did actor call op resume fate outcome world awaiting performed =>
    have acted : perform deployment actor op pool.world fate = some (outcome, world) := performed
    refine .inl ?_
    by_cases same : thread = actor
    · subst same
      rcases works with held | member
      · exact .inl (perform_positions_kept acted held)
      · rw [loop, Monitor.record_did_self] at member
        exact (onHand_kept acted _ member).symm
    · refine works.imp (fun held => ?_) fun member => ?_
      · rwa [perform_positions_other same acted] at held
      · rwa [loop, Monitor.record_did_other _ same] at member
  | event event world happened =>
    rcases works with held | member
    · rcases happen_assigns happened held with before | ⟨consumer, partition, rfl, place⟩
      · exact .inl (.inl before)
      · exact .inr ⟨consumer, partition, rfl, place⟩
    · exact .inl (.inr member)
  | start actor call unused =>
    refine .inl (works.imp id fun member => ?_)
    by_cases same : thread = actor
    · subst same
      cases call <;> simp [loop, Monitor.record, Loop.monitor, Loop.onHand] at member
    · simpa [loop, Monitor.record, same] using member
  | again actor call next result ended loops =>
    refine .inl (works.imp id fun member => ?_)
    by_cases same : thread = actor
    · subst same
      cases next <;> simp [loop, Monitor.record, Loop.monitor, Loop.onHand] at member
    · simpa [loop, Monitor.record, same] using member
  | crash actor inFlight =>
    refine .inl (works.imp id fun member => ?_)
    by_cases same : thread = actor
    · subst same
      simp [loop, Monitor.record, Loop.monitor, Loop.onHand] at member
    · simpa [loop, Monitor.record, same] using member

theorem worksOn_assigned (reached : Reachable (system deployment) allows World.empty pool)
    (works : WorksOn deployment pool thread tp) : ∃ consumer partition,
      Label.event (.assign thread consumer partition) ∈ pool.trace ∧
        tp = ⟨consumer.topic deployment.settings, partition⟩ := by
  induction reached with
  | init =>
    rcases works with ⟨⟨⟩⟩ | member
    cases member
  | @step pool label after reached permitted moved ih =>
    rw [step_trace moved]
    rcases worksOn_step moved works with before | ⟨consumer, partition, rfl, place⟩
    · obtain ⟨consumer, partition, member, place⟩ := ih before
      exact ⟨consumer, partition, List.mem_cons_of_mem _ member, place⟩
    · exact ⟨consumer, partition, List.mem_cons_self .., place⟩

/-- Where partitions are handed over, one worker at most works on each. -/
theorem one_worker (handsOver : ∀ pool label, allows pool label → HandsOver deployment pool label)
    (reached : Reachable (system deployment) allows World.empty pool) :
    ∀ first second, WorksOn deployment pool first tp → WorksOn deployment pool second tp →
      first = second := by
  induction reached with
  | init =>
    rintro first second (⟨⟨⟩⟩ | member)
    cases member
  | @step pool label after reached permitted moved ih =>
    intro first second works also
    rcases worksOn_step moved works with before | ⟨consumer, partition, rfl, rfl⟩
    · rcases worksOn_step moved also with alsoBefore | ⟨consumer, partition, rfl, rfl⟩
      · exact ih first second before alsoBefore
      · by_contra differ
        exact handsOver _ _ permitted _ _ _ rfl first differ before
    · rcases worksOn_step moved also with alsoBefore | ⟨other, place, same, _⟩
      · by_contra differ
        exact handsOver _ _ permitted _ _ _ rfl second (Ne.symm differ) alsoBefore
      · cases same
        rfl

end OrderFlow
