import OrderFlow.Kafka.Offsets
import OrderFlow.Runs.Rows

/-!
Where records come from. A call of `handle` is on a record that stands on the log
of its consumer's topic, from its beginning to the answer the loop commits on.
-/
namespace OrderFlow
open AsyncCoroutine AsyncPool

variable {deployment : Deployment} {allows : Pipeline → Moment → Prop} {pool after : Pipeline}
  {thread : Nat} {op : Op} {outcome : Outcome Exn op.Reply}

namespace Stage

/-- The consumer whose `handle` the thread is in, as far as its stage tells. -/
def consumer : Stage deployment → Option Consumer
  | .entered _ => some .processor
  | .claiming _ _ _ => some .processor
  | .holding _ _ _ => some .processor
  | .settled _ _ => some .processor
  | .relaying _ => some .retry
  | .relayed _ => some .retry
  | .archiving _ => some .dlq
  | _ => none

theorem called_record (name : String) (record : ConsumerRecord) :
    (called deployment name record).record = some record := by
  simp only [called]
  split
  · rfl
  · split <;> rfl

theorem called_consumer (consumer : Consumer) (record : ConsumerRecord) :
    (called deployment consumer.name record).consumer = some consumer := by
  cases consumer <;> rfl

variable {before later : Stage deployment}

/-- A call keeps its record from `handleCall` on. -/
theorem Progress.record (moved : Progress before op outcome later) {record : ConsumerRecord}
    (inCall : later.record = some record) :
    before.record = some record ∧ (later.consumer = none ∨ later.consumer = before.consumer) ∨
      ∃ name, op = .handleCall name record ∧
        (later.consumer = none ∨ later = Stage.called deployment name record) := by
  cases moved with
  | called name handed =>
    rw [called_record] at inCall
    cases inCall
    exact .inr ⟨name, rfl, .inr rfl⟩
  | fails stage failed within =>
    cases inCall
    rcases within with ⟨_, name, same⟩ | within
    · exact .inr ⟨name, same, .inl rfl⟩
    · exact .inl ⟨within, .inl rfl⟩
  | releases => exact .inl ⟨inCall, .inl rfl⟩
  | idles | submits | reads | returns => cases inCall
  | _ => exact .inl ⟨inCall, .inr rfl⟩

/-- An answer is given from a stage that knows its consumer and record. -/
theorem answering {name : String} {record : ConsumerRecord} {ack : Ack}
    (permitted : before.allowed deployment (.handleReturn name record (some ack))) :
    ∃ consumer, before.consumer = some consumer ∧ name = consumer.name ∧
      before.record = some record := by
  cases before with
  | claiming delivery token taken =>
    obtain ⟨_, rfl, rfl, _⟩ := permitted
    exact ⟨.processor, rfl, rfl, rfl⟩
  | holding delivery token phase =>
    cases phase with
    | closed verdict =>
      obtain ⟨rfl, rfl, _⟩ := permitted
      exact ⟨.processor, rfl, rfl, rfl⟩
    | moved aim reason | towards aim reason | sent aim => cases aim <;> exact permitted.elim
    | _ => exact permitted.elim
  | settled handled verdict =>
    obtain ⟨rfl, rfl, _⟩ := permitted
    exact ⟨.processor, rfl, rfl, rfl⟩
  | relayed handled =>
    obtain ⟨rfl, rfl, _⟩ := permitted
    exact ⟨.retry, rfl, rfl, rfl⟩
  | archiving handled =>
    obtain ⟨rfl, rfl⟩ := permitted
    exact ⟨.dlq, rfl, rfl, rfl⟩
  | leaving handled => cases permitted.2
  | submitting submission => cases submission <;> exact permitted.elim
  | _ => exact permitted.elim

end Stage

theorem step_logs {label : Moment} (moved : Step (system deployment) pool label after)
    (tp : TopicPartition) : pool.world.logs tp <+: after.world.logs tp := by
  cases moved with
  | did thread call op resume fate outcome world awaiting performed => exact logs_grow performed tp
  | event event world happened => exact happen_grows happened tp
  | _ => exact List.prefix_rfl

/-- The record stands on the log of its consumer's topic. -/
structure Handed (deployment : Deployment) (pool : Pipeline) (consumer : Consumer)
    (record : ConsumerRecord) : Prop where
  logged : Logged deployment.platform pool.world.logs record
  topic : record.topic = consumer.topic deployment.settings

theorem Handed.place {consumer : Consumer} {record : ConsumerRecord}
    (handed : Handed deployment pool consumer record) :
    record.tp = ⟨consumer.topic deployment.settings, record.partition⟩ := by
  rw [ConsumerRecord.tp, handed.topic]

/-- Records at one place of a log are one record. -/
theorem Handed.unique {consumer : Consumer} {first second : ConsumerRecord}
    (handed : Handed deployment pool consumer first)
    (also : Handed deployment pool consumer second) (partition : first.partition = second.partition)
    (offset : first.offset = second.offset) : first = second := by
  obtain ⟨entry, found, decoded⟩ := handed.logged
  obtain ⟨entry', found', decoded'⟩ := also.logged
  have place : first.tp = second.tp := by rw [handed.place, also.place, partition]
  rw [place, offset] at found decoded
  rw [found] at found'
  cases found'
  rw [decoded] at decoded'
  exact Option.some.inj decoded'

theorem Handed.later {consumer : Consumer} {record : ConsumerRecord} {label : Moment}
    (handed : Handed deployment pool consumer record)
    (moved : Step (system deployment) pool label after) :
    Handed deployment after consumer record :=
  ⟨handed.logged.grow (step_logs moved), handed.topic⟩

/-- The loop hands over a record it read off the log. -/
theorem handed_over (reached : Reachable (system deployment) allows World.empty pool)
    {name : String} {record : ConsumerRecord}
    (looped : (Loop.monitor deployment.settings).allowed
      ((Loop.monitor deployment.settings).record pool.trace thread) (.handleCall name record)) :
    ∃ consumer, name = consumer.name ∧ Handed deployment pool consumer record := by
  cases state : (Loop.monitor deployment.settings).record pool.trace thread with
  | off =>
    rw [state] at looped
    cases looped
  | on consumer batch turn =>
    rw [state] at looped
    obtain ⟨rfl, _, tp, rest, more, rfl⟩ := looped
    have disciplined := (loop_invariant reached).running thread consumer _ turn state
    obtain ⟨topic, first, run, _, logged⟩ := disciplined.segments _ (List.mem_cons_self ..)
    refine ⟨consumer, rfl, logged record (List.mem_cons_self ..), ?_⟩
    obtain ⟨place, _⟩ := run
    rw [← topic, ← place]
    rfl

/-- What a thread's stage says of the record it is handling. -/
theorem handling (reached : Reachable (system deployment) allows World.empty pool) (thread : Nat)
    (record : ConsumerRecord) (inCall : (stage deployment pool thread).record = some record) :
    ∃ consumer, Handed deployment pool consumer record ∧
      ∀ known, (stage deployment pool thread).consumer = some known → known = consumer := by
  refine each_stage (P := fun pool _ stage => ∀ record, stage.record = some record →
    ∃ consumer, Handed deployment pool consumer record ∧
      ∀ known, stage.consumer = some known → known = consumer)
    ?_ ?_ ?_ reached thread record inCall
  · rintro pool thread stage (_ | _ | _ | _) record ⟨⟩
  · intro pool label after _ _ moved thread stage _ known record inCall
    obtain ⟨consumer, handed, only⟩ := known record inCall
    exact ⟨consumer, handed.later moved, only⟩
  · intro pool after thread op outcome reached _ _ act known record inCall
    have grown : ∀ {consumer}, Handed deployment pool consumer record →
        Handed deployment after consumer record := by
      intro consumer handed
      obtain ⟨fate, performed⟩ := act.performed
      exact ⟨handed.logged.grow (logs_grow performed), handed.topic⟩
    rcases act.progress.record inCall with ⟨before, same⟩ | ⟨name, rfl, same⟩
    · obtain ⟨consumer, handed, only⟩ := known record before
      refine ⟨consumer, grown handed, fun now holds => ?_⟩
      rcases same with none | same
      · rw [none] at holds
        cases holds
      · exact only now (same ▸ holds)
    · obtain ⟨consumer, rfl, handed⟩ := handed_over reached act.looped
      refine ⟨consumer, grown handed, fun now holds => ?_⟩
      rcases same with none | same
      · rw [none] at holds
        cases holds
      · rw [same, Stage.called_consumer] at holds
        cases holds
        rfl

/-- The records of the processor's calls stand on `orders.created`. -/
theorem handled_by (thread : Nat)
    (reached : Reachable (system deployment) allows World.empty pool) {consumer : Consumer} {record : ConsumerRecord}
    (inCall : (stage deployment pool thread).record = some record)
    (known : (stage deployment pool thread).consumer = some consumer) :
    Handed deployment pool consumer record := by
  obtain ⟨owner, handed, only⟩ := handling reached thread record inCall
  rw [only consumer known]
  exact handed

/-! ### Answered calls -/

/-- A call of this consumer's `handle` on the record returned COMMIT. -/
def Committed (trace : List Moment) (consumer : Consumer) (record : ConsumerRecord) : Prop :=
  ∃ thread, Label.did thread (.handleReturn consumer.name record (some .commit)) (.ok ()) ∈ trace

theorem name_injective {first second : Consumer} (same : first.name = second.name) :
    first = second := by
  cases first <;> cases second <;> first | rfl | exact absurd same (by decide)

/-- A fact that holds where an answer is given, and is never lost, holds of every
    record whose call returned COMMIT. -/
theorem each_answer {P : Pipeline → Consumer → ConsumerRecord → Prop}
    (stays : ∀ pool label after, Reachable (system deployment) allows World.empty pool →
      allows pool label → Step (system deployment) pool label after →
      ∀ consumer record, P pool consumer record → P after consumer record)
    (answers : ∀ pool thread consumer record,
      Reachable (system deployment) allows World.empty pool →
      (stage deployment pool thread).allowed deployment
        (.handleReturn consumer.name record (some .commit)) →
      (stage deployment pool thread).consumer = some consumer →
      (stage deployment pool thread).record = some record → P pool consumer record)
    (reached : Reachable (system deployment) allows World.empty pool) {consumer : Consumer}
    {record : ConsumerRecord} (committed : Committed pool.trace consumer record) :
    P pool consumer record := by
  induction reached with
  | init =>
    obtain ⟨thread, ⟨⟩⟩ := committed
  | @step pool label after reached permitted moved ih =>
    obtain ⟨thread, member⟩ := committed
    rw [step_trace moved] at member
    rcases List.mem_cons.mp member with rfl | before
    · refine stays _ _ _ reached permitted moved _ _ ?_
      rcases step_cases reached moved with ⟨actor, op, outcome, same, act⟩ | ⟨actor, turn⟩ |
        ⟨event, same, _⟩
      · cases same
        obtain ⟨known, consumes, name, inCall⟩ := Stage.answering act.permitted
        obtain rfl := name_injective name
        exact answers pool thread _ record reached act.permitted consumes inCall
      · rcases turn.own with ⟨_, same, _⟩ | ⟨_, same, _⟩ | ⟨same, _⟩ <;> cases same
      · cases same
    · exact stays _ _ _ reached permitted moved _ _ (ih ⟨thread, before⟩)

theorem committed_handed (reached : Reachable (system deployment) allows World.empty pool)
    {consumer : Consumer} {record : ConsumerRecord}
    (committed : Committed pool.trace consumer record) : Handed deployment pool consumer record := by
  refine each_answer (P := fun pool consumer record => Handed deployment pool consumer record)
    (fun _ _ _ _ _ moved _ _ handed => handed.later moved) ?_ reached committed
  intro pool thread consumer record reached _ consumes inCall
  exact handled_by thread reached inCall consumes

/-- Whatever is below a committed offset was handed over, and its call returned COMMIT. -/
theorem committed_past (reached : Reachable (system deployment) allows World.empty pool)
    {consumer : Consumer} {partition offset : Nat}
    (past : offset < pool.world.committed (consumer.group deployment.settings)
      ⟨consumer.topic deployment.settings, partition⟩) :
    ∃ record, record.partition = partition ∧ record.offset = offset ∧
      Handed deployment pool consumer record ∧ Committed pool.trace consumer record := by
  obtain ⟨thread, record, member, place, rfl⟩ :=
    (loop_invariant reached).committed consumer _ rfl offset past
  have committed : Committed pool.trace consumer record := ⟨thread, member⟩
  exact ⟨record, congrArg TopicPartition.partition place, rfl, committed_handed reached committed,
    committed⟩

end OrderFlow
