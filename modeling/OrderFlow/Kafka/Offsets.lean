import OrderFlow.Frame
import OrderFlow.Kafka.Loop

/-!
Commit discipline over whole runs. Whatever fails, crashes or is rebalanced,
each record below a group's committed offset has had a handler call that
returned COMMIT, and every record handed over was read off its log.
-/
namespace OrderFlow
open AsyncCoroutine AsyncPool

/-- A call of this consumer's `handle` on the record at this place returned COMMIT. -/
def Handled (trace : List Moment) (consumer : Consumer) (tp : TopicPartition) (offset : Nat) :
    Prop :=
  ∃ thread record, Label.did thread (.handleReturn consumer.name record (some .commit)) (.ok ()) ∈
    trace ∧ record.tp = tp ∧ record.offset = offset

/-- The record is the one that stands at its place on the log. -/
def Logged (platform : Platform) (logs : TopicPartition → List LogEntry)
    (record : ConsumerRecord) : Prop :=
  ∃ entry, (logs record.tp)[record.offset]? = some entry ∧
    deserialize platform record.tp record.offset entry.record = some record

def Consecutive (tp : TopicPartition) : Nat → List ConsumerRecord → Prop
  | _, [] => True
  | first, record :: rest =>
      record.tp = tp ∧ record.offset = first ∧ Consecutive tp (first + 1) rest

variable {deployment : Deployment} {thread : Nat} {op : Op} {world after : World} {fate : Fate}
  {outcome : Outcome Exn op.Reply}

theorem Handled.later {trace : List Moment} {consumer : Consumer} {tp : TopicPartition}
    {offset : Nat} (handled : Handled trace consumer tp offset) (label : Moment) :
    Handled (label :: trace) consumer tp offset := by
  obtain ⟨thread, record, member, place⟩ := handled
  exact ⟨thread, record, List.mem_cons_of_mem _ member, place⟩

theorem Logged.grow {platform : Platform} {logs longer : TopicPartition → List LogEntry}
    {record : ConsumerRecord} (logged : Logged platform logs record)
    (grows : ∀ tp, logs tp <+: longer tp) : Logged platform longer record := by
  obtain ⟨entry, found, decoded⟩ := logged
  obtain ⟨bound, rfl⟩ := List.getElem?_eq_some_iff.mp found
  exact ⟨_, List.prefix_iff_getElem?.mp (grows record.tp) _ bound, decoded⟩

theorem append_grows (world : World) (tp : TopicPartition) (record : WireRecord)
    (other : TopicPartition) : world.logs other <+: (world.append tp record).logs other := by
  by_cases same : other = tp
  · subst same
    simp [World.append]
  · simp [World.append, Function.update_of_ne same]

/-- Logs only grow. -/
theorem logs_grow (performed : perform deployment thread op world fate = some (outcome, after))
    (tp : TopicPartition) : world.logs tp <+: after.logs tp := by
  cases op with
  | send topic key value headers =>
    rcases perform_send performed with ⟨_, _, same⟩ | ⟨_, partition, _, same⟩
    · subst same
      exact List.prefix_rfl
    · subst same
      exact append_grows ..
  | _ =>
    have same := congrFun (perform_logs performed rfl) tp
    exact same ▸ List.prefix_rfl

theorem happen_grows {event : Event} (happened : happen deployment event world = some after)
    (tp : TopicPartition) : world.logs tp <+: after.logs tp := by
  rcases happen_logs happened with ⟨same, _⟩ | ⟨produced, record, _, same⟩
  · exact same ▸ List.prefix_rfl
  · subst same
    exact append_grows ..

/-- A partition is taken up from the committed offset. -/
theorem happen_positions {event : Event} {tp : TopicPartition} {position : Nat}
    (happened : happen deployment event world = some after)
    (held : after.positions thread tp = some position) :
    world.positions thread tp = some position ∨ ∃ consumer : Consumer,
      tp.topic = consumer.topic deployment.settings ∧
        position = world.committed (consumer.group deployment.settings) tp := by
  cases event with
  | expire key =>
    simp only [happen] at happened
    split at happened
    · cases happened
      exact .inl held
    · cases happened
  | assign worker consumer partition =>
    cases happened
    simp only [World.setPosition] at held
    by_cases own : thread = worker
    · subst own
      simp only [Function.update_self] at held
      by_cases same : tp = ⟨consumer.topic deployment.settings, partition⟩
      · subst same
        simp only [Function.update_self, Option.some.injEq] at held
        exact .inr ⟨consumer, rfl, held.symm⟩
      · simp only [Function.update_of_ne same] at held
        exact .inl held
    · simp only [Function.update_of_ne own] at held
      exact .inl held
  | revoke worker moved =>
    cases happened
    simp only [World.setPosition] at held
    by_cases own : thread = worker
    · subst own
      simp only [Function.update_self] at held
      by_cases same : tp = moved
      · subst same
        simp at held
      · simp only [Function.update_of_ne same] at held
        exact .inl held
    · simp only [Function.update_of_ne own] at held
      exact .inl held
  | _ =>
    cases happened
    exact .inl held

theorem topic_injective (settings : Settings) {first second : Consumer}
    (same : first.topic settings = second.topic settings) : first = second := by
  obtain ⟨ordersRetry, ordersDlq, retryDlq⟩ := settings.topics_distinct
  cases first <;> cases second <;> simp_all [Consumer.topic, eq_comm]

theorem decoded_segment {platform : Platform} {tp : TopicPartition} {first : Nat}
    {entries : List LogEntry} {records : List ConsumerRecord}
    (decoded : decodeFrom (deserialize platform) tp first entries = some records) :
    Consecutive tp first records ∧ records.length = entries.length ∧
      ∀ record ∈ records, record.tp = tp ∧ first ≤ record.offset ∧
        ∃ entry, entries[record.offset - first]? = some entry ∧
          deserialize platform tp record.offset entry.record = some record := by
  induction entries generalizing first records with
  | nil =>
    cases decoded
    exact ⟨trivial, rfl, by simp⟩
  | cons entry rest ih =>
    simp only [decodeFrom, Option.bind_eq_bind, Option.bind_eq_some_iff, Option.pure_def,
      Option.some.injEq] at decoded
    obtain ⟨record, read, more, decodedMore, rfl⟩ := decoded
    obtain ⟨consecutive, lengths, sources⟩ := ih decodedMore
    have place : record.tp = tp ∧ record.offset = first := by
      simp only [deserialize, Option.bind_eq_bind, Option.bind_eq_some_iff, Option.pure_def,
        Option.some.injEq] at read
      obtain ⟨_, _, _, _, rfl⟩ := read
      exact ⟨rfl, rfl⟩
    refine ⟨⟨place.1, place.2, consecutive⟩, by simp [lengths], ?_⟩
    intro other member
    rcases List.mem_cons.mp member with rfl | later
    · refine ⟨place.1, place.2.ge, entry, ?_, ?_⟩
      · simp [place.2]
      · rw [place.2]
        exact read
    · obtain ⟨sameTp, bound, source, found, readSource⟩ := sources other later
      refine ⟨sameTp, by omega, source, ?_, readSource⟩
      rw [show other.offset - first = (other.offset - (first + 1)) + 1 by omega]
      simpa using found

/-- What a fetch hands over, and where it leaves the worker's positions. -/
theorem fetch_spec {platform : Platform} {topic : String} {plan : List (TopicPartition × Nat)}
    {batch : Batch}
    (fetched : fetch (deserialize platform) thread topic world plan = some (.ok (batch, after))) :
    (∀ segment ∈ batch, segment.1.topic = topic ∧ segment.1 ∈ plan.map Prod.fst ∧
      ∃ position, world.positions thread segment.1 = some position ∧
        Consecutive segment.1 position segment.2 ∧
        after.positions thread segment.1 = some (position + segment.2.length) ∧
        ∀ record ∈ segment.2, Logged platform world.logs record) ∧
    (∀ tp, (∀ records, (tp, records) ∉ batch) →
      after.positions thread tp = world.positions thread tp) := by
  induction plan generalizing world batch with
  | nil =>
    cases fetched
    exact ⟨by simp, fun _ _ => rfl⟩
  | cons entry rest ih =>
    obtain ⟨tp, count⟩ := entry
    obtain ⟨position, records, more, held, sameTopic, positive, enough, absent, decoded,
      fetchedMore, rfl⟩ := fetch_cons fetched
    obtain ⟨segments, others⟩ := ih fetchedMore
    obtain ⟨consecutive, lengths, sources⟩ := decoded_segment decoded
    have moved : ∀ other, other ≠ tp →
        (world.setPosition thread tp (some (position + count))).positions thread other =
          world.positions thread other := by
      intro other differ
      simp [World.setPosition, Function.update_of_ne differ]
    constructor
    · intro segment member
      rcases List.mem_cons.mp member with rfl | later
      · have last : after.positions thread tp = some (position + count) := by
          rw [others tp fun records member => absent (segments _ member).2.1]
          simp [World.setPosition]
        refine ⟨sameTopic, by simp, position, held, consecutive, ?_, ?_⟩
        · rw [last, lengths, enough]
        · intro record member
          obtain ⟨sameTp, bound, source, found, read⟩ := sources record member
          refine ⟨source, ?_, by rw [sameTp]; exact read⟩
          rw [List.getElem?_take_of_lt (by
            have := (List.getElem?_eq_some_iff.mp found).1
            simpa [enough] using this), List.getElem?_drop] at found
          rw [sameTp]
          rwa [Nat.add_sub_cancel' bound] at found
      · obtain ⟨topicSame, planned, at_, started, run, ended, logged⟩ := segments segment later
        have differ : segment.1 ≠ tp := fun same => absent (same ▸ planned)
        refine ⟨topicSame, by simp [planned], at_, ?_, run, ended, logged⟩
        rw [← moved _ differ]
        exact started
    · intro other missing
      have differ : other ≠ tp := fun same => missing records (by simp [same])
      rw [others other fun records member => missing records (List.mem_cons_of_mem _ member),
        moved other differ]

/-! ### The invariant -/

/-- What a worker in its loop knows of the offsets below it. -/
structure Disciplined (deployment : Deployment) (pool : Pipeline) (thread : Nat)
    (consumer : Consumer) (batch : Batch) (turn : Turn) : Prop where
  segments : ∀ segment ∈ batch, segment.1.topic = consumer.topic deployment.settings ∧
    ∃ first, Consecutive segment.1 first segment.2 ∧
      (∀ offset < first, Handled pool.trace consumer segment.1 offset) ∧
      ∀ record ∈ segment.2, Logged deployment.platform pool.world.logs record
  returned : ∀ record, turn = .returned record .commit →
    Handled pool.trace consumer record.tp record.offset
  positions : ∀ tp position, tp.topic = consumer.topic deployment.settings →
    pool.world.positions thread tp = some position → ∀ offset < position,
    Handled pool.trace consumer tp offset ∨
      ∃ segment ∈ batch, segment.1 = tp ∧ ∃ record ∈ segment.2, record.offset = offset

structure LoopInvariant (deployment : Deployment) (pool : Pipeline) : Prop where
  committed : ∀ consumer tp, tp.topic = consumer.topic deployment.settings →
    ∀ offset < pool.world.committed (consumer.group deployment.settings) tp,
    Handled pool.trace consumer tp offset
  running : ∀ thread consumer batch turn,
    (Loop.monitor deployment.settings).record pool.trace thread = .on consumer batch turn →
    Disciplined deployment pool thread consumer batch turn
  unstarted : ∀ thread, pool.Unused thread → ∀ consumer tp position,
    tp.topic = consumer.topic deployment.settings →
    pool.world.positions thread tp = some position → ∀ offset < position,
    Handled pool.trace consumer tp offset

/-- What others do leaves a worker's knowledge standing. -/
theorem Disciplined.kept {pool later : Pipeline} {thread : Nat} {consumer : Consumer}
    {batch : Batch} {turn : Turn}
    (disciplined : Disciplined deployment pool thread consumer batch turn)
    (trace : ∀ consumer tp offset, Handled pool.trace consumer tp offset →
      Handled later.trace consumer tp offset)
    (logs : ∀ tp, pool.world.logs tp <+: later.world.logs tp)
    (positions : ∀ tp, tp.topic = consumer.topic deployment.settings →
      ∀ position, later.world.positions thread tp = some position →
      pool.world.positions thread tp = some position ∨
        ∀ offset < position, Handled later.trace consumer tp offset) :
    Disciplined deployment later thread consumer batch turn where
  segments := by
    intro segment member
    obtain ⟨topic, first, run, below, logged⟩ := disciplined.segments segment member
    exact ⟨topic, first, run, fun offset small => trace _ _ _ (below offset small),
      fun record inside => (logged record inside).grow logs⟩
  returned := fun record same => trace _ _ _ (disciplined.returned record same)
  positions := by
    intro tp position topic held offset small
    rcases positions tp topic position held with before | below
    · exact (disciplined.positions tp position topic before offset small).imp (trace _ _ _) id
    · exact .inl (below offset small)

theorem Consecutive.place {tp : TopicPartition} {first : Nat} {records : List ConsumerRecord}
    (run : Consecutive tp first records) :
    ∀ offset, first ≤ offset → offset < first + records.length →
      ∃ record ∈ records, record.offset = offset := by
  induction records generalizing first with
  | nil =>
    intro offset low high
    simp only [List.length_nil] at high
    omega
  | cons record rest ih =>
    obtain ⟨_, here, later⟩ := run
    intro offset low high
    by_cases same : offset = first
    · exact ⟨record, by simp, by omega⟩
    · simp only [List.length_cons] at high
      obtain ⟨found, member, place⟩ := ih later offset (by omega) (by omega)
      exact ⟨found, List.mem_cons_of_mem _ member, place⟩

theorem ready_subset (batch : Batch) : ready batch ⊆ batch := by
  induction batch with
  | nil => exact List.Subset.refl _
  | cons segment rest ih =>
    obtain ⟨tp, records⟩ := segment
    cases records with
    | nil => exact List.subset_cons_of_subset _ ih
    | cons record more => exact List.Subset.refl _

theorem mem_ready {batch : Batch} {segment : TopicPartition × List ConsumerRecord}
    (member : segment ∈ batch) {record : ConsumerRecord} (inside : record ∈ segment.2) :
    segment ∈ ready batch := by
  induction batch with
  | nil => cases member
  | cons first rest ih =>
    obtain ⟨tp, records⟩ := first
    cases records with
    | nil =>
      rcases List.mem_cons.mp member with rfl | later
      · cases inside
      · exact ih later
    | cons head more => exact member

variable {pool : Pipeline} {consumer : Consumer} {batch : Batch} {turn : Turn}

theorem getmany_disciplined {topic : String} {fetched : Batch} {label : Moment}
    (disciplined : Disciplined deployment pool thread consumer [] turn)
    (sameTopic : topic = consumer.topic deployment.settings) {oracle : Oracle}
    (answered : answer deployment thread (.getmany topic) pool.world oracle =
      some (.ok fetched, after)) {threads} :
    Disciplined deployment ⟨after, threads, label :: pool.trace⟩ thread consumer (ready fetched)
      .idle := by
  obtain ⟨segments, others⟩ := fetch_spec (answer_getmany answered)
  have logs : after.logs = pool.world.logs := by rw [fetch_world (answer_getmany answered)]
  have below : ∀ tp position, tp.topic = consumer.topic deployment.settings →
      pool.world.positions thread tp = some position → ∀ offset < position,
      Handled (label :: pool.trace) consumer tp offset := by
    intro tp position topic held offset small
    rcases disciplined.positions tp position topic held offset small with handled | waiting
    · exact handled.later label
    · simp at waiting
  refine ⟨?_, by simp, ?_⟩
  · intro segment member
    obtain ⟨topicSame, _, position, held, run, _, logged⟩ :=
      segments segment (ready_subset _ member)
    have atTopic := topicSame.trans sameTopic
    refine ⟨atTopic, position, run, below _ _ atTopic held, ?_⟩
    rw [logs]
    exact logged
  · intro tp position atTopic held offset small
    by_cases fresh : ∃ records, (tp, records) ∈ fetched
    · obtain ⟨records, member⟩ := fresh
      obtain ⟨_, _, start, started, run, ended, _⟩ := segments _ member
      simp only at held ended
      rw [ended] at held
      cases held
      by_cases early : offset < start
      · exact .inl (below tp start atTopic started offset early)
      · obtain ⟨record, inside, place⟩ := run.place offset (by omega) small
        exact .inr ⟨_, mem_ready member inside, rfl, record, inside, place⟩
    · rw [others tp fun records member => fresh ⟨records, member⟩] at held
      exact .inl (below tp position atTopic held offset small)

theorem seek_disciplined {tp : TopicPartition} {record : ConsumerRecord} {label : Moment}
    (disciplined : Disciplined deployment pool thread consumer batch turn)
    (head : Loop.Next batch tp record) {threads} :
    Disciplined deployment ⟨pool.world.setPosition thread tp (some record.offset), threads,
      label :: pool.trace⟩ thread consumer (ready batch.tail) .idle := by
  obtain ⟨rest, more, rfl⟩ := head
  refine ⟨?_, by simp, ?_⟩
  · intro segment member
    obtain ⟨topic, first, run, below, logged⟩ :=
      disciplined.segments segment (List.mem_cons_of_mem _ (ready_subset _ member))
    exact ⟨topic, first, run, fun offset small => (below offset small).later label, logged⟩
  · intro other position topic held offset small
    by_cases same : other = tp
    · subst same
      simp only [World.setPosition, Function.update_self, Option.some.injEq] at held
      subst held
      obtain ⟨_, first, run, below, _⟩ := disciplined.segments _ (List.mem_cons_self ..)
      obtain ⟨_, place, _⟩ := run
      exact .inl ((below offset (by omega)).later label)
    · simp only [World.setPosition, Function.update_self, Function.update_of_ne same] at held
      rcases disciplined.positions other position topic held offset small with handled | waiting
      · exact .inl (handled.later label)
      · obtain ⟨segment, member, atOther, waitingRecord, inside, place⟩ := waiting
        have later : segment ∈ more := by
          rcases List.mem_cons.mp member with rfl | later
          · exact absurd atOther.symm same
          · exact later
        exact .inr ⟨segment, mem_ready later inside, atOther, waitingRecord, inside, place⟩

theorem commit_disciplined {tp : TopicPartition} {record : ConsumerRecord} (label : Moment)
    (threads : Nat → Option (Thread Op Op.Reply Exn Call Result))
    (disciplined : Disciplined deployment pool thread consumer batch (.returned record .commit))
    (head : Loop.Next batch tp record) (logs : after.logs = pool.world.logs)
    (positions : after.positions = pool.world.positions) :
    (∀ offset < record.offset + 1, Handled (label :: pool.trace) consumer tp offset) ∧
    Disciplined deployment ⟨after, threads, label :: pool.trace⟩ thread consumer
      (Loop.advance batch) .idle := by
  obtain ⟨rest, more, rfl⟩ := head
  obtain ⟨topic, first, run, below, logged⟩ := disciplined.segments _ (List.mem_cons_self ..)
  obtain ⟨sameTp, place, run⟩ := run
  have upTo : ∀ offset < record.offset + 1,
      Handled (label :: pool.trace) consumer tp offset := by
    intro offset small
    by_cases last : offset = record.offset
    · subst last
      have handled := (disciplined.returned record rfl).later label
      rwa [show record.tp = tp from sameTp] at handled
    · exact (below offset (by omega)).later label
  refine ⟨upTo, ?_, by simp, ?_⟩
  · intro segment member
    rcases List.mem_cons.mp (ready_subset _ member) with rfl | later
    · refine ⟨topic, first + 1, run, fun offset small => upTo offset (by omega), ?_⟩
      rw [logs]
      exact fun record inside => logged record (List.mem_cons_of_mem _ inside)
    · obtain ⟨topic, first, run, below, logged⟩ :=
        disciplined.segments segment (List.mem_cons_of_mem _ later)
      rw [logs]
      exact ⟨topic, first, run, fun offset small => (below offset small).later label, logged⟩
  · intro other position topic held offset small
    rw [positions] at held
    rcases disciplined.positions other position topic held offset small with handled | waiting
    · exact .inl (handled.later label)
    · obtain ⟨segment, member, atOther, waitingRecord, inside, waits⟩ := waiting
      rcases List.mem_cons.mp member with rfl | later
      · rcases List.mem_cons.mp inside with rfl | after
        · subst atOther waits
          exact .inl (upTo _ (Nat.lt_succ_self _))
        · exact .inr ⟨(tp, rest), mem_ready (List.mem_cons_self ..) after, atOther, waitingRecord,
            after, waits⟩
      · exact .inr ⟨segment, mem_ready (List.mem_cons_of_mem _ later) inside, atOther,
          waitingRecord, inside, waits⟩

theorem unused_before {label : Moment} {threads : Nat → Option (Thread Op Op.Reply Exn Call Result)}
    {other : Nat} (unused : Pool.Unused ⟨after, threads, label :: pool.trace⟩ other) :
    pool.Unused other :=
  fun past member => unused past (List.mem_cons_of_mem _ member)

theorem Disciplined.observed {later : Pipeline} {label : Moment}
    (disciplined : Disciplined deployment pool thread consumer batch turn)
    (trace : later.trace = label :: pool.trace)
    (logs : ∀ tp, pool.world.logs tp <+: later.world.logs tp)
    (positions : later.world.positions thread = pool.world.positions thread) :
    Disciplined deployment later thread consumer batch turn := by
  refine disciplined.kept ?_ logs fun tp _ position held => .inl (positions ▸ held)
  intro consumer tp offset handled
  rw [trace]
  exact handled.later label

variable {allows : Pipeline → Moment → Prop} {call : Call}
  {resume : Except Exn op.Reply → Prog Result}

/-- A step of the worker itself. -/
theorem own_disciplined (invariant : LoopInvariant deployment pool)
    (permitted : (Loop.monitor deployment.settings).allowed
      ((Loop.monitor deployment.settings).record pool.trace thread) op)
    (performed : perform deployment thread op pool.world fate = some (outcome, after)) {threads}
    (reached : (Loop.monitor deployment.settings).next
      ((Loop.monitor deployment.settings).record pool.trace thread) op outcome =
        .on consumer batch turn) :
    Disciplined deployment ⟨after, threads, .did thread op outcome :: pool.trace⟩ thread consumer
      batch turn := by
  cases before : (Loop.monitor deployment.settings).record pool.trace thread with
  | off =>
    rw [before] at reached
    cases reached
  | on worker held round =>
    have disciplined := invariant.running thread worker held round before
    rw [before] at permitted reached
    have observed : ∀ {stays : Batch} {next : Turn}, op.onPositions = false →
        Disciplined deployment pool thread worker stays next →
        Disciplined deployment ⟨after, threads, .did thread op outcome :: pool.trace⟩ thread worker
          stays next := fun other known =>
      known.observed rfl (logs_grow performed) (congrFun (perform_positions performed other) _)
    cases op with
    | getmany topic =>
      obtain ⟨sameTopic, rfl, rfl⟩ := permitted
      rcases perform_cases performed with ⟨_, rfl, _⟩ | ⟨fetched, oracle, answered, took⟩
      · cases reached
      · rcases took with rfl | ⟨_, rfl⟩
        · cases reached
          exact getmany_disciplined disciplined sameTopic answered
        · cases reached
    | seek tp offset =>
      obtain ⟨record, head, rfl, rfl⟩ := permitted
      rcases perform_seek performed with ⟨_, rfl, _⟩ | ⟨rfl | ⟨_, rfl⟩, rfl⟩
      · cases reached
      · cases reached
        exact seek_disciplined disciplined head
      · cases reached
    | commitOffset group tp offset =>
      obtain ⟨record, head, rfl, rfl, rfl⟩ := permitted
      have logs := perform_logs performed rfl
      have positions := perform_positions performed rfl
      rcases perform_commitOffset performed with ⟨_, rfl, _⟩ | ⟨rfl | ⟨_, rfl⟩, _⟩
      · cases reached
      · cases reached
        exact (commit_disciplined _ _ disciplined head logs positions).2
      · cases reached
    | handleCall name record =>
      cases reached
      exact observed rfl ⟨disciplined.segments, by simp, disciplined.positions⟩
    | handleReturn name record result =>
      obtain ⟨rfl, rfl, _⟩ := permitted
      have kept : Disciplined deployment ⟨after, threads, .did thread _ outcome :: pool.trace⟩ thread
          worker held (.inside record) :=
        observed rfl ⟨disciplined.segments, by simp, disciplined.positions⟩
      cases result with
      | none =>
        cases reached
        exact ⟨kept.segments, by simp, kept.positions⟩
      | some ack =>
        cases outcome with
        | ok value =>
          cases reached
          refine ⟨kept.segments, ?_, kept.positions⟩
          rintro _ ⟨⟩
          exact ⟨thread, record, List.mem_cons_self .., rfl, rfl⟩
        | lost error =>
          cases reached
          exact kept
        | late error =>
          cases reached
          exact kept
    | stopConsumer =>
      cases reached
      rcases perform_cases performed with ⟨_, _, rfl⟩ | ⟨value, oracle, answered, _⟩
      · exact disciplined.observed rfl (fun _ => List.prefix_rfl) rfl
      · cases answered
        refine disciplined.kept (fun _ _ _ handled => handled.later _)
          (fun _ => List.prefix_rfl) ?_
        intro tp _ position held
        simp at held
    | _ =>
      cases reached
      exact observed rfl disciplined

/-- A commit takes the group no further than its handled records. -/
theorem own_committed (invariant : LoopInvariant deployment pool)
    (permitted : (Loop.monitor deployment.settings).allowed
      ((Loop.monitor deployment.settings).record pool.trace thread) op)
    (performed : perform deployment thread op pool.world fate = some (outcome, after))
    (tp : TopicPartition) (topic : tp.topic = consumer.topic deployment.settings) (offset : Nat)
    (small : offset < after.committed (consumer.group deployment.settings) tp) :
    Handled (.did thread op outcome :: pool.trace) consumer tp offset := by
  have before : after.committed = pool.world.committed →
      Handled (.did thread op outcome :: pool.trace) consumer tp offset := by
    intro same
    rw [same] at small
    exact (invariant.committed consumer tp topic offset small).later _
  cases op with
  | commitOffset group moved position =>
    have logs := perform_logs performed rfl
    have positions := perform_positions performed rfl
    rcases perform_commitOffset performed with ⟨_, _, rfl⟩ | ⟨_, commits⟩
    · exact before rfl
    · cases state : (Loop.monitor deployment.settings).record pool.trace thread with
      | off =>
        rw [state] at permitted
        cases permitted
      | on worker batch turn =>
        rw [state] at permitted
        obtain ⟨record, head, rfl, rfl, rfl⟩ := permitted
        have disciplined := invariant.running thread worker batch _ state
        have upTo := (commit_disciplined (.did thread _ outcome) pool.threads disciplined head logs
          positions).1
        rw [commits] at small
        by_cases sameGroup : consumer.group deployment.settings = worker.group deployment.settings
        · by_cases samePlace : tp = moved
          · subst samePlace
            obtain ⟨rest, more, rfl⟩ := head
            have atTopic := (disciplined.segments _ (List.mem_cons_self ..)).1
            obtain rfl := topic_injective deployment.settings (topic.symm.trans atTopic)
            simp only [Function.update_self] at small
            exact upTo offset small
          · simp only [sameGroup, Function.update_self, Function.update_of_ne samePlace] at small
            rw [← sameGroup] at small
            exact (invariant.committed consumer tp topic offset small).later _
        · simp only [Function.update_of_ne sameGroup] at small
          exact (invariant.committed consumer tp topic offset small).later _
  | _ => exact before (perform_committed performed rfl)

/-- The invariant of every run, whatever handlers the workers run. -/
theorem workers_invariant {handles : Consumer → ConsumerRecord → Prog Ack}
    (inner : ∀ consumer record, (handles consumer record).Uses Inner)
    (reached : Reachable (workers deployment handles) allows World.empty pool) :
    LoopInvariant deployment pool := by
  have keeps := Loop.keeps_workers deployment handles inner
  induction reached with
  | init =>
    refine ⟨?_, ?_, ?_⟩
    · intro consumer tp _ offset small
      simp [Pool.initial, World.empty] at small
    · intro thread consumer batch turn known
      cases known
    · intro thread _ consumer tp position _ held
      simp [Pool.initial, World.empty] at held
  | @step pool label after reached permitted moved ih =>
    have handled : ∀ consumer tp offset, Handled pool.trace consumer tp offset →
        Handled after.trace consumer tp offset := by
      intro consumer tp offset handled
      rw [step_trace moved]
      exact handled.later label
    cases moved with
    | start thread call unused =>
      refine ⟨fun consumer tp topic offset small => handled _ _ _
        (ih.committed consumer tp topic offset small), ?_, ?_⟩
      · intro other consumer batch turn known
        by_cases same : other = thread
        · subst same
          simp only [Monitor.record, ↓reduceIte] at known
          cases call with
          | worker worker =>
            cases known
            refine ⟨by simp, by simp, ?_⟩
            intro tp position topic held offset small
            exact .inl (handled _ _ _ (ih.unstarted other unused _ tp position topic held offset small))
          | _ => cases known
        · simp only [Monitor.record, same, ↓reduceIte] at known
          exact (ih.running other consumer batch turn known).observed rfl
            (fun _ => List.prefix_rfl) rfl
      · intro other unusedLater consumer tp position topic held offset small
        exact handled _ _ _
          (ih.unstarted other (unused_before unusedLater) consumer tp position topic held offset small)
    | did thread call op resume fate outcome world awaiting performed =>
      have permits := Monitor.allowed_of_awaiting keeps reached awaiting
      refine ⟨fun consumer tp topic offset small => own_committed ih permits performed tp topic
        offset small, ?_, ?_⟩
      · intro other consumer batch turn known
        by_cases same : other = thread
        · subst same
          rw [Monitor.record_did_self] at known
          exact own_disciplined ih permits performed known
        · rw [Monitor.record_did_other _ same] at known
          exact (ih.running other consumer batch turn known).observed rfl (logs_grow performed)
            (perform_positions_other same performed)
      · intro other unused consumer tp position topic held offset small
        by_cases same : other = thread
        · subst same
          exact absurd (unused_before unused) (started_of_held reached other _ awaiting)
        · simp only [perform_positions_other same performed] at held
          exact handled _ _ _
            (ih.unstarted other (unused_before unused) consumer tp position topic held offset small)
    | again thread call next result ended loops =>
      refine ⟨fun consumer tp topic offset small => handled _ _ _
        (ih.committed consumer tp topic offset small), ?_, ?_⟩
      · intro other consumer batch turn known
        by_cases same : other = thread
        · subst same
          have left := Monitor.follows_of_reachable keeps reached other _ ended
          obtain ⟨worker, rfl, rfl, rfl⟩ : ∃ worker, call = .worker worker ∧
              result = .pass true ∧ next = .worker worker := by
            simp only [workers, system, OrderFlow.again] at loops
            split at loops
            · cases loops
              exact ⟨_, rfl, rfl, rfl⟩
            · cases loops
          simp only [Monitor.record, ↓reduceIte] at known
          cases known
          exact (ih.running other consumer [] .idle (left rfl)).observed rfl
            (fun _ => List.prefix_rfl) rfl
        · simp only [Monitor.record, same, ↓reduceIte] at known
          exact (ih.running other consumer batch turn known).observed rfl
            (fun _ => List.prefix_rfl) rfl
      · intro other unused consumer tp position topic held offset small
        exact handled _ _ _
          (ih.unstarted other (unused_before unused) consumer tp position topic held offset small)
    | crash thread running =>
      refine ⟨fun consumer tp topic offset small => handled _ _ _
        (ih.committed consumer tp topic offset small), ?_, ?_⟩
      · intro other consumer batch turn known
        by_cases same : other = thread
        · subst same
          simp only [Monitor.record, ↓reduceIte] at known
          cases known
        · simp only [Monitor.record, same, ↓reduceIte] at known
          exact (ih.running other consumer batch turn known).observed rfl
            (fun _ => List.prefix_rfl) rfl
      · intro other unused consumer tp position topic held offset small
        exact handled _ _ _
          (ih.unstarted other (unused_before unused) consumer tp position topic held offset small)
    | event event world happened =>
      have below : ∀ consumer tp position thread, tp.topic = consumer.topic deployment.settings →
          world.positions thread tp = some position →
          pool.world.positions thread tp = some position ∨
            ∀ offset < position, Handled (.event event :: pool.trace) consumer tp offset := by
        intro consumer tp position thread topic held
        rcases happen_positions happened held with before | ⟨owner, atTopic, rfl⟩
        · exact .inl before
        · obtain rfl := topic_injective deployment.settings (topic.symm.trans atTopic)
          exact .inr fun offset small =>
            (ih.committed consumer tp topic offset small).later _
      refine ⟨?_, ?_, ?_⟩
      · intro consumer tp topic offset small
        simp only [(happen_frame happened).2.2.2.1] at small
        exact handled _ _ _ (ih.committed consumer tp topic offset small)
      · intro thread consumer batch turn known
        exact (ih.running thread consumer batch turn known).kept handled (happen_grows happened)
          fun tp topic position held => below consumer tp position thread topic held
      · intro thread unused consumer tp position topic held offset small
        rcases below consumer tp position thread topic held with before | handledBelow
        · exact handled _ _ _
            (ih.unstarted thread (unused_before unused) consumer tp position topic before offset small)
        · exact handledBelow offset small

theorem loop_invariant (reached : Reachable (system deployment) allows World.empty pool) :
    LoopInvariant deployment pool := by
  rw [system_workers] at reached
  exact workers_invariant (handle_inner deployment) reached

end OrderFlow
