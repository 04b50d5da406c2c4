import OrderFlow.Kafka.Offsets

/-!
What one worker hands over of one partition. Whatever the handlers answer and
whatever becomes of the other partitions, the next record of a partition follows
from the calls made on that partition alone.
-/
namespace OrderFlow
open AsyncCoroutine AsyncPool

/-! ### Reading a run -/

/-- The offset and the result of a call of `handle` on this partition that has ended. -/
def answerOf (thread : Nat) (tp : TopicPartition) : Moment → Option (Nat × Option Ack)
  | .did worker (.handleReturn _ record result) _ =>
      if worker = thread ∧ record.tp = tp then some (record.offset, result) else none
  | _ => none

/-- The calls of this run that have ended, the last one first. -/
def answers (thread : Nat) (tp : TopicPartition) (trace : List Moment) : List (Nat × Option Ack) :=
  trace.filterMap (answerOf thread tp)

def fetchOf (thread : Nat) : Moment → Option Batch
  | .did worker (.getmany _) (.ok batch) => if worker = thread then some batch else none
  | _ => none

/-- What happened after the worker's last fetch. -/
def sinceFetch (thread : Nat) (trace : List Moment) : List Moment :=
  trace.takeWhile fun label => (fetchOf thread label).isNone

def lastFetch (thread : Nat) (trace : List Moment) : Option Batch := trace.findSome? (fetchOf thread)

/-- Where a run goes on in a partition after its last call. -/
def due : List (Nat × Option Ack) → Option Nat
  | [] => none
  | (offset, some .commit) :: _ => some (offset + 1)
  | (offset, _) :: _ => some offset

def committedAll (records : List ConsumerRecord) : List (Nat × Option Ack) :=
  records.map fun record => (record.offset, some .commit)

/-- The calls on the records of one partition of a batch, oldest first: all of them
    returned COMMIT, or the first that did not is the last that was made. -/
def Settled : List ConsumerRecord → List (Nat × Option Ack) → Prop
  | [], calls => calls = []
  | record :: rest, (offset, result) :: calls =>
      offset = record.offset ∧ if result = some .commit then Settled rest calls else calls = []
  | _ :: _, [] => False

/-- The records of one partition in a batch. -/
def segment (batch : Batch) (tp : TopicPartition) : List ConsumerRecord :=
  batch.flatMap fun part => if part.1 = tp then part.2 else []

variable {deployment : Deployment} {thread : Nat} {tp : TopicPartition} {trace : List Moment}
  {label : Moment} {batch more : Batch} {record : ConsumerRecord} {records rest : List ConsumerRecord}

theorem answers_cons : answers thread tp (label :: trace) =
    (answerOf thread tp label).toList ++ answers thread tp trace := by
  unfold answers
  cases found : answerOf thread tp label <;> simp [found]

theorem answers_same (silent : answerOf thread tp label = none) :
    answers thread tp (label :: trace) = answers thread tp trace := by
  rw [answers_cons, silent]
  rfl

theorem sinceFetch_same (other : fetchOf thread label = none) :
    sinceFetch thread (label :: trace) = label :: sinceFetch thread trace := by
  simp [sinceFetch, other]

theorem lastFetch_same (other : fetchOf thread label = none) :
    lastFetch thread (label :: trace) = lastFetch thread trace := by
  simp [lastFetch, other]

theorem settled_committed (records : List ConsumerRecord) :
    Settled records (committedAll records) := by
  induction records with
  | nil => rfl
  | cons record rest ih =>
    refine ⟨rfl, ?_⟩
    rw [if_pos rfl]
    exact ih

theorem settled_stopped {result : Option Ack} (stopped : result ≠ some .commit)
    (before : List ConsumerRecord) :
    Settled (before ++ record :: rest) (committedAll before ++ [(record.offset, result)]) := by
  induction before with
  | nil =>
    refine ⟨rfl, ?_⟩
    rw [if_neg stopped]
  | cons first before ih =>
    refine ⟨rfl, ?_⟩
    rw [if_pos rfl]
    exact ih

/-! ### Batches -/

theorem segment_absent (absent : tp ∉ batch.map Prod.fst) : segment batch tp = [] := by
  unfold segment
  rw [List.flatMap_eq_nil_iff]
  intro part member
  rw [if_neg]
  intro same
  exact absent (same ▸ List.mem_map_of_mem member)

theorem segment_cons {part : TopicPartition × List ConsumerRecord} :
    segment (part :: more) tp = (if part.1 = tp then part.2 else []) ++ segment more tp := by
  simp [segment]

theorem segment_ready (batch : Batch) : segment (ready batch) tp = segment batch tp := by
  induction batch with
  | nil => rfl
  | cons part more ih =>
    obtain ⟨place, records⟩ := part
    cases records with
    | nil =>
      rw [segment_cons]
      simpa [ready] using ih
    | cons record rest => rfl

theorem nodup_ready (nodup : (batch.map Prod.fst).Nodup) : ((ready batch).map Prod.fst).Nodup := by
  induction batch with
  | nil => exact nodup
  | cons part more ih =>
    obtain ⟨place, records⟩ := part
    cases records with
    | nil => exact ih (List.nodup_cons.mp nodup).2
    | cons record rest => exact nodup

theorem mem_segment (nodup : (batch.map Prod.fst).Nodup) (member : (tp, records) ∈ batch) :
    segment batch tp = records := by
  induction batch with
  | nil => cases member
  | cons part more ih =>
    obtain ⟨absent, nodup⟩ := List.nodup_cons.mp nodup
    rw [segment_cons]
    rcases List.mem_cons.mp member with rfl | later
    · rw [if_pos rfl, segment_absent absent, List.append_nil]
    · rw [if_neg, ih nodup later, List.nil_append]
      intro same
      subst same
      exact absent (List.mem_map.mpr ⟨_, later, rfl⟩)

/-! ### One lane -/

/-- What the calls on one partition say of the records that are left of the batch
    (`left`), of its records in the last fetch (`whole`) and of the position. -/
structure Lane (tp : TopicPartition) (calls recent : List (Nat × Option Ack))
    (whole left : List ConsumerRecord) (position : Option Nat) (first : Nat) : Prop where
  run : Consecutive tp first left
  position : ∀ place, position = some place → place = first + left.length
  next : ∀ offset, due calls = some offset → offset = first
  bounded : ∀ call ∈ calls, call.1 ≤ first
  reopened : ∀ call, calls.find? (fun call => call.1 = first) = some call → call.2 ≠ some .commit
  progress : (∃ before, whole = before ++ left ∧ recent.reverse = committedAll before) ∨
    (left = [] ∧ Settled whole recent.reverse)

namespace Lane
variable {calls recent : List (Nat × Option Ack)} {whole left : List ConsumerRecord}
  {position : Option Nat} {first : Nat} {result : Option Ack}

/-- A lane no call was made on. -/
theorem fresh (position : Option Nat) : Lane tp [] [] [] [] position (position.getD 0) := by
  constructor
  · trivial
  · intro place same
    rw [same]
    rfl
  · intro offset same
    cases same
  · intro call member
    cases member
  · intro call found
    cases found
  · exact .inl ⟨[], rfl, rfl⟩

theorem head (lane : Lane tp calls recent whole (record :: rest) position first) :
    record.tp = tp ∧ record.offset = first :=
  ⟨lane.run.1, lane.run.2.1⟩

/-- After a COMMIT the lane goes on with the next record. -/
theorem commits (lane : Lane tp calls recent whole (record :: rest) position first) :
    Lane tp ((record.offset, some .commit) :: calls) ((record.offset, some .commit) :: recent) whole
      rest position (first + 1) := by
  obtain ⟨_, place⟩ := lane.head
  constructor
  · exact lane.run.2.2
  · intro held same
    have before := lane.position held same
    simp only [List.length_cons] at before
    omega
  · intro offset same
    cases same
    omega
  · intro call member
    rcases List.mem_cons.mp member with rfl | earlier
    · simp only
      omega
    · have before := lane.bounded call earlier
      omega
  · intro call found
    exfalso
    have member := List.mem_of_find?_eq_some found
    have same := List.find?_some found
    simp only [decide_eq_true_eq] at same
    rcases List.mem_cons.mp member with rfl | earlier
    · simp only at same
      omega
    · have before := lane.bounded call earlier
      omega
  · rcases lane.progress with ⟨before, split, made⟩ | ⟨none, _⟩
    · refine .inl ⟨before ++ [record], ?_, ?_⟩
      · rw [split, List.append_assoc]
        rfl
      · rw [List.reverse_cons, made]
        simp [committedAll]
    · cases none

/-- After any other answer the lane is left and rewound to the record. -/
theorem rewinds (lane : Lane tp calls recent whole (record :: rest) position first)
    (stopped : result ≠ some .commit) :
    Lane tp ((record.offset, result) :: calls) ((record.offset, result) :: recent) whole [] 
      (some record.offset) first := by
  obtain ⟨_, place⟩ := lane.head
  constructor
  · trivial
  · intro held same
    cases same
    simpa using place
  · intro offset same
    have stays : due ((record.offset, result) :: calls) = some record.offset := by
      rcases result with _ | _ | _
      · rfl
      · exact (stopped rfl).elim
      · rfl
    rw [stays] at same
    cases same
    exact place
  · intro call member
    rcases List.mem_cons.mp member with rfl | earlier
    · exact place.le
    · exact lane.bounded call earlier
  · intro call found
    rw [List.find?_cons_of_pos (by simpa using place)] at found
    cases found
    exact stopped
  · rcases lane.progress with ⟨before, rfl, made⟩ | ⟨none, _⟩
    · refine .inr ⟨rfl, ?_⟩
      rw [List.reverse_cons, made]
      exact settled_stopped stopped before
    · cases none

/-- A fetch begins the lane's next stretch where the last one ended. -/
theorem fetched {place : Nat} (lane : Lane tp calls recent whole [] (some place) first)
    (run : Consecutive tp place records) :
    Lane tp calls [] records records (some (place + records.length)) first := by
  have same := lane.position place rfl
  simp only [List.length_nil, Nat.add_zero] at same
  subst same
  constructor
  · exact run
  · intro held same
    cases same
    rfl
  · exact lane.next
  · exact lane.bounded
  · exact lane.reopened
  · exact .inl ⟨[], rfl, rfl⟩

/-- A fetch that leaves the partition out changes nothing for it. -/
theorem skipped (lane : Lane tp calls recent whole [] position first) :
    Lane tp calls [] [] [] position first :=
  ⟨trivial, lane.position, lane.next, lane.bounded, lane.reopened, .inl ⟨[], rfl, rfl⟩⟩

theorem settled (lane : Lane tp calls recent whole [] position first) :
    Settled whole recent.reverse := by
  rcases lane.progress with ⟨before, split, made⟩ | ⟨_, settled⟩
  · rw [made, split, List.append_nil]
    exact settled_committed before
  · exact settled

end Lane

/-! ### A worker's lanes -/

/-- The lane of one partition, as the run so far shows it. -/
def LaneOf (trace : List Moment) (thread : Nat) (tp : TopicPartition) (batch : Batch)
    (position : Option Nat) (calls recent : List (Nat × Option Ack)) : Prop :=
  ∃ first, Lane tp calls recent (segment ((lastFetch thread trace).getD []) tp) (segment batch tp)
    position first

/-- A lane, with the answer the loop has yet to act on. -/
def LaneAt (trace : List Moment) (thread : Nat) (tp : TopicPartition) (batch : Batch)
    (position : Option Nat) (turn : Turn) : Prop :=
  (∀ record ack, turn = .returned record ack → record.tp = tp →
    ∃ result calls recent, answers thread tp trace = (record.offset, result) :: calls ∧
      answers thread tp (sinceFetch thread trace) = (record.offset, result) :: recent ∧
      (result = some .commit ↔ ack = .commit) ∧
      LaneOf trace thread tp batch position calls recent) ∧
  ((∀ record ack, turn = .returned record ack → record.tp ≠ tp) →
    LaneOf trace thread tp batch position (answers thread tp trace)
      (answers thread tp (sinceFetch thread trace)))

structure InLanes (deployment : Deployment) (pool : Pipeline) (thread : Nat) (consumer : Consumer)
    (batch : Batch) (turn : Turn) : Prop where
  nodup : (batch.map Prod.fst).Nodup
  topics : ∀ part ∈ batch, part.1.topic = consumer.topic deployment.settings
  lanes : ∀ tp, tp.topic = consumer.topic deployment.settings →
    LaneAt pool.trace thread tp batch (pool.world.positions thread tp) turn

variable {pool after : Pipeline} {consumer : Consumer} {turn : Turn} {world : World} {op : Op}
  {fate : Fate} {outcome : Outcome Exn op.Reply} {position : Option Nat}

theorem LaneAt.idle (lane : LaneAt trace thread tp batch position turn)
    (unanswered : ∀ record ack, turn ≠ .returned record ack) :
    LaneOf trace thread tp batch position (answers thread tp trace)
      (answers thread tp (sinceFetch thread trace)) :=
  lane.2 fun record ack same => (unanswered record ack same).elim

theorem LaneAt.of_idle (unanswered : ∀ record ack, turn ≠ .returned record ack)
    (lane : LaneOf trace thread tp batch position (answers thread tp trace)
      (answers thread tp (sinceFetch thread trace))) :
    LaneAt trace thread tp batch position turn :=
  ⟨fun record ack same => (unanswered record ack same).elim, fun _ => lane⟩

/-- A step that is neither an answer nor a fetch of this worker leaves its lanes. -/
theorem LaneAt.later (lane : LaneAt trace thread tp batch position turn)
    (silent : answerOf thread tp label = none) (other : fetchOf thread label = none) :
    LaneAt (label :: trace) thread tp batch position turn := by
  unfold LaneAt LaneOf at lane ⊢
  rw [answers_same silent, sinceFetch_same other, answers_same silent, lastFetch_same other]
  exact lane

theorem fetch_places {decode : Decode} {topic : String} {plan : List (TopicPartition × Nat)}
    {last : World} (fetched : fetch decode thread topic world plan = some (.ok (batch, last))) :
    batch.map Prod.fst = plan.map Prod.fst ∧ (plan.map Prod.fst).Nodup := by
  induction plan generalizing world batch with
  | nil =>
    cases fetched
    exact ⟨rfl, List.nodup_nil⟩
  | cons entry rest ih =>
    obtain ⟨place, count⟩ := entry
    obtain ⟨position, records, more, _, _, _, _, absent, _, fetchedMore, rfl⟩ := fetch_cons fetched
    obtain ⟨same, nodup⟩ := ih fetchedMore
    constructor
    · simp [same]
    · exact List.nodup_cons.mpr ⟨absent, nodup⟩

theorem getmany_lanes {topic : String} {fetched : Batch} {oracle : Oracle} {last : World}
    (known : InLanes deployment pool thread consumer [] .idle)
    (sameTopic : topic = consumer.topic deployment.settings)
    (answered : answer deployment thread (.getmany topic) pool.world oracle =
      some (.ok fetched, last)) {threads} :
    InLanes deployment ⟨last, threads, .did thread (.getmany topic) (.ok fetched) :: pool.trace⟩
      thread consumer (ready fetched) .idle := by
  obtain ⟨segments, others⟩ := fetch_spec (answer_getmany answered)
  obtain ⟨places, nodup⟩ := fetch_places (answer_getmany answered)
  rw [← places] at nodup
  refine ⟨nodup_ready nodup, ?_, ?_⟩
  · intro part member
    exact (segments part (ready_subset _ member)).1.trans sameTopic
  intro tp atTopic
  obtain ⟨first, lane⟩ := (known.lanes tp atTopic).idle (by simp)
  have silent : answerOf thread tp (.did thread (.getmany topic) (.ok fetched)) = none := rfl
  have since : sinceFetch thread (.did thread (.getmany topic) (.ok fetched) :: pool.trace) = [] := by
    simp [sinceFetch, fetchOf]
  have latest : lastFetch thread (.did thread (.getmany topic) (.ok fetched) :: pool.trace) =
      some fetched := by
    simp [lastFetch, fetchOf]
  apply LaneAt.of_idle (by simp)
  unfold LaneOf
  rw [answers_same silent, since, latest, Option.getD_some, segment_ready]
  refine ⟨first, ?_⟩
  show Lane tp _ [] _ _ (last.positions thread tp) first
  by_cases present : tp ∈ fetched.map Prod.fst
  · obtain ⟨part, member, rfl⟩ := List.mem_map.mp present
    obtain ⟨_, _, place, held, run, ended, _⟩ := segments part member
    rw [ended, mem_segment nodup member]
    rw [held] at lane
    exact lane.fetched run
  · rw [segment_absent present, others tp fun records member => present
      (List.mem_map.mpr ⟨_, member, rfl⟩)]
    exact lane.skipped

/-- The head of the batch is the head of its lane. -/
theorem segment_head (nodup : (batch.map Prod.fst).Nodup) (head : Loop.Next batch tp record) :
    ∃ rest, segment batch tp = record :: rest ∧ segment batch.tail tp = [] ∧
      segment (Loop.advance batch) tp = rest := by
  obtain ⟨rest, more, rfl⟩ := head
  have absent : segment more tp = [] := segment_absent (List.nodup_cons.mp nodup).1
  refine ⟨rest, ?_, absent, ?_⟩
  · simp [segment_cons, absent]
  · simp [Loop.advance, segment_ready, segment_cons, absent]

theorem segment_other {other : TopicPartition} (head : Loop.Next batch tp record)
    (differ : tp ≠ other) : segment batch.tail other = segment batch other ∧
      segment (Loop.advance batch) other = segment batch other := by
  obtain ⟨rest, more, rfl⟩ := head
  constructor
  · simp [segment_cons, differ]
  · simp [Loop.advance, segment_ready, segment_cons, differ]

/-- The lane whose record was answered, with that answer put aside. -/
theorem InLanes.answered {ack : Ack}
    (known : InLanes deployment pool thread consumer batch (.returned record ack))
    (head : Loop.Next batch tp record) :
    record.tp = tp ∧ ∃ rest result calls recent first, segment batch tp = record :: rest ∧
      answers thread tp pool.trace = (record.offset, result) :: calls ∧
      answers thread tp (sinceFetch thread pool.trace) = (record.offset, result) :: recent ∧
      (result = some .commit ↔ ack = .commit) ∧
      Lane tp calls recent (segment ((lastFetch thread pool.trace).getD []) tp) (record :: rest)
        (pool.world.positions thread tp) first := by
  obtain ⟨rest, left, _⟩ := segment_head known.nodup head
  have atTopic : tp.topic = consumer.topic deployment.settings := by
    obtain ⟨rest, more, rfl⟩ := head
    exact known.topics _ (List.mem_cons_self ..)
  obtain ⟨answered, unanswered⟩ := known.lanes tp atTopic
  have same : record.tp = tp := by
    by_contra differ
    have others : ∀ other reply, Turn.returned record ack = .returned other reply →
        other.tp ≠ tp := by
      intro other reply same
      cases same
      exact differ
    obtain ⟨first, lane⟩ := unanswered others
    rw [left] at lane
    exact differ lane.head.1
  obtain ⟨result, calls, recent, made, since, meaning, first, lane⟩ :=
    answered record ack rfl same
  rw [left] at lane
  exact ⟨same, rest, result, calls, recent, first, left, made, since, meaning, lane⟩

/-- A step of the loop on one partition leaves the lanes of the others. -/
theorem InLanes.others {other : TopicPartition} {ack : Ack} {left : Batch}
    (known : InLanes deployment pool thread consumer batch (.returned record ack))
    (answered : record.tp = tp) (differ : tp ≠ other)
    (atTopic : other.topic = consumer.topic deployment.settings)
    (same : segment left other = segment batch other)
    (silent : answerOf thread other label = none) (quiet : fetchOf thread label = none) :
    LaneAt (label :: pool.trace) thread other left (pool.world.positions thread other) .idle := by
  have others : ∀ found reply, Turn.returned record ack = .returned found reply →
      found.tp ≠ other := by
    intro found reply equal
    cases equal
    exact answered ▸ differ
  have lane := (known.lanes other atTopic).2 others
  refine LaneAt.later (LaneAt.of_idle (by simp) ?_) silent quiet
  unfold LaneOf at lane ⊢
  rw [same]
  exact lane

theorem seek_lanes
    (known : InLanes deployment pool thread consumer batch (.returned record .redeliver))
    (head : Loop.Next batch tp record) {threads} :
    InLanes deployment ⟨pool.world.setPosition thread tp (some record.offset), threads,
      .did thread (.seek tp record.offset) (.ok ()) :: pool.trace⟩ thread consumer
      (ready batch.tail) .idle := by
  obtain ⟨same, rest, result, calls, recent, first, left, made, since, meaning, lane⟩ :=
    known.answered head
  obtain ⟨_, _, tailed, _⟩ := segment_head known.nodup head
  have stopped : result ≠ some .commit := by
    intro commits
    cases meaning.mp commits
  refine ⟨nodup_ready ?_, ?_, ?_⟩
  · obtain ⟨rest, more, rfl⟩ := head
    exact (List.nodup_cons.mp known.nodup).2
  · intro part member
    exact known.topics part (List.mem_of_mem_tail (ready_subset _ member))
  · intro other atTopic
    by_cases here : tp = other
    · subst here
      refine LaneAt.later (LaneAt.of_idle (by simp) ?_) rfl rfl
      refine ⟨first, ?_⟩
      rw [segment_ready, tailed, made, since]
      show Lane tp _ _ _ _ ((pool.world.setPosition thread tp (some record.offset)).positions
        thread tp) first
      rw [show (pool.world.setPosition thread tp (some record.offset)).positions thread tp =
        some record.offset by simp [World.setPosition]]
      exact lane.rewinds stopped
    · have stays : (pool.world.setPosition thread tp (some record.offset)).positions thread other =
          pool.world.positions thread other := by
        simp [World.setPosition, Function.update_of_ne (Ne.symm here)]
      show LaneAt _ thread other _ ((pool.world.setPosition thread tp
        (some record.offset)).positions thread other) .idle
      rw [stays]
      apply known.others same here atTopic _ rfl rfl
      rw [segment_ready]
      exact (segment_other head here).1

theorem commit_lanes {group : String}
    (known : InLanes deployment pool thread consumer batch (.returned record .commit))
    (head : Loop.Next batch tp record) (positions : world.positions = pool.world.positions)
    {threads} :
    InLanes deployment ⟨world, threads,
      .did thread (.commitOffset group tp (record.offset + 1)) (.ok ()) :: pool.trace⟩ thread consumer
      (Loop.advance batch) .idle := by
  obtain ⟨same, rest, result, calls, recent, first, left, made, since, meaning, lane⟩ :=
    known.answered head
  obtain ⟨_, found, _, advanced⟩ := segment_head known.nodup head
  have commits : result = some .commit := meaning.mpr rfl
  have tail : rest = _ := (List.cons.inj (left.symm.trans found)).2
  refine ⟨?_, ?_, ?_⟩
  · obtain ⟨rest, more, rfl⟩ := head
    exact nodup_ready known.nodup
  · obtain ⟨rest, more, rfl⟩ := head
    intro part member
    rcases List.mem_cons.mp (ready_subset _ member) with rfl | later
    · exact known.topics (tp, record :: rest) (List.mem_cons_self ..)
    · exact known.topics part (List.mem_cons_of_mem _ later)
  · intro other atTopic
    simp only [positions]
    by_cases here : tp = other
    · subst here
      refine LaneAt.later (LaneAt.of_idle (by simp) ?_) rfl rfl
      refine ⟨first + 1, ?_⟩
      rw [advanced, made, since, commits, ← tail]
      exact lane.commits
    · exact known.others same here atTopic (segment_other head here).2 rfl rfl

/-- A position that is gone, or the same, keeps the lane. -/
theorem LaneAt.moved {other : Option Nat} (lane : LaneAt trace thread tp batch position turn)
    (same : other = position ∨ other = none) : LaneAt trace thread tp batch other turn := by
  rcases same with rfl | rfl
  · exact lane
  · have lost : ∀ calls recent, LaneOf trace thread tp batch position calls recent →
        LaneOf trace thread tp batch none calls recent := by
      intro calls recent lane
      obtain ⟨first, lane⟩ := lane
      refine ⟨first, lane.run, ?_, lane.next, lane.bounded, lane.reopened, lane.progress⟩
      intro place same
      cases same
    constructor
    · intro record ack answered here
      obtain ⟨result, calls, recent, made, since, meaning, lane⟩ := lane.1 record ack answered here
      exact ⟨result, calls, recent, made, since, meaning, lost _ _ lane⟩
    · intro others
      exact lost _ _ (lane.2 others)

/-- A step that is neither an answer nor a fetch of this worker. -/
theorem InLanes.kept {later : Pipeline}
    (known : InLanes deployment pool thread consumer batch turn)
    (trace : later.trace = label :: pool.trace)
    (positions : ∀ tp, later.world.positions thread tp = pool.world.positions thread tp ∨
      later.world.positions thread tp = none)
    (silent : ∀ tp, answerOf thread tp label = none) (quiet : fetchOf thread label = none) :
    InLanes deployment later thread consumer batch turn := by
  refine ⟨known.nodup, known.topics, ?_⟩
  intro tp atTopic
  rw [trace]
  exact ((known.lanes tp atTopic).later (silent tp) quiet).moved (positions tp)

/-- A step of the worker that leaves its positions and its place in the batch alone. -/
theorem InLanes.observed {later : Pipeline} {turned : Turn}
    (known : InLanes deployment pool thread consumer batch turn)
    (unanswered : ∀ record ack, turn ≠ .returned record ack)
    (still : ∀ record ack, turned ≠ .returned record ack)
    (trace : later.trace = label :: pool.trace)
    (positions : later.world.positions thread = pool.world.positions thread)
    (silent : ∀ tp, answerOf thread tp label = none) (quiet : fetchOf thread label = none) :
    InLanes deployment later thread consumer batch turned := by
  refine ⟨known.nodup, known.topics, ?_⟩
  intro tp atTopic
  rw [trace, positions]
  exact (LaneAt.of_idle still ((known.lanes tp atTopic).idle unanswered)).later (silent tp) quiet

theorem answer_lanes {result : Option Ack} {ack : Ack} {name : String}
    {outcome : Outcome Exn Unit}
    (known : InLanes deployment pool thread consumer batch (.inside record))
    (meaning : result = some .commit ↔ ack = .commit)
    (positions : world.positions = pool.world.positions) {threads} :
    InLanes deployment
      ⟨world, threads, .did thread (.handleReturn name record result) outcome :: pool.trace⟩ thread
      consumer batch (.returned record ack) := by
  refine ⟨known.nodup, known.topics, ?_⟩
  intro tp atTopic
  simp only [positions]
  have quiet : fetchOf thread (.did thread (.handleReturn name record result) outcome) = none := rfl
  have lane := (known.lanes tp atTopic).idle (by simp)
  constructor
  · intro found reply same here
    cases same
    have made : answerOf thread tp (.did thread (.handleReturn name record result) outcome) =
        some (record.offset, result) := by
      simp [answerOf, here]
    refine ⟨result, answers thread tp pool.trace,
      answers thread tp (sinceFetch thread pool.trace), ?_, ?_, meaning, ?_⟩
    · rw [answers_cons, made]
      rfl
    · rw [sinceFetch_same quiet, answers_cons, made]
      rfl
    · unfold LaneOf at lane ⊢
      rw [lastFetch_same quiet]
      exact lane
  · intro others
    have differ : record.tp ≠ tp := others record ack rfl
    have silent : answerOf thread tp (.did thread (.handleReturn name record result) outcome) =
        none := by
      simp [answerOf, differ]
    exact ((known.lanes tp atTopic).later silent quiet).idle (by simp)

/-- A step of the worker itself. -/
theorem own_lanes {held : Loop}
    (state : (Loop.monitor deployment.settings).record pool.trace thread = held)
    (running : ∀ consumer batch turn, held = .on consumer batch turn →
      InLanes deployment pool thread consumer batch turn)
    (permitted : (Loop.monitor deployment.settings).allowed held op)
    (performed : perform deployment thread op pool.world fate = some (outcome, world)) {threads}
    (reached : (Loop.monitor deployment.settings).next held op outcome = .on consumer batch turn) :
    InLanes deployment ⟨world, threads, .did thread op outcome :: pool.trace⟩ thread consumer
      batch turn := by
  cases held with
  | off => cases reached
  | on worker left round =>
    have known := running worker left round rfl
    cases op with
    | getmany topic =>
      obtain ⟨sameTopic, rfl, rfl⟩ := permitted
      rcases perform_cases performed with ⟨_, rfl, _⟩ | ⟨fetched, oracle, answered, took⟩
      · cases reached
      · rcases took with rfl | ⟨_, rfl⟩
        · cases reached
          exact getmany_lanes known sameTopic answered
        · cases reached
    | seek tp offset =>
      obtain ⟨record, head, rfl, rfl⟩ := permitted
      rcases perform_seek performed with ⟨_, rfl, _⟩ | ⟨rfl | ⟨_, rfl⟩, rfl⟩
      · cases reached
      · cases reached
        exact seek_lanes known head
      · cases reached
    | commitOffset group tp offset =>
      obtain ⟨record, head, rfl, rfl, rfl⟩ := permitted
      have positions := perform_positions performed rfl
      rcases perform_commitOffset performed with ⟨_, rfl, _⟩ | ⟨rfl | ⟨_, rfl⟩, _⟩
      · cases reached
      · cases reached
        exact commit_lanes known head positions
      · cases reached
    | handleCall name record =>
      obtain ⟨_, rfl, _⟩ := permitted
      cases reached
      exact known.observed (by simp) (by simp) rfl
        (congrFun (perform_positions performed rfl) thread) (fun _ => rfl) rfl
    | handleReturn name record result =>
      obtain ⟨_, rfl, _⟩ := permitted
      have positions := perform_positions performed rfl
      cases result with
      | none =>
        cases reached
        exact answer_lanes known (by simp) positions
      | some ack =>
        obtain ⟨oracle, reply, answered, rfl⟩ := perform_local performed rfl
        cases answered
        cases reached
        exact answer_lanes known (by simp) positions
    | stopConsumer =>
      cases reached
      refine known.kept rfl ?_ (fun _ => rfl) rfl
      intro tp
      rcases perform_cases performed with ⟨_, _, rfl⟩ | ⟨_, oracle, answered, _⟩
      · exact .inl rfl
      · cases answered
        right
        simp
    | _ =>
      cases reached
      refine known.kept rfl ?_ (fun _ => rfl) rfl
      intro tp
      exact .inl (congrFun (congrFun (perform_positions performed rfl) thread) tp)

/-! ### Runs -/

/-- A worker keeps the partitions it was started with. -/
def Steady (pool : Pipeline) (label : Moment) : Prop :=
  (∀ thread tp, label ≠ .event (.revoke thread tp)) ∧
  ∀ thread consumer partition, label = .event (.assign thread consumer partition) →
    pool.Unused thread

theorem answers_unused (unused : ∀ label ∈ trace, answerOf thread tp label = none) :
    answers thread tp trace = [] := by
  unfold answers
  rw [List.filterMap_eq_nil_iff]
  exact unused

/-- A run has no calls and no fetch before its start. -/
theorem started_lanes {handles : Consumer → ConsumerRecord → Prog Ack}
    {allows : Pipeline → Moment → Prop}
    (reached : Reachable (workers deployment handles) allows World.empty pool)
    (unused : pool.Unused thread) :
    InLanes deployment pool thread consumer [] .idle := by
  have idle : ∀ (op : Op) (outcome : Outcome Exn op.Reply),
      Label.did thread op outcome ∉ pool.trace := by
    intro op outcome did
    exact started_of_did reached did unused
  refine ⟨List.nodup_nil, by simp, ?_⟩
  intro tp _
  have silent : ∀ label ∈ pool.trace, answerOf thread tp label = none := by
    intro label member
    unfold answerOf
    split
    · rename_i worker name record result outcome
      rw [if_neg]
      rintro ⟨rfl, _⟩
      exact idle _ _ member
    · rfl
  have quiet : ∀ label ∈ pool.trace, fetchOf thread label = none := by
    intro label member
    unfold fetchOf
    split
    · rw [if_neg]
      rintro rfl
      exact idle _ _ member
    · rfl
  have recent : answers thread tp (sinceFetch thread pool.trace) = [] := by
    apply answers_unused
    intro label member
    exact silent label ((List.takeWhile_sublist _).subset member)
  have never : lastFetch thread pool.trace = none := by
    unfold lastFetch
    rw [List.findSome?_eq_none_iff]
    exact quiet
  apply LaneAt.of_idle (by simp)
  unfold LaneOf
  rw [answers_unused silent, recent, never]
  exact ⟨_, Lane.fresh _⟩

theorem lanes_invariant {handles : Consumer → ConsumerRecord → Prog Ack}
    (inner : ∀ consumer record, (handles consumer record).Uses Inner)
    (reached : Reachable (workers deployment handles) Steady World.empty pool) :
    ∀ thread consumer batch turn,
      (Loop.monitor deployment.settings).record pool.trace thread = .on consumer batch turn →
      InLanes deployment pool thread consumer batch turn := by
  have keeps := Loop.keeps_workers deployment handles inner
  induction reached with
  | init =>
    intro thread consumer batch turn known
    cases known
  | @step pool label after reached permitted moved ih =>
    cases moved with
    | start thread call unused =>
      intro other consumer batch turn known
      by_cases same : other = thread
      · subst same
        simp only [Monitor.record, ↓reduceIte] at known
        cases call with
        | worker worker =>
          cases known
          exact (started_lanes reached unused).kept rfl (fun _ => .inl rfl) (fun _ => rfl) rfl
        | _ => cases known
      · simp only [Monitor.record, same, ↓reduceIte] at known
        exact (ih other consumer batch turn known).kept rfl (fun _ => .inl rfl) (fun _ => rfl) rfl
    | did thread call op resume fate outcome world awaiting performed =>
      have permits := Monitor.allowed_of_awaiting keeps reached awaiting
      intro other consumer batch turn known
      by_cases same : other = thread
      · subst same
        rw [Monitor.record_did_self] at known
        exact own_lanes rfl (ih other) permits performed known
      · rw [Monitor.record_did_other _ same] at known
        have differ : thread ≠ other := fun equal => same equal.symm
        refine (ih other consumer batch turn known).kept rfl ?_ ?_ ?_
        · intro tp
          exact .inl (congrFun (perform_positions_other same performed) tp)
        · intro tp
          cases op <;> simp [answerOf, differ]
        · unfold fetchOf
          split
          · rename_i equal
            cases equal
            rw [if_neg differ]
          · rfl
    | again thread call next result ended loops =>
      intro other consumer batch turn known
      by_cases same : other = thread
      · subst same
        have left := Monitor.follows_of_reachable keeps reached other _ ended
        obtain ⟨worker, rfl, rfl, rfl⟩ : ∃ worker, call = .worker worker ∧
            result = .pass true ∧ next = .worker worker := by
          simp only [workers, system, OrderFlow.again] at loops
          split at loops
          · cases loops
            exact ⟨_, rfl, rfl, rfl⟩
          · cases loops
        simp only [Monitor.record, ↓reduceIte] at known
        cases known
        exact (ih other consumer [] .idle (left rfl)).kept rfl (fun _ => .inl rfl) (fun _ => rfl) rfl
      · simp only [Monitor.record, same, ↓reduceIte] at known
        exact (ih other consumer batch turn known).kept rfl (fun _ => .inl rfl) (fun _ => rfl) rfl
    | crash thread running =>
      intro other consumer batch turn known
      by_cases same : other = thread
      · subst same
        simp only [Monitor.record, ↓reduceIte] at known
        cases known
      · simp only [Monitor.record, same, ↓reduceIte] at known
        exact (ih other consumer batch turn known).kept rfl (fun _ => .inl rfl) (fun _ => rfl) rfl
    | event event world happened =>
      intro thread consumer batch turn known
      refine (ih thread consumer batch turn known).kept rfl ?_ (fun _ => rfl) rfl
      intro tp
      left
      cases event with
      | expire key =>
        simp only [workers, system, happen] at happened
        split at happened
        · cases happened
          rfl
        · cases happened
      | assign worker owner partition =>
        have unused := permitted.2 worker owner partition rfl
        cases happened
        have differ : thread ≠ worker := by
          rintro rfl
          have idle := Monitor.record_unused (Loop.monitor deployment.settings) reached thread unused
          rw [Monitor.record_event, idle] at known
          cases known
        simp [World.setPosition, Function.update_of_ne differ]
      | revoke worker moved => exact (permitted.1 worker moved rfl).elim
      | stop worker =>
        cases happened
        rfl
      | produce place record =>
        cases happened
        rfl

end OrderFlow
