import OrderFlow.Kafka.Lanes
import OrderFlow.Sample

/-!
Commit discipline of the consume loop, for any handlers: what lies below the
committed offset, in which order records are handed over, and what a REDELIVER
leaves alone.
-/
namespace OrderFlow
open AsyncCoroutine AsyncPool

/-- The next call of a run on a partition: the run begins above handled records
    only, goes on after a COMMIT, and otherwise repeats the record. -/
def InTurn (past : List Moment) (thread : Nat) (consumer : Consumer) (record : ConsumerRecord) :
    Prop :=
  match answers thread record.tp past with
  | [] => ∀ offset < record.offset, Handled past consumer record.tp offset
  | (offset, some .commit) :: _ => record.offset = offset + 1
  | (offset, _) :: _ => record.offset = offset

structure CommitDiscipline (deployment : Deployment) (pool : Pipeline) : Prop where
  /-- Records below a committed offset had a call that returned COMMIT. -/
  handled : ∀ consumer tp, tp.topic = consumer.topic deployment.settings →
    ∀ offset < pool.world.committed (consumer.group deployment.settings) tp,
      Handled pool.trace consumer tp offset
  inOrder : ∀ later past thread consumer record outcome,
    pool.trace = later ++ .did thread (.handleCall (Consumer.name consumer) record) outcome :: past →
    InTurn past thread consumer record
  /-- A record comes again in a run only if its last call did not return COMMIT. -/
  repeated : ∀ later past thread name record outcome,
    pool.trace = later ++ .did thread (.handleCall name record) outcome :: past →
    ∀ call, (answers thread record.tp past).find? (fun call => call.1 = record.offset) = some call →
      call.2 ≠ some .commit
  /-- Before the next fetch every partition of a batch was handed over to its end, or
      to its own first answer that was not COMMIT. -/
  delivered : ∀ later past thread topic outcome,
    pool.trace = later ++ .did thread (.getmany topic) outcome :: past →
    ∀ batch, lastFetch thread past = some batch → ∀ tp, tp.topic = topic →
      Settled (segment batch tp) (answers thread tp (sinceFetch thread past)).reverse

/-- The rewind of one partition moves no committed offset and no other position. -/
def RewindsAlone (pool after : Pipeline) (thread : Nat) (tp : TopicPartition) : Prop :=
  after.world.committed = pool.world.committed ∧
    ∀ worker other, worker ≠ thread ∨ other ≠ tp →
      after.world.positions worker other = pool.world.positions worker other

variable {deployment : Deployment} {handles : Consumer → ConsumerRecord → Prog Ack}
  {pool before taken : Pipeline} {thread : Nat} {record : ConsumerRecord} {consumer : Consumer}

/-- A call is made on the head of its lane. -/
theorem call_lane {name : String} {outcome : Outcome Exn Unit}
    (inner : ∀ consumer record, (handles consumer record).Uses Inner)
    (reached : Reachable (workers deployment handles) Steady World.empty before)
    (moved : Step (workers deployment handles) before (.did thread (.handleCall name record) outcome)
      taken) :
    ∃ (consumer : Consumer) (recent : List (Nat × Option Ack)) (whole rest : List ConsumerRecord)
      (position : Option Nat) (first : Nat), name = consumer.name ∧
      Lane record.tp (answers thread record.tp before.trace) recent whole (record :: rest) position
        first ∧
      ∀ offset < record.offset, Handled before.trace consumer record.tp offset := by
  have keeps := Loop.keeps_workers deployment handles inner
  cases moved with
  | did _ call op resume fate _ world awaiting performed =>
    have permits := Monitor.allowed_of_awaiting keeps reached awaiting
    cases state : (Loop.monitor deployment.settings).record before.trace thread with
    | off =>
      rw [state] at permits
      cases permits
    | on consumer batch turn =>
      rw [state] at permits
      obtain ⟨named, rfl, tp, head⟩ := permits
      have known := lanes_invariant inner reached thread consumer batch .idle state
      have disciplined := (workers_invariant inner reached).running thread consumer batch .idle state
      obtain ⟨rest, left, _⟩ := segment_head known.nodup head
      obtain ⟨more, others, rfl⟩ := head
      have member : (tp, record :: more) ∈ (tp, record :: more) :: others := List.mem_cons_self ..
      obtain ⟨first, lane⟩ := (known.lanes tp (known.topics _ member)).idle (by simp)
      rw [left] at lane
      obtain ⟨_, start, run, below, _⟩ := disciplined.segments _ member
      obtain ⟨rfl, _⟩ := lane.head
      refine ⟨consumer, _, _, rest, _, first, named, lane, ?_⟩
      intro offset small
      exact below offset (run.2.1 ▸ small)

theorem call_inTurn {name : String} {outcome : Outcome Exn Unit}
    (inner : ∀ consumer record, (handles consumer record).Uses Inner)
    (reached : Reachable (workers deployment handles) Steady World.empty before)
    (moved : Step (workers deployment handles) before (.did thread (.handleCall name record) outcome)
      taken) (named : name = consumer.name) : InTurn before.trace thread consumer record := by
  obtain ⟨owner, recent, whole, rest, position, first, same, lane, below⟩ :=
    call_lane inner reached moved
  obtain rfl : owner = consumer := name_injective (same.symm.trans named)
  obtain ⟨_, place⟩ := lane.head
  have next := lane.next
  unfold InTurn
  cases made : answers thread record.tp before.trace with
  | nil => exact below
  | cons call earlier =>
    obtain ⟨offset, result⟩ := call
    rw [made] at next
    rcases result with _ | _ | _
    · exact place.trans (next offset rfl).symm
    · exact place.trans (next (offset + 1) rfl).symm
    · exact place.trans (next offset rfl).symm

theorem fetch_settled {topic : String}
    {outcome : Outcome Exn (List (TopicPartition × List ConsumerRecord))}
    (inner : ∀ consumer record, (handles consumer record).Uses Inner)
    (reached : Reachable (workers deployment handles) Steady World.empty before)
    (moved : Step (workers deployment handles) before (.did thread (.getmany topic) outcome) taken)
    {batch : Batch} (last : lastFetch thread before.trace = some batch) {tp : TopicPartition}
    (atTopic : tp.topic = topic) :
    Settled (segment batch tp) (answers thread tp (sinceFetch thread before.trace)).reverse := by
  have keeps := Loop.keeps_workers deployment handles inner
  cases moved with
  | did _ call op resume fate _ world awaiting performed =>
    have permits := Monitor.allowed_of_awaiting keeps reached awaiting
    cases state : (Loop.monitor deployment.settings).record before.trace thread with
    | off =>
      rw [state] at permits
      cases permits
    | on consumer left turn =>
      rw [state] at permits
      obtain ⟨rfl, rfl, rfl⟩ := permits
      have known := lanes_invariant inner reached thread consumer [] .idle state
      obtain ⟨first, lane⟩ := (known.lanes tp atTopic).idle (by simp)
      rw [last, Option.getD_some] at lane
      exact lane.settled

/-- At all times of every run of the workers, whatever their handlers answer. -/
theorem commit_discipline (inner : ∀ consumer record, (handles consumer record).Uses Inner)
    (reached : Reachable (workers deployment handles) Steady World.empty pool) :
    CommitDiscipline deployment pool ∧
      ∀ thread tp offset outcome after,
        Step (workers deployment handles) pool (.did thread (.seek tp offset) outcome) after →
        RewindsAlone pool after thread tp := by
  refine ⟨⟨(workers_invariant inner reached).committed, ?_, ?_, ?_⟩, ?_⟩
  · intro later past thread consumer record outcome split
    obtain ⟨before, taken, reachedBefore, rfl, _, moved⟩ := taken_of_trace reached split
    exact call_inTurn inner reachedBefore moved rfl
  · intro later past thread name record outcome split
    obtain ⟨before, taken, reachedBefore, rfl, _, moved⟩ := taken_of_trace reached split
    obtain ⟨_, _, _, _, _, first, _, lane, _⟩ := call_lane inner reachedBefore moved
    rw [lane.head.2]
    exact lane.reopened
  · intro later past thread topic outcome split batch last tp atTopic
    obtain ⟨before, taken, reachedBefore, rfl, _, moved⟩ := taken_of_trace reached split
    exact fetch_settled inner reachedBefore moved last atTopic
  · intro thread tp offset outcome after moved
    cases moved with
    | did _ call op resume fate _ world awaiting performed =>
      refine ⟨perform_committed performed rfl, ?_⟩
      intro worker other elsewhere
      rcases perform_seek performed with ⟨_, _, rfl⟩ | ⟨_, rfl⟩
      · rfl
      · by_cases same : worker = thread
        · subst same
          have differ : other ≠ tp := elsewhere.resolve_left fun differ => differ rfl
          simp [World.setPosition, Function.update_of_ne differ]
        · simp [World.setPosition, Function.update_of_ne same]

namespace Sample

def steady (pool : Pipeline) : Moment → Bool
  | .event (.revoke _ _) => false
  | .event (.assign thread _ _) => pool.unused thread
  | _ => true

theorem steady_sound (pool : Pipeline) (label : Moment) (passes : steady pool label = true) :
    Steady pool label := by
  constructor
  · rintro thread tp rfl
    cases passes
  · rintro thread consumer partition rfl
    exact Pool.unused_sound passes

/-- A dead letter is delivered to the archiver and committed past. -/
def archived : Moves :=
  [.event (.assign 0 .dlq 0),
    .event (.produce ⟨"orders.dlq", 0⟩
      ⟨none, some (serialize platform (modelDump (event none 1 2))), []⟩),
    .start 0 (.worker .dlq), .run 0 ok, .run 0 (take "orders.dlq" 0 1)] ++ runs 0 7

end Sample

theorem commit_discipline_run : ∃ pool,
    pool.world.committed "order-dlq-archiver" ⟨"orders.dlq", 0⟩ = 1 ∧
      CommitDiscipline Sample.shop pool := by
  obtain ⟨pool, reached, facts⟩ := Sample.play_checks {} Sample.fulfils [Sample.event none 1 2]
    Sample.archived (fun pool label _ => Sample.steady_sound pool label)
    (fun pool => pool.world.committed "order-dlq-archiver" ⟨"orders.dlq", 0⟩ = 1) (by decide +kernel)
  rw [system_workers] at reached
  refine ⟨pool, by simpa using facts, ?_⟩
  exact (commit_discipline (handle_inner Sample.shop) reached).1

end OrderFlow
