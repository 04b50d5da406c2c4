import OrderFlow.Kafka.Codec
import OrderFlow.Runs.Entries
import OrderFlow.Runs.Notices
import OrderFlow.Runs.Outcomes
import OrderFlow.Runs.Underway

/-!
Dead letters and what they stand for. Where events come from submissions only and the
guard keeps deliveries apart, a record is put on `orders.dlq` for a failed order only,
with the attempt that failed it.
-/
namespace OrderFlow
open AsyncCoroutine AsyncPool

variable {deployment : Deployment} {pool after : Pipeline} {thread : Nat} {label : Moment}
  {entry : LogEntry}

/-- The letter is of a published event whose order has failed: on the attempt in its row,
    and for what the hop to FAILED in its trail says. -/
structure StandsFor (deployment : Deployment) (pool : Pipeline) (entry : LogEntry)
    (event : OrderEvent) (row : OrderRow) : Prop where
  published : ∃ thread, PublishedBy deployment pool.trace thread event
  carries : Carries deployment.platform entry event
  found : pool.world.orders event.orderId = some row
  failed : row.status = .failed
  attempt : entry.record.headers.getAttempt = row.attempts
  origin : entry.record.headers.getOriginTopic = some deployment.settings.topicOrders
  error : ∃ hop ∈ pool.world.transitions event.orderId, hop.toStatus = .failed ∧
    ∃ note, hop.note = some note ∧ entry.record.headers.getError = some (replaced (note.take 500))

theorem StandsFor.step {event : OrderEvent} {row : OrderRow}
    (stands : StandsFor deployment pool entry event row)
    (reached : Reachable (system deployment) (GuardedRuns deployment) World.empty pool)
    (moved : Step (system deployment) pool label after) :
    StandsFor deployment after entry event row := by
  obtain ⟨thread, published⟩ := stands.published
  obtain ⟨hop, member, verdict⟩ := stands.error
  have kept := finished_step reached moved stands.found (by rw [stands.failed]; rfl)
  exact { stands with
    published := ⟨thread, published.kept moved⟩
    found := kept.1
    error := ⟨hop, hop_kept reached moved member, verdict⟩ }

/-- What a delivery that owes a dead letter puts on `orders.dlq` stands for its order. -/
theorem letter_stands
    (reached : Reachable (system deployment) (GuardedRuns deployment) World.empty pool)
    {delivery : Delivery deployment} {token : String} {phase : Phase} {topic : String}
    {key : Option String} {value : Json} {headers : Headers} {outcome : Outcome Exn Unit} (stamp : Nat)
    (moved : Step (system deployment) pool (.did thread (.send topic key value headers) outcome) after)
    (standing : stage deployment pool thread = .holding delivery token phase)
    (owes : phase = .buried ∨ phase = .absent ∨ ∃ reason, phase = .moved .failed reason)
    (letter : Phase.IsDeadLetter deployment delivery.record topic key value headers) :
    ∃ row, StandsFor deployment pool
      ⟨wireRecord deployment.platform key value headers, stamp⟩ delivery.event row := by
  have known := never_orphan guardedRuns_closed reached delivery token phase standing
  rcases owes with rfl | rfl | ⟨reason, rfl⟩
  · cases known
  · exact (never_absent reached delivery token standing).elim
  · obtain ⟨⟨row, found, failed, attempts, _⟩, _⟩ :=
      underway guardedRuns_closed guardedRuns_outlive reached thread delivery token _ standing
    have handed : Handed deployment pool .processor delivery.record :=
      handled_by thread reached (by rw [standing]; rfl) (by rw [standing]; rfl)
    obtain ⟨decodes, published⟩ := delivery_event thread delivery guardedRuns_closed reached
      (by rw [standing]; rfl) (by rw [standing]; rfl)
    obtain ⟨text, notes, hop, member, toFailed, noted⟩ := told reached thread delivery token _ standing
    have carried : Notice.Carried deployment text headers := by
      have permitted := notice_permitted reached moved
      rw [notes] at permitted
      exact permitted
    obtain ⟨_, _, rfl, error, failedAt, rfl⟩ := letter
    refine ⟨row, published, ?_, found, failed, ?_, ?_, hop, member, toFailed, text, noted, ?_⟩
    · rw [Carries, wireRecord, decodes, wrapRaw_dump]
    · rw [attempts, wireRecord, Headers.getAttempt_rebuild, Delivery.attempt]
    · rw [wireRecord, Headers.getOriginTopic_build]
      exact congrArg some handed.topic
    · obtain ⟨attempt, origin, failedAt', same⟩ := carried
      rw [wireRecord, same, Headers.getError_build]
      rfl

/-- Every record on `orders.dlq` stands for a failed order. -/
theorem letters_stand
    (reached : Reachable (system deployment) (GuardedRuns deployment) World.empty pool) :
    ∀ partition, ∀ entry ∈ pool.world.logs ⟨deployment.settings.topicDlq, partition⟩,
      ∃ event row, StandsFor deployment pool entry event row := by
  induction reached with
  | init =>
    intro partition entry member
    cases member
  | @step pool label after reached permitted moved ih =>
    intro partition entry member
    have before : entry ∈ pool.world.logs ⟨deployment.settings.topicDlq, partition⟩ →
        ∃ event row, StandsFor deployment after entry event row := by
      intro earlier
      obtain ⟨event, row, stands⟩ := ih partition entry earlier
      exact ⟨event, row, stands.step reached moved⟩
    rcases step_appends guardedRuns_closed reached permitted moved with ⟨same, _⟩ |
      ⟨thread, topic, key, value, headers, place, outcome, rfl, took, publishes, world⟩
    · exact before (same ▸ member)
    · rw [world] at member
      rcases mem_append member with earlier | ⟨there, rfl⟩
      · exact before earlier
      · have topics := deployment.settings.topics_distinct
        have named : deployment.settings.topicDlq = topic := congrArg TopicPartition.topic there
        generalize standing : stage deployment pool thread = stands at publishes
        cases publishes with
        | submission => exact absurd named.symm topics.2.1
        | rejection record text letter invalid =>
          have handed : Handed deployment pool .processor record :=
            handled_by thread reached (by rw [standing]; rfl) (by rw [standing]; rfl)
          obtain ⟨_, event, _, decodes⟩ := handed_event guardedRuns_closed reached handed (by rintro ⟨⟩)
          rw [decodes, deployment.platform.modelValidate_dump] at invalid
          cases invalid
        | deadLetter delivery token phase owes letter =>
          obtain ⟨row, stands⟩ := letter_stands reached _ moved standing owes letter
          exact ⟨delivery.event, row, stands.step reached moved⟩
        | retry => exact absurd named.symm topics.2.2
        | relay => exact absurd named.symm topics.2.1

end OrderFlow
