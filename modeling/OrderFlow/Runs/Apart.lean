import OrderFlow.Runs.Working

/-!
One event among others. Where a state holds nothing else about an order than the
records with its event, and nobody produces anything about it, it stays so: every
other record is about another order, or about none.
-/
namespace OrderFlow
open AsyncCoroutine AsyncPool

variable {deployment : Deployment} {allows : Pipeline → Moment → Prop} {pool after : Pipeline}
  {thread : Nat} {op : Op} {outcome : Outcome Exn op.Reply} {event : OrderEvent} {label : Moment}

/-- A value about another order, or none, that json reads back as it printed it. -/
structure Unrelated (platform : Platform) (event : OrderEvent) (value : Json) : Prop where
  prints : platform.loads (platform.dumps value) = some value
  other : ∀ read, platform.modelValidate value = .ok read →
    read.eventId ≠ event.eventId ∧ read.orderId ≠ event.orderId

def UnrelatedRecord (platform : Platform) (event : OrderEvent) (record : WireRecord) : Prop :=
  ∀ value, valueDeserializer platform record.value = some value → Unrelated platform event value

/-- A record with the event, on one of the topics that carry events. -/
structure Ours (deployment : Deployment) (event : OrderEvent) (record : ConsumerRecord) : Prop where
  value : record.value = deployment.platform.modelDump event
  topic : deployment.settings.carriesEvents record.topic

/-- The submission publishes neither this event nor another of its order. -/
def Submission.Spares (event : OrderEvent) (submission : Submission) : Prop :=
  submission.pending = true → submission.row ≠ some event.orderId ∧
    ∀ id, submission.event = some id → id.str ≠ event.eventId

structure Apart (deployment : Deployment) (event : OrderEvent) (pool : Pipeline) : Prop where
  logs : ∀ tp, deployment.settings.carriesEvents tp.topic → ∀ entry ∈ pool.world.logs tp,
    Carries deployment.platform entry event ∨
      UnrelatedRecord deployment.platform event entry.record
  submissions : ∀ thread submission, stage deployment pool thread = .submitting submission →
    submission.Spares event
  issued : ∀ id, id = event.orderId ∨ id.str = event.eventId → id ∈ pool.world.issued

/-- What others produce is about other orders. -/
def ProducesUnrelated (deployment : Deployment) (event : OrderEvent) (_ : Pipeline)
    (label : Moment) : Prop :=
  ∀ tp record, label = .event (.produce tp record) → deployment.settings.carriesEvents tp.topic →
    UnrelatedRecord deployment.platform event record

theorem dead_topic : ¬ deployment.settings.carriesEvents deployment.settings.topicDlq := by
  have distinct := deployment.settings.topics_distinct
  intro topic
  rcases topic with same | same
  · exact distinct.2.1 same.symm
  · exact distinct.2.2 same.symm

theorem consumer_carries {consumer : Consumer} (through : consumer ≠ .dlq) :
    deployment.settings.carriesEvents (consumer.topic deployment.settings) := by
  cases consumer with
  | processor => exact .inl rfl
  | retry => exact .inr rfl
  | dlq => exact absurd rfl through

theorem unrelated_wire {key : Option String} {value : Json} {headers : Headers}
    (unrelated : Unrelated deployment.platform event value) :
    UnrelatedRecord deployment.platform event (wireRecord deployment.platform key value headers) := by
  intro read decoded
  simp only [wireRecord, valueDeserializer, serialize] at decoded
  rw [decode_encode, Option.bind_some, unrelated.prints] at decoded
  cases decoded
  exact unrelated

theorem unrelated_event {other : OrderEvent} (named : other.eventId ≠ event.eventId)
    (ordered : other.orderId ≠ event.orderId) :
    Unrelated deployment.platform event (deployment.platform.modelDump other) := by
  constructor
  · exact deployment.platform.loads_dumps other
  · intro read valid
    rw [deployment.platform.modelValidate_dump] at valid
    cases valid
    exact ⟨named, ordered⟩

namespace Apart

/-- A record in the hands of a consumer of events is the event's, or about something else. -/
theorem handed {consumer : Consumer} {record : ConsumerRecord} (apart : Apart deployment event pool)
    (handed : Handed deployment pool consumer record) (through : consumer ≠ .dlq) :
    Ours deployment event record ∨ Unrelated deployment.platform event record.value := by
  have topic : deployment.settings.carriesEvents record.topic := by
    rw [handed.topic]
    exact consumer_carries through
  obtain ⟨entry, found, decoded⟩ := handed.logged
  rcases apart.logs record.tp topic entry (List.mem_of_getElem? found) with carries | unrelated
  · obtain ⟨_, _, also, decodes⟩ := handed.logged.carries
    rw [found] at also
    cases also
    exact .inl ⟨decodes event carries, topic⟩
  · simp only [deserialize, Option.bind_eq_bind, Option.bind_eq_some_iff] at decoded
    obtain ⟨key, _, value, read, same⟩ := decoded
    rw [← congrArg ConsumerRecord.value (Option.some.inj same)]
    exact .inr (unrelated value read)

theorem in_call {consumer : Consumer} {record : ConsumerRecord} (apart : Apart deployment event pool)
    (ran : Reachable (system deployment) allows World.empty pool)
    (inCall : (stage deployment pool thread).record = some record)
    (known : (stage deployment pool thread).consumer = some consumer) (through : consumer ≠ .dlq) :
    Ours deployment event record ∨ Unrelated deployment.platform event record.value :=
  apart.handed (handled_by thread ran inCall known) through

/-- A delivery about the event or its order is one of the event. -/
theorem delivery {delivery : Delivery deployment} (apart : Apart deployment event pool)
    (ran : Reachable (system deployment) allows World.empty pool)
    (inCall : (stage deployment pool thread).record = some delivery.record)
    (consumes : (stage deployment pool thread).consumer = some .processor)
    (about : delivery.event.eventId = event.eventId ∨ delivery.event.orderId = event.orderId) :
    Ours deployment event delivery.record := by
  rcases apart.in_call ran inCall consumes (by rintro ⟨⟩) with ours | unrelated
  · exact ours
  · obtain ⟨named, ordered⟩ := unrelated.other _ delivery.valid
    rcases about with same | same
    · exact absurd same named
    · exact absurd same ordered

/-- What is put on a log is the event's, or about something else. -/
theorem publishes {topic : String} {key : Option String} {value : Json} {headers : Headers}
    (apart : Apart deployment event pool)
    (ran : Reachable (system deployment) allows World.empty pool)
    (publishes : Publishes deployment (stage deployment pool thread) topic key value headers)
    (carries : deployment.settings.carriesEvents topic) (stamp : Nat) :
    (Carries deployment.platform ⟨wireRecord deployment.platform key value headers, stamp⟩ event ∧
      ∃ record, (stage deployment pool thread).record = some record ∧ Ours deployment event record) ∨
    UnrelatedRecord deployment.platform event (wireRecord deployment.platform key value headers) := by
  have passed : ∀ (consumer : Consumer) {record : ConsumerRecord} {key : Option String}
      {headers : Headers}, (stage deployment pool thread).record = some record →
      (stage deployment pool thread).consumer = some consumer → consumer ≠ .dlq →
      (Carries deployment.platform
          ⟨wireRecord deployment.platform key record.value headers, stamp⟩ event ∧
        ∃ record, (stage deployment pool thread).record = some record ∧ Ours deployment event record) ∨
      UnrelatedRecord deployment.platform event
        (wireRecord deployment.platform key record.value headers) := by
    intro consumer record key headers inCall known through
    rcases apart.in_call ran inCall known through with ours | unrelated
    · refine .inl ⟨?_, record, inCall, ours⟩
      rw [Carries, wireRecord, ours.value]
    · exact .inr (unrelated_wire unrelated)
  have spares := apart.submissions thread
  generalize standing : stage deployment pool thread = stands at publishes passed spares
  cases publishes with
  | submission payload idempotencyKey id eventId instant =>
    obtain ⟨row, named⟩ := spares _ rfl rfl
    refine .inr (unrelated_wire (unrelated_event (named eventId rfl) ?_))
    rintro same
    exact row (congrArg some same)
  | rejection record text letter invalid =>
    rw [letter.1] at carries
    exact absurd carries dead_topic
  | deadLetter delivery token phase owes letter =>
    rw [letter.1] at carries
    exact absurd carries dead_topic
  | retry delivery token reason due failedAt =>
    exact passed .processor rfl rfl (by rintro ⟨⟩)
  | relay record => exact passed .retry rfl rfl (by rintro ⟨⟩)

theorem submission_acts (apart : Apart deployment event pool)
    (act : Acts deployment pool after thread op outcome) {submission : Submission}
    (standing : stage deployment after thread = .submitting submission) :
    submission.Spares event := by
  intro pending
  obtain ⟨fate, performed⟩ := act.performed
  obtain ⟨first, before, moved⟩ := act.progress.submission standing
  obtain ⟨row, named⟩ := apart.submissions thread first before (moved.pending pending)
  have drawn : ∀ id, Draws op outcome id → id ∉ pool.world.issued := by
    intro id draws
    unfold Draws at draws
    split at draws
    · subst draws
      obtain ⟨_, same, fresh, _⟩ := perform_uuid4 performed
      cases same
      exact fresh
    · cases draws
  constructor
  · intro same
    rcases moved.row same with earlier | draws
    · exact row earlier
    · exact drawn _ draws (apart.issued _ (.inl rfl))
  · intro id same
    rcases moved.event same with earlier | draws
    · exact named id earlier
    · intro text
      exact drawn _ draws (apart.issued _ (.inr text))

theorem begins {submission : Submission} {stage : Stage deployment} (begins : Stage.Begins stage)
    (standing : stage = .submitting submission) : submission.Spares event := by
  intro _
  cases begins with
  | asks | misses =>
    cases standing
    exact ⟨by rintro ⟨⟩, by rintro _ ⟨⟩⟩
  | _ => cases standing

theorem issued_kept (apart : Apart deployment event pool)
    (ran : Reachable (system deployment) allows World.empty pool)
    (moved : Step (system deployment) pool label after) :
    ∀ id, id = event.orderId ∨ id.str = event.eventId → id ∈ after.world.issued := by
  intro id about
  have known := apart.issued id about
  rcases step_cases ran moved with ⟨actor, op, outcome, rfl, act⟩ | ⟨actor, turn⟩ |
    ⟨happened, rfl, happening⟩
  · obtain ⟨fate, performed⟩ := act.performed
    by_cases draws : op = .uuid4
    · subst draws
      obtain ⟨drawn, _, _, world⟩ := perform_uuid4 performed
      rw [world]
      exact List.mem_cons_of_mem _ known
    · rw [perform_issued performed (by cases op <;> first | rfl | exact absurd rfl draws)]
      exact known
  · rw [turn.world]
    exact known
  · rw [(happen_frame happening.happened).2.2.2.2]
    exact known

/-- Each step keeps the event apart from the others. -/
theorem step (apart : Apart deployment event pool)
    (ran : Reachable (system deployment) allows World.empty pool)
    (moved : Step (system deployment) pool label after)
    (produced : ProducesUnrelated deployment event pool label) : Apart deployment event after := by
  have issued := apart.issued_kept ran moved
  rcases step_cases ran moved with ⟨actor, op, outcome, rfl, act⟩ | ⟨actor, turn⟩ |
    ⟨happened, rfl, happening⟩
  · refine ⟨?_, ?_, issued⟩
    · intro tp topic entry member
      cases logs_change act with
      | same logs _ => exact apart.logs tp topic entry (logs ▸ member)
      | appended partition _ publishes world _ =>
        rw [world] at member
        rcases mem_append member with earlier | ⟨rfl, rfl⟩
        · exact apart.logs tp topic entry earlier
        · exact (apart.publishes ran publishes topic _).imp And.left id
    · intro thread submission standing
      by_cases same : thread = actor
      · subst same
        exact apart.submission_acts act standing
      · rw [act.others thread same] at standing
        exact apart.submissions thread submission standing
  · refine ⟨?_, ?_, issued⟩
    · rw [turn.world]
      exact apart.logs
    · intro thread submission standing
      by_cases same : thread = actor
      · subst same
        exact begins turn.begins standing
      · rw [turn.others thread same] at standing
        exact apart.submissions thread submission standing
  · refine ⟨?_, ?_, issued⟩
    · intro tp topic entry member
      rcases happen_logs happening.happened with ⟨logs, _⟩ | ⟨place, record, rfl, world⟩
      · exact apart.logs tp topic entry (logs ▸ member)
      · rw [world] at member
        rcases mem_append member with earlier | ⟨rfl, rfl⟩
        · exact apart.logs tp topic entry earlier
        · exact .inr (produced tp record rfl topic)
    · intro thread submission standing
      rw [happening.stages thread] at standing
      exact apart.submissions thread submission standing

end Apart
end OrderFlow
