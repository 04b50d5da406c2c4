import OrderFlow.Kafka.Codec
import OrderFlow.Runs.Attempts
import OrderFlow.Sample

/-!
What the retry loop carries. However often a record is retried, replayed and
delivered again, the event's bytes and key are those of its submission, and each
attempt above the first has a failed attempt behind it.
-/
namespace OrderFlow
open AsyncCoroutine AsyncPool

variable {deployment : Deployment} {allows : Pipeline → Moment → Prop} {pool after : Pipeline}
  {thread : Nat} {event : OrderEvent} {entry : LogEntry}

/-- The record is read as an event with this event's id. -/
def ReadAs (platform : Platform) (entry : LogEntry) (event : OrderEvent) : Prop :=
  ∃ value other, valueDeserializer platform entry.record.value = some value ∧
    platform.modelValidate value = .ok other ∧ other.eventId = event.eventId

/-- The entry comes of an earlier record of the event, one attempt before: a delivery of it
    raised the TransientError that the entry's error says. -/
structure RetriedFrom (deployment : Deployment) (pool : Pipeline) (event : OrderEvent)
    (entry : LogEntry) (record : ConsumerRecord) (message : PyStr) : Prop where
  handed : Handed deployment pool .processor record
  earlier : ∃ stored, (pool.world.logs record.tp)[record.offset]? = some stored ∧
    Carries deployment.platform stored event ∧ stored.stamp < entry.stamp
  attempt : record.headers.getAttempt + 1 = entry.record.headers.getAttempt
  raised : Raised pool.trace record event message
  error : entry.record.headers.getError = some (replaced (message.take 500))

/-- What every record of an event is like, wherever it stands. -/
structure Transported (deployment : Deployment) (pool : Pipeline) (event : OrderEvent)
    (entry : LogEntry) : Prop where
  value : Carries deployment.platform entry event
  key : entry.record.key = some event.orderId.str.toUTF8
  attempt : 1 ≤ entry.record.headers.getAttempt ∧
    (entry.record.headers.getAttempt : Int) ≤ max 1 deployment.settings.maxAttempts
  retried : 1 < entry.record.headers.getAttempt →
    ∃ record message, RetriedFrom deployment pool event entry record message

theorem RetriedFrom.later {label : Moment} {record : ConsumerRecord} {message : PyStr}
    (retried : RetriedFrom deployment pool event entry record message)
    (moved : Step (system deployment) pool label after) :
    RetriedFrom deployment after event entry record message := by
  obtain ⟨stored, found, carries, before⟩ := retried.earlier
  obtain ⟨bound, place⟩ := List.getElem?_eq_some_iff.mp found
  have stays := List.prefix_iff_getElem?.mp (step_logs moved record.tp) _ bound
  rw [place] at stays
  constructor
  · exact retried.handed.later moved
  · exact ⟨stored, stays, carries, before⟩
  · exact retried.attempt
  · rw [step_trace moved]
    exact retried.raised.later label
  · exact retried.error

theorem Transported.later {label : Moment} (transported : Transported deployment pool event entry)
    (moved : Step (system deployment) pool label after) :
    Transported deployment after event entry := by
  constructor
  · exact transported.value
  · exact transported.key
  · exact transported.attempt
  · intro again
    obtain ⟨record, message, retried⟩ := transported.retried again
    exact ⟨record, message, retried.later moved⟩

/-- A key that is not empty is read back as it was. -/
theorem keyDeserializer_text {text : String} (nonempty : text ≠ "") :
    keyDeserializer (some text.toUTF8) = some (some text) := by
  have some_bytes : text.toUTF8.size ≠ 0 := by
    intro empty
    apply nonempty
    have bytes : text.toUTF8 = "".toUTF8 := by
      rw [ByteArray.size_eq_zero_iff.mp empty]
      rfl
    have same := decode_encode text
    rw [bytes, decode_encode] at same
    exact (Option.some.inj same).symm
  simp only [keyDeserializer, if_neg some_bytes, decode_encode, Option.map_some]

/-- A record read off a transported entry has the order's id as its key. -/
theorem Transported.read {record : ConsumerRecord} {tp : TopicPartition} {offset : Nat}
    (transported : Transported deployment pool event entry)
    (decoded : deserialize deployment.platform tp offset entry.record = some record) :
    record.key = some event.orderId.str ∧ record.value = deployment.platform.modelDump event ∧
      record.headers = entry.record.headers := by
  simp only [deserialize, Option.bind_eq_bind, Option.bind_eq_some_iff] at decoded
  obtain ⟨key, readKey, value, readValue, same⟩ := decoded
  rw [transported.key, keyDeserializer_text (uuid_str_ne_empty _)] at readKey
  rw [transported.value, serialized_value] at readValue
  cases readKey
  cases readValue
  cases same
  exact ⟨rfl, rfl, rfl⟩

/-! ### One hop -/

/-- The record as its consumer was handed it, and the entry it was read off. -/
theorem Transported.handed {consumer : Consumer} {record : ConsumerRecord}
    (known : ∀ tp, deployment.settings.carriesEvents tp.topic → ∀ entry ∈ pool.world.logs tp,
      ∃ thread event, PublishedBy deployment pool.trace thread event ∧
        Transported deployment pool event entry)
    (handed : Handed deployment pool consumer record)
    (through : deployment.settings.carriesEvents (consumer.topic deployment.settings)) :
    ∃ stored publisher event, (pool.world.logs record.tp)[record.offset]? = some stored ∧
      stored ∈ pool.world.logs record.tp ∧ PublishedBy deployment pool.trace publisher event ∧
      Transported deployment pool event stored ∧ record.key = some event.orderId.str ∧
      record.value = deployment.platform.modelDump event ∧
      record.headers = stored.record.headers := by
  obtain ⟨stored, found, decoded⟩ := handed.logged
  have member := List.mem_of_getElem? found
  have topic : deployment.settings.carriesEvents record.tp.topic := by
    rw [ConsumerRecord.tp, handed.topic]
    exact through
  obtain ⟨publisher, event, published, transported⟩ := known record.tp topic stored member
  obtain ⟨key, value, headers⟩ := transported.read decoded
  exact ⟨stored, publisher, event, found, member, published, transported, key, value, headers⟩

/-- The record of a retry. -/
theorem Transported.retry {delivery : Delivery deployment} {stored : LogEntry} {stamp : Nat}
    {message : PyStr} {due : ℚ} {failedAt : String}
    (transported : Transported deployment pool delivery.event stored)
    (found : (pool.world.logs delivery.record.tp)[delivery.record.offset]? = some stored)
    (handed : Handed deployment pool .processor delivery.record) (before : stored.stamp < stamp)
    (value : delivery.record.value = deployment.platform.modelDump delivery.event)
    (below : (delivery.attempt : Int) < deployment.settings.maxAttempts)
    (raised : Raised pool.trace delivery.record delivery.event message) :
    Transported deployment pool delivery.event
      ⟨wireRecord deployment.platform (some delivery.event.orderId.str) delivery.record.value
        (Headers.build deployment.platform (delivery.attempt + 1) (some (.num due)) (some message)
          (some delivery.record.topic) failedAt), stamp⟩ := by
  have error := Headers.getError_build deployment.platform (delivery.attempt + 1)
    (some (.num due)) (some message) (some delivery.record.topic) failedAt
  have attempt := Headers.getAttempt_build_cases deployment.platform (delivery.attempt + 1)
    (some (.num due)) (some message) (some delivery.record.topic) failedAt (by omega)
  constructor
  · rw [Carries, wireRecord, value]
  · rfl
  · simp only [wireRecord]
    omega
  · intro again
    simp only [wireRecord] at again
    have next := attempt.resolve_right (by omega)
    exact ⟨delivery.record, message, handed, ⟨stored, found, transported.value, before⟩, next.symm,
      raised, error⟩

/-- The record of a replay. -/
theorem Transported.replay {record : ConsumerRecord} {stored : LogEntry} {stamp : Nat}
    (transported : Transported deployment pool event stored) (before : stored.stamp < stamp)
    (key : record.key = some event.orderId.str)
    (value : record.value = deployment.platform.modelDump event)
    (headers : record.headers = stored.record.headers) :
    Transported deployment pool event
      ⟨wireRecord deployment.platform record.key record.value
        (Headers.build deployment.platform record.headers.getAttempt none
          (record.headers.getError.map py) none ""), stamp⟩ := by
  have attempt := Headers.getAttempt_rebuild deployment.platform none
    (record.headers.getError.map py) none "" record.headers
  rw [headers] at attempt
  constructor
  · rw [Carries, wireRecord, value]
  · rw [wireRecord, key]
    rfl
  · simp only [wireRecord, attempt, headers]
    exact transported.attempt
  · intro again
    simp only [wireRecord, attempt, headers] at again
    obtain ⟨first, message, retried⟩ := transported.retried again
    refine ⟨first, message, retried.handed, ?_, ?_, retried.raised, ?_⟩
    · obtain ⟨earlier, found, carries, older⟩ := retried.earlier
      exact ⟨earlier, found, carries, older.trans before⟩
    · simp only [wireRecord, attempt, headers]
      exact retried.attempt
    · simp only [wireRecord, Headers.getError_build, headers, retried.error, Option.map_some,
        replaced_again]

/-! ### Every hop -/

theorem all_transported (closed : Closed allows)
    (reached : Reachable (system deployment) allows World.empty pool) :
    ∀ tp, deployment.settings.carriesEvents tp.topic → ∀ entry ∈ pool.world.logs tp,
      ∃ thread event, PublishedBy deployment pool.trace thread event ∧
        Transported deployment pool event entry := by
  induction reached with
  | init =>
    intro tp _ entry member
    cases member
  | @step pool label after reached permitted moved ih =>
    intro tp topic entry member
    have kept : ∀ {publisher event entry}, PublishedBy deployment pool.trace publisher event →
        Transported deployment pool event entry →
        ∃ thread event, PublishedBy deployment after.trace thread event ∧
          Transported deployment after event entry := by
      intro publisher event entry published transported
      exact ⟨publisher, event, published.kept moved, transported.later moved⟩
    have before : entry ∈ pool.world.logs tp → ∃ thread event,
        PublishedBy deployment after.trace thread event ∧
          Transported deployment after event entry := by
      intro earlier
      obtain ⟨thread, event, published, transported⟩ := ih tp topic entry earlier
      exact kept published transported
    have distinct := deployment.settings.topics_distinct
    have lettered : ∀ {record key value headers}, ¬ Phase.IsDeadLetter deployment record tp.topic
        key value headers := by
      intro record key value headers letter
      rw [letter.1] at topic
      rcases topic with same | same
      · exact distinct.2.1 same.symm
      · exact distinct.2.2 same.symm
    rcases step_appends closed reached permitted moved with ⟨same, _⟩ |
      ⟨thread, sent, key, value, headers, partition, outcome, rfl, took, publishes, world⟩
    · exact before (same ▸ member)
    rw [world] at member
    rcases mem_append member with earlier | ⟨rfl, rfl⟩
    · exact before earlier
    generalize standing : stage deployment pool thread = stands at publishes
    cases publishes with
    | submission payload idempotencyKey id eventId instant =>
      have attempt := (or_self_iff).mp
        (Headers.getAttempt_build_cases deployment.platform 1 none none none "" le_rfl)
      refine ⟨thread, submittedEvent payload id eventId instant, ?_, ?_⟩
      · rw [step_trace moved]
        exact ⟨_, _, _, _, payload, idempotencyKey, id, eventId, instant, List.suffix_rfl, took,
          standing, rfl⟩
      · constructor
        · rfl
        · rfl
        · simp only [wireRecord, attempt]
          omega
        · intro again
          simp only [wireRecord, attempt] at again
          omega
    | rejection record text letter invalid => exact (lettered letter).elim
    | deadLetter delivery token phase owes letter => exact (lettered letter).elim
    | retry delivery token reason due failedAt =>
      have handed : Handed deployment pool .processor delivery.record :=
        handled_by thread reached (by rw [standing]; rfl) (by rw [standing]; rfl)
      obtain ⟨stored, publisher, event, found, inLog, published, transported, _, value, _⟩ :=
        Transported.handed ih handed (.inl rfl)
      have valid := delivery.valid
      rw [value, deployment.platform.modelValidate_dump] at valid
      cases valid
      obtain ⟨message, rfl, below, raised⟩ :=
        retry_raised reached thread delivery token _ reason standing rfl
      exact kept published
        (transported.retry found handed (stamped reached _ _ inLog) value below raised)
    | relay record =>
      have handed : Handed deployment pool .retry record :=
        handled_by thread reached (by rw [standing]; rfl) (by rw [standing]; rfl)
      obtain ⟨stored, publisher, event, found, inLog, published, transported, key, value, headers⟩ :=
        Transported.handed ih handed (.inr rfl)
      exact kept published (transported.replay (stamped reached _ _ inLog) key value headers)

theorem retry_transport (closed : Closed allows)
    (reached : Reachable (system deployment) allows World.empty pool)
    (published : PublishedBy deployment pool.trace thread event) {tp : TopicPartition}
    (topic : deployment.settings.carriesEvents tp.topic) (member : entry ∈ pool.world.logs tp)
    (read : ReadAs deployment.platform entry event) :
    Transported deployment pool event entry ∧
      ∃ value, valueDeserializer deployment.platform entry.record.value = some value ∧
        deployment.platform.modelValidate value = .ok event := by
  obtain ⟨value, other, decoded, valid, same⟩ := read
  obtain ⟨publisher, carried, also, transported⟩ := all_transported closed reached tp topic entry member
  have readsBack := decoded
  rw [transported.value, serialized_value] at readsBack
  cases readsBack
  rw [deployment.platform.modelValidate_dump] at valid
  cases valid
  obtain rfl := one_event reached also published (.inr same)
  exact ⟨transported, _, decoded, deployment.platform.modelValidate_dump _⟩

namespace Sample

/-- A delivery that schedules a retry, up to its publication. -/
def schedules : Moves :=
  submit 0 (some .transient) 1 2 ++ consume {} 1 .processor ++ runs 1 2 ++ [.run 1 (draw 3)] ++
    runs 1 6 ++ [.run 1 (result (.error (.transient shaken))), .run 1 (.normal { draw := 1 })] ++
    runs 1 8

end Sample

theorem retry_transport_run : ∃ pool event, ∃ entry ∈ pool.world.logs ⟨"orders.retry", 0⟩,
    Reachable (system Sample.shop) Sample.SubmittedOnly World.empty pool ∧
      entry.record.headers.getAttempt = 2 ∧
      ∃ record message, RetriedFrom Sample.shop pool event entry record message := by
  obtain ⟨pool, reached, facts⟩ := Sample.play_shows {} Sample.fulfils
    [Sample.event (some .transient) 1 2] Sample.schedules Sample.submittedOnly_sound
    (fun pool => (pool.world.logs ⟨"orders.retry", 0⟩).any fun entry =>
      decide (entry.record.headers.getAttempt = 2))
    (by decide +kernel)
  simp only [List.any_eq_true, decide_eq_true_eq] at facts
  obtain ⟨entry, member, second⟩ := facts
  have closed : Closed Sample.SubmittedOnly := fun _ tp record permitted => permitted tp record rfl
  obtain ⟨thread, event, published, carries⟩ := carried closed reached _ (.inr rfl) entry member
  have read : ReadAs Sample.platform entry event := by
    refine ⟨_, event, ?_, Sample.platform.modelValidate_dump event, rfl⟩
    rw [carries]
    exact serialized_value Sample.platform event
  obtain ⟨transported, _⟩ := retry_transport closed reached published (.inr rfl) member read
  have again : 1 < entry.record.headers.getAttempt := by omega
  exact ⟨pool, event, entry, member, reached, second, transported.retried again⟩

end OrderFlow
