import OrderFlow.Stage.Deliveries

/-!
The API calls keep to the stages, and with the consumers every thread does.
-/
namespace OrderFlow
open AsyncCoroutine AsyncPool Deliveries

variable {deployment : Deployment}

/-! ### Workers -/

theorem stopConsumer_follows {Value : Type} {next : Unit → Prog Value}
    (rest : Keeps (next ()) (fun _ left => left = .outside) (.outside : Stage deployment)) :
    Keeps (await .stopConsumer >>= next) (fun _ left => left = .outside)
      (.outside : Stage deployment) :=
  .perform_bind trivial (fun _ => rest) (fun _ => rfl) fun _ => rfl

theorem drainPartition_outside {name group : String} {handle : ConsumerRecord → Prog Ack}
    (safe : ∀ record, Keeps (BaseConsumer.safeHandle name handle record)
      (fun _ left => left = .outside) (.outside : Stage deployment))
    (tp : TopicPartition) (records : List ConsumerRecord) :
    Keeps (BaseConsumer.drainPartition name group handle tp records)
      (fun _ left => left = .outside) (.outside : Stage deployment) := by
  induction records with
  | nil => rfl
  | cons record rest ih =>
    refine .perform_bind trivial (fun stops => ?_) (fun _ => rfl) fun _ => rfl
    cases stops with
    | true => rfl
    | false =>
      refine (safe record).bind ?_ fun _ _ same => same
      rintro (_ | _) left rfl
      · exact .perform_bind trivial (fun _ => ih) (fun _ => rfl) fun _ => rfl
      · exact .perform_bind trivial (fun _ => rfl) (fun _ => rfl) fun _ => rfl

theorem drainBatch_outside {name group : String} {handle : ConsumerRecord → Prog Ack}
    (safe : ∀ record, Keeps (BaseConsumer.safeHandle name handle record)
      (fun _ left => left = .outside) (.outside : Stage deployment)) (batch : Batch) :
    Keeps (BaseConsumer.drainBatch name group handle batch)
      (fun _ left => left = .outside) (.outside : Stage deployment) := by
  induction batch with
  | nil => rfl
  | cons segment rest ih =>
    obtain ⟨tp, records⟩ := segment
    refine (drainPartition_outside safe tp records).bind ?_ fun _ _ same => same
    rintro (_ | _) left rfl
    · rfl
    · exact ih

theorem run_follows (consumer : Consumer) :
    Keeps (consumer.run deployment) (fun _ left => left = .outside)
      (.outside : Stage deployment) := by
  have safe : ∀ record, Keeps (BaseConsumer.safeHandle consumer.name (consumer.handle deployment)
      record) (fun _ left => left = .outside) (.outside : Stage deployment) :=
    fun record => safeHandle_follows (handle_follows consumer record)
  refine .tryCatch (Q := fun _ left => left = .outside) ?_ (fun _ _ same => same) ?_
  · refine .bind (Q := fun _ left => left = .outside) ?_ ?_ fun _ _ same => same
    · refine .perform_bind trivial (fun ended => ?_) (fun _ => rfl) fun _ => rfl
      cases ended with
      | true => rfl
      | false =>
        exact .perform_bind trivial (fun batch => drainBatch_outside safe batch) (fun _ => rfl)
          fun _ => rfl
    · rintro (_ | _) left rfl
      · exact stopConsumer_follows rfl
      · rfl
  · rintro error left rfl
    exact stopConsumer_follows rfl

/-! ### API calls -/

namespace Submission

def Submitted (result : Except Exn (Order × Bool)) (left : Stage deployment) : Prop :=
  match result with
  | .ok (order, true) => left = .submitting (.found order.row)
  | .ok (order, false) => ∃ payload key id eventId occurredAt,
      left = .submitting (.published payload key id eventId occurredAt) ∧
        order.row = Repository.newRow payload id
  | .error _ => left = .submitting .broken

/-- The lookup ends with the row it found, or in the stage of a new order. -/
theorem resolve_follows (payload : OrderCreate) (key : String) :
    Keeps (Service.resolveIdempotencyKey key)
      (fun result left => match result with
        | .ok none => left = .submitting (.missed payload (some key))
        | .ok (some order) => left = .submitting (.found order.row)
        | .error _ => left = .submitting .broken)
      (.submitting (.asking payload key) : Stage deployment) := by
  refine .perform_bind rfl (fun found => ?_) (fun _ => rfl) fun _ => rfl
  cases found with
  | none => rfl
  | some raw =>
    simp only [Stage.monitor, Stage.next, Submission.next]
    by_cases empty : raw = ""
    · simp only [empty, ↓reduceIte]
      rfl
    · simp only [empty, ↓reduceIte]
      cases Uuid.parse raw with
      | none => rfl
      | some id =>
        refine .perform_bind rfl (fun row => ?_) (fun _ => rfl) fun _ => rfl
        cases row with
        | none => rfl
        | some row => exact .perform_bind trivial (fun _ => rfl) (fun _ => rfl) fun _ => rfl

theorem publish_follows (payload : OrderCreate) (key : Option String) (id : Uuid)
    (transitions : List StatusTransition) :
    Keeps (do
        let eventId ← await .uuid4
        let occurredAt ← await .utcnow
        publishEvent deployment
          (Service.eventOf (Repository.newRow payload id) payload eventId occurredAt) 1
        incrStat "published"
        Cache.putOrder deployment ⟨Repository.newRow payload id, transitions⟩
        return ((⟨Repository.newRow payload id, transitions⟩ : Order), false))
      Submitted (.submitting (.reserved payload key id) : Stage deployment) := by
  refine .perform_bind trivial (fun eventId => ?_) (fun _ => rfl) fun _ => rfl
  refine .perform_bind trivial (fun occurredAt => ?_) (fun _ => rfl) fun _ => rfl
  refine .perform_bind ⟨rfl, rfl, rfl, rfl⟩ (fun _ => ?_) (fun _ => rfl) fun _ => rfl
  refine steady_bind (incrStat_steady ⟨trivial, fun outcome => ?_⟩) ?_
  · cases outcome <;> rfl
  refine steady_bind (putOrder_steady fun value ttl => ⟨trivial, fun outcome => ?_⟩) ?_
  · cases outcome <;> rfl
  · exact ⟨payload, key, id, eventId, occurredAt, rfl, rfl⟩

theorem createOrder_follows (payload : OrderCreate) (key : Option String) :
    Keeps (Repository.createOrder payload)
      (fun result left => match result with
        | .ok (order, writes) => ∃ id hop transitions,
            left = .submitting (.drawn payload key id) ∧
            order = ⟨Repository.newRow payload id, transitions⟩ ∧
            writes = Repository.createWrites (Repository.newRow payload id) hop
        | .error _ => left = .submitting .broken)
      (.submitting (.missed payload key) : Stage deployment) := by
  refine .perform_bind trivial (fun id => ?_) (fun _ => rfl) fun _ => rfl
  exact .perform_bind rfl (fun hop => ⟨id, hop, _, rfl, rfl, rfl⟩) (fun _ => rfl) fun _ => rfl

theorem create_follows (payload : OrderCreate) (idempotencyKey : Option String) :
    Keeps (do
        let (order, writes) ← Repository.createOrder payload
        await (.commit writes)
        Service.reserve deployment idempotencyKey order
        let eventId ← await .uuid4
        let occurredAt ← await .utcnow
        publishEvent deployment (Service.eventOf order.row payload eventId occurredAt) 1
        incrStat "published"
        Cache.putOrder deployment order
        return (order, false))
      Submitted
      (.submitting (.missed payload (Service.usableKey idempotencyKey)) : Stage deployment) := by
  refine (createOrder_follows payload _).bind ?_ fun _ _ same => same
  rintro ⟨order, writes⟩ left ⟨id, hop, transitions, rfl, rfl, rfl⟩
  generalize usable : Service.usableKey idempotencyKey = key
  refine .perform_bind ⟨hop, rfl⟩ (fun _ => ?_) (fun _ => by cases key <;> rfl)
    fun _ => by cases key <;> rfl
  cases key with
  | none =>
    simp only [Service.reserve, usable]
    exact publish_follows payload none id transitions
  | some key =>
    simp only [Service.reserve, usable]
    refine .perform_bind ⟨rfl, rfl⟩ (fun _ => ?_) (fun _ => rfl) fun _ => rfl
    exact publish_follows payload (some key) id transitions

theorem submitOrder_follows (payload : OrderCreate) (idempotencyKey : Option String) :
    Keeps (Service.submitOrder deployment payload idempotencyKey) Submitted
      ((Stage.monitor deployment).born (.submitOrder payload idempotencyKey)) := by
  have creates : Keeps _ _ (_ : Stage deployment) := create_follows payload idempotencyKey
  simp only [Service.submitOrder, Service.lookUp, Stage.monitor]
  cases usable : Service.usableKey idempotencyKey with
  | none =>
    rw [usable] at creates
    exact creates
  | some key =>
    rw [usable] at creates
    refine (resolve_follows payload key).bind ?_ fun _ _ same => same
    rintro (_ | order) left rfl
    · exact creates
    · rfl

end Submission

theorem readOrder_follows (orderId : Uuid) :
    Keeps (Service.readOrder deployment orderId) (fun _ left => left = .reading)
      (.reading : Stage deployment) := by
  have permitted : ∀ op, (Stage.monitor deployment).allowed .reading op →
      (await op).Uses ((Stage.monitor deployment).allowed .reading) :=
    fun op allowed => Coroutine.uses_perform allowed
  have counts : ∀ field, (incrStat field).Uses ((Stage.monitor deployment).allowed .reading) :=
    fun field => .tryCatch (permitted _ trivial) fun _ => trivial
  suffices uses : (Service.readOrder deployment orderId).Uses
      ((Stage.monitor deployment).allowed .reading) from
    .of_uses uses fun op allowed => ⟨allowed, fun _ => rfl⟩
  refine .bind ?_ fun cached => ?_
  · refine .bind (.tryCatch (.bind (permitted _ ⟨_, rfl⟩) fun _ => trivial) fun _ => trivial)
      fun raw => ?_
    split
    · trivial
    · exact .bind (counts _) fun _ => trivial
    · refine .bind (counts _) fun _ => ?_
      split
      · trivial
      · exact .bind (permitted _ ⟨_, rfl⟩) fun _ => trivial
  · cases cached with
    | some order => trivial
    | none =>
      refine .bind (.bind (permitted _ trivial) fun found => ?_) fun found => ?_
      · cases found with
        | none => trivial
        | some row => exact .bind (permitted _ trivial) fun _ => trivial
      · cases found with
        | none => trivial
        | some order =>
          exact .bind (.tryCatch (permitted _ ⟨_, rfl⟩) fun _ => trivial) fun _ => trivial

/-- The stage a call may end in, given its result. -/
def Stage.goal : Call → Except Exn Result → Stage deployment → Prop
  | .worker _, _, left => left = .outside
  | .submitOrder _ _, .ok (.submitted order wasDuplicate), left =>
      Submission.Submitted (.ok (order, wasDuplicate)) left
  | .submitOrder _ _, .ok _, _ => False
  | .submitOrder _ _, .error error, left => Submission.Submitted (.error error) left
  | .readOrder _, _, left => left = .reading

theorem Stage.keeps (deployment : Deployment) (call : Call) :
    (Stage.monitor deployment).Follows (program deployment call) (Stage.goal call)
      ((Stage.monitor deployment).born call) := by
  cases call with
  | worker consumer =>
    refine (run_follows consumer).bind ?_ fun _ _ same => same
    rintro goesOn left rfl
    rfl
  | submitOrder payload key =>
    refine (Submission.submitOrder_follows payload key).bind ?_ fun _ _ same => same
    rintro ⟨order, wasDuplicate⟩ left reached
    exact reached
  | readOrder orderId =>
    exact (readOrder_follows orderId).bind (fun _ _ same => same) fun _ _ same => same

end OrderFlow
