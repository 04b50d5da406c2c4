import OrderFlow.System

/-!
The consume loop as a protocol: which record is handed over next, and what may
follow a handler's answer. Programs below the loop never touch it.
-/
namespace OrderFlow
open AsyncCoroutine AsyncPool

/-! ### What handlers and API calls leave to the loop -/

def Inner (op : Op) : Prop := op.onLoop = false

theorem await_inner (op : Op) (inner : op.onLoop = false) : (await op).Uses Inner :=
  Coroutine.uses_perform inner

theorem incrStat_inner (field : String) : (incrStat field).Uses Inner :=
  (await_inner _ rfl).tryCatch fun _ => trivial

theorem sessionScope_inner {Value : Type} {body : Prog (Value × List Write)}
    (inner : body.Uses Inner) : (sessionScope body).Uses Inner :=
  .tryCatch (inner.bind fun _ => .bind (await_inner _ rfl) fun _ => trivial)
    fun _ => .bind (await_inner _ rfl) fun _ => trivial

section
variable (deployment : Deployment)

theorem getOrder_inner (id : Uuid) : (Repository.getOrder id).Uses Inner := by
  refine .bind (await_inner _ rfl) fun found => ?_
  cases found with
  | none => trivial
  | some row => exact .bind (await_inner _ rfl) fun _ => trivial

theorem transition_inner (order : Order) (toStatus : OrderStatus) (note : PyStr) (attempts : Nat)
    (failureReason : Option PyStr) :
    (Repository.transition order toStatus note attempts failureReason).Uses Inner :=
  .bind (await_inner _ rfl) fun _ => trivial

theorem putOrder_inner (order : Order) : (Cache.putOrder deployment order).Uses Inner :=
  (await_inner _ rfl).tryCatch fun _ => trivial

theorem buildHeaders_inner (attempt : Nat) (notBefore : Option PyFloat) (error : Option PyStr)
    (originTopic : Option String) :
    (buildHeaders deployment attempt notBefore error originTopic).Uses Inner := by
  cases originTopic with
  | none => trivial
  | some topic => exact .bind (await_inner _ rfl) fun _ => trivial

theorem claim_inner (eventId : String) :
    (IdempotencyGuard.claim deployment.settings eventId).Uses Inner := by
  refine .bind (await_inner _ rfl) fun token => .bind (await_inner _ rfl) fun won => ?_
  split
  · trivial
  · refine .bind (await_inner _ rfl) fun current => ?_
    split
    · trivial
    · refine .bind (await_inner _ rfl) fun again => ?_
      split
      · trivial
      · exact .bind (await_inner _ rfl) fun _ => trivial

theorem toDlq_inner (record : ConsumerRecord) (attempt : Nat) (error : PyStr) :
    (OrderConsumer.toDlq deployment record attempt error).Uses Inner :=
  .bind (buildHeaders_inner ..) fun _ => await_inner _ rfl

theorem moveOrder_inner (orderId : Uuid) (toStatus : OrderStatus) (note : PyStr) (attempt : Nat)
    (failureReason : Option PyStr) :
    (OrderConsumer.moveOrder orderId toStatus note attempt failureReason).Uses Inner := by
  refine sessionScope_inner (.bind (getOrder_inner _) fun found => ?_)
  cases found with
  | none => trivial
  | some order => exact transition_inner ..

theorem retry_inner (event : OrderEvent) (record : ConsumerRecord) (attempt : Nat) (claim : Claim)
    (error : PyStr) : (OrderConsumer.retry deployment event record attempt claim error).Uses Inner := by
  refine .bind ?_ fun delay => .bind (moveOrder_inner ..) fun order =>
    .bind (putOrder_inner ..) fun _ => .bind (await_inner _ rfl) fun now =>
    .bind (buildHeaders_inner ..) fun headers => .bind (await_inner _ rfl) fun _ =>
    .bind (await_inner _ rfl) fun _ => .bind (incrStat_inner _) fun _ => trivial
  simp only [Processing.backoffDelay]
  split
  · trivial
  · exact .bind (await_inner _ rfl) fun _ => trivial

theorem deadLetter_inner (event : OrderEvent) (record : ConsumerRecord) (attempt : Nat)
    (claim : Claim) (text error : PyStr) :
    (OrderConsumer.deadLetter deployment event record attempt claim text error).Uses Inner := by
  refine .bind (sessionScope_inner (.bind (getOrder_inner _) fun found => ?_)) fun moved => ?_
  · cases found with
    | none => trivial
    | some order => exact .bind (transition_inner ..) fun _ => trivial
  · have rest : (do
        OrderConsumer.toDlq deployment record attempt text
        let _ ← IdempotencyGuard.complete deployment.settings claim
        incrStat "failed"
        return Ack.commit).Uses Inner :=
      .bind (toDlq_inner ..) fun _ => .bind (await_inner _ rfl) fun _ =>
        .bind (incrStat_inner _) fun _ => trivial
    cases moved with
    | none => exact rest
    | some order => exact .bind (putOrder_inner ..) fun _ => rest

theorem fail_inner (event : OrderEvent) (record : ConsumerRecord) (attempt : Nat) (claim : Claim)
    (error : PyStr) (retryable : Bool) :
    (OrderConsumer.fail deployment event record attempt claim error retryable).Uses Inner := by
  simp only [OrderConsumer.fail]
  split
  · exact retry_inner ..
  · exact deadLetter_inner ..

theorem accept_inner (event : OrderEvent) (record : ConsumerRecord) (attempt : Nat) (claim : Claim) :
    (OrderConsumer.accept deployment event record attempt claim).Uses Inner := by
  refine sessionScope_inner (.bind (getOrder_inner _) fun found => ?_)
  cases found with
  | none => exact .bind (await_inner _ rfl) fun _ => .bind (toDlq_inner ..) fun _ => trivial
  | some order =>
    simp only
    split
    · exact .bind (await_inner _ rfl) fun _ => .bind (incrStat_inner _) fun _ => trivial
    · exact .bind (transition_inner ..) fun _ => trivial

theorem succeed_inner (event : OrderEvent) (attempt : Nat) (claim : Claim) :
    (OrderConsumer.succeed deployment event attempt claim).Uses Inner :=
  .bind (moveOrder_inner ..) fun _ => .bind (putOrder_inner ..) fun _ =>
    .bind (await_inner _ rfl) fun _ => .bind (incrStat_inner _) fun _ => trivial

theorem tryFulfil_inner (event : OrderEvent) : (OrderConsumer.tryFulfil event).Uses Inner := by
  refine .tryCatch (.bind (await_inner _ rfl) fun _ => trivial) fun error => ?_
  cases error <;> trivial

theorem process_inner (event : OrderEvent) (record : ConsumerRecord) (attempt : Nat)
    (claim : Claim) : (OrderConsumer.process deployment event record attempt claim).Uses Inner := by
  refine .bind (accept_inner ..) fun accepted => ?_
  cases accepted with
  | none => trivial
  | some order =>
    refine .bind (putOrder_inner ..) fun _ => .bind (tryFulfil_inner _) fun failed => ?_
    cases failed with
    | none => exact succeed_inner ..
    | some failure => exact fail_inner ..

theorem orderConsumer_inner (record : ConsumerRecord) :
    (OrderConsumer.handle deployment record).Uses Inner := by
  simp only [OrderConsumer.handle]
  split
  · exact .bind (toDlq_inner ..) fun _ => trivial
  · refine .bind (incrStat_inner _) fun _ => .bind (claim_inner ..) fun claim => ?_
    split
    · exact .bind (incrStat_inner _) fun _ => trivial
    · exact .bind (await_inner _ rfl) fun _ => trivial
    · exact .tryCatch (process_inner ..) fun _ => .bind (await_inner _ rfl) fun _ => trivial

theorem retryScheduler_inner (record : ConsumerRecord) :
    (RetryScheduler.handle deployment record).Uses Inner := by
  refine .bind (await_inner _ rfl) fun now => ?_
  have rest : (do
      let headers ← buildHeaders deployment record.headers.getAttempt none
        (record.headers.getError.map py) none
      publishRaw deployment.settings.topicOrders record.key record.value headers
      return Ack.commit).Uses Inner :=
    .bind (buildHeaders_inner ..) fun _ => .bind (await_inner _ rfl) fun _ => trivial
  split
  · exact .bind (await_inner _ rfl) fun _ => rest
  · exact rest

theorem dlqArchiver_inner (record : ConsumerRecord) : (DlqArchiver.handle record).Uses Inner :=
  .bind (sessionScope_inner (.bind (await_inner _ rfl) fun _ => trivial)) fun _ =>
    .bind (incrStat_inner _) fun _ => trivial

theorem handle_inner (consumer : Consumer) (record : ConsumerRecord) :
    (consumer.handle deployment record).Uses Inner := by
  cases consumer with
  | processor => exact orderConsumer_inner ..
  | retry => exact retryScheduler_inner ..
  | dlq => exact dlqArchiver_inner ..

theorem lookUp_inner (idempotencyKey : Option String) :
    (Service.lookUp idempotencyKey).Uses Inner := by
  simp only [Service.lookUp]
  split
  · refine .bind (await_inner _ rfl) fun found => ?_
    split
    · trivial
    · split
      · trivial
      · split
        · exact getOrder_inner _
        · trivial
  · trivial

theorem submitOrder_inner (payload : OrderCreate) (idempotencyKey : Option String) :
    (Service.submitOrder deployment payload idempotencyKey).Uses Inner := by
  refine .bind (lookUp_inner _) fun found => ?_
  cases found with
  | some existing => trivial
  | none =>
    refine .bind (.bind (await_inner _ rfl) fun _ => .bind (await_inner _ rfl) fun _ => trivial)
      fun created => .bind (await_inner _ rfl) fun _ => .bind ?_ fun _ =>
      .bind (await_inner _ rfl) fun _ => .bind (await_inner _ rfl) fun _ =>
      .bind (.bind (buildHeaders_inner ..) fun _ => await_inner _ rfl) fun _ =>
      .bind (incrStat_inner _) fun _ => .bind (putOrder_inner ..) fun _ => trivial
    simp only [Service.reserve]
    split
    · exact await_inner _ rfl
    · trivial

theorem readOrder_inner (orderId : Uuid) : (Service.readOrder deployment orderId).Uses Inner := by
  refine .bind ?_ fun cached => ?_
  · refine .bind (.tryCatch (.bind (await_inner _ rfl) fun _ => trivial) fun _ => trivial)
      fun raw => ?_
    split
    · trivial
    · exact .bind (incrStat_inner _) fun _ => trivial
    · refine .bind (incrStat_inner _) fun _ => ?_
      split
      · trivial
      · exact .bind (await_inner _ rfl) fun _ => trivial
  · cases cached with
    | some order => trivial
    | none =>
      refine .bind (getOrder_inner _) fun found => ?_
      cases found with
      | none => trivial
      | some order => exact .bind (putOrder_inner ..) fun _ => trivial

end

/-! ### Other handlers -/

/-- The running system with any handlers in its workers' loops. -/
def workers (deployment : Deployment) (handles : Consumer → ConsumerRecord → Prog Ack) :
    System Op Op.Reply Exn World Call Result Event Fate :=
  { system deployment with
    program := fun
      | .worker consumer =>
          Result.pass <$> BaseConsumer.runPass consumer.name (consumer.group deployment.settings)
            (handles consumer) (consumer.topic deployment.settings)
      | call => program deployment call }

theorem system_workers (deployment : Deployment) :
    system deployment = workers deployment (Consumer.handle deployment) := by
  unfold system workers
  congr 1
  funext call
  cases call <;> rfl

/-! ### The loop's protocol -/

abbrev Batch := List (TopicPartition × List ConsumerRecord)

/-- The batch from its next record on. -/
def ready : Batch → Batch
  | (_, []) :: rest => ready rest
  | batch => batch

inductive Turn where
  | idle
  | inside (record : ConsumerRecord)
  | returned (record : ConsumerRecord) (ack : Ack)

inductive Loop where
  | off
  | on (consumer : Consumer) (batch : Batch) (turn : Turn)

namespace Loop
variable (settings : Settings)

/-- The next record of the batch. -/
def Next (batch : Batch) (tp : TopicPartition) (record : ConsumerRecord) : Prop :=
  ∃ rest more, batch = (tp, record :: rest) :: more

def allowed : Loop → Op → Prop
  | .off, op => Inner op
  | .on consumer batch turn, .getmany topic =>
      topic = consumer.topic settings ∧ batch = [] ∧ turn = .idle
  | .on consumer batch turn, .handleCall name record =>
      name = consumer.name ∧ turn = .idle ∧ ∃ tp, Next batch tp record
  | .on consumer batch turn, .handleReturn name record _ =>
      name = consumer.name ∧ turn = .inside record ∧ ∃ tp, Next batch tp record
  | .on _ batch turn, .seek tp offset =>
      ∃ record, Next batch tp record ∧ turn = .returned record .redeliver ∧ offset = record.offset
  | .on consumer batch turn, .commitOffset group tp offset =>
      ∃ record, Next batch tp record ∧ turn = .returned record .commit ∧
        group = consumer.group settings ∧ offset = record.offset + 1
  | _, _ => True

/-- The batch after its next record. -/
def advance : Batch → Batch
  | (tp, _ :: rest) :: more => ready ((tp, rest) :: more)
  | batch => batch

def next : Loop → (op : Op) → Outcome Exn op.Reply → Loop
  | .off, _, _ => .off
  | .on consumer _ _, .getmany _, .ok batch => .on consumer (ready batch) .idle
  | .on _ _ _, .getmany _, _ => .off
  | .on consumer batch _, .handleCall _ record, _ => .on consumer batch (.inside record)
  | .on consumer batch _, .handleReturn _ record (some ack), .ok _ =>
      .on consumer batch (.returned record ack)
  | .on consumer batch _, .handleReturn _ record (some _), _ =>
      .on consumer batch (.inside record)
  | .on consumer batch _, .handleReturn _ record none, _ =>
      .on consumer batch (.returned record .redeliver)
  | .on consumer batch _, .seek _ _, .ok _ => .on consumer (ready batch.tail) .idle
  | .on _ _ _, .seek _ _, _ => .off
  | .on consumer batch _, .commitOffset _ _ _, .ok _ => .on consumer (advance batch) .idle
  | .on _ _ _, .commitOffset _ _ _, _ => .off
  | loop, _, _ => loop

def monitor : Monitor Op Op.Reply Exn Call Loop where
  allowed := allowed settings
  next := next
  idle := .off
  born
    | .worker consumer => .on consumer [] .idle
    | _ => .off

variable {settings}

theorem quiet_inner (loop : Loop) (op : Op) (inner : Inner op) :
    (monitor settings).Quiet loop op := by
  cases loop with
  | off => exact ⟨inner, fun _ => rfl⟩
  | on consumer batch turn =>
    cases op <;> first | exact ⟨trivial, fun _ => rfl⟩ | cases inner

theorem stopping_quiet (loop : Loop) : (monitor settings).Quiet loop .stopping :=
  quiet_inner loop _ rfl

/-- A handler between its two marks leaves the loop where it was. -/
theorem safeHandle_follows {consumer : Consumer} {batch : Batch} {tp : TopicPartition}
    {record : ConsumerRecord} {handle : ConsumerRecord → Prog Ack} (head : Next batch tp record)
    (inner : (handle record).Uses Inner) :
    (monitor settings).Follows (BaseConsumer.safeHandle consumer.name handle record)
      (fun result left => ∀ ack, result = .ok ack →
        left = .on consumer batch (.returned record ack))
      (.on consumer batch .idle) := by
  have inside : ∀ result, (monitor settings).allowed (.on consumer batch (.inside record))
      (.handleReturn consumer.name record result) := fun _ => ⟨rfl, rfl, tp, head⟩
  refine .tryCatch (Q := fun result left => match result with
    | .ok ack => left = .on consumer batch (.returned record ack)
    | .error _ => left = .on consumer batch (.inside record)) ?_ ?_ ?_
  · refine .perform_bind ⟨rfl, rfl, tp, head⟩ (fun _ => ?_) (fun _ => rfl) fun _ => rfl
    refine .bind (.of_uses inner (quiet_inner _)) ?_ fun _ _ same => same
    rintro ack left rfl
    exact .perform_bind (inside _) (fun _ => rfl) (fun _ => rfl) fun _ => rfl
  · rintro ack left same _ ⟨⟩
    exact same
  · rintro error left rfl
    refine .perform_bind (inside _) (fun _ => ?_) (by rintro _ _ ⟨⟩) (by rintro _ _ ⟨⟩)
    refine .perform_bind trivial (fun _ => ?_) (by rintro _ _ ⟨⟩) (by rintro _ _ ⟨⟩)
    rintro ack ⟨⟩
    rfl

theorem drainPartition_follows {consumer : Consumer} {handle : ConsumerRecord → Prog Ack}
    (inner : ∀ record, (handle record).Uses Inner) (tp : TopicPartition)
    (records : List ConsumerRecord) (more : Batch) :
    (monitor settings).Follows
      (BaseConsumer.drainPartition consumer.name (consumer.group settings) handle tp records)
      (fun result left => result = .ok true → left = .on consumer (ready more) .idle)
      (.on consumer (ready ((tp, records) :: more)) .idle) := by
  induction records with
  | nil =>
    rintro ⟨⟩
    rfl
  | cons record rest ih =>
    have head : Next ((tp, record :: rest) :: more) tp record := ⟨rest, more, rfl⟩
    refine .perform_bind trivial (fun stops => ?_) (by rintro _ ⟨⟩) (by rintro _ ⟨⟩)
    cases stops with
    | true => rintro ⟨⟩
    | false =>
      refine .bind (safeHandle_follows head (inner record)) ?_ (by rintro _ _ _ ⟨⟩)
      intro ack left reached
      cases reached ack rfl
      cases ack with
      | redeliver =>
        exact .perform_bind ⟨record, head, rfl, rfl⟩ (fun _ _ => rfl) (by rintro _ ⟨⟩)
          (by rintro _ ⟨⟩)
      | commit =>
        exact .perform_bind ⟨record, head, rfl, rfl, rfl⟩ (fun _ => ih) (by rintro _ ⟨⟩)
          (by rintro _ ⟨⟩)

theorem drainBatch_follows {consumer : Consumer} {handle : ConsumerRecord → Prog Ack}
    (inner : ∀ record, (handle record).Uses Inner) (batch : Batch) :
    (monitor settings).Follows
      (BaseConsumer.drainBatch consumer.name (consumer.group settings) handle batch)
      (fun result left => result = .ok true → left = .on consumer [] .idle)
      (.on consumer (ready batch) .idle) := by
  induction batch with
  | nil =>
    rintro ⟨⟩
    rfl
  | cons segment more ih =>
    obtain ⟨tp, records⟩ := segment
    refine .bind (drainPartition_follows inner tp records more) ?_ (by rintro _ _ _ ⟨⟩)
    intro goesOn left reached
    cases goesOn with
    | true =>
      cases reached rfl
      exact ih
    | false => rintro ⟨⟩

theorem runPass_follows {consumer : Consumer} {handle : ConsumerRecord → Prog Ack}
    (inner : ∀ record, (handle record).Uses Inner) :
    (monitor settings).Follows
      (BaseConsumer.runPass consumer.name (consumer.group settings) handle
        (consumer.topic settings))
      (fun result left => result = .ok true → left = .on consumer [] .idle)
      (.on consumer [] .idle) := by
  have stops : ∀ {Value : Type} (left : Loop) (next : Unit → Prog Value) (goal : Except Exn Value → Loop → Prop),
      (∀ left, (monitor settings).Follows (next ()) goal left) →
      (∀ error left, goal (.error error) left) →
      (monitor settings).Follows (await .stopConsumer >>= next) goal left := by
    intro Value left next goal rest fails
    have quiet : (monitor settings).Quiet left .stopConsumer := quiet_inner left _ rfl
    refine .perform_bind quiet.1 (fun _ => ?_) (fun _ => fails _ _) fun _ => fails _ _
    exact rest _
  refine .tryCatch (Q := fun result left => result = .ok true → left = .on consumer [] .idle)
    ?_ (fun _ _ reached => reached) ?_
  · refine .bind (Q := fun result left => result = .ok true → left = .on consumer [] .idle)
      ?_ ?_ (by rintro _ _ _ ⟨⟩)
    · refine .perform_bind trivial (fun ended => ?_) (by rintro _ ⟨⟩) (by rintro _ ⟨⟩)
      cases ended with
      | true => rintro ⟨⟩
      | false =>
        exact .perform_bind ⟨rfl, rfl, rfl⟩ (fun batch => drainBatch_follows inner batch)
          (by rintro _ ⟨⟩) (by rintro _ ⟨⟩)
    · intro goesOn left reached
      cases goesOn with
      | true => exact fun _ => reached rfl
      | false => exact stops _ _ _ (fun _ => by rintro ⟨⟩) (by rintro _ _ ⟨⟩)
  · intro error left _
    exact stops _ _ _ (fun _ => by rintro ⟨⟩) (by rintro _ _ ⟨⟩)

def goal : Call → Except Exn Result → Loop → Prop
  | .worker consumer, result, left => result = .ok (.pass true) → left = .on consumer [] .idle
  | _, _, left => left = .off

/-- Whatever handlers the workers run, they keep to the loop's protocol. -/
theorem keeps_workers (deployment : Deployment) (handles : Consumer → ConsumerRecord → Prog Ack)
    (inner : ∀ consumer record, (handles consumer record).Uses Inner) (call : Call) :
    (monitor deployment.settings).Follows ((workers deployment handles).program call) (goal call)
      ((monitor deployment.settings).born call) := by
  cases call with
  | worker consumer =>
    refine .bind (runPass_follows (inner consumer)) ?_ (by rintro _ _ _ ⟨⟩)
    intro goesOn left reached
    rintro ⟨⟩
    exact reached rfl
  | submitOrder payload key =>
    refine .of_uses (.bind (submitOrder_inner ..) fun _ => ?_) (quiet_inner _)
    trivial
  | readOrder orderId =>
    exact .of_uses (.bind (readOrder_inner ..) fun _ => trivial) (quiet_inner _)

theorem keeps (deployment : Deployment) (call : Call) :
    (monitor deployment.settings).Follows (program deployment call) (goal call)
      ((monitor deployment.settings).born call) := by
  have kept := keeps_workers deployment (Consumer.handle deployment) (handle_inner deployment) call
  rw [← system_workers] at kept
  exact kept

end Loop
end OrderFlow
