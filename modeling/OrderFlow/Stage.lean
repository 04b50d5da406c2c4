import OrderFlow.Frame
import OrderFlow.Kafka.Loop

/-!
Where a call stands. What a thread has awaited so far in its call determines its
stage: how far a submission has come, or which branch of the order consumer's
decision tree a delivery is in, with the token it drew and the row it read.
-/
namespace OrderFlow
open AsyncCoroutine AsyncPool

/-! ### Submissions -/

/-- `key` is the usable idempotency key of the call, if any. -/
inductive Submission where
  | asking (payload : OrderCreate) (key : String)
  | resolving (payload : OrderCreate) (key : String) (id : Uuid)
  | found (row : OrderRow)
  | missed (payload : OrderCreate) (key : Option String)
  | drawn (payload : OrderCreate) (key : Option String) (id : Uuid)
  | created (payload : OrderCreate) (key : String) (id : Uuid)
  | reserved (payload : OrderCreate) (key : Option String) (id : Uuid)
  | named (payload : OrderCreate) (key : Option String) (id eventId : Uuid)
  | stamped (payload : OrderCreate) (key : Option String) (id eventId : Uuid) (occurredAt : String)
  | published (payload : OrderCreate) (key : Option String) (id eventId : Uuid)
      (occurredAt : String)
  | broken

/-- The event a submission builds for its row. -/
def submittedEvent (payload : OrderCreate) (id eventId : Uuid) (occurredAt : String) : OrderEvent :=
  Service.eventOf (Repository.newRow payload id) payload eventId occurredAt

namespace Submission
variable (deployment : Deployment)

def allowed : Submission → Op → Prop
  | .asking _ key, .get read => read = .apiIdempotency key
  | .resolving _ _ id, .selectOrder read => read = id
  | .found _, .selectTransitions _ => True
  | .missed _ _, .uuid4 => True
  | .drawn payload _ id, .flush writes =>
      writes = Repository.createWrites (Repository.newRow payload id) 0
  | .drawn payload _ id, .commit writes =>
      ∃ hop, writes = Repository.createWrites (Repository.newRow payload id) hop
  | .created _ key id, .set written value _ => written = .apiIdempotency key ∧ value = id.str
  | .reserved _ _ _, .uuid4 => True
  | .named _ _ _ _, .utcnow => True
  | .stamped payload _ id eventId occurredAt, .send topic key value headers =>
      topic = deployment.settings.topicOrders ∧ key = some id.str ∧
        value = deployment.platform.modelDump (submittedEvent payload id eventId occurredAt) ∧
        headers = Headers.build deployment.platform 1 none none none ""
  | .published _ _ _ _ _, .hincrby _ _ => True
  | .published _ _ _ _ _, .set (.order _) _ _ => True
  | _, _ => False

def next : Submission → (op : Op) → Outcome Exn op.Reply → Submission
  | .asking payload key, .get _, .ok none => .missed payload (some key)
  | .asking payload key, .get _, .ok (some raw) =>
      if raw = "" then .missed payload (some key)
      else match Uuid.parse raw with
        | some id => .resolving payload key id
        | none => .missed payload (some key)
  | .resolving payload key _, .selectOrder _, .ok none => .missed payload (some key)
  | .resolving _ _ _, .selectOrder _, .ok (some row) => .found row
  | .found row, .selectTransitions _, .ok _ => .found row
  | .missed payload key, .uuid4, .ok id => .drawn payload key id
  | .drawn payload key id, .flush _, .ok _ => .drawn payload key id
  | .drawn payload (some key) id, .commit _, .ok _ => .created payload key id
  | .drawn payload none id, .commit _, .ok _ => .reserved payload none id
  | .created payload key id, .set _ _ _, .ok _ => .reserved payload (some key) id
  | .reserved payload key id, .uuid4, .ok eventId => .named payload key id eventId
  | .named payload key id eventId, .utcnow, .ok occurredAt =>
      .stamped payload key id eventId occurredAt
  | .stamped payload key id eventId occurredAt, .send _ _ _ _, .ok _ =>
      .published payload key id eventId occurredAt
  | .published payload key id eventId occurredAt, _, _ =>
      .published payload key id eventId occurredAt
  | _, _, _ => .broken

end Submission

/-! ### Deliveries -/

/-- A record on its way through `handle`, with the event it was read as. -/
structure Delivery (deployment : Deployment) where
  record : ConsumerRecord
  event : OrderEvent
  valid : deployment.platform.modelValidate record.value = .ok event

namespace Delivery
variable {deployment : Deployment}

def attempt (delivery : Delivery deployment) : Nat := delivery.record.headers.getAttempt

def guard (delivery : Delivery deployment) : Key := .eventGuard delivery.event.eventId

end Delivery

/-- Why a delivery may be committed. -/
inductive Verdict where
  | undecodable | duplicate | unknown | terminal | completed | failed | retried
  deriving DecidableEq

/-- Stages of a delivery that acquired the guard. `aim` is the status a session
    moves the order to, `reason` the failure reason it writes. -/
inductive Phase where
  | acquired
  | missing
  | buried
  | skipping
  | read (aim : OrderStatus) (reason : Option PyStr) (row : OrderRow)
  | moved (aim : OrderStatus) (reason : Option PyStr)
  | towards (aim : OrderStatus) (reason : Option PyStr)
  | absent
  | sent (aim : OrderStatus)
  | closed (verdict : Verdict)
  | aborting

/-- `taken`: a GET saw the guard key at something other than the tombstone. -/
inductive Stage (deployment : Deployment) where
  | outside
  | submitting (submission : Submission)
  | reading
  | entered (record : ConsumerRecord)
  | claiming (delivery : Delivery deployment) (token : String) (taken : Bool)
  | holding (delivery : Delivery deployment) (token : String) (phase : Phase)
  | settled (record : ConsumerRecord) (verdict : Verdict)
  | relaying (record : ConsumerRecord)
  | relayed (record : ConsumerRecord)
  | archiving (record : ConsumerRecord)
  | leaving (record : ConsumerRecord)

namespace Phase
variable {deployment : Deployment} (delivery : Delivery deployment) (token : String)

/-- The dead letter `_to_dlq` publishes for this record. -/
def IsDeadLetter (deployment : Deployment) (record : ConsumerRecord) (topic : String)
    (key : Option String) (value : Json) (headers : Headers) : Prop :=
  topic = deployment.settings.topicDlq ∧ key = record.key ∧
    value = OrderConsumer.wrapRaw record.value ∧ ∃ error failedAt,
    headers = Headers.build deployment.platform record.headers.getAttempt none (some error)
      (some record.topic) failedAt

def allowed : Phase → Op → Prop
  | .acquired, .selectOrder id => id = delivery.event.orderId
  | .missing, .evalComplete key written _ => key = delivery.guard ∧ written = token
  | .buried, .utcnow => True
  | .buried, .send topic key value headers =>
      IsDeadLetter deployment delivery.record topic key value headers
  | .skipping, .selectTransitions _ => True
  | .skipping, .evalComplete key written _ => key = delivery.guard ∧ written = token
  | .read _ _ _, .selectTransitions _ => True
  | .read _ _ _, .flush _ => True
  | .read aim reason row, .commit writes =>
      ∃ note hop, writes = Repository.transitionWrites row
        (Repository.transitionRow row aim delivery.attempt reason) (some note) hop
  | .moved _ _, .set (.order _) _ _ => True
  | .moved .processing _, .fulfil event => event = delivery.event
  | .moved .pending _, .time => True
  | .moved .pending _, .utcnow => True
  | .moved .pending reason, .send topic key value headers =>
      topic = deployment.settings.topicRetry ∧ key = some delivery.event.orderId.str ∧
        value = delivery.record.value ∧ ∃ due failedAt, headers =
          Headers.build deployment.platform (delivery.attempt + 1) (some (.num due)) reason
            (some delivery.record.topic) failedAt
  | .moved .failed _, .utcnow => True
  | .moved .failed _, .send topic key value headers =>
      IsDeadLetter deployment delivery.record topic key value headers
  | .moved .completed _, .evalComplete key written _ => key = delivery.guard ∧ written = token
  | .towards .pending _, .uniform _ _ => True
  | .towards .pending _, .evalRelease key written => key = delivery.guard ∧ written = token
  | .towards _ _, .selectOrder id => id = delivery.event.orderId
  | .absent, .rollback => True
  | .absent, .commit writes => writes = []
  | .absent, .utcnow => True
  | .absent, .send topic key value headers =>
      IsDeadLetter deployment delivery.record topic key value headers
  | .sent .pending, .evalRelease key written => key = delivery.guard ∧ written = token
  | .sent .failed, .evalComplete key written _ => key = delivery.guard ∧ written = token
  | .closed _, .hincrby _ _ => True
  | .closed _, .commit writes => writes = []
  | .closed _, .handleReturn name record result =>
      name = Consumer.processor.name ∧ record = delivery.record ∧ result = some .commit
  | .aborting, .rollback => True
  | .aborting, .evalRelease key written => key = delivery.guard ∧ written = token
  | _, _ => False

/-- The terminal check. -/
def checked (row : OrderRow) : Phase :=
  if row.status.terminal then .skipping else .read .processing none row

/-- Where a call of `fulfil` leads. -/
def decide : Except Exn Unit → Phase
  | .ok _ => .towards .completed none
  | .error (.transient message) =>
      if (delivery.attempt : Int) < deployment.settings.maxAttempts then
        .towards .pending (some message)
      else .towards .failed (some message)
  | .error (.permanent message) => .towards .failed (some message)
  | .error _ => .aborting

def next : Phase → (op : Op) → Outcome Exn op.Reply → Phase
  | .acquired, .selectOrder _, .ok none => .missing
  | .acquired, .selectOrder _, .ok (some row) => checked row
  | .missing, .evalComplete _ _ _, .ok _ => .buried
  | .buried, .utcnow, .ok _ => .buried
  | .buried, .send _ _ _ _, .ok _ => .closed .unknown
  | .skipping, .selectTransitions _, .ok _ => .skipping
  | .skipping, .evalComplete _ _ _, .ok _ => .closed .terminal
  | .read aim reason row, .selectTransitions _, .ok _ => .read aim reason row
  | .read aim reason row, .flush _, .ok _ => .read aim reason row
  | .read aim reason _, .commit _, .ok _ => .moved aim reason
  | .moved aim reason, .set _ _ _, _ => .moved aim reason
  | .moved .processing _, .fulfil _, outcome => decide delivery outcome.reply
  | .moved aim reason, .time, .ok _ => .moved aim reason
  | .moved aim reason, .utcnow, .ok _ => .moved aim reason
  | .moved aim _, .send _ _ _ _, .ok _ => .sent aim
  | .moved .completed _, .evalComplete _ _ _, .ok _ => .closed .completed
  | .towards aim reason, .uniform _ _, .ok _ => .towards aim reason
  | .towards _ _, .selectOrder _, .ok none => .absent
  | .towards aim reason, .selectOrder _, .ok (some row) => .read aim reason row
  | .absent, .commit _, .ok _ => .absent
  | .absent, .utcnow, .ok _ => .absent
  | .absent, .send _ _ _ _, .ok _ => .sent .failed
  | .sent .pending, .evalRelease _ _, .ok _ => .closed .retried
  | .sent .failed, .evalComplete _ _ _, .ok _ => .closed .failed
  | .closed verdict, .hincrby _ _, _ => .closed verdict
  | .closed verdict, .commit _, .ok _ => .closed verdict
  | _, _, _ => .aborting

end Phase

namespace Stage
variable (deployment : Deployment)

def allowed : Stage deployment → Op → Prop
  | .outside, .getmany _ => True
  | .outside, .seek _ _ => True
  | .outside, .commitOffset _ _ _ => True
  | .outside, .stopConsumer => True
  | .outside, .stopping => True
  | .outside, .handleCall _ _ => True
  | .outside, .sleep _ => True
  | .submitting submission, op => submission.allowed deployment op
  | .reading, .get key => ∃ orderId, key = .order orderId
  | .reading, .set key _ _ => ∃ orderId, key = .order orderId
  | .reading, .delete key => ∃ orderId, key = .order orderId
  | .reading, .hincrby _ _ => True
  | .reading, .selectOrder _ => True
  | .reading, .selectTransitions _ => True
  | .entered _, .hincrby _ _ => True
  | .entered _, .uuid4 => True
  | .entered _, .utcnow => True
  | .entered record, .send topic key value headers =>
      Phase.IsDeadLetter deployment record topic key value headers ∧
        ∃ text, deployment.platform.modelValidate record.value = .error text
  | .claiming delivery token _, .setNx key written _ => key = delivery.guard ∧ written = token
  | .claiming delivery _ _, .get key => key = delivery.guard
  | .claiming _ _ taken, .sleep _ => taken = true
  | .claiming delivery _ taken, .handleReturn name record result =>
      taken = true ∧ name = Consumer.processor.name ∧ record = delivery.record ∧ result = some .redeliver
  | .holding delivery token phase, op => phase.allowed delivery token op
  | .settled _ _, .hincrby _ _ => True
  | .settled record _, .handleReturn name returned result =>
      name = Consumer.processor.name ∧ returned = record ∧ result = some .commit
  | .relaying _, .time => True
  | .relaying _, .sleep _ => True
  | .relaying record, .send topic key value headers =>
      topic = deployment.settings.topicOrders ∧ key = record.key ∧ value = record.value ∧
        headers = Headers.build deployment.platform record.headers.getAttempt none
          (record.headers.getError.map py) none ""
  | .relayed record, .handleReturn name returned result =>
      name = Consumer.retry.name ∧ returned = record ∧ result = some .commit
  | .archiving _, .flush _ => True
  | .archiving record, .commit writes => writes = [.insertDeadLetter (DlqArchiver.entryOf record)]
  | .archiving _, .rollback => True
  | .archiving _, .hincrby _ _ => True
  | .archiving record, .handleReturn name returned _ =>
      name = Consumer.dlq.name ∧ returned = record
  | .leaving record, .handleReturn _ returned result => returned = record ∧ result = none
  | _, _ => False

/-- The stage a call of `handle` begins in. -/
def called (name : String) (record : ConsumerRecord) : Stage deployment :=
  if name = Consumer.processor.name then .entered record
  else if name = Consumer.retry.name then .relaying record
  else .archiving record

/-! One function for each stage that can be left. -/

def outsideNext : (op : Op) → Outcome Exn op.Reply → Stage deployment
  | .handleCall name record, .ok _ => called deployment name record
  | .handleCall _ record, _ => .leaving record
  | _, _ => .outside

def enteredNext (record : ConsumerRecord) : (op : Op) → Outcome Exn op.Reply → Stage deployment
  | .hincrby _ _, _ => .entered record
  | .utcnow, .ok _ => .entered record
  | .uuid4, .ok id =>
      match valid : deployment.platform.modelValidate record.value with
      | .ok event => .claiming ⟨record, event, valid⟩ id.hex false
      | .error _ => .leaving record
  | .send _ _ _ _, .ok _ => .settled record .undecodable
  | _, _ => .leaving record

variable {deployment}

def claimingNext (delivery : Delivery deployment) (token : String) (taken : Bool) :
    (op : Op) → Outcome Exn op.Reply → Stage deployment
  | .setNx _ _ _, .ok won =>
      if won then .holding delivery token .acquired else .claiming delivery token taken
  | .get _, .ok current =>
      if current = some done then .settled delivery.record .duplicate
      else .claiming delivery token true
  | .sleep _, .ok _ => .claiming delivery token taken
  | .handleReturn _ _ _, .ok _ => .outside
  | _, _ => .leaving delivery.record

def holdingNext (delivery : Delivery deployment) (token : String) :
    Phase → (op : Op) → Outcome Exn op.Reply → Stage deployment
  | .closed _, .handleReturn _ _ _, .ok _ => .outside
  | .closed _, .handleReturn _ _ _, _ => .leaving delivery.record
  | .aborting, .evalRelease _ _, _ => .leaving delivery.record
  | .towards _ _, .evalRelease _ _, _ => .leaving delivery.record
  | phase, op, outcome => .holding delivery token (phase.next delivery op outcome)

def settledNext (record : ConsumerRecord) (verdict : Verdict) :
    (op : Op) → Outcome Exn op.Reply → Stage deployment
  | .hincrby _ _, _ => .settled record verdict
  | .handleReturn _ _ _, .ok _ => .outside
  | _, _ => .leaving record

def relayingNext (record : ConsumerRecord) : (op : Op) → Outcome Exn op.Reply → Stage deployment
  | .time, .ok _ => .relaying record
  | .sleep _, .ok _ => .relaying record
  | .send _ _ _ _, .ok _ => .relayed record
  | _, _ => .leaving record

def relayedNext (record : ConsumerRecord) : (op : Op) → Outcome Exn op.Reply → Stage deployment
  | .handleReturn _ _ _, .ok _ => .outside
  | _, _ => .leaving record

def archivingNext (record : ConsumerRecord) : (op : Op) → Outcome Exn op.Reply → Stage deployment
  | .handleReturn _ _ none, _ => .outside
  | .handleReturn _ _ (some _), .ok _ => .outside
  | _, _ => .archiving record

def leavingNext (record : ConsumerRecord) : (op : Op) → Outcome Exn op.Reply → Stage deployment
  | .handleReturn _ _ _, _ => .outside
  | _, _ => .leaving record

variable (deployment)

def next (stage : Stage deployment) (op : Op) (outcome : Outcome Exn op.Reply) :
    Stage deployment :=
  match stage with
  | .outside => outsideNext deployment op outcome
  | .submitting submission => .submitting (submission.next op outcome)
  | .reading => .reading
  | .entered record => enteredNext deployment record op outcome
  | .claiming delivery token taken => claimingNext delivery token taken op outcome
  | .holding delivery token phase => holdingNext delivery token phase op outcome
  | .settled record verdict => settledNext record verdict op outcome
  | .relaying record => relayingNext record op outcome
  | .relayed record => relayedNext record op outcome
  | .archiving record => archivingNext record op outcome
  | .leaving record => leavingNext record op outcome

/-- The monitor that reads a thread's stage off the trace. -/
def monitor : Monitor Op Op.Reply Exn Call (Stage deployment) where
  allowed := allowed deployment
  next := next deployment
  idle := .outside
  born
    | .worker _ => .outside
    | .submitOrder payload idempotencyKey =>
        match Service.usableKey idempotencyKey with
        | some key => .submitting (.asking payload key)
        | none => .submitting (.missed payload none)
    | .readOrder _ => .reading

end Stage

/-- The stage a thread of this run is in. -/
def stage (deployment : Deployment) (pool : Pipeline) (thread : Nat) : Stage deployment :=
  (Stage.monitor deployment).record pool.trace thread

end OrderFlow
