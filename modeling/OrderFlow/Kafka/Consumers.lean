import OrderFlow.Idempotency
import OrderFlow.Processing
import OrderFlow.Service

/-!
The consume loop and the three consumers (kafka/consumers.py). One pass of the
loop is a program; the loop goes round while a pass answers `true`. Entering and
leaving `handle` are steps of their own, so that a run shows which calls of
`handle` are in flight.
-/
namespace OrderFlow

namespace BaseConsumer
variable (name group : String) (handle : ConsumerRecord → Prog Ack)

def safeHandle (record : ConsumerRecord) : Prog Ack :=
  tryCatch
    (do
      await (.handleCall name record)
      let ack ← handle record
      await (.handleReturn name record (some ack))
      return ack)
    fun _ => do
      await (.handleReturn name record none)
      await (.sleep 1)
      return .redeliver

/-- The records of one partition; `false` when the loop is to return. -/
def drainPartition (tp : TopicPartition) : List ConsumerRecord → Prog Bool
  | [] => return true
  | record :: rest => do
      if ← await .stopping then
        return false
      match ← safeHandle name handle record with
      | .redeliver =>
          -- rewind, and leave the rest of this partition's batch
          await (.seek tp record.offset)
          return true
      | .commit =>
          await (.commitOffset group tp (record.offset + 1))
          drainPartition tp rest

def drainBatch : List (TopicPartition × List ConsumerRecord) → Prog Bool
  | [] => return true
  | (tp, records) :: rest => do
      if ← drainPartition name group handle tp records then
        drainBatch rest
      else
        return false

def poll (topic : String) : Prog Bool := do
  if ← await .stopping then
    return false
  drainBatch name group handle (← await (.getmany topic))

/-- One pass of `run`'s loop, and its `finally` when the loop ends. -/
def runPass (topic : String) : Prog Bool :=
  tryCatch
    (do
      if ← poll name group handle topic then
        return true
      else
        await .stopConsumer
        return false)
    fun error => do
      await .stopConsumer
      throw error

end BaseConsumer

namespace OrderConsumer
variable (deployment : Deployment)

/-- `{"raw": value}` unless the value is an object already. -/
def wrapRaw (value : Json) : Json :=
  if value.isDict then value else .obj [(py "raw", value)]

def toDlq (record : ConsumerRecord) (attempt : Nat) (error : PyStr) : Prog Unit := do
  let headers ← buildHeaders deployment attempt none (some error) (some record.topic)
  publishRaw deployment.settings.topicDlq record.key (wrapRaw record.value) headers

/-- One session that moves the order on; `None` has no attributes. -/
def moveOrder (orderId : Uuid) (toStatus : OrderStatus) (note : PyStr) (attempt : Nat)
    (failureReason : Option PyStr) : Prog Order :=
  sessionScope do
    match ← Repository.getOrder orderId with
    | none => throw .attribute
    | some order => Repository.transition order toStatus note attempt failureReason

def retry (event : OrderEvent) (record : ConsumerRecord) (attempt : Nat) (claim : Claim)
    (error : PyStr) : Prog Ack := do
  let delay ← Processing.backoffDelay deployment.settings attempt
  let delayText := py (deployment.platform.reprFloat (.num delay))
  let order ← moveOrder event.orderId .pending
    (py s!"attempt {attempt} failed (" ++ error ++ py "); retrying in " ++ delayText ++ py "s")
    attempt (some error)
  Cache.putOrder deployment order
  let now ← await .time
  let headers ← buildHeaders deployment (attempt + 1) (some (.num (now + delay))) (some error)
    (some record.topic)
  publishRaw deployment.settings.topicRetry (some event.orderId.str) record.value headers
  -- release, not complete: the replay must be allowed to claim it
  let _ ← IdempotencyGuard.release claim
  incrStat "retries_scheduled"
  return .commit

def deadLetter (event : OrderEvent) (record : ConsumerRecord) (attempt : Nat) (claim : Claim)
    (text : PyStr) (error : PyStr) : Prog Ack := do
  let moved ← sessionScope do
    match ← Repository.getOrder event.orderId with
    | none => return (none, [])
    | some order =>
        let (order, writes) ← Repository.transition order .failed text attempt (some error)
        return (some order, writes)
  match moved with
  | some order => Cache.putOrder deployment order
  | none => pure ()
  toDlq deployment record attempt text
  let _ ← IdempotencyGuard.complete deployment.settings claim
  incrStat "failed"
  return .commit

/-- `_fail`. -/
def fail (event : OrderEvent) (record : ConsumerRecord) (attempt : Nat) (claim : Claim)
    (error : PyStr) (retryable : Bool) : Prog Ack :=
  if retryable = true ∧ (attempt : Int) < deployment.settings.maxAttempts then
    retry deployment event record attempt claim error
  else
    let reason := py (if retryable then "retries exhausted" else "permanent failure")
    deadLetter deployment event record attempt claim (reason ++ py ": " ++ error) error

/-- What the first session of `_process` ends with: a verdict, or the order to work on. -/
def accept (event : OrderEvent) (record : ConsumerRecord) (attempt : Nat) (claim : Claim) :
    Prog (Option Order) :=
  sessionScope do
    match ← Repository.getOrder event.orderId with
    | none =>
        let _ ← IdempotencyGuard.complete deployment.settings claim
        toDlq deployment record attempt (py s!"no such order {event.orderId.str}")
        return (none, [])
    | some order =>
        if order.row.status.terminal then
          let _ ← IdempotencyGuard.complete deployment.settings claim
          incrStat "duplicates_skipped"
          return (none, [])
        else
          let (order, writes) ← Repository.transition order .processing
            (py s!"attempt {attempt}") attempt none
          return (some order, writes)

def succeed (event : OrderEvent) (attempt : Nat) (claim : Claim) : Prog Ack := do
  let order ← moveOrder event.orderId .completed (py "fulfilled") attempt none
  Cache.putOrder deployment order
  let _ ← IdempotencyGuard.complete deployment.settings claim
  incrStat "completed"
  return .commit

/-- How `fulfil` ended, for the two handlers around it. -/
def tryFulfil (event : OrderEvent) : Prog (Option (PyStr × Bool)) :=
  tryCatch
    (do
      await (.fulfil event)
      return none)
    fun
      | .permanent message => return some (message, false)
      | .transient message => return some (message, true)
      | error => throw error

/-- `_process`. -/
def process (event : OrderEvent) (record : ConsumerRecord) (attempt : Nat) (claim : Claim) :
    Prog Ack := do
  match ← accept deployment event record attempt claim with
  | none => return .commit
  | some order =>
      Cache.putOrder deployment order
      match ← tryFulfil event with
      | some (message, retryable) => fail deployment event record attempt claim message retryable
      | none => succeed deployment event attempt claim

def handle (record : ConsumerRecord) : Prog Ack := do
  let attempt := record.headers.getAttempt
  match deployment.platform.modelValidate record.value with
  | .error text =>
      toDlq deployment record attempt (py "schema violation: " ++ text)
      return .commit
  | .ok event =>
      incrStat "consumed"
      let claim ← IdempotencyGuard.claim deployment.settings event.eventId
      match claim.status with
      | .alreadyDone =>
          incrStat "duplicates_skipped"
          return .commit
      | .inProgress =>
          await (.sleep (1 / 4))
          return .redeliver
      | .acquired =>
          tryCatch (process deployment event record attempt claim) fun error => do
            let _ ← IdempotencyGuard.release claim
            throw error

end OrderConsumer

namespace RetryScheduler
variable (deployment : Deployment)

/-- `max(0, min(not_before - now, cap))`; NaN compares false. -/
def hold (settings : Settings) (notBefore : PyFloat) (now : ℚ) : Option ℚ :=
  match notBefore with
  | .num t => if 0 < t - now then some (min (t - now) settings.retryMaxDelaySeconds) else none
  | .posInf => some settings.retryMaxDelaySeconds
  | .negInf | .nan => none

def handle (record : ConsumerRecord) : Prog Ack := do
  let attempt := record.headers.getAttempt
  let now ← await .time
  match hold deployment.settings (record.headers.getNotBefore deployment.platform) now with
  | some wait => await (.sleep wait)
  | none => pure ()
  let headers ← buildHeaders deployment attempt none (record.headers.getError.map py) none
  publishRaw deployment.settings.topicOrders record.key record.value headers
  return .commit

end RetryScheduler

namespace DlqArchiver

/-- `uuid.UUID(str(value))`. The text of no other JSON value is a UUID's. -/
def uuidOf : Json → Option Uuid
  | .str text =>
      if text.any CodePoint.surrogate then none
      else Uuid.parse (String.ofList (text.map fun c => Char.ofNat c.val))
  | .int n => Uuid.parse (toString n)
  | _ => none

def entryOf (record : ConsumerRecord) : DeadLetter :=
  let payload := OrderConsumer.wrapRaw record.value
  { orderId := uuidOf (payload.get "order_id")
    eventId := payload.get "event_id"
    sourceTopic := match record.headers.getOriginTopic with
      | some topic => if topic = "" then record.topic else topic
      | none => record.topic
    partition := record.partition
    offset := record.offset
    attempts := record.headers.getAttempt
    error := record.headers.getError
    payload }

def handle (record : ConsumerRecord) : Prog Ack := do
  sessionScope (Repository.recordDeadLetter (entryOf record))
  incrStat "dead_lettered"
  return .commit

end DlqArchiver
end OrderFlow
