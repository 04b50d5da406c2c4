import OrderFlow.Uuid

/-!
Rows, request payloads and the event envelope (models.py, schemas.py), and the
settings the modelled functions read (config.py). Row timestamps are left out:
no modelled function reads them.
-/
namespace OrderFlow

inductive OrderStatus where
  | pending | processing | completed | failed
  deriving DecidableEq, Repr

/-- `TERMINAL_STATUSES`. -/
def OrderStatus.terminal : OrderStatus → Bool
  | .completed | .failed => true
  | .pending | .processing => false

inductive FailMode where
  | transient | permanent
  deriving DecidableEq, Repr

structure OrderRow where
  id : Uuid
  customerId : String
  sku : String
  quantity : Int
  amountCents : Int
  status : OrderStatus
  attempts : Nat
  failureReason : Option PyStr
  failMode : Option FailMode
  deriving DecidableEq

structure StatusTransition where
  id : Nat
  fromStatus : Option OrderStatus
  toStatus : OrderStatus
  note : Option PyStr
  deriving DecidableEq

/-- An `Order` as a session holds it: the row and its trail. -/
structure Order where
  row : OrderRow
  transitions : List StatusTransition
  deriving DecidableEq

/-- `event_id` is what `payload.get("event_id")` returned, of any JSON type. -/
structure DeadLetter where
  orderId : Option Uuid
  eventId : Json
  sourceTopic : String
  partition : Nat
  offset : Nat
  attempts : Nat
  error : Option String
  payload : Json

/-- `OrderCreate` with the bounds its fields declare. -/
structure OrderCreate where
  customerId : String
  sku : String
  quantity : Int
  amountCents : Int
  failMode : Option FailMode
  customerId_bounds : 1 ≤ customerId.length ∧ customerId.length ≤ 64
  sku_bounds : 1 ≤ sku.length ∧ sku.length ≤ 64
  quantity_bounds : 0 < quantity ∧ quantity ≤ 1000
  amountCents_bound : 0 ≤ amountCents

/-- `OrderEvent`; `occurredAt` as the text it travels as. -/
structure OrderEvent where
  eventId : String
  eventType : String
  occurredAt : String
  orderId : Uuid
  customerId : String
  sku : String
  quantity : Int
  amountCents : Int
  failMode : Option FailMode
  deriving DecidableEq

structure TransitionOut where
  fromStatus : Option OrderStatus
  toStatus : OrderStatus
  note : Option PyStr
  deriving DecidableEq

structure OrderOut where
  id : Uuid
  customerId : String
  sku : String
  quantity : Int
  amountCents : Int
  status : OrderStatus
  attempts : Nat
  failureReason : Option PyStr
  transitions : List TransitionOut
  deriving DecidableEq

/-- `OrderOut.model_validate(order)` with `from_attributes`. -/
def OrderOut.ofOrder (order : Order) : OrderOut where
  id := order.row.id
  customerId := order.row.customerId
  sku := order.row.sku
  quantity := order.row.quantity
  amountCents := order.row.amountCents
  status := order.row.status
  attempts := order.row.attempts
  failureReason := order.row.failureReason
  transitions := order.transitions.map fun hop => ⟨hop.fromStatus, hop.toStatus, hop.note⟩

inductive ReadSource where
  | cache | database
  deriving DecidableEq

structure OrderRead where
  order : OrderOut
  source : ReadSource
  deriving DecidableEq

theorem default_topics_distinct : "orders.created" ≠ "orders.retry" ∧
    "orders.created" ≠ "orders.dlq" ∧ "orders.retry" ≠ "orders.dlq" := by
  decide

/-- The topics are three different ones, as declared for the broker. -/
structure Settings where
  cacheTtlSeconds : Nat := 60
  idempotencyLockTtlSeconds : Nat := 60
  idempotencyDoneTtlSeconds : Nat := 86400
  apiIdempotencyTtlSeconds : Nat := 86400
  topicOrders : String := "orders.created"
  topicRetry : String := "orders.retry"
  topicDlq : String := "orders.dlq"
  groupProcessors : String := "order-processors"
  groupRetry : String := "order-retry-scheduler"
  groupDlq : String := "order-dlq-archiver"
  topicPartitions : Nat := 3
  maxAttempts : Int := 4
  retryBaseDelaySeconds : ℚ := 2
  retryMaxDelaySeconds : ℚ := 60
  processingDelaySeconds : ℚ := 3 / 10
  topics_distinct : topicOrders ≠ topicRetry ∧ topicOrders ≠ topicDlq ∧ topicRetry ≠ topicDlq := by
    first | exact default_topics_distinct | decide

/-- What the program uses of code outside the repository: json, pydantic and
    float texts. The equations are the documented behaviour relied on. -/
structure Platform where
  loads : String → Option Json
  dumps : Json → String
  modelValidate : Json → Except PyStr OrderEvent
  modelDump : OrderEvent → Json
  modelDumpJson : OrderOut → String
  modelValidateJson : String → Option OrderOut
  reprFloat : PyFloat → String
  floatOf : String → Option PyFloat
  isPrintable : Char → Bool
  modelDump_isDict : ∀ event, (modelDump event).isDict = true
  loads_dumps : ∀ event, loads (dumps (modelDump event)) = some (modelDump event)
  modelValidate_dump : ∀ event, modelValidate (modelDump event) = .ok event

end OrderFlow
