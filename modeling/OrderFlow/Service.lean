import OrderFlow.World

/-!
Sessions, the repository, the order cache and the API's write and read paths
(db.py, repository.py, cache.py, redis_client.py, service.py). A session's
pending writes are passed along and take effect at its commit.
-/
namespace OrderFlow

/-- `incr_stat`: counters are best-effort. -/
def incrStat (field : String) : Prog Unit :=
  tryCatch (await (.hincrby field 1)) fun _ => pure ()

/-- `session_scope`: commit on success, roll back on error. -/
def sessionScope {Value : Type} (body : Prog (Value × List Write)) : Prog Value :=
  tryCatch
    (do
      let (value, writes) ← body
      await (.commit writes)
      return value)
    fun error => do
      await .rollback
      throw error

namespace Repository

/-- `session.get(Order, order_id)`: the row, then its trail (`lazy="selectin"`). -/
def getOrder (id : Uuid) : Prog (Option Order) := do
  match ← await (.selectOrder id) with
  | none => return none
  | some row => return some ⟨row, ← await (.selectTransitions id)⟩

def createWrites (row : OrderRow) (hopId : Nat) : List Write :=
  [.insertOrder row,
   .insertTransition row.id ⟨hopId, none, .pending, some (py "order accepted")⟩]

/-- The row of a new order, column defaults included. -/
def newRow (payload : OrderCreate) (id : Uuid) : OrderRow where
  id
  customerId := payload.customerId
  sku := payload.sku
  quantity := payload.quantity
  amountCents := payload.amountCents
  status := .pending
  attempts := 0
  failureReason := none
  failMode := payload.failMode

/-- The flush gives the trail row its id. -/
def createOrder (payload : OrderCreate) : Prog (Order × List Write) := do
  let row := newRow payload (← await .uuid4)
  let hopId ← await (.flush (createWrites row 0))
  return (⟨row, [⟨hopId, none, .pending, some (py "order accepted")⟩]⟩, createWrites row hopId)

/-- The unit of work sets only the columns whose value changed. -/
def changesOf (before after : OrderRow) : OrderChanges where
  status := if after.status = before.status then none else some after.status
  attempts := if after.attempts = before.attempts then none else some after.attempts
  failureReason :=
    if after.failureReason = before.failureReason then none else some after.failureReason

def transitionWrites (before after : OrderRow) (note : Option PyStr) (hopId : Nat) : List Write :=
  [.updateOrder before.id (changesOf before after),
   .insertTransition before.id ⟨hopId, some before.status, after.status, note⟩]

def transitionRow (row : OrderRow) (toStatus : OrderStatus) (attempts : Nat)
    (failureReason : Option PyStr) : OrderRow :=
  { row with status := toStatus, attempts, failureReason }

/-- `transition`; every caller passes the attempt number. -/
def transition (order : Order) (toStatus : OrderStatus) (note : PyStr) (attempts : Nat)
    (failureReason : Option PyStr) : Prog (Order × List Write) := do
  let row := transitionRow order.row toStatus attempts failureReason
  let hopId ← await (.flush (transitionWrites order.row row (some note) 0))
  return (⟨row, order.transitions ++ [⟨hopId, some order.row.status, toStatus, some note⟩]⟩,
    transitionWrites order.row row (some note) hopId)

def recordDeadLetter (entry : DeadLetter) : Prog (Unit × List Write) := do
  let _ ← await (.flush [.insertDeadLetter entry])
  return ((), [.insertDeadLetter entry])

end Repository

namespace Cache
variable (deployment : Deployment)

def getOrder (orderId : String) : Prog (Option OrderOut) := do
  match ← tryCatch (some <$> await (.get (.order orderId))) fun _ => pure none with
  | none => return none
  | some none =>
      incrStat "cache_misses"
      return none
  | some (some raw) =>
      incrStat "cache_hits"
      match deployment.platform.modelValidateJson raw with
      | some out => return some out
      | none =>
          await (.delete (.order orderId))
          return none

def putOrder (order : Order) : Prog Unit :=
  tryCatch
    (await (.set (.order order.row.id.str)
      (deployment.platform.modelDumpJson (OrderOut.ofOrder order))
      deployment.settings.cacheTtlSeconds))
    fun _ => pure ()

end Cache

/-- `headers.build`: the clock is read when there is an origin topic. -/
def buildHeaders (deployment : Deployment) (attempt : Nat) (notBefore : Option PyFloat)
    (error : Option PyStr) (originTopic : Option String) : Prog Headers := do
  let failedAt ← match originTopic with
    | some _ => await .utcnow
    | none => pure ""
  return Headers.build deployment.platform attempt notBefore error originTopic failedAt

/-- `publish_event` as the API calls it. -/
def publishEvent (deployment : Deployment) (event : OrderEvent) (attempt : Nat) : Prog Unit := do
  let headers ← buildHeaders deployment attempt none none none
  await (.send deployment.settings.topicOrders (some event.orderId.str)
    (deployment.platform.modelDump event) headers)

/-- `publish_raw`. -/
def publishRaw (topic : String) (key : Option String) (value : Json) (headers : Headers) :
    Prog Unit :=
  await (.send topic key value headers)

namespace Service
variable (deployment : Deployment)

def resolveIdempotencyKey (key : String) : Prog (Option Order) := do
  match ← await (.get (.apiIdempotency key)) with
  | none => return none
  | some raw =>
      if raw = "" then return none
      match Uuid.parse raw with
      | some id => Repository.getOrder id
      | none => return none

/-- `if idempotency_key:` — the empty key is no key. -/
def usableKey : Option String → Option String
  | some key => if key = "" then none else some key
  | none => none

def eventOf (row : OrderRow) (payload : OrderCreate) (eventId : Uuid) (occurredAt : String) :
    OrderEvent where
  eventId := eventId.str
  eventType := "order.created"
  occurredAt
  orderId := row.id
  customerId := row.customerId
  sku := row.sku
  quantity := row.quantity
  amountCents := row.amountCents
  failMode := payload.failMode

def lookUp (idempotencyKey : Option String) : Prog (Option Order) :=
  match usableKey idempotencyKey with
  | some key => resolveIdempotencyKey key
  | none => pure none

def reserve (idempotencyKey : Option String) (order : Order) : Prog Unit :=
  match usableKey idempotencyKey with
  | some key =>
      await (.set (.apiIdempotency key) order.row.id.str
        deployment.settings.apiIdempotencyTtlSeconds)
  | none => pure ()

def submitOrder (payload : OrderCreate) (idempotencyKey : Option String) :
    Prog (Order × Bool) := do
  match ← lookUp idempotencyKey with
  | some existing => return (existing, true)
  | none =>
      let (order, writes) ← Repository.createOrder payload
      await (.commit writes)
      reserve deployment idempotencyKey order
      let eventId ← await .uuid4
      let occurredAt ← await .utcnow
      publishEvent deployment (eventOf order.row payload eventId occurredAt) 1
      incrStat "published"
      Cache.putOrder deployment order
      return (order, false)

def readOrder (orderId : Uuid) : Prog (Option OrderRead) := do
  match ← Cache.getOrder deployment orderId.str with
  | some cached => return some ⟨cached, .cache⟩
  | none =>
      match ← Repository.getOrder orderId with
      | none => return none
      | some order =>
          Cache.putOrder deployment order
          return some ⟨OrderOut.ofOrder order, .database⟩

end Service
end OrderFlow
