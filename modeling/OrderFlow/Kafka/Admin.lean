import OrderFlow.Async.Pool
import OrderFlow.Models

/-!
Topic bootstrap (kafka/admin.py), a system of its own: any number of replicas run
`ensure_topics` against one broker while others create and delete topics, and any
call of the admin client may fail.
-/
namespace OrderFlow
open AsyncCoroutine AsyncPool

structure NewTopic where
  name : String
  numPartitions : Nat
  replicationFactor : Nat
  retentionMs : String
  deriving DecidableEq

structure BootSettings extends Settings where
  topicReplicationFactor : Nat := 1

inductive AdminExn where
  | kafkaConnection | os | topicAlreadyExists | other
  | runtime (lastError : Option AdminExn)

/-- What the client may raise of itself. -/
def AdminExn.fault : AdminExn → Bool
  | .kafkaConnection | .os | .other => true
  | _ => false

inductive AdminOp where
  | start
  | listTopics
  | createTopics (topics : List NewTopic)
  | close
  | sleep (seconds : ℚ)

@[reducible] def AdminOp.Reply : AdminOp → Type
  | .listTopics => List String
  | _ => Unit

abbrev AdminProg := Coroutine AdminOp AdminOp.Reply AdminExn

namespace Admin

def call (op : AdminOp) : AdminProg op.Reply := Coroutine.perform op

/-! ### The program -/

/-- `WEEK_MS`. -/
def weekMs : String := toString (7 * 24 * 60 * 60 * 1000)

def desiredTopics (settings : BootSettings) : List NewTopic :=
  [⟨settings.topicOrders, settings.topicPartitions, settings.topicReplicationFactor, weekMs⟩,
   ⟨settings.topicRetry, settings.topicPartitions, settings.topicReplicationFactor, weekMs⟩,
   ⟨settings.topicDlq, 1, settings.topicReplicationFactor, toString (30 * 24 * 60 * 60 * 1000)⟩]

def missingTopics (settings : BootSettings) (existing : List String) : List NewTopic :=
  (desiredTopics settings).filter fun topic => topic.name ∉ existing

/-- The `try` block, up to its `return`. -/
def createMissing (settings : BootSettings) : AdminProg Unit := do
  call .start
  let existing ← call .listTopics
  if (missingTopics settings existing).isEmpty then
    return ()
  tryCatch (call (.createTopics (missingTopics settings existing))) fun
    | .topicAlreadyExists => return ()  -- another replica won the race
    | error => throw error

/-- `finally: await admin.close()`, whose own exceptions are dropped. -/
def closing {Value : Type} (body : AdminProg Value) : AdminProg Value := do
  let result ← tryCatch (Except.ok <$> body) fun error => return Except.error error
  tryCatch (call .close) fun _ => return ()
  match result with
  | .ok value => return value
  | .error error => throw error

/-- One turn of the loop: `none` when it returns, else the error it has waited out. -/
def attempt (settings : BootSettings) (delay : ℚ) : AdminProg (Option AdminExn) :=
  closing (tryCatch
    (do
      createMissing settings
      return none)
    fun
      | .kafkaConnection => do
          call (.sleep delay)
          return some .kafkaConnection
      | .os => do
          call (.sleep delay)
          return some .os
      | error => throw error)

def attempts (settings : BootSettings) (delay : ℚ) : Nat → Option AdminExn → AdminProg Unit
  | 0, lastError => throw (.runtime lastError)
  | more + 1, _ => do
      match ← attempt settings delay with
      | none => return ()
      | some error => attempts settings delay more (some error)

def ensureTopics (settings : BootSettings) (retries : Int) (delay : ℚ) : AdminProg Unit :=
  attempts settings delay retries.toNat none

/-! ### The broker -/

structure Broker where
  topics : List NewTopic

def Broker.names (broker : Broker) : List String := broker.topics.map NewTopic.name

inductive AdminFate where
  | normal
  /-- The call raises; of the topics asked for these were created. -/
  | fails (error : AdminExn) (created : List NewTopic)

/-- Each topic of a request is created unless there is one of its name. -/
def fresh (broker : Broker) (topics : List NewTopic) : List NewTopic :=
  topics.filter fun topic => topic.name ∉ broker.names

def perform (_ : Nat) : (op : AdminOp) → Broker → AdminFate →
    Option (Outcome AdminExn op.Reply × Broker)
  | .listTopics, broker, .normal => some (.ok broker.names, broker)
  | .createTopics topics, broker, .normal =>
      let after := ⟨broker.topics ++ fresh broker topics⟩
      if fresh broker topics = topics then some (.ok (), after)
      else some (.late .topicAlreadyExists, after)
  | .createTopics topics, broker, .fails error created =>
      if error.fault ∧ created.Sublist (fresh broker topics) then
        some (.late error, ⟨broker.topics ++ created⟩)
      else none
  | .start, broker, .normal => some (.ok (), broker)
  | .close, broker, .normal => some (.ok (), broker)
  | .sleep _, broker, .normal => some (.ok (), broker)
  | .sleep _, _, .fails _ _ => none
  | _, broker, .fails error _ => if error.fault then some (.lost error, broker) else none

inductive BrokerEvent where
  | create (topic : NewTopic)
  | delete (name : String)

def happen : BrokerEvent → Broker → Option Broker
  | .create topic, broker =>
      if topic.name ∈ broker.names then none else some ⟨broker.topics ++ [topic]⟩
  | .delete name, broker => some ⟨broker.topics.filter fun topic => topic.name ≠ name⟩

/-- A call of `ensure_topics(retries, delay)`. -/
structure Boot where
  retries : Int := 30
  delay : ℚ := 2

def system (settings : BootSettings) :
    System AdminOp AdminOp.Reply AdminExn Broker Boot Unit BrokerEvent AdminFate where
  perform := perform
  event := happen
  program boot := ensureTopics settings boot.retries boot.delay
  again _ _ := none

abbrev Replicas := Pool AdminOp AdminOp.Reply AdminExn Broker Boot Unit BrokerEvent
abbrev Turn := Label AdminOp AdminOp.Reply AdminExn Boot BrokerEvent

end Admin
end OrderFlow
