import OrderFlow.Kafka.Consumers

/-!
The running system: API calls and consumer workers as threads over the three
stores, with keys expiring, partitions moving between workers, records produced
by others and `stop()` called at any moment.
-/
namespace OrderFlow
open AsyncCoroutine AsyncPool

inductive Consumer where
  | processor | retry | dlq
  deriving DecidableEq

inductive Call where
  | worker (consumer : Consumer)
  | submitOrder (payload : OrderCreate) (idempotencyKey : Option String)
  | readOrder (orderId : Uuid)

inductive Result where
  | pass (again : Bool)
  | submitted (order : Order) (wasDuplicate : Bool)
  | read (order : Option OrderRead)

inductive Event where
  | expire (key : Key)
  | assign (thread : Nat) (consumer : Consumer) (partition : Nat)
  | revoke (thread : Nat) (tp : TopicPartition)
  | stop (thread : Nat)
  | produce (tp : TopicPartition) (record : WireRecord)

namespace Consumer
variable (settings : Settings)

def name : Consumer → String
  | .processor => "processor"
  | .retry => "retry"
  | .dlq => "dlq"

def topic : Consumer → String
  | .processor => settings.topicOrders
  | .retry => settings.topicRetry
  | .dlq => settings.topicDlq

def group : Consumer → String
  | .processor => settings.groupProcessors
  | .retry => settings.groupRetry
  | .dlq => settings.groupDlq

def handle (deployment : Deployment) : Consumer → ConsumerRecord → Prog Ack
  | .processor => OrderConsumer.handle deployment
  | .retry => RetryScheduler.handle deployment
  | .dlq => DlqArchiver.handle

/-- `run` of this consumer, one pass of its loop. -/
def run (deployment : Deployment) (consumer : Consumer) : Prog Bool :=
  BaseConsumer.runPass consumer.name (consumer.group deployment.settings)
    (consumer.handle deployment) (consumer.topic deployment.settings)

end Consumer

def happen (deployment : Deployment) : Event → World → Option World
  | .expire key, world =>
      if (world.redis key).isSome then some (world.setRedis key none) else none
  | .assign thread consumer partition, world =>
      let tp := ⟨consumer.topic deployment.settings, partition⟩
      some (world.setPosition thread tp
        (some (world.committed (consumer.group deployment.settings) tp)))
  | .revoke thread tp, world => some (world.setPosition thread tp none)
  | .stop thread, world => some { world with stopped := Function.update world.stopped thread true }
  | .produce tp record, world => some (world.append tp record)

def program (deployment : Deployment) : Call → Prog Result
  | .worker consumer => Result.pass <$> consumer.run deployment
  | .submitOrder payload idempotencyKey => do
      let (order, wasDuplicate) ← Service.submitOrder deployment payload idempotencyKey
      return .submitted order wasDuplicate
  | .readOrder orderId => Result.read <$> Service.readOrder deployment orderId

/-- Only a worker goes round again. -/
def again : Call → Result → Option Call
  | .worker consumer, .pass true => some (.worker consumer)
  | _, _ => none

def system (deployment : Deployment) : System Op Op.Reply Exn World Call Result Event Fate where
  perform := perform deployment
  event := happen deployment
  program := program deployment
  again := again

abbrev Pipeline := Pool Op Op.Reply Exn World Call Result Event
abbrev Moment := Label Op Op.Reply Exn Call Event

end OrderFlow
