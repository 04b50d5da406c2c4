import Mathlib.Logic.Function.Basic
import OrderFlow.Async.Pool
import OrderFlow.Kafka.Headers

/-!
The three stores and the operations the program awaits on them. An operation is
one atomic step of its store: one SQL statement or commit, one Redis command or
script, one broker call. An oracle settles what the stores leave open.
-/
namespace OrderFlow
open AsyncCoroutine AsyncPool

/-- `Keys` (redis_client.py). -/
inductive Key where
  | order (orderId : String)
  | eventGuard (eventId : String)
  | apiIdempotency (key : String)
  deriving DecidableEq

structure TopicPartition where
  topic : String
  partition : Nat
  deriving DecidableEq

/-- A record as the broker stores it. -/
structure WireRecord where
  key : Option ByteArray
  value : Option ByteArray
  headers : Headers

/-- A stored record; `stamp` is its place in the order of all appends. -/
structure LogEntry where
  record : WireRecord
  stamp : Nat

/-- A record as `getmany` hands it over, deserialized. -/
structure ConsumerRecord where
  topic : String
  partition : Nat
  offset : Nat
  key : Option String
  value : Json
  headers : Headers

def ConsumerRecord.tp (record : ConsumerRecord) : TopicPartition :=
  ⟨record.topic, record.partition⟩

inductive Exn where
  | transient (message : PyStr)
  | permanent (message : PyStr)
  | validation (message : PyStr)
  | decode
  | rejected
  | overflow
  | attribute
  | unavailable
  deriving DecidableEq

inductive Ack where
  | commit | redeliver
  deriving DecidableEq

/-- The columns an UPDATE sets. -/
structure OrderChanges where
  status : Option OrderStatus
  attempts : Option Nat
  failureReason : Option (Option PyStr)

inductive Write where
  | insertOrder (row : OrderRow)
  | updateOrder (id : Uuid) (changes : OrderChanges)
  | insertTransition (id : Uuid) (hop : StatusTransition)
  | insertDeadLetter (row : DeadLetter)

inductive Op where
  | setNx (key : Key) (value : String) (ttl : Nat)
  | set (key : Key) (value : String) (ttl : Nat)
  | get (key : Key)
  | delete (key : Key)
  | evalComplete (key : Key) (token : String) (ttl : Nat)
  | evalRelease (key : Key) (token : String)
  | hincrby (field : String) (amount : Int)
  | selectOrder (id : Uuid)
  | selectTransitions (id : Uuid)
  | flush (writes : List Write)
  | commit (writes : List Write)
  | rollback
  | send (topic : String) (key : Option String) (value : Json) (headers : Headers)
  | getmany (topic : String)
  | seek (tp : TopicPartition) (offset : Nat)
  | commitOffset (group : String) (tp : TopicPartition) (offset : Nat)
  | stopConsumer
  | stopping
  | handleCall (consumer : String) (record : ConsumerRecord)
  | handleReturn (consumer : String) (record : ConsumerRecord) (result : Option Ack)
  | fulfil (event : OrderEvent)
  | uuid4
  | utcnow
  | time
  | uniform (low high : ℚ)
  | sleep (seconds : ℚ)

@[reducible] def Op.Reply : Op → Type
  | .setNx _ _ _ => Bool
  | .set _ _ _ => Unit
  | .get _ => Option String
  | .delete _ => Unit
  | .evalComplete _ _ _ => Bool
  | .evalRelease _ _ => Bool
  | .hincrby _ _ => Unit
  | .selectOrder _ => Option OrderRow
  | .selectTransitions _ => List StatusTransition
  | .flush _ => Nat
  | .commit _ => Unit
  | .rollback => Unit
  | .send _ _ _ _ => Unit
  | .getmany _ => List (TopicPartition × List ConsumerRecord)
  | .seek _ _ => Unit
  | .commitOffset _ _ _ => Unit
  | .stopConsumer => Unit
  | .stopping => Bool
  | .handleCall _ _ => Unit
  | .handleReturn _ _ _ => Unit
  | .fulfil _ => Unit
  | .uuid4 => Uuid
  | .utcnow => String
  | .time => ℚ
  | .uniform _ _ => ℚ
  | .sleep _ => Unit

/-- Steps inside the process; every other one may fail on its way to a store. -/
def Op.isLocal : Op → Bool
  | .seek _ _ | .stopping | .handleCall _ _ | .handleReturn _ _ _ | .fulfil _ | .uuid4 | .utcnow
  | .time | .uniform _ _ | .sleep _ => true
  | _ => false

/-! Which operations can change which part of the world. -/

def Op.onTables : Op → Bool
  | .commit _ => true
  | _ => false

def Op.onKeys : Op → Bool
  | .setNx _ _ _ | .set _ _ _ | .delete _ | .evalComplete _ _ _ | .evalRelease _ _ => true
  | _ => false

def Op.onLogs : Op → Bool
  | .send _ _ _ _ => true
  | _ => false

def Op.onOffsets : Op → Bool
  | .commitOffset _ _ _ => true
  | _ => false

def Op.onPositions : Op → Bool
  | .getmany _ | .seek _ _ | .stopConsumer => true
  | _ => false

def Op.onNumbers : Op → Bool
  | .flush _ => true
  | _ => false

def Op.onIssued : Op → Bool
  | .uuid4 => true
  | _ => false

/-- Operations that leave tables, logs, offsets and every key but cached orders alone. -/
def Op.idle : Op → Bool
  | .set (.order _) _ _ | .get _ | .hincrby _ _ | .selectOrder _ | .selectTransitions _
  | .flush _ | .commit [] | .rollback | .fulfil _ | .utcnow | .time | .uniform _ _ | .sleep _ => true
  | _ => false

/-- The consume loop's own operations, which no handler awaits. -/
def Op.onLoop : Op → Bool
  | .getmany _ | .seek _ _ | .commitOffset _ _ _ | .handleCall _ _ | .handleReturn _ _ _ => true
  | _ => false

abbrev Prog := Coroutine Op Op.Reply Exn

def await (op : Op) : Prog op.Reply := Coroutine.perform op

structure World where
  orders : Uuid → Option OrderRow
  transitions : Uuid → List StatusTransition
  nextTransition : Nat
  deadLetters : List DeadLetter
  redis : Key → Option String
  stats : String → Int
  logs : TopicPartition → List LogEntry
  appends : Nat
  committed : String → TopicPartition → Nat
  positions : Nat → TopicPartition → Option Nat
  stopped : Nat → Bool
  issued : List Uuid
  clock : ℚ

def World.empty : World where
  orders := fun _ => none
  transitions := fun _ => []
  nextTransition := 1
  deadLetters := []
  redis := fun _ => none
  stats := fun _ => 0
  logs := fun _ => []
  appends := 0
  committed := fun _ _ => 0
  positions := fun _ _ => none
  stopped := fun _ => false
  issued := []
  clock := 0

structure Deployment where
  settings : Settings
  platform : Platform
  /-- Which results a call of `fulfil` on an event may have. -/
  mayFulfil : OrderEvent → Except Exn Unit → Bool

/-- The partitions the topics are created with (kafka/admin.py). -/
def Settings.partitions (settings : Settings) (topic : String) : Nat :=
  if topic = settings.topicDlq then 1 else settings.topicPartitions

structure Oracle where
  uuid : Uuid := ⟨0⟩
  instant : String := "1970-01-01T00:00:00Z"
  time : ℚ := 0
  draw : ℚ := 0
  partition : Nat := 0
  fetch : List (TopicPartition × Nat) := []
  result : Except Exn Unit := .ok ()

/-! ### Postgres -/

def OrderChanges.apply (changes : OrderChanges) (row : OrderRow) : OrderRow :=
  { row with
    status := changes.status.getD row.status
    attempts := changes.attempts.getD row.attempts
    failureReason := changes.failureReason.getD row.failureReason }

/-- The trail is read in id order, whatever order its rows were committed in. -/
def insertHop (hop : StatusTransition) : List StatusTransition → List StatusTransition
  | [] => [hop]
  | other :: rest => if hop.id < other.id then hop :: other :: rest else other :: insertHop hop rest

def Write.apply (world : World) : Write → World
  | .insertOrder row => { world with orders := Function.update world.orders row.id (some row) }
  | .updateOrder id changes =>
      { world with
        orders := Function.update world.orders id ((world.orders id).map changes.apply) }
  | .insertTransition id hop =>
      { world with
        transitions := Function.update world.transitions id (insertHop hop (world.transitions id)) }
  | .insertDeadLetter row => { world with deadLetters := world.deadLetters ++ [row] }

def World.write (world : World) (writes : List Write) : World := writes.foldl Write.apply world

def int32 (n : Int) : Bool := -2 ^ 31 ≤ n && n < 2 ^ 31
def int64 (n : Int) : Bool := -2 ^ 63 ≤ n && n < 2 ^ 63

/-- `String(n)`, nullable, for a value of any JSON type. -/
def fitsString (limit : Nat) : Json → Bool
  | .null => true
  | .str text => text.length ≤ limit
  | _ => false

/-- A column takes exactly the values of its declared type. -/
def Write.fits : Write → Bool
  | .insertOrder row =>
      row.customerId.length ≤ 64 && row.sku.length ≤ 64 && int32 row.quantity &&
        int64 row.amountCents && int32 row.attempts
  | .updateOrder _ changes => int32 (changes.attempts.getD 0)
  | .insertTransition _ _ => true
  | .insertDeadLetter row =>
      fitsString 64 row.eventId && decide (row.sourceTopic.length ≤ 128) && int32 row.partition &&
        int64 row.offset && int32 row.attempts

/-! ### Kafka -/

def serialize (platform : Platform) (value : Json) : ByteArray := (platform.dumps value).toUTF8

/-- `lambda b: json.loads(b.decode())`, called on null values as well. -/
def valueDeserializer (platform : Platform) : Option ByteArray → Option Json
  | none => none
  | some bytes => (String.fromUTF8? bytes).bind platform.loads

theorem serialized_value (platform : Platform) (event : OrderEvent) :
    valueDeserializer platform (some (serialize platform (platform.modelDump event))) =
      some (platform.modelDump event) := by
  simp only [valueDeserializer, serialize]
  rw [decode_encode]
  exact platform.loads_dumps event

/-- `lambda b: b.decode() if b else None`; the outer `none` is an exception. -/
def keyDeserializer : Option ByteArray → Option (Option String)
  | none => some none
  | some bytes => if bytes.size = 0 then some none else (String.fromUTF8? bytes).map some

/-- The record a producer's `send` puts on the log. -/
def wireRecord (platform : Platform) (key : Option String) (value : Json) (headers : Headers) :
    WireRecord :=
  ⟨key.map String.toUTF8, some (serialize platform value), headers⟩

def deserialize (platform : Platform) (tp : TopicPartition) (offset : Nat) (record : WireRecord) :
    Option ConsumerRecord := do
  let key ← keyDeserializer record.key
  let value ← valueDeserializer platform record.value
  return ⟨tp.topic, tp.partition, offset, key, value, record.headers⟩

abbrev Decode := TopicPartition → Nat → WireRecord → Option ConsumerRecord

def decodeFrom (decode : Decode) (tp : TopicPartition) :
    Nat → List LogEntry → Option (List ConsumerRecord)
  | _, [] => some []
  | offset, entry :: rest => do
      let record ← decode tp offset entry.record
      let more ← decodeFrom decode tp (offset + 1) rest
      return record :: more

/-- `max_poll_records`. -/
def maxPollRecords : Nat := 20

def World.setPosition (world : World) (thread : Nat) (tp : TopicPartition)
    (position : Option Nat) : World :=
  { world with
    positions := Function.update world.positions thread
      (Function.update (world.positions thread) tp position) }

/-- Fetch `count` records of each listed partition from the worker's position. The
    outer `none`: the oracle asks for what is not there; `.error`: a deserializer raised. -/
def fetch (decode : Decode) (thread : Nat) (topic : String) (world : World) :
    List (TopicPartition × Nat) →
    Option (Except Exn (List (TopicPartition × List ConsumerRecord) × World))
  | [] => some (.ok ([], world))
  | (tp, count) :: rest => do
      let position ← world.positions thread tp
      let entries := ((world.logs tp).drop position).take count
      if tp.topic ≠ topic ∨ count = 0 ∨ entries.length ≠ count ∨ tp ∈ rest.map Prod.fst then none
      else
        match decodeFrom decode tp position entries with
        | none => some (.error .decode)
        | some records =>
            match ← fetch decode thread topic
                (world.setPosition thread tp (some (position + count))) rest with
            | .ok (batch, after) => some (.ok ((tp, records) :: batch, after))
            | .error error => some (.error error)

def World.append (world : World) (tp : TopicPartition) (record : WireRecord) : World :=
  { world with
    logs := Function.update world.logs tp (world.logs tp ++ [⟨record, world.appends⟩])
    appends := world.appends + 1 }

def World.setRedis (world : World) (key : Key) (value : Option String) : World :=
  { world with redis := Function.update world.redis key value }

/-- `DONE`. -/
def done : String := "done"

/-- What an operation answers, and the world after it took effect. -/
def answer (deployment : Deployment) (thread : Nat) :
    (op : Op) → World → Oracle → Option (Except Exn op.Reply × World)
  | .setNx key value _, world, _ =>
      if (world.redis key).isNone then some (.ok true, world.setRedis key (some value))
      else some (.ok false, world)
  | .set key value _, world, _ => some (.ok (), world.setRedis key (some value))
  | .get key, world, _ => some (.ok (world.redis key), world)
  | .delete key, world, _ => some (.ok (), world.setRedis key none)
  | .evalComplete key token _, world, _ =>
      if world.redis key = some token then some (.ok true, world.setRedis key (some done))
      else some (.ok false, world)
  | .evalRelease key token, world, _ =>
      if world.redis key = some token then some (.ok true, world.setRedis key none)
      else some (.ok false, world)
  | .hincrby field amount, world, _ =>
      some (.ok (),
        { world with stats := Function.update world.stats field (world.stats field + amount) })
  | .selectOrder id, world, _ => some (.ok (world.orders id), world)
  | .selectTransitions id, world, _ => some (.ok (world.transitions id), world)
  | .flush writes, world, _ =>
      if writes.all Write.fits then
        some (.ok world.nextTransition, { world with nextTransition := world.nextTransition + 1 })
      else some (.error .rejected, world)
  | .commit writes, world, _ => some (.ok (), world.write writes)
  | .rollback, world, _ => some (.ok (), world)
  | .send topic key value headers, world, oracle =>
      if oracle.partition < deployment.settings.partitions topic then
        some (.ok (), world.append ⟨topic, oracle.partition⟩
          (wireRecord deployment.platform key value headers))
      else none
  | .getmany topic, world, oracle =>
      if (oracle.fetch.map Prod.snd).sum ≤ maxPollRecords then
        match fetch (deserialize deployment.platform) thread topic world oracle.fetch with
        | some (.ok (batch, after)) => some (.ok batch, after)
        | some (.error error) => some (.error error, world)
        | none => none
      else none
  | .seek tp offset, world, _ =>
      if (world.positions thread tp).isSome then
        some (.ok (), world.setPosition thread tp (some offset))
      else some (.error .unavailable, world)
  | .commitOffset group tp offset, world, _ =>
      some (.ok (), { world with
        committed := Function.update world.committed group
          (Function.update (world.committed group) tp offset) })
  | .stopConsumer, world, _ =>
      some (.ok (),
        { world with positions := Function.update world.positions thread fun _ => none })
  | .stopping, world, _ => some (.ok (world.stopped thread), world)
  | .handleCall _ _, world, _ => some (.ok (), world)
  | .handleReturn _ _ _, world, _ => some (.ok (), world)
  | .fulfil event, world, oracle =>
      if deployment.mayFulfil event oracle.result then some (oracle.result, world) else none
  | .uuid4, world, oracle =>
      if oracle.uuid ∈ world.issued then none
      else some (.ok oracle.uuid, { world with issued := oracle.uuid :: world.issued })
  | .utcnow, world, oracle => some (.ok oracle.instant, world)
  | .time, world, oracle =>
      if world.clock ≤ oracle.time then
        some (.ok oracle.time, { world with clock := oracle.time })
      else none
  | .uniform low high, world, oracle =>
      if min low high ≤ oracle.draw ∧ oracle.draw ≤ max low high then some (.ok oracle.draw, world)
      else none
  | .sleep seconds, world, oracle =>
      if world.clock + seconds ≤ oracle.time then
        some (.ok (), { world with clock := oracle.time })
      else none

inductive Fate where
  | normal (oracle : Oracle)
  | lost
  | late (oracle : Oracle)

/-- An awaited store or broker call may also raise, before or after taking effect. -/
def perform (deployment : Deployment) (thread : Nat) (op : Op) (world : World) :
    Fate → Option (Outcome Exn op.Reply × World)
  | .normal oracle =>
      match answer deployment thread op world oracle with
      | some (.ok value, after) => some (.ok value, after)
      | some (.error error, after) => some (.lost error, after)
      | none => none
  | .lost => if op.isLocal then none else some (.lost .unavailable, world)
  | .late oracle =>
      if op.isLocal then none
      else match answer deployment thread op world oracle with
        | some (.ok _, after) => some (.late .unavailable, after)
        | _ => none

end OrderFlow
