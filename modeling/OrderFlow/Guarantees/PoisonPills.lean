import OrderFlow.Deliveries
import OrderFlow.Sample

/-!
One delivery of a record on the main topic with every store reachable: which
records are committed past and which hold the partition.
-/
namespace OrderFlow
open AsyncCoroutine AsyncPool

/-- The content of the record's value has been put on the dead-letter topic. -/
def ContentLettered (deployment : Deployment) (record : WireRecord) (before after : World) : Prop :=
  ∃ value letter, valueDeserializer deployment.platform record.value = some value ∧
    after.logs ⟨deployment.settings.topicDlq, 0⟩ =
      before.logs ⟨deployment.settings.topicDlq, 0⟩ ++ [letter] ∧
    letter.record.value = some (serialize deployment.platform (OrderConsumer.wrapRaw value))

section
variable (deployment : Deployment) (partition offset : Nat) (entry : LogEntry) (world : World)

end

variable {deployment : Deployment} {partition offset : Nat} {entry : LogEntry} {world : World}
  {record : ConsumerRecord} {tp : TopicPartition}

/-! ### The loop around one call -/

/-- Anything but a fetch. -/
def Unfetching (op : Op) : Prop := ∀ topic, op ≠ .getmany topic

/-- Neither a fetch nor a commit. -/
def Beside (op : Op) : Prop := op.onOffsets = false ∧ Unfetching op

abbrev Log := List (Entry Op Op.Reply Exn World)

/-- The log grew, and no offset was committed meanwhile. -/
def Uncommitted (log longer : Log) : Prop :=
  ∃ more, longer = log ++ more ∧ ∀ step ∈ more, step.op.onOffsets = false

theorem Uncommitted.trans {first second third : Log} (begins : Uncommitted first second)
    (ends : Uncommitted second third) : Uncommitted first third := by
  obtain ⟨some, rfl, beside⟩ := begins
  obtain ⟨more, rfl, besideToo⟩ := ends
  refine ⟨some ++ more, List.append_assoc .., ?_⟩
  intro step member
  rcases List.mem_append.mp member with before | after
  · exact beside step before
  · exact besideToo step after

theorem logs_contentLettered {after : World} {record : WireRecord} {before : World}
    (logs : before.logs = world.logs)
    (lettered : ContentLettered deployment record before after) :
    ContentLettered deployment record world after := by
  unfold ContentLettered at lettered ⊢
  rw [← logs]
  exact lettered

namespace Sample

/-- A record produced to the main topic and assigned to a worker. -/
def arrived (record : WireRecord) : World :=
  (World.empty.append ⟨"orders.created", 0⟩ record).setPosition 0 ⟨"orders.created", 0⟩ (some 0)

/-- A record without a key and headers. -/
def plain (bytes : ByteArray) : WireRecord := ⟨none, some bytes, []⟩

end Sample

end OrderFlow
