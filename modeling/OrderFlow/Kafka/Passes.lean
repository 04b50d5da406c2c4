import OrderFlow.Kafka.Loop

/-!
A rule for the consume loop. What the loop's own operations keep, and every call of
`handle` keeps once the loop has looked at its stop flag, a whole pass keeps.
-/
namespace OrderFlow
open AsyncCoroutine AsyncPool

/-- What the loop awaits between the calls of `handle` on one batch. -/
def Op.between : Op → Bool
  | .stopping | .seek _ _ | .commitOffset _ _ _ => true
  | _ => false

/-- What the loop awaits around the calls of `handle`. -/
def Op.around : Op → Bool
  | .getmany _ | .stopConsumer => true
  | op => op.between

section
variable {Record : Type} {protocol : Protocol Op Op.Reply Exn Record} {I : Record → Prop}
  {name group : String} {handle : ConsumerRecord → Prog Ack}
  (between : ∀ op : Op, op.between = true → protocol.Keeps I op)
  (safe : ∀ record rec, I rec → protocol.Follows (BaseConsumer.safeHandle name handle record)
    (fun _ left => I left) (protocol.next rec .stopping (.ok false)))
include between safe

theorem drainPartition_maintains (tp : TopicPartition) (records : List ConsumerRecord) :
    protocol.Maintains I (BaseConsumer.drainPartition name group handle tp records) := by
  induction records with
  | nil => exact Protocol.maintains_ret true
  | cons record rest ih =>
    intro rec holds
    obtain ⟨permitted, kept⟩ := between .stopping rfl rec holds
    refine .perform_bind permitted (fun stops => ?_) (fun _ => kept _) fun _ => kept _
    cases stops with
    | true => exact kept _
    | false =>
      refine (safe record rec holds).bind (fun ack left holds => ?_) fun _ _ holds => holds
      cases ack with
      | redeliver =>
        have rewinds : protocol.Maintains I (await (.seek tp record.offset) >>= fun _ =>
            (pure true : Prog Bool)) :=
          (between _ rfl).maintains.bind fun _ => Protocol.maintains_ret true
        exact rewinds left holds
      | commit =>
        have commits : protocol.Maintains I
            (await (.commitOffset group tp (record.offset + 1)) >>= fun _ =>
              BaseConsumer.drainPartition name group handle tp rest) :=
          (between _ rfl).maintains.bind fun _ => ih
        exact commits left holds

theorem drainBatch_maintains (batch : Batch) :
    protocol.Maintains I (BaseConsumer.drainBatch name group handle batch) := by
  induction batch with
  | nil => exact Protocol.maintains_ret true
  | cons segment rest ih =>
    obtain ⟨tp, records⟩ := segment
    refine (drainPartition_maintains between safe tp records).bind fun goesOn => ?_
    cases goesOn with
    | true => exact ih
    | false => exact Protocol.maintains_ret false

omit between safe in
theorem runPass_maintains (around : ∀ op : Op, op.around = true → protocol.Keeps I op)
    (safe : ∀ record rec, I rec → protocol.Follows (BaseConsumer.safeHandle name handle record)
      (fun _ left => I left) (protocol.next rec .stopping (.ok false)))
    (topic : String) : protocol.Maintains I (BaseConsumer.runPass name group handle topic) := by
  have between : ∀ op : Op, op.between = true → protocol.Keeps I op := by
    intro op between
    refine around op ?_
    cases op <;> first | exact between | cases between
  have drains : ∀ batch, protocol.Maintains I (BaseConsumer.drainBatch name group handle batch) :=
    drainBatch_maintains between safe
  have stops : ∀ {program : Prog Bool}, protocol.Maintains I program →
      protocol.Maintains I (await .stopConsumer >>= fun _ => program) :=
    fun rest => (around _ rfl).maintains.bind fun _ => rest
  refine .tryCatch (.bind (.bind (around _ rfl).maintains fun ended => ?_) fun goesOn => ?_)
    fun error => stops (Protocol.maintains_raise error)
  · cases ended with
    | true => exact Protocol.maintains_ret false
    | false =>
      exact (around _ rfl).maintains.bind fun batch => drains batch
  · cases goesOn with
    | true => exact Protocol.maintains_ret true
    | false => exact stops (Protocol.maintains_ret false)

end

end OrderFlow
