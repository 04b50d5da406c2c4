import OrderFlow.Kafka.Passes
import OrderFlow.Runs.Provenance

/-!
The dead-letter archive. Its rows are made from records on `orders.dlq`, and a call
of the archiver's `handle` answers COMMIT with its record's row committed.
-/
namespace OrderFlow
open AsyncCoroutine AsyncPool

variable {deployment : Deployment} {allows : Pipeline → Moment → Prop} {pool after : Pipeline}
  {thread : Nat} {op : Op} {outcome : Outcome Exn op.Reply} {record : ConsumerRecord}

/-! ### What a call of the archiver has filed -/

inductive Filing where
  | clear
  | handed (record : ConsumerRecord)
  | filed (record : ConsumerRecord)

namespace Filing

def allowed : Filing → Op → Prop
  | .handed record, .commit writes => writes = [.insertDeadLetter (DlqArchiver.entryOf record)]
  | .filed record, .handleReturn name returned (some .commit) =>
      name = Consumer.dlq.name → returned = record
  | _, .handleReturn name _ (some .commit) => name ≠ Consumer.dlq.name
  | _, _ => True

def next : Filing → (op : Op) → Outcome Exn op.Reply → Filing
  | _, .handleCall name record, _ =>
      if name = Consumer.dlq.name then .handed record else .clear
  | .handed record, .commit _, .ok _ => .filed record
  | filing, _, _ => filing

def monitor : Monitor Op Op.Reply Exn Call Filing where
  allowed := allowed
  next := next
  idle := .clear
  born _ := .clear

/-- The archiver answers COMMIT for what it has filed. -/
theorem answering {filing : Filing}
    (permitted : monitor.allowed filing (.handleReturn Consumer.dlq.name record (some .commit))) :
    filing = .filed record := by
  cases filing with
  | filed handled =>
    obtain rfl := permitted rfl
    rfl
  | _ => exact (permitted rfl).elim

/-- Operations that file nothing and answer nothing. -/
def Beside : Op → Prop
  | .handleCall _ _ | .handleReturn _ _ (some _) | .commit _ => False
  | _ => True

theorem quiet_beside (filing : Filing) (op : Op) (beside : Beside op) :
    monitor.Quiet filing op := by
  cases op with
  | handleCall | commit => exact beside.elim
  | handleReturn name record result =>
    cases result with
    | some ack => exact beside.elim
    | none => cases filing <;> exact ⟨trivial, fun _ => rfl⟩
  | _ => cases filing <;> exact ⟨trivial, fun _ => rfl⟩

theorem keeps_beside {I : Filing → Prop} (op : Op) (beside : Beside op) : monitor.Keeps I op := by
  intro filing holds
  obtain ⟨permitted, same⟩ := quiet_beside filing op beside
  exact ⟨permitted, fun outcome => by rw [same]; exact holds⟩

theorem around_beside (op : Op) (around : op.around = true) : Beside op := by
  cases op <;> trivial

/-- The handlers of the other consumers, and the API's calls, leave nothing to file. -/
theorem keeps_inner (op : Op) (inner : Inner op) : monitor.Keeps (· = .clear) op := by
  cases op with
  | commit writes => rintro _ rfl; exact ⟨trivial, fun _ => rfl⟩
  | handleCall | handleReturn => cases inner
  | _ => exact keeps_beside _ trivial

theorem other_safe {name : String} {handle : ConsumerRecord → Prog Ack}
    (inner : ∀ record, (handle record).Uses Inner) (other : name ≠ Consumer.dlq.name)
    (record : ConsumerRecord) :
    monitor.Maintains (· = .clear) (BaseConsumer.safeHandle name handle record) := by
  have calls : monitor.Keeps (· = .clear) (.handleCall name record) := by
    rintro _ rfl
    exact ⟨trivial, fun _ => if_neg other⟩
  have returns : ∀ result, monitor.Keeps (· = .clear) (.handleReturn name record result) := by
    rintro (_ | _ | _) _ rfl
    · exact ⟨trivial, fun _ => rfl⟩
    · exact ⟨other, fun _ => rfl⟩
    · exact ⟨trivial, fun _ => rfl⟩
  refine .tryCatch (calls.maintains.bind fun _ => ?_) fun error => ?_
  · refine .bind (Protocol.maintains_of_uses (inner record) keeps_inner) fun ack => ?_
    exact (returns _).maintains.bind fun _ => Protocol.maintains_ret ack
  · refine (returns none).maintains.bind fun _ => ?_
    exact (keeps_beside (.sleep 1) trivial).maintains.bind fun _ => Protocol.maintains_ret _

theorem incrStat_beside (field : String) : (incrStat field).Uses Beside :=
  .tryCatch (Coroutine.uses_perform trivial) fun _ => trivial

/-- The session commits the row of the record, or the call raises. -/
theorem session_files (record : ConsumerRecord) :
    monitor.Follows (sessionScope (Repository.recordDeadLetter (DlqArchiver.entryOf record)))
      (fun result left => result = .ok () → left = .filed record) (.handed record) := by
  refine .tryCatch (Q := fun result left => result = .ok () → left = .filed record)
    ?_ (fun _ _ reached => reached) ?_
  · have drafts : monitor.Follows (Repository.recordDeadLetter (DlqArchiver.entryOf record))
        (fun result left => ∀ value, result = .ok value → left = .handed record ∧
          value.2 = [.insertDeadLetter (DlqArchiver.entryOf record)]) (.handed record) := by
      refine .perform_bind trivial (fun hop => ?_) (by rintro _ _ ⟨⟩) (by rintro _ _ ⟨⟩)
      rintro value ⟨⟩
      exact ⟨rfl, rfl⟩
    refine drafts.bind (fun value left drafted => ?_) (by rintro _ _ _ ⟨⟩)
    obtain ⟨rfl, writes⟩ := drafted value rfl
    exact .perform_bind writes (fun _ _ => rfl) (by rintro _ ⟨⟩) (by rintro _ ⟨⟩)
  · intro error left _
    have rolls := (quiet_beside left .rollback trivial).1
    exact .perform_bind rolls (fun _ => by rintro ⟨⟩) (by rintro _ ⟨⟩) (by rintro _ ⟨⟩)

/-- The archiver answers COMMIT with its record's row committed. -/
theorem archiver_safe (record : ConsumerRecord) :
    monitor.Maintains (fun _ => True)
      (BaseConsumer.safeHandle Consumer.dlq.name DlqArchiver.handle record) := by
  intro filing _
  have calls : ∀ outcome, monitor.next filing (.handleCall Consumer.dlq.name record) outcome =
      .handed record := by
    intro outcome
    cases filing <;> rfl
  have permitted : monitor.allowed filing (.handleCall Consumer.dlq.name record) := by
    cases filing <;> trivial
  refine .tryCatch (Q := fun _ _ => True) ?_ (fun _ _ _ => trivial) ?_
  · refine .perform_bind permitted (fun _ => ?_) (fun _ => trivial) fun _ => trivial
    rw [calls]
    refine .bind (Q := fun result left => ∀ ack, result = .ok ack → ack = .commit ∧
      left = .filed record) ?_ ?_ fun _ _ _ => trivial
    · refine .bind (session_files record) (fun _ left filed => ?_) (by rintro _ _ _ _ ⟨⟩)
      rw [filed rfl]
      refine .bind (.of_uses (incrStat_beside _) (quiet_beside _)) ?_ (by rintro _ _ _ _ ⟨⟩)
      rintro _ left rfl ack ⟨⟩
      exact ⟨rfl, rfl⟩
    · intro ack left answered
      obtain ⟨rfl, rfl⟩ := answered ack rfl
      exact .perform_bind (fun _ => rfl) (fun _ => trivial) (fun _ => trivial) fun _ => trivial
  · intro error left _
    have rest : monitor.Maintains (fun _ => True) (do
        await (.handleReturn Consumer.dlq.name record none)
        await (.sleep 1)
        return Ack.redeliver) :=
      (keeps_beside (.handleReturn Consumer.dlq.name record none) trivial).maintains.bind fun _ =>
        (keeps_beside (.sleep 1) trivial).maintains.bind fun _ => Protocol.maintains_ret _
    exact rest left trivial

theorem run_keeps (consumer : Consumer) :
    monitor.Follows (consumer.run deployment) (fun _ _ => True) .clear := by
  by_cases archives : consumer = .dlq
  · subst archives
    have pass : monitor.Maintains (fun _ => True) (Consumer.run deployment .dlq) :=
      runPass_maintains (fun op around => keeps_beside op (around_beside op around))
        (fun record _ _ => archiver_safe record _ trivial) _
    exact pass .clear trivial
  · have other : consumer.name ≠ Consumer.dlq.name := fun same =>
      archives (name_injective same)
    have pass : monitor.Maintains (· = .clear) (consumer.run deployment) := by
      refine runPass_maintains (fun op around => keeps_beside op (around_beside op around)) ?_ _
      rintro record _ rfl
      exact other_safe (handle_inner deployment consumer) other record .clear rfl
    exact (pass .clear rfl).mono fun _ _ _ => trivial

theorem keeps (deployment : Deployment) (call : Call) :
    monitor.Follows (program deployment call) (fun _ _ => True) (monitor.born call) := by
  have inner : ∀ {Value : Type} {program : Prog Value}, program.Uses Inner →
      monitor.Follows program (fun _ _ => True) .clear := fun uses =>
    (Protocol.maintains_of_uses uses keeps_inner .clear rfl).mono fun _ _ _ => trivial
  cases call with
  | worker consumer =>
    exact (run_keeps consumer).bind (fun _ _ _ => trivial) fun _ _ _ => trivial
  | submitOrder payload key =>
    exact (inner (submitOrder_inner deployment payload key)).bind (fun _ _ _ => trivial)
      fun _ _ _ => trivial
  | readOrder orderId =>
    exact (inner (readOrder_inner deployment orderId)).bind (fun _ _ _ => trivial)
      fun _ _ _ => trivial

end Filing

/-! ### Rows of the archive -/

/-- How one operation changes the archive. -/
theorem letters_change (act : Acts deployment pool after thread op outcome) :
    after.world.deadLetters = pool.world.deadLetters ∨ ∃ record,
      stage deployment pool thread = .archiving record ∧
      after.world.deadLetters = pool.world.deadLetters ++ [DlqArchiver.entryOf record] := by
  obtain ⟨fate, performed⟩ := act.performed
  cases op with
  | commit writes =>
    rcases perform_commit performed with ⟨_, _, same⟩ | ⟨_, written⟩
    · exact .inl (by rw [same])
    · have permitted := act.permitted
      cases before : stage deployment pool thread with
      | submitting submission =>
        rw [before] at permitted
        cases submission with
        | drawn payload key id =>
          obtain ⟨hop, rfl⟩ := permitted
          exact .inl (by rw [written]; rfl)
        | _ => exact permitted.elim
      | holding delivery token phase =>
        rw [before] at permitted
        cases phase with
        | read aim reason row =>
          obtain ⟨note, hop, rfl⟩ := permitted
          exact .inl (by rw [written]; rfl)
        | absent | closed =>
          obtain rfl := permitted
          exact .inl (by rw [written]; rfl)
        | moved aim reason | towards aim reason | sent aim => cases aim <;> exact permitted.elim
        | _ => exact permitted.elim
      | archiving record =>
        rw [before] at permitted
        obtain rfl := permitted
        exact .inr ⟨record, rfl, by rw [written]; rfl⟩
      | _ =>
        rw [before] at permitted
        exact permitted.elim
  | _ => exact .inl (perform_deadLetters performed rfl)

theorem letters_step {label : Moment} (reached : Reachable (system deployment) allows World.empty pool)
    (moved : Step (system deployment) pool label after) :
    after.world.deadLetters = pool.world.deadLetters ∨ ∃ thread record,
      stage deployment pool thread = .archiving record ∧
      after.world.deadLetters = pool.world.deadLetters ++ [DlqArchiver.entryOf record] := by
  rcases step_cases reached moved with ⟨thread, op, outcome, rfl, act⟩ | ⟨thread, turn⟩ |
    ⟨event, rfl, happening⟩
  · rcases letters_change act with same | ⟨record, standing, added⟩
    · exact .inl same
    · exact .inr ⟨thread, record, standing, added⟩
  · exact .inl (by rw [turn.world])
  · exact .inl (happen_frame happening.happened).2.2.1

/-- Every row of the archive was made from a record of `orders.dlq`. -/
theorem archived_handed (reached : Reachable (system deployment) allows World.empty pool) :
    ∀ row ∈ pool.world.deadLetters, ∃ record,
      Handed deployment pool .dlq record ∧ row = DlqArchiver.entryOf record := by
  induction reached with
  | init =>
    intro row member
    cases member
  | @step pool label after reached permitted moved ih =>
    intro row member
    have before : row ∈ pool.world.deadLetters → ∃ record,
        Handed deployment after .dlq record ∧ row = DlqArchiver.entryOf record := by
      intro earlier
      obtain ⟨record, handed, made⟩ := ih row earlier
      exact ⟨record, handed.later moved, made⟩
    rcases letters_step reached moved with same | ⟨thread, record, standing, added⟩
    · exact before (same ▸ member)
    · rw [added] at member
      rcases List.mem_append.mp member with earlier | new
      · exact before earlier
      · refine ⟨record, ?_, List.mem_singleton.mp new⟩
        exact (handled_by thread reached (by rw [standing]; rfl) (by rw [standing]; rfl)).later moved

/-! ### Letters that were answered for -/

end OrderFlow
