import OrderFlow.Stage

/-!
Every path through the order consumer's `handle` keeps to the stages: one lemma
for each function of the consumer, from the sessions up.
-/
namespace OrderFlow
open AsyncCoroutine AsyncPool

/-! ### Programs that cannot disturb their record -/

section
variable {Record Value : Type} {protocol : Protocol Op Op.Reply Exn Record} {record : Record}

theorem steady_bind {program : Prog Unit} {next : Unit → Prog Value}
    {goal : Except Exn Value → Record → Prop}
    (first : protocol.Follows program (fun result left => result = .ok () ∧ left = record) record)
    (rest : protocol.Follows (next ()) goal record) :
    protocol.Follows (program >>= next) goal record := by
  refine first.bind ?_ ?_
  · rintro _ left ⟨_, rfl⟩
    exact rest
  · rintro error left ⟨⟨⟩, _⟩

/-! Best-effort operations neither raise nor move the record. -/

theorem incrStat_steady {field : String} (quiet : protocol.Quiet record (.hincrby field 1)) :
    protocol.Follows (incrStat field) (fun result left => result = .ok () ∧ left = record)
      record := by
  refine .tryCatch (Q := fun _ left => left = record) ?_ ?_ ?_
  · exact Protocol.follows_perform.mpr ⟨quiet.1, fun outcome => quiet.2 outcome⟩
  · rintro value left rfl
    exact ⟨rfl, rfl⟩
  · rintro error left rfl
    exact ⟨rfl, rfl⟩

theorem putOrder_steady {deployment : Deployment} {order : Order}
    (quiet : ∀ value ttl, protocol.Quiet record (.set (.order order.row.id.str) value ttl)) :
    protocol.Follows (Cache.putOrder deployment order)
      (fun result left => result = .ok () ∧ left = record) record := by
  refine .tryCatch (Q := fun _ left => left = record) ?_ ?_ ?_
  · exact Protocol.follows_perform.mpr ⟨(quiet _ _).1, fun outcome => (quiet _ _).2 outcome⟩
  · rintro value left rfl
    exact ⟨rfl, rfl⟩
  · rintro error left rfl
    exact ⟨rfl, rfl⟩

/-- A session: its body, then a commit; a failure of either is rolled back. -/
theorem sessionScope_follows {body : Prog (Value × List Write)}
    {Q : Except Exn (Value × List Write) → Record → Prop}
    {goal : Except Exn Value → Record → Prop} {F : Record → Prop}
    (inner : protocol.Follows body Q record)
    (permitted : ∀ value writes left, Q (.ok (value, writes)) left →
      protocol.allowed left (.commit writes))
    (committed : ∀ value writes left, Q (.ok (value, writes)) left →
      goal (.ok value) (protocol.next left (.commit writes) (.ok ())))
    (lost : ∀ value writes left error, Q (.ok (value, writes)) left →
      F (protocol.next left (.commit writes) (.lost error)))
    (late : ∀ value writes left error, Q (.ok (value, writes)) left →
      F (protocol.next left (.commit writes) (.late error)))
    (raised : ∀ error left, Q (.error error) left → F left)
    (rollsBack : ∀ left, F left → protocol.allowed left .rollback ∧
      ∀ outcome error, goal (.error error) (protocol.next left .rollback outcome)) :
    protocol.Follows (sessionScope body) goal record := by
  refine .tryCatch (Q := fun result left => match result with
    | .ok value => goal (.ok value) left
    | .error _ => F left) ?_ (fun _ _ reached => reached) ?_
  · refine .bind inner ?_ fun error left reached => raised error left reached
    rintro ⟨value, writes⟩ left reached
    exact .perform_bind (permitted _ _ _ reached) (fun _ => committed _ _ _ reached)
      (fun error => lost _ _ _ error reached) fun error => late _ _ _ error reached
  · intro error left reached
    obtain ⟨allowed, ends⟩ := rollsBack left reached
    exact .perform_bind allowed (fun _ => ends _ _) (fun _ => ends _ _) fun _ => ends _ _

end

namespace Deliveries
variable {deployment : Deployment} {delivery : Delivery deployment} {token : String}

abbrev Keeps {Value : Type} (program : Prog Value)
    (goal : Except Exn Value → Stage deployment → Prop) (stage : Stage deployment) : Prop :=
  (Stage.monitor deployment).Follows program goal stage

/-- The claim a delivery holds. -/
def claimOf (delivery : Delivery deployment) (token : String) : Claim :=
  ⟨.acquired, delivery.guard, token⟩

/-- From here the guard can be handed back. -/
def Fails (delivery : Delivery deployment) (token : String) (left : Stage deployment) : Prop :=
  left = .holding delivery token .aborting ∨
    ∃ reason, left = .holding delivery token (.towards .pending reason)

def Processed (delivery : Delivery deployment) (token : String) (result : Except Exn Ack)
    (left : Stage deployment) : Prop :=
  match result with
  | .ok ack => ack = .commit ∧ ∃ verdict, left = .holding delivery token (.closed verdict)
  | .error _ => Fails delivery token left

theorem aborted : Fails delivery token (.holding delivery token .aborting) := .inl rfl

theorem rollsBack_aborting :
    (Stage.monitor deployment).allowed (.holding delivery token .aborting) .rollback ∧
      ∀ outcome, Fails delivery token
        ((Stage.monitor deployment).next (.holding delivery token .aborting) .rollback outcome) :=
  ⟨trivial, fun outcome => by cases outcome <;> exact aborted⟩

theorem hincrby_closed {verdict : Verdict} (field : String) :
    (Stage.monitor deployment).Quiet (.holding delivery token (.closed verdict))
      (.hincrby field 1) :=
  ⟨trivial, fun outcome => by cases outcome <;> rfl⟩

theorem put_moved {aim : OrderStatus} {reason : Option PyStr} (orderId value : String) (ttl : Nat) :
    (Stage.monitor deployment).Quiet (.holding delivery token (.moved aim reason))
      (.set (.order orderId) value ttl) := by
  refine ⟨?_, fun outcome => ?_⟩
  · cases aim <;> trivial
  · cases aim <;> cases outcome <;> rfl

theorem trail_checked (delivery : Delivery deployment) (token : String) (row : OrderRow)
    (id : Uuid) :
    (Stage.monitor deployment).allowed (.holding delivery token (Phase.checked row))
        (.selectTransitions id) ∧
      ∀ outcome, (Stage.monitor deployment).next (.holding delivery token (Phase.checked row))
        (.selectTransitions id) outcome = .holding delivery token
          (match outcome with | .ok _ => Phase.checked row | _ => .aborting) := by
  simp only [Phase.checked]
  split
  · exact ⟨trivial, fun outcome => by cases outcome <;> rfl⟩
  · exact ⟨trivial, fun outcome => by cases outcome <;> rfl⟩

theorem getOrder_acquired :
    Keeps (Repository.getOrder delivery.event.orderId)
      (fun result left => match result with
        | .ok none => left = .holding delivery token .missing
        | .ok (some order) => left = .holding delivery token (Phase.checked order.row)
        | .error _ => left = .holding delivery token .aborting)
      (.holding delivery token .acquired) := by
  refine .perform_bind rfl (fun found => ?_) (fun _ => rfl) fun _ => rfl
  cases found with
  | none => rfl
  | some row =>
    obtain ⟨permitted, reached⟩ := trail_checked delivery token row delivery.event.orderId
    exact .perform_bind permitted (fun _ => reached _) (fun _ => reached _) fun _ => reached _

theorem towards_selected (aim : OrderStatus) (reason : Option PyStr)
    (outcome : Outcome Exn (Option OrderRow)) :
    (Stage.monitor deployment).next (.holding delivery token (.towards aim reason))
      (.selectOrder delivery.event.orderId) outcome = .holding delivery token
        (match outcome with
          | .ok none => .absent
          | .ok (some row) => .read aim reason row
          | _ => .aborting) := by
  cases aim <;> rcases outcome with (_ | _) | _ | _ <;> rfl

theorem getOrder_towards (aim : OrderStatus) (reason : Option PyStr) :
    Keeps (Repository.getOrder delivery.event.orderId)
      (fun result left => match result with
        | .ok none => left = .holding delivery token .absent
        | .ok (some order) => left = .holding delivery token (.read aim reason order.row)
        | .error _ => left = .holding delivery token .aborting)
      (.holding delivery token (.towards aim reason)) := by
  refine .perform_bind ?_ (fun found => ?_) (fun _ => towards_selected ..)
    fun _ => towards_selected ..
  · cases aim <;> exact rfl
  · rw [towards_selected]
    cases found with
    | none => rfl
    | some row => exact .perform_bind trivial (fun _ => rfl) (fun _ => rfl) fun _ => rfl

theorem transition_follows {aim : OrderStatus} {reason : Option PyStr} (order : Order)
    (note : PyStr) :
    Keeps (Repository.transition order aim note delivery.attempt reason)
      (fun result left => match result with
        | .ok (_, writes) => left = .holding delivery token (.read aim reason order.row) ∧
            ∃ hop, writes = Repository.transitionWrites order.row
              (Repository.transitionRow order.row aim delivery.attempt reason) (some note) hop
        | .error _ => left = .holding delivery token .aborting)
      (.holding delivery token (.read aim reason order.row)) :=
  .perform_bind trivial (fun hop => ⟨rfl, hop, rfl⟩) (fun _ => rfl) fun _ => rfl

/-- `_to_dlq` from a stage that owes the dead letter. -/
theorem toDlq_follows {phase : Phase} (sent : Phase) (error : PyStr)
    (stamp : ∀ outcome, (Stage.monitor deployment).next (.holding delivery token phase) .utcnow
      outcome = .holding delivery token (match outcome with | .ok _ => phase | _ => .aborting))
    (stamps : (Stage.monitor deployment).allowed (.holding delivery token phase) .utcnow)
    (permits : ∀ topic key value headers,
      Phase.IsDeadLetter deployment delivery.record topic key value headers →
      (Stage.monitor deployment).allowed (.holding delivery token phase)
        (.send topic key value headers))
    (sends : ∀ topic key value headers outcome, (Stage.monitor deployment).next
      (.holding delivery token phase) (.send topic key value headers) outcome =
        .holding delivery token (match outcome with | .ok _ => sent | _ => .aborting)) :
    Keeps (OrderConsumer.toDlq deployment delivery.record delivery.attempt error)
      (fun result left => match result with
        | .ok _ => left = .holding delivery token sent
        | .error _ => left = .holding delivery token .aborting)
      (.holding delivery token phase) := by
  refine .bind (Q := fun result left => match result with
    | .ok headers => left = .holding delivery token phase ∧ ∃ failedAt, headers =
        Headers.build deployment.platform delivery.attempt none (some error)
          (some delivery.record.topic) failedAt
    | .error _ => left = .holding delivery token .aborting) ?_ ?_ fun _ _ same => same
  · exact .perform_bind stamps (fun failedAt => ⟨stamp _, failedAt, rfl⟩) (fun _ => stamp _)
      fun _ => stamp _
  · rintro headers left ⟨rfl, failedAt, rfl⟩
    refine Protocol.follows_perform.mpr ⟨permits _ _ _ _ ⟨rfl, rfl, rfl, error, failedAt, rfl⟩,
      fun outcome => ?_⟩
    rw [sends]
    cases outcome <;> rfl

theorem complete_follows {phase : Phase} (verdict : Verdict) {Value : Type}
    {next : Bool → Prog Value} {goal : Except Exn Value → Stage deployment → Prop}
    (permitted : ∀ ttl, (Stage.monitor deployment).allowed (.holding delivery token phase)
      (.evalComplete delivery.guard token ttl))
    (ends : ∀ ttl outcome, (Stage.monitor deployment).next (.holding delivery token phase)
      (.evalComplete delivery.guard token ttl) outcome =
        .holding delivery token (match outcome with | .ok _ => .closed verdict | _ => .aborting))
    (rest : ∀ changed, Keeps (next changed) goal (.holding delivery token (.closed verdict)))
    (fails : ∀ error, goal (.error error) (.holding delivery token .aborting)) :
    Keeps (IdempotencyGuard.complete deployment.settings (claimOf delivery token) >>= next) goal
      (.holding delivery token phase) := by
  have ended := ends deployment.settings.idempotencyDoneTtlSeconds
  refine .perform_bind (permitted _) (fun changed => ?_) (fun error => ?_) fun error => ?_
  · have goes := rest changed
    rw [← ended (.ok changed)] at goes
    exact goes
  · have stops := fails error
    rw [← ended (.lost error)] at stops
    exact stops
  · have stops := fails error
    rw [← ended (.late error)] at stops
    exact stops

/-- Nothing is left but a counter and the answer. -/
theorem closed_follows {verdict : Verdict} (field : String) :
    Keeps (do incrStat field; return Ack.commit) (Processed delivery token)
      (.holding delivery token (.closed verdict)) :=
  steady_bind (incrStat_steady (hincrby_closed field)) ⟨rfl, verdict, rfl⟩

def Admitted (delivery : Delivery deployment) (token : String) (result : Except Exn (Option Order))
    (left : Stage deployment) : Prop :=
  match result with
  | .ok none => ∃ verdict, left = .holding delivery token (.closed verdict)
  | .ok (some _) => left = .holding delivery token (.moved .processing none)
  | .error _ => Fails delivery token left

theorem accept_follows :
    Keeps (OrderConsumer.accept deployment delivery.event delivery.record delivery.attempt
        (claimOf delivery token)) (Admitted delivery token)
      (.holding delivery token .acquired) := by
  refine sessionScope_follows (F := fun left => left = .holding delivery token .aborting)
    (Q := fun result left => match result with
      | .ok (none, writes) =>
          writes = [] ∧ ∃ verdict, left = .holding delivery token (.closed verdict)
      | .ok (some _, writes) => ∃ row note hop,
          left = .holding delivery token (.read .processing none row) ∧
          writes = Repository.transitionWrites row
            (Repository.transitionRow row .processing delivery.attempt none) (some note) hop
      | .error _ => left = .holding delivery token .aborting) ?_ ?_ ?_ ?_ ?_ (fun _ _ same => same) ?_
  · refine getOrder_acquired.bind ?_ fun _ _ same => same
    rintro (_ | order) left rfl
    · refine .perform_bind ⟨rfl, rfl⟩ (fun _ => ?_) (fun _ => rfl) fun _ => rfl
      refine (toDlq_follows (.closed .unknown) _ ?_ ?_ (fun _ _ _ _ => id) ?_).bind ?_
        fun _ _ same => same
      · rintro (_ | _ | _) <;> rfl
      · trivial
      · rintro _ _ _ _ (_ | _ | _) <;> rfl
      · rintro _ left rfl
        exact ⟨rfl, _, rfl⟩
    · simp only [Phase.checked]
      split
      · refine complete_follows .terminal (fun _ => ⟨rfl, rfl⟩) ?_ (fun _ => ?_)
          fun _ => rfl
        · rintro _ (_ | _ | _) <;> rfl
        · exact steady_bind (incrStat_steady (hincrby_closed _)) ⟨rfl, _, rfl⟩
      · refine (transition_follows order _).bind ?_ fun _ _ same => same
        rintro ⟨moved, writes⟩ left ⟨rfl, hop, rfl⟩
        exact ⟨order.row, _, hop, rfl, rfl⟩
  · rintro (_ | order) writes left reached
    · obtain ⟨rfl, verdict, rfl⟩ := reached
      exact rfl
    · obtain ⟨row, note, hop, rfl, rfl⟩ := reached
      exact ⟨note, hop, rfl⟩
  · rintro (_ | order) writes left reached
    · obtain ⟨rfl, verdict, rfl⟩ := reached
      exact ⟨verdict, rfl⟩
    · obtain ⟨row, note, hop, rfl, rfl⟩ := reached
      exact rfl
  · rintro (_ | order) writes left error reached
    · obtain ⟨rfl, verdict, rfl⟩ := reached
      rfl
    · obtain ⟨row, note, hop, rfl, rfl⟩ := reached
      rfl
  · rintro (_ | order) writes left error reached
    · obtain ⟨rfl, verdict, rfl⟩ := reached
      rfl
    · obtain ⟨row, note, hop, rfl, rfl⟩ := reached
      rfl
  · rintro left rfl
    exact ⟨rollsBack_aborting.1, fun outcome _ => rollsBack_aborting.2 outcome⟩

/-- Out of a session that failed after reading nothing or something. -/
theorem rollsBack_absent (left : Stage deployment)
    (failed : left = .holding delivery token .aborting ∨ left = .holding delivery token .absent) :
    (Stage.monitor deployment).allowed left .rollback ∧ ∀ outcome,
      Fails delivery token ((Stage.monitor deployment).next left .rollback outcome) := by
  rcases failed with rfl | rfl
  · exact rollsBack_aborting
  · exact ⟨trivial, fun outcome => by cases outcome <;> exact aborted⟩

theorem moveOrder_follows (aim : OrderStatus) (reason : Option PyStr) (note : PyStr) :
    Keeps (OrderConsumer.moveOrder delivery.event.orderId aim note delivery.attempt reason)
      (fun result left => match result with
        | .ok _ => left = .holding delivery token (.moved aim reason)
        | .error _ => Fails delivery token left)
      (.holding delivery token (.towards aim reason)) := by
  refine sessionScope_follows
    (F := fun left => left = .holding delivery token .aborting ∨
      left = .holding delivery token .absent)
    (Q := fun result left => match result with
      | .ok (_, writes) => ∃ row hop, left = .holding delivery token (.read aim reason row) ∧
          writes = Repository.transitionWrites row
            (Repository.transitionRow row aim delivery.attempt reason) (some note) hop
      | .error _ => left = .holding delivery token .aborting ∨
          left = .holding delivery token .absent) ?_ ?_ ?_ ?_ ?_ (fun _ _ same => same)
    fun left failed => ⟨(rollsBack_absent left failed).1,
      fun outcome _ => (rollsBack_absent left failed).2 outcome⟩
  · refine (getOrder_towards aim reason).bind ?_ fun _ _ same => .inl same
    rintro (_ | order) left rfl
    · exact .inr rfl
    · refine (transition_follows order note).mono ?_
      rintro (error | ⟨moved, writes⟩) left reached
      · exact .inl reached
      · obtain ⟨rfl, hop, rfl⟩ := reached
        exact ⟨order.row, hop, rfl, rfl⟩
  · rintro order writes left ⟨row, hop, rfl, rfl⟩
    exact ⟨note, hop, rfl⟩
  · rintro order writes left ⟨row, hop, rfl, rfl⟩
    rfl
  · rintro order writes left error ⟨row, hop, rfl, rfl⟩
    exact .inl rfl
  · rintro order writes left error ⟨row, hop, rfl, rfl⟩
    exact .inl rfl

theorem succeed_follows :
    Keeps (OrderConsumer.succeed deployment delivery.event delivery.attempt
        (claimOf delivery token)) (Processed delivery token)
      (.holding delivery token (.towards .completed none)) := by
  refine (moveOrder_follows .completed none _).bind ?_ fun _ _ failed => failed
  rintro order left rfl
  refine steady_bind (putOrder_steady fun value ttl => put_moved _ value ttl) ?_
  refine complete_follows .completed (fun _ => ⟨rfl, rfl⟩) ?_
    (fun _ => closed_follows _) fun _ => aborted
  rintro _ (_ | _ | _) <;> rfl

theorem backoffDelay_follows (reason : Option PyStr) :
    Keeps (Processing.backoffDelay deployment.settings delivery.attempt)
      (fun result left => match result with
        | .ok _ => left = .holding delivery token (.towards .pending reason)
        | .error _ => Fails delivery token left)
      (.holding delivery token (.towards .pending reason)) := by
  simp only [Processing.backoffDelay]
  split
  · exact .inr ⟨_, rfl⟩
  · exact .perform_bind trivial (fun _ => rfl) (fun _ => aborted) fun _ => aborted

theorem buildHeaders_follows (reason : Option PyStr) (attempt : Nat) (notBefore : Option PyFloat)
    (error : Option PyStr) (topic : String) :
    Keeps (buildHeaders deployment attempt notBefore error (some topic))
      (fun result left => match result with
        | .ok headers => left = .holding delivery token (.moved .pending reason) ∧
            ∃ failedAt, headers =
              Headers.build deployment.platform attempt notBefore error (some topic) failedAt
        | .error _ => left = .holding delivery token .aborting)
      (.holding delivery token (.moved .pending reason)) :=
  .perform_bind trivial (fun failedAt => ⟨rfl, failedAt, rfl⟩) (fun _ => rfl) fun _ => rfl

theorem retry_follows (message : PyStr) :
    Keeps (OrderConsumer.retry deployment delivery.event delivery.record delivery.attempt
        (claimOf delivery token) message) (Processed delivery token)
      (.holding delivery token (.towards .pending (some message))) := by
  refine (backoffDelay_follows (some message)).bind ?_ fun _ _ failed => failed
  rintro delay left rfl
  refine (moveOrder_follows .pending (some message) _).bind ?_ fun _ _ failed => failed
  rintro order left rfl
  refine steady_bind (putOrder_steady fun value ttl => put_moved _ value ttl) ?_
  refine .perform_bind trivial (fun now => ?_) (fun _ => aborted) fun _ => aborted
  refine (buildHeaders_follows (some message) ..).bind ?_ ?_
  · rintro headers left ⟨rfl, failedAt, rfl⟩
    refine .perform_bind ⟨rfl, rfl, rfl, _, failedAt, rfl⟩ (fun _ => ?_) (fun _ => aborted)
      fun _ => aborted
    refine .perform_bind ⟨rfl, rfl⟩ (fun _ => closed_follows _) (fun _ => aborted) fun _ => aborted
  · rintro error left rfl
    exact aborted

theorem deadLetter_follows (text error : PyStr) :
    Keeps (OrderConsumer.deadLetter deployment delivery.event delivery.record delivery.attempt
        (claimOf delivery token) text error) (Processed delivery token)
      (.holding delivery token (.towards .failed (some error))) := by
  have finish : ∀ phase, phase = .absent ∨ phase = .moved .failed (some error) →
      Keeps (do
        OrderConsumer.toDlq deployment delivery.record delivery.attempt text
        let _ ← IdempotencyGuard.complete deployment.settings (claimOf delivery token)
        incrStat "failed"
        return Ack.commit) (Processed delivery token) (.holding delivery token phase) := by
    intro phase owes
    refine (toDlq_follows (.sent .failed) text ?_ ?_ ?_ ?_).bind ?_
      fun _ _ same => .inl same
    · rcases owes with rfl | rfl <;> rintro (_ | _ | _) <;> rfl
    · rcases owes with rfl | rfl <;> trivial
    · rcases owes with rfl | rfl <;> exact fun _ _ _ _ => id
    · rcases owes with rfl | rfl <;> rintro _ _ _ _ (_ | _ | _) <;> rfl
    · rintro _ left rfl
      refine complete_follows .failed (fun _ => ⟨rfl, rfl⟩) ?_
        (fun _ => closed_follows _) fun _ => aborted
      rintro _ (_ | _ | _) <;> rfl
  refine .bind (Q := fun result left => match result with
    | .ok none => left = .holding delivery token .absent
    | .ok (some _) => left = .holding delivery token (.moved .failed (some error))
    | .error _ => Fails delivery token left) ?_ ?_ fun _ _ failed => failed
  · refine sessionScope_follows (F := fun left => left = .holding delivery token .aborting)
      (Q := fun result left => match result with
        | .ok (none, writes) => writes = [] ∧ left = .holding delivery token .absent
        | .ok (some _, writes) => ∃ row hop,
            left = .holding delivery token (.read .failed (some error) row) ∧
            writes = Repository.transitionWrites row
              (Repository.transitionRow row .failed delivery.attempt (some error)) (some text) hop
        | .error _ => left = .holding delivery token .aborting) ?_ ?_ ?_ ?_ ?_
      (fun _ _ same => same) ?_
    · refine (getOrder_towards .failed (some error)).bind ?_ fun _ _ same => same
      rintro (_ | order) left rfl
      · exact ⟨rfl, rfl⟩
      · refine (transition_follows order text).bind ?_ fun _ _ same => same
        rintro ⟨moved, writes⟩ left ⟨rfl, hop, rfl⟩
        exact ⟨order.row, hop, rfl, rfl⟩
    · rintro (_ | order) writes left reached
      · obtain ⟨rfl, rfl⟩ := reached
        exact rfl
      · obtain ⟨row, hop, rfl, rfl⟩ := reached
        exact ⟨text, hop, rfl⟩
    · rintro (_ | order) writes left reached
      · obtain ⟨rfl, rfl⟩ := reached
        exact rfl
      · obtain ⟨row, hop, rfl, rfl⟩ := reached
        exact rfl
    · rintro (_ | order) writes left raised reached
      · obtain ⟨rfl, rfl⟩ := reached
        rfl
      · obtain ⟨row, hop, rfl, rfl⟩ := reached
        rfl
    · rintro (_ | order) writes left raised reached
      · obtain ⟨rfl, rfl⟩ := reached
        rfl
      · obtain ⟨row, hop, rfl, rfl⟩ := reached
        rfl
    · rintro left rfl
      exact ⟨rollsBack_aborting.1, fun outcome _ => rollsBack_aborting.2 outcome⟩
  · rintro (_ | order) left rfl
    · exact finish _ (.inl rfl)
    · exact steady_bind (putOrder_steady fun value ttl => put_moved _ value ttl)
        (finish _ (.inr rfl))

theorem fail_follows (message : PyStr) (retryable : Bool) :
    Keeps (OrderConsumer.fail deployment delivery.event delivery.record delivery.attempt
        (claimOf delivery token) message retryable) (Processed delivery token)
      (.holding delivery token
        (if retryable = true ∧ (delivery.attempt : Int) < deployment.settings.maxAttempts then
          .towards .pending (some message) else .towards .failed (some message))) := by
  simp only [OrderConsumer.fail]
  split
  · exact retry_follows message
  · exact deadLetter_follows _ message

theorem tryFulfil_follows :
    Keeps (OrderConsumer.tryFulfil delivery.event)
      (fun result left => match result with
        | .ok none => left = .holding delivery token (.towards .completed none)
        | .ok (some (message, retryable)) => left = .holding delivery token
            (if retryable = true ∧ (delivery.attempt : Int) < deployment.settings.maxAttempts then
              .towards .pending (some message) else .towards .failed (some message))
        | .error _ => Fails delivery token left)
      (.holding delivery token (.moved .processing none)) := by
  refine .tryCatch (Q := fun result left => match result with
    | .ok outcome => outcome = none ∧ left = .holding delivery token (.towards .completed none)
    | .error error => left = .holding delivery token (Phase.decide delivery (.error error)))
    ?_ ?_ ?_
  · exact .perform_bind rfl (fun _ => ⟨rfl, rfl⟩) (fun _ => rfl) fun _ => rfl
  · rintro _ left ⟨rfl, rfl⟩
    rfl
  · rintro error left rfl
    cases error with
    | permanent message => rfl
    | transient message =>
      simp only [Phase.decide]
      split
      · rename_i again
        exact (congrArg (Stage.holding delivery token) (if_pos ⟨rfl, again⟩)).symm
      · rename_i exhausted
        exact (congrArg (Stage.holding delivery token)
          (if_neg fun both => exhausted both.2)).symm
    | _ => exact aborted

theorem process_follows (delivery : Delivery deployment) (token : String) :
    Keeps (OrderConsumer.process deployment delivery.event delivery.record delivery.attempt
        (claimOf delivery token)) (Processed delivery token)
      (.holding delivery token .acquired) := by
  refine accept_follows.bind ?_ fun _ _ failed => failed
  rintro (_ | order) left reached
  · obtain ⟨verdict, rfl⟩ := reached
    exact ⟨rfl, verdict, rfl⟩
  · cases reached
    refine steady_bind (putOrder_steady fun value ttl => put_moved _ value ttl) ?_
    refine tryFulfil_follows.bind ?_ fun _ _ failed => failed
    rintro (_ | ⟨message, retryable⟩) left rfl
    · exact succeed_follows
    · exact fail_follows message retryable

/-- What `claim` leaves behind. -/
def Claimed (delivery : Delivery deployment) (result : Except Exn Claim)
    (left : Stage deployment) : Prop :=
  match result with
  | .ok claim => ∃ token, claim.key = delivery.guard ∧ claim.token = token ∧
      left = match claim.status with
        | .acquired => .holding delivery token .acquired
        | .alreadyDone => .settled delivery.record .duplicate
        | .inProgress => .claiming delivery token true
  | .error _ => left = .leaving delivery.record

theorem verdict_claimed (taken : Bool) (current : Option String) :
    Claimed delivery (.ok (IdempotencyGuard.verdict delivery.guard token current))
      ((Stage.monitor deployment).next (.claiming delivery token taken) (.get delivery.guard)
        (.ok current)) := by
  have reached : (Stage.monitor deployment).next (.claiming delivery token taken)
      (.get delivery.guard) (.ok current) = if current = some done then
        .settled delivery.record .duplicate else .claiming delivery token true := rfl
  rw [reached]
  simp only [IdempotencyGuard.verdict]
  split
  · exact ⟨token, rfl, rfl, rfl⟩
  · exact ⟨token, rfl, rfl, rfl⟩

theorem entered_claiming (id : Uuid) :
    (Stage.monitor deployment).next (.entered delivery.record) .uuid4 (.ok id) =
      .claiming delivery id.hex false := by
  simp only [Stage.monitor, Stage.next, Stage.enteredNext]
  split
  · rename_i event valid
    have same : event = delivery.event := by
      have := delivery.valid
      rw [valid] at this
      exact Except.ok.inj this
    subst same
    rfl
  · rename_i text invalid
    rw [delivery.valid] at invalid
    cases invalid

theorem claim_follows (delivery : Delivery deployment) :
    Keeps (IdempotencyGuard.claim deployment.settings delivery.event.eventId) (Claimed delivery)
      (.entered delivery.record) := by
  refine .perform_bind trivial (fun id => ?_) (fun _ => rfl) fun _ => rfl
  rw [entered_claiming]
  refine .perform_bind ⟨rfl, rfl⟩ (fun won => ?_) (fun _ => rfl) fun _ => rfl
  cases won with
  | true => exact ⟨id.hex, rfl, rfl, rfl⟩
  | false =>
    refine .perform_bind rfl (fun current => ?_) (fun _ => rfl) fun _ => rfl
    cases current with
    | some holder => exact verdict_claimed false (some holder)
    | none =>
      refine .perform_bind ⟨rfl, rfl⟩ (fun wonAgain => ?_) (fun _ => rfl) fun _ => rfl
      cases wonAgain with
      | true => exact ⟨id.hex, rfl, rfl, rfl⟩
      | false =>
        exact .perform_bind rfl (fun current => verdict_claimed true current) (fun _ => rfl)
          fun _ => rfl

/-! ### Calls of `handle` from the loop -/

/-- The call can be left with an error. -/
def CanLeave (name : String) (record : ConsumerRecord) (left : Stage deployment) : Prop :=
  (Stage.monitor deployment).allowed left (.handleReturn name record none) ∧
    ∀ outcome, (Stage.monitor deployment).next left (.handleReturn name record none) outcome =
      .outside

/-- Where `handle` may stop: the answer it gives is one its stage allows. -/
def Answers (name : String) (record : ConsumerRecord) (result : Except Exn Ack)
    (left : Stage deployment) : Prop :=
  match result with
  | .ok ack => (Stage.monitor deployment).allowed left (.handleReturn name record (some ack)) ∧
      (Stage.monitor deployment).next left (.handleReturn name record (some ack)) (.ok ()) =
        .outside ∧
      ∀ error, CanLeave name record ((Stage.monitor deployment).next left
          (.handleReturn name record (some ack)) (.lost error)) ∧
        CanLeave name record ((Stage.monitor deployment).next left
          (.handleReturn name record (some ack)) (.late error))
  | .error _ => CanLeave name record left

theorem leaving_canLeave (name : String) (record : ConsumerRecord) :
    CanLeave name record (.leaving record : Stage deployment) :=
  ⟨⟨rfl, rfl⟩, fun _ => rfl⟩

theorem safeHandle_follows {name : String} {record : ConsumerRecord}
    {handle : ConsumerRecord → Prog Ack}
    (follows : Keeps (handle record) (Answers name record)
      (Stage.called deployment name record)) :
    Keeps (BaseConsumer.safeHandle name handle record) (fun _ left => left = .outside)
      (.outside : Stage deployment) := by
  refine .tryCatch (Q := fun result left => match result with
    | .ok _ => left = .outside
    | .error _ => CanLeave name record left) ?_ (fun _ _ same => same) ?_
  · refine .perform_bind trivial (fun _ => ?_) (fun _ => leaving_canLeave ..)
      fun _ => leaving_canLeave ..
    refine follows.bind ?_ fun _ _ fails => fails
    rintro ack left ⟨permitted, returns, raises⟩
    exact .perform_bind permitted (fun _ => returns) (fun error => (raises error).1)
      fun error => (raises error).2
  · rintro error left ⟨permitted, leaves⟩
    refine .perform_bind permitted (fun _ => ?_) (fun _ => leaves _) fun _ => leaves _
    rw [leaves]
    exact .perform_bind trivial (fun _ => rfl) (fun _ => rfl) fun _ => rfl

theorem settled_answers {record : ConsumerRecord} {verdict : Verdict} :
    Answers Consumer.processor.name record (.ok .commit)
      (.settled record verdict : Stage deployment) :=
  ⟨⟨rfl, rfl, rfl⟩, rfl, fun _ => ⟨leaving_canLeave .., leaving_canLeave ..⟩⟩

theorem closed_answers (delivery : Delivery deployment) (token : String) (verdict : Verdict) :
    Answers Consumer.processor.name delivery.record (.ok .commit)
      (.holding delivery token (.closed verdict)) :=
  ⟨⟨rfl, rfl, rfl⟩, rfl, fun _ => ⟨leaving_canLeave .., leaving_canLeave ..⟩⟩

/-- The guard is handed back before the exception goes on. -/
theorem release_follows {error : Exn} {left : Stage deployment} (failed : Fails delivery token left) :
    Keeps (do let _ ← IdempotencyGuard.release (claimOf delivery token); throw error)
      (Answers Consumer.processor.name delivery.record) left := by
  rcases failed with rfl | ⟨reason, rfl⟩
  · exact .perform_bind ⟨rfl, rfl⟩ (fun _ => leaving_canLeave ..) (fun _ => leaving_canLeave ..)
      fun _ => leaving_canLeave ..
  · exact .perform_bind ⟨rfl, rfl⟩ (fun _ => leaving_canLeave ..) (fun _ => leaving_canLeave ..)
      fun _ => leaving_canLeave ..

theorem undecodable_follows {record : ConsumerRecord} {text : PyStr}
    (invalid : deployment.platform.modelValidate record.value = .error text) (error : PyStr) :
    Keeps (do
        OrderConsumer.toDlq deployment record record.headers.getAttempt error
        return Ack.commit)
      (Answers Consumer.processor.name record) (.entered record : Stage deployment) := by
  refine .bind (Q := fun result left => match result with
    | .ok _ => left = .settled record .undecodable
    | .error _ => left = .leaving record) ?_ ?_ ?_
  · refine .bind (Q := fun result left => match result with
      | .ok headers => left = .entered record ∧ ∃ failedAt, headers =
          Headers.build deployment.platform record.headers.getAttempt none (some error)
            (some record.topic) failedAt
      | .error _ => left = .leaving record) ?_ ?_ fun _ _ same => same
    · exact .perform_bind trivial (fun failedAt => ⟨rfl, failedAt, rfl⟩) (fun _ => rfl)
        fun _ => rfl
    · rintro headers left ⟨rfl, failedAt, rfl⟩
      refine Protocol.follows_perform.mpr
        ⟨⟨⟨rfl, rfl, rfl, error, failedAt, rfl⟩, text, invalid⟩, fun outcome => ?_⟩
      cases outcome <;> rfl
  · rintro _ left rfl
    exact settled_answers
  · rintro error left rfl
    exact leaving_canLeave ..

theorem orderConsumer_follows (record : ConsumerRecord) :
    Keeps (OrderConsumer.handle deployment record) (Answers Consumer.processor.name record)
      (.entered record : Stage deployment) := by
  simp only [OrderConsumer.handle]
  split
  · rename_i text invalid
    exact undecodable_follows invalid _
  · rename_i event valid
    have counter : (Stage.monitor deployment).Quiet (.entered record) (.hincrby "consumed" 1) :=
      ⟨trivial, fun outcome => by cases outcome <;> rfl⟩
    refine steady_bind (incrStat_steady counter) ?_
    refine (claim_follows ⟨record, event, valid⟩).bind ?_ ?_
    · rintro ⟨status, key, token⟩ left ⟨_, rfl, rfl, rfl⟩
      cases status with
      | alreadyDone =>
        refine steady_bind (incrStat_steady ⟨trivial, fun outcome => ?_⟩) settled_answers
        cases outcome <;> rfl
      | inProgress =>
        refine .perform_bind rfl (fun _ => ?_) (fun _ => leaving_canLeave ..)
          fun _ => leaving_canLeave ..
        exact ⟨⟨rfl, rfl, rfl, rfl⟩, rfl, fun _ => ⟨leaving_canLeave .., leaving_canLeave ..⟩⟩
      | acquired =>
        refine .tryCatch (process_follows ⟨record, event, valid⟩ _) ?_ ?_
        · rintro ack left ⟨rfl, verdict, rfl⟩
          exact closed_answers ⟨record, event, valid⟩ _ verdict
        · exact fun error left failed => release_follows failed
    · rintro error left rfl
      exact leaving_canLeave ..

theorem retryScheduler_follows (record : ConsumerRecord) :
    Keeps (RetryScheduler.handle deployment record) (Answers Consumer.retry.name record)
      (.relaying record : Stage deployment) := by
  have rest : Keeps (do
      let headers ← buildHeaders deployment record.headers.getAttempt none
        (record.headers.getError.map py) none
      publishRaw deployment.settings.topicOrders record.key record.value headers
      return Ack.commit) (Answers Consumer.retry.name record)
        (.relaying record : Stage deployment) := by
    refine .perform_bind ⟨rfl, rfl, rfl, rfl⟩ (fun _ => ?_) (fun _ => leaving_canLeave ..)
      fun _ => leaving_canLeave ..
    exact ⟨⟨rfl, rfl, rfl⟩, rfl, fun _ => ⟨leaving_canLeave .., leaving_canLeave ..⟩⟩
  refine .perform_bind trivial (fun now => ?_) (fun _ => leaving_canLeave ..)
    fun _ => leaving_canLeave ..
  split
  · exact .perform_bind trivial (fun _ => rest) (fun _ => leaving_canLeave ..)
      fun _ => leaving_canLeave ..
  · exact rest

theorem archiving_canLeave (record : ConsumerRecord) :
    CanLeave Consumer.dlq.name record (.archiving record : Stage deployment) :=
  ⟨⟨rfl, rfl⟩, fun outcome => by cases outcome <;> rfl⟩

theorem dlqArchiver_follows (record : ConsumerRecord) :
    Keeps (DlqArchiver.handle record) (Answers Consumer.dlq.name record)
      (.archiving record : Stage deployment) := by
  refine .bind (Q := fun _ left => left = .archiving record) ?_ ?_ ?_
  · refine sessionScope_follows (F := fun left => left = .archiving record)
      (Q := fun result left => left = .archiving record ∧ ∀ value writes,
        result = .ok (value, writes) → writes = [.insertDeadLetter (DlqArchiver.entryOf record)])
      ?_ ?_ ?_ ?_ ?_ (fun _ _ reached => reached.1) ?_
    · refine .perform_bind trivial (fun _ => ⟨rfl, ?_⟩) (fun _ => ⟨rfl, ?_⟩) fun _ => ⟨rfl, ?_⟩
      · rintro _ _ ⟨⟩
        rfl
      · rintro _ _ ⟨⟩
      · rintro _ _ ⟨⟩
    · rintro value writes left ⟨rfl, same⟩
      exact same _ _ rfl
    · rintro value writes left ⟨rfl, _⟩
      rfl
    · rintro value writes left error ⟨rfl, _⟩
      rfl
    · rintro value writes left error ⟨rfl, _⟩
      rfl
    · rintro left rfl
      exact ⟨trivial, fun outcome _ => by cases outcome <;> rfl⟩
  · rintro _ left rfl
    refine steady_bind (incrStat_steady ⟨trivial, fun outcome => ?_⟩) ?_
    · cases outcome <;> rfl
    · exact ⟨⟨rfl, rfl⟩, rfl, fun _ => ⟨archiving_canLeave record, archiving_canLeave record⟩⟩
  · rintro error left rfl
    exact archiving_canLeave record

theorem handle_follows (consumer : Consumer) (record : ConsumerRecord) :
    Keeps (consumer.handle deployment record) (Answers consumer.name record)
      (Stage.called deployment consumer.name record) := by
  cases consumer with
  | processor => exact orderConsumer_follows record
  | retry => exact retryScheduler_follows record
  | dlq => exact dlqArchiver_follows record

end Deliveries
end OrderFlow
