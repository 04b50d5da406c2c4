import OrderFlow.Kafka.Passes
import OrderFlow.Runs.Verdicts

/-!
What is said of a failure. The note of the hop to FAILED that a call commits and the
error of the dead letter it then publishes are one text.
-/
namespace OrderFlow
open AsyncCoroutine AsyncPool

variable {deployment : Deployment} {allows : Pipeline → Moment → Prop} {pool after : Pipeline}
  {thread : Nat} {op : Op} {outcome : Outcome Exn op.Reply}

/-- What a call has committed of a failure. -/
inductive Notice where
  | silent
  | told (text : PyStr)

namespace Notice

/-- The note a unit of work fails an order with. -/
def noted : List Write → Notice
  | [_, .insertTransition _ ⟨_, _, .failed, some note⟩] => .told note
  | _ => .silent

/-- The headers carry this text as their error. -/
def Carried (deployment : Deployment) (text : PyStr) (headers : Headers) : Prop :=
  ∃ attempt origin failedAt,
    headers = Headers.build deployment.platform attempt none (some text) origin failedAt

def allowed (deployment : Deployment) : Notice → Op → Prop
  | .told text, .send _ _ _ headers => Carried deployment text headers
  | _, _ => True

def next : Notice → (op : Op) → Outcome Exn op.Reply → Notice
  | _, .handleCall _ _, _ => .silent
  | _, .commit writes, .ok _ => noted writes
  | notice, _, _ => notice

def monitor (deployment : Deployment) : Monitor Op Op.Reply Exn Call Notice where
  allowed := allowed deployment
  next := next
  idle := .silent
  born _ := .silent

/-- Operations that neither enter a call, commit nor publish. -/
def Beside : Op → Prop
  | .handleCall _ _ | .commit _ | .send _ _ _ _ => False
  | _ => True

theorem quiet_beside (notice : Notice) (op : Op) (beside : Beside op) :
    (monitor deployment).Quiet notice op := by
  cases op with
  | handleCall | commit | send => exact beside.elim
  | _ => cases notice <;> exact ⟨trivial, fun _ => rfl⟩

theorem keeps_beside {I : Notice → Prop} (op : Op) (beside : Beside op) :
    (monitor deployment).Keeps I op := by
  intro notice holds
  obtain ⟨permitted, same⟩ := (quiet_beside notice op beside : (monitor deployment).Quiet notice op)
  exact ⟨permitted, fun outcome => by rw [same]; exact holds⟩

theorem around_beside (op : Op) (around : op.around = true) : Beside op := by
  cases op <;> trivial

section
variable {Value Next : Type} {notice : Notice} {Q : Value → Notice → Prop} {R : Next → Notice → Prop}

theorem tells_beside {program : Prog Value} (uses : program.Uses Beside) :
    (monitor deployment).Returns program (fun _ left => left = notice) notice :=
  (Protocol.Follows.of_uses uses (quiet_beside notice)).mono fun _ _ same _ _ => same

theorem tells_await (op : Op) (beside : Beside op) :
    (monitor deployment).Returns (await op) (fun _ left => left = notice) notice :=
  tells_beside (Coroutine.uses_perform beside)

/-- A session leaves what its unit of work notes. -/
theorem tells_session {body : Prog (Value × List Write)}
    (drafts : (monitor deployment).Returns body (fun value left => left = notice ∧ Q value.1 (noted value.2))
      notice) : (monitor deployment).Returns (sessionScope body) Q notice := by
  refine .tryCatch ?_ ?_
  · refine Protocol.Returns.bind drafts fun value left said => ?_
    obtain ⟨rfl, notes⟩ := said
    refine .perform_bind (by cases left <;> trivial) (fun _ => ?_) (by rintro _ _ ⟨⟩)
      (by rintro _ _ ⟨⟩)
    have commits : (monitor deployment).next left (.commit value.2) (.ok ()) = noted value.2 := by
      cases left <;> rfl
    rw [commits]
    exact Protocol.returns_ret notes
  · intro error left
    exact (tells_await .rollback trivial).bind
      fun _ _ _ => Protocol.returns_raise error

end

theorem getOrder_beside (id : Uuid) : (Repository.getOrder id).Uses Beside := by
  refine .bind (Coroutine.uses_perform trivial) fun found => ?_
  cases found with
  | none => trivial
  | some row => exact .bind (Coroutine.uses_perform trivial) fun _ => trivial

theorem noted_transition (row : OrderRow) (aim : OrderStatus) (attempt : Nat)
    (reason : Option PyStr) (note : PyStr) (hop : Nat) :
    noted (Repository.transitionWrites row (Repository.transitionRow row aim attempt reason)
      (some note) hop) = if aim = .failed then .told note else .silent := by
  cases aim <;> rfl

theorem transition_tells (order : Order) (aim : OrderStatus) (note : PyStr) (attempt : Nat)
    (reason : Option PyStr) (notice : Notice) :
    (monitor deployment).Returns (Repository.transition order aim note attempt reason)
      (fun value left => left = notice ∧
        noted value.2 = if aim = .failed then .told note else .silent) notice := by
  refine (tells_await (.flush _) trivial).bind
    fun hop left same => Protocol.returns_ret ⟨same, noted_transition ..⟩

theorem moveOrder_tells (id : Uuid) (aim : OrderStatus) (note : PyStr) (attempt : Nat)
    (reason : Option PyStr) (other : aim ≠ .failed) :
    (monitor deployment).Returns (OrderConsumer.moveOrder id aim note attempt reason)
      (fun _ left => left = .silent) .silent := by
  refine tells_session ((tells_beside (getOrder_beside id)).bind fun found left same => ?_)
  obtain rfl := same
  cases found with
  | none => exact Protocol.returns_raise _
  | some order =>
    refine (transition_tells order aim note attempt reason .silent).mono fun result left said => ?_
    intro value returned
    obtain ⟨same, notes⟩ := said value returned
    exact ⟨same, notes.trans (if_neg other)⟩

theorem putOrder_beside (order : Order) : (Cache.putOrder deployment order).Uses Beside :=
  .tryCatch (Coroutine.uses_perform trivial) fun _ => trivial

theorem incrStat_beside (field : String) : (incrStat field).Uses Beside :=
  .tryCatch (Coroutine.uses_perform trivial) fun _ => trivial

theorem buildHeaders_tells (attempt : Nat) (text : PyStr) (origin : String) (notice : Notice) :
    (monitor deployment).Returns (buildHeaders deployment attempt none (some text) (some origin))
      (fun headers left => left = notice ∧ Carried deployment text headers) notice :=
  (tells_await .utcnow trivial).bind
    fun failedAt _ same => Protocol.returns_ret ⟨same, attempt, some origin, failedAt, rfl⟩

theorem complete_tells (claim : Claim) (notice : Notice) :
    (monitor deployment).Returns (IdempotencyGuard.complete deployment.settings claim)
      (fun _ left => left = notice) notice :=
  tells_await (.evalComplete _ _ _) trivial

theorem release_tells (claim : Claim) (notice : Notice) :
    (monitor deployment).Returns (IdempotencyGuard.release claim) (fun _ left => left = notice) notice :=
  tells_await (.evalRelease _ _) trivial

/-- The text of the dead letter is the note of the hop, if there is one. -/
theorem toDlq_tells (record : ConsumerRecord) (attempt : Nat) (text : PyStr) {notice : Notice}
    (agrees : notice = .silent ∨ notice = .told text) :
    (monitor deployment).Returns (OrderConsumer.toDlq deployment record attempt text)
      (fun _ left => left = notice) notice := by
  refine (buildHeaders_tells attempt text record.topic notice).bind fun headers left said => ?_
  obtain ⟨rfl, carried⟩ := said
  have permitted : (monitor deployment).allowed left (.send deployment.settings.topicDlq record.key
      (OrderConsumer.wrapRaw record.value) headers) := by
    rcases agrees with rfl | rfl
    · trivial
    · exact carried
  refine Protocol.follows_perform.mpr ⟨permitted, fun outcome value _ => ?_⟩
  cases left <;> rfl

theorem deadLetter_tells (event : OrderEvent) (record : ConsumerRecord) (attempt : Nat)
    (claim : Claim) (text error : PyStr) :
    (monitor deployment).Returns (OrderConsumer.deadLetter deployment event record attempt claim text error)
      (fun _ _ => True) .silent := by
  refine Protocol.Returns.bind (Q := fun _ left => left = .silent ∨ left = .told text) (tells_session
    ((tells_beside (getOrder_beside _)).bind fun found left same => ?_)) fun moved left agrees => ?_
  · obtain rfl := same
    cases found with
    | none => exact Protocol.returns_ret ⟨rfl, .inl rfl⟩
    | some order =>
      refine (transition_tells order .failed text attempt (some error) .silent).bind
        fun value left said => ?_
      exact Protocol.returns_ret ⟨said.1, .inr (said.2.trans (if_pos rfl))⟩
  · have rest : (monitor deployment).Returns (do
        OrderConsumer.toDlq deployment record attempt text
        let _ ← IdempotencyGuard.complete deployment.settings claim
        incrStat "failed"
        return Ack.commit) (fun _ _ => True) left := by
      refine (toDlq_tells record attempt text agrees).bind fun _ now same => ?_
      refine (tells_beside ?_).mono fun _ _ _ _ _ => trivial
      exact .bind (Coroutine.uses_perform trivial) fun _ => .bind (incrStat_beside _) fun _ => trivial
    cases moved with
    | none => exact rest
    | some order =>
      refine (tells_beside (putOrder_beside order)).bind fun _ now same => ?_
      obtain rfl := same
      exact rest

/-- Operations that are no part of a call's failing an order. -/
def Plain : Op → Prop
  | .handleCall _ _ | .commit _ => False
  | _ => True

theorem quiet_plain (op : Op) (plain : Plain op) : (monitor deployment).Quiet .silent op := by
  cases op with
  | handleCall | commit => exact plain.elim
  | _ => exact ⟨trivial, fun _ => rfl⟩

theorem tells_plain {Value : Type} {program : Prog Value} (uses : program.Uses Plain) :
    (monitor deployment).Returns program (fun _ left => left = .silent) .silent :=
  (Protocol.Follows.of_uses uses quiet_plain).mono fun _ _ same _ _ => same

theorem beside_plain (op : Op) (beside : Beside op) : Plain op := by
  cases op <;> trivial

theorem retry_tells (event : OrderEvent) (record : ConsumerRecord) (attempt : Nat) (claim : Claim)
    (error : PyStr) :
    (monitor deployment).Returns (OrderConsumer.retry deployment event record attempt claim error)
      (fun _ _ => True) .silent := by
  have headers : ∀ attempt due error origin,
      (buildHeaders deployment attempt due error origin).Uses Plain := by
    intro attempt due error origin
    cases origin with
    | none => trivial
    | some origin => exact .bind (Coroutine.uses_perform trivial) fun _ => trivial
  refine Protocol.Returns.bind (tells_plain ?_) fun delay left same => ?_
  · unfold Processing.backoffDelay
    split
    · trivial
    · exact .bind (Coroutine.uses_perform trivial) fun _ => trivial
  · obtain rfl := same
    refine (moveOrder_tells _ .pending _ attempt _ (by decide)).bind fun order left same => ?_
    obtain rfl := same
    refine (tells_plain ?_).mono fun _ _ _ _ _ => trivial
    exact .bind ((putOrder_beside order).mono beside_plain) fun _ =>
      .bind (Coroutine.uses_perform trivial) fun _ => .bind (headers ..) fun _ =>
      .bind (Coroutine.uses_perform trivial) fun _ => .bind (Coroutine.uses_perform trivial) fun _ =>
      .bind ((incrStat_beside _).mono beside_plain) fun _ => trivial

theorem succeed_tells (event : OrderEvent) (attempt : Nat) (claim : Claim) :
    (monitor deployment).Returns (OrderConsumer.succeed deployment event attempt claim) (fun _ _ => True)
      .silent := by
  refine (moveOrder_tells _ .completed _ attempt _ (by decide)).bind fun order left same => ?_
  obtain rfl := same
  refine (tells_beside ?_).mono fun _ _ _ _ _ => trivial
  exact .bind (putOrder_beside order) fun _ => .bind (Coroutine.uses_perform trivial) fun _ =>
    .bind (incrStat_beside _) fun _ => trivial

theorem accept_tells (event : OrderEvent) (record : ConsumerRecord) (attempt : Nat) (claim : Claim) :
    (monitor deployment).Returns (OrderConsumer.accept deployment event record attempt claim)
      (fun _ left => left = .silent) .silent := by
  refine tells_session ((tells_beside (getOrder_beside _)).bind fun found left same => ?_)
  obtain rfl := same
  cases found with
  | none =>
    refine (complete_tells _ _).bind fun _ left same => ?_
    obtain rfl := same
    refine (toDlq_tells record attempt _ (.inl rfl)).bind fun _ left same => ?_
    exact Protocol.returns_ret ⟨same, rfl⟩
  | some order =>
    simp only
    split
    · refine (complete_tells _ _).bind fun _ left same => ?_
      obtain rfl := same
      refine (tells_beside (incrStat_beside _)).bind fun _ left same => ?_
      exact Protocol.returns_ret ⟨same, rfl⟩
    · refine (transition_tells order .processing _ attempt none .silent).bind fun value left said => ?_
      exact Protocol.returns_ret ⟨said.1, said.2⟩

theorem process_tells (event : OrderEvent) (record : ConsumerRecord) (attempt : Nat) (claim : Claim) :
    (monitor deployment).Returns (OrderConsumer.process deployment event record attempt claim) (fun _ _ => True)
      .silent := by
  refine (accept_tells event record attempt claim).bind fun accepted left same => ?_
  obtain rfl := same
  cases accepted with
  | none => exact Protocol.returns_ret trivial
  | some order =>
    refine (tells_beside (putOrder_beside order)).bind fun _ left same => ?_
    obtain rfl := same
    have tries : (OrderConsumer.tryFulfil event).Uses Beside := by
      refine .tryCatch (.bind (Coroutine.uses_perform trivial) fun _ => trivial) fun error => ?_
      cases error <;> trivial
    refine (tells_beside tries).bind fun failed left same => ?_
    obtain rfl := same
    cases failed with
    | none => exact succeed_tells ..
    | some failure =>
      show (monitor deployment).Returns (OrderConsumer.fail _ _ _ _ _ _ _) _ _
      unfold OrderConsumer.fail
      split
      · exact retry_tells ..
      · exact deadLetter_tells ..

/-! ### Calls -/

theorem aside_plain (op : Op) (aside : Aside op) : Plain op := by
  cases op <;> trivial

theorem orderConsumer_tells (record : ConsumerRecord) :
    (monitor deployment).Returns (OrderConsumer.handle deployment record) (fun _ _ => True) .silent := by
  unfold OrderConsumer.handle
  simp only
  split
  · exact (toDlq_tells record _ _ (.inl rfl)).bind fun _ _ _ => Protocol.returns_ret trivial
  · refine (tells_beside (incrStat_beside _)).bind fun _ left same => ?_
    obtain rfl := same
    refine (tells_plain ((Copy.claim_aside _).mono aside_plain)).bind fun claim left same => ?_
    obtain rfl := same
    split
    · exact (tells_beside (incrStat_beside _)).bind fun _ _ _ => Protocol.returns_ret trivial
    · exact (tells_await (.sleep _) trivial).bind
        fun _ _ _ => Protocol.returns_ret trivial
    · refine .tryCatch (process_tells _ record _ claim) fun error left => ?_
      exact (release_tells claim left).bind fun _ _ _ => Protocol.returns_raise error

theorem retryScheduler_tells (record : ConsumerRecord) :
    (monitor deployment).Returns (RetryScheduler.handle deployment record) (fun _ _ => True) .silent := by
  have rest : (do
      let headers ← buildHeaders deployment record.headers.getAttempt none
        (record.headers.getError.map py) none
      publishRaw deployment.settings.topicOrders record.key record.value headers
      return Ack.commit).Uses Plain :=
    .bind trivial fun _ => .bind (Coroutine.uses_perform trivial) fun _ => trivial
  refine (tells_plain ?_).mono fun _ _ _ _ _ => trivial
  refine .bind (Coroutine.uses_perform trivial) fun now => ?_
  split
  · exact .bind (Coroutine.uses_perform trivial) fun _ => rest
  · exact rest

theorem dlqArchiver_tells (record : ConsumerRecord) :
    (monitor deployment).Returns (DlqArchiver.handle record) (fun _ _ => True) .silent := by
  refine Protocol.Returns.bind (Q := fun _ left => left = .silent) (tells_session ?_) fun _ left same => ?_
  · exact (tells_await (.flush _) trivial).bind
      fun _ _ same => Protocol.returns_ret ⟨same, rfl⟩
  · exact (tells_beside (incrStat_beside _)).bind fun _ _ _ => Protocol.returns_ret trivial

theorem handle_tells (consumer : Consumer) (record : ConsumerRecord) :
    (monitor deployment).Returns (consumer.handle deployment record) (fun _ _ => True) .silent := by
  cases consumer with
  | processor => exact orderConsumer_tells record
  | retry => exact retryScheduler_tells record
  | dlq => exact dlqArchiver_tells record

theorem lookUp_beside (idempotencyKey : Option String) :
    (Service.lookUp idempotencyKey).Uses Beside := by
  unfold Service.lookUp
  split
  · refine .bind (Coroutine.uses_perform trivial) fun raw => ?_
    split
    · trivial
    · split
      · trivial
      · split
        · exact getOrder_beside _
        · trivial
  · trivial

theorem submitOrder_tells (payload : OrderCreate) (idempotencyKey : Option String) :
    (monitor deployment).Returns (Service.submitOrder deployment payload idempotencyKey) (fun _ _ => True)
      .silent := by
  refine (tells_beside (lookUp_beside _)).bind fun found left same => ?_
  obtain rfl := same
  cases found with
  | some existing => exact Protocol.returns_ret trivial
  | none =>
    have created : (monitor deployment).Returns (Repository.createOrder payload)
        (fun value left => left = .silent ∧ noted value.2 = .silent) .silent :=
      (tells_await .uuid4 trivial).bind
        fun id left same => (tells_await (.flush _) trivial).bind fun hop left again =>
            Protocol.returns_ret ⟨again.trans same, rfl⟩
    refine created.bind fun value left said => ?_
    obtain ⟨rfl, notes⟩ := said
    refine .perform_bind trivial (fun _ => ?_) (by rintro _ _ ⟨⟩) (by rintro _ _ ⟨⟩)
    rw [show (monitor deployment).next .silent (.commit value.2) (.ok ()) = .silent from notes]
    refine (tells_plain ?_).mono fun _ _ _ _ _ => trivial
    refine .bind ?_ fun _ => .bind (Coroutine.uses_perform trivial) fun _ =>
      .bind (Coroutine.uses_perform trivial) fun _ =>
      .bind (.bind trivial fun _ => Coroutine.uses_perform trivial) fun _ =>
      .bind ((incrStat_beside _).mono beside_plain) fun _ =>
      .bind ((putOrder_beside _).mono beside_plain) fun _ => trivial
    unfold Service.reserve
    split
    · exact Coroutine.uses_perform trivial
    · trivial

theorem keeps (deployment : Deployment) (call : Call) :
    (monitor deployment).Follows (program deployment call) (fun _ _ => True)
      ((monitor deployment).born call) := by
  cases call with
  | worker consumer =>
    have pass : (monitor deployment).Maintains (fun _ => True) (consumer.run deployment) := by
      refine runPass_maintains (fun op around => keeps_beside op (around_beside op around))
        (fun record notice _ => ?_) _
      have calls : ∀ notice outcome, (monitor deployment).next notice
          (.handleCall consumer.name record) outcome = .silent := by
        intro notice outcome
        cases notice <;> rfl
      refine .tryCatch (Q := fun _ _ => True) (.perform_bind ?_ (fun _ => ?_) (fun _ => trivial)
        fun _ => trivial) (fun _ _ _ => trivial) fun error left _ => ?_
      · cases notice <;> trivial
      · rw [calls]
        refine .bind (handle_tells consumer record) (fun ack left _ => ?_) fun _ _ _ => trivial
        exact ((tells_await (.handleReturn _ _ _) trivial).bind (S := fun _ _ => True) fun _ _ _ =>
            Protocol.returns_ret trivial).mono fun _ _ _ => trivial
      · refine (tells_beside ?_).mono fun _ _ _ => trivial
        exact .bind (Coroutine.uses_perform trivial) fun _ =>
          .bind (Coroutine.uses_perform trivial) fun _ => trivial
    exact (pass _ trivial).bind (fun _ _ _ => trivial) fun _ _ _ => trivial
  | submitOrder payload key =>
    exact Protocol.Follows.bind (submitOrder_tells payload key) (fun _ _ _ => trivial)
      fun _ _ _ => trivial
  | readOrder orderId =>
    refine (Protocol.Follows.of_uses ?_ quiet_plain).bind (fun _ _ _ => trivial) fun _ _ _ => trivial
    refine .bind ((Copy.cached_aside _).mono aside_plain) fun cached => ?_
    cases cached with
    | some order => trivial
    | none =>
      refine .bind ((getOrder_beside _).mono beside_plain) fun found => ?_
      cases found with
      | none => trivial
      | some order => exact .bind ((putOrder_beside order).mono beside_plain) fun _ => trivial

end Notice

/-- What the thread has committed of a failure in its call. -/
def notice (deployment : Deployment) (pool : Pipeline) (thread : Nat) : Notice :=
  (Notice.monitor deployment).record pool.trace thread

theorem notice_permitted (reached : Reachable (system deployment) allows World.empty pool)
    (moved : Step (system deployment) pool (.did thread op outcome) after) :
    (notice deployment pool thread).allowed deployment op := by
  cases moved with
  | did _ call _ resume fate _ world awaiting performed =>
    exact Monitor.allowed_of_awaiting (Notice.keeps deployment) reached awaiting

/-- A trail keeps its hops. -/
theorem hop_kept {label : Moment} (reached : Reachable (system deployment) allows World.empty pool)
    (moved : Step (system deployment) pool label after) {id : Uuid} {hop : StatusTransition}
    (member : hop ∈ pool.world.transitions id) : hop ∈ after.world.transitions id := by
  have grows : ∀ (written : Uuid) (new : StatusTransition),
      hop ∈ Function.update pool.world.transitions written
        (insertHop new (pool.world.transitions written)) id := by
    intro written new
    by_cases same : id = written
    · subst same
      rw [Function.update_self]
      exact mem_insertHop.mpr (.inr member)
    · rw [Function.update_of_ne same]
      exact member
  rcases step_versions reached moved with ⟨_, trails⟩ | ⟨thread, op, outcome, rfl, act, change⟩
  · exact trails ▸ member
  · cases change with
    | same _ trails => exact trails ▸ member
    | inserted payload key new number _ _ world _ =>
      rw [world, create_transitions]
      exact grows _ _
    | updated delivery token aim reason read note number _ standing world _ =>
      rw [world, transition_transitions]
      exact grows _ _

/-- The trail of the order has the hop to FAILED that the call committed. -/
def Told (deployment : Deployment) (pool : Pipeline) (thread : Nat) (id : Uuid) : Prop :=
  ∃ text, notice deployment pool thread = .told text ∧
    ∃ hop ∈ pool.world.transitions id, hop.toStatus = .failed ∧ hop.note = some text

theorem Told.kept {id : Uuid} {label : Moment} (told : Told deployment pool thread id)
    (reached : Reachable (system deployment) allows World.empty pool)
    (moved : Step (system deployment) pool label after)
    (same : notice deployment after thread = notice deployment pool thread) :
    Told deployment after thread id := by
  obtain ⟨text, notes, hop, member, verdict⟩ := told
  exact ⟨text, same.trans notes, hop, hop_kept reached moved member, verdict⟩

theorem told_own (reached : Reachable (system deployment) allows World.empty pool)
    (moved : Step (system deployment) pool (.did thread op outcome) after)
    (act : Acts deployment pool after thread op outcome) {delivery : Delivery deployment}
    {token : String} {reason : Option PyStr} {first phase : Phase}
    (before : stage deployment pool thread = .holding delivery token first)
    (progress : first.Progress delivery token op outcome phase) (now : phase = .moved .failed reason)
    (known : first = .moved .failed reason → Told deployment pool thread delivery.event.orderId) :
    Told deployment after thread delivery.event.orderId := by
  have own : notice deployment after thread = (notice deployment pool thread).next op outcome := by
    rw [notice, step_trace moved]
    exact Monitor.record_did_self ..
  cases progress with
  | writes aim written row note number =>
    cases now
    have named : row.id = delivery.event.orderId :=
      (sighted reached thread delivery token _ before).named _ _ _ rfl
    refine ⟨note, ?_, ⟨number, some row.status, .failed, some note⟩, ?_, rfl, rfl⟩
    · rw [own]
      cases notice deployment pool thread <;> rfl
    · rw [act.commits rfl, transition_transitions, ← named, Function.update_self]
      exact mem_insertHop.mpr (.inl rfl)
  | stays _ idle =>
    subst now
    refine (known rfl).kept reached moved ?_
    rw [own]
    have permitted := act.permitted
    rw [before] at permitted
    cases op with
    | handleCall | commit => exact permitted.elim
    | _ => cases notice deployment pool thread <;> rfl
  | checks row =>
    unfold Phase.checked at now
    split at now <;> cases now
  | fulfils _ result =>
    rcases decide_deciding delivery result.reply with ⟨aim, why, decided⟩ | decided <;>
      rw [decided] at now <;> cases now
  | _ => cases now

theorem told (reached : Reachable (system deployment) allows World.empty pool) :
    ∀ thread (delivery : Delivery deployment) token reason,
      stage deployment pool thread = .holding delivery token (.moved .failed reason) →
        Told deployment pool thread delivery.event.orderId := by
  induction reached with
  | init =>
    intro thread delivery token reason standing
    cases standing
  | @step pool label after reached permitted moved ih =>
    intro thread delivery token reason standing
    rcases step_cases reached moved with ⟨actor, op, outcome, rfl, act⟩ | ⟨actor, turn⟩ |
      ⟨event, rfl, happening⟩
    · by_cases same : thread = actor
      · subst same
        rcases act.progress.holding standing with ⟨first, before, progress⟩ | ⟨acquired, _⟩
        · refine told_own reached moved act before progress rfl ?_
          rintro rfl
          exact ih thread delivery token reason before
        · cases acquired
      · rw [act.others thread same] at standing
        refine (ih thread delivery token reason standing).kept reached moved ?_
        rw [notice, step_trace moved]
        exact Monitor.record_did_other _ same ..
    · by_cases same : thread = actor
      · subst same
        exact (begins_holding turn.begins standing).elim
      · rw [turn.others thread same] at standing
        refine (ih thread delivery token reason standing).kept reached moved ?_
        rcases turn.own with ⟨_, rfl, _⟩ | ⟨_, rfl, _⟩ | ⟨rfl, _⟩ <;>
          simp [notice, step_trace moved, Monitor.record, same]
    · rw [happening.stages thread] at standing
      refine (ih thread delivery token reason standing).kept reached moved ?_
      rw [notice, step_trace moved]
      rfl

end OrderFlow
