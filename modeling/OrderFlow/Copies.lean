import OrderFlow.Stage.Deliveries

/-!
What a call holds of an order. A session reads the row, then the trail, and
flushes what it will commit; the committed order may then be put in the cache.
The copy a thread holds is read off what it has awaited.
-/
namespace OrderFlow
open AsyncCoroutine AsyncPool

/-- A write of the order tables. -/
def Write.onOrder : Write → Bool
  | .insertDeadLetter _ => false
  | _ => true

inductive Copy where
  | empty
  | reading (id : Uuid) (row : OrderRow)
  | held (order : Order)
  | changing (order : Order) (changes : OrderChanges) (hop : StatusTransition)
  | creating (row : OrderRow) (hop : StatusTransition)
  | created (order : Order)
  | written (order : Order)
  | put (order : Order)

namespace Copy

/-- The order as the flushed writes leave it. -/
def changed (order : Order) (changes : OrderChanges) (hop : StatusTransition) : Order :=
  ⟨changes.apply order.row, order.transitions ++ [hop]⟩

def changeWrites (order : Order) (changes : OrderChanges) (hop : StatusTransition) : List Write :=
  [.updateOrder order.row.id changes, .insertTransition order.row.id hop]

def insertWrites (row : OrderRow) (hop : StatusTransition) : List Write :=
  [.insertOrder row, .insertTransition row.id hop]

/-- The writes that were flushed and wait for the commit. -/
def writes : Copy → List Write
  | .changing order changes hop => changeWrites order changes hop
  | .creating row hop => insertWrites row hop
  | _ => []

/-- The order the cache may be given. -/
def shows : Copy → Option Order
  | .held order | .created order | .written order => some order
  | _ => none

/-- Nothing committed waits to be put in the cache. -/
def loose : Copy → Bool
  | .written _ => false
  | _ => true

/-- A flush of order writes: a new order, or a change of the one that is held. -/
def Drafts (copy : Copy) (writes : List Write) : Prop :=
  (∃ row hop, writes = insertWrites row hop) ∨
    ∃ order changes hop, copy = .held order ∧ writes = changeWrites order changes hop

/-- A commit of what was flushed; a dead letter, or nothing, when no order write was. -/
def Commits (copy : Copy) (written : List Write) : Prop :=
  written = copy.writes ∨ copy.writes = [] ∧ ∀ write ∈ written, write.onOrder = false

def allowed (deployment : Deployment) : Copy → Op → Prop
  | copy, .set (.order orderId) text _ => ∃ order, copy.shows = some order ∧
      orderId = order.row.id.str ∧
      text = deployment.platform.modelDumpJson (OrderOut.ofOrder order)
  | .written _, _ => False
  | copy, .selectTransitions id => ∃ row, copy = .reading id row
  | copy, .flush writes => copy.Drafts writes ∨ ∀ write ∈ writes, write.onOrder = false
  | copy, .commit writes => copy.Commits writes
  | _, _ => True

/-- The flush numbers the new trail row. -/
def flushed (hopId : Nat) : Copy → List Write → Copy
  | _, [.insertOrder row, .insertTransition _ hop] => .creating row { hop with id := hopId }
  | .held order, [.updateOrder _ changes, .insertTransition _ hop] =>
      .changing order changes { hop with id := hopId }
  | _, _ => .empty

def committed : Copy → Copy
  | .changing order changes hop => .written (changed order changes hop)
  | .creating row hop => .created ⟨row, [hop]⟩
  | _ => .empty

def shown (copy : Copy) : Copy :=
  match copy.shows with
  | some order => .put order
  | none => copy

def next : Copy → (op : Op) → Outcome Exn op.Reply → Copy
  | _, .selectOrder id, .ok (some row) => .reading id row
  | _, .selectOrder _, _ => .empty
  | .reading _ row, .selectTransitions _, .ok trail => .held ⟨row, trail⟩
  | _, .selectTransitions _, _ => .empty
  | copy, .flush writes, .ok hopId => copy.flushed hopId writes
  | _, .flush _, _ => .empty
  | copy, .commit _, .ok _ => copy.committed
  | _, .commit _, _ => .empty
  | _, .rollback, _ => .empty
  | _, .handleCall _ _, _ => .empty
  | copy, .set (.order _) _ _, _ => copy.shown
  | copy, _, _ => copy

/-- The monitor that reads the copy a thread holds off the trace. -/
def monitor (deployment : Deployment) : Monitor Op Op.Reply Exn Call Copy where
  allowed := allowed deployment
  next := next
  idle := .empty
  born _ := .empty

end Copy

/-- The copy a thread of this run holds. -/
def copy (deployment : Deployment) (pool : Pipeline) (thread : Nat) : Copy :=
  (Copy.monitor deployment).record pool.trace thread

/-- Operations that neither read nor change nor show an order. -/
def Op.aside : Op → Bool
  | .selectOrder _ | .selectTransitions _ | .flush _ | .commit _ | .rollback | .handleCall _ _
  | .set (.order _) _ _ => false
  | _ => true

def Aside (op : Op) : Prop := op.aside = true

namespace Copy
variable {deployment : Deployment} {Value Next : Type}

theorem quiet_aside {copy : Copy} (loose : copy.loose = true) (op : Op) (aside : Aside op) :
    (monitor deployment).Quiet copy op := by
  have same : ∀ outcome, next copy op outcome = copy := by
    intro outcome
    cases op with
    | set key value ttl =>
      cases key with
      | order orderId => cases aside
      | _ => cases copy <;> rfl
    | selectOrder | selectTransitions | flush | commit | rollback | handleCall => cases aside
    | _ => cases copy <;> rfl
  refine ⟨?_, same⟩
  cases op with
  | set key value ttl =>
    cases key with
    | order orderId => cases aside
    | _ => cases copy <;> trivial
  | selectOrder | selectTransitions | flush | commit | rollback | handleCall => cases aside
  | _ => cases copy <;> trivial

abbrev Keeps (deployment : Deployment) (program : Prog Value)
    (goal : Except Exn Value → Copy → Prop) (copy : Copy) : Prop :=
  (monitor deployment).Follows program goal copy

/-- The program leaves nothing waiting, if nothing waited before. -/
def Stays (deployment : Deployment) (program : Prog Value) : Prop :=
  ∀ copy : Copy, copy.loose = true → Keeps deployment program (fun _ left => left.loose = true) copy

theorem stays_ret (value : Value) : Stays deployment (Coroutine.ret value : Prog Value) :=
  fun _ loose => loose

theorem Stays.bind {program : Prog Value} {next : Value → Prog Next}
    (first : Stays deployment program) (rest : ∀ value, Stays deployment (next value)) :
    Stays deployment (program >>= next) :=
  fun copy loose => (first copy loose).bind (fun value left => rest value left)
    fun _ _ left => left

theorem Stays.tryCatch {program : Prog Value} {handler : Exn → Prog Value}
    (body : Stays deployment program) (handles : ∀ error, Stays deployment (handler error)) :
    Stays deployment (MonadExcept.tryCatch program handler) :=
  fun copy loose => Protocol.Follows.tryCatch (body copy loose) (fun _ _ left => left)
    fun error left => handles error left

theorem stays_aside {program : Prog Value} (uses : program.Uses Aside) :
    Stays deployment program := by
  intro copy loose
  refine (Protocol.Follows.of_uses uses (quiet_aside loose)).mono ?_
  intro result left same
  rw [same]
  exact loose

theorem aside_perform {op : Op} (aside : op.aside = true) :
    (await op).Uses Aside :=
  Coroutine.uses_perform aside

/-- Operations beside the copy, then the rest with the copy as it was. -/
theorem aside_bind {program : Prog Value} {next : Value → Prog Next} {copy : Copy}
    {goal : Except Exn Next → Copy → Prop} (uses : program.Uses Aside)
    (loose : copy.loose = true) (rest : ∀ value, Keeps deployment (next value) goal copy)
    (fails : ∀ error, goal (.error error) copy) :
    Keeps deployment (program >>= next) goal copy := by
  refine (Protocol.Follows.of_uses uses (quiet_aside loose)).bind ?_ ?_
  · intro value left same
    rw [same]
    exact rest value
  · intro error left same
    rw [same]
    exact fails error

/-! ### Sessions -/

/-- How a session ends: with what its commit leaves, or rolled back. -/
def Ends (goal : Value → Copy → Prop) : Except Exn Value → Copy → Prop
  | .ok value, left => goal value left
  | .error _, left => left = .empty

/-- How its body ends: with nothing to commit, or with the writes it flushed. -/
def Ready (goal : Value → Copy → Prop) : Except Exn (Value × List Write) → Copy → Prop
  | .ok (value, writes), left =>
      left.loose = true ∧ goal value left.committed ∧ left.Commits writes
  | .error _, left => left.loose = true

def Found (found : Option Order) (left : Copy) : Prop :=
  left = match found with | some order => .held order | none => .empty

/-- What was moved, if anything, waits to be shown. -/
def Moved (moved : Option Order) (left : Copy) : Prop :=
  left = match moved with | some order => .written order | none => .empty

/-- The order as it is read, and nothing when it is not. -/
theorem getOrder_held (id : Uuid) {copy : Copy} (loose : copy.loose = true) :
    Keeps deployment (Repository.getOrder id) (Ends Found) copy := by
  have permitted : (monitor deployment).allowed copy (.selectOrder id) := by
    cases copy <;> trivial
  have missed : ∀ outcome : Outcome Exn (Option OrderRow), (∀ row, outcome ≠ .ok (some row)) →
      (monitor deployment).next copy (.selectOrder id) outcome = .empty := by
    intro outcome absent
    rcases outcome with (_ | row) | _ | _
    · cases copy <;> rfl
    · exact (absent row rfl).elim
    · cases copy <;> rfl
    · cases copy <;> rfl
  refine .perform_bind permitted (fun found => ?_) (fun _ => missed _ (by simp)) fun _ =>
    missed _ (by simp)
  cases found with
  | none => exact missed _ (by simp)
  | some row =>
    have reads : (monitor deployment).next copy (.selectOrder id) (.ok (some row)) =
        .reading id row := by
      cases copy <;> rfl
    rw [reads]
    exact .perform_bind ⟨row, rfl⟩ (fun _ => rfl) (fun _ => rfl) fun _ => rfl

/-- A transition leaves its writes flushed, and answers with the order they make. -/
theorem transition_ready (order : Order) (toStatus : OrderStatus) (note : PyStr)
    (attempts : Nat) (failureReason : Option PyStr) :
    Keeps deployment (Repository.transition order toStatus note attempts failureReason)
      (Ready fun moved left => left = .written moved) (.held order) := by
  refine .perform_bind ?_ (fun hopId => ?_) (fun _ => rfl) fun _ => rfl
  · exact .inl (.inr ⟨order, _, _, rfl, rfl⟩)
  · refine ⟨rfl, congrArg Copy.written ?_, .inl rfl⟩
    unfold changed
    rw [changes_apply]
    rfl

theorem next_commit (left : Copy) (writes : List Write) (outcome : Outcome Exn Unit) :
    (monitor deployment).next left (.commit writes) outcome =
      match outcome with | .ok _ => left.committed | _ => .empty := by
  cases outcome <;> cases left <;> rfl

theorem session_keeps {body : Prog (Value × List Write)} {Q : Value → Copy → Prop}
    {copy : Copy} (inner : Keeps deployment body (Ready Q) copy) :
    Keeps deployment (sessionScope body) (Ends Q) copy := by
  refine sessionScope_follows (F := fun left => left.loose = true) inner ?_ ?_ ?_ ?_
    (fun _ _ loose => loose) ?_
  · intro value writes left reached
    obtain ⟨loose, _, same⟩ := reached
    cases left <;> first | exact same | cases loose
  · intro value writes left reached
    rw [next_commit]
    exact reached.2.1
  · intro value writes left error _
    rw [next_commit]
    rfl
  · intro value writes left error _
    rw [next_commit]
    rfl
  · intro left loose
    refine ⟨by cases left <;> trivial, fun outcome error => ?_⟩
    cases left <;> rfl

/-- A session around a read of one order. -/
theorem orderSession_keeps (id : Uuid) {body : Option Order → Prog (Value × List Write)}
    {Q : Value → Copy → Prop} {copy : Copy} (loose : copy.loose = true)
    (absent : Keeps deployment (body none) (Ready Q) .empty)
    (present : ∀ order, Keeps deployment (body (some order)) (Ready Q) (.held order)) :
    Keeps deployment (sessionScope (Repository.getOrder id >>= body)) (Ends Q) copy := by
  refine session_keeps ((getOrder_held id loose).bind ?_ ?_)
  · intro found left reached
    cases found with
    | none =>
      cases reached
      exact absent
    | some order =>
      cases reached
      exact present order
  · intro error left reached
    cases reached
    rfl

/-- The order a call may show goes to the cache, whether or not it gets there. -/
theorem putOrder_put {order : Order} {copy : Copy} (shows : copy.shows = some order) :
    Keeps deployment (Cache.putOrder deployment order)
      (fun result left => result = .ok () ∧ left = .put order) copy := by
  have next : ∀ outcome : Outcome Exn Unit, (monitor deployment).next copy
      (.set (.order order.row.id.str) (deployment.platform.modelDumpJson (OrderOut.ofOrder order))
        deployment.settings.cacheTtlSeconds) outcome = .put order := by
    intro outcome
    have same : copy.shown = .put order := by
      unfold shown
      rw [shows]
    cases copy <;> exact same
  refine .tryCatch (Q := fun _ left => left = .put order) ?_ ?_ ?_
  · refine Protocol.follows_perform.mpr ⟨?_, fun outcome => next outcome⟩
    have shown : ∃ known, copy.shows = some known ∧ order.row.id.str = known.row.id.str ∧
        deployment.platform.modelDumpJson (OrderOut.ofOrder order) =
          deployment.platform.modelDumpJson (OrderOut.ofOrder known) := ⟨order, shows, rfl, rfl⟩
    cases copy <;> exact shown
  · intro value left same
    exact ⟨rfl, same⟩
  · intro error left same
    exact ⟨rfl, same⟩

/-- A put and the program after it. -/
theorem put_stays {order : Order} {copy : Copy} {rest : Prog Value}
    (shows : copy.shows = some order) (after : Stays deployment rest) :
    Keeps deployment (do Cache.putOrder deployment order; rest)
      (fun _ left => left.loose = true) copy := by
  refine (putOrder_put shows).bind ?_ ?_
  · intro _ left reached
    rw [reached.2]
    exact after _ rfl
  · intro error left reached
    cases reached.1

/-! ### Transitions and the write-through after them -/

theorem moveOrder_written (orderId : Uuid) (toStatus : OrderStatus) (note : PyStr) (attempt : Nat)
    (failureReason : Option PyStr) {copy : Copy} (loose : copy.loose = true) :
    Keeps deployment (OrderConsumer.moveOrder orderId toStatus note attempt failureReason)
      (Ends fun order left => left = .written order) copy :=
  orderSession_keeps orderId loose rfl fun order =>
    transition_ready order toStatus note attempt failureReason

/-- A transition, the write-through, and a program that comes after them. -/
theorem moved_stays (orderId : Uuid) (toStatus : OrderStatus) (note : PyStr) (attempt : Nat)
    (failureReason : Option PyStr) {rest : Order → Prog Value}
    (after : ∀ order, Stays deployment (rest order)) :
    Stays deployment (do
      let order ← OrderConsumer.moveOrder orderId toStatus note attempt failureReason
      Cache.putOrder deployment order
      rest order) := by
  intro copy loose
  refine (moveOrder_written orderId toStatus note attempt failureReason loose).bind ?_ ?_
  · intro order left same
    cases same
    exact put_stays rfl (after order)
  · intro error left same
    cases same
    rfl

theorem buildHeaders_aside (attempt : Nat) (notBefore : Option PyFloat) (error : Option PyStr)
    (originTopic : Option String) :
    (buildHeaders deployment attempt notBefore error originTopic).Uses Aside := by
  cases originTopic with
  | none => trivial
  | some topic => exact .bind (aside_perform rfl) fun _ => trivial

theorem toDlq_aside (record : ConsumerRecord) (attempt : Nat) (error : PyStr) :
    (OrderConsumer.toDlq deployment record attempt error).Uses Aside :=
  .bind (buildHeaders_aside ..) fun _ => aside_perform rfl

theorem incrStat_aside (field : String) : (incrStat field).Uses Aside :=
  .tryCatch (aside_perform rfl) fun _ => trivial

/-- What ends a delivery once its order is settled. -/
theorem finish_stays (claim : Claim) (field : String) :
    Stays deployment (do
      let _ ← IdempotencyGuard.complete deployment.settings claim
      incrStat field
      return Ack.commit) :=
  stays_aside (.bind (aside_perform rfl) fun _ => .bind (incrStat_aside field) fun _ => trivial)

theorem succeed_stays (event : OrderEvent) (attempt : Nat) (claim : Claim) :
    Stays deployment (OrderConsumer.succeed deployment event attempt claim) :=
  moved_stays _ _ _ _ _ fun _ => finish_stays claim _

theorem retry_stays (event : OrderEvent) (record : ConsumerRecord) (attempt : Nat) (claim : Claim)
    (error : PyStr) :
    Stays deployment (OrderConsumer.retry deployment event record attempt claim error) := by
  refine .bind ?_ fun delay => moved_stays _ _ _ _ _ fun order => stays_aside ?_
  · unfold Processing.backoffDelay
    split
    · exact fun _ loose => loose
    · exact stays_aside (.bind (aside_perform rfl) fun _ => trivial)
  · exact .bind (aside_perform rfl) fun _ => .bind (buildHeaders_aside ..) fun _ =>
      .bind (aside_perform rfl) fun _ => .bind (aside_perform rfl) fun _ =>
      .bind (incrStat_aside _) fun _ => trivial

theorem deadLetter_stays (event : OrderEvent) (record : ConsumerRecord) (attempt : Nat)
    (claim : Claim) (text error : PyStr) :
    Stays deployment
      (OrderConsumer.deadLetter deployment event record attempt claim text error) := by
  have rest : Stays deployment (do
      OrderConsumer.toDlq deployment record attempt text
      let _ ← IdempotencyGuard.complete deployment.settings claim
      incrStat "failed"
      return Ack.commit) :=
    (stays_aside (toDlq_aside ..)).bind fun _ => finish_stays claim _
  intro copy loose
  refine (orderSession_keeps (Q := Moved) event.orderId loose ?_ ?_).bind ?_ ?_
  · exact ⟨rfl, rfl, .inl rfl⟩
  · intro order
    refine (transition_ready order .failed text attempt (some error)).bind ?_ fun _ _ loose => loose
    intro moved left ready
    exact ready
  · intro moved left reached
    cases moved with
    | none =>
      cases reached
      exact rest _ rfl
    | some order =>
      cases reached
      exact put_stays rfl rest
  · intro failure left same
    cases same
    rfl

theorem fail_stays (event : OrderEvent) (record : ConsumerRecord) (attempt : Nat) (claim : Claim)
    (error : PyStr) (retryable : Bool) :
    Stays deployment
      (OrderConsumer.fail deployment event record attempt claim error retryable) := by
  unfold OrderConsumer.fail
  simp only
  split
  · exact retry_stays _ _ _ _ _
  · exact deadLetter_stays _ _ _ _ _ _

theorem accept_keeps (event : OrderEvent) (record : ConsumerRecord) (attempt : Nat) (claim : Claim)
    {copy : Copy} (loose : copy.loose = true) :
    Keeps deployment (OrderConsumer.accept deployment event record attempt claim) (Ends Moved)
      copy := by
  refine orderSession_keeps event.orderId loose ?_ ?_
  · refine aside_bind (aside_perform rfl) rfl (fun _ => ?_) fun _ => rfl
    refine aside_bind (toDlq_aside ..) rfl (fun _ => ?_) fun _ => rfl
    exact ⟨rfl, rfl, .inl rfl⟩
  · intro order
    simp only
    split
    · refine aside_bind (aside_perform rfl) rfl (fun _ => ?_) fun _ => rfl
      refine aside_bind (incrStat_aside _) rfl (fun _ => ?_) fun _ => rfl
      exact ⟨rfl, rfl, .inl rfl⟩
    · refine (transition_ready order .processing _ attempt none).bind ?_ fun _ _ loose => loose
      intro moved left ready
      exact ready

theorem process_stays (event : OrderEvent) (record : ConsumerRecord) (attempt : Nat)
    (claim : Claim) :
    Stays deployment (OrderConsumer.process deployment event record attempt claim) := by
  intro copy loose
  refine (accept_keeps event record attempt claim loose).bind ?_ ?_
  · intro moved left reached
    cases moved with
    | none =>
      cases reached
      rfl
    | some order =>
      cases reached
      refine put_stays rfl (.bind (stays_aside ?_) fun failed => ?_)
      · refine .tryCatch (.bind (aside_perform rfl) fun _ => trivial) fun error => ?_
        cases error <;> trivial
      · cases failed with
        | none => exact succeed_stays _ _ _
        | some failure => exact fail_stays _ _ _ _ _ _
  · intro error left same
    cases same
    rfl

/-! ### Handlers and the loop around them -/

theorem claim_aside (eventId : String) :
    (IdempotencyGuard.claim deployment.settings eventId).Uses Aside := by
  refine .bind (aside_perform rfl) fun token => .bind (aside_perform rfl) fun won => ?_
  split
  · trivial
  · refine .bind (aside_perform rfl) fun current => ?_
    split
    · trivial
    · refine .bind (aside_perform rfl) fun again => ?_
      split
      · trivial
      · exact .bind (aside_perform rfl) fun _ => trivial

theorem orderConsumer_stays (record : ConsumerRecord) :
    Stays deployment (OrderConsumer.handle deployment record) := by
  unfold OrderConsumer.handle
  simp only
  split
  · exact stays_aside (.bind (toDlq_aside ..) fun _ => trivial)
  · refine .bind (stays_aside (incrStat_aside _)) fun _ => ?_
    refine .bind (stays_aside (claim_aside _)) fun claim => ?_
    split
    · exact stays_aside (.bind (incrStat_aside _) fun _ => trivial)
    · exact stays_aside (.bind (aside_perform rfl) fun _ => trivial)
    · exact .tryCatch (process_stays _ _ _ _) fun error =>
        stays_aside (.bind (aside_perform rfl) fun _ => trivial)

theorem retryScheduler_stays (record : ConsumerRecord) :
    Stays deployment (RetryScheduler.handle deployment record) := by
  have rest : (do
      let headers ← buildHeaders deployment record.headers.getAttempt none
        (record.headers.getError.map py) none
      publishRaw deployment.settings.topicOrders record.key record.value headers
      return Ack.commit).Uses Aside :=
    .bind (buildHeaders_aside ..) fun _ => .bind (aside_perform rfl) fun _ => trivial
  refine stays_aside (.bind (aside_perform rfl) fun now => ?_)
  split
  · exact .bind (aside_perform rfl) fun _ => rest
  · exact rest

theorem dlqArchiver_stays (record : ConsumerRecord) :
    Stays deployment (DlqArchiver.handle record) := by
  intro copy loose
  refine .bind (session_keeps (Q := fun _ left => left.loose = true) ?_) ?_ ?_
  · have letters : ∀ write ∈ [Write.insertDeadLetter (DlqArchiver.entryOf record)],
        write.onOrder = false := by
      intro write member
      cases List.mem_singleton.mp member
      rfl
    have flushes : ∀ hop, (monitor deployment).next copy
        (.flush [.insertDeadLetter (DlqArchiver.entryOf record)]) (.ok hop) = .empty := by
      intro hop
      cases copy <;> rfl
    refine .perform_bind ?_ (fun hop => ?_) (fun _ => ?_) fun _ => ?_
    · cases copy <;> first | exact .inr letters | cases loose
    · rw [flushes hop]
      exact ⟨rfl, rfl, .inr ⟨rfl, letters⟩⟩
    · cases copy <;> rfl
    · cases copy <;> rfl
  · intro _ left loose
    have rest : Stays deployment (do incrStat "dead_lettered"; return Ack.commit) :=
      stays_aside (.bind (incrStat_aside _) fun _ => trivial)
    exact rest left loose
  · intro error left same
    cases same
    rfl

theorem handle_stays (consumer : Consumer) (record : ConsumerRecord) :
    Stays deployment (consumer.handle deployment record) := by
  cases consumer with
  | processor => exact orderConsumer_stays record
  | retry => exact retryScheduler_stays record
  | dlq => exact dlqArchiver_stays record

theorem safeHandle_stays (consumer : Consumer) (record : ConsumerRecord) :
    Stays deployment
      (BaseConsumer.safeHandle consumer.name (consumer.handle deployment) record) := by
  refine .tryCatch (.bind ?_ fun _ => .bind (handle_stays consumer record) fun ack => ?_)
    fun error => stays_aside ?_
  · intro copy loose
    refine Protocol.follows_perform.mpr ⟨by cases copy <;> trivial, fun outcome => ?_⟩
    cases copy <;> rfl
  · exact stays_aside (.bind (aside_perform rfl) fun _ => trivial)
  · exact .bind (aside_perform rfl) fun _ => .bind (aside_perform rfl) fun _ => trivial

theorem drainPartition_stays (consumer : Consumer) (group : String) (tp : TopicPartition)
    (records : List ConsumerRecord) :
    Stays deployment (BaseConsumer.drainPartition consumer.name group
      (consumer.handle deployment) tp records) := by
  induction records with
  | nil => exact stays_ret true
  | cons record rest ih =>
    refine .bind (stays_aside (aside_perform rfl)) fun stops => ?_
    cases stops with
    | true => exact stays_ret false
    | false =>
      refine .bind (safeHandle_stays consumer record) fun ack => ?_
      cases ack with
      | redeliver => exact stays_aside (.bind (aside_perform rfl) fun _ => trivial)
      | commit => exact .bind (stays_aside (aside_perform rfl)) fun _ => ih

theorem drainBatch_stays (consumer : Consumer) (group : String) (batch : Batch) :
    Stays deployment (BaseConsumer.drainBatch consumer.name group (consumer.handle deployment)
      batch) := by
  induction batch with
  | nil => exact stays_ret true
  | cons segment rest ih =>
    obtain ⟨tp, records⟩ := segment
    refine .bind (drainPartition_stays consumer group tp records) fun goesOn => ?_
    cases goesOn with
    | true => exact ih
    | false => exact stays_ret false

theorem run_stays (consumer : Consumer) : Stays deployment (consumer.run deployment) := by
  have stop : ∀ {Value : Type} {next : Unit → Prog Value}, Stays deployment (next ()) →
      Stays deployment (await .stopConsumer >>= next) :=
    fun rest => .bind (stays_aside (aside_perform rfl)) fun _ => rest
  refine .tryCatch (.bind (.bind (stays_aside (aside_perform rfl)) fun ended => ?_)
    fun goesOn => ?_) fun error => stop (stays_aside trivial)
  · cases ended with
    | true => exact stays_ret false
    | false => exact .bind (stays_aside (aside_perform rfl)) fun batch =>
        drainBatch_stays consumer _ batch
  · cases goesOn with
    | true => exact stays_ret true
    | false => exact stop (stays_ret false)

/-! ### API calls -/

theorem getOrder_stays (id : Uuid) : Stays deployment (Repository.getOrder id) := by
  intro copy loose
  refine (getOrder_held id loose).mono ?_
  intro result left reached
  cases result with
  | error error =>
    cases reached
    rfl
  | ok found => cases found <;> cases reached <;> rfl

theorem createOrder_ready (payload : OrderCreate) {copy : Copy} (loose : copy.loose = true) :
    Keeps deployment (Repository.createOrder payload)
      (Ready fun order left => left = .created order) copy := by
  refine aside_bind (aside_perform rfl) loose (fun id => ?_) fun _ => loose
  have flushes : ∀ hopId, (monitor deployment).next copy
      (.flush (Repository.createWrites (Repository.newRow payload id) 0)) (.ok hopId) =
        .creating (Repository.newRow payload id)
          ⟨hopId, none, .pending, some (py "order accepted")⟩ := by
    intro hopId
    cases copy <;> rfl
  refine .perform_bind ?_ (fun hopId => ?_) (fun _ => ?_) fun _ => ?_
  · have drafts : copy.Drafts (Repository.createWrites (Repository.newRow payload id) 0) :=
      .inl ⟨_, _, rfl⟩
    cases copy <;> first | exact .inl drafts | cases loose
  · rw [flushes]
    exact ⟨rfl, rfl, .inl rfl⟩
  · cases copy <;> rfl
  · cases copy <;> rfl

theorem submitOrder_stays (payload : OrderCreate) (idempotencyKey : Option String) :
    Stays deployment (Service.submitOrder deployment payload idempotencyKey) := by
  refine .bind ?_ fun found => ?_
  · unfold Service.lookUp
    split
    · refine .bind (stays_aside (aside_perform rfl)) fun raw => ?_
      cases raw with
      | none => exact stays_ret none
      | some raw =>
        simp only
        split
        · exact stays_ret none
        · split
          · exact getOrder_stays _
          · exact stays_ret none
    · exact stays_ret none
  · cases found with
    | some existing => exact stays_ret _
    | none =>
      intro copy loose
      refine (createOrder_ready payload loose).bind ?_ fun _ _ loose => loose
      rintro ⟨order, writes⟩ left ⟨ready, commits, same⟩
      have permitted : (monitor deployment).allowed left (.commit writes) := by
        cases left <;> first | exact same | cases ready
      refine .perform_bind permitted (fun _ => ?_) (fun error => ?_) fun error => ?_
      · rw [next_commit]
        dsimp only
        rw [commits]
        refine aside_bind ?_ rfl (fun _ => ?_) fun _ => rfl
        · unfold Service.reserve
          split
          · exact aside_perform rfl
          · trivial
        · refine aside_bind (aside_perform rfl) rfl (fun eventId => ?_) fun _ => rfl
          refine aside_bind (aside_perform rfl) rfl (fun occurredAt => ?_) fun _ => rfl
          refine aside_bind (.bind (buildHeaders_aside ..) fun _ => aside_perform rfl) rfl
            (fun _ => ?_) fun _ => rfl
          refine aside_bind (incrStat_aside _) rfl (fun _ => ?_) fun _ => rfl
          exact put_stays rfl (stays_ret _)
      · rw [next_commit]
        rfl
      · rw [next_commit]
        rfl

/-- An order that was read from the database was then put in the cache. -/
def Read (result : Except Exn (Option OrderRead)) (left : Copy) : Prop :=
  left.loose = true ∧ ∀ out, result = .ok (some ⟨out, .database⟩) →
    ∃ order, left = .put order ∧ out = OrderOut.ofOrder order

theorem cached_aside (orderId : String) :
    (Cache.getOrder deployment orderId).Uses Aside := by
  refine .bind (.tryCatch (.bind (aside_perform rfl) fun _ => trivial) fun _ => trivial)
    fun raw => ?_
  split
  · trivial
  · exact .bind (incrStat_aside _) fun _ => trivial
  · refine .bind (incrStat_aside _) fun _ => ?_
    split
    · trivial
    · exact .bind (aside_perform rfl) fun _ => trivial

theorem readOrder_keeps (orderId : Uuid) {copy : Copy} (loose : copy.loose = true) :
    Keeps deployment (Service.readOrder deployment orderId) Read copy := by
  have unread : ∀ {left : Copy} {result : Except Exn (Option OrderRead)}, left.loose = true →
      (∀ out, result ≠ .ok (some ⟨out, .database⟩)) → Read result left := by
    intro left result still other
    exact ⟨still, fun out answered => (other out answered).elim⟩
  refine aside_bind (cached_aside _) loose (fun cached => ?_) fun _ => unread loose (by simp)
  cases cached with
  | some order => exact unread loose (by simp)
  | none =>
    refine (getOrder_held orderId loose).bind ?_ ?_
    · intro found left reached
      cases found with
      | none =>
        cases reached
        exact unread rfl (by simp)
      | some order =>
        cases reached
        refine (putOrder_put rfl).bind ?_ fun _ _ reached => by cases reached.1
        intro _ left reached
        cases reached.2
        refine ⟨rfl, fun out answered => ?_⟩
        cases answered
        exact ⟨order, rfl, rfl⟩
    · intro error left reached
      cases reached
      exact unread rfl (by simp)

/-- What a call leaves behind, given its result. -/
def goal : Call → Except Exn Result → Copy → Prop
  | .readOrder _, result, left => left.loose = true ∧
      ∀ out, result = .ok (.read (some ⟨out, .database⟩)) →
        ∃ order, left = .put order ∧ out = OrderOut.ofOrder order
  | _, _, left => left.loose = true

theorem goal_loose {call : Call} {result : Except Exn Result} {left : Copy}
    (reached : goal call result left) : left.loose = true := by
  cases call with
  | readOrder orderId => exact reached.1
  | _ => exact reached

theorem keeps (deployment : Deployment) (call : Call) :
    (monitor deployment).Follows (program deployment call) (goal call)
      ((monitor deployment).born call) := by
  cases call with
  | worker consumer =>
    refine (run_stays consumer _ rfl).bind ?_ fun _ _ loose => loose
    intro goesOn left loose
    exact loose
  | submitOrder payload key =>
    refine (submitOrder_stays payload key _ rfl).bind ?_ fun _ _ loose => loose
    intro submitted left loose
    exact loose
  | readOrder orderId =>
    refine (readOrder_keeps orderId rfl).bind ?_ ?_
    · intro found left reached
      refine ⟨reached.1, fun out answered => ?_⟩
      cases answered
      exact reached.2 out rfl
    · intro error left reached
      exact ⟨reached.1, fun out answered => by cases answered⟩

end Copy
end OrderFlow
