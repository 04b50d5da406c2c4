import OrderFlow.Async.Bounds
import OrderFlow.Kafka.Passes
import OrderFlow.Runs.Entries

/-!
What the counters count. A call raises a counter only for what it has done itself,
once for each time it has done it.
-/
namespace OrderFlow
open AsyncCoroutine AsyncPool

/-- What a counter is raised for. -/
inductive Due where
  | consumed | settled | entered | published | completed | failed | retried | archived | looked
  deriving DecidableEq

/-- The operation took effect, whether or not it was heard. -/
def effective {Value : Type} : Outcome Exn Value → Bool
  | .lost _ => false
  | _ => true

def Write.enters : Write → Bool
  | .insertOrder _ => true
  | _ => false

def Write.completes : Write → Bool
  | .insertTransition _ hop => hop.toStatus = .completed
  | _ => false

def Write.archives : Write → Bool
  | .insertDeadLetter _ => true
  | _ => false

namespace Counters
variable (settings : Settings)

/-- The operation does what the counter is raised for. -/
def does : Due → (op : Op) → Outcome Exn op.Reply → Bool
  | .consumed, .handleCall name _, _ => name = Consumer.processor.name
  | .settled, .handleCall name _, _ => name = Consumer.processor.name
  | .entered, .commit writes, outcome => effective outcome && writes.any Write.enters
  | .published, .send topic _ _ _, outcome => effective outcome && topic = settings.topicOrders
  | .completed, .commit writes, outcome => effective outcome && writes.any Write.completes
  | .failed, .send topic _ _ _, outcome => effective outcome && topic = settings.topicDlq
  | .retried, .send topic _ _ _, outcome => effective outcome && topic = settings.topicRetry
  | .archived, .commit writes, outcome => effective outcome && writes.any Write.archives
  | .looked, .get (.order _), _ => true
  | _, _, _ => false

/-- What must have been done for each time the counter is raised. -/
def needs (field : String) : List Due :=
  if field = "published" then [.entered, .published]
  else if field = "consumed" then [.consumed]
  else if field = "completed" then [.settled, .completed]
  else if field = "failed" then [.settled, .failed]
  else if field = "duplicates_skipped" then [.settled]
  else if field = "retries_scheduled" then [.settled, .retried]
  else if field = "dead_lettered" then [.archived]
  else if field = "cache_hits" then [.looked]
  else if field = "cache_misses" then [.looked]
  else []

def allowed (record : Due → Bool) : Op → Prop
  | .hincrby field amount => amount = 1 ∧ ∀ due ∈ needs field, record due = true
  | _ => True

def next (record : Due → Bool) : (op : Op) → Outcome Exn op.Reply → Due → Bool
  | .hincrby field _, _ => fun due => record due && !(needs field).contains due
  | op, outcome => fun due => record due || does settings due op outcome

def monitor : Monitor Op Op.Reply Exn Call (Due → Bool) where
  allowed := allowed
  next := next settings
  idle _ := false
  born _ _ := false

/-- One thing done for each time a counter that needs it is raised. -/
def budget (due : Due) : Budget Op Op.Reply Exn (Due → Bool) where
  worth record := (record due).toNat
  earns op outcome := (does settings due op outcome).toNat
  spends
    | .hincrby field _, _ => ((needs field).contains due).toNat
    | _, _ => 0

variable {settings}

theorem budget_balances (due : Due) : (budget settings due).Balances (monitor settings) where
  idle := rfl
  born _ := rfl
  pays record op outcome permitted := by
    have joins : ∀ first second : Bool,
        (first || second).toNat ≤ second.toNat + first.toNat := by decide
    cases op with
    | hincrby field amount =>
      simp only [budget, monitor, next]
      by_cases needed : due ∈ needs field
      · have owned : record due = true := permitted.2 due needed
        simp [owned, needed]
      · simp [needed]
    | _ => simpa only [budget, monitor, next, Nat.zero_add] using joins _ _

/-- The record shows these things done and not counted yet. -/
def Owns (dues : List Due) (record : Due → Bool) : Prop := ∀ due ∈ dues, record due = true

/-- Operations that raise no counter. -/
def Silent : Op → Prop
  | .hincrby _ _ => False
  | _ => True

theorem keeps_silent {dues : List Due} (op : Op) (silent : Silent op) :
    (monitor settings).Keeps (Owns dues) op := by
  intro record owns
  cases op with
  | hincrby => exact silent.elim
  | _ => exact ⟨trivial, fun _ due member => by simp [monitor, next, owns due member]⟩

section
variable {Value : Type} {record : Due → Bool} {dues rest : List Due}

theorem silent_owns {program : Prog Value} (uses : program.Uses Silent) (owns : Owns dues record) :
    (monitor settings).Returns program (fun _ left => Owns dues left) record :=
  (Protocol.maintains_of_uses uses keeps_silent).returns owns

theorem silent_returns {program : Prog Value} (uses : program.Uses Silent) :
    (monitor settings).Returns program (fun _ _ => True) record := by
  have nothing : Owns [] record := by rintro _ ⟨⟩
  exact (silent_owns uses nothing).weaken fun _ _ _ => trivial

theorem await_owns (op : Op) (silent : Silent op) (owns : Owns dues record) :
    (monitor settings).Returns (await op) (fun _ left => Owns dues left) record :=
  silent_owns (Coroutine.uses_perform silent) owns

theorem await_returns (op : Op) (silent : Silent op) :
    (monitor settings).Returns (await op) (fun _ _ => True) record :=
  silent_returns (Coroutine.uses_perform silent)

/-- A counter is raised for what is owned, and the rest stays. -/
theorem counts {field : String} (owns : Owns dues record)
    (paid : ∀ due ∈ needs field, due ∈ dues) (left : ∀ due ∈ rest, due ∈ dues ∧ due ∉ needs field) :
    (monitor settings).Returns (incrStat field) (fun _ left => Owns rest left) record := by
  have after : ∀ outcome, Owns rest ((monitor settings).next record (.hincrby field 1) outcome) := by
    intro outcome due member
    obtain ⟨owned, unspent⟩ := left due member
    simp [monitor, next, owns due owned, unspent]
  refine Protocol.Follows.tryCatch (Q := fun _ left => Owns rest left) ?_
    (fun _ _ owns _ _ => owns) fun _ _ owns => Protocol.returns_ret owns
  exact Protocol.follows_perform.mpr ⟨⟨rfl, fun due member => owns due (paid due member)⟩, after⟩

theorem counts_last {field : String} (owns : Owns dues record)
    (paid : ∀ due ∈ needs field, due ∈ dues) :
    (monitor settings).Returns (incrStat field) (fun _ _ => True) record := by
  have none_left : ∀ due ∈ ([] : List Due), due ∈ dues ∧ due ∉ needs field := by rintro _ ⟨⟩
  exact (counts owns paid none_left).weaken fun _ _ _ => trivial

/-- What an operation does is owned from then on. -/
theorem await_earns {op : Op} {due : Due} (silent : Silent op) (owns : Owns dues record)
    (done : ∀ value, does settings due op (.ok value) = true) :
    (monitor settings).Returns (await op) (fun _ left => Owns (due :: dues) left) record := by
  refine Protocol.returns_perform (keeps_silent op silent record owns).1 fun value other member => ?_
  rcases List.mem_cons.mp member with rfl | earlier
  · cases op with
    | hincrby => exact silent.elim
    | _ => simp [monitor, next, done value]
  · exact (keeps_silent op silent record owns).2 (.ok value) other earlier

theorem session_returns {body : Prog (Value × List Write)} {Q : Value → (Due → Bool) → Prop}
    (drafts : (monitor settings).Returns body
      (fun value left => Q value.1 ((monitor settings).next left (.commit value.2) (.ok ()))) record) :
    (monitor settings).Returns (sessionScope body) Q record := by
  refine .tryCatch (drafts.bind fun value left holds => ?_) fun error left => ?_
  · exact (Protocol.returns_perform trivial fun _ => holds).bind fun _ _ holds =>
      Protocol.returns_ret holds
  · exact (await_returns .rollback trivial).bind fun _ _ _ =>
      Protocol.returns_raise error

/-- What the body leaves owned stays owned when it is committed. -/
theorem committed_owns {left : Due → Bool} (owns : Owns dues left) (writes : List Write) :
    Owns dues ((monitor settings).next left (.commit writes) (.ok ())) := by
  have kept : (monitor settings).Keeps (Owns dues) (.commit writes) := keeps_silent _ trivial
  exact (kept left owns).2 (.ok ())

theorem committed_earns {left : Due → Bool} (owns : Owns dues left) {writes : List Write} {due : Due}
    (done : does settings due (.commit writes) (.ok ()) = true) :
    Owns (due :: dues) ((monitor settings).next left (.commit writes) (.ok ())) := by
  intro other member
  rcases List.mem_cons.mp member with rfl | earlier
  · simp [monitor, next, done]
  · exact committed_owns owns writes other earlier

end

/-! ### Sessions and calls -/

section
variable {deployment : Deployment} {record : Due → Bool} {dues : List Due}

theorem getOrder_silent (id : Uuid) : (Repository.getOrder id).Uses Silent := by
  refine .bind (Coroutine.uses_perform trivial) fun found => ?_
  cases found with
  | none => trivial
  | some row => exact .bind (Coroutine.uses_perform trivial) fun _ => trivial

theorem putOrder_silent (order : Order) : (Cache.putOrder deployment order).Uses Silent :=
  .tryCatch (Coroutine.uses_perform trivial) fun _ => trivial

theorem buildHeaders_silent (attempt : Nat) (due : Option PyFloat) (error : Option PyStr)
    (origin : Option String) : (buildHeaders deployment attempt due error origin).Uses Silent := by
  cases origin with
  | none => trivial
  | some origin => exact .bind (Coroutine.uses_perform trivial) fun _ => trivial

theorem claim_silent (eventId : String) :
    (IdempotencyGuard.claim deployment.settings eventId).Uses Silent := by
  have quietly : ∀ op : Op, Silent op → (await op).Uses Silent := fun _ => Coroutine.uses_perform
  refine .bind (quietly _ trivial) fun token => .bind (quietly _ trivial) fun won => ?_
  split
  · trivial
  · refine .bind (quietly _ trivial) fun current => ?_
    split
    · trivial
    · refine .bind (quietly _ trivial) fun again => ?_
      split
      · trivial
      · exact .bind (quietly _ trivial) fun _ => trivial

theorem transition_owns (order : Order) (aim : OrderStatus) (note : PyStr) (attempt : Nat)
    (reason : Option PyStr) (owns : Owns dues record) :
    (monitor deployment.settings).Returns (Repository.transition order aim note attempt reason)
      (fun value left => Owns dues left ∧
        (aim = .completed → value.2.any Write.completes = true)) record := by
  refine (await_owns (.flush _) trivial owns).bind fun hop left owns => Protocol.returns_ret ⟨owns, ?_⟩
  rintro rfl
  rfl

theorem moveOrder_owns (id : Uuid) (aim : OrderStatus) (note : PyStr) (attempt : Nat)
    (reason : Option PyStr) (owns : Owns dues record) :
    (monitor deployment.settings).Returns (OrderConsumer.moveOrder id aim note attempt reason)
      (fun _ left => Owns dues left ∧ (aim = .completed → Owns (.completed :: dues) left)) record := by
  refine session_returns ((silent_owns (getOrder_silent id) owns).bind fun found left owns => ?_)
  cases found with
  | none => exact Protocol.returns_raise _
  | some order =>
    refine (transition_owns order aim note attempt reason owns).weaken fun value left drafted => ?_
    exact ⟨committed_owns drafted.1 _, fun same => committed_earns drafted.1 (drafted.2 same)⟩

/-- A dead letter is put on `orders.dlq`. -/
theorem toDlq_owns (handled : ConsumerRecord) (attempt : Nat) (text : PyStr)
    (owns : Owns dues record) :
    (monitor deployment.settings).Returns (OrderConsumer.toDlq deployment handled attempt text)
      (fun _ left => Owns (.failed :: dues) left) record :=
  (silent_owns (buildHeaders_silent ..) owns).bind fun _ _ owns =>
    await_earns trivial owns fun _ => by simp [does, effective]

theorem accept_owns (event : OrderEvent) (handled : ConsumerRecord) (attempt : Nat) (claim : Claim)
    (owns : Owns [.settled] record) :
    (monitor deployment.settings).Returns
      (OrderConsumer.accept deployment event handled attempt claim)
      (fun accepted left => accepted.isSome → Owns [.settled] left) record := by
  refine session_returns ((silent_owns (getOrder_silent _) owns).bind fun found left owns => ?_)
  cases found with
  | none =>
    refine (await_owns (.evalComplete _ _ _) trivial owns).bind fun _ left owns => ?_
    exact (toDlq_owns handled attempt _ owns).bind fun _ _ _ => Protocol.returns_ret (by rintro ⟨⟩)
  | some order =>
    simp only
    split
    · refine (await_owns (.evalComplete _ _ _) trivial owns).bind fun _ left owns => ?_
      exact (counts_last owns (by decide)).bind fun _ _ _ =>
        Protocol.returns_ret (by rintro ⟨⟩)
    · refine (transition_owns order .processing _ attempt none owns).bind fun value left drafted => ?_
      exact Protocol.returns_ret fun _ => committed_owns drafted.1 _

theorem succeed_counts (event : OrderEvent) (attempt : Nat) (claim : Claim)
    (owns : Owns [.settled] record) :
    (monitor deployment.settings).Returns (OrderConsumer.succeed deployment event attempt claim)
      (fun _ _ => True) record := by
  refine (moveOrder_owns _ .completed _ attempt _ owns).bind fun order left moved => ?_
  refine (silent_owns (putOrder_silent order) (moved.2 rfl)).bind fun _ left owns => ?_
  refine (await_owns (.evalComplete _ _ _) trivial owns).bind fun _ left owns => ?_
  exact (counts_last owns (by decide)).bind fun _ _ _ =>
    Protocol.returns_ret trivial

theorem backoffDelay_silent (attempt : Nat) :
    (Processing.backoffDelay deployment.settings attempt).Uses Silent := by
  unfold Processing.backoffDelay
  split
  · trivial
  · exact .bind (Coroutine.uses_perform trivial) fun _ => trivial

theorem retry_counts (event : OrderEvent) (handled : ConsumerRecord) (attempt : Nat) (claim : Claim)
    (error : PyStr) (owns : Owns [.settled] record) :
    (monitor deployment.settings).Returns
      (OrderConsumer.retry deployment event handled attempt claim error) (fun _ _ => True)
      record := by
  refine (silent_owns (backoffDelay_silent attempt) owns).bind fun delay left owns => ?_
  refine (moveOrder_owns _ .pending _ attempt _ owns).bind fun order left moved => ?_
  refine (silent_owns (putOrder_silent order) moved.1).bind fun _ left owns => ?_
  refine (await_owns .time trivial owns).bind fun now left owns => ?_
  refine (silent_owns (buildHeaders_silent ..) owns).bind fun headers left owns => ?_
  have sends : (monitor deployment.settings).Returns
      (publishRaw deployment.settings.topicRetry (some event.orderId.str) handled.value headers)
      (fun _ left => Owns [.retried, .settled] left) left :=
    await_earns trivial owns fun _ => by simp [does, effective]
  refine sends.bind fun _ left owns => ?_
  refine (await_owns (.evalRelease _ _) trivial owns).bind fun _ left owns => ?_
  exact (counts_last owns (by decide)).bind fun _ _ _ =>
    Protocol.returns_ret trivial

theorem deadLetter_counts (event : OrderEvent) (handled : ConsumerRecord) (attempt : Nat)
    (claim : Claim) (text error : PyStr) (owns : Owns [.settled] record) :
    (monitor deployment.settings).Returns
      (OrderConsumer.deadLetter deployment event handled attempt claim text error) (fun _ _ => True)
      record := by
  refine Protocol.Returns.bind (Q := fun _ left => Owns [.settled] left) (session_returns
    ((silent_owns (getOrder_silent _) owns).bind fun found left owns => ?_)) fun moved left owns => ?_
  · cases found with
    | none => exact Protocol.returns_ret (committed_owns owns _)
    | some order =>
      exact (transition_owns order .failed text attempt _ owns).bind fun value left drafted =>
        Protocol.returns_ret (committed_owns drafted.1 _)
  · have rest : ∀ {left}, Owns [.settled] left → (monitor deployment.settings).Returns (do
        OrderConsumer.toDlq deployment handled attempt text
        let _ ← IdempotencyGuard.complete deployment.settings claim
        incrStat "failed"
        return Ack.commit) (fun _ _ => True) left := by
      intro left owns
      refine (toDlq_owns handled attempt text owns).bind fun _ left owns => ?_
      refine (await_owns (.evalComplete _ _ _) trivial owns).bind fun _ left owns => ?_
      exact (counts_last owns (by decide)).bind fun _ _ _ => Protocol.returns_ret trivial
    cases moved with
    | none => exact rest owns
    | some order => exact (silent_owns (putOrder_silent order) owns).bind fun _ _ owns => rest owns

theorem process_counts (event : OrderEvent) (handled : ConsumerRecord) (attempt : Nat)
    (claim : Claim) (owns : Owns [.settled] record) :
    (monitor deployment.settings).Returns
      (OrderConsumer.process deployment event handled attempt claim) (fun _ _ => True) record := by
  refine (accept_owns event handled attempt claim owns).bind fun accepted left kept => ?_
  cases accepted with
  | none => exact Protocol.returns_ret trivial
  | some order =>
    refine (silent_owns (putOrder_silent order) (kept rfl)).bind fun _ left owns => ?_
    have tries : (OrderConsumer.tryFulfil event).Uses Silent := by
      refine .tryCatch (.bind (Coroutine.uses_perform trivial) fun _ => trivial) fun error => ?_
      cases error <;> trivial
    refine (silent_owns tries owns).bind fun failed left owns => ?_
    cases failed with
    | none => exact succeed_counts event attempt claim owns
    | some failure =>
      show (monitor deployment.settings).Returns (OrderConsumer.fail _ _ _ _ _ _ _) _ _
      unfold OrderConsumer.fail
      split
      · exact retry_counts event handled attempt claim _ owns
      · exact deadLetter_counts event handled attempt claim _ _ owns

theorem orderConsumer_counts (handled : ConsumerRecord) (owns : Owns [.consumed, .settled] record) :
    (monitor deployment.settings).Returns (OrderConsumer.handle deployment handled)
      (fun _ _ => True) record := by
  unfold OrderConsumer.handle
  simp only
  split
  · exact (toDlq_owns handled _ _ owns).bind fun _ _ _ => Protocol.returns_ret trivial
  · have counted : (monitor deployment.settings).Returns (incrStat "consumed")
        (fun _ left => Owns [.settled] left) record := counts owns (by decide) (by decide)
    refine counted.bind fun _ left owns => ?_
    refine (silent_owns (claim_silent _) owns).bind fun claim left owns => ?_
    split
    · exact (counts_last owns (by decide)).bind fun _ _ _ =>
        Protocol.returns_ret trivial
    · exact (await_owns (.sleep _) trivial owns).bind fun _ _ _ => Protocol.returns_ret trivial
    · refine .tryCatch (process_counts _ handled _ claim owns) fun error left => ?_
      exact (await_returns (.evalRelease _ _) trivial).bind fun _ _ _ =>
        Protocol.returns_raise error

theorem retryScheduler_silent (handled : ConsumerRecord) :
    (RetryScheduler.handle deployment handled).Uses Silent := by
  have rest : (do
      let headers ← buildHeaders deployment handled.headers.getAttempt none
        (handled.headers.getError.map py) none
      publishRaw deployment.settings.topicOrders handled.key handled.value headers
      return Ack.commit).Uses Silent :=
    .bind trivial fun _ => .bind (Coroutine.uses_perform trivial) fun _ => trivial
  refine .bind (Coroutine.uses_perform trivial) fun now => ?_
  split
  · exact .bind (Coroutine.uses_perform trivial) fun _ => rest
  · exact rest

theorem dlqArchiver_counts (handled : ConsumerRecord) :
    (monitor deployment.settings).Returns (DlqArchiver.handle handled) (fun _ _ => True) record := by
  have nothing : Owns [] record := by rintro _ ⟨⟩
  have files : (monitor deployment.settings).Returns
      (sessionScope (Repository.recordDeadLetter (DlqArchiver.entryOf handled)))
      (fun _ left => Owns [.archived] left) record :=
    session_returns ((await_owns (.flush _) trivial nothing).bind fun _ _ owns =>
      Protocol.returns_ret (committed_earns owns rfl))
  exact files.bind fun _ _ owns => (counts_last owns (by decide)).bind fun _ _ _ =>
    Protocol.returns_ret trivial

/-- Entering `handle` gives the processor one record to count. -/
theorem handle_counts (consumer : Consumer) (handled : ConsumerRecord) :
    (monitor deployment.settings).Returns (consumer.handle deployment handled) (fun _ _ => True)
      ((monitor deployment.settings).next record (.handleCall consumer.name handled) (.ok ())) := by
  cases consumer with
  | processor =>
    refine orderConsumer_counts handled fun due member => ?_
    have calls : ∀ due ∈ [Due.consumed, .settled],
        does deployment.settings due (.handleCall Consumer.processor.name handled) (.ok ()) = true := by
      intro due member
      rcases List.mem_pair.mp member with rfl | rfl <;> simp [does]
    simp [monitor, next, calls due member]
  | retry => exact silent_returns (retryScheduler_silent handled)
  | dlq => exact dlqArchiver_counts handled

theorem lookUp_silent (idempotencyKey : Option String) :
    (Service.lookUp idempotencyKey).Uses Silent := by
  unfold Service.lookUp
  split
  · refine .bind (Coroutine.uses_perform trivial) fun raw => ?_
    split
    · trivial
    · split
      · trivial
      · split
        · exact getOrder_silent _
        · trivial
  · trivial

theorem reserve_silent (idempotencyKey : Option String) (order : Order) :
    (Service.reserve deployment idempotencyKey order).Uses Silent := by
  unfold Service.reserve
  split
  · exact Coroutine.uses_perform trivial
  · trivial

theorem submitOrder_counts (payload : OrderCreate) (key : Option String) :
    (monitor deployment.settings).Returns (Service.submitOrder deployment payload key)
      (fun _ _ => True) record := by
  have nothing : Owns [] record := by rintro _ ⟨⟩
  refine (silent_owns (lookUp_silent key) nothing).bind fun found left owns => ?_
  cases found with
  | some existing => exact Protocol.returns_ret trivial
  | none =>
    have creates : (monitor deployment.settings).Returns (Repository.createOrder payload)
        (fun value left => Owns [] left ∧ value.2.any Write.enters = true) left :=
      (await_owns .uuid4 trivial owns).bind fun id left owns =>
        (await_owns (.flush _) trivial owns).bind fun hop left owns =>
          Protocol.returns_ret ⟨owns, rfl⟩
    refine creates.bind fun value left created => ?_
    have commits : (monitor deployment.settings).Returns (await (.commit value.2))
        (fun _ left => Owns [.entered] left) left :=
      await_earns trivial created.1 fun _ => created.2
    refine commits.bind fun _ left owns => ?_
    refine (silent_owns (reserve_silent key value.1) owns).bind fun _ left owns => ?_
    refine (await_owns .uuid4 trivial owns).bind fun eventId left owns => ?_
    refine (await_owns .utcnow trivial owns).bind fun occurredAt left owns => ?_
    have publishes : (monitor deployment.settings).Returns (publishEvent deployment
        (Service.eventOf value.1.row payload eventId occurredAt) 1)
        (fun _ left => Owns [.published, .entered] left) left :=
      await_earns trivial owns fun _ => by simp [does, effective]
    refine publishes.bind fun _ left owns => ?_
    refine (counts_last owns (by decide)).bind fun _ _ _ => ?_
    exact (silent_returns (putOrder_silent value.1)).bind fun _ _ _ => Protocol.returns_ret trivial

theorem readOrder_counts (id : Uuid) :
    (monitor deployment.settings).Returns (Service.readOrder deployment id) (fun _ _ => True)
      record := by
  have nothing : Owns [] record := by rintro _ ⟨⟩
  have looks : (monitor deployment.settings).Returns
      (MonadExcept.tryCatch (some <$> await (.get (.order id.str)))
        fun _ => (pure none : Prog (Option (Option String))))
      (fun raw left => raw.isSome → Owns [.looked] left) record := by
    refine .tryCatch ?_ fun _ _ => Protocol.returns_ret (by rintro ⟨⟩)
    have asks : (monitor deployment.settings).Returns (await (.get (.order id.str)))
        (fun _ left => Owns [.looked] left) record := await_earns trivial nothing fun _ => rfl
    exact asks.bind fun _ _ owns => Protocol.returns_ret fun _ => owns
  have cached : (monitor deployment.settings).Returns (Cache.getOrder deployment id.str)
      (fun _ _ => True) record := by
    refine looks.bind fun raw left owns => ?_
    rcases raw with _ | _ | text
    · exact Protocol.returns_ret trivial
    · exact (counts_last (owns rfl) (by decide)).bind fun _ _ _ => Protocol.returns_ret trivial
    · refine (counts_last (owns rfl) (by decide)).bind fun _ _ _ => ?_
      split
      · exact Protocol.returns_ret trivial
      · exact (await_returns (.delete _) trivial).bind fun _ _ _ => Protocol.returns_ret trivial
  refine cached.bind fun found _ _ => ?_
  cases found with
  | some out => exact Protocol.returns_ret trivial
  | none =>
    refine (silent_returns (getOrder_silent id)).bind fun row _ _ => ?_
    cases row with
    | none => exact Protocol.returns_ret trivial
    | some order =>
      exact (silent_returns (putOrder_silent order)).bind fun _ _ _ => Protocol.returns_ret trivial

theorem keeps (deployment : Deployment) (call : Call) :
    (monitor deployment.settings).Follows (program deployment call) (fun _ _ => True)
      ((monitor deployment.settings).born call) := by
  have any : ∀ {Value : Type} {program : Prog Value} {record : Due → Bool},
      (monitor deployment.settings).Returns program (fun _ _ => True) record →
      (monitor deployment.settings).Follows program (fun _ _ => True) record :=
    fun returns => returns.mono fun _ _ _ => trivial
  cases call with
  | worker consumer =>
    have free : ∀ op : Op, op.around = true → Silent op := by
      intro op around
      cases op <;> trivial
    have pass : (monitor deployment.settings).Maintains (fun _ => True) (consumer.run deployment) := by
      refine runPass_maintains (fun op around record _ => ?_) (fun handled record _ => ?_) _
      · have nothing : Owns [] record := by rintro _ ⟨⟩
        exact ⟨(keeps_silent op (free op around) record nothing).1, fun _ => trivial⟩
      · refine .tryCatch (Q := fun _ _ => True) (.perform_bind trivial (fun _ => ?_)
          (fun _ => trivial) fun _ => trivial) (fun _ _ _ => trivial) fun error left _ => ?_
        · refine any ((handle_counts consumer handled).bind fun ack left _ => ?_)
          exact (await_returns (.handleReturn _ _ _) trivial).bind fun _ _ _ =>
            Protocol.returns_ret trivial
        · refine any ((await_returns (.handleReturn _ _ _) trivial).bind fun _ _ _ => ?_)
          exact (await_returns (.sleep _) trivial).bind fun _ _ _ => Protocol.returns_ret trivial
    exact (pass _ trivial).bind (fun _ _ _ => trivial) fun _ _ _ => trivial
  | submitOrder payload key =>
    exact any ((submitOrder_counts payload key).bind fun _ _ _ => Protocol.returns_ret trivial)
  | readOrder id =>
    exact any ((readOrder_counts id).bind fun _ _ _ => Protocol.returns_ret trivial)

end

end Counters
end OrderFlow
