import OrderFlow.Stage.Runs

/-!
The moves from stage to stage, once and for all: which operation takes a thread
from where to where. Later proofs look up a move here and never the protocol.
-/
namespace OrderFlow
open AsyncCoroutine AsyncPool

variable {deployment : Deployment}

/-- The operation drew this identifier. -/
def Draws : (op : Op) → Outcome Exn op.Reply → Uuid → Prop
  | .uuid4, .ok id, drawn => id = drawn
  | _, _, _ => False

/-- The operation read this under the order's id. -/
def Selects : (op : Op) → Outcome Exn op.Reply → Uuid → Option OrderRow → Prop
  | .selectOrder id, .ok found, asked, answer => id = asked ∧ found = answer
  | _, _, _, _ => False

/-- The operation committed these writes and was heard. -/
def Commits : (op : Op) → Outcome Exn op.Reply → List Write → Prop
  | .commit written, .ok _, writes => written = writes
  | _, _, _ => False

/-- The operation took a free key. -/
def Wins : (op : Op) → Outcome Exn op.Reply → Key → String → Prop
  | .setNx key written _, .ok won, taken, token => won = true ∧ key = taken ∧ written = token
  | _, _, _, _ => False

/-- The operation published this and was acknowledged. -/
def Sends : (op : Op) → Outcome Exn op.Reply → String → Option String → Json → Headers → Prop
  | .send topic key value headers, .ok _, sentTo, sentKey, sentValue, sentHeaders =>
      topic = sentTo ∧ key = sentKey ∧ value = sentValue ∧ headers = sentHeaders
  | _, _, _, _, _, _ => False

/-- The operation found this under the key. -/
def Gets : (op : Op) → Outcome Exn op.Reply → Key → Option String → Prop
  | .get key, .ok current, asked, found => key = asked ∧ current = found
  | _, _, _, _ => False

namespace Submission

/-- Where a submission stands once its row is committed. -/
def saved (payload : OrderCreate) (key : Option String) (id : Uuid) : Submission :=
  match key with
  | some key => .created payload key id
  | none => .reserved payload none id

/-- The text under the idempotency key leads to no order. -/
def Unresolved (current : Option String) : Prop :=
  current = none ∨ ∃ raw, current = some raw ∧ (raw = "" ∨ Uuid.parse raw = none)

/-- The submission has not come to its end. -/
def pending : Submission → Bool
  | .published _ _ _ _ _ => false
  | .broken => false
  | _ => true

inductive Progress (deployment : Deployment) : Submission → (op : Op) → Outcome Exn op.Reply →
    Submission → Prop where
  | misses (payload : OrderCreate) (key : String) (current : Option String)
      (unresolved : Unresolved current) :
      Progress deployment (.asking payload key) (.get (.apiIdempotency key)) (.ok current)
        (.missed payload (some key))
  | resolves (payload : OrderCreate) (key raw : String) (id : Uuid)
      (parsed : Uuid.parse raw = some id) :
      Progress deployment (.asking payload key) (.get (.apiIdempotency key)) (.ok (some raw))
        (.resolving payload key id)
  | unknown (payload : OrderCreate) (key : String) (id : Uuid) :
      Progress deployment (.resolving payload key id) (.selectOrder id) (.ok none)
        (.missed payload (some key))
  | finds (payload : OrderCreate) (key : String) (id : Uuid) (row : OrderRow) :
      Progress deployment (.resolving payload key id) (.selectOrder id) (.ok (some row))
        (.found row)
  | reads (row : OrderRow) (id : Uuid) (hops : List StatusTransition) :
      Progress deployment (.found row) (.selectTransitions id) (.ok hops) (.found row)
  | draws (payload : OrderCreate) (key : Option String) (id : Uuid) :
      Progress deployment (.missed payload key) .uuid4 (.ok id) (.drawn payload key id)
  | flushes (payload : OrderCreate) (key : Option String) (id : Uuid) (writes : List Write)
      (hop : Nat) :
      Progress deployment (.drawn payload key id) (.flush writes) (.ok hop)
        (.drawn payload key id)
  | inserts (payload : OrderCreate) (key : Option String) (id : Uuid) (hop : Nat) :
      Progress deployment (.drawn payload key id)
        (.commit (Repository.createWrites (Repository.newRow payload id) hop)) (.ok ())
        (saved payload key id)
  | reserves (payload : OrderCreate) (key : String) (id : Uuid) (ttl : Nat) :
      Progress deployment (.created payload key id) (.set (.apiIdempotency key) id.str ttl) (.ok ())
        (.reserved payload (some key) id)
  | names (payload : OrderCreate) (key : Option String) (id eventId : Uuid) :
      Progress deployment (.reserved payload key id) .uuid4 (.ok eventId)
        (.named payload key id eventId)
  | stamps (payload : OrderCreate) (key : Option String) (id eventId : Uuid) (instant : String) :
      Progress deployment (.named payload key id eventId) .utcnow (.ok instant)
        (.stamped payload key id eventId instant)
  | publishes (payload : OrderCreate) (key : Option String) (id eventId : Uuid) (instant : String) :
      Progress deployment (.stamped payload key id eventId instant)
        (.send deployment.settings.topicOrders (some id.str)
          (deployment.platform.modelDump (submittedEvent payload id eventId instant))
          (Headers.build deployment.platform 1 none none none "")) (.ok ())
        (.published payload key id eventId instant)
  | finishes {op : Op} {outcome : Outcome Exn op.Reply} (payload : OrderCreate)
      (key : Option String) (id eventId : Uuid) (instant : String)
      (quiet : (∃ field amount, op = .hincrby field amount) ∨
        ∃ orderId value ttl, op = .set (.order orderId) value ttl) :
      Progress deployment (.published payload key id eventId instant) op outcome
        (.published payload key id eventId instant)
  | breaks {op : Op} {outcome : Outcome Exn op.Reply} (submission : Submission)
      (unfinished : submission.pending = true) (permitted : submission.allowed deployment op) (failed : ∀ value, outcome ≠ .ok value) :
      Progress deployment submission op outcome .broken

theorem progress {submission : Submission} {op : Op} {outcome : Outcome Exn op.Reply}
    (permitted : submission.allowed deployment op) :
    Progress deployment submission op outcome (submission.next op outcome) := by
  cases submission with
  | asking payload key =>
    cases op with
    | get read =>
      obtain rfl := permitted
      rcases outcome with current | error | error
      · cases current with
        | none => exact .misses _ _ _ (.inl rfl)
        | some raw =>
          by_cases empty : raw = ""
          · have reached : next (.asking payload key) (.get (.apiIdempotency key))
                (.ok (some raw)) = .missed payload (some key) := by simp [next, empty]
            rw [reached]
            exact .misses _ _ _ (.inr ⟨raw, rfl, .inl empty⟩)
          · cases parsed : Uuid.parse raw with
            | none =>
              have reached : next (.asking payload key) (.get (.apiIdempotency key))
                  (.ok (some raw)) = .missed payload (some key) := by simp [next, empty, parsed]
              rw [reached]
              exact .misses _ _ _ (.inr ⟨raw, rfl, .inr parsed⟩)
            | some id =>
              have reached : next (.asking payload key) (.get (.apiIdempotency key))
                  (.ok (some raw)) = .resolving payload key id := by simp [next, empty, parsed]
              rw [reached]
              exact .resolves _ _ _ _ parsed
      · exact .breaks _ rfl rfl (by rintro _ ⟨⟩)
      · exact .breaks _ rfl rfl (by rintro _ ⟨⟩)
    | _ => exact permitted.elim
  | resolving payload key id =>
    cases op with
    | selectOrder read =>
      obtain rfl := permitted
      rcases outcome with (_ | row) | error | error
      · exact .unknown ..
      · exact .finds ..
      · exact .breaks _ rfl rfl (by rintro _ ⟨⟩)
      · exact .breaks _ rfl rfl (by rintro _ ⟨⟩)
    | _ => exact permitted.elim
  | found row =>
    cases op with
    | selectTransitions id =>
      rcases outcome with hops | error | error
      · exact .reads ..
      · exact .breaks _ rfl permitted (by rintro _ ⟨⟩)
      · exact .breaks _ rfl permitted (by rintro _ ⟨⟩)
    | _ => exact permitted.elim
  | missed payload key =>
    cases op with
    | uuid4 =>
      rcases outcome with id | error | error
      · exact .draws ..
      · exact .breaks _ rfl permitted (by rintro _ ⟨⟩)
      · exact .breaks _ rfl permitted (by rintro _ ⟨⟩)
    | _ => exact permitted.elim
  | drawn payload key id =>
    cases op with
    | flush writes =>
      rcases outcome with hop | error | error
      · exact .flushes ..
      · exact .breaks _ rfl permitted (by rintro _ ⟨⟩)
      · exact .breaks _ rfl permitted (by rintro _ ⟨⟩)
    | commit writes =>
      obtain ⟨hop, rfl⟩ := permitted
      cases key with
      | none =>
        rcases outcome with ⟨⟩ | error | error
        · exact .inserts payload none id hop
        · exact .breaks _ rfl ⟨hop, rfl⟩ (by rintro _ ⟨⟩)
        · exact .breaks _ rfl ⟨hop, rfl⟩ (by rintro _ ⟨⟩)
      | some key =>
        rcases outcome with ⟨⟩ | error | error
        · exact .inserts payload (some key) id hop
        · exact .breaks _ rfl ⟨hop, rfl⟩ (by rintro _ ⟨⟩)
        · exact .breaks _ rfl ⟨hop, rfl⟩ (by rintro _ ⟨⟩)
    | _ => exact permitted.elim
  | created payload key id =>
    cases op with
    | set written value ttl =>
      obtain ⟨rfl, rfl⟩ := permitted
      rcases outcome with ⟨⟩ | error | error
      · exact .reserves ..
      · exact .breaks _ rfl ⟨rfl, rfl⟩ (by rintro _ ⟨⟩)
      · exact .breaks _ rfl ⟨rfl, rfl⟩ (by rintro _ ⟨⟩)
    | _ => exact permitted.elim
  | reserved payload key id =>
    cases op with
    | uuid4 =>
      rcases outcome with eventId | error | error
      · exact .names ..
      · exact .breaks _ rfl permitted (by rintro _ ⟨⟩)
      · exact .breaks _ rfl permitted (by rintro _ ⟨⟩)
    | _ => exact permitted.elim
  | named payload key id eventId =>
    cases op with
    | utcnow =>
      rcases outcome with instant | error | error
      · exact .stamps ..
      · exact .breaks _ rfl permitted (by rintro _ ⟨⟩)
      · exact .breaks _ rfl permitted (by rintro _ ⟨⟩)
    | _ => exact permitted.elim
  | stamped payload key id eventId instant =>
    cases op with
    | send topic recordKey value headers =>
      obtain ⟨rfl, rfl, rfl, rfl⟩ := permitted
      rcases outcome with ⟨⟩ | error | error
      · exact .publishes ..
      · exact .breaks _ rfl ⟨rfl, rfl, rfl, rfl⟩ (by rintro _ ⟨⟩)
      · exact .breaks _ rfl ⟨rfl, rfl, rfl, rfl⟩ (by rintro _ ⟨⟩)
    | _ => exact permitted.elim
  | published payload key id eventId instant =>
    cases op with
    | hincrby field amount => exact .finishes _ _ _ _ _ (.inl ⟨_, _, rfl⟩)
    | set written value ttl =>
      cases written with
      | order orderId => exact .finishes _ _ _ _ _ (.inr ⟨_, _, _, rfl⟩)
      | _ => exact permitted.elim
    | _ => exact permitted.elim
  | broken => cases op <;> exact permitted.elim

end Submission

namespace Phase

inductive Progress (delivery : Delivery deployment) (token : String) : Phase → (op : Op) →
    Outcome Exn op.Reply → Phase → Prop where
  | misses : Progress delivery token .acquired (.selectOrder delivery.event.orderId) (.ok none)
      .missing
  | checks (row : OrderRow) :
      Progress delivery token .acquired (.selectOrder delivery.event.orderId) (.ok (some row))
        (checked row)
  | tombs (ttl : Nat) (changed : Bool) :
      Progress delivery token .missing (.evalComplete delivery.guard token ttl) (.ok changed) .buried
  | buries {topic : String} {key : Option String} {value : Json} {headers : Headers}
      (letter : IsDeadLetter deployment delivery.record topic key value headers) :
      Progress delivery token .buried (.send topic key value headers) (.ok ()) (.closed .unknown)
  | ends (ttl : Nat) (changed : Bool) :
      Progress delivery token .skipping (.evalComplete delivery.guard token ttl) (.ok changed)
        (.closed .terminal)
  | writes (aim : OrderStatus) (reason : Option PyStr) (row : OrderRow) (note : PyStr) (hop : Nat) :
      Progress delivery token (.read aim reason row)
        (.commit (Repository.transitionWrites row
          (Repository.transitionRow row aim delivery.attempt reason) (some note) hop)) (.ok ())
        (.moved aim reason)
  | fulfils (reason : Option PyStr) (outcome : Outcome Exn Unit) :
      Progress delivery token (.moved .processing reason) (.fulfil delivery.event) outcome
        (decide delivery outcome.reply)
  | retries (reason : Option PyStr) (due : ℚ) (failedAt : String) :
      Progress delivery token (.moved .pending reason)
        (.send deployment.settings.topicRetry (some delivery.event.orderId.str)
          delivery.record.value (Headers.build deployment.platform (delivery.attempt + 1)
            (some (.num due)) reason (some delivery.record.topic) failedAt)) (.ok ())
        (.sent .pending)
  | deadLetters {topic : String} {key : Option String} {value : Json} {headers : Headers}
      (reason : Option PyStr)
      (letter : IsDeadLetter deployment delivery.record topic key value headers) :
      Progress delivery token (.moved .failed reason) (.send topic key value headers) (.ok ())
        (.sent .failed)
  | completes (reason : Option PyStr) (ttl : Nat) (changed : Bool) :
      Progress delivery token (.moved .completed reason)
        (.evalComplete delivery.guard token ttl) (.ok changed) (.closed .completed)
  | loses (aim : OrderStatus) (reason : Option PyStr) :
      Progress delivery token (.towards aim reason) (.selectOrder delivery.event.orderId) (.ok none)
        .absent
  | rereads (aim : OrderStatus) (reason : Option PyStr) (row : OrderRow) :
      Progress delivery token (.towards aim reason) (.selectOrder delivery.event.orderId)
        (.ok (some row)) (.read aim reason row)
  | deadLettersAbsent {topic : String} {key : Option String} {value : Json} {headers : Headers}
      (letter : IsDeadLetter deployment delivery.record topic key value headers) :
      Progress delivery token .absent (.send topic key value headers) (.ok ()) (.sent .failed)
  | releases (changed : Bool) :
      Progress delivery token (.sent .pending) (.evalRelease delivery.guard token) (.ok changed)
        (.closed .retried)
  | seals (ttl : Nat) (changed : Bool) :
      Progress delivery token (.sent .failed) (.evalComplete delivery.guard token ttl) (.ok changed)
        (.closed .failed)
  | stays {op : Op} {outcome : Outcome Exn op.Reply} (phase : Phase) (idle : op.idle = true) :
      Progress delivery token phase op outcome phase
  | aborts {op : Op} {outcome : Outcome Exn op.Reply} (phase : Phase)
      (permitted : phase.allowed delivery token op)
      (failed : (∀ value, outcome ≠ .ok value) ∨ op = .rollback) :
      Progress delivery token phase op outcome .aborting

variable {delivery : Delivery deployment} {token : String} {op : Op} {outcome : Outcome Exn op.Reply}

theorem moved_progress {aim : OrderStatus} {reason : Option PyStr}
    (permitted : allowed delivery token (.moved aim reason) op) :
    Progress delivery token (.moved aim reason) op outcome
      (next delivery (.moved aim reason) op outcome) := by
  cases op with
  | set key value ttl =>
    cases key with
    | order orderId => cases aim <;> cases outcome <;> exact .stays _ rfl
    | _ => cases aim <;> exact permitted.elim
  | fulfil event =>
    cases aim with
    | processing =>
      obtain rfl := permitted
      exact .fulfils reason outcome
    | _ => exact permitted.elim
  | time =>
    cases aim with
    | pending =>
      rcases outcome with now | error | error
      · exact .stays _ rfl
      · exact .aborts _ permitted (.inl (by rintro _ ⟨⟩))
      · exact .aborts _ permitted (.inl (by rintro _ ⟨⟩))
    | _ => exact permitted.elim
  | utcnow =>
    rcases outcome with now | error | error
    · cases aim <;> exact .stays _ rfl
    · cases aim <;> exact .aborts _ permitted (.inl (by rintro _ ⟨⟩))
    · cases aim <;> exact .aborts _ permitted (.inl (by rintro _ ⟨⟩))
  | send topic key value headers =>
    cases aim with
    | pending =>
      obtain ⟨rfl, rfl, rfl, due, failedAt, rfl⟩ := permitted
      rcases outcome with ⟨⟩ | error | error
      · exact .retries ..
      · exact .aborts _ ⟨rfl, rfl, rfl, due, failedAt, rfl⟩ (.inl (by rintro _ ⟨⟩))
      · exact .aborts _ ⟨rfl, rfl, rfl, due, failedAt, rfl⟩ (.inl (by rintro _ ⟨⟩))
    | failed =>
      rcases outcome with ⟨⟩ | error | error
      · exact .deadLetters reason permitted
      · exact .aborts _ permitted (.inl (by rintro _ ⟨⟩))
      · exact .aborts _ permitted (.inl (by rintro _ ⟨⟩))
    | _ => exact permitted.elim
  | evalComplete key written ttl =>
    cases aim with
    | completed =>
      obtain ⟨rfl, rfl⟩ := permitted
      rcases outcome with changed | error | error
      · exact .completes ..
      · exact .aborts _ ⟨rfl, rfl⟩ (.inl (by rintro _ ⟨⟩))
      · exact .aborts _ ⟨rfl, rfl⟩ (.inl (by rintro _ ⟨⟩))
    | _ => exact permitted.elim
  | _ => cases aim <;> exact permitted.elim

theorem towards_progress {aim : OrderStatus} {reason : Option PyStr}
    (permitted : allowed delivery token (.towards aim reason) op)
    (notRelease : ∀ key written, op ≠ .evalRelease key written) :
    Progress delivery token (.towards aim reason) op outcome
      (next delivery (.towards aim reason) op outcome) := by
  cases op with
  | selectOrder id =>
    obtain rfl : id = delivery.event.orderId := by cases aim <;> exact permitted
    rcases outcome with (_ | row) | error | error
    · cases aim <;> exact .loses ..
    · cases aim <;> exact .rereads ..
    · cases aim <;> exact .aborts _ rfl (.inl (by rintro _ ⟨⟩))
    · cases aim <;> exact .aborts _ rfl (.inl (by rintro _ ⟨⟩))
  | uniform low high =>
    cases aim with
    | pending =>
      rcases outcome with drawn | error | error
      · exact .stays _ rfl
      · exact .aborts _ permitted (.inl (by rintro _ ⟨⟩))
      · exact .aborts _ permitted (.inl (by rintro _ ⟨⟩))
    | _ => exact permitted.elim
  | evalRelease key written => exact absurd rfl (notRelease key written)
  | _ => cases aim <;> exact permitted.elim

theorem progress {phase : Phase} (permitted : phase.allowed delivery token op)
    (notRelease : ∀ key written aim reason, op = .evalRelease key written →
      phase ≠ .aborting ∧ phase ≠ .towards aim reason)
    (notReturn : ∀ name record result, op ≠ .handleReturn name record result) :
    Progress delivery token phase op outcome (phase.next delivery op outcome) := by
  cases phase with
  | moved aim reason => exact moved_progress permitted
  | towards aim reason =>
    refine towards_progress permitted ?_
    rintro key written rfl
    exact (notRelease key written aim reason rfl).2 rfl
  | acquired =>
    cases op with
    | selectOrder id =>
      obtain rfl := permitted
      rcases outcome with (_ | row) | error | error
      · exact .misses
      · exact .checks row
      · exact .aborts _ rfl (.inl (by rintro _ ⟨⟩))
      · exact .aborts _ rfl (.inl (by rintro _ ⟨⟩))
    | _ => exact permitted.elim
  | missing =>
    cases op with
    | evalComplete key written ttl =>
      obtain ⟨rfl, rfl⟩ := permitted
      rcases outcome with changed | error | error
      · exact .tombs ..
      · exact .aborts _ ⟨rfl, rfl⟩ (.inl (by rintro _ ⟨⟩))
      · exact .aborts _ ⟨rfl, rfl⟩ (.inl (by rintro _ ⟨⟩))
    | _ => exact permitted.elim
  | buried =>
    cases op with
    | utcnow =>
      rcases outcome with now | error | error
      · exact .stays _ rfl
      · exact .aborts _ permitted (.inl (by rintro _ ⟨⟩))
      · exact .aborts _ permitted (.inl (by rintro _ ⟨⟩))
    | send topic key value headers =>
      rcases outcome with ⟨⟩ | error | error
      · exact .buries permitted
      · exact .aborts _ permitted (.inl (by rintro _ ⟨⟩))
      · exact .aborts _ permitted (.inl (by rintro _ ⟨⟩))
    | _ => exact permitted.elim
  | skipping =>
    cases op with
    | selectTransitions id =>
      rcases outcome with hops | error | error
      · exact .stays _ rfl
      · exact .aborts _ permitted (.inl (by rintro _ ⟨⟩))
      · exact .aborts _ permitted (.inl (by rintro _ ⟨⟩))
    | evalComplete key written ttl =>
      obtain ⟨rfl, rfl⟩ := permitted
      rcases outcome with changed | error | error
      · exact .ends ..
      · exact .aborts _ ⟨rfl, rfl⟩ (.inl (by rintro _ ⟨⟩))
      · exact .aborts _ ⟨rfl, rfl⟩ (.inl (by rintro _ ⟨⟩))
    | _ => exact permitted.elim
  | read aim reason row =>
    cases op with
    | selectTransitions id =>
      rcases outcome with hops | error | error
      · exact .stays _ rfl
      · exact .aborts _ permitted (.inl (by rintro _ ⟨⟩))
      · exact .aborts _ permitted (.inl (by rintro _ ⟨⟩))
    | flush writes =>
      rcases outcome with hop | error | error
      · exact .stays _ rfl
      · exact .aborts _ permitted (.inl (by rintro _ ⟨⟩))
      · exact .aborts _ permitted (.inl (by rintro _ ⟨⟩))
    | commit writes =>
      obtain ⟨note, hop, rfl⟩ := permitted
      rcases outcome with ⟨⟩ | error | error
      · exact .writes ..
      · exact .aborts _ ⟨note, hop, rfl⟩ (.inl (by rintro _ ⟨⟩))
      · exact .aborts _ ⟨note, hop, rfl⟩ (.inl (by rintro _ ⟨⟩))
    | _ => exact permitted.elim
  | absent =>
    cases op with
    | rollback => exact .aborts _ permitted (.inr rfl)
    | commit writes =>
      obtain rfl := permitted
      rcases outcome with ⟨⟩ | error | error
      · exact .stays _ rfl
      · exact .aborts _ rfl (.inl (by rintro _ ⟨⟩))
      · exact .aborts _ rfl (.inl (by rintro _ ⟨⟩))
    | utcnow =>
      rcases outcome with now | error | error
      · exact .stays _ rfl
      · exact .aborts _ permitted (.inl (by rintro _ ⟨⟩))
      · exact .aborts _ permitted (.inl (by rintro _ ⟨⟩))
    | send topic key value headers =>
      rcases outcome with ⟨⟩ | error | error
      · exact .deadLettersAbsent permitted
      · exact .aborts _ permitted (.inl (by rintro _ ⟨⟩))
      · exact .aborts _ permitted (.inl (by rintro _ ⟨⟩))
    | _ => exact permitted.elim
  | sent aim =>
    cases op with
    | evalRelease key written =>
      cases aim with
      | pending =>
        obtain ⟨rfl, rfl⟩ := permitted
        rcases outcome with changed | error | error
        · exact .releases changed
        · exact .aborts _ ⟨rfl, rfl⟩ (.inl (by rintro _ ⟨⟩))
        · exact .aborts _ ⟨rfl, rfl⟩ (.inl (by rintro _ ⟨⟩))
      | _ => exact permitted.elim
    | evalComplete key written ttl =>
      cases aim with
      | failed =>
        obtain ⟨rfl, rfl⟩ := permitted
        rcases outcome with changed | error | error
        · exact .seals ..
        · exact .aborts _ ⟨rfl, rfl⟩ (.inl (by rintro _ ⟨⟩))
        · exact .aborts _ ⟨rfl, rfl⟩ (.inl (by rintro _ ⟨⟩))
      | _ => exact permitted.elim
    | _ => cases aim <;> exact permitted.elim
  | closed verdict =>
    cases op with
    | hincrby field amount => exact .stays _ rfl
    | commit writes =>
      obtain rfl := permitted
      rcases outcome with ⟨⟩ | error | error
      · exact .stays _ rfl
      · exact .aborts _ rfl (.inl (by rintro _ ⟨⟩))
      · exact .aborts _ rfl (.inl (by rintro _ ⟨⟩))
    | handleReturn name record result => exact absurd rfl (notReturn name record result)
    | _ => exact permitted.elim
  | aborting =>
    cases op with
    | rollback => cases outcome <;> exact .stays _ rfl
    | evalRelease key written => exact absurd rfl (notRelease key written .pending none rfl).1
    | _ => exact permitted.elim

end Phase

namespace Stage

/-- The record whose `handle` call the thread is in. -/
def record : Stage deployment → Option ConsumerRecord
  | .outside => none
  | .submitting _ => none
  | .reading => none
  | .entered record => some record
  | .claiming delivery _ _ => some delivery.record
  | .holding delivery _ _ => some delivery.record
  | .settled record _ => some record
  | .relaying record => some record
  | .relayed record => some record
  | .archiving record => some record
  | .leaving record => some record

inductive Progress : Stage deployment → (op : Op) → Outcome Exn op.Reply → Stage deployment →
    Prop where
  | idles {op : Op} {outcome : Outcome Exn op.Reply}
      (permitted : allowed deployment .outside op) : Progress .outside op outcome .outside
  | called (name : String) (record : ConsumerRecord) :
      Progress .outside (.handleCall name record) (.ok ()) (called deployment name record)
  | submits {op : Op} {outcome : Outcome Exn op.Reply} (submission later : Submission)
      (moved : submission.Progress deployment op outcome later) :
      Progress (.submitting submission) op outcome (.submitting later)
  | reads {op : Op} {outcome : Outcome Exn op.Reply} (permitted : allowed deployment .reading op) :
      Progress .reading op outcome .reading
  | prepares {op : Op} {outcome : Outcome Exn op.Reply} (record : ConsumerRecord)
      (quiet : op = .utcnow ∨ ∃ field amount, op = .hincrby field amount) :
      Progress (.entered record) op outcome (.entered record)
  | draws (delivery : Delivery deployment) (id : Uuid) :
      Progress (.entered delivery.record) .uuid4 (.ok id) (.claiming delivery id.hex false)
  | rejects {topic : String} {key : Option String} {value : Json} {headers : Headers}
      (record : ConsumerRecord) (text : PyStr)
      (letter : Phase.IsDeadLetter deployment record topic key value headers)
      (invalid : deployment.platform.modelValidate record.value = .error text) :
      Progress (.entered record) (.send topic key value headers) (.ok ())
        (.settled record .undecodable)
  | acquires (delivery : Delivery deployment) (token : String) (taken : Bool) (ttl : Nat) :
      Progress (.claiming delivery token taken) (.setNx delivery.guard token ttl) (.ok true)
        (.holding delivery token .acquired)
  | refused (delivery : Delivery deployment) (token : String) (taken : Bool) (ttl : Nat) :
      Progress (.claiming delivery token taken) (.setNx delivery.guard token ttl) (.ok false)
        (.claiming delivery token taken)
  | skips (delivery : Delivery deployment) (token : String) (taken : Bool) :
      Progress (.claiming delivery token taken) (.get delivery.guard) (.ok (some done))
        (.settled delivery.record .duplicate)
  | sees (delivery : Delivery deployment) (token : String) (taken : Bool)
      (current : Option String) (other : current ≠ some done) :
      Progress (.claiming delivery token taken) (.get delivery.guard) (.ok current)
        (.claiming delivery token true)
  | waits (delivery : Delivery deployment) (token : String) (seconds : ℚ) :
      Progress (.claiming delivery token true) (.sleep seconds) (.ok ())
        (.claiming delivery token true)
  | proceeds {op : Op} {outcome : Outcome Exn op.Reply} (delivery : Delivery deployment)
      (token : String) (phase later : Phase) (moved : phase.Progress delivery token op outcome later) :
      Progress (.holding delivery token phase) op outcome (.holding delivery token later)
  | releases {outcome : Outcome Exn Bool} (delivery : Delivery deployment) (token : String)
      (phase : Phase) (gaveUp : phase = .aborting ∨ ∃ reason, phase = .towards .pending reason) :
      Progress (.holding delivery token phase) (.evalRelease delivery.guard token) outcome
        (.leaving delivery.record)
  | counts {outcome : Outcome Exn Unit} (record : ConsumerRecord) (verdict : Verdict)
      (field : String) (amount : Int) :
      Progress (.settled record verdict) (.hincrby field amount) outcome (.settled record verdict)
  | delays {op : Op} {outcome : Outcome Exn op.Reply} (record : ConsumerRecord)
      (quiet : op = .time ∨ ∃ seconds, op = .sleep seconds) :
      Progress (.relaying record) op outcome (.relaying record)
  | relays (record : ConsumerRecord) :
      Progress (.relaying record) (.send deployment.settings.topicOrders record.key record.value
        (Headers.build deployment.platform record.headers.getAttempt none
          (record.headers.getError.map py) none "")) (.ok ()) (.relayed record)
  | archives {op : Op} {outcome : Outcome Exn op.Reply} (record : ConsumerRecord)
      (permitted : allowed deployment (.archiving record) op) :
      Progress (.archiving record) op outcome (.archiving record)
  | returns {outcome : Outcome Exn Unit} (stage : Stage deployment) (name : String)
      (record : ConsumerRecord) (result : Option Ack)
      (permitted : stage.allowed deployment (.handleReturn name record result)) :
      Progress stage (.handleReturn name record result) outcome .outside
  | fails {op : Op} {outcome : Outcome Exn op.Reply} (stage : Stage deployment)
      (record : ConsumerRecord) (inCall : stage = .outside ∧ (∃ name, op = .handleCall name record) ∨
        stage.record = some record) (permitted : stage.allowed deployment op)
      (notHolding : ∀ delivery token phase, stage = .holding delivery token phase →
        ∃ verdict, phase = .closed verdict) :
      Progress stage op outcome (.leaving record)

variable {op : Op} {outcome : Outcome Exn op.Reply}

theorem outside_progress (permitted : allowed deployment .outside op) :
    Progress .outside op outcome (outsideNext deployment op outcome) := by
  unfold outsideNext
  split
  · exact .called ..
  · exact .fails _ _ (.inl ⟨rfl, _, rfl⟩) permitted (by rintro _ _ _ ⟨⟩)
  · exact .idles permitted

theorem entered_progress {record : ConsumerRecord}
    (permitted : allowed deployment (.entered record) op) :
    Progress (.entered record) op outcome (enteredNext deployment record op outcome) := by
  unfold enteredNext
  split
  · exact .prepares record (.inr ⟨_, _, rfl⟩)
  · exact .prepares record (.inl rfl)
  · split
    · rename_i event valid
      exact .draws ⟨record, event, valid⟩ _
    · exact .fails _ record (.inr rfl) permitted (by rintro _ _ _ ⟨⟩)
  · obtain ⟨letter, text, invalid⟩ := permitted
    exact .rejects record text letter invalid
  · exact .fails _ record (.inr rfl) permitted (by rintro _ _ _ ⟨⟩)

theorem claiming_progress {delivery : Delivery deployment} {token : String} {taken : Bool}
    (permitted : allowed deployment (.claiming delivery token taken) op) :
    Progress (.claiming delivery token taken) op outcome
      (claimingNext delivery token taken op outcome) := by
  unfold claimingNext
  split
  · obtain ⟨rfl, rfl⟩ := permitted
    split
    · rename_i won
      subst won
      exact .acquires ..
    · rename_i lost
      obtain rfl := Bool.eq_false_iff.mpr lost
      exact .refused ..
  · obtain rfl := permitted
    split
    · rename_i tombstone
      subst tombstone
      exact .skips ..
    · rename_i other
      exact .sees _ _ _ _ other
  · obtain rfl : taken = true := permitted
    exact .waits ..
  · exact .returns _ _ _ _ permitted
  · exact .fails _ _ (.inr rfl) permitted (by rintro _ _ _ ⟨⟩)

theorem holding_progress {delivery : Delivery deployment} {token : String} {phase : Phase}
    (permitted : phase.allowed delivery token op) :
    Progress (.holding delivery token phase) op outcome
      (holdingNext delivery token phase op outcome) := by
  unfold holdingNext
  split
  · exact .returns _ _ _ _ permitted
  · refine .fails _ _ (.inr rfl) permitted ?_
    rintro _ _ _ ⟨⟩
    exact ⟨_, rfl⟩
  · obtain ⟨rfl, rfl⟩ := permitted
    exact .releases _ _ _ (.inl rfl)
  · rename_i aim reason _ _ _
    cases aim with
    | pending =>
      obtain ⟨rfl, rfl⟩ := permitted
      exact .releases _ _ _ (.inr ⟨_, rfl⟩)
    | _ => exact permitted.elim
  · rename_i _ closing giving towards
    refine .proceeds _ _ _ _ (Phase.progress permitted ?_ ?_)
    · rintro key written aim reason rfl
      exact ⟨fun same => giving _ _ _ same rfl HEq.rfl,
        fun same => towards _ _ _ _ _ same rfl HEq.rfl⟩
    · rintro name record result rfl
      cases phase with
      | closed verdict =>
        exact closing _ _ _ _ _ rfl rfl HEq.rfl
      | moved aim reason | towards aim reason | sent aim => cases aim <;> exact permitted.elim
      | _ => exact permitted.elim

/-- Every permitted operation makes one of the moves. -/
theorem progress {stage : Stage deployment} (permitted : stage.allowed deployment op) :
    Progress stage op outcome (stage.next deployment op outcome) := by
  cases stage with
  | outside => exact outside_progress permitted
  | submitting submission => exact .submits _ _ (Submission.progress permitted)
  | reading => exact .reads permitted
  | entered record => exact entered_progress permitted
  | claiming delivery token taken => exact claiming_progress permitted
  | holding delivery token phase => exact holding_progress permitted
  | settled record verdict =>
    show Progress _ _ _ (settledNext record verdict op outcome)
    unfold settledNext
    split
    · exact .counts ..
    · exact .returns _ _ _ _ permitted
    · exact .fails _ _ (.inr rfl) permitted (by rintro _ _ _ ⟨⟩)
  | relaying record =>
    show Progress _ _ _ (relayingNext record op outcome)
    unfold relayingNext
    split
    · exact .delays _ (.inl rfl)
    · exact .delays _ (.inr ⟨_, rfl⟩)
    · obtain ⟨rfl, rfl, rfl, rfl⟩ := permitted
      exact .relays record
    · exact .fails _ _ (.inr rfl) permitted (by rintro _ _ _ ⟨⟩)
  | relayed record =>
    show Progress _ _ _ (relayedNext record op outcome)
    unfold relayedNext
    split
    · exact .returns _ _ _ _ permitted
    · exact .fails _ _ (.inr rfl) permitted (by rintro _ _ _ ⟨⟩)
  | archiving record =>
    show Progress _ _ _ (archivingNext record op outcome)
    unfold archivingNext
    split
    · exact .returns _ _ _ _ permitted
    · exact .returns _ _ _ _ permitted
    · exact .archives _ permitted
  | leaving record =>
    show Progress _ _ _ (leavingNext record op outcome)
    unfold leavingNext
    split
    · exact .returns _ _ _ _ permitted
    · exact .fails _ _ (.inr rfl) permitted (by rintro _ _ _ ⟨⟩)

/-- The delivery whose token the thread has drawn. -/
def carries : Stage deployment → Option (Delivery deployment × String)
  | .claiming delivery token _ => some (delivery, token)
  | .holding delivery token _ => some (delivery, token)
  | _ => none

theorem called_carries (name : String) (record : ConsumerRecord) :
    (called deployment name record).carries = none := by
  simp only [called]
  split
  · rfl
  · split <;> rfl

theorem Progress.carries {before later : Stage deployment} (moved : Progress before op outcome later)
    {delivery : Delivery deployment} {token : String}
    (carried : later.carries = some (delivery, token)) :
    before.carries = some (delivery, token) ∨
      before = .entered delivery.record ∧ ∃ id, Draws op outcome id ∧ token = id.hex := by
  cases moved with
  | called name record =>
    rw [called_carries] at carried
    cases carried
  | draws other id =>
    cases carried
    exact .inr ⟨rfl, id, rfl, rfl⟩
  | acquires | refused | sees | waits | proceeds => exact .inl carried
  | _ => cases carried

end Stage

theorem Acts.progress {pool after : Pipeline} {thread : Nat} {op : Op}
    {outcome : Outcome Exn op.Reply} (act : Acts deployment pool after thread op outcome) :
    Stage.Progress (stage deployment pool thread) op outcome (stage deployment after thread) := by
  rw [act.own]
  exact Stage.progress act.permitted

/-- A delivery's event is what its record is read as. -/
theorem delivery_event_eq {delivery : Delivery deployment} {record : ConsumerRecord}
    {event : OrderEvent} (valid : deployment.platform.modelValidate record.value = .ok event)
    (same : delivery.record = record) : delivery.event = event := by
  have read := delivery.valid
  rw [same, valid] at read
  exact (Except.ok.inj read).symm

end OrderFlow
