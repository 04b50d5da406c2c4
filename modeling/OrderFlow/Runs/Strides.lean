import OrderFlow.Ladder
import OrderFlow.Runs.Apart
import OrderFlow.Runs.Outcomes

/-!
One call on a record of the ladder's event. On each rung there is one record the
ladder waits for; its call climbs, and the calls on earlier records only leave.
-/
namespace OrderFlow
open AsyncCoroutine AsyncPool

variable {deployment : Deployment} {allows : Pipeline → Moment → Prop} {pool after : Pipeline}
  {thread : Nat} {op : Op} {outcome : Outcome Exn op.Reply} {event : OrderEvent}
  {record : ConsumerRecord}

/-- The operation came back; `fulfil` may have raised one of its two errors. -/
def Answered : (op : Op) → Outcome Exn op.Reply → Prop
  | .fulfil _, outcome => Concludes outcome.reply
  | _, outcome => ∃ value, outcome = .ok value

/-- The operation neither writes tables nor publishes, works on no order and bounds no call. -/
def Op.still : Op → Bool
  | .commit writes => writes.isEmpty
  | .send _ _ _ _ | .fulfil _ | .handleCall _ _ | .handleReturn _ _ _ => false
  | _ => true

/-- The phases of a delivery that has finished its order, or the guard after it. -/
def Phase.ending : Phase → Bool
  | .moved .completed _ => true
  | .sent .failed => true
  | .closed .completed => true
  | .closed .failed => true
  | _ => false

theorem Phase.leaving_decided (phase : Phase)
    (leaves : phase.resent = true ∨ phase.ending = true) : phase.deciding = false := by
  cases phase with
  | moved aim reason =>
    cases aim with
    | processing => rcases leaves with resent | ending <;> contradiction
    | _ => rfl
  | read | towards => rcases leaves with resent | ending <;> contradiction
  | _ => rfl

namespace Rung

/-- A record waits to be taken up. -/
def idle : Rung → Bool
  | .waiting | .owed _ => true
  | _ => false

/-- The ladder goes on. -/
def live : Rung → Bool
  | .ended _ => false
  | _ => true

/-- Whose record the ladder stands at. -/
def consumer : Rung → Consumer
  | .owed _ => .retry
  | _ => .processor

/-- Where the call on the ladder's record may be. -/
def Suits : Rung → Stage deployment → Prop
  | .waiting, .entered _ => True
  | .waiting, .claiming _ _ _ => True
  | .waiting, .holding _ _ .acquired => True
  | .waiting, .holding _ _ (.read .processing _ _) => True
  | .begun, .holding _ _ (.moved .processing _) => True
  | .answered result, .holding delivery _ (.towards aim reason) =>
      Phase.decide delivery result = .towards aim reason
  | .answered result, .holding delivery _ (.read aim reason _) =>
      Phase.decide delivery result = .towards aim reason
  | .rescheduled _, .holding _ _ (.moved .pending _) => True
  | .condemned _, .holding _ _ (.moved .failed _) => True
  | .owed _, .relaying _ => True
  | _, _ => False

/-- Where the calls on the other records of the event may be. -/
def Leaves (rung : Rung) : Stage deployment → Prop
  | .holding _ _ phase => phase.resent = true ∨ rung.live = false ∧ phase.ending = true
  | .relayed _ => True
  | _ => False

end Rung

/-- A delivery that is about to set the tombstone is on no rung and resends nothing. -/
theorem Rung.not_completing {rung : Rung} (delivery : Delivery deployment) (token : String)
    {phase : Phase} {verdict : Verdict} (completes : phase.completing = some verdict) :
    ¬ rung.Suits (.holding delivery token phase) ∧ phase.resent = false := by
  cases phase with
  | missing | skipping => exact ⟨by cases rung <;> exact id, rfl⟩
  | moved aim reason =>
    cases aim with
    | completed => exact ⟨by cases rung <;> exact id, rfl⟩
    | _ => cases completes
  | sent aim =>
    cases aim with
    | failed => exact ⟨by cases rung <;> exact id, rfl⟩
    | _ => cases completes
  | _ => cases completes

/-- What the call on the ladder's record does next. -/
inductive Stride (deployment : Deployment) : Rung → Stage deployment → (op : Op) →
    Outcome Exn op.Reply → Stage deployment → Prop where
  | lingers {rung : Rung} {op : Op} {outcome : Outcome Exn op.Reply} {before later : Stage deployment}
      (still : op.still = true) (stays : later.record = before.record) (suits : rung.Suits later) :
      Stride deployment rung before op outcome later
  | withdraws {name : String} (delivery : Delivery deployment) (token : String) (taken : Bool)
      (record : ConsumerRecord) : Stride deployment .waiting (.claiming delivery token taken)
        (.handleReturn name record (some .redeliver)) (.ok ()) .outside
  | begins (delivery : Delivery deployment) (token : String) (reason : Option PyStr)
      (row : OrderRow) (note : PyStr) (hop : Nat) :
      Stride deployment .waiting (.holding delivery token (.read .processing reason row))
        (.commit (Repository.transitionWrites row
          (Repository.transitionRow row .processing delivery.attempt reason) (some note) hop))
        (.ok ()) (.holding delivery token (.moved .processing reason))
  | answers (delivery : Delivery deployment) (token : String) (reason : Option PyStr)
      (outcome : Outcome Exn Unit) (concludes : Concludes outcome.reply) :
      Stride deployment .begun (.holding delivery token (.moved .processing reason))
        (.fulfil delivery.event) outcome
        (.holding delivery token (Phase.decide delivery outcome.reply))
  | decides {result : Except Exn Unit} (delivery : Delivery deployment) (token : String)
      (aim : OrderStatus) (reason : Option PyStr) (row : OrderRow) (note : PyStr) (hop : Nat)
      (leads : Phase.decide delivery result = .towards aim reason) :
      Stride deployment (.answered result) (.holding delivery token (.read aim reason row))
        (.commit (Repository.transitionWrites row
          (Repository.transitionRow row aim delivery.attempt reason) (some note) hop))
        (.ok ()) (.holding delivery token (.moved aim reason))
  | resends {result : Except Exn Unit} (delivery : Delivery deployment) (token : String)
      (reason : Option PyStr) (due : ℚ) (failedAt : String) :
      Stride deployment (.rescheduled result) (.holding delivery token (.moved .pending reason))
        (.send deployment.settings.topicRetry (some delivery.event.orderId.str)
          delivery.record.value (Headers.build deployment.platform (delivery.attempt + 1)
            (some (.num due)) reason (some delivery.record.topic) failedAt)) (.ok ())
        (.holding delivery token (.sent .pending))
  | buries {result : Except Exn Unit} {topic : String} {key : Option String} {value : Json}
      {headers : Headers} (delivery : Delivery deployment) (token : String) (reason : Option PyStr)
      (letter : Phase.IsDeadLetter deployment delivery.record topic key value headers) :
      Stride deployment (.condemned result) (.holding delivery token (.moved .failed reason))
        (.send topic key value headers) (.ok ()) (.holding delivery token (.sent .failed))
  | replays {result : Except Exn Unit} (record : ConsumerRecord) :
      Stride deployment (.owed result) (.relaying record)
        (.send deployment.settings.topicOrders record.key record.value
          (Headers.build deployment.platform record.headers.getAttempt none
            (record.headers.getError.map py) none "")) (.ok ()) (.relayed record)

/-- What the calls on the other records of the event do next. -/
inductive Parting (deployment : Deployment) (rung : Rung) : Stage deployment → (op : Op) →
    Outcome Exn op.Reply → Stage deployment → Prop where
  | lingers {op : Op} {outcome : Outcome Exn op.Reply} {before later : Stage deployment}
      (still : op.still = true) (stays : later.record = before.record) (leaves : rung.Leaves later) :
      Parting deployment rung before op outcome later
  | returns {before : Stage deployment} (consumer : Consumer) (record : ConsumerRecord)
      (inCall : before.record = some record) : Parting deployment rung before
        (.handleReturn consumer.name record (some .commit)) (.ok ()) .outside

/-- The call reads the row as it is, and the row is there to be worked on. -/
def Workable (pool : Pipeline) (event : OrderEvent) : Rung → Prop
  | .waiting => HasStatus pool event.orderId .pending
  | .answered _ => Known pool event.orderId
  | _ => True

section
variable (act : Acts deployment pool after thread op outcome) (answered : Answered op outcome)
include act answered

/-- A session that has read its row goes on to its commit. -/
theorem read_strides {rung : Rung} {delivery : Delivery deployment} {token : String}
    {aim : OrderStatus} {reason : Option PyStr} {row : OrderRow}
    (standing : stage deployment pool thread = .holding delivery token (.read aim reason row))
    (suits : rung.Suits (stage deployment pool thread)) :
    Stride deployment rung (stage deployment pool thread) op outcome
      (stage deployment after thread) := by
  have permitted := act.permitted
  have own := act.own
  rw [standing] at permitted own suits ⊢
  cases op with
  | selectTransitions id =>
    obtain ⟨trail, rfl⟩ := answered
    rw [own]
    exact .lingers rfl rfl suits
  | flush writes =>
    obtain ⟨hop, rfl⟩ := answered
    rw [own]
    exact .lingers rfl rfl suits
  | commit writes =>
    obtain ⟨⟨⟩, rfl⟩ := answered
    obtain ⟨note, hop, rfl⟩ := permitted
    rw [own]
    cases rung with
    | waiting =>
      cases aim with
      | processing => exact .begins ..
      | _ => exact suits.elim
    | answered result => exact .decides _ _ _ _ _ _ _ suits
    | _ => exact suits.elim
  | _ => exact permitted.elim

theorem begun_strides {delivery : Delivery deployment} {token : String} {reason : Option PyStr}
    (standing : stage deployment pool thread = .holding delivery token (.moved .processing reason)) :
    Stride deployment .begun (stage deployment pool thread) op outcome
      (stage deployment after thread) := by
  have permitted := act.permitted
  have own := act.own
  rw [standing] at permitted own ⊢
  cases op with
  | set key text ttl =>
    cases key with
    | order orderId =>
      rw [own]
      exact .lingers rfl rfl trivial
    | _ => exact permitted.elim
  | fulfil called =>
    obtain rfl := permitted
    rw [own]
    exact .answers _ _ _ _ answered
  | _ => exact permitted.elim

theorem moved_strides {rung : Rung} {delivery : Delivery deployment} {token : String}
    {aim : OrderStatus} {reason : Option PyStr} (moved : aim = .pending ∨ aim = .failed)
    (standing : stage deployment pool thread = .holding delivery token (.moved aim reason))
    (suits : rung.Suits (stage deployment pool thread)) :
    Stride deployment rung (stage deployment pool thread) op outcome
      (stage deployment after thread) := by
  have permitted := act.permitted
  have own := act.own
  rw [standing] at permitted own suits ⊢
  cases op with
  | set key text ttl =>
    cases key with
    | order orderId =>
      have goes : stage deployment after thread = .holding delivery token (.moved aim reason) := by
        rw [own]
        cases aim <;> rfl
      rw [goes]
      exact .lingers rfl rfl suits
    | _ =>
      rcases moved with rfl | rfl
      · exact permitted.elim
      · exact permitted.elim
  | time | utcnow =>
    obtain ⟨value, rfl⟩ := answered
    have goes : stage deployment after thread = .holding delivery token (.moved aim reason) := by
      rw [own]
      cases aim <;> rfl
    rw [goes]
    exact .lingers rfl rfl suits
  | send topic key value headers =>
    obtain ⟨⟨⟩, rfl⟩ := answered
    rcases moved with rfl | rfl
    · obtain ⟨rfl, rfl, rfl, due, failedAt, rfl⟩ := permitted
      rw [own]
      cases rung with
      | rescheduled result => exact .resends ..
      | _ => exact suits.elim
    · rw [own]
      cases rung with
      | condemned result => exact .buries _ _ _ permitted
      | _ => exact suits.elim
  | _ =>
    rcases moved with rfl | rfl
    · exact permitted.elim
    · exact permitted.elim

theorem relaying_strides {result : Except Exn Unit}
    (standing : stage deployment pool thread = .relaying record) :
    Stride deployment (.owed result) (stage deployment pool thread) op outcome
      (stage deployment after thread) := by
  have permitted := act.permitted
  have own := act.own
  rw [standing] at permitted own ⊢
  cases op with
  | time | sleep =>
    obtain ⟨value, rfl⟩ := answered
    rw [own]
    exact .lingers rfl rfl trivial
  | send topic key value headers =>
    obtain ⟨⟨⟩, rfl⟩ := answered
    obtain ⟨rfl, rfl, rfl, rfl⟩ := permitted
    rw [own]
    exact .replays record
  | _ => exact permitted.elim

/-- A delivery that is done closes its guard, counts and returns COMMIT. -/
theorem done_parts {rung : Rung} {delivery : Delivery deployment} {token : String} {phase : Phase}
    (standing : stage deployment pool thread = .holding delivery token phase)
    (leaves : phase.resent = true ∨ rung.live = false ∧ phase.ending = true) :
    Parting deployment rung (stage deployment pool thread) op outcome
      (stage deployment after thread) := by
  have permitted := act.permitted
  have own := act.own
  rw [standing] at permitted own ⊢
  cases phase with
  | closed verdict =>
    cases op with
    | hincrby field amount =>
      rw [own]
      exact .lingers rfl rfl leaves
    | commit writes =>
      obtain ⟨⟨⟩, rfl⟩ := answered
      obtain rfl := permitted
      rw [own]
      exact .lingers rfl rfl leaves
    | handleReturn name returned result =>
      obtain ⟨⟨⟩, rfl⟩ := answered
      obtain ⟨rfl, rfl, rfl⟩ := permitted
      rw [own]
      exact .returns .processor _ rfl
    | _ => exact permitted.elim
  | sent aim =>
    cases aim with
    | pending =>
      cases op with
      | evalRelease key text =>
        obtain ⟨released, rfl⟩ := answered
        rw [own]
        exact .lingers rfl rfl (.inl rfl)
      | _ => exact permitted.elim
    | failed =>
      cases op with
      | evalComplete key text ttl =>
        obtain ⟨completed, rfl⟩ := answered
        rw [own]
        exact .lingers rfl rfl (leaves.imp (fun resent => by cases resent) id)
      | _ => exact permitted.elim
    | _ => rcases leaves with resent | ⟨_, ending⟩ <;> contradiction
  | moved aim reason =>
    cases aim with
    | completed =>
      cases op with
      | set key text ttl =>
        cases key with
        | order orderId =>
          rw [own]
          exact .lingers rfl rfl leaves
        | _ => exact permitted.elim
      | evalComplete key text ttl =>
        obtain ⟨completed, rfl⟩ := answered
        rw [own]
        exact .lingers rfl rfl (leaves.imp (fun resent => by cases resent) id)
      | _ => exact permitted.elim
    | _ => rcases leaves with resent | ⟨_, ending⟩ <;> contradiction
  | _ => rcases leaves with resent | ⟨_, ending⟩ <;> contradiction

/-- The calls on the other records of the event go on to return COMMIT. -/
theorem parts {rung : Rung} (leaves : rung.Leaves (stage deployment pool thread)) :
    Parting deployment rung (stage deployment pool thread) op outcome
      (stage deployment after thread) := by
  cases standing : stage deployment pool thread with
  | holding delivery token phase =>
    rw [standing] at leaves
    exact standing ▸ done_parts act answered standing leaves
  | relayed record =>
    have permitted := act.permitted
    have own := act.own
    rw [standing] at permitted own
    cases op with
    | handleReturn name returned result =>
      obtain ⟨⟨⟩, rfl⟩ := answered
      obtain ⟨rfl, rfl, rfl⟩ := permitted
      rw [own]
      exact .returns .retry _ rfl
    | _ => exact permitted.elim
  | _ =>
    rw [standing] at leaves
    exact leaves.elim

variable (valid : deployment.platform.modelValidate record.value = .ok event)
include valid

theorem entered_strides (standing : stage deployment pool thread = .entered record) :
    Stride deployment .waiting (stage deployment pool thread) op outcome
      (stage deployment after thread) := by
  have permitted := act.permitted
  have own := act.own
  rw [standing] at permitted own ⊢
  cases op with
  | hincrby field amount =>
    rw [own]
    exact .lingers rfl rfl trivial
  | utcnow =>
    obtain ⟨instant, rfl⟩ := answered
    rw [own]
    exact .lingers rfl rfl trivial
  | uuid4 =>
    obtain ⟨id, rfl⟩ := answered
    simp only [Stage.next, Stage.enteredNext] at own
    split at own
    · rw [own]
      exact .lingers rfl rfl trivial
    · rename_i invalid
      rw [valid] at invalid
      cases invalid
  | send topic key value headers =>
    obtain ⟨_, text, invalid⟩ := permitted
    rw [valid] at invalid
    cases invalid
  | _ => exact permitted.elim

variable (inCall : (stage deployment pool thread).record = some record)
include inCall

theorem claiming_strides {delivery : Delivery deployment} {token : String} {taken : Bool}
    (standing : stage deployment pool thread = .claiming delivery token taken)
    (unguarded : pool.world.redis (.eventGuard event.eventId) ≠ some done) :
    Stride deployment .waiting (stage deployment pool thread) op outcome
      (stage deployment after thread) := by
  have permitted := act.permitted
  have own := act.own
  rw [standing] at permitted own inCall ⊢
  have read : delivery.event = event := delivery_event_eq valid (Option.some.inj inCall)
  cases op with
  | setNx key text ttl =>
    obtain ⟨won, rfl⟩ := answered
    cases won with
    | true =>
      rw [own]
      exact .lingers rfl rfl trivial
    | false =>
      rw [own]
      exact .lingers rfl rfl trivial
  | get key =>
    obtain ⟨current, rfl⟩ := answered
    obtain rfl := permitted
    have reads : Gets (.get delivery.guard) (.ok current) delivery.guard current := ⟨rfl, rfl⟩
    have found := (act.gets reads).1
    rw [Delivery.guard, read] at found
    simp only [Stage.next, Stage.claimingNext] at own
    split at own
    · rename_i tombstone
      exact absurd (found.trans tombstone) unguarded
    · rw [own]
      exact .lingers rfl rfl trivial
  | sleep seconds =>
    obtain ⟨_, rfl⟩ := answered
    rw [own]
    exact .lingers rfl rfl trivial
  | handleReturn name returned result =>
    obtain ⟨⟨⟩, rfl⟩ := answered
    obtain ⟨_, rfl, rfl, rfl⟩ := permitted
    rw [own]
    exact .withdraws ..
  | _ => exact permitted.elim

theorem acquired_strides {delivery : Delivery deployment} {token : String}
    (standing : stage deployment pool thread = .holding delivery token .acquired)
    (workable : HasStatus pool event.orderId .pending) :
    Stride deployment .waiting (stage deployment pool thread) op outcome
      (stage deployment after thread) := by
  have permitted := act.permitted
  have own := act.own
  rw [standing] at permitted own inCall ⊢
  have read : delivery.event = event := delivery_event_eq valid (Option.some.inj inCall)
  cases op with
  | selectOrder id =>
    obtain ⟨found, rfl⟩ := answered
    obtain rfl := permitted
    have selects : Selects (.selectOrder delivery.event.orderId) (.ok found) delivery.event.orderId
        found := ⟨rfl, rfl⟩
    have stood := (act.selects selects).1
    obtain ⟨row, there, pending⟩ := workable
    rw [read, there] at stood
    subst stood
    have goes : stage deployment after thread =
        .holding delivery token (.read .processing none row) := by
      rw [own]
      simp only [Stage.next, Stage.holdingNext, Phase.next, Phase.checked, pending,
        OrderStatus.terminal, Bool.false_eq_true, if_false]
    rw [goes]
    exact .lingers rfl rfl trivial
  | _ => exact permitted.elim

theorem towards_strides {result : Except Exn Unit} {delivery : Delivery deployment}
    {token : String} {aim : OrderStatus} {reason : Option PyStr}
    (standing : stage deployment pool thread = .holding delivery token (.towards aim reason))
    (leads : Phase.decide delivery result = .towards aim reason)
    (workable : Known pool event.orderId)
    (delayed : ∀ key text, op ≠ .evalRelease key text) :
    Stride deployment (.answered result) (stage deployment pool thread) op outcome
      (stage deployment after thread) := by
  have permitted := act.permitted
  have own := act.own
  rw [standing] at permitted own inCall ⊢
  have read : delivery.event = event := delivery_event_eq valid (Option.some.inj inCall)
  cases op with
  | uniform low high =>
    obtain ⟨draw, rfl⟩ := answered
    cases aim with
    | pending =>
      rw [own]
      exact .lingers rfl rfl leads
    | _ => exact permitted.elim
  | evalRelease key text => exact absurd rfl (delayed key text)
  | selectOrder id =>
    obtain ⟨found, rfl⟩ := answered
    have same : id = delivery.event.orderId := by
      cases aim <;> exact permitted
    subst same
    have selects : Selects (.selectOrder delivery.event.orderId) (.ok found) delivery.event.orderId
        found := ⟨rfl, rfl⟩
    have stood := (act.selects selects).1
    obtain ⟨row, there⟩ := workable
    rw [read, there] at stood
    subst stood
    have goes : stage deployment after thread = .holding delivery token (.read aim reason row) := by
      rw [own]
      rfl
    rw [goes]
    exact .lingers rfl rfl leads
  | _ => cases aim <;> exact permitted.elim

/-- The call on the ladder's record climbs, lingers on its rung or leaves the record waiting. -/
theorem strides {rung : Rung} (suits : rung.Suits (stage deployment pool thread))
    (workable : Workable pool event rung)
    (unguarded : pool.world.redis (.eventGuard event.eventId) ≠ some done)
    (delayed : ∀ delivery token reason,
      stage deployment pool thread = .holding delivery token (.towards .pending reason) →
        ∀ key text, op ≠ .evalRelease key text) :
    Stride deployment rung (stage deployment pool thread) op outcome
      (stage deployment after thread) := by
  cases standing : stage deployment pool thread with
  | entered handled =>
    have same := inCall
    rw [standing] at same suits
    cases same
    cases rung with
    | waiting => exact standing ▸ entered_strides act answered valid standing
    | _ => exact suits.elim
  | claiming delivery token taken =>
    rw [standing] at suits
    cases rung with
    | waiting => exact standing ▸ claiming_strides act answered valid inCall standing unguarded
    | _ => exact suits.elim
  | relaying handled =>
    have same := inCall
    rw [standing] at same suits
    cases same
    cases rung with
    | owed result => exact standing ▸ relaying_strides act answered standing
    | _ => exact suits.elim
  | holding delivery token phase =>
    cases phase with
    | acquired =>
      rw [standing] at suits
      cases rung with
      | waiting => exact standing ▸ acquired_strides act answered valid inCall standing workable
      | _ => exact suits.elim
    | read aim reason row => exact standing ▸ read_strides act answered standing suits
    | towards aim reason =>
      rw [standing] at suits
      cases rung with
      | answered result =>
        refine standing ▸ towards_strides act answered valid inCall standing suits workable ?_
        intro key text same
        subst same
        have permitted := act.permitted
        rw [standing] at permitted
        cases aim with
        | pending => exact delayed delivery token reason standing key text rfl
        | _ => exact permitted.elim
      | _ => exact suits.elim
    | moved aim reason =>
      have moves := suits
      rw [standing] at moves
      cases aim with
      | processing =>
        cases rung with
        | begun => exact standing ▸ begun_strides act answered standing
        | _ => exact moves.elim
      | completed => cases rung <;> exact moves.elim
      | pending =>
        exact standing ▸ moved_strides act answered (.inl rfl) standing suits
      | failed =>
        exact standing ▸ moved_strides act answered (.inr rfl) standing suits
    | _ =>
      rw [standing] at suits
      cases rung <;> exact suits.elim
  | _ =>
    rw [standing] at suits
    cases rung <;> exact suits.elim

end

end OrderFlow
