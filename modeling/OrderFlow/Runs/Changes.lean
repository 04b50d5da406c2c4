import OrderFlow.Runs.Fresh

/-!
Who can change what. Each part of the stores that an invariant speaks of is
changed in few stages, and the stage says how.
-/
namespace OrderFlow
open AsyncCoroutine AsyncPool

variable {deployment : Deployment} {pool after : Pipeline} {thread : Nat} {op : Op}
  {outcome : Outcome Exn op.Reply}

/-- The thread committed the insert of this order. -/
def Inserted (trace : List Moment) (thread : Nat) (id : Uuid) : Prop :=
  ∃ payload hop outcome, Label.did thread
    (.commit (Repository.createWrites (Repository.newRow payload id) hop)) outcome ∈ trace ∧
    outcome.Took ()

/-- How one operation changes the order rows. -/
inductive OrdersChange (deployment : Deployment) (pool after : Pipeline) (thread : Nat)
    (op : Op) : Prop where
  | same (orders : after.world.orders = pool.world.orders)
  | inserted (payload : OrderCreate) (key : Option String) (id : Uuid)
      (before : stage deployment pool thread = .submitting (.drawn payload key id))
      (later : stage deployment after thread = .submitting (Submission.saved payload key id) ∨
        stage deployment after thread = .submitting .broken)
      (orders : after.world.orders =
        Function.update pool.world.orders id (some (Repository.newRow payload id)))
      (wrote : Inserted after.trace thread id)
  | updated (delivery : Delivery deployment) (token : String) (aim : OrderStatus)
      (reason : Option PyStr) (row : OrderRow) (note : PyStr) (hop : Nat)
      (commits : op = .commit (Repository.transitionWrites row
        (Repository.transitionRow row aim delivery.attempt reason) (some note) hop))
      (before : stage deployment pool thread = .holding delivery token (.read aim reason row))
      (later : stage deployment after thread = .holding delivery token (.moved aim reason) ∨
        stage deployment after thread = .holding delivery token .aborting)
      (orders : after.world.orders = Function.update pool.world.orders row.id
        ((pool.world.orders row.id).map (Repository.changesOf row
          (Repository.transitionRow row aim delivery.attempt reason)).apply))

theorem orders_change (act : Acts deployment pool after thread op outcome) :
    OrdersChange deployment pool after thread op := by
  obtain ⟨fate, performed⟩ := act.performed
  have unchanged : op.onTables = false → OrdersChange deployment pool after thread op :=
    fun other => .same (perform_orders performed other)
  cases op with
  | commit writes =>
    rcases perform_commit performed with ⟨_, _, same⟩ | ⟨took, written⟩
    · exact .same (by rw [same])
    · have permitted := act.permitted
      have own := act.own
      cases before : stage deployment pool thread with
      | submitting submission =>
        rw [before] at permitted own
        cases submission with
        | drawn payload key id =>
          obtain ⟨hop, rfl⟩ := permitted
          refine .inserted payload key id before ?_ (by rw [written]; rfl)
            ⟨payload, hop, outcome, by rw [act.trace]; exact List.mem_cons_self .., took⟩
          rcases took with rfl | ⟨error, rfl⟩
          · cases key <;> exact .inl own
          · cases key <;> exact .inr own
        | _ => exact permitted.elim
      | holding delivery token phase =>
        rw [before] at permitted own
        cases phase with
        | read aim reason row =>
          obtain ⟨note, hop, rfl⟩ := permitted
          refine .updated delivery token aim reason row note hop rfl before ?_ (by rw [written]; rfl)
          rcases took with rfl | ⟨error, rfl⟩
          · exact .inl own
          · exact .inr own
        | absent =>
          obtain rfl := permitted
          exact .same (by rw [written]; rfl)
        | closed verdict =>
          obtain rfl := permitted
          exact .same (by rw [written]; rfl)
        | moved aim reason | towards aim reason | sent aim => cases aim <;> exact permitted.elim
        | _ => exact permitted.elim
      | archiving record =>
        rw [before] at permitted
        obtain rfl := permitted
        exact .same (by rw [written]; rfl)
      | _ =>
        rw [before] at permitted
        exact permitted.elim
  | _ => exact unchanged rfl

/-- Who may publish, and what. -/
inductive Publishes (deployment : Deployment) : Stage deployment → (topic : String) →
    (key : Option String) → (value : Json) → (headers : Headers) → Prop where
  | submission (payload : OrderCreate) (key : Option String) (id eventId : Uuid) (instant : String) :
      Publishes deployment (.submitting (.stamped payload key id eventId instant))
        deployment.settings.topicOrders (some id.str)
        (deployment.platform.modelDump (submittedEvent payload id eventId instant))
        (Headers.build deployment.platform 1 none none none "")
  | rejection {topic key value headers} (record : ConsumerRecord) (text : PyStr)
      (letter : Phase.IsDeadLetter deployment record topic key value headers)
      (invalid : deployment.platform.modelValidate record.value = .error text) :
      Publishes deployment (.entered record) topic key value headers
  | deadLetter {topic key value headers} (delivery : Delivery deployment) (token : String)
      (phase : Phase) (owes : phase = .buried ∨ phase = .absent ∨
        ∃ reason, phase = .moved .failed reason)
      (letter : Phase.IsDeadLetter deployment delivery.record topic key value headers) :
      Publishes deployment (.holding delivery token phase) topic key value headers
  | retry (delivery : Delivery deployment) (token : String) (reason : Option PyStr) (due : ℚ)
      (failedAt : String) :
      Publishes deployment (.holding delivery token (.moved .pending reason))
        deployment.settings.topicRetry (some delivery.event.orderId.str) delivery.record.value
        (Headers.build deployment.platform (delivery.attempt + 1) (some (.num due)) reason
          (some delivery.record.topic) failedAt)
  | relay (record : ConsumerRecord) :
      Publishes deployment (.relaying record) deployment.settings.topicOrders record.key
        record.value (Headers.build deployment.platform record.headers.getAttempt none
          (record.headers.getError.map py) none "")

theorem publishes_of_permitted {before : Stage deployment} {topic : String} {key : Option String}
    {value : Json} {headers : Headers}
    (permitted : before.allowed deployment (.send topic key value headers)) :
    Publishes deployment before topic key value headers := by
  cases before with
  | submitting submission =>
    cases submission with
    | stamped payload idempotencyKey id eventId instant =>
      obtain ⟨rfl, rfl, rfl, rfl⟩ := permitted
      exact .submission ..
    | _ => exact permitted.elim
  | entered record =>
    obtain ⟨letter, text, invalid⟩ := permitted
    exact .rejection record text letter invalid
  | holding delivery token phase =>
    cases phase with
    | buried => exact .deadLetter _ _ _ (.inl rfl) permitted
    | absent => exact .deadLetter _ _ _ (.inr (.inl rfl)) permitted
    | moved aim reason =>
      cases aim with
      | pending =>
        obtain ⟨rfl, rfl, rfl, due, failedAt, rfl⟩ := permitted
        exact .retry ..
      | failed => exact .deadLetter _ _ _ (.inr (.inr ⟨_, rfl⟩)) permitted
      | _ => exact permitted.elim
    | towards aim reason | sent aim => cases aim <;> exact permitted.elim
    | _ => exact permitted.elim
  | relaying record =>
    obtain ⟨rfl, rfl, rfl, rfl⟩ := permitted
    exact .relay record
  | _ => exact permitted.elim

/-- How one operation changes the logs. -/
inductive LogsChange (deployment : Deployment) (pool after : Pipeline) (thread : Nat)
    (op : Op) : Prop where
  | same (logs : after.world.logs = pool.world.logs) (appends : after.world.appends = pool.world.appends)
  | appended {topic : String} {key : Option String} {value : Json} {headers : Headers}
      (partition : Nat) (sends : op = .send topic key value headers)
      (publishes : Publishes deployment (stage deployment pool thread) topic key value headers)
      (world : after.world = pool.world.append ⟨topic, partition⟩
        (wireRecord deployment.platform key value headers))
      (label : ∃ outcome, after.trace =
        .did thread (.send topic key value headers) outcome :: pool.trace ∧ outcome.Took ())

theorem logs_change (act : Acts deployment pool after thread op outcome) :
    LogsChange deployment pool after thread op := by
  obtain ⟨fate, performed⟩ := act.performed
  cases op with
  | send topic key value headers =>
    rcases perform_send performed with ⟨_, _, same⟩ | ⟨took, partition, _, world⟩
    · exact .same (by rw [same]) (by rw [same])
    · exact .appended partition rfl (publishes_of_permitted act.permitted) world
        ⟨outcome, act.trace, took⟩
  | _ => exact .same (perform_logs performed rfl) (perform_appends performed rfl)

/-- The stages in which a delivery sets its tombstone. -/
def Phase.completing : Phase → Option Verdict
  | .missing => some .unknown
  | .skipping => some .terminal
  | .moved .completed _ => some .completed
  | .sent .failed => some .failed
  | _ => none

/-- How one operation changes a guard key. -/
inductive GuardChange (deployment : Deployment) (pool after : Pipeline) (thread : Nat)
    (eventId : String) : Prop where
  | same (redis : after.world.redis (.eventGuard eventId) =
      pool.world.redis (.eventGuard eventId))
  | claimed (delivery : Delivery deployment) (token : String)
      (event : delivery.event.eventId = eventId)
      (taken : Bool)
      (before : stage deployment pool thread = .claiming delivery token taken)
      (later : stage deployment after thread = .holding delivery token .acquired ∨
        stage deployment after thread = .leaving delivery.record)
      (free : pool.world.redis (.eventGuard eventId) = none)
      (redis : after.world.redis (.eventGuard eventId) = some token)
  | completed (delivery : Delivery deployment) (token : String) (phase : Phase) (verdict : Verdict)
      (event : delivery.event.eventId = eventId) (completing : phase.completing = some verdict)
      (before : stage deployment pool thread = .holding delivery token phase)
      (later : stage deployment after thread = .holding delivery token
          (if verdict = .unknown then .buried else .closed verdict) ∨
        stage deployment after thread = .holding delivery token .aborting ∧
          ∃ ttl error, after.trace =
            .did thread (.evalComplete delivery.guard token ttl) (.late error) :: pool.trace)
      (held : pool.world.redis (.eventGuard eventId) = some token)
      (redis : after.world.redis (.eventGuard eventId) = some done)
  | released (delivery : Delivery deployment) (token : String) (phase : Phase)
      (event : delivery.event.eventId = eventId)
      (before : stage deployment pool thread = .holding delivery token phase)
      (later : stage deployment after thread = .leaving delivery.record ∨
        stage deployment after thread = .holding delivery token (.closed .retried) ∨
        stage deployment after thread = .holding delivery token .aborting)
      (held : pool.world.redis (.eventGuard eventId) = some token)
      (redis : after.world.redis (.eventGuard eventId) = none)

theorem guard_change (act : Acts deployment pool after thread op outcome) (eventId : String) :
    GuardChange deployment pool after thread eventId := by
  obtain ⟨fate, performed⟩ := act.performed
  have permitted := act.permitted
  have own := act.own
  have elsewhere : ∀ {key : Key} {value : Option String}, key ≠ .eventGuard eventId →
      after.world = pool.world.setRedis key value → GuardChange deployment pool after thread eventId := by
    intro key value differ written
    refine .same ?_
    rw [written]
    simp [World.setRedis, Function.update_of_ne differ.symm]
  cases op with
  | setNx key text ttl =>
    rcases perform_setNx performed with ⟨_, _, same⟩ | ⟨took, free, written⟩ | ⟨_, _, same⟩
    · exact .same (by rw [same])
    · cases before : stage deployment pool thread with
      | claiming delivery token taken =>
        rw [before] at permitted own
        obtain ⟨rfl, rfl⟩ := permitted
        by_cases event : delivery.event.eventId = eventId
        · subst event
          refine .claimed delivery text rfl taken before ?_ free (by rw [written]; simp [World.setRedis, Delivery.guard])
          rcases took with rfl | ⟨error, rfl⟩
          · exact .inl own
          · exact .inr own
        · exact elsewhere (fun same => event (Key.eventGuard.inj same)) written
      | submitting submission =>
        rw [before] at permitted
        cases submission <;> exact permitted.elim
      | holding delivery token phase =>
        rw [before] at permitted
        cases phase with
        | moved aim reason | towards aim reason | sent aim => cases aim <;> exact permitted.elim
        | _ => exact permitted.elim
      | _ =>
        rw [before] at permitted
        exact permitted.elim
    · exact .same (by rw [same])
  | set key text ttl =>
    rcases perform_set performed with ⟨_, _, same⟩ | ⟨_, written⟩
    · exact .same (by rw [same])
    · refine elsewhere ?_ written
      rintro rfl
      cases before : stage deployment pool thread with
      | submitting submission =>
        rw [before] at permitted
        cases submission with
        | created payload key id => cases permitted.1
        | _ => exact permitted.elim
      | reading =>
        rw [before] at permitted
        obtain ⟨orderId, ⟨⟩⟩ := permitted
      | holding delivery token phase =>
        rw [before] at permitted
        cases phase with
        | moved aim reason | towards aim reason | sent aim => cases aim <;> exact permitted.elim
        | _ => exact permitted.elim
      | _ =>
        rw [before] at permitted
        exact permitted.elim
  | delete key =>
    rcases perform_delete performed with ⟨_, _, same⟩ | ⟨_, written⟩
    · exact .same (by rw [same])
    · refine elsewhere ?_ written
      rintro rfl
      cases before : stage deployment pool thread with
      | submitting submission =>
        rw [before] at permitted
        cases submission <;> exact permitted.elim
      | reading =>
        rw [before] at permitted
        obtain ⟨orderId, ⟨⟩⟩ := permitted
      | holding delivery token phase =>
        rw [before] at permitted
        cases phase with
        | moved aim reason | towards aim reason | sent aim => cases aim <;> exact permitted.elim
        | _ => exact permitted.elim
      | _ =>
        rw [before] at permitted
        exact permitted.elim
  | evalComplete key text ttl =>
    rcases perform_evalComplete performed with ⟨_, _, same⟩ | ⟨took, held, written⟩ | ⟨_, _, same⟩
    · exact .same (by rw [same])
    · cases before : stage deployment pool thread with
      | holding delivery token phase =>
        rw [before] at permitted own
        have completes : ∀ verdict, phase.completing = some verdict → key = delivery.guard →
            text = token → (∀ value, Stage.next deployment (.holding delivery token phase)
              (.evalComplete key text ttl) (.ok value) = .holding delivery token
                (if verdict = .unknown then .buried else .closed verdict)) →
            (∀ error, Stage.next deployment (.holding delivery token phase)
              (.evalComplete key text ttl) (.late error) = .holding delivery token .aborting) →
            GuardChange deployment pool after thread eventId := by
          rintro verdict completing rfl rfl answered late
          by_cases event : delivery.event.eventId = eventId
          · subst event
            refine .completed delivery text phase verdict rfl completing before ?_ held
              (by rw [written]; simp [World.setRedis, Delivery.guard])
            rcases took with rfl | ⟨error, rfl⟩
            · exact .inl (own.trans (answered _))
            · exact .inr ⟨own.trans (late _), ttl, error, act.trace⟩
          · exact elsewhere (fun same => event (Key.eventGuard.inj same)) written
        cases phase with
        | missing => exact completes .unknown rfl permitted.1 permitted.2 (fun _ => rfl) fun _ => rfl
        | skipping => exact completes .terminal rfl permitted.1 permitted.2 (fun _ => rfl) fun _ => rfl
        | moved aim reason =>
          cases aim with
          | completed =>
            exact completes .completed rfl permitted.1 permitted.2 (fun _ => rfl) fun _ => rfl
          | _ => exact permitted.elim
        | sent aim =>
          cases aim with
          | failed => exact completes .failed rfl permitted.1 permitted.2 (fun _ => rfl) fun _ => rfl
          | _ => exact permitted.elim
        | towards aim reason => cases aim <;> exact permitted.elim
        | _ => exact permitted.elim
      | submitting submission =>
        rw [before] at permitted
        cases submission <;> exact permitted.elim
      | _ =>
        rw [before] at permitted
        exact permitted.elim
    · exact .same (by rw [same])
  | evalRelease key text =>
    rcases perform_evalRelease performed with ⟨_, _, same⟩ | ⟨took, held, written⟩ | ⟨_, _, same⟩
    · exact .same (by rw [same])
    · cases before : stage deployment pool thread with
      | holding delivery token phase =>
        rw [before] at permitted own
        have releases : key = delivery.guard → text = token →
            (Stage.next deployment (.holding delivery token phase) (.evalRelease key text) outcome =
              .leaving delivery.record ∨
             Stage.next deployment (.holding delivery token phase) (.evalRelease key text) outcome =
              .holding delivery token (.closed .retried) ∨
             Stage.next deployment (.holding delivery token phase) (.evalRelease key text) outcome =
              .holding delivery token .aborting) → GuardChange deployment pool after thread eventId := by
          rintro rfl rfl reached
          rw [← own] at reached
          by_cases event : delivery.event.eventId = eventId
          · subst event
            exact .released delivery text phase rfl before reached held
              (by rw [written]; simp [World.setRedis, Delivery.guard])
          · exact elsewhere (fun same => event (Key.eventGuard.inj same)) written
        cases phase with
        | towards aim reason =>
          cases aim with
          | pending => exact releases permitted.1 permitted.2 (.inl rfl)
          | _ => exact permitted.elim
        | sent aim =>
          cases aim with
          | pending =>
            refine releases permitted.1 permitted.2 (.inr ?_)
            rcases took with rfl | ⟨error, rfl⟩
            · exact .inl rfl
            · exact .inr rfl
          | _ => exact permitted.elim
        | aborting => exact releases permitted.1 permitted.2 (.inl rfl)
        | moved aim reason => cases aim <;> exact permitted.elim
        | _ => exact permitted.elim
      | submitting submission =>
        rw [before] at permitted
        cases submission <;> exact permitted.elim
      | _ =>
        rw [before] at permitted
        exact permitted.elim
    · exact .same (by rw [same])
  | _ => exact .same (congrFun (perform_redis performed rfl) _)

end OrderFlow
