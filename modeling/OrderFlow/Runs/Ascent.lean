import OrderFlow.Kafka.Codec
import OrderFlow.Runs.Climb
import OrderFlow.Runs.Tally

/-!
The call on the ladder's record climbs. Each of its operations keeps it on the
rung or takes it to the next one, and puts out the next record of the event.
-/
namespace OrderFlow
open AsyncCoroutine AsyncPool

variable {deployment : Deployment} {pool after : Pipeline} {thread : Nat} {op : Op}
  {outcome : Outcome Exn op.Reply} {event : OrderEvent} {record : ConsumerRecord} {label : Moment}
  {first : Nat} {ladder later : Ladder} {place spot : TopicPartition × Nat}

/-- The thread is in the call the ladder stands at. -/
structure Treads (deployment : Deployment) (event : OrderEvent) (ladder : Ladder)
    (place : TopicPartition × Nat) (pool : Pipeline) (thread : Nat) (record : ConsumerRecord) :
    Prop where
  live : ladder.rung.live = true
  here : At place record
  ours : Ours deployment event record
  inCall : (stage deployment pool thread).record = some record
  suits : ladder.rung.Suits (stage deployment pool thread)

/-- Whoever leaves a ladder that goes on leaves every rung of it. -/
theorem Rung.Leaves.any {rung : Rung} {stage : Stage deployment} (leaves : rung.Leaves stage)
    (live : rung.live = true) (other : Rung) : other.Leaves stage := by
  cases stage with
  | holding delivery token phase =>
    rcases leaves with resent | ⟨ended, _⟩
    · exact .inl resent
    · rw [live] at ended
      cases ended
  | relayed record => trivial
  | _ => exact leaves

/-- A call that has returned is on no record. -/
theorem Stage.returned {before : Stage deployment} {name : String} {result : Option Ack}
    (permitted : before.allowed deployment (.handleReturn name record result)) :
    (before.next deployment (.handleReturn name record result) (.ok ())).record = none := by
  cases before with
  | holding delivery token phase =>
    cases phase with
    | closed verdict => rfl
    | moved aim reason | towards aim reason | sent aim => cases aim <;> exact permitted.elim
    | _ => exact permitted.elim
  | archiving handled => cases result <;> rfl
  | claiming | settled | relayed | leaving => rfl
  | submitting submission => cases submission <;> exact permitted.elim
  | _ => exact permitted.elim

/-- Nothing was handed over from a place the logs have not reached. -/
theorem Handed.within {consumer : Consumer} (handed : Handed deployment pool consumer record)
    (here : At spot record) : (pool.world.logs spot.1)[spot.2]? ≠ none := by
  obtain ⟨entry, found, _⟩ := handed.logged
  rw [← here.1, ← here.2, found]
  rintro ⟨⟩

namespace Climbing

/-- The other calls on the event's records are on their way out. -/
theorem others_leave (climbing : Climbing deployment event first ladder place pool)
    (ran : Ran deployment pool) (treads : Treads deployment event ladder place pool thread record)
    {other : Nat} {second : ConsumerRecord} (differ : other ≠ thread)
    (inCall : (stage deployment pool other).record = some second)
    (ours : Ours deployment event second) :
    ¬ At place second ∧ ∀ rung : Rung, rung.Leaves (stage deployment pool other) := by
  have elsewhere : ¬ At place second := fun there =>
    differ (climbing.single ran inCall ours there treads.inCall treads.ours treads.here)
  refine ⟨elsewhere, ?_⟩
  rcases climbing.placed other second inCall ours with ⟨_, there, _⟩ | ⟨_, leaves⟩
  · exact (elsewhere there).elim
  · exact leaves.any treads.live

/-- What is left to show of a step that takes the ladder on. -/
theorem rises (climbing : Climbing deployment event first ladder place pool)
    (ran : Ran deployment pool) (moved : Step (system deployment) pool (.did thread op outcome) after)
    (act : Acts deployment pool after thread op outcome)
    (produced : ProducesUnrelated deployment event pool (.did thread op outcome))
    (treads : Treads deployment event ladder place pool thread record)
    (stays : (stage deployment after thread).record = some record)
    (spots : spot = place ∨ (pool.world.logs spot.1)[spot.2]? = none)
    (status : HasStatus after event.orderId (later.status deployment.settings first))
    (trail : (after.world.transitions event.orderId).map StatusTransition.toStatus =
      later.trail deployment.settings first)
    (stands : later.rung.live = true →
      spot.1.topic = later.rung.consumer.topic deployment.settings ∧
        ∃ entry, (after.world.logs spot.1)[spot.2]? = some entry ∧
          Carries deployment.platform entry event ∧
          entry.record.headers.getAttempt = later.number first)
    (logs : ∀ (tp : TopicPartition) (offset : Nat) (entry : LogEntry),
      deployment.settings.carriesEvents tp.topic →
      (after.world.logs tp)[offset]? = some entry → Carries deployment.platform entry event →
        (pool.world.logs tp)[offset]? = some entry ∨
          spot = (tp, offset) ∧ later.rung.idle = true)
    (placed : later.rung.Places spot record (stage deployment after thread))
    (fits : ∀ result, later.rung = .rescheduled result → later.attempt first < 2 ^ 31) :
    Climbing deployment event first later spot after := by
  have inside : ∀ name second, op ≠ .handleCall name second := by
    rintro name second rfl
    have within := treads.inCall
    rw [Stage.entering act.permitted] at within
    cases within
  have once : OnceDelivered deployment event pool (.did thread op outcome) := by
    intro _ name second _ same
    cases same
    exact (inside name second rfl).elim
  have uncommitted : ∀ consumer second, Committed after.trace consumer second →
      Committed pool.trace consumer second := by
    intro consumer second committed
    rcases new_commit ran moved committed with before | ⟨_, same, _⟩
    · exact before
    · cases same
      rw [act.own, Stage.returned act.permitted] at stays
      cases stays
  have kept : ∀ second, Ours deployment event second → Taken deployment pool second →
      Taken deployment after second := by
    intro second _ taken
    rcases taken with ⟨caller, inCall⟩ | ⟨consumer, committed⟩
    · refine .inl ⟨caller, ?_⟩
      by_cases mine : caller = thread
      · subst mine
        rw [treads.inCall] at inCall
        cases inCall
        exact stays
      · rw [act.others caller mine]
        exact inCall
    · exact .inr ⟨consumer, committed_kept committed moved⟩
  constructor
  · exact climbing.apart.step ran moved produced
  · exact status
  · exact trail
  · exact fun _ => climbing.unguarded_step ran moved treads.live
  · exact stands
  · intro other second inCall ours
    by_cases mine : other = thread
    · subst mine
      rw [stays] at inCall
      cases inCall
      exact placed
    · rw [act.others other mine] at inCall ⊢
      obtain ⟨elsewhere, leaves⟩ := climbing.others_leave ran treads mine inCall ours
      refine .inr ⟨?_, leaves _⟩
      rintro ⟨_, there⟩
      obtain ⟨_, _, handed⟩ := ours.handed ran inCall
      rcases spots with rfl | beyond
      · exact elsewhere there
      · exact handed.within there beyond
  · exact climbing.works_step ran moved
  · exact climbing.alone_step ran moved once
  · intro tp offset entry topic found carries
    rcases logs tp offset entry topic found carries with before | waits
    · right
      rcases climbing.taken tp offset entry topic before carries with
        ⟨same, _⟩ | ⟨second, ours, there, taken⟩
      · exact ⟨record, treads.ours, same ▸ treads.here, .inl ⟨thread, stays⟩⟩
      · exact ⟨second, ours, there, kept second ours taken⟩
    · exact .inl waits
  · intro live consumer second there committed
    have before := uncommitted consumer second committed
    rcases spots with rfl | beyond
    · exact climbing.unspent treads.live consumer second there before
    · exact (committed_handed ran before).within there beyond
  · exact fits

/-! ### The steps of the call -/

theorem number (climbing : Climbing deployment event first ladder place pool)
    (ran : Ran deployment pool) (treads : Treads deployment event ladder place pool thread record) :
    record.headers.getAttempt = ladder.number first := by
  obtain ⟨_, _, handed⟩ := treads.ours.handed ran treads.inCall
  exact (climbing.ours_at treads.live handed treads.here).2

theorem through (climbing : Climbing deployment event first ladder place pool)
    (treads : Treads deployment event ladder place pool thread record) :
    place.1.topic = ladder.rung.consumer.topic deployment.settings :=
  (climbing.stands treads.live).1

/-- A session that commits makes the next version of the event's order. -/
theorem commits_version {delivery : Delivery deployment} {token : String} {aim : OrderStatus}
    {reason : Option PyStr} {row : OrderRow} {note : PyStr} {hop : Nat}
    (climbing : Climbing deployment event first ladder place pool) (ran : Ran deployment pool)
    (moved : Step (system deployment) pool (.did thread (.commit (Repository.transitionWrites row
      (Repository.transitionRow row aim delivery.attempt reason) (some note) hop)) (.ok ())) after)
    (act : Acts deployment pool after thread (.commit (Repository.transitionWrites row
      (Repository.transitionRow row aim delivery.attempt reason) (some note) hop)) (.ok ()))
    (standing : stage deployment pool thread = .holding delivery token (.read aim reason row))
    (ours : Ours deployment event delivery.record) :
    (∃ version, after.world.orders event.orderId = some version ∧ version.status = aim ∧
      version.attempts = delivery.attempt) ∧
    (after.world.transitions event.orderId).map StatusTransition.toStatus =
      (pool.world.transitions event.orderId).map StatusTransition.toStatus ++ [aim] := by
  obtain ⟨current, reads, _, _⟩ := climbing.works thread delivery token _ standing ours
  obtain ⟨order, rfl, stands, above⟩ := current.version reads (copy_permitted ran moved)
  have named := (sighted ran thread delivery token _ standing).named _ _ _ rfl
  rw [ours_event ours] at named
  have next := transition_stands aim delivery.attempt reason (some note) stands above
  rw [← act.commits rfl] at next
  have row := next.row
  have trail := next.trail
  have stood := stands.trail
  simp only [Repository.transitionRow, named] at row trail stood
  refine ⟨⟨_, row, rfl, rfl⟩, ?_⟩
  rw [trail, stood, List.map_append]
  rfl

/-- A step of the call that changes no table goes on where the ladder stands. -/
theorem goes_on (climbing : Climbing deployment event first ladder place pool)
    (ran : Ran deployment pool) (moved : Step (system deployment) pool (.did thread op outcome) after)
    (act : Acts deployment pool after thread op outcome)
    (produced : ProducesUnrelated deployment event pool (.did thread op outcome))
    (treads : Treads deployment event ladder place pool thread record)
    (stays : (stage deployment after thread).record = some record)
    (status : HasStatus after event.orderId (later.status deployment.settings first))
    (trail : (after.world.transitions event.orderId).map StatusTransition.toStatus =
      later.trail deployment.settings first)
    (logs : ∀ (tp : TopicPartition) (offset : Nat) (entry : LogEntry),
      deployment.settings.carriesEvents tp.topic →
      (after.world.logs tp)[offset]? = some entry → Carries deployment.platform entry event →
        (pool.world.logs tp)[offset]? = some entry)
    (same : later.rung.live = true →
      later.rung.consumer = ladder.rung.consumer ∧ later.number first = ladder.number first)
    (placed : later.rung.Places place record (stage deployment after thread))
    (fits : ∀ result, later.rung = .rescheduled result → later.attempt first < 2 ^ 31) :
    Climbing deployment event first later place after := by
  refine climbing.rises ran moved act produced treads stays (.inl rfl) status trail ?_ ?_ placed fits
  · intro live
    obtain ⟨consumer, number⟩ := same live
    obtain ⟨topic, entry, found, carries, attempt⟩ := climbing.stands treads.live
    rw [consumer, number]
    exact ⟨topic, entry, entry_stays moved found, carries, attempt⟩
  · intro tp offset entry topic found carries
    exact .inl (logs tp offset entry topic found carries)

/-- The call puts out the record the ladder goes on with. -/
theorem passes {topic : String} {key : Option String} {headers : Headers}
    (climbing : Climbing deployment event first ladder place pool) (ran : Ran deployment pool)
    (moved : Step (system deployment) pool
      (.did thread (.send topic key record.value headers) (.ok ())) after)
    (act : Acts deployment pool after thread (.send topic key record.value headers) (.ok ()))
    (produced : ProducesUnrelated deployment event pool
      (.did thread (.send topic key record.value headers) (.ok ())))
    (treads : Treads deployment event ladder place pool thread record)
    (stays : (stage deployment after thread).record = some record)
    (status : later.status deployment.settings first = ladder.status deployment.settings first)
    (trail : later.trail deployment.settings first = ladder.trail deployment.settings first)
    (idle : later.rung.idle = true)
    (onward : topic = later.rung.consumer.topic deployment.settings)
    (attempt : headers.getAttempt = later.number first)
    (leaves : later.rung.Leaves (stage deployment after thread)) :
    ∃ spot, Climbing deployment event first later spot after := by
  obtain ⟨fate, performed⟩ := act.performed
  rcases perform_send performed with ⟨_, lost, _⟩ | ⟨_, partition, _, world⟩
  · cases lost
  have beyond : (pool.world.logs ⟨topic, partition⟩)[(pool.world.logs
      ⟨topic, partition⟩).length]? = none := List.getElem?_eq_none (Nat.le_refl _)
  refine ⟨(⟨topic, partition⟩, (pool.world.logs ⟨topic, partition⟩).length),
    climbing.rises ran moved act produced treads stays (.inr beyond) ?_ ?_ ?_ ?_ ?_ ?_⟩
  · rw [status]
    exact climbing.status.same (congrFun (perform_orders performed rfl) _)
  · rw [trail, perform_transitions performed rfl]
    exact climbing.trail
  · intro _
    refine ⟨onward, ⟨wireRecord deployment.platform key record.value headers,
      pool.world.appends⟩, ?_, ?_, attempt⟩
    · rw [world]
      simp [World.append]
    · rw [Carries, wireRecord, treads.ours.value]
  · intro tp offset entry _ found _
    rw [world] at found
    rcases append_entry found with before | ⟨rfl, rfl, _⟩
    · exact .inl before
    · exact .inr ⟨rfl, idle⟩
  · obtain ⟨_, _, handed⟩ := treads.ours.handed ran treads.inCall
    exact .inr ⟨fun there => handed.within there.2 beyond, leaves⟩
  · intro result rescheduled
    rw [rescheduled] at idle
    cases idle

end Climbing

/-- A result that concludes leads where it has to. -/
theorem decide_concludes (delivery : Delivery deployment) {result : Except Exn Unit}
    (concludes : Concludes result) :
    ∃ aim reason, Phase.decide delivery result = .towards aim reason := by
  unfold Phase.decide
  split
  · exact ⟨_, _, rfl⟩
  · split
    · exact ⟨_, _, rfl⟩
    · exact ⟨_, _, rfl⟩
  · exact ⟨_, _, rfl⟩
  · rename_i error transient permanent
    cases error with
    | transient message => exact (transient message rfl).elim
    | permanent message => exact (permanent message rfl).elim
    | _ => exact concludes.elim

theorem decided_aim {delivery : Delivery deployment} {result : Except Exn Unit}
    {aim : OrderStatus} {reason : Option PyStr}
    (leads : Phase.decide delivery result = .towards aim reason) :
    deployment.settings.aim delivery.attempt result = aim := by
  cases result with
  | ok done =>
    cases leads
    rfl
  | error error =>
    cases error with
    | transient message =>
      simp only [Phase.decide] at leads
      unfold Settings.aim
      split at leads
      · rename_i below
        cases leads
        exact if_pos below
      · rename_i last
        cases leads
        exact if_neg last
    | permanent message =>
      cases leads
      rfl
    | _ => cases leads

theorem Settings.aim_ne_processing {settings : Settings} {attempt : Nat}
    {result : Except Exn Unit} : settings.aim attempt result ≠ .processing := by
  unfold Settings.aim
  split
  · rintro ⟨⟩
  · split <;> rintro ⟨⟩
  · rintro ⟨⟩

/-- The rung of an attempt whose verdict is committed. -/
def Rung.decided (aim : OrderStatus) (result : Except Exn Unit) : Rung :=
  match aim with
  | .pending => .rescheduled result
  | .failed => .condemned result
  | _ => .ended result

/-- What a step adds to the ladder is what it shows. -/
structure Marks (deployment : Deployment) (event : OrderEvent) (first : Nat)
    (ladder later : Ladder) (step : Pipeline × Moment) : Prop where
  climbs : later = ladder ∨ Ladder.Climbs deployment.settings first ladder later
  tries : later.tries first = ladder.tries first ++ (tried deployment event step).toList
  puts : later.puts deployment.settings first =
    ladder.puts deployment.settings first ++ (put deployment event step).toList

theorem Marks.silent {step : Pipeline × Moment}
    (shows : tried deployment event step = none ∧ put deployment event step = none) :
    Marks deployment event first ladder ladder step := by
  refine ⟨.inl rfl, ?_, ?_⟩
  · rw [shows.1]
    simp
  · rw [shows.2]
    simp

namespace Climbing
variable {earlier : List (Except Exn Unit)} {result : Except Exn Unit}

/-- The order is PROCESSING now: the attempt has begun. -/
theorem begun {delivery : Delivery deployment} {token : String} {reason : Option PyStr}
    {row : OrderRow} {note : PyStr} {hop : Nat}
    (climbing : Climbing deployment event first ⟨earlier, .waiting⟩ place pool)
    (ran : Ran deployment pool)
    (moved : Step (system deployment) pool (.did thread (.commit (Repository.transitionWrites row
      (Repository.transitionRow row .processing delivery.attempt reason) (some note) hop)) (.ok ()))
      after)
    (act : Acts deployment pool after thread (.commit (Repository.transitionWrites row
      (Repository.transitionRow row .processing delivery.attempt reason) (some note) hop)) (.ok ()))
    (produced : ProducesUnrelated deployment event pool (.did thread (.commit
      (Repository.transitionWrites row
        (Repository.transitionRow row .processing delivery.attempt reason) (some note) hop))
      (.ok ())))
    (treads : Treads deployment event ⟨earlier, .waiting⟩ place pool thread delivery.record)
    (standing : stage deployment pool thread = .holding delivery token (.read .processing reason row))
    (left : stage deployment after thread = .holding delivery token (.moved .processing reason)) :
    Climbing deployment event first ⟨earlier, .begun⟩ place after := by
  obtain ⟨⟨version, found, status, _⟩, trail⟩ :=
    climbing.commits_version ran moved act standing treads.ours
  refine climbing.goes_on ran moved act produced treads (by rw [left]; rfl) ⟨version, found, status⟩
    ?_ ?_ ?_ ?_ ?_
  · rw [trail, climbing.trail]
    simp [Ladder.trail, Rung.hops]
  · intro tp offset entry _ now _
    rwa [act.commits rfl] at now
  · exact fun _ => ⟨rfl, rfl⟩
  · rw [left]
    exact .inl ⟨rfl, treads.here, trivial⟩
  · rintro _ ⟨⟩

/-- `fulfil` came back. -/
theorem answered {delivery : Delivery deployment} {token : String} {outcome : Outcome Exn Unit}
    (climbing : Climbing deployment event first ⟨earlier, .begun⟩ place pool)
    (ran : Ran deployment pool)
    (moved : Step (system deployment) pool (.did thread (.fulfil delivery.event) outcome) after)
    (act : Acts deployment pool after thread (.fulfil delivery.event) outcome)
    (produced : ProducesUnrelated deployment event pool (.did thread (.fulfil delivery.event) outcome))
    (treads : Treads deployment event ⟨earlier, .begun⟩ place pool thread delivery.record)
    (concludes : Concludes outcome.reply)
    (left : stage deployment after thread =
      .holding delivery token (Phase.decide delivery outcome.reply)) :
    Climbing deployment event first ⟨earlier, .answered outcome.reply⟩ place after := by
  obtain ⟨fate, performed⟩ := act.performed
  obtain ⟨aim, reason, leads⟩ := decide_concludes delivery concludes
  refine climbing.goes_on ran moved act produced treads (by rw [left]; rfl) ?_ ?_ ?_ ?_ ?_ ?_
  · exact climbing.status.same (congrFun (perform_orders performed rfl) _)
  · rw [perform_transitions performed rfl]
    exact climbing.trail
  · intro tp offset entry _ now _
    rwa [perform_logs performed rfl] at now
  · exact fun _ => ⟨rfl, rfl⟩
  · rw [left, leads]
    exact .inl ⟨rfl, treads.here, leads⟩
  · rintro _ ⟨⟩

/-- The verdict is committed. -/
theorem decided {delivery : Delivery deployment} {token : String} {aim : OrderStatus}
    {reason : Option PyStr} {row : OrderRow} {note : PyStr} {hop : Nat}
    (climbing : Climbing deployment event first ⟨earlier, .answered result⟩ place pool)
    (ran : Ran deployment pool)
    (moved : Step (system deployment) pool (.did thread (.commit (Repository.transitionWrites row
      (Repository.transitionRow row aim delivery.attempt reason) (some note) hop)) (.ok ())) after)
    (act : Acts deployment pool after thread (.commit (Repository.transitionWrites row
      (Repository.transitionRow row aim delivery.attempt reason) (some note) hop)) (.ok ()))
    (produced : ProducesUnrelated deployment event pool (.did thread (.commit
      (Repository.transitionWrites row
        (Repository.transitionRow row aim delivery.attempt reason) (some note) hop)) (.ok ())))
    (treads : Treads deployment event ⟨earlier, .answered result⟩ place pool thread delivery.record)
    (leads : Phase.decide delivery result = .towards aim reason)
    (standing : stage deployment pool thread = .holding delivery token (.read aim reason row))
    (left : stage deployment after thread = .holding delivery token (.moved aim reason)) :
    deployment.settings.aim (first + earlier.length) result = aim ∧
      Climbing deployment event first ⟨earlier, Rung.decided aim result⟩ place after := by
  have attempt : delivery.attempt = first + earlier.length := climbing.number ran treads
  have aims := decided_aim leads
  rw [attempt] at aims
  refine ⟨aims, ?_⟩
  obtain ⟨⟨version, found, status, attempts⟩, trail⟩ :=
    climbing.commits_version ran moved act standing treads.ours
  have settles : Ladder.status deployment.settings first ⟨earlier, Rung.decided aim result⟩ = aim ∧
      Ladder.trail deployment.settings first ⟨earlier, Rung.decided aim result⟩ =
        Ladder.trail deployment.settings first ⟨earlier, .answered result⟩ ++ [aim] := by
    subst aims
    unfold Rung.decided
    split
    · rename_i pending
      rw [pending]
      simp [Ladder.status, Ladder.trail, Rung.hops]
    · rename_i failed
      rw [failed]
      simp [Ladder.status, Ladder.trail, Rung.hops]
    · simp [Ladder.status, Ladder.trail, Rung.hops, Ladder.aim, Ladder.attempt]
  refine climbing.goes_on ran moved act produced treads (by rw [left]; rfl) ?_ ?_ ?_ ?_ ?_ ?_
  · exact ⟨version, found, status.trans settles.1.symm⟩
  · rw [trail, climbing.trail, settles.2]
  · intro tp offset entry _ now _
    rwa [act.commits rfl] at now
  · intro live
    cases aim with
    | pending | failed => exact ⟨rfl, rfl⟩
    | _ => cases live
  · rw [left]
    cases aim with
    | pending | failed => exact .inl ⟨rfl, treads.here, trivial⟩
    | completed =>
      refine .inr ⟨?_, .inr ⟨rfl, rfl⟩⟩
      rintro ⟨⟨⟩, _⟩
    | processing => exact absurd aims Settings.aim_ne_processing
  · intro _ _
    have bound := (all_fit (.step ran trivial moved)).rows _ _ found
    rw [attempts, attempt] at bound
    exact bound

/-- The next attempt is on its way: a record on `orders.retry`. -/
theorem resent {delivery : Delivery deployment} {token : String} {reason : Option PyStr} {due : ℚ}
    {failedAt : String}
    (climbing : Climbing deployment event first ⟨earlier, .rescheduled result⟩ place pool)
    (ran : Ran deployment pool)
    (moved : Step (system deployment) pool (.did thread (.send deployment.settings.topicRetry
      (some delivery.event.orderId.str) delivery.record.value (Headers.build deployment.platform
        (delivery.attempt + 1) (some (.num due)) reason (some delivery.record.topic) failedAt))
      (.ok ())) after)
    (act : Acts deployment pool after thread (.send deployment.settings.topicRetry
      (some delivery.event.orderId.str) delivery.record.value (Headers.build deployment.platform
        (delivery.attempt + 1) (some (.num due)) reason (some delivery.record.topic) failedAt))
      (.ok ()))
    (produced : ProducesUnrelated deployment event pool (.did thread (.send
      deployment.settings.topicRetry (some delivery.event.orderId.str) delivery.record.value
      (Headers.build deployment.platform (delivery.attempt + 1) (some (.num due)) reason
        (some delivery.record.topic) failedAt)) (.ok ())))
    (treads : Treads deployment event ⟨earlier, .rescheduled result⟩ place pool thread
      delivery.record)
    (left : stage deployment after thread = .holding delivery token (.sent .pending)) :
    ∃ spot, Climbing deployment event first ⟨earlier, .owed result⟩ spot after := by
  have attempt : delivery.attempt = first + earlier.length := climbing.number ran treads
  have fits : first + earlier.length < 2 ^ 31 := climbing.fits result rfl
  refine climbing.passes ran moved act produced treads (by rw [left]; rfl) rfl rfl rfl rfl ?_
    (by rw [left]; exact .inl rfl)
  have small : delivery.attempt + 1 < 10 ^ 10 := by omega
  have grows : ∀ limit : Nat, 10 ≤ limit → delivery.attempt + 1 < 10 ^ limit := fun limit above =>
    Nat.lt_of_lt_of_le small (Nat.pow_le_pow_right (by decide) above)
  rw [Headers.getAttempt_build _ _ _ _ _ _ (Nat.le_add_left ..) (grows _ (by decide)), attempt]
  rfl

/-- The next attempt waits on `orders.created` again. -/
theorem replayed (climbing : Climbing deployment event first ⟨earlier, .owed result⟩ place pool)
    (ran : Ran deployment pool)
    (moved : Step (system deployment) pool (.did thread (.send deployment.settings.topicOrders
      record.key record.value (Headers.build deployment.platform record.headers.getAttempt none
        (record.headers.getError.map py) none "")) (.ok ())) after)
    (act : Acts deployment pool after thread (.send deployment.settings.topicOrders
      record.key record.value (Headers.build deployment.platform record.headers.getAttempt none
        (record.headers.getError.map py) none "")) (.ok ()))
    (produced : ProducesUnrelated deployment event pool (.did thread (.send
      deployment.settings.topicOrders record.key record.value (Headers.build deployment.platform
        record.headers.getAttempt none (record.headers.getError.map py) none "")) (.ok ())))
    (treads : Treads deployment event ⟨earlier, .owed result⟩ place pool thread record)
    (left : stage deployment after thread = .relayed record) :
    ∃ spot, Climbing deployment event first ⟨earlier ++ [result], .waiting⟩ spot after := by
  refine climbing.passes ran moved act produced treads (by rw [left]; rfl) rfl ?_ rfl rfl ?_
    (by rw [left]; trivial)
  · simp [Ladder.trail, Rung.hops, List.replicate_succ']
  · rw [Headers.getAttempt_rebuild, climbing.number ran treads]
    simp [Ladder.number, Ladder.attempt, Nat.add_assoc]

/-- The letter is out, and the ladder over. -/
theorem buried {delivery : Delivery deployment} {token topic : String} {key : Option String}
    {value : Json} {headers : Headers}
    (climbing : Climbing deployment event first ⟨earlier, .condemned result⟩ place pool)
    (ran : Ran deployment pool)
    (moved : Step (system deployment) pool (.did thread (.send topic key value headers) (.ok ()))
      after)
    (act : Acts deployment pool after thread (.send topic key value headers) (.ok ()))
    (produced : ProducesUnrelated deployment event pool
      (.did thread (.send topic key value headers) (.ok ())))
    (treads : Treads deployment event ⟨earlier, .condemned result⟩ place pool thread delivery.record)
    (failed : deployment.settings.aim (first + earlier.length) result = .failed)
    (letter : Phase.IsDeadLetter deployment delivery.record topic key value headers)
    (left : stage deployment after thread = .holding delivery token (.sent .failed)) :
    Climbing deployment event first ⟨earlier, .ended result⟩ place after := by
  obtain ⟨fate, performed⟩ := act.performed
  have aims : Ladder.aim deployment.settings first ⟨earlier, .ended result⟩ result = .failed := failed
  refine climbing.goes_on ran moved act produced treads (by rw [left]; rfl) ?_ ?_ ?_ ?_ ?_ ?_
  · have status := climbing.status.same (congrFun (perform_orders performed rfl) event.orderId)
    simp only [Ladder.status, aims]
    exact status
  · rw [perform_transitions performed rfl, climbing.trail]
    simp only [Ladder.trail, Rung.hops, aims]
  · intro tp offset entry carried now _
    rcases perform_send performed with ⟨_, _, same⟩ | ⟨_, partition, _, world⟩
    · rwa [same] at now
    · rw [world] at now
      rcases append_entry now with before | ⟨rfl, _, _⟩
      · exact before
      · rw [letter.1] at carried
        exact (dead_topic carried).elim
  · rintro ⟨⟩
  · rw [left]
    refine .inr ⟨?_, .inr ⟨rfl, rfl⟩⟩
    rintro ⟨⟨⟩, _⟩
  · rintro _ ⟨⟩

/-- The call the ladder stands at keeps it in place or takes it to the next rung. -/
theorem ascends (climbing : Climbing deployment event first ladder place pool)
    (sound : Ladder.Sound deployment.settings first ladder) (ran : Ran deployment pool)
    (moved : Step (system deployment) pool (.did thread op outcome) after)
    (act : Acts deployment pool after thread op outcome)
    (undisturbed : Undisturbed deployment event pool (.did thread op outcome))
    (treads : Treads deployment event ladder place pool thread record) :
    ∃ later spot, Climbing deployment event first later spot after ∧
      Marks deployment event first ladder later (pool, .did thread op outcome) := by
  have produced := undisturbed.produced
  have inCall := treads.inCall
  obtain ⟨earlier, rung⟩ := ladder
  have workable : Workable pool event rung := by
    cases rung with
    | waiting => exact climbing.status
    | answered result => exact climbing.status.known
    | _ => trivial
  have stride : Stride deployment rung (stage deployment pool thread) op outcome
      (stage deployment after thread) := by
    refine strides act (undisturbed.answered thread record op outcome inCall treads.ours rfl)
      (by rw [treads.ours.value]; exact deployment.platform.modelValidate_dump event) inCall
      treads.suits workable (climbing.unguarded treads.live) ?_
    rintro delivery token reason standing key text rfl
    rw [standing] at inCall
    cases inCall
    exact undisturbed.delayed thread delivery token reason key text outcome standing treads.ours rfl
  generalize standing : stage deployment pool thread = before at stride
  generalize left : stage deployment after thread = next at stride
  rw [standing] at inCall
  cases stride with
  | lingers still stays suits =>
    refine ⟨_, place, climbing.lingers ran moved act produced treads.inCall still ?_ ?_, .silent ?_⟩
    · rw [left, standing]
      exact stays
    · rw [left]
      exact .inl ⟨treads.live, treads.here, suits⟩
    · apply unseen
      constructor
      · rintro _ rfl
        cases still
      · rintro _ _ _ _ rfl
        cases still
  | withdraws delivery token taken answering =>
    refine ⟨_, place, climbing.ends_call ran moved act produced treads.inCall left
      (.inl ⟨treads.here, rfl, rfl⟩), .silent ⟨rfl, rfl⟩⟩
  | begins delivery token reason row note hop =>
    cases inCall
    refine ⟨⟨earlier, .begun⟩, place, climbing.begun ran moved act produced treads standing left,
      .inr (.begins earlier), ?_, ?_⟩
    · simp [Ladder.tries, Rung.results, tried]
    · simp [Ladder.puts, Rung.puts, put]
  | answers delivery token reason outcome concludes =>
    cases inCall
    have number : delivery.record.headers.getAttempt = first + earlier.length :=
      climbing.number ran treads
    refine ⟨⟨earlier, .answered outcome.reply⟩, place,
      climbing.answered ran moved act produced treads concludes left,
      .inr (.answers earlier concludes), ?_, ?_⟩
    · simp only [Ladder.tries, Rung.results, tried, treads.inCall, ours_event treads.ours]
      simp [number]
    · simp [Ladder.puts, Rung.puts, put]
  | @decides result delivery token aim reason row note hop leads =>
    cases inCall
    obtain ⟨aims, decided⟩ :=
      climbing.decided ran moved act produced treads leads standing left
    refine ⟨⟨earlier, Rung.decided aim result⟩, place, decided, .inr ?_, ?_, ?_⟩
    · cases aim with
      | pending => exact .reschedules earlier aims
      | failed => exact .condemns earlier aims
      | completed => exact .completes earlier aims
      | processing => exact absurd aims Settings.aim_ne_processing
    · cases aim <;> simp [Ladder.tries, Rung.results, Rung.decided, tried]
    · cases aim with
      | completed | processing =>
        simp [Ladder.puts, Rung.puts, Rung.decided, put, Ladder.aim, Ladder.attempt, aims]
      | _ => simp [Ladder.puts, Rung.puts, Rung.decided, put]
  | @resends result delivery token reason due failedAt =>
    cases inCall
    obtain ⟨spot, resent⟩ := climbing.resent ran moved act produced treads left
    refine ⟨⟨earlier, .owed result⟩, spot, resent, .inr (.owes earlier result), ?_, ?_⟩
    · simp [Ladder.tries, Rung.results, tried]
    · rw [put_ours treads.inCall treads.ours]
      simp [Ladder.puts, Rung.puts]
  | @buries result topic key value headers delivery token reason letter =>
    cases inCall
    have failed : deployment.settings.aim (first + earlier.length) result = .failed :=
      (sound.last result (List.mem_singleton_self _)).2
    refine ⟨⟨earlier, .ended result⟩, place,
      climbing.buried ran moved act produced treads failed letter left,
      .inr (.buries earlier result), ?_, ?_⟩
    · simp [Ladder.tries, Rung.results, tried]
    · rw [put_ours treads.inCall treads.ours, letter.1]
      simp [Ladder.puts, Rung.puts, Ladder.aim, Ladder.attempt, failed]
  | @replays result handled =>
    cases inCall
    obtain ⟨spot, replayed⟩ := climbing.replayed ran moved act produced treads left
    refine ⟨⟨earlier ++ [result], .waiting⟩, spot, replayed, .inr (.replays earlier result), ?_, ?_⟩
    · simp [Ladder.tries, Rung.results, tried]
    · rw [put_ours treads.inCall treads.ours]
      simp [Ladder.puts, Rung.puts, List.replicate_succ']

end Climbing

end OrderFlow
