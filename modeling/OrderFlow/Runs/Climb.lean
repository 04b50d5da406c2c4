import OrderFlow.Runs.Handles
import OrderFlow.Runs.Strides

/-!
The ladder in a run. While nothing fails under the calls on the event's records
and each of them is handed over once, the run climbs the event's ladder: it holds
one record to take up or one call to finish, and everything else about it is done.
-/
namespace OrderFlow
open AsyncCoroutine AsyncPool

variable {deployment : Deployment} {pool after : Pipeline} {thread : Nat} {op : Op}
  {outcome : Outcome Exn op.Reply} {event : OrderEvent} {record : ConsumerRecord} {label : Moment}
  {first : Nat} {ladder later : Ladder} {place : TopicPartition × Nat}

/-- The record stands at this place of the logs. -/
def At (place : TopicPartition × Nat) (record : ConsumerRecord) : Prop :=
  record.tp = place.1 ∧ record.offset = place.2

/-- A call on the record is running, or one has returned COMMIT. -/
def Taken (deployment : Deployment) (pool : Pipeline) (record : ConsumerRecord) : Prop :=
  (∃ thread, (stage deployment pool thread).record = some record) ∨
    ∃ consumer, Committed pool.trace consumer record

/-- Nothing fails or crashes under the calls on the event's records, their backoff has a
    delay, and what others produce is about other orders. -/
structure Undisturbed (deployment : Deployment) (event : OrderEvent) (pool : Pipeline)
    (label : Moment) : Prop where
  produced : ProducesUnrelated deployment event pool label
  survives : ∀ thread record, (stage deployment pool thread).record = some record →
    Ours deployment event record → label ≠ .crash thread
  answered : ∀ thread record op outcome, (stage deployment pool thread).record = some record →
    Ours deployment event record → label = .did thread op outcome → Answered op outcome
  delayed : ∀ thread delivery token reason key text outcome,
    stage deployment pool thread = .holding delivery token (.towards .pending reason) →
      Ours deployment event delivery.record → label ≠ .did thread (.evalRelease key text) outcome

/-- A record of the event is handed over when no call on it is running or has returned COMMIT. -/
def OnceDelivered (deployment : Deployment) (event : OrderEvent) (pool : Pipeline)
    (label : Moment) : Prop :=
  ∀ thread name record outcome, label = .did thread (.handleCall name record) outcome →
    Ours deployment event record → ¬ Taken deployment pool record

/-- A call on the ladder's record is on the rung; the others are on their way out. -/
def Rung.Places (rung : Rung) (place : TopicPartition × Nat) (record : ConsumerRecord)
    (stage : Stage deployment) : Prop :=
  rung.live = true ∧ At place record ∧ rung.Suits stage ∨
    ¬ (rung.live = true ∧ At place record) ∧ rung.Leaves stage

/-- The attempt of the record the ladder stands at. -/
def Ladder.number (first : Nat) (ladder : Ladder) : Nat :=
  match ladder.rung with
  | .owed _ => ladder.attempt first + 1
  | _ => ladder.attempt first

structure Climbing (deployment : Deployment) (event : OrderEvent) (first : Nat) (ladder : Ladder)
    (place : TopicPartition × Nat) (pool : Pipeline) : Prop where
  apart : Apart deployment event pool
  status : HasStatus pool event.orderId (ladder.status deployment.settings first)
  trail : (pool.world.transitions event.orderId).map StatusTransition.toStatus =
    ladder.trail deployment.settings first
  unguarded : ladder.rung.live = true →
    pool.world.redis (.eventGuard event.eventId) ≠ some done
  stands : ladder.rung.live = true →
    place.1.topic = ladder.rung.consumer.topic deployment.settings ∧
      ∃ entry, (pool.world.logs place.1)[place.2]? = some entry ∧
        Carries deployment.platform entry event ∧
        entry.record.headers.getAttempt = ladder.number first
  placed : ∀ thread record, (stage deployment pool thread).record = some record →
    Ours deployment event record → ladder.rung.Places place record (stage deployment pool thread)
  works : ∀ thread delivery token phase,
    stage deployment pool thread = .holding delivery token phase →
      Ours deployment event delivery.record → Works deployment pool thread delivery phase
  alone : ∀ thread other record, Ours deployment event record →
    (stage deployment pool thread).record = some record →
      (stage deployment pool other).record = some record → thread = other
  taken : ∀ tp offset entry, deployment.settings.carriesEvents tp.topic →
    (pool.world.logs tp)[offset]? = some entry → Carries deployment.platform entry event →
      place = (tp, offset) ∧ ladder.rung.idle = true ∨
        ∃ record, Ours deployment event record ∧ At (tp, offset) record ∧
          Taken deployment pool record
  unspent : ladder.rung.live = true → ∀ consumer record, At place record →
    ¬ Committed pool.trace consumer record
  fits : ∀ result, ladder.rung = .rescheduled result → ladder.attempt first < 2 ^ 31

/-! ### Records and places -/

theorem Logged.unique {platform : Platform} {logs : TopicPartition → List LogEntry}
    {second : ConsumerRecord} (logged : Logged platform logs record)
    (also : Logged platform logs second) (tp : record.tp = second.tp)
    (offset : record.offset = second.offset) : record = second := by
  obtain ⟨entry, found, decoded⟩ := logged
  obtain ⟨entry', found', decoded'⟩ := also
  rw [tp, offset] at found decoded
  rw [found] at found'
  cases found'
  rw [decoded] at decoded'
  exact Option.some.inj decoded'

/-- A call on a record of the event is one of a consumer of events. -/
theorem Ours.handed (ours : Ours deployment event record) (ran : Ran deployment pool)
    (inCall : (stage deployment pool thread).record = some record) :
    ∃ consumer, consumer ≠ .dlq ∧ Handed deployment pool consumer record := by
  obtain ⟨consumer, handed, _⟩ := handling ran thread record inCall
  refine ⟨consumer, ?_, handed⟩
  rintro rfl
  have topic := ours.topic
  rw [handed.topic] at topic
  exact dead_topic topic

theorem At.unique {second : ConsumerRecord} (here : At place record) (there : At place second)
    {consumer other : Consumer} (handed : Handed deployment pool consumer record)
    (also : Handed deployment pool other second) : record = second :=
  handed.logged.unique also.logged (here.1.trans there.1.symm) (here.2.trans there.2.symm)

theorem entry_stays (moved : Step (system deployment) pool label after) {tp : TopicPartition}
    {offset : Nat} {entry : LogEntry} (found : (pool.world.logs tp)[offset]? = some entry) :
    (after.world.logs tp)[offset]? = some entry := by
  obtain ⟨bound, rfl⟩ := List.getElem?_eq_some_iff.mp found
  exact List.prefix_iff_getElem?.mp (step_logs moved tp) _ bound

theorem At.same {other : TopicPartition × Nat} (here : At place record) (there : At other record) :
    place = other :=
  Prod.ext (here.1.symm.trans there.1) (here.2.symm.trans there.2)

theorem committed_kept {consumer : Consumer} (committed : Committed pool.trace consumer record)
    (moved : Step (system deployment) pool label after) : Committed after.trace consumer record := by
  obtain ⟨thread, member⟩ := committed
  rw [step_trace moved]
  exact ⟨thread, List.mem_cons_of_mem _ member⟩

namespace Climbing

/-- Whatever is handed over at the ladder's place is the event's record. -/
theorem ours_at {consumer : Consumer} (climbing : Climbing deployment event first ladder place pool)
    (live : ladder.rung.live = true) (handed : Handed deployment pool consumer record)
    (here : At place record) :
    Ours deployment event record ∧ record.headers.getAttempt = ladder.number first := by
  obtain ⟨topic, entry, found, carries, attempt⟩ := climbing.stands live
  have through : deployment.settings.carriesEvents place.1.topic := by
    rw [topic]
    apply consumer_carries
    cases ladder.rung <;> rintro ⟨⟩
  obtain ⟨stored, stood, decoded⟩ := handed.logged
  rw [here.1, here.2] at stood decoded
  rw [found] at stood
  cases stood
  obtain ⟨_, _, also, decodes⟩ := handed.logged.carries
  rw [here.1, here.2, found] at also
  cases also
  have topic : deployment.settings.carriesEvents record.tp.topic := here.1 ▸ through
  refine ⟨⟨decodes event carries, topic⟩, ?_⟩
  simp only [deserialize, Option.bind_eq_bind, Option.bind_eq_some_iff] at decoded
  obtain ⟨_, _, _, _, same⟩ := decoded
  rw [← attempt, ← congrArg ConsumerRecord.headers (Option.some.inj same)]

/-- A delivery on its way to a commit is the call the ladder stands at. -/
theorem here_of_deciding (climbing : Climbing deployment event first ladder place pool)
    {delivery : Delivery deployment} {token : String} {phase : Phase}
    (standing : stage deployment pool thread = .holding delivery token phase)
    (decides : phase.deciding = true) (ours : Ours deployment event delivery.record) :
    ladder.rung.live = true ∧ At place delivery.record ∧
      ladder.rung.Suits (stage deployment pool thread) := by
  have placed := climbing.placed thread delivery.record (by rw [standing]; rfl) ours
  rcases placed with here | ⟨_, leaves⟩
  · exact here
  · rw [standing] at leaves
    rw [phase.leaving_decided (leaves.imp id And.right)] at decides
    cases decides

/-- Two calls on the ladder's record are one. -/
theorem single (climbing : Climbing deployment event first ladder place pool)
    (ran : Ran deployment pool) {other : Nat} {second : ConsumerRecord}
    (inCall : (stage deployment pool thread).record = some record)
    (ours : Ours deployment event record) (here : At place record)
    (also : (stage deployment pool other).record = some second)
    (oursToo : Ours deployment event second) (there : At place second) : thread = other := by
  obtain ⟨_, _, handed⟩ := ours.handed ran inCall
  obtain ⟨_, _, handedToo⟩ := oursToo.handed ran also
  obtain rfl := here.unique there handed handedToo
  exact climbing.alone thread other record ours inCall also

/-- Nobody else changes the order of a delivery at work. -/
theorem undisturbed (climbing : Climbing deployment event first ladder place pool)
    (ran : Ran deployment pool) (moved : Step (system deployment) pool label after)
    {delivery : Delivery deployment} {token : String} {phase : Phase}
    (standing : stage deployment pool thread = .holding delivery token phase)
    (ours : Ours deployment event delivery.record) (decides : phase.deciding = true) :
    ¬ Disturbs label thread event.orderId := by
  rintro ⟨actor, writes, heard, changes, differ, rfl, _, member⟩
  rcases step_cases ran moved with ⟨_, _, _, same, act⟩ | ⟨_, turn⟩ | ⟨_, same, _⟩
  · cases same
    obtain ⟨second, mine, aim, reason, row, reading, same⟩ := commits_update act.permitted member
    have named := (sighted ran actor second mine _ reading).named aim reason row rfl
    have oursToo : Ours deployment event second.record :=
      climbing.apart.delivery ran (by rw [reading]; rfl) (by rw [reading]; rfl)
        (.inr (same.trans named).symm)
    obtain ⟨_, here, _⟩ := climbing.here_of_deciding standing decides ours
    obtain ⟨_, there, _⟩ := climbing.here_of_deciding reading rfl oursToo
    exact differ (climbing.single ran (by rw [reading]; rfl) oursToo there (by rw [standing]; rfl)
      ours here)
  · exact turn.not_did _ _ _ rfl
  · cases same

theorem ours_event {delivery : Delivery deployment} (ours : Ours deployment event delivery.record) :
    delivery.event = event := by
  apply delivery_event_eq _ rfl
  rw [ours.value]
  exact deployment.platform.modelValidate_dump event

/-! ### What every step keeps -/

theorem works_step (climbing : Climbing deployment event first ladder place pool)
    (ran : Ran deployment pool) (moved : Step (system deployment) pool label after) (thread : Nat)
    (delivery : Delivery deployment) (token : String) (phase : Phase)
    (standing : stage deployment after thread = .holding delivery token phase)
    (ours : Ours deployment event delivery.record) : Works deployment after thread delivery phase := by
  have others : stage deployment pool thread = .holding delivery token phase →
      (∀ op outcome, label ≠ .did thread op outcome) →
      Works deployment after thread delivery phase := by
    intro before elsewhere
    refine (climbing.works thread delivery token phase before ours).others ran moved elsewhere before ?_
    intro decides
    rw [ours_event ours]
    exact climbing.undisturbed ran moved before ours decides
  rcases step_cases ran moved with ⟨actor, op, outcome, rfl, act⟩ | ⟨actor, turn⟩ |
    ⟨happened, rfl, happening⟩
  · by_cases same : thread = actor
    · subst same
      rcases act.progress.holding standing with ⟨before, held, progress⟩ | ⟨rfl, _⟩
      · exact (climbing.works thread delivery token before held ours).own ran moved act held standing
          progress
      · trivial
    · refine others ?_ ?_
      · rw [← act.others thread same]
        exact standing
      · rintro _ _ ⟨⟩
        exact same rfl
  · by_cases same : thread = actor
    · subst same
      exact (begins_holding turn.begins standing).elim
    · refine others ?_ (turn.not_did thread)
      rw [← turn.others thread same]
      exact standing
  · refine others ?_ (by rintro _ _ ⟨⟩)
    rw [← happening.stages thread]
    exact standing

/-- A call that is on the event's record was so before, or has just begun. -/
theorem inCall_before (ran : Ran deployment pool)
    (moved : Step (system deployment) pool label after)
    (inCall : (stage deployment after thread).record = some record) :
    (stage deployment pool thread).record = some record ∨
      ∃ name outcome, label = .did thread (.handleCall name record) outcome := by
  rcases step_cases ran moved with ⟨actor, op, outcome, rfl, act⟩ | ⟨actor, turn⟩ |
    ⟨happened, rfl, happening⟩
  · by_cases same : thread = actor
    · subst same
      rcases act.progress.record inCall with ⟨before, _⟩ | ⟨name, rfl, _⟩
      · exact .inl before
      · exact .inr ⟨name, outcome, rfl⟩
    · rw [act.others thread same] at inCall
      exact .inl inCall
  · by_cases same : thread = actor
    · subst same
      have begins := turn.begins
      generalize stage deployment after thread = stands at begins inCall
      cases begins <;> cases inCall
    · rw [turn.others thread same] at inCall
      exact .inl inCall
  · rw [happening.stages thread] at inCall
    exact .inl inCall

theorem alone_step (climbing : Climbing deployment event first ladder place pool)
    (ran : Ran deployment pool) (moved : Step (system deployment) pool label after)
    (once : OnceDelivered deployment event pool label) (thread other : Nat)
    (record : ConsumerRecord) (ours : Ours deployment event record)
    (inCall : (stage deployment after thread).record = some record)
    (also : (stage deployment after other).record = some record) : thread = other := by
  rcases inCall_before ran moved inCall with before | ⟨name, outcome, rfl⟩
  · rcases inCall_before ran moved also with beforeToo | ⟨name, outcome, rfl⟩
    · exact climbing.alone thread other record ours before beforeToo
    · exact (once other name record outcome rfl ours (.inl ⟨thread, before⟩)).elim
  · rcases inCall_before ran moved also with beforeToo | ⟨name, outcome, same⟩
    · exact (once thread _ record _ rfl ours (.inl ⟨other, beforeToo⟩)).elim
    · cases same
      rfl

theorem new_commit {consumer : Consumer} (ran : Ran deployment pool)
    (moved : Step (system deployment) pool label after)
    (committed : Committed after.trace consumer record) :
    Committed pool.trace consumer record ∨ ∃ thread,
      label = .did thread (.handleReturn consumer.name record (some .commit)) (.ok ()) ∧
        (stage deployment pool thread).record = some record := by
  obtain ⟨thread, member⟩ := committed
  rw [step_trace moved] at member
  rcases List.mem_cons.mp member with rfl | before
  · right
    rcases step_cases ran moved with ⟨actor, op, outcome, same, act⟩ | ⟨actor, turn⟩ | ⟨_, same, _⟩
    · cases same
      obtain ⟨_, _, _, inCall⟩ := Stage.answering act.permitted
      exact ⟨thread, rfl, inCall⟩
    · exact (turn.not_did _ _ _ rfl).elim
    · cases same
  · exact .inl ⟨thread, before⟩

/-- No tombstone stands while the ladder goes on. -/
theorem unguarded_step (climbing : Climbing deployment event first ladder place pool)
    (ran : Ran deployment pool) (moved : Step (system deployment) pool label after)
    (live : ladder.rung.live = true) :
    after.world.redis (.eventGuard event.eventId) ≠ some done := by
  have before := climbing.unguarded live
  rcases step_cases ran moved with ⟨actor, op, outcome, rfl, act⟩ | ⟨actor, turn⟩ |
    ⟨happened, rfl, happening⟩
  · cases guard_change act event.eventId with
    | same redis => exact redis ▸ before
    | claimed delivery token taken _ standing _ _ redis =>
      rw [redis]
      intro same
      cases same
      exact token_ne_done ran actor (by rw [standing]; rfl) rfl
    | completed delivery token phase verdict named completes standing _ _ _ =>
      have ours : Ours deployment event delivery.record :=
        climbing.apart.delivery ran (by rw [standing]; rfl) (by rw [standing]; rfl) (.inl named)
      have placed := climbing.placed actor delivery.record (by rw [standing]; rfl) ours
      obtain ⟨unsuited, resends⟩ :=
        ladder.rung.not_completing delivery token completes
      rw [standing] at placed
      rcases placed with ⟨_, _, suits⟩ | ⟨_, resent | ⟨ended, _⟩⟩
      · exact (unsuited suits).elim
      · rw [resends] at resent
        cases resent
      · rw [live] at ended
        cases ended
    | released _ _ _ _ _ _ _ redis =>
      rw [redis]
      rintro ⟨⟩
  · rw [turn.world]
    exact before
  · rcases happen_redis happening.happened (.eventGuard event.eventId) with same | ⟨_, gone⟩
    · exact same ▸ before
    · rw [gone]
      rintro ⟨⟩

/-- Only a delivery of the event changes its order. -/
theorem version_step (climbing : Climbing deployment event first ladder place pool)
    (ran : Ran deployment pool) (moved : Step (system deployment) pool label after) :
    (after.world.orders event.orderId = pool.world.orders event.orderId ∧
      after.world.transitions event.orderId = pool.world.transitions event.orderId) ∨
    ∃ actor writes outcome record, label = .did actor (.commit writes) outcome ∧ writes ≠ [] ∧
      (stage deployment pool actor).record = some record ∧ Ours deployment event record := by
  rcases step_versions ran moved with ⟨orders, transitions⟩ | ⟨actor, op, outcome, rfl, act, change⟩
  · exact .inl ⟨congrFun orders _, congrFun transitions _⟩
  · cases change with
    | same orders transitions => exact .inl ⟨congrFun orders _, congrFun transitions _⟩
    | inserted payload key new hop _ drawn world _ =>
      left
      have differ : event.orderId ≠ (Repository.newRow payload new).id := by
        intro same
        have absent := drawn_absent ran actor payload key new drawn
        obtain ⟨row, found⟩ := climbing.status.known
        rw [same] at found
        exact absurd (absent.symm.trans found) (by rintro ⟨⟩)
      rw [world, create_orders, create_transitions]
      exact ⟨Function.update_of_ne differ .., Function.update_of_ne differ ..⟩
    | updated delivery token aim reason row note hop commits standing world _ =>
      by_cases same : event.orderId = row.id
      · right
        have named := (sighted ran actor delivery token _ standing).named aim reason row rfl
        subst commits
        refine ⟨actor, _, outcome, delivery.record, rfl, by rintro ⟨⟩, by rw [standing]; rfl, ?_⟩
        exact climbing.apart.delivery ran (by rw [standing]; rfl) (by rw [standing]; rfl)
          (.inr (same.trans named).symm)
      · left
        rw [world, transition_orders, transition_transitions]
        exact ⟨Function.update_of_ne same .., Function.update_of_ne same ..⟩

end Climbing

theorem append_entry {world : World} {tp : TopicPartition} {home : TopicPartition}
    {stored : WireRecord} {offset : Nat} {entry : LogEntry}
    (found : ((world.append home stored).logs tp)[offset]? = some entry) :
    (world.logs tp)[offset]? = some entry ∨
      tp = home ∧ offset = (world.logs home).length ∧ entry = ⟨stored, world.appends⟩ := by
  by_cases same : tp = home
  · subst same
    simp only [World.append, Function.update_self] at found
    rcases Nat.lt_or_ge offset (world.logs tp).length with before | past
    · rw [List.getElem?_append_left before] at found
      exact .inl found
    · rw [List.getElem?_append_right past] at found
      have bound := (List.getElem?_eq_some_iff.mp found).1
      have last : offset = (world.logs tp).length := by
        simp only [List.length_singleton] at bound
        omega
      subst last
      simp only [Nat.sub_self, List.getElem?_cons_zero, Option.some.injEq] at found
      exact .inr ⟨rfl, rfl, found.symm⟩
  · simp only [World.append, Function.update_of_ne same] at found
    exact .inl found

theorem carries_related {entry : LogEntry} (carries : Carries deployment.platform entry event) :
    ¬ UnrelatedRecord deployment.platform event entry.record := by
  intro unrelated
  have read : valueDeserializer deployment.platform entry.record.value =
      some (deployment.platform.modelDump event) := by
    rw [carries]
    exact serialized_value deployment.platform event
  exact ((unrelated _ read).other event (deployment.platform.modelValidate_dump event)).1 rfl

/-- A record of the event that was handed over stands on its log. -/
theorem Ours.entry {consumer : Consumer} (ours : Ours deployment event record)
    (apart : Apart deployment event pool) (handed : Handed deployment pool consumer record) :
    ∃ entry, (pool.world.logs record.tp)[record.offset]? = some entry ∧
      Carries deployment.platform entry event := by
  obtain ⟨entry, found, decoded⟩ := handed.logged
  refine ⟨entry, found, ?_⟩
  rcases apart.logs record.tp ours.topic entry (List.mem_of_getElem? found) with carries | unrelated
  · exact carries
  · simp only [deserialize, Option.bind_eq_bind, Option.bind_eq_some_iff] at decoded
    obtain ⟨_, _, value, read, same⟩ := decoded
    have held := congrArg ConsumerRecord.value (Option.some.inj same)
    have valid := deployment.platform.modelValidate_dump event
    rw [← ours.value, ← held] at valid
    exact absurd rfl ((unrelated value read).other event valid).1

namespace Climbing

/-- Only a call on a record of the event puts out another. -/
theorem logs_step (climbing : Climbing deployment event first ladder place pool)
    (ran : Ran deployment pool) (moved : Step (system deployment) pool label after)
    (produced : ProducesUnrelated deployment event pool label) :
    (∀ (tp : TopicPartition) (offset : Nat) (entry : LogEntry),
      deployment.settings.carriesEvents tp.topic →
      (after.world.logs tp)[offset]? = some entry → Carries deployment.platform entry event →
        (pool.world.logs tp)[offset]? = some entry) ∨
    ∃ actor topic key value headers outcome record,
      label = .did actor (.send topic key value headers) outcome ∧
        (stage deployment pool actor).record = some record ∧ Ours deployment event record := by
  rcases step_cases ran moved with ⟨actor, op, outcome, rfl, act⟩ | ⟨actor, turn⟩ |
    ⟨happened, rfl, happening⟩
  · cases logs_change act with
    | same logs _ =>
      left
      intro tp offset entry _ found _
      exact logs ▸ found
    | appended partition sends publishes world _ =>
      subst sends
      by_cases mine : ∃ record, (stage deployment pool actor).record = some record ∧
          Ours deployment event record
      · obtain ⟨record, inCall, ours⟩ := mine
        exact .inr ⟨actor, _, _, _, _, outcome, record, rfl, inCall, ours⟩
      · left
        intro tp offset entry topic found carries
        rw [world] at found
        rcases append_entry found with earlier | ⟨rfl, _, rfl⟩
        · exact earlier
        · rcases climbing.apart.publishes ran publishes topic
              pool.world.appends with
            ⟨_, ours⟩ | unrelated
          · exact (mine ours).elim
          · exact (carries_related carries unrelated).elim
  · left
    rw [turn.world]
    exact fun _ _ _ _ found _ => found
  · left
    intro tp offset entry topic found carries
    rcases happen_logs happening.happened with ⟨logs, _⟩ | ⟨home, stored, rfl, world⟩
    · exact logs ▸ found
    · rw [world] at found
      rcases append_entry found with earlier | ⟨rfl, _, rfl⟩
      · exact earlier
      · exact (carries_related carries (produced _ _ rfl topic)).elim

/-! ### Steps that stay on the rung -/

/-- What is left to show of a step that changes neither the order nor the event's records. -/
theorem kept (climbing : Climbing deployment event first ladder place pool)
    (ran : Ran deployment pool) (moved : Step (system deployment) pool label after)
    (produced : ProducesUnrelated deployment event pool label)
    (once : OnceDelivered deployment event pool label)
    (version : after.world.orders event.orderId = pool.world.orders event.orderId ∧
      after.world.transitions event.orderId = pool.world.transitions event.orderId)
    (logs : ∀ (tp : TopicPartition) (offset : Nat) (entry : LogEntry),
      deployment.settings.carriesEvents tp.topic →
      (after.world.logs tp)[offset]? = some entry → Carries deployment.platform entry event →
        (pool.world.logs tp)[offset]? = some entry)
    (placed : ∀ thread record, (stage deployment after thread).record = some record →
      Ours deployment event record →
        ladder.rung.Places place record (stage deployment after thread))
    (taken : ∀ record, Ours deployment event record → Taken deployment pool record →
      At place record ∧ ladder.rung.idle = true ∨ Taken deployment after record)
    (unspent : ladder.rung.live = true → ∀ consumer record, At place record →
      ¬ Committed after.trace consumer record) :
    Climbing deployment event first ladder place after := by
  constructor
  · exact climbing.apart.step ran moved produced
  · exact climbing.status.same version.1
  · rw [version.2]
    exact climbing.trail
  · exact climbing.unguarded_step ran moved
  · intro live
    obtain ⟨topic, entry, found, carried⟩ := climbing.stands live
    exact ⟨topic, entry, entry_stays moved found, carried⟩
  · exact placed
  · exact climbing.works_step ran moved
  · exact climbing.alone_step ran moved once
  · intro tp offset entry topic found carries
    rcases climbing.taken tp offset entry topic (logs tp offset entry topic found carries) carries with
      here | ⟨record, ours, there, before⟩
    · exact .inl here
    · rcases taken record ours before with ⟨here, idle⟩ | still
      · exact .inl ⟨here.same there, idle⟩
      · exact .inr ⟨record, ours, there, still⟩
  · exact unspent
  · exact climbing.fits

/-- A step of anything but a call on the event's records. -/
theorem bystands (climbing : Climbing deployment event first ladder place pool)
    (ran : Ran deployment pool) (moved : Step (system deployment) pool label after)
    (produced : ProducesUnrelated deployment event pool label)
    (once : OnceDelivered deployment event pool label)
    (same : ∀ thread record, Ours deployment event record →
      (stage deployment pool thread).record = some record ∨
        (stage deployment after thread).record = some record →
      stage deployment after thread = stage deployment pool thread)
    (quiet : ∀ actor op outcome record, label = .did actor op outcome →
      (stage deployment pool actor).record = some record → ¬ Ours deployment event record) :
    Climbing deployment event first ladder place after := by
  refine climbing.kept ran moved produced once ?_ ?_ ?_ ?_ ?_
  · rcases climbing.version_step ran moved with version | ⟨actor, _, _, record, label, _, inCall, ours⟩
    · exact version
    · exact (quiet _ _ _ record label inCall ours).elim
  · rcases climbing.logs_step ran moved produced with
      logs | ⟨actor, _, _, _, _, _, record, label, inCall, ours⟩
    · exact logs
    · exact (quiet _ _ _ record label inCall ours).elim
  · intro thread record inCall ours
    have before := same thread record ours (.inr inCall)
    rw [before] at inCall ⊢
    exact climbing.placed thread record inCall ours
  · intro record ours taken
    right
    rcases taken with ⟨thread, inCall⟩ | ⟨consumer, committed⟩
    · exact .inl ⟨thread, by rw [same thread record ours (.inl inCall)]; exact inCall⟩
    · exact .inr ⟨consumer, committed_kept committed moved⟩
  · intro live consumer record here committed
    rcases new_commit ran moved committed with before | ⟨thread, label, inCall⟩
    · exact climbing.unspent live consumer record here before
    · obtain ⟨_, handed, _⟩ := handling ran thread record inCall
      exact quiet _ _ _ record label inCall (climbing.ours_at live handed here).1

theorem happens_stays {happened : Event} (climbing : Climbing deployment event first ladder place pool)
    (ran : Ran deployment pool) (moved : Step (system deployment) pool (.event happened) after)
    (happening : Happens deployment pool after happened)
    (produced : ProducesUnrelated deployment event pool (.event happened)) :
    Climbing deployment event first ladder place after := by
  refine climbing.bystands ran moved produced (by rintro _ _ _ _ ⟨⟩) ?_ (by rintro _ _ _ _ ⟨⟩)
  intro thread record _ _
  exact happening.stages thread

theorem turn_stays {actor : Nat} (climbing : Climbing deployment event first ladder place pool)
    (ran : Ran deployment pool) (moved : Step (system deployment) pool label after)
    (turn : Turns deployment pool after label actor)
    (undisturbed : Undisturbed deployment event pool label) :
    Climbing deployment event first ladder place after := by
  refine climbing.bystands ran moved undisturbed.produced ?_ ?_ ?_
  · intro thread name record outcome did
    exact (turn.not_did _ _ _ did).elim
  · intro thread record ours inCall
    by_cases mine : thread = actor
    · subst mine
      exfalso
      rcases inCall with before | now
      · rcases turn.own with ⟨_, _, _, outside, _⟩ | ⟨_, _, outside, _⟩ | ⟨crashed, _⟩
        · rw [outside] at before
          cases before
        · rw [outside] at before
          cases before
        · exact undisturbed.survives thread record before ours crashed
      · have begins := turn.begins
        generalize stage deployment after thread = stands at begins now
        cases begins <;> cases now
    · exact turn.others thread mine
  · intro thread op outcome record did
    exact (turn.not_did _ _ _ did).elim

theorem foreign_stays (climbing : Climbing deployment event first ladder place pool)
    (ran : Ran deployment pool) (moved : Step (system deployment) pool (.did thread op outcome) after)
    (act : Acts deployment pool after thread op outcome)
    (produced : ProducesUnrelated deployment event pool (.did thread op outcome))
    (foreign : ∀ record, (stage deployment pool thread).record = some record →
      ¬ Ours deployment event record)
    (calls : ∀ name record, op = .handleCall name record → ¬ Ours deployment event record) :
    Climbing deployment event first ladder place after := by
  refine climbing.bystands ran moved produced ?_ ?_ ?_
  · intro other name record outcome did ours
    cases did
    exact (calls name record rfl ours).elim
  · intro other record ours inCall
    by_cases mine : other = thread
    · subst mine
      exfalso
      rcases inCall with before | now
      · exact foreign record before ours
      · rcases inCall_before ran moved now with before | ⟨name, outcome, did⟩
        · exact foreign record before ours
        · cases did
          exact calls name record rfl ours
    · exact act.others other mine
  · intro actor _ _ record did inCall
    cases did
    exact foreign record inCall

/-- The ladder's record is handed over: it was waiting to be. -/
theorem enters {name : String} {outcome : Outcome Exn Unit}
    (climbing : Climbing deployment event first ladder place pool) (ran : Ran deployment pool)
    (moved : Step (system deployment) pool (.did thread (.handleCall name record) outcome) after)
    (act : Acts deployment pool after thread (.handleCall name record) outcome)
    (produced : ProducesUnrelated deployment event pool
      (.did thread (.handleCall name record) outcome))
    (once : OnceDelivered deployment event pool (.did thread (.handleCall name record) outcome))
    (ours : Ours deployment event record) :
    Climbing deployment event first ladder place after := by
  have untaken := once thread name record outcome rfl ours
  have outside := Stage.entering act.permitted
  obtain ⟨fate, performed⟩ := act.performed
  obtain ⟨consumer, rfl, handed⟩ := handed_over ran act.looped
  obtain ⟨entry, found, carries⟩ := ours.entry climbing.apart handed
  obtain ⟨same, idle⟩ : place = (record.tp, record.offset) ∧ ladder.rung.idle = true := by
    rcases climbing.taken record.tp record.offset entry ours.topic found carries with
      waits | ⟨other, oursToo, there, taken⟩
    · exact waits
    · exfalso
      apply untaken
      rcases taken with ⟨caller, inCall⟩ | ⟨answerer, committed⟩
      · obtain ⟨_, _, handedToo⟩ := oursToo.handed ran inCall
        have here : At (record.tp, record.offset) record := ⟨rfl, rfl⟩
        rw [here.unique there handed handedToo]
        exact .inl ⟨caller, inCall⟩
      · have handedToo := committed_handed ran committed
        have here : At (record.tp, record.offset) record := ⟨rfl, rfl⟩
        rw [here.unique there handed handedToo]
        exact .inr ⟨answerer, committed⟩
  have here : At place record := by
    rw [same]
    exact ⟨rfl, rfl⟩
  have live : ladder.rung.live = true := by
    cases rung : ladder.rung <;> rw [rung] at idle <;> first | rfl | cases idle
  have consumes : consumer = ladder.rung.consumer := by
    apply topic_injective deployment.settings
    rw [← handed.topic, ← (climbing.stands live).1]
    exact congrArg TopicPartition.topic here.1
  have called : stage deployment after thread = Stage.called deployment consumer.name record := by
    obtain ⟨_, reply, answered, heard⟩ := perform_local performed rfl
    simp only [answer, Option.some.injEq, Prod.mk.injEq] at answered
    obtain ⟨rfl, _⟩ := answered
    rw [act.own, outside, heard]
    rfl
  have suits : ladder.rung.Suits (stage deployment after thread) := by
    rw [called, consumes]
    cases rung : ladder.rung <;> rw [rung] at idle <;> trivial
  refine climbing.kept ran moved produced once ⟨?_, ?_⟩ ?_ ?_ ?_ ?_
  · exact congrFun (perform_orders performed rfl) _
  · exact congrFun (perform_transitions performed rfl) _
  · intro tp offset entry _ now _
    rwa [perform_logs performed rfl] at now
  · intro other second inCall oursToo
    by_cases mine : other = thread
    · subst mine
      rw [called, Stage.called_record] at inCall
      cases inCall
      exact .inl ⟨live, here, suits⟩
    · rw [act.others other mine] at inCall ⊢
      exact climbing.placed other second inCall oursToo
  · intro second oursToo taken
    right
    rcases taken with ⟨caller, inCall⟩ | ⟨answerer, committed⟩
    · refine .inl ⟨caller, ?_⟩
      rw [act.others caller (by rintro rfl; rw [outside] at inCall; cases inCall)]
      exact inCall
    · exact .inr ⟨answerer, committed_kept committed moved⟩
  · intro live answerer second there committed
    rcases new_commit ran moved committed with before | ⟨_, did, _⟩
    · exact climbing.unspent live answerer second there before
    · cases did

theorem still_world {fate : Fate} {world last : World}
    (performed : perform deployment thread op world fate = some (outcome, last))
    (still : op.still = true) :
    last.orders = world.orders ∧ last.transitions = world.transitions ∧ last.logs = world.logs := by
  have frame : op.onTables = false → op.onLogs = false → last.orders = world.orders ∧
      last.transitions = world.transitions ∧ last.logs = world.logs := fun tables logs =>
    ⟨perform_orders performed tables, perform_transitions performed tables,
      perform_logs performed logs⟩
  cases op with
  | commit writes =>
    obtain rfl : writes = [] := List.isEmpty_iff.mp still
    obtain ⟨orders, transitions, _, logs, _⟩ := perform_idle performed rfl
    exact ⟨orders, transitions, logs⟩
  | send | fulfil | handleCall | handleReturn => cases still
  | _ => exact frame rfl rfl

/-- A call on the event's record goes on without climbing. -/
theorem lingers (climbing : Climbing deployment event first ladder place pool)
    (ran : Ran deployment pool) (moved : Step (system deployment) pool (.did thread op outcome) after)
    (act : Acts deployment pool after thread op outcome)
    (produced : ProducesUnrelated deployment event pool (.did thread op outcome))
    (inCall : (stage deployment pool thread).record = some record) (still : op.still = true)
    (stays : (stage deployment after thread).record = (stage deployment pool thread).record)
    (places : ladder.rung.Places place record (stage deployment after thread)) :
    Climbing deployment event first ladder place after := by
  obtain ⟨fate, performed⟩ := act.performed
  obtain ⟨orders, transitions, logs⟩ := still_world performed still
  have once : OnceDelivered deployment event pool (.did thread op outcome) := by
    rintro _ _ _ _ ⟨⟩
    cases still
  refine climbing.kept ran moved produced once ⟨congrFun orders _, congrFun transitions _⟩ ?_ ?_ ?_ ?_
  · intro tp offset entry _ now _
    rwa [logs] at now
  · intro other second now ours
    by_cases mine : other = thread
    · subst mine
      rw [stays, inCall] at now
      cases now
      exact places
    · rw [act.others other mine] at now ⊢
      exact climbing.placed other second now ours
  · intro second ours taken
    right
    rcases taken with ⟨caller, before⟩ | ⟨answerer, committed⟩
    · refine .inl ⟨caller, ?_⟩
      by_cases mine : caller = thread
      · subst mine
        rw [stays]
        exact before
      · rw [act.others caller mine]
        exact before
    · exact .inr ⟨answerer, committed_kept committed moved⟩
  · intro live answerer second there committed
    rcases new_commit ran moved committed with before | ⟨_, did, _⟩
    · exact climbing.unspent live answerer second there before
    · cases did
      cases still

/-- A call on the event's record ends: its record waits on, or it is done. -/
theorem ends_call {name : String} {answered : ConsumerRecord} {result : Option Ack}
    {outcome : Outcome Exn Unit}
    (climbing : Climbing deployment event first ladder place pool) (ran : Ran deployment pool)
    (moved : Step (system deployment) pool
      (.did thread (.handleReturn name answered result) outcome) after)
    (act : Acts deployment pool after thread (.handleReturn name answered result) outcome)
    (produced : ProducesUnrelated deployment event pool
      (.did thread (.handleReturn name answered result) outcome))
    (inCall : (stage deployment pool thread).record = some record)
    (left : stage deployment after thread = .outside)
    (settles : At place record ∧ ladder.rung.idle = true ∧ result = some .redeliver ∨
      ¬ (ladder.rung.live = true ∧ At place record) ∧
        ∃ consumer, Committed after.trace consumer record) :
    Climbing deployment event first ladder place after := by
  obtain ⟨fate, performed⟩ := act.performed
  refine climbing.kept ran moved produced (by rintro _ _ _ _ ⟨⟩) ⟨?_, ?_⟩ ?_ ?_ ?_ ?_
  · exact congrFun (perform_orders performed rfl) _
  · exact congrFun (perform_transitions performed rfl) _
  · intro tp offset entry _ now _
    rwa [perform_logs performed rfl] at now
  · intro other second now ours
    by_cases mine : other = thread
    · subst mine
      rw [left] at now
      cases now
    · rw [act.others other mine] at now ⊢
      exact climbing.placed other second now ours
  · intro second ours taken
    rcases taken with ⟨caller, before⟩ | ⟨answerer, committed⟩
    · by_cases mine : caller = thread
      · subst mine
        rw [inCall] at before
        cases before
        rcases settles with ⟨here, idle, _⟩ | ⟨_, committed⟩
        · exact .inl ⟨here, idle⟩
        · exact .inr (.inr committed)
      · exact .inr (.inl ⟨caller, by rw [act.others caller mine]; exact before⟩)
    · exact .inr (.inr ⟨answerer, committed_kept committed moved⟩)
  · intro live answerer second there committed
    rcases new_commit ran moved committed with before | ⟨_, did, answering⟩
    · exact climbing.unspent live answerer second there before
    · cases did
      rw [inCall] at answering
      cases answering
      rcases settles with ⟨_, _, redelivers⟩ | ⟨elsewhere, _⟩
      · cases redelivers
      · exact elsewhere ⟨live, there⟩

end Climbing
end OrderFlow
