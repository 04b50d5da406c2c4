import OrderFlow.Deliveries
import OrderFlow.Runs.Handles
import OrderFlow.Sample

/-!
A record delivered again. A call of `handle` that settles its event leaves the
tombstone behind; the next call finds it, counts itself and changes nothing.
-/
namespace OrderFlow
open AsyncCoroutine AsyncPool

variable {deployment : Deployment} {allows : Pipeline → Moment → Prop}
  {start pool after : Pipeline} {thread : Nat} {op : Op} {outcome : Outcome Exn op.Reply}
  {record : ConsumerRecord} {event : OrderEvent} {eventId : String} {label : Moment}
  {past : List (Pipeline × Moment)}

/-! ### The tombstone -/

/-- The phases of a delivery whose tombstone is set. -/
def Phase.tombstoned : Phase → Bool
  | .buried => true
  | .closed .retried => false
  | .closed _ => true
  | _ => false

/-- The phases of a delivery that is to be retried. -/
def Phase.scheduling : Phase → Bool
  | .towards .pending _ => true
  | .read .pending _ _ => true
  | .moved .pending _ => true
  | .sent .pending => true
  | .closed .retried => true
  | _ => false

/-- The operation compared and set the key for this token. -/
def Completes : (op : Op) → Outcome Exn op.Reply → Key → String → Prop
  | .evalComplete key written _, .ok _, completed, token => key = completed ∧ written = token
  | _, _, _, _ => False

theorem Phase.Progress.tombstoned {delivery : Delivery deployment} {token : String}
    {before later : Phase} (moved : Phase.Progress delivery token before op outcome later)
    (holds : later.tombstoned = true) : before.tombstoned = true ∨
      before.guarded = true ∧ Completes op outcome delivery.guard token := by
  cases moved with
  | checks row =>
    unfold checked at holds
    split at holds <;> cases holds
  | fulfils reason result =>
    rcases decide_deciding delivery result.reply with ⟨aim, reason, leads⟩ | leads <;>
      rw [leads] at holds <;> cases holds
  | tombs | ends | completes | seals => exact .inr ⟨rfl, rfl, rfl⟩
  | buries => exact .inl rfl
  | stays => exact .inl holds
  | _ => cases holds

theorem Phase.Progress.scheduling {delivery : Delivery deployment} {token : String}
    {before later : Phase} (moved : Phase.Progress delivery token before op outcome later)
    (holds : later.scheduling = true) : before.scheduling = true ∨ ∃ message,
      (delivery.attempt : Int) < deployment.settings.maxAttempts ∧
        FulfilRaises op outcome delivery.event message := by
  cases moved with
  | checks row =>
    unfold checked at holds
    split at holds <;> cases holds
  | fulfils reason result =>
    have leads : ∃ why, (Phase.decide delivery result.reply).retrying = some why := by
      rcases decide_deciding delivery result.reply with ⟨aim, why, leads⟩ | leads <;>
        rw [leads] at holds ⊢
      · cases aim with
        | pending => exact ⟨why, rfl⟩
        | _ => cases holds
      · cases holds
    obtain ⟨why, retries⟩ := leads
    have moved : Phase.Progress delivery token _ _ _ _ := .fulfils reason result
    rcases moved.retrying retries with none | ⟨message, _, below, raises⟩
    · cases none
    · exact .inr ⟨message, below, raises⟩
  | writes aim | rereads aim => cases aim <;> exact .inl holds
  | retries | releases => exact .inl rfl
  | stays => exact .inl holds
  | _ => cases holds

theorem Acts.completes {key : Key} {token : String}
    (act : Acts deployment pool after thread op outcome) (completes : Completes op outcome key token)
    (held : pool.world.redis key = some token) : after.world.redis key = some done := by
  obtain ⟨fate, performed⟩ := act.performed
  unfold Completes at completes
  split at completes
  · obtain ⟨rfl, rfl⟩ := completes
    rcases perform_evalComplete performed with ⟨error, lost, _⟩ | ⟨_, _, world⟩ | ⟨_, other, _⟩
    · cases lost
    · rw [world]
      simp [World.setRedis]
    · exact (other held).elim
  · exact completes.elim

/-! ### The first delivery -/

/-- The step is no TransientError of an attempt that is to be retried. -/
def Settles (deployment : Deployment) (thread : Nat) (record : ConsumerRecord) (event : OrderEvent)
    (label : Moment) : Prop :=
  ∀ outcome message, label = .did thread (.fulfil event) outcome →
    outcome.reply = .error (.transient message) →
    deployment.settings.maxAttempts ≤ (record.headers.getAttempt : Int)

/-- Where a call stands that schedules no retry, and what the guard key then holds. -/
def Settling (eventId : String) (record : ConsumerRecord) (pool : Pipeline) :
    Stage deployment → Prop
  | .entered other => other = record
  | .claiming delivery _ _ => delivery.record = record
  | .holding delivery token phase => delivery.record = record ∧ phase.scheduling = false ∧
      (phase.guarded = true → pool.world.redis (.eventGuard eventId) = some token) ∧
      (phase.tombstoned = true → pool.world.redis (.eventGuard eventId) = some done)
  | .settled _ _ => pool.world.redis (.eventGuard eventId) = some done
  | _ => True

theorem Settling.held {delivery : Delivery deployment} {token : String} {first phase : Phase}
    (ran : Ran deployment pool) (unexpired : Unexpired eventId pool (.did thread op outcome))
    (moved : Step (system deployment) pool (.did thread op outcome) after)
    (act : Acts deployment pool after thread op outcome)
    (valid : deployment.platform.modelValidate record.value = .ok event)
    (named : event.eventId = eventId) (settles : Settles deployment thread record event (.did thread op outcome))
    (before : stage deployment pool thread = .holding delivery token first)
    (standing : stage deployment after thread = .holding delivery token phase)
    (progress : first.Progress delivery token op outcome phase)
    (known : Settling eventId record pool (.holding delivery token first)) :
    Settling eventId record after (.holding delivery token phase) := by
  obtain ⟨same, unscheduled, guards, sealed⟩ := known
  have read := delivery_event_eq valid same
  have guard : delivery.guard = .eventGuard eventId := by rw [Delivery.guard, read, named]
  refine ⟨same, ?_, fun holds => ?_, fun holds => ?_⟩
  · by_contra schedules
    rw [Bool.not_eq_false] at schedules
    rcases progress.scheduling schedules with earlier | ⟨message, below, raises⟩
    · rw [unscheduled] at earlier
      cases earlier
    · obtain ⟨heard, label, failed⟩ := raises.label thread
      rw [read] at label
      have last := settles heard message label failed
      rw [← same] at last
      exact absurd below (Int.not_lt.mpr last)
  · rw [(guard_change act eventId).own before standing holds]
    exact guards (progress.guarded holds)
  · rcases progress.tombstoned holds with earlier | ⟨guarded, completes⟩
    · exact tombstone_kept ran unexpired moved (sealed earlier)
    · rw [guard] at completes
      exact act.completes completes (guards guarded)

theorem Settling.own (ran : Ran deployment pool)
    (unexpired : Unexpired eventId pool (.did thread op outcome))
    (moved : Step (system deployment) pool (.did thread op outcome) after)
    (act : Acts deployment pool after thread op outcome)
    (valid : deployment.platform.modelValidate record.value = .ok event)
    (named : event.eventId = eventId)
    (settles : Settles deployment thread record event (.did thread op outcome))
    (inside : ∀ name other heard, Label.did thread op outcome ≠
      (.did thread (.handleCall name other) heard : Moment))
    (known : Settling eventId record pool (stage deployment pool thread)) :
    Settling eventId record after (stage deployment after thread) := by
  have progress := act.progress
  generalize standing : stage deployment pool thread = before at progress known
  generalize reaches : stage deployment after thread = later at progress
  cases progress with
  | called name other => exact (inside name other _ rfl).elim
  | prepares | draws => exact known
  | rejects other text _ invalid =>
    obtain rfl : other = record := known
    rw [valid] at invalid
    cases invalid
  | acquires delivery token taken ttl =>
    have same : delivery.record = record := known
    have read := delivery_event_eq valid same
    have guard : delivery.guard = .eventGuard eventId := by rw [Delivery.guard, read, named]
    have takes : Wins (.setNx delivery.guard token ttl) (.ok true) delivery.guard token :=
      ⟨rfl, rfl, rfl⟩
    have won := act.wins takes
    rw [guard] at won
    refine ⟨same, rfl, fun _ => won.2, fun holds => ?_⟩
    cases holds
  | refused | sees | waits => exact known
  | skips delivery token taken =>
    have same : delivery.record = record := known
    have read := delivery_event_eq valid same
    have guard : delivery.guard = .eventGuard eventId := by rw [Delivery.guard, read, named]
    have saw : Gets (.get delivery.guard) (.ok (some done)) delivery.guard (some done) := ⟨rfl, rfl⟩
    obtain ⟨found, world⟩ := act.gets saw
    rw [guard] at found
    rw [Settling, world]
    exact found
  | proceeds delivery token first phase progress =>
    exact Settling.held ran unexpired moved act valid named settles standing reaches progress known
  | counts => exact tombstone_kept ran unexpired moved known
  | _ => trivial

theorem Settling.others (ran : Ran deployment pool) (unexpired : Unexpired eventId pool label)
    (moved : Step (system deployment) pool label after)
    (others : ∀ op outcome, label ≠ .did thread op outcome)
    (known : Settling eventId record pool (stage deployment pool thread)) :
    Settling eventId record after (stage deployment pool thread) := by
  cases standing : stage deployment pool thread with
  | holding delivery token phase =>
    rw [standing] at known
    obtain ⟨same, unscheduled, guards, sealed⟩ := known
    refine ⟨same, unscheduled, fun holds => ?_, fun holds => ?_⟩
    · exact token_kept ran unexpired moved others (by rw [standing]; rfl) (guards holds)
    · exact tombstone_kept ran unexpired moved (sealed holds)
  | settled handled verdict =>
    rw [standing] at known
    exact tombstone_kept ran unexpired moved known
  | entered | claiming =>
    rw [standing] at known
    exact known
  | _ => trivial

/-- A call that schedules no retry leaves the tombstone behind when it commits. -/
theorem settled_tombstone {answered left : Pipeline}
    (ran : Ran deployment start) (valid : deployment.platform.modelValidate record.value = .ok event)
    (handles : Handles deployment event.eventId thread record start past answered)
    (settles : ∀ step ∈ past, Settles deployment thread record event step.2)
    (committed : Step (system deployment) answered
      (.did thread (.handleReturn Consumer.processor.name record (some .commit)) (.ok ())) left) :
    left.world.redis (.eventGuard event.eventId) = some done := by
  have stands := handles.stays (Q := Settling event.eventId record) ran ?_ ?_ ?_ ?_
  · obtain ⟨known, reached, _⟩ := stands
    have unexpired : Unexpired event.eventId answered
        (.did thread (.handleReturn Consumer.processor.name record (some .commit)) (.ok ())) := by
      rintro ⟨⟩
    apply tombstone_kept reached unexpired committed
    rcases step_cases reached committed with ⟨actor, op, outcome, same, act⟩ | ⟨actor, turn⟩ |
      ⟨event, same, _⟩
    · cases same
      have permitted := act.permitted
      obtain ⟨consumer, consumes, name, _⟩ := Stage.answering act.permitted
      obtain rfl := name_injective name
      cases standing : stage deployment answered thread with
      | holding delivery token phase =>
        rw [standing] at known permitted
        cases phase with
        | closed verdict =>
          apply known.2.2.2
          cases verdict with
          | retried => cases known.2.1
          | _ => rfl
        | moved aim reason | towards aim reason | sent aim =>
          cases aim <;> exact permitted.elim
        | _ => exact permitted.elim
      | settled handled verdict =>
        rw [standing] at known
        exact known
      | claiming delivery token taken =>
        rw [standing] at permitted
        cases permitted.2.2.2
      | entered handled =>
        rw [standing] at permitted
        exact permitted.elim
      | _ =>
        rw [standing] at consumes
        cases consumes
    · exact (turn.not_did _ _ _ rfl).elim
    · cases same
  · intro pool label after ran unexpired moved known
    trivial
  · intro entered act
    rfl
  · intro pool label after ran unexpired moved others known
    exact Settling.others ran unexpired moved others known
  · intro pool op outcome after ran member moved act known
    have unexpired : Unexpired event.eventId pool (.did thread op outcome) := by
      rintro ⟨⟩
    exact Settling.own ran unexpired moved act valid rfl (settles _ member)
      (fun name other => (handles.inside _ member name other).1) known

/-! ### The second delivery -/

/-- What a redelivery is to leave as it was. -/
structure Untouched (settings : Settings) (world later : World) : Prop where
  orders : later.orders = world.orders
  transitions : later.transitions = world.transitions
  retry : ∀ partition, later.logs ⟨settings.topicRetry, partition⟩ =
    world.logs ⟨settings.topicRetry, partition⟩
  dlq : ∀ partition, later.logs ⟨settings.topicDlq, partition⟩ =
    world.logs ⟨settings.topicDlq, partition⟩

/-- Where a call stands that finds the tombstone; it gives up only after a fault. -/
def Skimming (fault : Prop) (record : ConsumerRecord) : Stage deployment → Prop
  | .entered other => other = record
  | .claiming delivery _ taken => delivery.record = record ∧ taken = false
  | .settled _ _ => True
  | .leaving _ => fault
  | .outside => True
  | _ => False

/-- Such a call leaves when an operation of its own failed. -/
theorem skimming_fails {before : Stage deployment} {fault : Prop} {handled : ConsumerRecord}
    (valid : deployment.platform.modelValidate record.value = .ok event)
    (permitted : before.allowed deployment op) (skims : Skimming fault record before)
    (inCall : before.record = some handled)
    (leaves : before.next deployment op outcome = .leaving handled) :
    fault ∨ ∀ value, outcome ≠ .ok value := by
  cases outcome with
  | ok value =>
    left
    cases before with
    | entered other =>
      obtain rfl : other = record := skims
      cases op with
      | uuid4 =>
        simp only [Stage.next, Stage.enteredNext] at leaves
        split at leaves
        · cases leaves
        · rename_i invalid
          rw [valid] at invalid
          cases invalid
      | send topic key body headers =>
        obtain ⟨_, text, invalid⟩ := permitted
        rw [valid] at invalid
        cases invalid
      | hincrby | utcnow => cases leaves
      | _ => exact permitted.elim
    | claiming delivery token taken =>
      cases op with
      | setNx key text ttl =>
        simp only [Stage.next, Stage.claimingNext] at leaves
        split at leaves <;> cases leaves
      | get key =>
        simp only [Stage.next, Stage.claimingNext] at leaves
        split at leaves <;> cases leaves
      | sleep | handleReturn => cases leaves
      | _ => exact permitted.elim
    | settled other verdict =>
      cases op with
      | hincrby | handleReturn => cases leaves
      | _ => exact permitted.elim
    | leaving other => exact skims
    | outside => cases inCall
    | _ => exact skims.elim
  | _ =>
    right
    intro value same
    cases same

theorem Skimming.own {fault : Prop} (act : Acts deployment pool after thread op outcome)
    (valid : deployment.platform.modelValidate record.value = .ok event)
    (finished : pool.world.redis (.eventGuard event.eventId) = some done)
    (inside : ∀ name other, (∀ heard, (Label.did thread op outcome : Moment) ≠
        .did thread (.handleCall name other) heard) ∧
      ∀ result heard, (Label.did thread op outcome : Moment) ≠
        .did thread (.handleReturn name other result) heard)
    (faults : (∀ value, outcome ≠ .ok value) → fault)
    (known : Skimming fault record (stage deployment pool thread)) :
    Skimming fault record (stage deployment after thread) := by
  have progress := act.progress
  have permitted := act.permitted
  have own := act.own
  generalize stage deployment pool thread = before at progress known permitted own
  generalize stage deployment after thread = later at progress own
  have guarded : ∀ {delivery : Delivery deployment}, delivery.record = record →
      pool.world.redis delivery.guard = some done := by
    intro delivery same
    rw [Delivery.guard, delivery_event_eq valid same]
    exact finished
  cases progress with
  | called name other => exact ((inside name other).1 _ rfl).elim
  | prepares => exact known
  | draws delivery id => exact ⟨known, rfl⟩
  | rejects other text _ invalid =>
    obtain rfl : other = record := known
    rw [valid] at invalid
    cases invalid
  | acquires delivery token taken ttl =>
    have takes : Wins (.setNx delivery.guard token ttl) (.ok true) delivery.guard token :=
      ⟨rfl, rfl, rfl⟩
    have free := (act.wins takes).1
    rw [guarded known.1] at free
    cases free
  | refused => exact known
  | sees delivery token taken current other =>
    have reads : Gets (.get delivery.guard) (.ok current) delivery.guard current := ⟨rfl, rfl⟩
    have found := (act.gets reads).1
    rw [guarded known.1] at found
    exact (other found.symm).elim
  | waits delivery token => cases known.2
  | fails _ handled inCall =>
    rcases inCall with ⟨_, name, rfl⟩ | inCall
    · exact ((inside name handled).1 outcome rfl).elim
    · rcases skimming_fails valid permitted known inCall own.symm with already | failed
      · exact already
      · exact faults failed
  | returns _ name other result => exact ((inside name other).2 result _ rfl).elim
  | idles | skips | counts => trivial
  | _ => exact known.elim

/-- Its operations neither write tables nor publish. -/
theorem skimming_quiet {before : Stage deployment} {fault : Prop}
    (valid : deployment.platform.modelValidate record.value = .ok event)
    (permitted : before.allowed deployment op) (skims : Skimming fault record before) :
    op.onTables = false ∧ op.onLogs = false := by
  cases before with
  | entered other =>
    obtain rfl : other = record := skims
    cases op with
    | send topic key body headers =>
      obtain ⟨_, text, invalid⟩ := permitted
      rw [valid] at invalid
      cases invalid
    | hincrby | uuid4 | utcnow => exact ⟨rfl, rfl⟩
    | _ => exact permitted.elim
  | claiming | settled | leaving | outside =>
    cases op with
    | commit | send => exact permitted.elim
    | _ => exact ⟨rfl, rfl⟩
  | _ => exact skims.elim

/-- What the second call does: nothing to the order and the topics, and it commits. -/
structure Repeated (deployment : Deployment) (thread : Nat) (record : ConsumerRecord)
    (start : Pipeline) (past : List (Pipeline × Moment)) (pool : Pipeline) : Prop where
  untouched : ∀ step ∈ past, ∀ op outcome later, step.2 = .did thread op outcome →
    Step (system deployment) step.1 step.2 later →
    Untouched deployment.settings step.1.world later.world
  commits : (∀ step ∈ past, ∀ op outcome, step.2 = .did thread op outcome →
      ∃ value, outcome = .ok value) →
    ∀ result outcome later, Step (system deployment) pool
      (.did thread (.handleReturn Consumer.processor.name record result) outcome) later →
    result = some .commit
  returns : (∃ uuid, uuid ∉ start.world.issued) →
    Returns (perform deployment 0) Responsive (OrderConsumer.handle deployment record) start.world
      fun ack last => ack = .commit ∧ Untouched deployment.settings start.world last

theorem tombstone_skims {F : Prop} (ran : Ran deployment start)
    (valid : deployment.platform.modelValidate record.value = .ok event)
    (finished : start.world.redis (.eventGuard event.eventId) = some done)
    (handles : Handles deployment event.eventId thread record start past pool)
    (faults : ∀ step ∈ past, ∀ op outcome, step.2 = .did thread op outcome →
      (∀ value, outcome ≠ .ok value) → F) :
    Skimming F record (stage deployment pool thread) ∧ Ran deployment pool ∧
      ∀ step ∈ past, Skimming F record (stage deployment step.1 thread) ∧
        Ran deployment step.1 := by
  have stands := handles.stays (Q := fun pool stage =>
    pool.world.redis (.eventGuard event.eventId) = some done ∧ Skimming F record stage)
    ran ?_ ?_ ?_ ?_
  · obtain ⟨⟨_, skims⟩, reached, earlier⟩ := stands
    exact ⟨skims, reached, fun step member =>
      ⟨(earlier step member).1.2, (earlier step member).2⟩⟩
  · intro pool label after ran unexpired moved known
    exact ⟨tombstone_kept ran unexpired moved known.1, trivial⟩
  · intro entered act
    obtain ⟨fate, performed⟩ := act.performed
    refine ⟨?_, rfl⟩
    rw [perform_redis performed rfl]
    exact finished
  · intro pool label after ran unexpired moved others known
    exact ⟨tombstone_kept ran unexpired moved known.1, known.2⟩
  · intro pool op outcome after ran member moved act known
    have unexpired : Unexpired event.eventId pool (.did thread op outcome) := by
      rintro ⟨⟩
    refine ⟨tombstone_kept ran unexpired moved known.1, ?_⟩
    exact Skimming.own act valid known.1 (handles.inside _ member)
      (faults _ member op outcome rfl) known.2

theorem redelivery_skips {one two : Nat} {answered left again : Pipeline}
    {between more : List (Pipeline × Moment)}
    (reached : Reachable (system deployment) allows World.empty start)
    (valid : deployment.platform.modelValidate record.value = .ok event)
    (first : Handles deployment event.eventId one record start past answered)
    (committed : Step (system deployment) answered
      (.did one (.handleReturn Consumer.processor.name record (some .commit)) (.ok ())) left)
    (meanwhile : Path (system deployment) (Unexpired event.eventId) left between again)
    (second : Handles deployment event.eventId two record again more pool)
    (settles : (∀ step ∈ past, Settles deployment one record event step.2) ∨
      again.world.redis (.eventGuard event.eventId) = some done) :
    Repeated deployment two record again more pool := by
  have ran : Ran deployment start := reached.mono fun _ _ _ _ _ _ => trivial
  have answeredToo : Ran deployment answered := (first.keeps (P := fun _ => True) ran
    (fun _ _ _ => trivial) fun _ _ _ _ _ _ _ _ => trivial).2.1
  have ranLeft : Ran deployment left := .step answeredToo trivial committed
  have ranAgain : Ran deployment again := ran_along meanwhile ranLeft
  have finished : again.world.redis (.eventGuard event.eventId) = some done := by
    rcases settles with once | finished
    · exact tombstone_lasts ranLeft meanwhile (settled_tombstone ran valid first once committed)
    · exact finished
  constructor
  · intro step member op outcome later same moved
    obtain ⟨_, _, earlier⟩ := tombstone_skims (F := True) ranAgain valid finished second
      fun _ _ _ _ _ _ => trivial
    obtain ⟨skims, here⟩ := earlier step member
    rw [same] at moved
    rcases step_cases here moved with ⟨actor, _, _, did, act⟩ | ⟨actor, turn⟩ | ⟨_, did, _⟩
    · cases did
      obtain ⟨tables, logs⟩ := skimming_quiet valid act.permitted skims
      obtain ⟨fate, performed⟩ := act.performed
      constructor
      · exact perform_orders performed tables
      · exact perform_transitions performed tables
      · intro partition
        rw [perform_logs performed logs]
      · intro partition
        rw [perform_logs performed logs]
    · exact (turn.not_did _ _ _ rfl).elim
    · cases did
  · intro answering result outcome later moved
    obtain ⟨skims, here, _⟩ := tombstone_skims (F := False) ranAgain valid finished second
      fun step member op outcome same failed => by
        obtain ⟨value, ok⟩ := answering step member op outcome same
        exact failed value ok
    rcases step_cases here moved with ⟨actor, _, _, did, act⟩ | ⟨actor, turn⟩ | ⟨_, did, _⟩
    · cases did
      have permitted := act.permitted
      cases standing : stage deployment pool two with
      | claiming delivery token taken =>
        rw [standing] at permitted skims
        have taken := permitted.1
        rw [skims.2] at taken
        cases taken
      | settled handled verdict =>
        rw [standing] at permitted
        exact permitted.2.2
      | entered | outside =>
        rw [standing] at permitted
        exact permitted.elim
      | _ =>
        rw [standing] at skims
        exact skims.elim
    · exact (turn.not_did _ _ _ rfl).elim
    · cases did
  · intro fresh
    apply (handle_skips fresh finished valid).mono
    intro ack last skipped
    obtain ⟨rfl, stats, issued, rfl⟩ := skipped
    exact ⟨rfl, rfl, rfl, fun _ => rfl, fun _ => rfl⟩

namespace Sample

/-- The thread is called with the record at the head of the log, read as this event. -/
def calls (thread : Nat) (event : OrderEvent) : Moment → Bool
  | .did other (.handleCall name record) (.ok _) => other = thread && name = "processor" &&
      record.partition = 0 && record.offset = 0 && readEvent record.value = some event
  | _ => false

/-- The thread answers COMMIT for the record at the head of the log. -/
def answersCommit (thread : Nat) : Moment → Bool
  | .did other (.handleReturn name record (some .commit)) (.ok _) => other = thread &&
      name = "processor" && record.partition = 0 && record.offset = 0
  | _ => false

/-- Nothing fails but `fulfil`. -/
def Sound (label : Moment) : Prop :=
  ∀ thread op outcome, label = .did thread op outcome →
    (∃ value, outcome = .ok value) ∨ ∃ event, op = .fulfil event

/-- Nothing expires or fails, and the thread stays in its call. -/
def within (thread : Nat) : Moment → Bool
  | .did other (.handleCall _ _) (.ok _) => other != thread
  | .did other (.handleReturn _ _ _) (.ok _) => other != thread
  | .did _ (.fulfil _) _ => true
  | .did _ _ (.ok _) => true
  | .did _ _ _ => false
  | .event (.expire _) => false
  | _ => true

def mine (thread : Nat) : Moment → Bool
  | .did other _ _ => other = thread
  | _ => false

structure Within (thread : Nat) (_ : Pipeline) (label : Moment) : Prop where
  unexpired : ∀ key, label ≠ .event (.expire key)
  inside : ∀ name other, (∀ outcome, label ≠ .did thread (.handleCall name other) outcome) ∧
    ∀ result outcome, label ≠ .did thread (.handleReturn name other result) outcome
  sound : Sound label

theorem within_sound (thread : Nat) (pool : Pipeline) (label : Moment)
    (passes : within thread label = true) : Within thread pool label := by
  constructor
  · intro key same
    subst same
    cases passes
  · intro name other
    constructor
    · intro outcome same
      subst same
      cases outcome <;> simp [within] at passes
    · intro result outcome same
      subst same
      cases outcome <;> simp [within] at passes
  · intro actor op outcome same
    subst same
    cases outcome with
    | ok value => exact .inl ⟨value, rfl⟩
    | _ =>
      cases op with
      | fulfil event => exact .inr ⟨event, rfl⟩
      | _ => cases passes

theorem calls_handed {thread : Nat} {event : OrderEvent} {pool after : Pipeline} {label : Moment}
    (ran : Ran shop pool) (called : calls thread event label = true)
    (moved : Step (system shop) pool label after) : ∃ record,
      label = .did thread (.handleCall Consumer.processor.name record) (.ok ()) ∧
        Handed shop pool .processor record ∧ record.partition = 0 ∧ record.offset = 0 ∧
        shop.platform.modelValidate record.value = .ok event := by
  unfold calls at called
  split at called
  · simp only [Bool.and_eq_true, decide_eq_true_eq] at called
    obtain ⟨⟨⟨⟨rfl, rfl⟩, partition⟩, offset⟩, read⟩ := called
    rename_i other record _
    rcases step_cases ran moved with ⟨actor, _, _, did, act⟩ | ⟨actor, turn⟩ | ⟨_, did, _⟩
    · cases did
      obtain ⟨consumer, name, handed⟩ := handed_over ran act.looped
      obtain rfl : Consumer.processor = consumer := name_injective name
      refine ⟨record, rfl, handed, partition, offset, ?_⟩
      show modelValidate record.value = .ok event
      rw [modelValidate, read]
    · exact (turn.not_did _ _ _ rfl).elim
    · cases did
  · cases called

theorem answered_handed {thread : Nat} {pool after : Pipeline} {label : Moment}
    (ran : Ran shop pool) (answered : answersCommit thread label = true)
    (moved : Step (system shop) pool label after) : ∃ record,
      label = .did thread (.handleReturn Consumer.processor.name record (some .commit)) (.ok ()) ∧
        Handed shop pool .processor record ∧ record.partition = 0 ∧ record.offset = 0 := by
  unfold answersCommit at answered
  split at answered
  · simp only [Bool.and_eq_true, decide_eq_true_eq] at answered
    obtain ⟨⟨⟨rfl, rfl⟩, partition⟩, offset⟩ := answered
    rename_i other record _
    rcases step_cases ran moved with ⟨actor, _, _, did, act⟩ | ⟨actor, turn⟩ | ⟨_, did, _⟩
    · cases did
      obtain ⟨consumer, consumes, name, inCall⟩ := Stage.answering act.permitted
      obtain rfl : Consumer.processor = consumer := name_injective name
      exact ⟨record, rfl, handled_by _ ran inCall consumes, partition, offset⟩
    · exact (turn.not_did _ _ _ rfl).elim
    · cases did
  · cases answered

/-- A stretch of moves within a call that began with this step. -/
theorem handles_within {thread : Nat} {eventId : String} {record : ConsumerRecord}
    {start entered pool : Pipeline} {moves : Moves} {events : List OrderEvent}
    (called : Step (system shop) start
      (.did thread (.handleCall Consumer.processor.name record) (.ok ())) entered)
    (played : entered.play (quick {} fulfils events) (fun _ => within thread) moves = some pool) :
    ∃ past, Handles shop eventId thread record start past pool ∧ ∀ step ∈ past, Sound step.2 := by
  rw [quick_eq] at played
  obtain ⟨past, path⟩ := Pool.play_path _ (within_sound thread) moves .here played
  have inside : ∀ step ∈ past, Within thread step.1 step.2 := by
    intro step member
    obtain ⟨_, _, _, _, _, allowed, _⟩ := path.taken member
    exact allowed
  refine ⟨past, ⟨?_, fun step member => (inside step member).inside⟩,
    fun step member => (inside step member).sound⟩
  have opened : Path (system shop) (Unexpired eventId) start
      [(start, .did thread (.handleCall Consumer.processor.name record) (.ok ()))] entered := by
    refine .step .here ?_ called
    rintro ⟨⟩
  apply opened.join
  apply path.mono
  intro step member
  exact (inside step member).unexpired _

/-- A record is handled and answered with COMMIT, its worker crashes before the offset is
    committed, and another worker is handed it. -/
def redelivers (mode : Option FailMode) (body second : Moves) (last : Move Call Event Fate)
    (test : Pipeline → Pipeline → Pipeline → Bool) : Bool :=
  let quick := quick {} fulfils [Sample.event mode 1 2]
  (play {} fulfils [Sample.event mode 1 2] (submit 0 mode 1 2 ++ consume {} 1 .processor)
    submittedOnly).any fun start =>
  (start.play quick (fun _ => calls 1 (Sample.event mode 1 2)) [.run 1 ok]).any fun entered =>
  (entered.play quick (fun _ => within 1) body).any fun answered =>
  (answered.play quick (fun _ => answersCommit 1) [.run 1 ok]).any fun left =>
  (left.play quick (fun _ => within 1) (.crash 1 :: consume {} 2 .processor)).any fun again =>
  (again.play quick (fun _ => calls 2 (Sample.event mode 1 2)) [.run 2 ok]).any fun entered =>
  (entered.play quick (fun _ => within 2) second).any fun before =>
  (before.play quick (fun _ label => within 2 label && mine 2 label) [last]).any (test again before)

structure Redelivered (event : OrderEvent) (record : ConsumerRecord)
    (start answered left again before : Pipeline) (past between more : List (Pipeline × Moment)) :
    Prop where
  reached : Reachable (system shop) SubmittedOnly World.empty start
  valid : shop.platform.modelValidate record.value = .ok event
  first : Handles shop event.eventId 1 record start past answered
  committed : Step (system shop) answered
    (.did 1 (.handleReturn Consumer.processor.name record (some .commit)) (.ok ())) left
  meanwhile : Path (system shop) (Unexpired event.eventId) left between again
  second : Handles shop event.eventId 2 record again more before
  sound : ∀ step ∈ more ++ past, Sound step.2

theorem redelivered (mode : Option FailMode) (body second : Moves) (last : Move Call Event Fate)
    (test : Pipeline → Pipeline → Pipeline → Bool)
    (shows : redelivers mode body second last test = true) :
    ∃ record start answered left again before past between more, ∃ op, ∃ outcome : Outcome Exn op.Reply,
      ∃ pool, Redelivered (Sample.event mode 1 2) record start answered left again before past between
          more ∧
        Within 2 before (.did 2 op outcome) ∧ Step (system shop) before (.did 2 op outcome) pool ∧
        test again before pool = true := by
  simp only [redelivers, Option.any_eq_true] at shows
  obtain ⟨start, played, entered, called, answered, handled, left, returned, again, passed, enteredToo,
    calledToo, before, handledToo, pool, moved, holds⟩ := shows
  have reached := play_reached {} fulfils [Sample.event mode 1 2] submittedOnly_sound played
  have ran : Ran shop start := reached.mono fun _ _ _ _ _ _ => trivial
  rw [quick_eq] at called returned passed calledToo moved
  obtain ⟨_, calls, stepped⟩ := Pool.play_step _ called
  obtain ⟨record, rfl, handed, partition, offset, valid⟩ := calls_handed ran calls stepped
  obtain ⟨past, first, sound⟩ : ∃ past, Handles shop (Sample.event mode 1 2).eventId 1 record start
      past answered ∧ ∀ step ∈ past, Sound step.2 := handles_within stepped handled
  have ranAnswered := ran_along first.path ran
  obtain ⟨_, answers, committed⟩ := Pool.play_step _ returned
  obtain ⟨back, rfl, handedBack, partitionBack, offsetBack⟩ :=
    answered_handed ranAnswered answers committed
  obtain rfl : back = record := handedBack.unique (handed_along first.path handed)
    (partitionBack.trans partition.symm) (offsetBack.trans offset.symm)
  obtain ⟨between, path⟩ := Pool.play_path _ (within_sound 1) _ .here passed
  have meanwhile : Path (system shop) (Unexpired (Sample.event mode 1 2).eventId) left between again := by
    apply path.mono
    intro step member
    obtain ⟨_, _, _, _, _, allowed, _⟩ := path.taken member
    exact allowed.unexpired _
  have ranLeft : Ran shop left := .step ranAnswered trivial committed
  have ranAgain := ran_along meanwhile ranLeft
  obtain ⟨_, callsToo, steppedToo⟩ := Pool.play_step _ calledToo
  obtain ⟨same, rfl, handedToo, partitionToo, offsetToo, _⟩ :=
    calls_handed ranAgain callsToo steppedToo
  obtain rfl : same = back := handedToo.unique (handed_along meanwhile (handedBack.later committed))
    (partitionToo.trans partition.symm) (offsetToo.trans offset.symm)
  obtain ⟨more, second, soundToo⟩ : ∃ more, Handles shop (Sample.event mode 1 2).eventId 2 same again
      more before ∧ ∀ step ∈ more, Sound step.2 := handles_within steppedToo handledToo
  obtain ⟨label, passes, last⟩ := Pool.play_step _ moved
  rw [Bool.and_eq_true] at passes
  obtain ⟨inside, own⟩ := passes
  unfold mine at own
  split at own
  swap
  · cases own
  rename_i other op outcome
  obtain rfl : other = 2 := of_decide_eq_true own
  refine ⟨_, start, answered, left, again, before, past, between, more, op, outcome, pool,
    ⟨reached, valid, first, committed, meanwhile, second, ?_⟩, within_sound 2 before _ inside, last,
    holds⟩
  intro step member
  rcases List.mem_append.mp member with late | early
  · exact soundToo step late
  · exact sound step early

end Sample

/-- The order is completed; the second worker finds the tombstone. -/
theorem redelivery_skips_run : ∃ record again more pool,
    Repeated Sample.shop 2 record again more pool := by
  obtain ⟨record, start, answered, left, again, before, past, between, more, _, _, _, ran, _, _, finished⟩ :=
    Sample.redelivered none
      (Sample.runs 1 1 ++ [.run 1 (Sample.draw 3)] ++ Sample.runs 1 14)
      (Sample.runs 2 1 ++ [.run 2 (Sample.draw 4)] ++ Sample.runs 2 2) (.run 2 Sample.ok)
      (fun again _ _ => decide (again.world.redis
        (.eventGuard (Sample.event none 1 2).eventId) = some done)) (by decide +kernel)
  refine ⟨record, again, more, before, redelivery_skips ran.reached ran.valid ran.first ran.committed
    ran.meanwhile ran.second (.inr ?_)⟩
  simpa using finished

/-- The first delivery schedules a retry and releases the guard; the second one wins it and
    sets the order to work again. -/
theorem redelivery_processes_again : ∃ record start answered left again past between more pool,
    Sample.Redelivered (Sample.event (some .transient) 1 2) record start answered left again pool
        past between more ∧
      ¬ Repeated Sample.shop 2 record again more pool := by
  obtain ⟨record, start, answered, left, again, before, past, between, more, op, outcome, pool, ran,
    within, moved, finished⟩ := Sample.redelivered (some .transient)
      (Sample.runs 1 1 ++ [.run 1 (Sample.draw 3)] ++ Sample.runs 1 6 ++
        [.run 1 (Sample.result (.error (.transient Sample.shaken))),
          .run 1 (.normal { draw := 1 })] ++ Sample.runs 1 10)
      (Sample.runs 2 1 ++ [.run 2 (Sample.draw 4)] ++ Sample.runs 2 4) (.run 2 Sample.ok)
      (fun _ before pool => decide ((before.world.transitions ⟨1⟩).length ≠
        (pool.world.transitions ⟨1⟩).length)) (by decide +kernel)
  have differ : (before.world.transitions ⟨1⟩).length ≠ (pool.world.transitions ⟨1⟩).length := by
    simpa using finished
  have unexpired : Unexpired (Sample.event (some .transient) 1 2).eventId before (.did 2 op outcome) :=
    within.unexpired _
  refine ⟨record, start, answered, left, again, past, between, (before, .did 2 op outcome) :: more, pool,
    ⟨ran.reached, ran.valid, ran.first, ran.committed, ran.meanwhile, ⟨?_, ?_⟩, ?_⟩, fun repeated => ?_⟩
  · exact .step ran.second.path unexpired moved
  · intro step member
    rcases List.mem_cons.mp member with rfl | earlier
    · exact within.inside
    · exact ran.second.inside step earlier
  · intro step member
    rcases List.mem_cons.mp member with rfl | earlier
    · exact within.sound
    · exact ran.sound step earlier
  · have kept := repeated.untouched _ (List.mem_cons_self ..) op outcome pool rfl moved
    exact differ (by rw [kept.transitions])

end OrderFlow