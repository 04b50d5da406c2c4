import OrderFlow.Runs.Provenance

/-!
Events and their submissions. A submission publishes once, after its row is
committed; where nobody else produces, every record on `orders.created` and
`orders.retry` carries the event of a submission, unchanged.
-/
namespace OrderFlow
open AsyncCoroutine AsyncPool

variable {deployment : Deployment} {allows : Pipeline → Moment → Prop} {pool after : Pipeline}
  {thread : Nat} {op : Op} {outcome : Outcome Exn op.Reply}

/-- The thread's submission published this event when that much had happened. -/
def PublishedAt (deployment : Deployment) (trace past : List Moment) (thread : Nat)
    (event : OrderEvent) : Prop :=
  ∃ key headers outcome payload idempotencyKey id eventId instant,
    (Label.did thread (.send deployment.settings.topicOrders key
      (deployment.platform.modelDump event) headers) outcome :: past) <:+ trace ∧
    outcome.Took () ∧
    (Stage.monitor deployment).record past thread =
      .submitting (.stamped payload idempotencyKey id eventId instant) ∧
    event = submittedEvent payload id eventId instant

def PublishedBy (deployment : Deployment) (trace : List Moment) (thread : Nat)
    (event : OrderEvent) : Prop := ∃ past, PublishedAt deployment trace past thread event

theorem PublishedBy.later {trace : List Moment} {event : OrderEvent}
    (published : PublishedBy deployment trace thread event) (label : Moment) :
    PublishedBy deployment (label :: trace) thread event := by
  obtain ⟨past, key, headers, outcome, payload, idempotencyKey, id, eventId, instant, inside, rest⟩ :=
    published
  exact ⟨past, key, headers, outcome, payload, idempotencyKey, id, eventId, instant,
    inside.trans (List.suffix_cons ..), rest⟩

theorem PublishedBy.kept {label : Moment} {event : OrderEvent}
    (published : PublishedBy deployment pool.trace thread event)
    (moved : Step (system deployment) pool label after) :
    PublishedBy deployment after.trace thread event := by
  rw [step_trace moved]
  exact published.later label

/-- A publication is an earlier one or the step just taken. -/
theorem PublishedAt.split {label : Moment} {trace past : List Moment} {event : OrderEvent}
    (published : PublishedAt deployment (label :: trace) past thread event) :
    PublishedAt deployment trace past thread event ∨ past = trace ∧
      ∃ key headers outcome payload idempotencyKey id eventId instant,
        label = .did thread (.send deployment.settings.topicOrders key
          (deployment.platform.modelDump event) headers) outcome ∧ outcome.Took () ∧
        (Stage.monitor deployment).record trace thread =
          .submitting (.stamped payload idempotencyKey id eventId instant) ∧
        event = submittedEvent payload id eventId instant := by
  obtain ⟨key, headers, outcome, payload, idempotencyKey, id, eventId, instant, inside, took,
    before, same⟩ := published
  rcases List.suffix_cons_iff.mp inside with whole | earlier
  · cases whole
    exact .inr ⟨rfl, key, headers, outcome, payload, idempotencyKey, id, eventId, instant, rfl, took,
      before, same⟩
  · exact .inl ⟨key, headers, outcome, payload, idempotencyKey, id, eventId, instant, earlier, took,
      before, same⟩

/-! ### A submission publishes once -/

namespace Submission

/-- The order of a submission whose row is committed. -/
def stored : Submission → Option Uuid
  | .created _ _ id => some id
  | .reserved _ _ id => some id
  | .named _ _ id _ => some id
  | .stamped _ _ id _ _ => some id
  | .published _ _ id _ _ => some id
  | _ => none

variable {before later : Submission}

theorem Progress.pending (moved : before.Progress deployment op outcome later)
    (holds : later.pending = true) : before.pending = true := by
  cases moved with
  | publishes | finishes | breaks => cases holds
  | _ => rfl

theorem Progress.stored (moved : before.Progress deployment op outcome later) {id : Uuid}
    (holds : later.stored = some id) : before.stored = some id ∨
      ∃ payload hop, Commits op outcome
        (Repository.createWrites (Repository.newRow payload id) hop) := by
  cases moved with
  | inserts payload key drawn hop =>
    cases key <;> cases holds <;> exact .inr ⟨payload, hop, rfl⟩
  | reserves | names | stamps | publishes | finishes => exact .inl holds
  | _ => cases holds

end Submission

def Stage.pending : Stage deployment → Bool
  | .submitting submission => submission.pending
  | _ => false

theorem Stage.Progress.pending {before later : Stage deployment}
    (moved : Progress before op outcome later) (holds : later.pending = true) :
    before.pending = true := by
  cases later with
  | submitting submission =>
    obtain ⟨first, rfl, inner⟩ := moved.submission rfl
    exact inner.pending holds
  | _ => cases holds

/-- A stored submission's row was inserted by its own thread and is still there. -/
theorem submission_stored (reached : Reachable (system deployment) allows World.empty pool)
    (thread : Nat) (submission : Submission)
    (same : stage deployment pool thread = .submitting submission) (id : Uuid)
    (stored : submission.stored = some id) :
    Inserted pool.trace thread id ∧ Known pool id := by
  refine each_stage (P := fun pool thread stage => ∀ submission, stage = .submitting submission →
    ∀ id, submission.stored = some id → Inserted pool.trace thread id ∧ Known pool id)
    ?_ ?_ ?_ reached thread submission same id stored
  · rintro pool thread stage (_ | _ | _ | _) submission ⟨⟩ id ⟨⟩
  · intro pool label after reached _ moved thread stage _ known submission same id stored
    obtain ⟨inserted, row⟩ := known submission same id stored
    refine ⟨?_, known_stays reached moved row⟩
    rw [step_trace moved]
    exact inserted.later label
  · intro pool after thread op outcome reached _ _ act known submission same id stored
    obtain ⟨first, before, moved⟩ := act.progress.submission same
    rcases moved.stored stored with earlier | ⟨payload, hop, commits⟩
    · obtain ⟨inserted, row⟩ := known first before id earlier
      refine ⟨?_, (orders_change act).known row⟩
      rw [act.trace]
      exact inserted.later _
    · have world := act.commits commits
      refine ⟨?_, _, by rw [world, create_orders]; exact Function.update_self ..⟩
      unfold Commits at commits
      split at commits
      · subst commits
        exact ⟨payload, hop, _, by rw [act.trace]; exact List.mem_cons_self .., .inl rfl⟩
      · cases commits

structure Publication (deployment : Deployment) (pool : Pipeline) : Prop where
  spent : ∀ thread event, PublishedBy deployment pool.trace thread event →
    ¬ pool.Unused thread ∧ (stage deployment pool thread).pending = false
  single : ∀ thread past later first second, PublishedAt deployment pool.trace past thread first →
    PublishedAt deployment pool.trace later thread second → past = later ∧ first = second
  drawn : ∀ thread event, PublishedBy deployment pool.trace thread event →
    Drew pool.trace thread event.orderId ∧
      ∃ id, Drew pool.trace thread id ∧ event.eventId = id.str
  known : ∀ thread event, PublishedBy deployment pool.trace thread event →
    Inserted pool.trace thread event.orderId ∧ Known pool event.orderId

theorem publication (reached : Reachable (system deployment) allows World.empty pool) :
    Publication deployment pool := by
  induction reached with
  | init =>
    have none : ∀ past thread event, ¬ PublishedAt deployment [] past thread event := by
      rintro past thread event ⟨_, _, _, _, _, _, _, _, inside, _⟩
      cases List.suffix_nil.mp inside
    exact ⟨fun _ _ ⟨_, published⟩ => (none _ _ _ published).elim,
      fun _ _ _ _ _ published => (none _ _ _ published).elim,
      fun _ _ ⟨_, published⟩ => (none _ _ _ published).elim,
      fun _ _ ⟨_, published⟩ => (none _ _ _ published).elim⟩
  | @step pool label after reached permitted moved ih =>
    have trace := step_trace moved
    have drawn : ∀ thread event, PublishedBy deployment pool.trace thread event →
        Drew after.trace thread event.orderId ∧
          ∃ id, Drew after.trace thread id ∧ event.eventId = id.str := by
      intro thread event published
      obtain ⟨row, id, drew, same⟩ := ih.drawn thread event published
      exact ⟨row.kept moved, id, drew.kept moved, same⟩
    have published : ∀ past thread event, PublishedAt deployment after.trace past thread event →
        PublishedAt deployment pool.trace past thread event ∨ past = pool.trace ∧
          ∃ payload key id eventId instant,
            stage deployment pool thread = .submitting (.stamped payload key id eventId instant) ∧
              (stage deployment after thread).pending = false ∧
              event = submittedEvent payload id eventId instant := by
      intro past thread event published
      rw [trace] at published
      rcases published.split with earlier | ⟨rfl, key, headers, outcome, payload, idempotencyKey, id,
        eventId, instant, rfl, took, before, rfl⟩
      · exact .inl earlier
      · refine .inr ⟨rfl, payload, idempotencyKey, id, eventId, instant, before, ?_, rfl⟩
        rw [stage, trace, Monitor.record_did_self, before]
        rcases took with rfl | ⟨error, rfl⟩ <;> rfl
    have quiet : ∀ thread, (stage deployment pool thread).pending = false → ¬ pool.Unused thread →
        (stage deployment after thread).pending = false := by
      intro thread spent started
      by_contra pending
      rw [Bool.not_eq_false] at pending
      rcases step_cases reached moved with ⟨actor, op, outcome, _, act⟩ | ⟨actor, turn⟩ |
        ⟨event, _, happening⟩
      · by_cases same : thread = actor
        · subst same
          rw [act.progress.pending pending] at spent
          cases spent
        · rw [act.others thread same, spent] at pending
          cases pending
      · by_cases same : thread = actor
        · subst same
          rcases turn.own with ⟨_, _, unused, _⟩ | ⟨_, _, _, own⟩ | ⟨_, own⟩
          · exact started unused
          · rw [own] at pending
            cases pending
          · rw [own] at pending
            cases pending
        · rw [turn.others thread same, spent] at pending
          cases pending
      · rw [happening.stages thread, spent] at pending
        cases pending
    have started : ∀ thread, ¬ pool.Unused thread → ¬ after.Unused thread := by
      intro thread started unused
      refine started fun past member => unused past ?_
      rw [trace]
      exact List.mem_cons_of_mem _ member
    have submitting : ∀ thread submission,
        stage deployment pool thread = .submitting submission → ¬ pool.Unused thread := by
      intro thread submission same unused
      have outside := Monitor.record_unused (Stage.monitor deployment) reached thread unused
      rw [← stage, same] at outside
      cases outside
    refine ⟨?_, ?_, ?_, ?_⟩
    · rintro thread event ⟨past, now⟩
      rcases published past thread event now with earlier | ⟨_, _, _, _, _, _, before, spent, _⟩
      · obtain ⟨running, spent⟩ := ih.spent thread event ⟨past, earlier⟩
        exact ⟨started thread running, quiet thread spent running⟩
      · exact ⟨started thread (submitting thread _ before), spent⟩
    · intro thread past later first second now also
      rcases published past thread first now with earlier | ⟨rfl, _, _, _, _, _, before, _, same⟩ <;>
        rcases published later thread second also with
          earlierToo | ⟨rfl, _, _, _, _, _, beforeToo, _, sameToo⟩
      · exact ih.single thread past later first second earlier earlierToo
      · have spent := (ih.spent thread first ⟨past, earlier⟩).2
        rw [beforeToo] at spent
        cases spent
      · have spent := (ih.spent thread second ⟨later, earlierToo⟩).2
        rw [before] at spent
        cases spent
      · rw [before] at beforeToo
        cases beforeToo
        exact ⟨rfl, same.trans sameToo.symm⟩
    · rintro thread event ⟨past, now⟩
      rcases published past thread event now with earlier | ⟨_, _, _, id, eventId, _, before, _, rfl⟩
      · exact drawn thread event ⟨past, earlier⟩
      · obtain ⟨row, eventDrawn⟩ := submitting_drawn reached thread _ before
        exact ⟨(row id rfl).kept moved, eventId, (eventDrawn eventId rfl).kept moved, rfl⟩
    · rintro thread event ⟨past, now⟩
      have kept : ∀ id, Inserted pool.trace thread id ∧ Known pool id →
          Inserted after.trace thread id ∧ Known after id := fun id facts =>
        ⟨by rw [trace]; exact facts.1.later label, known_stays reached moved facts.2⟩
      rcases published past thread event now with earlier | ⟨_, _, _, id, _, _, before, _, rfl⟩
      · exact kept _ (ih.known thread event ⟨past, earlier⟩)
      · exact kept _ (submission_stored reached thread _ before id rfl)

/-- Two publications about one order are one. -/
theorem one_event (reached : Reachable (system deployment) allows World.empty pool)
    {other : Nat} {first second : OrderEvent}
    (published : PublishedBy deployment pool.trace thread first)
    (also : PublishedBy deployment pool.trace other second)
    (same : first.orderId = second.orderId ∨ first.eventId = second.eventId) : first = second := by
  have facts := publication reached
  obtain ⟨row, id, event, text⟩ := facts.drawn thread first published
  obtain ⟨row', id', event', text'⟩ := facts.drawn other second also
  have owner : thread = other := by
    rcases same with same | same
    · exact (drawn_once reached).once thread other _ row (same ▸ row')
    · rw [text, text'] at same
      obtain rfl := uuid_str_injective same
      exact (drawn_once reached).once thread other _ event event'
  subst owner
  obtain ⟨past, published⟩ := published
  obtain ⟨later, also⟩ := also
  exact (facts.single thread past later first second published also).2

/-! ### What the logs carry -/

/-- Nobody produces but the threads of the run. -/
def Closed (allows : Pipeline → Moment → Prop) : Prop :=
  ∀ pool tp record, ¬ allows pool (.event (.produce tp record))

def Carries (platform : Platform) (entry : LogEntry) (event : OrderEvent) : Prop :=
  entry.record.value = some (serialize platform (platform.modelDump event))

/-- A record with the event is to be delivered again by this consumer's group. -/
def Waiting (deployment : Deployment) (pool : Pipeline) (consumer : Consumer)
    (event : OrderEvent) : Prop :=
  ∃ partition offset entry,
    (pool.world.logs ⟨consumer.topic deployment.settings, partition⟩)[offset]? = some entry ∧
    Carries deployment.platform entry event ∧
    pool.world.committed (consumer.group deployment.settings)
      ⟨consumer.topic deployment.settings, partition⟩ ≤ offset

/-- `orders.dlq` contains a record with this value. -/
def DeadLettered (deployment : Deployment) (pool : Pipeline) (value : Json) : Prop :=
  ∃ partition, ∃ entry ∈ pool.world.logs ⟨deployment.settings.topicDlq, partition⟩,
    entry.record.value = some (serialize deployment.platform value)

theorem DeadLettered.stays {label : Moment} {value : Json}
    (letter : DeadLettered deployment pool value)
    (moved : Step (system deployment) pool label after) : DeadLettered deployment after value := by
  obtain ⟨partition, entry, member, same⟩ := letter
  exact ⟨partition, entry, (step_logs moved _).subset member, same⟩

theorem wrapRaw_dump (event : OrderEvent) :
    OrderConsumer.wrapRaw (deployment.platform.modelDump event) =
      deployment.platform.modelDump event := by
  rw [OrderConsumer.wrapRaw, deployment.platform.modelDump_isDict]
  rfl

theorem letter_published {record : ConsumerRecord} {topic : String} {key : Option String}
    {value : Json} {headers : Headers} {world : World} {partition : Nat}
    (letter : Phase.IsDeadLetter deployment record topic key value headers)
    (appended : after.world = world.append ⟨topic, partition⟩
      (wireRecord deployment.platform key value headers)) :
    DeadLettered deployment after (OrderConsumer.wrapRaw record.value) := by
  obtain ⟨rfl, _, rfl, _⟩ := letter
  refine ⟨partition, ⟨wireRecord deployment.platform key (OrderConsumer.wrapRaw record.value)
    headers, world.appends⟩, ?_, rfl⟩
  rw [appended]
  simp [World.append]

/-- What a record decodes to when its entry carries an event. -/
theorem Logged.carries {platform : Platform} {logs : TopicPartition → List LogEntry}
    {record : ConsumerRecord} (logged : Logged platform logs record) :
    ∃ entry ∈ logs record.tp, (logs record.tp)[record.offset]? = some entry ∧
      ∀ event, Carries platform entry event → record.value = platform.modelDump event := by
  obtain ⟨entry, found, decoded⟩ := logged
  refine ⟨entry, List.mem_of_getElem? found, found, fun event carries => ?_⟩
  simp only [deserialize, Option.bind_eq_bind, Option.bind_eq_some_iff] at decoded
  obtain ⟨key, _, value, read, same⟩ := decoded
  rw [carries, serialized_value] at read
  cases read
  exact congrArg ConsumerRecord.value (Option.some.inj same).symm

/-- A step appends to the logs through a publication, if at all. -/
theorem step_appends {label : Moment} (closed : Closed allows)
    (reached : Reachable (system deployment) allows World.empty pool) (permitted : allows pool label)
    (moved : Step (system deployment) pool label after) :
    (after.world.logs = pool.world.logs ∧ after.world.appends = pool.world.appends) ∨
      ∃ thread topic key value headers partition outcome,
        label = .did thread (.send topic key value headers) outcome ∧ outcome.Took () ∧
        Publishes deployment (stage deployment pool thread) topic key value headers ∧
        after.world = pool.world.append ⟨topic, partition⟩
          (wireRecord deployment.platform key value headers) := by
  rcases step_cases reached moved with ⟨thread, op, outcome, rfl, act⟩ | ⟨thread, turn⟩ |
    ⟨event, rfl, happening⟩
  · have change := logs_change act
    cases change with
    | same logs appends => exact .inl ⟨logs, appends⟩
    | appended partition sends publishes world label =>
      obtain ⟨heard, trace, took⟩ := label
      rw [act.trace] at trace
      exact .inr ⟨thread, _, _, _, _, partition, heard, (List.cons.inj trace).1, took, publishes,
        world⟩
  · exact .inl (by rw [turn.world]; exact ⟨rfl, rfl⟩)
  · rcases happen_logs happening.happened with same | ⟨tp, record, rfl, _⟩
    · exact .inl same
    · exact (closed _ _ _ permitted).elim

theorem mem_append {world : World} {tp place : TopicPartition} {record : WireRecord}
    {entry : LogEntry} (member : entry ∈ (world.append place record).logs tp) :
    entry ∈ world.logs tp ∨ tp = place ∧ entry = ⟨record, world.appends⟩ := by
  by_cases same : tp = place
  · subst same
    simp only [World.append, Function.update_self, List.mem_append, List.mem_singleton] at member
    exact member.imp id fun last => ⟨rfl, last⟩
  · simp only [World.append, Function.update_of_ne same] at member
    exact .inl member

/-- `orders.created` or `orders.retry`. -/
def Settings.carriesEvents (settings : Settings) (topic : String) : Prop :=
  topic = settings.topicOrders ∨ topic = settings.topicRetry

/-- Records under way carry the events of submissions, unchanged. -/
theorem carried (closed : Closed allows)
    (reached : Reachable (system deployment) allows World.empty pool) :
    ∀ tp, deployment.settings.carriesEvents tp.topic → ∀ entry ∈ pool.world.logs tp,
      ∃ thread event, PublishedBy deployment pool.trace thread event ∧
        Carries deployment.platform entry event := by
  induction reached with
  | init => rintro tp _ entry ⟨⟩
  | @step pool label after reached permitted moved ih =>
    intro tp topic entry member
    have before : entry ∈ pool.world.logs tp → ∃ thread event,
        PublishedBy deployment after.trace thread event ∧
          Carries deployment.platform entry event := by
      intro earlier
      obtain ⟨thread, event, published, carries⟩ := ih tp topic entry earlier
      exact ⟨thread, event, published.kept moved, carries⟩
    have passed : ∀ {record : ConsumerRecord} {consumer : Consumer},
        Handed deployment pool consumer record →
        deployment.settings.carriesEvents (consumer.topic deployment.settings) →
        ∃ thread event, PublishedBy deployment after.trace thread event ∧
          record.value = deployment.platform.modelDump event := by
      intro record consumer handed through
      obtain ⟨stored, inLog, _, decodes⟩ := handed.logged.carries
      obtain ⟨thread, event, published, carries⟩ :=
        ih record.tp (by rw [ConsumerRecord.tp, handed.topic]; exact through) stored inLog
      exact ⟨thread, event, published.kept moved, decodes event carries⟩
    rcases step_appends closed reached permitted moved with ⟨same, _⟩ |
      ⟨thread, sent, key, value, headers, partition, outcome, rfl, took, publishes, world⟩
    · exact before (same ▸ member)
    · rw [world] at member
      rcases mem_append member with earlier | ⟨rfl, rfl⟩
      · exact before earlier
      · have distinct := deployment.settings.topics_distinct
        generalize standing : stage deployment pool thread = stands at publishes
        cases publishes with
        | submission payload idempotencyKey id eventId instant =>
          refine ⟨thread, submittedEvent payload id eventId instant, ?_, rfl⟩
          rw [step_trace moved]
          exact ⟨_, _, _, _, payload, idempotencyKey, id, eventId, instant, List.suffix_rfl, took,
            standing, rfl⟩
        | rejection record text letter invalid =>
          rw [letter.1] at topic
          rcases topic with same | same
          · exact absurd same.symm distinct.2.1
          · exact absurd same.symm distinct.2.2
        | deadLetter delivery token phase owes letter =>
          rw [letter.1] at topic
          rcases topic with same | same
          · exact absurd same.symm distinct.2.1
          · exact absurd same.symm distinct.2.2
        | retry delivery token reason due failedAt =>
          have handed : Handed deployment pool .processor delivery.record :=
            handled_by thread reached (by rw [standing]; rfl) (by rw [standing]; rfl)
          obtain ⟨publisher, event, published, same⟩ := passed handed (.inl rfl)
          exact ⟨publisher, event, published, by rw [Carries, wireRecord, same]⟩
        | relay record =>
          have handed : Handed deployment pool .retry record :=
            handled_by thread reached (by rw [standing]; rfl) (by rw [standing]; rfl)
          obtain ⟨publisher, event, published, same⟩ := passed handed (.inr rfl)
          exact ⟨publisher, event, published, by rw [Carries, wireRecord, same]⟩

/-- The event of a record that a call of `handle` is on. -/
theorem handed_event (closed : Closed allows)
    (reached : Reachable (system deployment) allows World.empty pool) {consumer : Consumer}
    {record : ConsumerRecord} (handed : Handed deployment pool consumer record)
    (through : consumer ≠ .dlq) :
    ∃ publisher event, PublishedBy deployment pool.trace publisher event ∧
      record.value = deployment.platform.modelDump event := by
  obtain ⟨stored, inLog, _, decodes⟩ := handed.logged.carries
  have topic : deployment.settings.carriesEvents record.tp.topic := by
    rw [ConsumerRecord.tp, handed.topic]
    cases consumer with
    | processor => exact .inl rfl
    | retry => exact .inr rfl
    | dlq => exact absurd rfl through
  obtain ⟨publisher, event, published, carries⟩ := carried closed reached record.tp topic stored inLog
  exact ⟨publisher, event, published, decodes event carries⟩

/-- A delivery's event is the one its submission published. -/
theorem delivery_event (thread : Nat) (delivery : Delivery deployment) (closed : Closed allows)
    (reached : Reachable (system deployment) allows World.empty pool)
    (inCall : (stage deployment pool thread).record = some delivery.record)
    (consumes : (stage deployment pool thread).consumer = some .processor) :
    delivery.record.value = deployment.platform.modelDump delivery.event ∧
      ∃ publisher, PublishedBy deployment pool.trace publisher delivery.event := by
  obtain ⟨publisher, event, published, same⟩ :=
    handed_event closed reached (handled_by thread reached inCall consumes) (by rintro ⟨⟩)
  have valid := delivery.valid
  rw [same, deployment.platform.modelValidate_dump] at valid
  cases valid
  exact ⟨same, publisher, published⟩

end OrderFlow
