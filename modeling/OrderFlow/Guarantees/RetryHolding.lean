import Mathlib.Data.List.Forall2
import OrderFlow.Calls
import OrderFlow.Sample

/-!
A batch of the retry topic, held record by record: each one is republished when
it is due, and all the sleeps together stay within the maximum delay.
-/
namespace OrderFlow
open AsyncCoroutine AsyncPool

abbrev Journal := List (Entry Op Op.Reply Exn World)

/-- A publish as the journal has it, with the clock at that moment. -/
structure Republication where
  topic : String
  key : Option String
  value : Json
  headers : Headers
  clock : ℚ

def published (entry : Entry Op Op.Reply Exn World) : Option Republication :=
  match entry.op with
  | .send topic key value headers => some ⟨topic, key, value, headers, entry.world.clock⟩
  | _ => none

def publications (journal : Journal) : List Republication := journal.filterMap published

def sleepOf (entry : Entry Op Op.Reply Exn World) : ℚ :=
  match entry.op with
  | .sleep seconds => seconds
  | _ => 0

/-- The sum of the sleeps requested. -/
def slept (journal : Journal) : ℚ := (journal.map sleepOf).sum

/-- No publish fails; anything else may. -/
def Publishing : (op : Op) → Outcome Exn op.Reply → Prop
  | .send _ _ _ _, outcome => outcome = .ok ()
  | _, _ => True

/-- `notBefore <= limit`, as Python compares floats. -/
def NotAfter (notBefore : PyFloat) (limit : ℚ) : Prop :=
  match notBefore with
  | .num due => due ≤ limit
  | .negInf => True
  | .posInf | .nan => False

/-- The moment is not earlier than `notBefore`. -/
def NotEarly (notBefore : PyFloat) (moment : ℚ) : Prop :=
  match notBefore with
  | .num due => due ≤ moment
  | .negInf | .nan => True
  | .posInf => False

variable (deployment : Deployment)

def dueOf (record : ConsumerRecord) : PyFloat :=
  record.headers.getNotBefore deployment.platform

/-- The record's replay onto the main topic, not before it is due. -/
structure Replays (record : ConsumerRecord) (republication : Republication) : Prop where
  topic : republication.topic = deployment.settings.topicOrders
  key : republication.key = record.key
  value : republication.value = record.value
  headers : republication.headers = Headers.build deployment.platform record.headers.getAttempt
    none (record.headers.getError.map py) none ""
  due : NotEarly (dueOf deployment record) republication.clock

/-- How the pass stands: the sleeps fit between the poll and now, and in the cap. -/
structure Held (polled : ℚ) (state : World × Journal) : Prop where
  running : state.1.stopped 0 = false
  later : polled ≤ state.1.clock
  elapsed : slept state.2 ≤ state.1.clock - polled
  capped : slept state.2 ≤ deployment.settings.retryMaxDelaySeconds

/-- A part of the batch and the publishes that part has led to. -/
def Progressed (polled : ℚ) (state last : World × Journal) (records : List ConsumerRecord) : Prop :=
  Held deployment polled last ∧ ∃ more, publications last.2 = publications state.2 ++ more ∧
    List.Forall₂ (Replays deployment) records more

variable {deployment} {polled : ℚ} {state last : World × Journal} {record : ConsumerRecord}

theorem publications_append (journal : Journal) (entry : Entry Op Op.Reply Exn World) :
    publications (journal ++ [entry]) = publications journal ++ (published entry).toList := by
  unfold publications
  rw [List.filterMap_append]
  cases found : published entry <;> simp [found]

theorem slept_append (journal : Journal) (entry : Entry Op Op.Reply Exn World) :
    slept (journal ++ [entry]) = slept journal + sleepOf entry := by
  simp [slept]

/-- An operation that neither publishes nor sleeps and leaves clock and flag alone. -/
theorem quiet_held {op : Op} {outcome : Outcome Exn op.Reply} {after : World}
    (held : Held deployment polled state) (running : after.stopped = state.1.stopped)
    (later : state.1.clock ≤ after.clock)
    (quiet : sleepOf ⟨state.1, op, outcome⟩ = 0) :
    Held deployment polled (after, state.2 ++ [⟨state.1, op, outcome⟩]) := by
  constructor
  · rw [running]
    exact held.running
  · exact held.later.trans later
  · have elapsed := held.elapsed
    simp only [slept_append, quiet, add_zero]
    linarith
  · simp only [slept_append, quiet, add_zero]
    exact held.capped

theorem publishing_ok {op : Op} {value : op.Reply} : Publishing op (.ok value) := by
  cases op <;> trivial

/-- An operation that cannot fail does what its store can do, and is logged. -/
theorem recorded_settles {op : Op} {goal : op.Reply → World × Journal → Prop}
    (sure : op.isLocal = true ∨ ∀ outcome, Publishing op outcome → ∃ value, outcome = .ok value)
    (possible : ∃ oracle value after,
      answer deployment 0 op state.1 oracle = some (.ok value, after))
    (every : ∀ oracle reply after, answer deployment 0 op state.1 oracle = some (reply, after) →
      ∃ value, reply = .ok value ∧ goal value (after, state.2 ++ [⟨state.1, op, .ok value⟩])) :
    Returns (recording (perform deployment 0)) Publishing (await op) state goal := by
  apply Yields.operation
  · obtain ⟨oracle, value, after, answers⟩ := possible
    refine ⟨.normal oracle, .ok value, _, recording_some.mpr ⟨after, ?_, rfl⟩, publishing_ok⟩
    simp only [perform, answers]
  · intro fate outcome last performed permitted
    obtain ⟨after, stepped, rfl⟩ := recording_some.mp performed
    rcases sure with inside | answers
    · obtain ⟨oracle, reply, answered, rfl⟩ := perform_local stepped inside
      obtain ⟨value, rfl, holds⟩ := every oracle reply after answered
      exact ⟨value, rfl, holds⟩
    · obtain ⟨value, rfl⟩ := answers outcome permitted
      rcases perform_cases stepped with ⟨_, same, _⟩ | ⟨reply, oracle, answered, took⟩
      · cases same
      · rcases took with same | ⟨_, same⟩
        · cases same
          obtain ⟨value, same, holds⟩ := every oracle _ after answered
          cases same
          exact ⟨_, rfl, holds⟩
        · cases same

theorem time_read (held : Held deployment polled state) :
    Returns (recording (perform deployment 0)) Publishing (await .time) state fun now last =>
      now = last.1.clock ∧ polled ≤ now ∧ Held deployment polled last ∧
        publications last.2 = publications state.2 := by
  apply recorded_settles
  · exact .inl rfl
  · refine ⟨{ time := state.1.clock }, state.1.clock, { state.1 with clock := state.1.clock }, ?_⟩
    simp only [answer]
    rw [if_pos (le_refl _)]
  · intro oracle reply after answered
    simp only [answer] at answered
    split at answered
    · rename_i later
      cases answered
      refine ⟨_, rfl, rfl, held.later.trans later, quiet_held held rfl later rfl, ?_⟩
      simp [publications_append, published]
    · cases answered

/-- A sleep that ends when the record is due. -/
theorem sleep_held {wait : ℚ} (held : Held deployment polled state) (positive : 0 ≤ wait)
    (within : state.1.clock + wait ≤ polled + deployment.settings.retryMaxDelaySeconds) :
    Returns (recording (perform deployment 0)) Publishing (await (.sleep wait)) state fun _ last =>
      state.1.clock + wait ≤ last.1.clock ∧ Held deployment polled last ∧
        publications last.2 = publications state.2 := by
  apply recorded_settles
  · exact .inl rfl
  · refine ⟨{ time := state.1.clock + wait }, (),
      { state.1 with clock := state.1.clock + wait }, ?_⟩
    simp only [answer]
    rw [if_pos (le_refl _)]
  · intro oracle reply after answered
    simp only [answer] at answered
    split at answered
    · rename_i later
      cases answered
      have elapsed := held.elapsed
      have before := held.later
      refine ⟨(), rfl, later, ⟨held.running, ?_, ?_, ?_⟩, ?_⟩
      · show polled ≤ oracle.time
        linarith
      · simp only [slept_append, sleepOf]
        linarith
      · simp only [slept_append, sleepOf]
        linarith
      · simp [publications_append, published]
    · cases answered

theorem send_logged {topic : String} {key : Option String} {value : Json} {headers : Headers}
    (partitioned : 0 < deployment.settings.partitions topic)
    (held : Held deployment polled state) :
    Returns (recording (perform deployment 0)) Publishing
      (await (.send topic key value headers)) state fun _ last =>
        Held deployment polled last ∧ publications last.2 =
          publications state.2 ++ [⟨topic, key, value, headers, state.1.clock⟩] := by
  apply recorded_settles
  · right
    intro outcome permitted
    exact ⟨(), permitted⟩
  · refine ⟨{}, (), state.1.append ⟨topic, 0⟩
      (wireRecord deployment.platform key value headers), ?_⟩
    simp only [answer]
    rw [if_pos partitioned]
  · intro oracle reply after answered
    simp only [answer] at answered
    split at answered
    · cases answered
      refine ⟨(), rfl, quiet_held held rfl (le_refl _) rfl, ?_⟩
      simp [publications_append, published]
    · cases answered

/-- The loop's own steps around a call. -/
theorem step_held {op : Op} {value : op.Reply} (inside : op.isLocal = true)
    (silent : ∀ outcome, sleepOf ⟨state.1, op, outcome⟩ = 0 ∧
      published ⟨state.1, op, outcome⟩ = none)
    (answers : ∀ oracle, answer deployment 0 op state.1 oracle = some (.ok value, state.1))
    (held : Held deployment polled state) :
    Returns (recording (perform deployment 0)) Publishing (await op) state fun reply last =>
      reply = value ∧ Held deployment polled last ∧
        publications last.2 = publications state.2 := by
  apply recorded_settles
  · exact .inl inside
  · exact ⟨{}, value, state.1, answers _⟩
  · intro oracle reply after answered
    rw [answers oracle] at answered
    cases answered
    refine ⟨value, rfl, rfl, quiet_held held rfl (le_refl _) (silent _).1, ?_⟩
    simp [publications_append, (silent _).2]

theorem notEarly_later {notBefore : PyFloat} {moment later : ℚ} (ready : NotEarly notBefore moment)
    (le : moment ≤ later) : NotEarly notBefore later := by
  cases notBefore with
  | num due => exact le_trans ready le
  | posInf => exact ready
  | negInf | nan => trivial

/-- A record is held until it is due, and never cut short by the cap. -/
theorem hold_cases {settings : Settings} {notBefore : PyFloat} {now : ℚ} (le : polled ≤ now)
    (due : NotAfter notBefore (polled + settings.retryMaxDelaySeconds)) :
    (RetryScheduler.hold settings notBefore now = none ∧ NotEarly notBefore now) ∨
    ∃ wait, RetryScheduler.hold settings notBefore now = some wait ∧ 0 ≤ wait ∧
      now + wait ≤ polled + settings.retryMaxDelaySeconds ∧ NotEarly notBefore (now + wait) := by
  cases notBefore with
  | num moment =>
    have bound : moment ≤ polled + settings.retryMaxDelaySeconds := due
    unfold RetryScheduler.hold
    by_cases early : 0 < moment - now
    · right
      refine ⟨moment - now, ?_, by linarith, by linarith, ?_⟩
      · simp only [if_pos early]
        rw [min_eq_left]
        linarith
      · show moment ≤ now + (moment - now)
        linarith
    · left
      refine ⟨?_, ?_⟩
      · simp only [if_neg early]
      · show moment ≤ now
        linarith
  | negInf => exact .inl ⟨rfl, trivial⟩
  | posInf | nan => exact due.elim

theorem handle_replays (partitioned : 0 < deployment.settings.topicPartitions)
    (held : Held deployment polled state)
    (due : NotAfter (dueOf deployment record)
      (polled + deployment.settings.retryMaxDelaySeconds)) :
    Returns (recording (perform deployment 0)) Publishing
      (RetryScheduler.handle deployment record) state fun ack last =>
        ack = .commit ∧ Progressed deployment polled state last [record] := by
  have home : 0 < deployment.settings.partitions deployment.settings.topicOrders := by
    have apart := deployment.settings.topics_distinct.2.1
    simpa [Settings.partitions, apart] using partitioned
  have sends : ∀ {middle : World × Journal}, Held deployment polled middle →
      publications middle.2 = publications state.2 →
      NotEarly (dueOf deployment record) middle.1.clock →
      Returns (recording (perform deployment 0)) Publishing
        (do
          let headers ← buildHeaders deployment record.headers.getAttempt none
            (record.headers.getError.map py) none
          publishRaw deployment.settings.topicOrders record.key record.value headers
          return Ack.commit) middle fun ack last =>
            ack = .commit ∧ Progressed deployment polled state last [record] := by
    intro middle stands same ready
    unfold publishRaw
    apply (send_logged home stands).bind
    intro _ last sent
    obtain ⟨stays, logged⟩ := sent
    refine Returns.ret ⟨rfl, stays, _, by rw [logged, same], ?_⟩
    exact .cons ⟨rfl, rfl, rfl, rfl, ready⟩ .nil
  unfold RetryScheduler.handle
  apply (time_read held).bind
  intro now middle read
  obtain ⟨rfl, after, stands, same⟩ := read
  rcases hold_cases after due with ⟨none, ready⟩ | ⟨wait, some, positive, within, ready⟩
  · simp only [dueOf] at none
    simp only [none]
    exact sends stands same ready
  · simp only [dueOf] at some
    simp only [some]
    apply (sleep_held stands positive within).bind
    intro _ last slept
    obtain ⟨later, stays, kept⟩ := slept
    exact sends stays (kept.trans same) (notEarly_later ready later)

theorem safeHandle_replays (partitioned : 0 < deployment.settings.topicPartitions)
    (held : Held deployment polled state)
    (due : NotAfter (dueOf deployment record)
      (polled + deployment.settings.retryMaxDelaySeconds)) :
    Returns (recording (perform deployment 0)) Publishing
      (BaseConsumer.safeHandle Consumer.retry.name (RetryScheduler.handle deployment) record) state
      fun ack last => ack = .commit ∧ Progressed deployment polled state last [record] := by
  unfold BaseConsumer.safeHandle
  apply Returns.tryCatch
  apply (step_held rfl (fun _ => ⟨rfl, rfl⟩) (fun _ => rfl) held).bind
  intro _ middle called
  obtain ⟨_, stands, same⟩ := called
  apply (handle_replays partitioned stands due).bind
  intro ack last handled
  obtain ⟨rfl, stays, more, logged, replays⟩ := handled
  apply (step_held rfl (fun _ => ⟨rfl, rfl⟩) (fun _ => rfl) stays).bind
  intro _ final returned
  obtain ⟨_, keeps, still⟩ := returned
  exact Returns.ret ⟨rfl, keeps, more, by rw [still, logged, same], replays⟩

theorem Progressed.refl (held : Held deployment polled state) :
    Progressed deployment polled state state [] :=
  ⟨held, [], by simp, .nil⟩

theorem Progressed.append {middle : World × Journal} {first second : List ConsumerRecord}
    (begins : Progressed deployment polled state middle first)
    (ends : Progressed deployment polled middle last second) :
    Progressed deployment polled state last (first ++ second) := by
  obtain ⟨_, some, logged, replays⟩ := begins
  obtain ⟨held, more, loggedToo, replaysToo⟩ := ends
  exact ⟨held, some ++ more, by rw [loggedToo, logged, List.append_assoc],
    List.rel_append replays replaysToo⟩

def CommitRaised (journal : Journal) : Prop :=
  ∃ entry ∈ journal, (∃ group tp offset, entry.op = .commitOffset group tp offset) ∧
    ∃ error, entry.outcome.reply = .error error

/-- How far a stretch of the batch has come when the pass ends: all of it, unless
    the commit of an offset raised. -/
def Drained (deployment : Deployment) (polled : ℚ) (state : World × Journal)
    (records : List ConsumerRecord) (result : Except Exn Bool) (last : World × Journal) : Prop :=
  ∃ handled, handled <+: records ∧ Progressed deployment polled state last handled ∧
    (result = .ok true ∧ handled = records ∨ (∃ error, result = .error error) ∧ CommitRaised last.2)

theorem Progressed.drained {middle : World × Journal} {first rest : List ConsumerRecord}
    {result : Except Exn Bool} (begins : Progressed deployment polled state middle first)
    (ends : Drained deployment polled middle rest result last) :
    Drained deployment polled state (first ++ rest) result last := by
  obtain ⟨handled, inside, progressed, ended⟩ := ends
  refine ⟨first ++ handled, List.prefix_append_right_inj _ |>.mpr inside, begins.append progressed, ?_⟩
  rcases ended with ⟨returned, rfl⟩ | raised
  · exact .inl ⟨returned, rfl⟩
  · exact .inr raised

theorem commit_logged {group : String} {tp : TopicPartition} {offset : Nat}
    (held : Held deployment polled state) :
    Yields (recording (perform deployment 0)) Publishing (await (.commitOffset group tp offset))
      state fun result last => Progressed deployment polled state last [] ∧
        ((∃ error, result = .error error) → CommitRaised last.2) := by
  apply Yields.operation
  · exact ⟨.normal {}, .ok (), _, recording_some.mpr ⟨_, rfl, rfl⟩, trivial⟩
  · intro fate outcome last performed permitted
    obtain ⟨after, stepped, rfl⟩ := recording_some.mp performed
    have frame : after.stopped = state.1.stopped ∧ after.clock = state.1.clock := by
      rcases perform_cases stepped with ⟨_, _, rfl⟩ | ⟨_, _, answered, _⟩
      · exact ⟨rfl, rfl⟩
      · cases answered
        exact ⟨rfl, rfl⟩
    refine ⟨⟨quiet_held held frame.1 frame.2.ge rfl, [], ?_, .nil⟩, ?_⟩
    · simp [publications_append, published]
    · intro raised
      refine ⟨_, List.mem_append_right _ (List.mem_singleton_self _), ⟨_, _, _, rfl⟩, raised⟩

theorem drainPartition_held (partitioned : 0 < deployment.settings.topicPartitions)
    (group : String) (tp : TopicPartition) (records : List ConsumerRecord)
    (held : Held deployment polled state)
    (due : ∀ record ∈ records, NotAfter (dueOf deployment record)
      (polled + deployment.settings.retryMaxDelaySeconds)) :
    Yields (recording (perform deployment 0)) Publishing
      (BaseConsumer.drainPartition Consumer.retry.name group (RetryScheduler.handle deployment) tp
        records) state (Drained deployment polled state records) := by
  induction records generalizing state with
  | nil => exact .ret ⟨[], List.prefix_rfl, .refl held, .inl ⟨rfl, rfl⟩⟩
  | cons record rest ih =>
    unfold BaseConsumer.drainPartition
    have asked : ∀ oracle, answer deployment 0 .stopping state.1 oracle =
        some (.ok false, state.1) := by
      intro oracle
      simp only [answer, held.running]
    apply (step_held rfl (fun _ => ⟨rfl, rfl⟩) asked held).bind
    intro _ first answered
    obtain ⟨rfl, stands, same⟩ := answered
    simp only [Bool.false_eq_true, ↓reduceIte]
    apply (safeHandle_replays partitioned stands (due record (List.mem_cons_self ..))).bind
    intro ack middle handled
    obtain ⟨rfl, stays, more, logged, replays⟩ := handled
    have begun : Progressed deployment polled state middle [record] :=
      ⟨stays, more, by rw [logged, same], replays⟩
    refine Yields.bind (commit_logged stays) ?_ ?_
    · intro _ last committed
      have through := begun.append committed.1
      apply (ih committed.1.1 fun record member => due record (List.mem_cons_of_mem _ member)).mono
      intro result final drained
      exact through.drained drained
    · intro error last committed
      have through := begun.append committed.1
      refine ⟨[record], ⟨rest, rfl⟩, through, .inr ⟨⟨error, rfl⟩, committed.2 ⟨error, rfl⟩⟩⟩

theorem drainBatch_held (partitioned : 0 < deployment.settings.topicPartitions) (group : String)
    (batch : List (TopicPartition × List ConsumerRecord)) (held : Held deployment polled state)
    (due : ∀ record ∈ batch.flatMap Prod.snd, NotAfter (dueOf deployment record)
      (polled + deployment.settings.retryMaxDelaySeconds)) :
    Yields (recording (perform deployment 0)) Publishing
      (BaseConsumer.drainBatch Consumer.retry.name group (RetryScheduler.handle deployment) batch)
      state (Drained deployment polled state (batch.flatMap Prod.snd)) := by
  induction batch generalizing state with
  | nil => exact .ret ⟨[], List.prefix_rfl, .refl held, .inl ⟨rfl, rfl⟩⟩
  | cons segment rest ih =>
    obtain ⟨tp, records⟩ := segment
    unfold BaseConsumer.drainBatch
    rw [List.flatMap_cons] at due ⊢
    refine Yields.bind (drainPartition_held partitioned group tp records held
      fun record member => due record (List.mem_append_left _ member)) ?_ ?_
    · intro goes middle drained
      obtain ⟨handled, _, progressed, ⟨same, rfl⟩ | ⟨⟨_, same⟩, _⟩⟩ := drained
      · cases same
        simp only [↓reduceIte]
        apply (ih progressed.1 fun record member => due record
          (List.mem_append_right _ member)).mono
        intro result final later
        exact progressed.drained later
      · cases same
    · intro error middle drained
      obtain ⟨handled, inside, progressed, ⟨same, _⟩ | raised⟩ := drained
      · cases same
      · exact ⟨handled, inside.trans (List.prefix_append ..), progressed, .inr raised⟩

/-- A batch polled at `world.clock`. A pass that is not cut short by the commit of
    an offset republishes all of it, each record when it is due; however it ends,
    its sleeps stay within the maximum delay. -/
theorem retry_batch_held (partitioned : 0 < deployment.settings.topicPartitions)
    (cap : 0 ≤ deployment.settings.retryMaxDelaySeconds) (world : World)
    (running : world.stopped 0 = false) (group : String)
    (batch : List (TopicPartition × List ConsumerRecord))
    (due : ∀ record ∈ batch.flatMap Prod.snd, NotAfter (dueOf deployment record)
      (world.clock + deployment.settings.retryMaxDelaySeconds)) :
    Yields (recording (perform deployment 0)) Publishing
      (BaseConsumer.drainBatch Consumer.retry.name group (RetryScheduler.handle deployment) batch)
      (world, []) fun result last =>
        slept last.2 ≤ deployment.settings.retryMaxDelaySeconds ∧
        ∃ handled, handled <+: batch.flatMap Prod.snd ∧
          List.Forall₂ (Replays deployment) handled (publications last.2) ∧
          (result = .ok true ∧ handled = batch.flatMap Prod.snd ∨
            (∃ error, result = .error error) ∧ CommitRaised last.2) := by
  have held : Held deployment world.clock (world, []) := by
    constructor
    · exact running
    · exact le_refl _
    · simp [slept]
    · simpa [slept] using cap
  apply (drainBatch_held partitioned group batch held due).mono
  intro result last drained
  obtain ⟨handled, inside, ⟨stays, more, logged, replays⟩, ended⟩ := drained
  refine ⟨stays.capped, handled, inside, ?_, ended⟩
  rw [logged]
  exact replays

namespace Sample

def heldRecord (due : String) (offset : Nat) : ConsumerRecord :=
  ⟨"orders.retry", 0, offset, none, .null, [(Headers.notBeforeName, some due.toUTF8)]⟩

/-- The later due time comes first. -/
def heldBatch : List (TopicPartition × List ConsumerRecord) :=
  [(⟨"orders.retry", 0⟩, [heldRecord "30.0" 0, heldRecord "20.0" 1])]

end Sample

theorem retry_batch_held_run :
    Yields (recording (perform Sample.shop 0)) Publishing
      (BaseConsumer.drainBatch Consumer.retry.name "order-retry-scheduler"
        (RetryScheduler.handle Sample.shop) Sample.heldBatch) (World.empty, [])
      fun result last => slept last.2 ≤ 60 ∧ ∃ handled, handled <+: Sample.heldBatch.flatMap Prod.snd ∧
        List.Forall₂ (Replays Sample.shop) handled (publications last.2) ∧
        (result = .ok true ∧ handled = Sample.heldBatch.flatMap Prod.snd ∨
          (∃ error, result = .error error) ∧ CommitRaised last.2) := by
  have first : dueOf Sample.shop (Sample.heldRecord "30.0" 0) = .num 30 := by decide +kernel
  have second : dueOf Sample.shop (Sample.heldRecord "20.0" 1) = .num 20 := by decide +kernel
  apply retry_batch_held
  · decide
  · decide +kernel
  · rfl
  · intro record member
    simp only [Sample.heldBatch, List.flatMap_cons, List.flatMap_nil, List.append_nil,
      List.mem_cons, List.not_mem_nil, or_false] at member
    rcases member with rfl | rfl
    · rw [first]
      show (30 : ℚ) ≤ 0 + 60
      norm_num
    · rw [second]
      show (20 : ℚ) ≤ 0 + 60
      norm_num

end OrderFlow
