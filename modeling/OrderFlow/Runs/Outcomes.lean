import OrderFlow.Runs.Guard

/-!
What an answered call leaves behind. A delivery that returns COMMIT has finished
its order or put the event back on a log, later than the record it came from.
-/
namespace OrderFlow
open AsyncCoroutine AsyncPool

variable {deployment : Deployment} {allows : Pipeline → Moment → Prop} {pool after : Pipeline}
  {thread : Nat} {op : Op} {outcome : Outcome Exn op.Reply}

/-! ### Finished orders -/

namespace Phase

/-- The phases of a delivery whose order is finished. -/
def finished : Phase → Bool
  | .skipping => true
  | .moved .completed _ => true
  | .moved .failed _ => true
  | .sent .failed => true
  | .closed .terminal => true
  | .closed .completed => true
  | .closed .failed => true
  | _ => false

theorem decide_finished (delivery : Delivery deployment) (result : Except Exn Unit) :
    (decide delivery result).finished = false := by
  rcases decide_deciding delivery result with ⟨aim, reason, same⟩ | same <;> rw [same] <;> rfl

theorem Progress.finished {delivery : Delivery deployment} {token : String} {before later : Phase}
    (moved : Progress delivery token before op outcome later) (ends : later.finished = true) :
    before.finished = true ∨ before = .absent ∨
      (∃ row, Selects op outcome delivery.event.orderId (some row) ∧ row.status.terminal = true) ∨
      ∃ aim reason row note hop, before = .read aim reason row ∧ aim.terminal = true ∧
        Commits op outcome (Repository.transitionWrites row
          (Repository.transitionRow row aim delivery.attempt reason) (some note) hop) := by
  cases moved with
  | checks row =>
    unfold checked at ends
    split at ends
    · rename_i terminal
      exact .inr (.inr (.inl ⟨row, ⟨rfl, rfl⟩, terminal⟩))
    · cases ends
  | writes aim reason row note hop =>
    refine .inr (.inr (.inr ⟨aim, reason, row, note, hop, rfl, ?_, rfl⟩))
    cases aim with
    | completed | failed => rfl
    | _ => cases ends
  | fulfils =>
    rw [decide_finished] at ends
    cases ends
  | deadLettersAbsent => exact .inr (.inl rfl)
  | stays => exact .inl ends
  | ends | deadLetters | completes | seals => exact .inl rfl
  | _ => cases ends

theorem Progress.absent {delivery : Delivery deployment} {token : String} {before later : Phase}
    (moved : Progress delivery token before op outcome later) (same : later = .absent) :
    before = .absent ∨ before.seen = true ∧ Selects op outcome delivery.event.orderId none := by
  cases moved with
  | checks row =>
    unfold checked at same
    split at same <;> cases same
  | fulfils reason result =>
    rcases decide_deciding delivery result.reply with ⟨aim, reason, leads⟩ | leads <;>
      rw [leads] at same <;> cases same
  | loses aim reason => exact .inr ⟨rfl, rfl, rfl⟩
  | stays => exact .inl same
  | _ => cases same

end Phase

/-- Rows never go away, so a second read finds the order. -/
theorem never_absent (reached : Reachable (system deployment) allows World.empty pool)
    (delivery : Delivery deployment) (token : String) :
    stage deployment pool thread ≠ .holding delivery token .absent := by
  intro standing
  refine each_stage (P := fun _ _ stage => ∀ delivery token,
    stage ≠ .holding delivery token .absent) ?_ ?_ ?_ reached thread delivery token standing
  · intro pool thread stage begins delivery token
    exact begins_holding begins
  · exact fun pool label after _ _ moved thread stage _ known => known
  · intro pool after thread op outcome reached _ _ act known delivery token standing
    rcases act.progress.holding standing with ⟨first, before, moved⟩ | ⟨same, _⟩
    · rcases moved.absent rfl with rfl | ⟨sees, selects⟩
      · exact known delivery token before
      · obtain ⟨row, found⟩ := (sighted reached thread delivery token _ before).known sees
        rw [(act.selects selects).1] at found
        cases found
    · cases same

theorem Finished.stays {label : Moment} {id : Uuid} (finished : Finished pool id)
    (reached : Reachable (system deployment) (TerminalCommitsAlone deployment) World.empty pool)
    (moved : Step (system deployment) pool label after) : Finished after id := by
  obtain ⟨row, found, terminal⟩ := finished
  obtain ⟨later, now, same⟩ := finished_stays reached moved found terminal
  exact ⟨later, now, same ▸ terminal⟩

/-- A committed terminal status finishes the order. -/
theorem commit_finishes {delivery : Delivery deployment} {token : String} {aim : OrderStatus}
    {reason : Option PyStr} {row : OrderRow} {note : PyStr} {hop : Nat}
    (reached : Reachable (system deployment) (TerminalCommitsAlone deployment) World.empty pool)
    (act : Acts deployment pool after thread op outcome)
    (reading : stage deployment pool thread = .holding delivery token (.read aim reason row))
    (terminal : aim.terminal = true)
    (commits : Commits op outcome (Repository.transitionWrites row
      (Repository.transitionRow row aim delivery.attempt reason) (some note) hop)) :
    Finished after delivery.event.orderId := by
  obtain ⟨known, named⟩ := sighted reached thread delivery token _ reading
  obtain ⟨current, found⟩ := known rfl
  have live := (decides_open reached).seen thread delivery token aim reason row reading
  have differ : aim ≠ row.status := by
    rintro rfl
    rw [terminal] at live
    cases live
  refine ⟨(Repository.changesOf row
    (Repository.transitionRow row aim delivery.attempt reason)).apply current, ?_, ?_⟩
  · rw [act.commits commits, transition_orders, named aim reason row rfl, Function.update_self, found]
    rfl
  · simpa [OrderChanges.apply, Repository.changesOf, Repository.transitionRow, differ] using terminal

theorem finished_phase
    (reached : Reachable (system deployment) (TerminalCommitsAlone deployment) World.empty pool)
    (delivery : Delivery deployment) (token : String) (phase : Phase)
    (standing : stage deployment pool thread = .holding delivery token phase)
    (ends : phase.finished = true) : Finished pool delivery.event.orderId := by
  refine each_stage (P := fun pool _ stage => ∀ delivery token phase,
    stage = .holding delivery token phase → phase.finished = true →
      Finished pool delivery.event.orderId)
    ?_ ?_ ?_ reached thread delivery token phase standing ends
  · intro pool thread stage begins delivery token phase standing
    exact (begins_holding begins standing).elim
  · intro pool label after reached _ moved thread stage _ known delivery token phase standing ends
    exact (known delivery token phase standing ends).stays reached moved
  · intro pool after thread op outcome reached _ step act known delivery token phase standing ends
    rcases act.progress.holding standing with ⟨first, before, moved⟩ | ⟨rfl, _⟩
    · rcases moved.finished ends with earlier | rfl | ⟨row, selects, terminal⟩ |
        ⟨aim, reason, row, note, hop, rfl, terminal, commits⟩
      · exact (known delivery token first before earlier).stays reached step
      · exact (never_absent reached delivery token before).elim
      · obtain ⟨stood, world⟩ := act.selects selects
        exact ⟨row, world ▸ stood, terminal⟩
      · exact commit_finishes reached act before terminal commits
    · cases ends

/-! ### Records put back -/

/-- Entries are stamped in the order they were appended. -/
theorem stamped (reached : Reachable (system deployment) allows World.empty pool) :
    ∀ tp, ∀ entry ∈ pool.world.logs tp, entry.stamp < pool.world.appends := by
  have appended : ∀ {world : World} {place : TopicPartition} {record : WireRecord},
      (∀ tp, ∀ entry ∈ world.logs tp, entry.stamp < world.appends) →
      ∀ tp, ∀ entry ∈ (world.append place record).logs tp,
        entry.stamp < (world.append place record).appends := by
    intro world place record known tp entry member
    rcases mem_append member with earlier | ⟨_, rfl⟩
    · exact Nat.lt_succ_of_lt (known tp entry earlier)
    · exact Nat.lt_succ_self _
  refine run_invariant (P := fun pool => ∀ tp, ∀ entry ∈ pool.world.logs tp,
    entry.stamp < pool.world.appends) ?_ ?_ ?_ ?_ reached
  · rintro tp entry ⟨⟩
  · intro pool after thread op outcome _ known _ act
    have change := logs_change act
    cases change with
    | same logs appends => rwa [logs, appends]
    | appended partition _ _ world _ =>
      rw [world]
      exact appended known
  · intro pool after label thread _ known _ turn
    rwa [turn.world]
  · intro pool after event _ known _ happening
    rcases happen_logs happening.happened with ⟨logs, appends⟩ | ⟨tp, record, _, world⟩
    · rwa [logs, appends]
    · rw [world]
      exact appended known

/-- The event stands on a log, later than at the place of the record. -/
def Superseded (deployment : Deployment) (pool : Pipeline) (record : ConsumerRecord)
    (event : OrderEvent) : Prop :=
  ∃ entry, (pool.world.logs record.tp)[record.offset]? = some entry ∧
    ∃ tp later, deployment.settings.carriesEvents tp.topic ∧ later ∈ pool.world.logs tp ∧
      Carries deployment.platform later event ∧ entry.stamp < later.stamp

theorem Superseded.stays {label : Moment} {record : ConsumerRecord} {event : OrderEvent}
    (superseded : Superseded deployment pool record event)
    (moved : Step (system deployment) pool label after) :
    Superseded deployment after record event := by
  obtain ⟨entry, found, tp, later, topic, member, carries, newer⟩ := superseded
  obtain ⟨bound, rfl⟩ := List.getElem?_eq_some_iff.mp found
  exact ⟨_, List.prefix_iff_getElem?.mp (step_logs moved record.tp) _ bound, tp, later, topic,
    (step_logs moved tp).subset member, carries, newer⟩

/-- Publishing the value of a handed record once more puts it back. -/
theorem superseded_by_send {record : ConsumerRecord} {consumer : Consumer} {event : OrderEvent}
    {topic : String} {key : Option String} {headers : Headers}
    (reached : Reachable (system deployment) allows World.empty pool)
    (act : Acts deployment pool after thread op outcome)
    (handed : Handed deployment pool consumer record)
    (value : record.value = deployment.platform.modelDump event)
    (sends : Sends op outcome topic key record.value headers)
    (through : deployment.settings.carriesEvents topic) :
    Superseded deployment after record event := by
  obtain ⟨partition, world⟩ := act.sends sends
  obtain ⟨entry, member, found, _⟩ := handed.logged.carries
  obtain ⟨bound, place⟩ := List.getElem?_eq_some_iff.mp found
  have grown := append_grows pool.world ⟨topic, partition⟩
    (wireRecord deployment.platform key record.value headers) record.tp
  refine ⟨entry, ?_, ⟨topic, partition⟩,
    ⟨wireRecord deployment.platform key record.value headers, pool.world.appends⟩, through, ?_, ?_,
    stamped reached _ entry member⟩
  · rw [world, ← place]
    exact List.prefix_iff_getElem?.mp grown _ bound
  · rw [world]
    simp [World.append]
  · rw [Carries, wireRecord, value]

/-- The phases of a delivery that has scheduled a retry. -/
def Phase.resent : Phase → Bool
  | .sent .pending => true
  | .closed .retried => true
  | _ => false

theorem Phase.Progress.resent {delivery : Delivery deployment} {token : String}
    {before later : Phase} (moved : Phase.Progress delivery token before op outcome later)
    (holds : later.resent = true) : before.resent = true ∨ ∃ headers,
      Sends op outcome deployment.settings.topicRetry (some delivery.event.orderId.str)
        delivery.record.value headers := by
  cases moved with
  | checks row =>
    unfold checked at holds
    split at holds <;> cases holds
  | fulfils reason result =>
    rcases decide_deciding delivery result.reply with ⟨aim, reason, leads⟩ | leads <;>
      rw [leads] at holds <;> cases holds
  | retries reason due failedAt => exact .inr ⟨_, rfl, rfl, rfl, rfl⟩
  | releases => exact .inl rfl
  | stays => exact .inl holds
  | _ => cases holds

theorem resent_phase (closed : Closed allows)
    (reached : Reachable (system deployment) allows World.empty pool)
    (delivery : Delivery deployment) (token : String) (phase : Phase)
    (standing : stage deployment pool thread = .holding delivery token phase)
    (holds : phase.resent = true) : Superseded deployment pool delivery.record delivery.event := by
  refine each_stage (P := fun pool _ stage => ∀ delivery token phase,
    stage = .holding delivery token phase → phase.resent = true →
      Superseded deployment pool delivery.record delivery.event)
    ?_ ?_ ?_ reached thread delivery token phase standing holds
  · intro pool thread stage begins delivery token phase standing
    exact (begins_holding begins standing).elim
  · intro pool label after _ _ moved thread stage _ known delivery token phase standing holds
    exact (known delivery token phase standing holds).stays moved
  · intro pool after thread op outcome reached _ step act known delivery token phase standing holds
    rcases act.progress.holding standing with ⟨first, before, moved⟩ | ⟨rfl, _⟩
    · rcases moved.resent holds with earlier | ⟨headers, sends⟩
      · exact (known delivery token first before earlier).stays step
      · have value := (delivery_event thread delivery closed reached (by rw [before]; rfl)
          (by rw [before]; rfl)).1
        have handed : Handed deployment pool .processor delivery.record :=
          handled_by thread reached (by rw [before]; rfl) (by rw [before]; rfl)
        exact superseded_by_send reached act handed value sends (.inr rfl)
    · cases holds

theorem Stage.Progress.relayed {before later : Stage deployment}
    (moved : Progress before op outcome later) {record : ConsumerRecord}
    (same : later = .relayed record) : before = .relaying record ∧ ∃ headers,
      Sends op outcome deployment.settings.topicOrders record.key record.value headers := by
  cases moved with
  | relays =>
    cases same
    exact ⟨rfl, _, rfl, rfl, rfl, rfl⟩
  | called name record =>
    simp only [Stage.called] at same
    split at same
    · cases same
    · split at same <;> cases same
  | _ => cases same

/-- The scheduler answers once the event is back on `orders.created`. -/
theorem relayed_stage (closed : Closed allows)
    (reached : Reachable (system deployment) allows World.empty pool) (record : ConsumerRecord)
    (standing : stage deployment pool thread = .relayed record) :
    ∃ event, record.value = deployment.platform.modelDump event ∧
      Superseded deployment pool record event := by
  refine each_stage (P := fun pool _ stage => ∀ record, stage = .relayed record →
    ∃ event, record.value = deployment.platform.modelDump event ∧
      Superseded deployment pool record event) ?_ ?_ ?_ reached thread record standing
  · rintro pool thread stage (_ | _ | _ | _) record ⟨⟩
  · intro pool label after _ _ moved thread stage _ known record standing
    obtain ⟨event, value, superseded⟩ := known record standing
    exact ⟨event, value, superseded.stays moved⟩
  · intro pool after thread op outcome reached _ _ act _ record standing
    obtain ⟨before, headers, sends⟩ := act.progress.relayed standing
    have handed : Handed deployment pool .retry record :=
      handled_by thread reached (by rw [before]; rfl) (by rw [before]; rfl)
    obtain ⟨_, event, _, value⟩ := handed_event closed reached handed (by rintro ⟨⟩)
    exact ⟨event, value, superseded_by_send reached act handed value sends (.inl rfl)⟩

/-! ### Tombstones -/

theorem Stage.Progress.settled {before later : Stage deployment}
    (moved : Progress before op outcome later) {record : ConsumerRecord} {verdict : Verdict}
    (same : later = .settled record verdict) :
    (∃ first, before = .settled record first) ∨
    (∃ delivery token taken, before = .claiming delivery token taken ∧
      Gets op outcome delivery.guard (some done) ∧ record = delivery.record) ∨
    before = .entered record ∧
      (∃ text, deployment.platform.modelValidate record.value = .error text) ∧
      ∃ topic key value headers, Phase.IsDeadLetter deployment record topic key value headers ∧
        Sends op outcome topic key value headers := by
  cases moved with
  | counts => exact .inl ⟨_, by rw [← same]⟩
  | skips delivery token taken =>
    cases same
    exact .inr (.inl ⟨delivery, token, taken, rfl, ⟨rfl, rfl⟩, rfl⟩)
  | rejects record text letter invalid =>
    cases same
    exact .inr (.inr ⟨rfl, ⟨text, invalid⟩, _, _, _, _, letter, rfl, rfl, rfl, rfl⟩)
  | called name record =>
    simp only [Stage.called] at same
    split at same
    · cases same
    · split at same <;> cases same
  | _ => cases same

/-- The phases only a delivery without an order gets to, or none. -/
def Phase.orphan : Phase → Bool
  | .missing => true
  | .buried => true
  | .closed .unknown => true
  | .closed .undecodable => true
  | .closed .duplicate => true
  | _ => false

theorem Phase.Progress.orphan {delivery : Delivery deployment} {token : String}
    {before later : Phase} (moved : Phase.Progress delivery token before op outcome later)
    (holds : later.orphan = true) :
    before.orphan = true ∨ Selects op outcome delivery.event.orderId none := by
  cases moved with
  | misses => exact .inr ⟨rfl, rfl⟩
  | checks row =>
    unfold checked at holds
    split at holds <;> cases holds
  | fulfils reason result =>
    rcases decide_deciding delivery result.reply with ⟨aim, reason, leads⟩ | leads <;>
      rw [leads] at holds <;> cases holds
  | tombs | buries => exact .inl rfl
  | stays => exact .inl holds
  | _ => cases holds

/-- Where only submissions publish, every delivery has an order. -/
theorem never_orphan (closed : Closed allows)
    (reached : Reachable (system deployment) allows World.empty pool)
    (delivery : Delivery deployment) (token : String) (phase : Phase)
    (standing : stage deployment pool thread = .holding delivery token phase) :
    phase.orphan = false := by
  refine each_stage (P := fun _ _ stage => ∀ delivery token phase,
    stage = .holding delivery token phase → phase.orphan = false)
    ?_ ?_ ?_ reached thread delivery token phase standing
  · intro pool thread stage begins delivery token phase standing
    exact (begins_holding begins standing).elim
  · exact fun pool label after _ _ moved thread stage _ known => known
  · intro pool after thread op outcome reached _ _ act known delivery token phase standing
    by_contra holds
    rw [Bool.not_eq_false] at holds
    rcases act.progress.holding standing with ⟨first, before, moved⟩ | ⟨rfl, _⟩
    · rcases moved.orphan holds with earlier | selects
      · rw [known delivery token first before] at earlier
        cases earlier
      · obtain ⟨_, publisher, published⟩ := delivery_event thread delivery closed reached
          (by rw [before]; rfl) (by rw [before]; rfl)
        obtain ⟨_, row, found⟩ := (publication reached).known publisher _ published
        rw [(act.selects selects).1] at found
        cases found
    · cases holds

/-- A tombstone stands for a finished order. -/
def Tombstones (deployment : Deployment) (pool : Pipeline) : Prop :=
  ∀ eventId, pool.world.redis (.eventGuard eventId) = some done →
    ∃ publisher event, PublishedBy deployment pool.trace publisher event ∧
      event.eventId = eventId ∧ Finished pool event.orderId

theorem completing_finished {phase : Phase} {verdict : Verdict}
    (completes : phase.completing = some verdict) : phase.orphan = true ∨ phase.finished = true := by
  cases phase with
  | missing => exact .inl rfl
  | skipping => exact .inr rfl
  | moved aim | sent aim =>
    cases aim <;> first | exact .inr rfl | cases completes
  | _ => cases completes

section
variable (closed : Closed allows)
  (outlive : ∀ pool label, allows pool label → GuardsOutlive deployment pool label)
include closed outlive

theorem tombstones (reached : Reachable (system deployment) allows World.empty pool) :
    Tombstones deployment pool := by
  induction reached with
  | init => rintro eventId ⟨⟩
  | @step pool label after reached permitted moved ih =>
    intro eventId marked
    have alone := commits_alone closed outlive reached
    have before : pool.world.redis (.eventGuard eventId) = some done → ∃ publisher event,
        PublishedBy deployment after.trace publisher event ∧ event.eventId = eventId ∧
          Finished after event.orderId := by
      intro earlier
      obtain ⟨publisher, event, published, same, finished⟩ := ih eventId earlier
      exact ⟨publisher, event, published.kept moved, same, finished.stays alone moved⟩
    rcases step_cases reached moved with ⟨thread, op, outcome, _, act⟩ | ⟨thread, turn⟩ |
      ⟨event, _, happening⟩
    · cases guard_change act eventId with
      | same redis => exact before (redis ▸ marked)
      | claimed delivery token taken _ standing _ _ redis =>
        rw [redis] at marked
        cases marked
        exact (token_ne_done reached thread (by rw [standing]; rfl) rfl).elim
      | completed delivery token phase verdict event completes standing _ _ _ =>
        obtain ⟨_, publisher, published⟩ := delivery_event thread delivery closed reached
          (by rw [standing]; rfl) (by rw [standing]; rfl)
        refine ⟨publisher, delivery.event, published.kept moved, event, ?_⟩
        rcases completing_finished completes with orphan | finished
        · rw [never_orphan closed reached delivery token phase standing] at orphan
          cases orphan
        · exact (finished_phase alone delivery token phase standing finished).stays alone moved
      | released _ _ _ _ _ _ _ redis =>
        rw [redis] at marked
        cases marked
    · exact before (turn.world ▸ marked)
    · rcases happen_redis happening.happened (.eventGuard eventId) with same | ⟨_, gone⟩
      · exact before (same ▸ marked)
      · rw [gone] at marked
        cases marked

/-- A record is skipped as a duplicate of a finished order only. -/
theorem settled_stage (reached : Reachable (system deployment) allows World.empty pool)
    (record : ConsumerRecord) (verdict : Verdict)
    (standing : stage deployment pool thread = .settled record verdict) :
    ∃ event, record.value = deployment.platform.modelDump event ∧ Finished pool event.orderId := by
  refine each_stage (P := fun pool _ stage => ∀ record verdict, stage = .settled record verdict →
    ∃ event, record.value = deployment.platform.modelDump event ∧ Finished pool event.orderId)
    ?_ ?_ ?_ reached thread record verdict standing
  · rintro pool thread stage (_ | _ | _ | _) record verdict ⟨⟩
  · intro pool label after reached _ moved thread stage _ known record verdict standing
    obtain ⟨event, value, finished⟩ := known record verdict standing
    exact ⟨event, value, finished.stays (commits_alone closed outlive reached) moved⟩
  · intro pool after thread op outcome reached _ step act known record verdict standing
    have alone := commits_alone closed outlive reached
    rcases act.progress.settled standing with ⟨first, before⟩ |
      ⟨delivery, token, taken, before, gets, rfl⟩ | ⟨before, ⟨text, invalid⟩, _⟩
    · obtain ⟨event, value, finished⟩ := known record first before
      exact ⟨event, value, finished.stays alone step⟩
    · obtain ⟨value, publisher, published⟩ := delivery_event thread delivery closed reached
        (by rw [before]; rfl) (by rw [before]; rfl)
      obtain ⟨other, event, publishedToo, same, finished⟩ :=
        tombstones closed outlive reached _ (act.gets gets).1
      obtain rfl := one_event reached published publishedToo (.inr same.symm)
      exact ⟨_, value, finished.stays alone step⟩
    · obtain ⟨_, event, _, value⟩ := handed_event closed reached
        (handled_by thread reached (by rw [before]; rfl) (by rw [before]; rfl) :
          Handed deployment pool .processor record) (by rintro ⟨⟩)
      rw [value, deployment.platform.modelValidate_dump] at invalid
      cases invalid

/-- A call that returned COMMIT has finished its order or put the event back. -/
def Accounted (deployment : Deployment) (pool : Pipeline) (consumer : Consumer)
    (record : ConsumerRecord) : Prop :=
  consumer ≠ .dlq → ∃ event, record.value = deployment.platform.modelDump event ∧
    (Finished pool event.orderId ∨ Superseded deployment pool record event)

theorem answers_accounted (reached : Reachable (system deployment) allows World.empty pool)
    {consumer : Consumer} {record : ConsumerRecord}
    (permitted : (stage deployment pool thread).allowed deployment
      (.handleReturn consumer.name record (some .commit)))
    (consumes : (stage deployment pool thread).consumer = some consumer)
    (inCall : (stage deployment pool thread).record = some record) :
    Accounted deployment pool consumer record := by
  intro through
  have alone := commits_alone closed outlive reached
  cases standing : stage deployment pool thread with
  | claiming delivery token taken =>
    rw [standing] at permitted
    cases permitted.2.2.2
  | holding delivery token phase =>
    rw [standing] at permitted inCall
    cases inCall
    have value := (delivery_event thread delivery closed reached (by rw [standing]; rfl)
      (by rw [standing]; rfl)).1
    refine ⟨delivery.event, value, ?_⟩
    cases phase with
    | closed verdict =>
      have known := never_orphan closed reached delivery token _ standing
      cases verdict with
      | retried => exact .inr (resent_phase closed reached delivery token _ standing rfl)
      | terminal | completed | failed =>
        exact .inl (finished_phase alone delivery token _ standing rfl)
      | _ => cases known
    | moved aim reason | towards aim reason | sent aim => cases aim <;> exact permitted.elim
    | _ => exact permitted.elim
  | settled handled verdict =>
    rw [standing] at inCall
    cases inCall
    obtain ⟨event, value, finished⟩ := settled_stage closed outlive reached record verdict standing
    exact ⟨event, value, .inl finished⟩
  | relayed handled =>
    rw [standing] at inCall
    cases inCall
    obtain ⟨event, value, superseded⟩ := relayed_stage closed reached record standing
    exact ⟨event, value, .inr superseded⟩
  | archiving handled =>
    rw [standing] at consumes
    cases consumes
    exact absurd rfl through
  | entered | relaying =>
    rw [standing] at permitted
    exact permitted.elim
  | _ =>
    rw [standing] at consumes
    cases consumes

theorem accounted (reached : Reachable (system deployment) allows World.empty pool)
    {consumer : Consumer} {record : ConsumerRecord}
    (committed : Committed pool.trace consumer record) :
    Accounted deployment pool consumer record := by
  refine each_answer (P := fun pool consumer record => Accounted deployment pool consumer record)
    ?_ ?_ reached committed
  · intro pool label after reached _ moved consumer record known through
    obtain ⟨event, value, finished | superseded⟩ := known through
    · exact ⟨event, value, .inl (finished.stays (commits_alone closed outlive reached) moved)⟩
    · exact ⟨event, value, .inr (superseded.stays moved)⟩
  · intro pool thread consumer record reached permitted consumes inCall
    exact answers_accounted closed outlive reached permitted consumes inCall

end
end OrderFlow
