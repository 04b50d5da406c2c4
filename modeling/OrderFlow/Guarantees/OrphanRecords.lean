import OrderFlow.Runs.Outcomes
import OrderFlow.Sample

/-!
Records without an order. Undecodable ones are dead-lettered before they are
committed. For an event that names no order the tombstone is set before the
letter is published; whoever reads it in between takes the record for done.
-/
namespace OrderFlow
open AsyncCoroutine AsyncPool

variable {deployment : Deployment} {allows : Pipeline → Moment → Prop} {pool after : Pipeline}
  {thread : Nat} {op : Op} {outcome : Outcome Exn op.Reply}

/-- Between a tombstone set for a missing order and its dead letter no fault
    strikes the call, and no other call reads the guard key. -/
def TombstonesFollowed (deployment : Deployment) (pool : Pipeline) (label : Moment) : Prop :=
  ∀ thread delivery token,
    (stage deployment pool thread = .holding delivery token .missing →
      ∀ ttl error, label ≠ .did thread (.evalComplete delivery.guard token ttl) (.late error)) ∧
    (stage deployment pool thread = .holding delivery token .buried →
      label ≠ .crash thread ∧
      (∀ topic key value headers error,
        label ≠ .did thread (.send topic key value headers) (.lost error)) ∧
      ∀ other outcome, other ≠ thread → label ≠ .did other (.get delivery.guard) outcome)

/-- The value is dead-lettered, or names an order that has a row. -/
def Sheltered (deployment : Deployment) (pool : Pipeline) (value : Json) : Prop :=
  DeadLettered deployment pool (OrderConsumer.wrapRaw value) ∨
    ∃ event, deployment.platform.modelValidate value = .ok event ∧ Known pool event.orderId

theorem Sheltered.stays {label : Moment} {value : Json}
    (sheltered : Sheltered deployment pool value)
    (reached : Reachable (system deployment) allows World.empty pool)
    (moved : Step (system deployment) pool label after) : Sheltered deployment after value := by
  rcases sheltered with letter | ⟨event, valid, known⟩
  · exact .inl (letter.stays moved)
  · exact .inr ⟨event, valid, known_stays reached moved known⟩

/-- The two values are events with one event id, or the same value. -/
def SameEvent (platform : Platform) (first second : Json) : Prop :=
  first = second ∨ ∃ event other, platform.modelValidate first = .ok event ∧
    platform.modelValidate second = .ok other ∧ event.eventId = other.eventId

/-- A delivery whose tombstone is set and whose letter is on its way. -/
def Burying (deployment : Deployment) (pool : Pipeline) (delivery : Delivery deployment) : Prop :=
  ∃ thread token, stage deployment pool thread = .holding delivery token .buried

/-- Someone holds a record with this event id whose fate is settled, or about to be. -/
def Marked (deployment : Deployment) (pool : Pipeline) (eventId : String) : Prop :=
  ∃ delivery : Delivery deployment, delivery.event.eventId = eventId ∧
    Handed deployment pool .processor delivery.record ∧
    (Sheltered deployment pool delivery.record.value ∨ Burying deployment pool delivery)

/-- A delivery goes on burying its record until the letter is published. -/
theorem burying_step {delivery : Delivery deployment} {token : String}
    (permitted : TombstonesFollowed deployment pool (.did thread op outcome))
    (act : Acts deployment pool after thread op outcome)
    (before : stage deployment pool thread = .holding delivery token .buried) :
    stage deployment after thread = .holding delivery token .buried ∨
      Sheltered deployment after delivery.record.value := by
  obtain ⟨fate, performed⟩ := act.performed
  have allowed := act.permitted
  have own := act.own
  rw [before] at allowed own
  cases op with
  | utcnow =>
    obtain ⟨oracle, reply, answered, same⟩ := perform_local performed rfl
    simp only [answer, Option.some.injEq, Prod.mk.injEq] at answered
    obtain ⟨rfl, _⟩ := answered
    subst same
    exact .inl own
  | send topic key value headers =>
    rcases perform_send performed with ⟨error, rfl, _⟩ | ⟨_, partition, _, world⟩
    · exact (((permitted thread delivery token).2 before).2.1 _ _ _ _ error rfl).elim
    · exact .inr (.inl (letter_published allowed world))
  | _ => exact allowed.elim

theorem Marked.stays {label : Moment} {eventId : String}
    (marked : Marked deployment pool eventId)
    (reached : Reachable (system deployment) (TombstonesFollowed deployment) World.empty pool)
    (permitted : TombstonesFollowed deployment pool label)
    (moved : Step (system deployment) pool label after) : Marked deployment after eventId := by
  obtain ⟨delivery, event, handed, sheltered | ⟨thread, token, before⟩⟩ := marked
  · exact ⟨delivery, event, handed.later moved, .inl (sheltered.stays reached moved)⟩
  · have kept : stage deployment after thread = stage deployment pool thread →
        Marked deployment after eventId := fun same =>
      ⟨delivery, event, handed.later moved, .inr ⟨thread, token, same.trans before⟩⟩
    rcases step_cases reached moved with ⟨actor, op, outcome, rfl, act⟩ | ⟨actor, turn⟩ |
      ⟨event, rfl, happening⟩
    · by_cases same : thread = actor
      · subst same
        refine ⟨delivery, event, handed.later moved, ?_⟩
        rcases burying_step permitted act before with still | sheltered
        · exact .inr ⟨thread, token, still⟩
        · exact .inl sheltered
      · exact kept (act.others thread same)
    · by_cases same : thread = actor
      · subst same
        rcases turn.own with ⟨_, _, _, outside, _⟩ | ⟨_, _, outside, _⟩ | ⟨rfl, _⟩
        · rw [before] at outside
          cases outside
        · rw [before] at outside
          cases outside
        · exact (((permitted thread delivery token).2 before).1 rfl).elim
      · exact kept (turn.others thread same)
    · exact kept (happening.stages thread)

/-- A delivery past its first read has an order, unless it found none. -/
theorem completing_seen {phase : Phase} {verdict : Verdict}
    (completes : phase.completing = some verdict) :
    phase = .missing ∧ verdict = .unknown ∨ phase.seen = true := by
  cases phase with
  | missing =>
    cases completes
    exact .inl ⟨rfl, rfl⟩
  | skipping | moved | sent => exact .inr rfl
  | _ => cases completes

/-- A tombstone stands for a record that is sheltered, or about to be. -/
theorem tombstone_marked
    (reached : Reachable (system deployment) (TombstonesFollowed deployment) World.empty pool) :
    ∀ eventId, pool.world.redis (.eventGuard eventId) = some done →
      Marked deployment pool eventId := by
  induction reached with
  | init => rintro eventId ⟨⟩
  | @step pool label after reached permitted moved ih =>
    intro eventId marked
    have before : pool.world.redis (.eventGuard eventId) = some done →
        Marked deployment after eventId :=
      fun earlier => (ih eventId earlier).stays reached permitted moved
    rcases step_cases reached moved with ⟨thread, op, outcome, rfl, act⟩ | ⟨thread, turn⟩ |
      ⟨event, _, happening⟩
    · cases guard_change act eventId with
      | same redis => exact before (redis ▸ marked)
      | claimed delivery token taken _ standing _ _ redis =>
        rw [redis] at marked
        cases marked
        exact (token_ne_done reached thread (by rw [standing]; rfl) rfl).elim
      | completed delivery token phase verdict event completes standing later _ _ =>
        have handed : Handed deployment pool .processor delivery.record :=
          handled_by thread reached (by rw [standing]; rfl) (by rw [standing]; rfl)
        refine ⟨delivery, event, handed.later moved, ?_⟩
        rcases completing_seen completes with ⟨rfl, rfl⟩ | sees
        · rcases later with buried | ⟨_, ttl, error, trace⟩
          · exact .inr ⟨thread, token, buried⟩
          · rw [act.trace] at trace
            exact ((permitted thread delivery token).1 standing ttl error
              (List.cons.inj trace).1).elim
        · have known := (sighted reached thread delivery token phase standing).known sees
          exact .inl (.inr ⟨delivery.event, delivery.valid, known_stays reached moved known⟩)
      | released _ _ _ _ _ _ _ redis =>
        rw [redis] at marked
        cases marked
    · exact before (turn.world ▸ marked)
    · rcases happen_redis happening.happened (.eventGuard eventId) with same | ⟨_, gone⟩
      · exact before (same ▸ marked)
      · rw [gone] at marked
        cases marked

/-! ### Answers -/

/-- The record's own value, or that of a record with its event id, is sheltered. -/
def Vouched (deployment : Deployment) (pool : Pipeline) (record : ConsumerRecord) : Prop :=
  ∃ holder, Handed deployment pool .processor holder ∧
    Sheltered deployment pool holder.value ∧
    SameEvent deployment.platform record.value holder.value

theorem Vouched.stays {label : Moment} {record : ConsumerRecord}
    (vouched : Vouched deployment pool record)
    (reached : Reachable (system deployment) allows World.empty pool)
    (moved : Step (system deployment) pool label after) : Vouched deployment after record := by
  obtain ⟨holder, handed, sheltered, same⟩ := vouched
  exact ⟨holder, handed.later moved, sheltered.stays reached moved, same⟩

theorem settled_vouched
    (reached : Reachable (system deployment) (TombstonesFollowed deployment) World.empty pool)
    (record : ConsumerRecord) (verdict : Verdict)
    (standing : stage deployment pool thread = .settled record verdict) :
    Vouched deployment pool record := by
  refine each_stage (P := fun pool _ stage => ∀ record verdict, stage = .settled record verdict →
    Vouched deployment pool record) ?_ ?_ ?_ reached thread record verdict standing
  · rintro pool thread stage (_ | _ | _ | _) record verdict ⟨⟩
  · intro pool label after reached _ moved thread stage _ known record verdict standing
    exact (known record verdict standing).stays reached moved
  · intro pool after thread op outcome reached permitted step act known record verdict standing
    rcases act.progress.settled standing with ⟨first, before⟩ |
      ⟨delivery, token, taken, before, gets, rfl⟩ |
      ⟨before, _, topic, key, value, headers, letter, sends⟩
    · exact (known record first before).stays reached step
    · obtain ⟨holder, same, handed, sheltered | ⟨other, mine, burying⟩⟩ :=
        tombstone_marked reached delivery.event.eventId (act.gets gets).1
      · exact ⟨holder.record, handed.later step, sheltered.stays reached step,
          .inr ⟨delivery.event, holder.event, delivery.valid, holder.valid, same.symm⟩⟩
      · have differ : thread ≠ other := by
          rintro rfl
          rw [before] at burying
          cases burying
        have key : delivery.guard = holder.guard := congrArg Key.eventGuard same.symm
        unfold Gets at gets
        split at gets
        · obtain ⟨rfl, rfl⟩ := gets
          exact (((permitted other holder mine).2 burying).2.2 thread _ differ (by rw [key])).elim
        · cases gets
    · obtain ⟨partition, world⟩ := act.sends sends
      have handed : Handed deployment pool .processor record :=
        handled_by thread reached (by rw [before]; rfl) (by rw [before]; rfl)
      exact ⟨record, handed.later step, .inl (letter_published letter world), .inl rfl⟩

theorem Phase.Progress.buried {delivery : Delivery deployment} {token : String}
    {before later : Phase} (moved : Phase.Progress delivery token before op outcome later)
    (same : later = .closed .unknown) : before = .closed .unknown ∨
      ∃ topic key value headers,
        Phase.IsDeadLetter deployment delivery.record topic key value headers ∧
        Sends op outcome topic key value headers := by
  cases moved with
  | checks row =>
    unfold checked at same
    split at same <;> cases same
  | fulfils reason result =>
    rcases decide_deciding delivery result.reply with ⟨aim, reason, leads⟩ | leads <;>
      rw [leads] at same <;> cases same
  | buries letter => exact .inr ⟨_, _, _, _, letter, rfl, rfl, rfl, rfl⟩
  | stays => exact .inl same
  | _ => cases same

theorem unknown_lettered (reached : Reachable (system deployment) allows World.empty pool)
    (delivery : Delivery deployment) (token : String)
    (standing : stage deployment pool thread = .holding delivery token (.closed .unknown)) :
    DeadLettered deployment pool (OrderConsumer.wrapRaw delivery.record.value) := by
  refine each_stage (P := fun pool _ stage => ∀ delivery token,
    stage = .holding delivery token (.closed .unknown) →
      DeadLettered deployment pool (OrderConsumer.wrapRaw delivery.record.value))
    ?_ ?_ ?_ reached thread delivery token standing
  · intro pool thread stage begins delivery token standing
    exact (begins_holding begins standing).elim
  · intro pool label after _ _ moved thread stage _ known delivery token standing
    exact (known delivery token standing).stays moved
  · intro pool after thread op outcome reached _ step act known delivery token standing
    rcases act.progress.holding standing with ⟨first, before, moved⟩ | ⟨same, _⟩
    · rcases moved.buried rfl with rfl | ⟨topic, key, value, headers, letter, sends⟩
      · exact (known delivery token before).stays step
      · obtain ⟨partition, world⟩ := act.sends sends
        exact letter_published letter world
    · cases same

theorem answers_vouched
    (reached : Reachable (system deployment) (TombstonesFollowed deployment) World.empty pool)
    {record : ConsumerRecord}
    (permitted : (stage deployment pool thread).allowed deployment
      (.handleReturn Consumer.processor.name record (some .commit)))
    (consumes : (stage deployment pool thread).consumer = some .processor)
    (inCall : (stage deployment pool thread).record = some record) :
    Vouched deployment pool record := by
  have handed := handled_by thread reached inCall consumes
  cases standing : stage deployment pool thread with
  | claiming delivery token taken =>
    rw [standing] at permitted
    cases permitted.2.2.2
  | holding delivery token phase =>
    rw [standing] at permitted inCall
    cases inCall
    refine ⟨delivery.record, handed, ?_, .inl rfl⟩
    cases phase with
    | closed verdict =>
      by_cases unknown : verdict = .unknown
      · subst unknown
        exact .inl (unknown_lettered reached delivery token standing)
      · have known := (sighted reached thread delivery token _ standing).known
          (by simpa [Phase.seen] using unknown)
        exact .inr ⟨delivery.event, delivery.valid, known⟩
    | moved aim reason | towards aim reason | sent aim => cases aim <;> exact permitted.elim
    | _ => exact permitted.elim
  | settled handled verdict =>
    rw [standing] at inCall
    cases inCall
    exact settled_vouched reached record verdict standing
  | entered =>
    rw [standing] at permitted
    exact permitted.elim
  | _ =>
    rw [standing] at consumes
    cases consumes

/-- A record without an order is not committed past without its dead letter, as long
    as records with one event id have one value. -/
theorem orphan_record_dead_lettered (record : ConsumerRecord)
    (reached : Reachable (system deployment) (TombstonesFollowed deployment) World.empty pool)
    (shared : ∀ first second, Handed deployment pool .processor first →
      Handed deployment pool .processor second → ∀ event other,
      deployment.platform.modelValidate first.value = .ok event →
      deployment.platform.modelValidate second.value = .ok other →
      event.eventId = other.eventId → first.value = second.value)
    (handed : Handed deployment pool .processor record)
    (orphan : (∃ text, deployment.platform.modelValidate record.value = .error text) ∨
      ∃ event, deployment.platform.modelValidate record.value = .ok event ∧
        pool.world.orders event.orderId = none)
    (past : record.offset < pool.world.committed deployment.settings.groupProcessors record.tp) :
    DeadLettered deployment pool (OrderConsumer.wrapRaw record.value) := by
  have below : record.offset < pool.world.committed
      (Consumer.processor.group deployment.settings)
      ⟨Consumer.processor.topic deployment.settings, record.partition⟩ := handed.place ▸ past
  obtain ⟨same, partition, offset, handedToo, committed⟩ := committed_past reached below
  obtain rfl := handedToo.unique handed partition offset
  have vouched : Vouched deployment pool same := by
    refine each_answer (P := fun pool consumer record => consumer = .processor →
      Vouched deployment pool record) ?_ ?_ reached committed rfl
    · intro pool label after reached _ moved consumer record known consumes
      exact (known consumes).stays reached moved
    · rintro pool thread _ record reached permitted consumes inCall rfl
      exact answers_vouched reached permitted consumes inCall
  obtain ⟨holder, held, sheltered, alike⟩ := vouched
  have value : same.value = holder.value := by
    rcases alike with equal | ⟨event, other, valid, validToo, ids⟩
    · exact equal
    · exact shared same holder handed held event other valid validToo ids
  rw [← value] at sheltered
  rcases sheltered with letter | ⟨event, valid, row, found⟩
  · exact letter
  · rcases orphan with ⟨text, invalid⟩ | ⟨named, validToo, missing⟩
    · rw [invalid] at valid
      cases valid
    · rw [validToo] at valid
      cases valid
      rw [missing] at found
      cases found

namespace Sample

/-- An event whose order nobody submitted. -/
def stray : OrderEvent := event none 9 8

def strayRecord : WireRecord := ⟨none, some (serialize platform (modelDump stray)), []⟩

def strayFetched : Moves :=
  [.event (.produce ⟨"orders.created", 0⟩ strayRecord)] ++ consume {} 1 .processor ++ runs 1 2 ++
    [.run 1 (draw 3)]

/-- No fault, and nobody reads a guard key; records may be produced. -/
def unread : Moment → Bool
  | .did _ (.get (.eventGuard _)) _ => false
  | .event (.produce _ _) => true
  | label => faultless label

theorem unread_followed (pool : Pipeline) (label : Moment) (passes : unread label = true) :
    TombstonesFollowed shop pool label := by
  refine fun thread delivery token => ⟨fun _ => ?_, fun _ => ⟨?_, ?_, ?_⟩⟩
  · rintro ttl error rfl
    cases passes
  · rintro rfl
    cases passes
  · rintro topic key value headers error rfl
    cases passes
  · rintro other outcome _ rfl
    cases passes

/-- The first record of the log is the stray one, and there is no other. -/
def strayOnly (pool : Pipeline) : Bool :=
  produced pool.trace = [⟨"orders.created", 0⟩] &&
    [0, 1, 2].all (fun partition =>
      (pool.world.logs ⟨"orders.created", partition⟩).length = if partition = 0 then 1 else 0) &&
    ((pool.world.logs ⟨"orders.created", 0⟩)[0]?.bind fun entry =>
      recallRecord [stray] ⟨"orders.created", 0⟩ 0 entry.record).any (fun record =>
        readEvent record.value = some stray) &&
    pool.world.orders stray.orderId = none &&
    pool.world.committed "order-processors" ⟨"orders.created", 0⟩ = 1

theorem stray_handed {allows : Pipeline → Moment → Prop} {pool : Pipeline}
    (reached : Reachable (system shop) allows World.empty pool) (facts : strayOnly pool = true) :
    ∃ record, Handed shop pool .processor record ∧
      (∀ other, Handed shop pool .processor other → other = record) ∧
      shop.platform.modelValidate record.value = .ok stray ∧
      pool.world.orders stray.orderId = none ∧
      record.offset < pool.world.committed shop.settings.groupProcessors record.tp := by
  simp only [strayOnly, Bool.and_eq_true, decide_eq_true_eq, List.all_eq_true, Option.any_eq_true,
    Option.bind_eq_some_iff] at facts
  obtain ⟨⟨⟨⟨outside, lengths⟩, record, ⟨entry, stored, recalled⟩, read⟩, absent⟩, past⟩ := facts
  have place : Handed shop pool .processor record ∧ record.tp = ⟨"orders.created", 0⟩ ∧
      record.offset = 0 := handed_of_recall .processor stored recalled
  obtain ⟨handed, tp, offset⟩ := place
  refine ⟨record, handed, fun other also => ?_, ?_, absent, ?_⟩
  · obtain ⟨stood, found, _⟩ := also.logged
    rw [also.place] at found
    have home : other.partition < 3 := by
      rcases logs_home reached _ stood (List.mem_of_getElem? found) with home | inside
      · exact home
      · rw [outside, List.mem_singleton] at inside
        have : other.partition = 0 := congrArg TopicPartition.partition inside
        omega
    have short : other.offset < (pool.world.logs ⟨"orders.created", other.partition⟩).length :=
      (List.getElem?_eq_some_iff.mp found).1
    have length := lengths other.partition (by simp only [List.mem_cons, List.not_mem_nil]; omega)
    have first : other.partition = 0 ∧ other.offset = 0 := by
      by_cases zero : other.partition = 0
      · rw [if_pos zero] at length
        exact ⟨zero, by omega⟩
      · rw [if_neg zero] at length
        omega
    exact also.unique handed (first.1.trans (congrArg TopicPartition.partition tp).symm)
      (first.2.trans offset.symm)
  · show modelValidate record.value = .ok stray
    rw [modelValidate, read]
  · rw [tp, offset]
    exact lt_of_lt_of_eq Nat.zero_lt_one past.symm

end Sample

theorem orphan_record_dead_lettered_run : ∃ pool record,
    Handed Sample.shop pool .processor record ∧
      DeadLettered Sample.shop pool (OrderConsumer.wrapRaw record.value) := by
  obtain ⟨pool, reached, facts⟩ := Sample.play_shows {} Sample.fulfils [Sample.stray]
    (Sample.strayFetched ++ Sample.runs 1 8) Sample.unread_followed Sample.strayOnly
    (by decide +kernel)
  obtain ⟨record, handed, only, valid, absent, past⟩ := Sample.stray_handed reached facts
  refine ⟨pool, record, handed, orphan_record_dead_lettered record reached ?_ handed
    (.inr ⟨Sample.stray, valid, absent⟩) past⟩
  intro first second handedFirst handedSecond event other _ _ _
  rw [only first handedFirst, only second handedSecond]

/-! ### A record that is lost -/

namespace Sample

/-- The letter's send raises after the tombstone is set; the next delivery reads
    the tombstone. -/
def strayLost : Moves :=
  strayFetched ++ runs 1 4 ++ [.run 1 .lost] ++ runs 1 3 ++ [.run 1 (.normal { time := 1 })] ++
    runs 1 1 ++ [.again 1] ++ runs 1 1 ++ [.run 1 (take "orders.created" 0 1)] ++ runs 1 3 ++
    [.run 1 (draw 4)] ++ runs 1 5

end Sample

theorem orphan_record_dropped : ∃ pool record,
    Reachable (system Sample.shop) Sample.Anything World.empty pool ∧
      Handed Sample.shop pool .processor record ∧
      (∃ event, Sample.shop.platform.modelValidate record.value = .ok event ∧
        pool.world.orders event.orderId = none) ∧
      record.offset < pool.world.committed Sample.shop.settings.groupProcessors record.tp ∧
      ¬ DeadLettered Sample.shop pool (OrderConsumer.wrapRaw record.value) := by
  obtain ⟨pool, reached, facts⟩ := Sample.play_shows {} Sample.fulfils [Sample.stray]
    Sample.strayLost Sample.anything_sound
    (fun pool => Sample.strayOnly pool && (pool.world.logs ⟨"orders.dlq", 0⟩).length = 0)
    (by decide +kernel)
  simp only [Bool.and_eq_true, decide_eq_true_eq] at facts
  obtain ⟨stray, empty⟩ := facts
  obtain ⟨record, handed, only, valid, absent, past⟩ := Sample.stray_handed reached stray
  refine ⟨pool, record, reached, handed, ⟨_, valid, absent⟩, past, ?_⟩
  have outside : Sample.produced pool.trace = [⟨"orders.created", 0⟩] := by
    simp only [Sample.strayOnly, Bool.and_eq_true, decide_eq_true_eq] at stray
    exact stray.1.1.1.1
  exact Sample.not_lettered reached (by rw [outside]; simp [Sample.shop, Sample.deployment]) empty

end OrderFlow
