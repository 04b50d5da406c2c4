import OrderFlow.Runs.Outcomes

/-!
Attempts. A delivery on its way to a retry is in a call of `handle` on its record,
and `fulfil` has raised a TransientError in that call.
-/
namespace OrderFlow
open AsyncCoroutine AsyncPool

variable {deployment : Deployment} {allows : Pipeline → Moment → Prop} {pool after : Pipeline}
  {thread : Nat} {op : Op} {outcome : Outcome Exn op.Reply}

/-- The call of the processor's `handle` that the thread is in is one on this record. -/
def Entered (past : List Moment) (thread : Nat) (record : ConsumerRecord) : Prop :=
  ∃ since before outcome,
    past = since ++ .did thread (.handleCall Consumer.processor.name record) outcome :: before ∧
      ∀ name other,
        (∀ outcome, Label.did thread (.handleCall name other) outcome ∉ since) ∧
          ∀ result outcome, Label.did thread (.handleReturn name other result) outcome ∉ since

/-- A call of `handle` on the record called `fulfil`, which raised this TransientError. -/
def Raised (trace : List Moment) (record : ConsumerRecord) (event : OrderEvent)
    (message : PyStr) : Prop :=
  ∃ thread later past outcome, trace = later ++ .did thread (.fulfil event) outcome :: past ∧
    outcome.reply = .error (.transient message) ∧ Entered past thread record

theorem Entered.later {past : List Moment} {record : ConsumerRecord}
    (entered : Entered past thread record) {label : Moment}
    (inside : ∀ name other,
      (∀ outcome, label ≠ .did thread (.handleCall name other) outcome) ∧
        ∀ result outcome, label ≠ .did thread (.handleReturn name other result) outcome) :
    Entered (label :: past) thread record := by
  obtain ⟨since, before, outcome, rfl, stays⟩ := entered
  refine ⟨label :: since, before, outcome, by simp, fun name other => ⟨?_, ?_⟩⟩
  · intro outcome member
    rcases List.mem_cons.mp member with same | earlier
    · exact (inside name other).1 outcome same.symm
    · exact (stays name other).1 outcome earlier
  · intro result outcome member
    rcases List.mem_cons.mp member with same | earlier
    · exact (inside name other).2 result outcome same.symm
    · exact (stays name other).2 result outcome earlier

theorem Raised.later {trace : List Moment} {record : ConsumerRecord} {event : OrderEvent}
    {message : PyStr} (raised : Raised trace record event message) (label : Moment) :
    Raised (label :: trace) record event message := by
  obtain ⟨thread, later, past, outcome, rfl, failed, entered⟩ := raised
  exact ⟨thread, label :: later, past, outcome, by simp, failed, entered⟩

namespace Stage
variable {before : Stage deployment}

/-- A call is entered from outside only. -/
theorem entering {name : String} {record : ConsumerRecord}
    (permitted : before.allowed deployment (.handleCall name record)) : before = .outside := by
  cases before with
  | outside => rfl
  | submitting submission => cases submission <;> exact permitted.elim
  | holding delivery token phase =>
    cases phase with
    | moved aim reason | towards aim reason | sent aim => cases aim <;> exact permitted.elim
    | _ => exact permitted.elim
  | _ => exact permitted.elim

/-- An answer, or the lack of one, ends a call of the processor. -/
theorem returning {name : String} {record : ConsumerRecord} {result : Option Ack}
    {outcome : Outcome Exn Unit}
    (permitted : before.allowed deployment (.handleReturn name record result)) :
    (before.next deployment (.handleReturn name record result) outcome).consumer ≠
      some .processor := by
  cases before with
  | claiming delivery token taken => cases outcome <;> simp [next, claimingNext, consumer]
  | holding delivery token phase =>
    cases phase with
    | closed verdict => cases outcome <;> simp [next, holdingNext, consumer]
    | moved aim reason | towards aim reason | sent aim => cases aim <;> exact permitted.elim
    | _ => exact permitted.elim
  | settled handled verdict => cases outcome <;> simp [next, settledNext, consumer]
  | relayed handled => cases outcome <;> simp [next, relayedNext, consumer]
  | archiving handled =>
    cases result <;> cases outcome <;> simp [next, archivingNext, consumer]
  | leaving handled => simp [next, leavingNext, consumer]
  | submitting submission => cases submission <;> exact permitted.elim
  | _ => exact permitted.elim

theorem called_processor {name : String} {record : ConsumerRecord}
    (processes : (called deployment name record).consumer = some .processor) :
    name = Consumer.processor.name := by
  unfold called at processes
  split at processes
  · assumption
  · split at processes <;> cases processes

end Stage

/-- A thread in a call of the processor has entered it. -/
theorem entered (reached : Reachable (system deployment) allows World.empty pool) (thread : Nat)
    (record : ConsumerRecord) (inCall : (stage deployment pool thread).record = some record)
    (processes : (stage deployment pool thread).consumer = some .processor) :
    Entered pool.trace thread record := by
  refine each_stage (P := fun pool thread stage => ∀ record, stage.record = some record →
    stage.consumer = some .processor → Entered pool.trace thread record)
    ?_ ?_ ?_ reached thread record inCall processes
  · intro pool thread stage begins record inCall
    cases begins <;> cases inCall
  · intro pool label after _ _ moved thread stage others known record inCall processes
    rw [step_trace moved]
    apply (known record inCall processes).later
    intro name other
    exact ⟨fun outcome => others _ outcome, fun result outcome => others _ outcome⟩
  · intro pool after thread op outcome _ _ _ act known record inCall processes
    rw [act.trace]
    rcases act.progress.record inCall with ⟨before, same⟩ | ⟨name, rfl, same⟩
    · have processed : (stage deployment pool thread).consumer = some .processor := by
        rcases same with none | same
        · rw [none] at processes
          cases processes
        · exact same ▸ processes
      apply (known record before processed).later
      intro name other
      constructor
      · intro heard same
        cases same
        rw [Stage.entering act.permitted] at before
        cases before
      · intro result heard same
        cases same
        rw [act.own] at processes
        exact Stage.returning act.permitted processes
    · rcases same with none | same
      · rw [none] at processes
        cases processes
      · rw [same] at processes
        obtain rfl := Stage.called_processor processes
        refine ⟨[], pool.trace, outcome, rfl, fun _ _ => ⟨?_, ?_⟩⟩
        · intro _ none
          cases none
        · intro _ _ none
          cases none

/-! ### On the way to a retry -/

/-- What a delivery on its way to a retry has to say of the failure. -/
def Phase.retrying : Phase → Option (Option PyStr)
  | .towards .pending reason => some reason
  | .read .pending reason _ => some reason
  | .moved .pending reason => some reason
  | _ => none

/-- The operation worked on this event and raised this TransientError. -/
def FulfilRaises : (op : Op) → Outcome Exn op.Reply → OrderEvent → PyStr → Prop
  | .fulfil event, outcome, failed, message =>
      event = failed ∧ outcome.reply = .error (.transient message)
  | _, _, _, _ => False

theorem FulfilRaises.label {event : OrderEvent} {message : PyStr} (raises : FulfilRaises op outcome event message)
    (thread : Nat) : ∃ heard, (Label.did thread op outcome : Moment) =
      .did thread (.fulfil event) heard ∧ heard.reply = .error (.transient message) := by
  unfold FulfilRaises at raises
  split at raises
  · obtain ⟨rfl, failed⟩ := raises
    exact ⟨_, rfl, failed⟩
  · exact raises.elim

theorem Phase.Progress.retrying {delivery : Delivery deployment} {token : String}
    {before later : Phase} (moved : Phase.Progress delivery token before op outcome later)
    {reason : Option PyStr} (retries : later.retrying = some reason) :
    before.retrying = some reason ∨ ∃ message, reason = some message ∧
      (delivery.attempt : Int) < deployment.settings.maxAttempts ∧
      FulfilRaises op outcome delivery.event message := by
  cases moved with
  | checks row =>
    unfold checked at retries
    split at retries <;> cases retries
  | fulfils reason outcome =>
    cases failed : outcome.reply with
    | ok done =>
      rw [failed] at retries
      cases retries
    | error error =>
      rw [failed] at retries
      cases error with
      | transient message =>
        simp only [decide] at retries
        split at retries
        · rename_i again
          cases retries
          exact .inr ⟨message, rfl, again, rfl, failed⟩
        · cases retries
      | _ => cases retries
  | writes aim | rereads aim => cases aim <;> exact .inl retries
  | stays => exact .inl retries
  | _ => cases retries

theorem Acts.raised {record : ConsumerRecord} {event : OrderEvent} {message : PyStr}
    (act : Acts deployment pool after thread op outcome)
    (reached : Reachable (system deployment) allows World.empty pool)
    (inCall : (stage deployment pool thread).record = some record)
    (processes : (stage deployment pool thread).consumer = some .processor)
    (raises : FulfilRaises op outcome event message) : Raised after.trace record event message := by
  obtain ⟨heard, label, failed⟩ := raises.label thread
  refine ⟨thread, [], pool.trace, heard, ?_, failed, entered reached thread record inCall processes⟩
  rw [act.trace, label]
  rfl

/-- A retry is scheduled below the last attempt, for what `fulfil` raised. -/
theorem retry_raised (reached : Reachable (system deployment) allows World.empty pool)
    (thread : Nat) (delivery : Delivery deployment) (token : String) (phase : Phase)
    (reason : Option PyStr) (standing : stage deployment pool thread = .holding delivery token phase)
    (retries : phase.retrying = some reason) :
    ∃ message, reason = some message ∧ (delivery.attempt : Int) < deployment.settings.maxAttempts ∧
      Raised pool.trace delivery.record delivery.event message := by
  refine each_stage (P := fun pool _ stage => ∀ delivery token phase reason,
    stage = .holding delivery token phase → phase.retrying = some reason →
      ∃ message, reason = some message ∧
        (delivery.attempt : Int) < deployment.settings.maxAttempts ∧
        Raised pool.trace delivery.record delivery.event message)
    ?_ ?_ ?_ reached thread delivery token phase reason standing retries
  · intro pool thread stage begins delivery token phase reason standing
    exact (begins_holding begins standing).elim
  · intro pool label after _ _ moved thread stage _ known delivery token phase reason standing retries
    obtain ⟨message, same, below, raised⟩ := known delivery token phase reason standing retries
    rw [step_trace moved]
    exact ⟨message, same, below, raised.later label⟩
  · intro pool after thread op outcome reached _ step act known delivery token phase reason standing
      retries
    rcases act.progress.holding standing with ⟨first, before, moved⟩ | ⟨rfl, _⟩
    · rcases moved.retrying retries with earlier | ⟨message, same, below, raises⟩
      · obtain ⟨message, same, below, raised⟩ := known delivery token first reason before earlier
        rw [step_trace step]
        exact ⟨message, same, below, raised.later _⟩
      · refine ⟨message, same, below, act.raised reached ?_ ?_ raises⟩
        · rw [before]
          rfl
        · rw [before]
          rfl
    · cases retries

end OrderFlow
