import OrderFlow.Runs.Apart

/-!
What a run shows of one event: the calls of `fulfil` for it, and the records that
calls of `handle` on its records put out.
-/
namespace OrderFlow
open AsyncCoroutine AsyncPool

variable {deployment : Deployment} {pool after : Pipeline} {thread : Nat} {op : Op}
  {outcome : Outcome Exn op.Reply} {event : OrderEvent} {record : ConsumerRecord}

/-- The record's value is an event of this id. -/
def names (platform : Platform) (event : OrderEvent) (record : ConsumerRecord) : Bool :=
  match platform.modelValidate record.value with
  | .ok read => read.eventId = event.eventId
  | .error _ => false

/-- A call of `fulfil` for the event: the attempt of the record in hand, and how it ended. -/
def tried (deployment : Deployment) (event : OrderEvent) :
    Pipeline × Moment → Option (Nat × Except Exn Unit)
  | (pool, .did thread (.fulfil called) outcome) =>
      if called.eventId = event.eventId then
        some (((stage deployment pool thread).record.map fun record =>
          record.headers.getAttempt).getD 0, outcome.reply)
      else none
  | _ => none

/-- The topic of a record that a call of `handle` on one of the event put out. -/
def put (deployment : Deployment) (event : OrderEvent) : Pipeline × Moment → Option String
  | (_, .did _ (.send _ _ _ _) (.lost _)) => none
  | (pool, .did thread (.send topic _ _ _) _) =>
      ((stage deployment pool thread).record.filter (names deployment.platform event)).map
        fun _ => topic
  | _ => none

theorem names_ours (ours : Ours deployment event record) :
    names deployment.platform event record = true := by
  unfold names
  rw [ours.value, deployment.platform.modelValidate_dump]
  simp

theorem named_read (named : names deployment.platform event record = true) :
    ∃ read, deployment.platform.modelValidate record.value = .ok read ∧
      read.eventId = event.eventId := by
  unfold names at named
  split at named
  · rename_i read valid
    exact ⟨read, valid, by simpa using named⟩
  · cases named

/-- A call that puts out a record is one of a consumer of events. -/
theorem Publishes.consumes {topic : String} {key : Option String} {value : Json}
    {headers : Headers} {before : Stage deployment}
    (publishes : Publishes deployment before topic key value headers)
    (inCall : before.record = some record)
    (named : names deployment.platform event record = true) :
    ∃ consumer, before.consumer = some consumer ∧ consumer ≠ .dlq := by
  cases publishes with
  | submission => cases inCall
  | rejection handled text letter invalid =>
    cases inCall
    obtain ⟨read, valid, _⟩ := named_read named
    rw [valid] at invalid
    cases invalid
  | deadLetter | retry => exact ⟨.processor, rfl, by rintro ⟨⟩⟩
  | relay => exact ⟨.retry, rfl, by rintro ⟨⟩⟩

/-- `fulfil` is called by a delivery that has set its order to work, on its event. -/
theorem fulfilling {before : Stage deployment} {called : OrderEvent}
    (permitted : before.allowed deployment (.fulfil called)) :
    ∃ delivery token reason, before = .holding delivery token (.moved .processing reason) ∧
      called = delivery.event := by
  cases before with
  | holding delivery token phase =>
    cases phase with
    | moved aim reason =>
      cases aim with
      | processing => exact ⟨delivery, token, reason, rfl, permitted⟩
      | _ => exact permitted.elim
    | towards aim reason | sent aim => cases aim <;> exact permitted.elim
    | _ => exact permitted.elim
  | submitting submission => cases submission <;> exact permitted.elim
  | _ => exact permitted.elim

/-- Only the calls on the event's records are seen. -/
theorem Apart.silent {allows : Pipeline → Moment → Prop} (apart : Apart deployment event pool)
    (ran : Reachable (system deployment) allows World.empty pool)
    (act : Acts deployment pool after thread op outcome)
    (foreign : ∀ record, (stage deployment pool thread).record = some record →
      ¬ Ours deployment event record) :
    tried deployment event (pool, .did thread op outcome) = none ∧
      put deployment event (pool, .did thread op outcome) = none := by
  have permitted := act.permitted
  cases op with
  | fulfil called =>
    refine ⟨?_, rfl⟩
    simp only [tried, ite_eq_right_iff]
    intro named
    exfalso
    obtain ⟨delivery, token, reason, standing, rfl⟩ := fulfilling permitted
    rw [standing] at foreign
    exact foreign _ rfl (apart.delivery ran (by rw [standing]; rfl) (by rw [standing]; rfl)
      (.inl named))
  | send topic key value headers =>
    refine ⟨rfl, ?_⟩
    have unnamed : (stage deployment pool thread).record.filter
        (names deployment.platform event) = none := by
      rw [Option.filter_eq_none_iff]
      intro handled inCall named
      obtain ⟨consumer, consumes, through⟩ :=
        (publishes_of_permitted permitted).consumes inCall named
      rcases apart.in_call ran inCall consumes through with ours | unrelated
      · exact foreign handled inCall ours
      · obtain ⟨read, valid, same⟩ := named_read named
        exact (unrelated.other read valid).1 same
    cases outcome with
    | lost error => rfl
    | _ =>
      simp only [put]
      rw [unnamed]
      rfl
  | _ => exact ⟨rfl, rfl⟩

/-- A call on the event's record is seen to put out what it sends. -/
theorem put_ours {topic : String} {key : Option String} {value : Json} {headers : Headers}
    (inCall : (stage deployment pool thread).record = some record)
    (ours : Ours deployment event record) :
    put deployment event (pool, .did thread (.send topic key value headers) (.ok ())) =
      some topic := by
  simp only [put]
  rw [inCall, Option.filter_some, if_pos (names_ours ours)]
  rfl

/-- A result that is seen is one `fulfil` may have for the event. -/
theorem Apart.tried_may {allows : Pipeline → Moment → Prop} {label : Moment} {attempt : Nat}
    {result : Except Exn Unit} (apart : Apart deployment event pool)
    (ran : Reachable (system deployment) allows World.empty pool)
    (moved : Step (system deployment) pool label after)
    (shown : tried deployment event (pool, label) = some (attempt, result)) :
    deployment.mayFulfil event result = true := by
  rcases step_cases ran moved with ⟨actor, op, outcome, rfl, act⟩ | ⟨actor, turn⟩ | ⟨_, rfl, _⟩
  · cases op with
    | fulfil called =>
      obtain ⟨delivery, token, reason, standing, rfl⟩ := fulfilling act.permitted
      simp only [tried, Option.ite_none_right_eq_some, Option.some.injEq, Prod.mk.injEq] at shown
      obtain ⟨named, _, rfl⟩ := shown
      have ours := apart.delivery ran (by rw [standing]; rfl) (by rw [standing]; rfl) (.inl named)
      have same : delivery.event = event := by
        apply delivery_event_eq _ rfl
        rw [ours.value]
        exact deployment.platform.modelValidate_dump event
      obtain ⟨fate, performed⟩ := act.performed
      obtain ⟨oracle, reply, answers, heard⟩ := perform_local performed rfl
      simp only [answer, Option.ite_none_right_eq_some, Option.some.injEq, Prod.mk.injEq] at answers
      obtain ⟨may, rfl, _⟩ := answers
      rw [same] at may
      rw [heard]
      cases result : oracle.result <;> rw [result] at may <;> exact may
    | _ => cases shown
  · cases label with
    | did other op outcome => exact (turn.not_did other op outcome rfl).elim
    | _ => cases shown
  · cases shown

/-- Quiet operations show nothing. -/
theorem unseen (calm : (∀ called, op ≠ .fulfil called) ∧
    ∀ topic key value headers, op ≠ .send topic key value headers) :
    tried deployment event (pool, .did thread op outcome) = none ∧
      put deployment event (pool, .did thread op outcome) = none := by
  cases op with
  | fulfil called => exact (calm.1 called rfl).elim
  | send topic key value headers => exact (calm.2 topic key value headers rfl).elim
  | _ => exact ⟨rfl, rfl⟩

end OrderFlow
