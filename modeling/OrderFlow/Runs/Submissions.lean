import OrderFlow.Runs.Publication

/-!
What becomes of a submission. A call that inserted a row is on its way to
publishing it, has published it, raised, or crashed.
-/
namespace OrderFlow
open AsyncCoroutine AsyncPool

variable {deployment : Deployment} {allows : Pipeline → Moment → Prop} {pool after : Pipeline}
  {thread : Nat} {op : Op} {outcome : Outcome Exn op.Reply}

namespace Submission

/-- The submission stored this order, or raised. -/
def Holds (submission : Submission) (id : Uuid) : Prop :=
  submission.stored = some id ∨ submission = .broken

theorem Progress.holds {before later : Submission}
    (moved : before.Progress deployment op outcome later) {id : Uuid} (holds : before.Holds id) :
    later.Holds id := by
  rcases holds with stored | rfl
  · cases moved with
    | reserves | names | stamps | publishes | finishes => exact .inl stored
    | breaks => exact .inr rfl
    | _ => cases stored
  · cases moved with
    | breaks _ unfinished => cases unfinished

end Submission

/-- Only a submission commits the insert of an order. -/
theorem commits_insert {stage : Stage deployment} {payload : OrderCreate} {id : Uuid} {hop : Nat}
    (permitted : stage.allowed deployment
      (.commit (Repository.createWrites (Repository.newRow payload id) hop))) :
    ∃ payload key, stage = .submitting (.drawn payload key id) := by
  cases stage with
  | submitting submission =>
    cases submission with
    | drawn other key drawn =>
      obtain ⟨hop', same⟩ := permitted
      simp only [Repository.createWrites, Repository.newRow, List.cons.injEq, Write.insertOrder.injEq,
        OrderRow.mk.injEq] at same
      obtain rfl := same.1.1
      exact ⟨other, key, rfl⟩
    | _ => exact permitted.elim
  | holding delivery token phase =>
    cases phase with
    | read aim reason row =>
      obtain ⟨note, hop', same⟩ := permitted
      cases same
    | absent | closed => cases permitted
    | moved aim reason | towards aim reason | sent aim => cases aim <;> exact permitted.elim
    | _ => exact permitted.elim
  | archiving record => cases permitted
  | _ => exact permitted.elim

/-- A thread that inserted a row is past its insert, unless it crashed. -/
theorem submission_fate (reached : Reachable (system deployment) allows World.empty pool) :
    ∀ thread id, Inserted pool.trace thread id → Label.crash thread ∈ pool.trace ∨
      ∃ submission, stage deployment pool thread = .submitting submission ∧ submission.Holds id := by
  induction reached with
  | init => rintro thread id ⟨_, _, _, ⟨⟩, _⟩
  | @step pool label after reached permitted moved ih =>
    intro thread id inserted
    have trace := step_trace moved
    have earlier : Inserted pool.trace thread id → Label.crash thread ∈ after.trace ∨
        ∃ submission, stage deployment after thread = .submitting submission ∧
          submission.Holds id := by
      intro before
      have started : ¬ pool.Unused thread := by
        obtain ⟨_, _, _, member, _⟩ := before
        exact started_of_did reached member
      rcases ih thread id before with crashed | ⟨submission, standing, holds⟩
      · exact .inl (by rw [trace]; exact List.mem_cons_of_mem _ crashed)
      · rcases step_cases reached moved with ⟨actor, op, outcome, _, act⟩ | ⟨actor, turn⟩ |
          ⟨event, _, happening⟩
        · by_cases same : thread = actor
          · subst same
            have own := act.own
            have permits := act.permitted
            rw [standing] at own permits
            exact .inr ⟨_, own, (Submission.progress permits).holds holds⟩
          · exact .inr ⟨submission, by rw [act.others thread same, standing], holds⟩
        · by_cases same : thread = actor
          · subst same
            rcases turn.own with ⟨_, _, unused, _⟩ | ⟨_, _, outside, _⟩ | ⟨crash, _⟩
            · exact (started unused).elim
            · rw [standing] at outside
              cases outside
            · exact .inl (by rw [trace, crash]; exact List.mem_cons_self ..)
          · exact .inr ⟨submission, by rw [turn.others thread same, standing], holds⟩
        · exact .inr ⟨submission, by rw [happening.stages thread, standing], holds⟩
    obtain ⟨payload, hop, heard, member, took⟩ := inserted
    rw [trace] at member
    rcases List.mem_cons.mp member with same | before
    · rcases step_cases reached moved with ⟨actor, op, outcome, rfl, act⟩ | ⟨actor, turn⟩ |
        ⟨event, rfl, happening⟩
      · cases same
        have own := act.own
        obtain ⟨other, key, standing⟩ := commits_insert act.permitted
        rw [standing] at own
        rcases took with rfl | ⟨error, rfl⟩
        · cases key with
          | none => exact .inr ⟨_, own, .inl rfl⟩
          | some key => exact .inr ⟨_, own, .inl rfl⟩
        · cases key with
          | none => exact .inr ⟨_, own, .inr rfl⟩
          | some key => exact .inr ⟨_, own, .inr rfl⟩
      · exact (turn.not_did _ _ _ same.symm).elim
      · cases same
    · exact earlier ⟨payload, hop, heard, before, took⟩

/-- A thread that crashed is not submitting any more. -/
theorem crashed_outside (reached : Reachable (system deployment) allows World.empty pool) :
    ∀ thread, Label.crash thread ∈ pool.trace → ¬ pool.Unused thread ∧
      ∀ submission, stage deployment pool thread ≠ .submitting submission := by
  induction reached with
  | init => rintro thread ⟨⟩
  | @step pool label after reached permitted moved ih =>
    intro thread crashed
    have trace := step_trace moved
    have used : ¬ pool.Unused thread → ¬ after.Unused thread := by
      intro started unused
      refine started fun past member => unused past ?_
      rw [trace]
      exact List.mem_cons_of_mem _ member
    rw [trace] at crashed
    rcases List.mem_cons.mp crashed with rfl | before
    · cases moved with
      | crash thread running =>
        obtain ⟨_, held, _⟩ := running
        refine ⟨used (started_of_held reached thread _ held), fun submission standing => ?_⟩
        simp [stage, Monitor.record, Stage.monitor] at standing
    · obtain ⟨started, outside⟩ := ih thread before
      refine ⟨used started, fun submission standing => ?_⟩
      rcases step_cases reached moved with ⟨actor, op, outcome, _, act⟩ | ⟨actor, turn⟩ |
        ⟨event, _, happening⟩
      · by_cases same : thread = actor
        · subst same
          obtain ⟨first, stood, _⟩ := act.progress.submission standing
          exact outside first stood
        · rw [act.others thread same] at standing
          exact outside submission standing
      · by_cases same : thread = actor
        · subst same
          rcases turn.own with ⟨_, _, unused, _⟩ | ⟨_, _, _, own⟩ | ⟨_, own⟩
          · exact started unused
          · rw [own] at standing
            cases standing
          · rw [own] at standing
            cases standing
        · rw [turn.others thread same] at standing
          exact outside submission standing
      · rw [happening.stages thread] at standing
        exact outside submission standing

/-- A submission that came to its end has published its event. -/
theorem published_stage (reached : Reachable (system deployment) allows World.empty pool)
    (thread : Nat) (payload : OrderCreate) (key : Option String) (id eventId : Uuid)
    (instant : String)
    (same : stage deployment pool thread =
      .submitting (.published payload key id eventId instant)) :
    PublishedBy deployment pool.trace thread (submittedEvent payload id eventId instant) := by
  refine each_stage (P := fun pool thread stage => ∀ payload key id eventId instant,
    stage = .submitting (.published payload key id eventId instant) →
      PublishedBy deployment pool.trace thread (submittedEvent payload id eventId instant))
    ?_ ?_ ?_ reached thread payload key id eventId instant same
  · rintro pool thread stage (_ | _ | _ | _) payload key id eventId instant ⟨⟩
  · intro pool label after _ _ moved thread stage _ known payload key id eventId instant same
    exact (known payload key id eventId instant same).kept moved
  · intro pool after thread op outcome _ _ _ act known payload key id eventId instant same
    obtain ⟨first, before, moved⟩ := act.progress.submission same
    have trace := act.trace
    generalize reached : Submission.published payload key id eventId instant = last at moved
    cases moved with
    | publishes =>
      cases reached
      rw [trace]
      exact ⟨pool.trace, _, _, _, payload, key, id, eventId, instant, List.suffix_rfl, .inl rfl,
        before, rfl⟩
    | finishes =>
      cases reached
      rw [trace]
      exact (known payload key id eventId instant before).later _
    | inserts _ given => cases given <;> cases reached
    | _ => cases reached

/-- `orders.created` contains a record of this order's event. -/
def OrderPublished (deployment : Deployment) (pool : Pipeline) (id : Uuid) : Prop :=
  ∃ event partition, event.orderId = id ∧
    ∃ entry ∈ pool.world.logs ⟨deployment.settings.topicOrders, partition⟩,
      Carries deployment.platform entry event

theorem OrderPublished.stays {label : Moment} {id : Uuid}
    (published : OrderPublished deployment pool id)
    (moved : Step (system deployment) pool label after) : OrderPublished deployment after id := by
  obtain ⟨event, partition, same, entry, member, carries⟩ := published
  exact ⟨event, partition, same, entry, (step_logs moved _).subset member, carries⟩

/-- What a submission published is on the log. -/
theorem published_logged (reached : Reachable (system deployment) allows World.empty pool) :
    ∀ thread event, PublishedBy deployment pool.trace thread event →
      OrderPublished deployment pool event.orderId := by
  induction reached with
  | init =>
    rintro thread event ⟨past, _, _, _, _, _, _, _, _, inside, _⟩
    cases List.suffix_nil.mp inside
  | @step pool label after reached permitted moved ih =>
    rintro thread event ⟨past, published⟩
    rw [step_trace moved] at published
    rcases published.split with earlier | ⟨_, key, headers, outcome, _, _, _, _, _, rfl, took, _, _⟩
    · exact (ih thread event ⟨past, earlier⟩).stays moved
    · rcases step_cases reached moved with ⟨actor, op, heard, same, act⟩ | ⟨actor, turn⟩ |
        ⟨event, same, _⟩
      · cases same
        obtain ⟨fate, performed⟩ := act.performed
        rcases perform_send performed with ⟨error, rfl, _⟩ | ⟨_, partition, _, world⟩
        · rcases took with same | ⟨_, same⟩ <;> cases same
        · refine ⟨event, partition, rfl, ⟨wireRecord deployment.platform key
            (deployment.platform.modelDump event) headers, pool.world.appends⟩, ?_, rfl⟩
          rw [world]
          simp [World.append]
      · exact (turn.not_did _ _ _ rfl).elim
      · cases same

/-- The row a call returns as a duplicate is one that some call inserted. -/
theorem found_known (reached : Reachable (system deployment) allows World.empty pool)
    (thread : Nat) (row : OrderRow)
    (same : stage deployment pool thread = .submitting (.found row)) : Known pool row.id := by
  refine each_stage (P := fun pool _ stage => ∀ row, stage = .submitting (.found row) →
    Known pool row.id) ?_ ?_ ?_ reached thread row same
  · rintro pool thread stage (_ | _ | _ | _) row ⟨⟩
  · intro pool label after reached _ moved thread stage _ known row same
    exact known_stays reached moved (known row same)
  · intro pool after thread op outcome reached _ _ act known row same
    obtain ⟨first, before, moved⟩ := act.progress.submission same
    generalize reach : Submission.found row = last at moved
    cases moved with
    | finds payload key id =>
      cases reach
      have selected : Selects (.selectOrder id) (.ok (some row)) id (some row) := ⟨rfl, rfl⟩
      obtain ⟨stood, world⟩ := act.selects selected
      have named := row_named reached id row stood
      exact ⟨row, by rw [world, named, stood]⟩
    | reads =>
      cases reach
      exact (orders_change act).known (known row before)
    | inserts _ key => cases key <;> cases reach
    | _ => cases reach

/-- A call stands where its result says it left off. -/
theorem left_submitted (reached : Reachable (system deployment) allows World.empty pool)
    {call : Call} {result : Except Exn Result} {program : Prog Result}
    (held : pool.threads thread = some ⟨call, program⟩)
    (ended : program = (match result with | .ok value => .ret value | .error error => .raise error)) :
    Stage.goal call result (stage deployment pool thread) := by
  have left := Monitor.follows_of_reachable (Stage.keeps deployment) reached thread _ held
  subst ended
  cases result with
  | ok value => exact left
  | error error => exact left

end OrderFlow
