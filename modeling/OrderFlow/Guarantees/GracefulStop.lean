import OrderFlow.Async.Bounds
import OrderFlow.Guarantees.FulfilAlone
import OrderFlow.Kafka.Passes

/-!
What `stop()` does to a running worker: it finishes what it has taken on, takes on
nothing more, and its loop ends.
-/
namespace OrderFlow
open AsyncCoroutine AsyncPool

variable {deployment : Deployment} {allows : Pipeline → Moment → Prop} {pool after start : Pipeline}
  {thread : Nat} {label : Moment} {past : List (Pipeline × Moment)}

/-- What a worker has of its last look at the stop flag. -/
structure Clearance where
  /-- the flag was clear, and nothing has been taken on since -/
  cleared : Bool
  /-- the flag was clear in this pass of the loop -/
  goesOn : Bool

namespace Clearance

def allowed : Clearance → Op → Prop
  | clearance, .handleCall _ _ => clearance.cleared = true
  | clearance, .getmany _ => clearance.cleared = true
  | _, _ => True

def next : Clearance → (op : Op) → Outcome Exn op.Reply → Clearance
  | _, .stopping, .ok false => ⟨true, true⟩
  | clearance, .handleCall _ _, _ => { clearance with cleared := false }
  | clearance, .getmany _, _ => { clearance with cleared := false }
  | clearance, _, _ => clearance

def monitor : Monitor Op Op.Reply Exn Call Clearance where
  allowed := allowed
  next := next
  idle := ⟨false, false⟩
  born _ := ⟨false, false⟩

/-- Polling and entering `handle` are paid for by looks at the clear flag. -/
def budget : Budget Op Op.Reply Exn Clearance where
  worth clearance := clearance.cleared.toNat
  earns
    | .stopping, .ok false => 1
    | _, _ => 0
  spends
    | .handleCall _ _, _ => 1
    | .getmany _, _ => 1
    | _, _ => 0

theorem budget_balances : budget.Balances monitor where
  idle := rfl
  born _ := rfl
  pays clearance op outcome permitted := by
    cases op with
    | stopping =>
      rcases outcome with (_ | _) | _ | _ <;> simp [budget, monitor, next]
    | handleCall | getmany =>
      have cleared : clearance.cleared = true := permitted
      simp [budget, monitor, next, cleared]
    | _ => simp [budget, monitor, next]

theorem keeps_inner {I : Clearance → Prop} (lasting : ∀ clearance, I clearance → I ⟨true, true⟩)
    (op : Op) (inner : Inner op) : monitor.Keeps I op := by
  intro clearance holds
  cases op with
  | handleCall | getmany => cases inner
  | stopping =>
    refine ⟨trivial, fun outcome => ?_⟩
    rcases outcome with (_ | _) | _ | _
    · exact lasting clearance holds
    all_goals exact holds
  | _ => exact ⟨trivial, fun _ => holds⟩

theorem keeps_going (op : Op) (inner : Inner op) : monitor.Keeps (·.goesOn = true) op :=
  keeps_inner (I := (·.goesOn = true)) (fun _ _ => rfl) op inner

theorem keeps_between (op : Op) (between : op.between = true) :
    monitor.Keeps (·.goesOn = true) op := by
  cases op with
  | stopping => exact keeps_going .stopping rfl
  | seek | commitOffset => exact fun _ holds => ⟨trivial, fun _ => holds⟩
  | _ => cases between

theorem safeHandle_keeps {name : String} {handle : ConsumerRecord → Prog Ack}
    (inner : ∀ record, (handle record).Uses Inner) (record : ConsumerRecord) :
    monitor.Follows (BaseConsumer.safeHandle name handle record) (fun _ left => left.goesOn = true)
      ⟨true, true⟩ := by
  have returns : ∀ result, monitor.Keeps (·.goesOn = true) (.handleReturn name record result) :=
    fun _ _ holds => ⟨trivial, fun _ => holds⟩
  refine .tryCatch (Q := fun _ left => left.goesOn = true) (.perform_bind rfl (fun _ => ?_)
    (fun _ => rfl) fun _ => rfl) (fun _ _ kept => kept) fun error left kept => ?_
  · have body : monitor.Maintains (·.goesOn = true) (do
        let ack ← handle record
        await (.handleReturn name record (some ack))
        return ack) :=
      (Protocol.maintains_of_uses (inner record) keeps_going).bind fun ack =>
        (returns _).maintains.bind fun _ => Protocol.maintains_ret ack
    exact body _ rfl
  · have handler : monitor.Maintains (·.goesOn = true) (do
        await (.handleReturn name record none)
        await (.sleep 1)
        return Ack.redeliver) :=
      (returns none).maintains.bind fun _ =>
        (keeps_going (.sleep 1) rfl).maintains.bind fun _ =>
          Protocol.maintains_ret _
    exact handler left kept

/-- A pass that asks for another has found the flag clear. -/
theorem run_keeps (consumer : Consumer) :
    monitor.Follows (consumer.run deployment)
      (fun result left => result = .ok true → left.goesOn = true) ⟨false, false⟩ := by
  have stops : ∀ left : Clearance, ∀ program : Prog Bool,
      (∀ left, monitor.Follows program (fun result left => result = .ok true → left.goesOn = true)
        left) →
      monitor.Follows (await .stopConsumer >>= fun _ => program)
        (fun result left => result = .ok true → left.goesOn = true) left :=
    fun left program rest => .perform_bind trivial (fun _ => rest _) (by rintro _ ⟨⟩) (by rintro _ ⟨⟩)
  refine .tryCatch (Q := fun result left => result = .ok true → left.goesOn = true) ?_
    (fun _ _ kept => kept) fun error left _ => stops left _ fun _ => by rintro ⟨⟩
  refine .bind (Q := fun result left => result = .ok true → left.goesOn = true) ?_
    (fun goesOn left kept => ?_) (by rintro _ _ _ ⟨⟩)
  · refine .perform_bind trivial (fun ended => ?_) (by rintro _ ⟨⟩) (by rintro _ ⟨⟩)
    cases ended with
    | true => rintro ⟨⟩
    | false =>
      refine .perform_bind rfl (fun batch => ?_) (fun _ _ => rfl) fun _ _ => rfl
      refine (drainBatch_maintains keeps_between (fun record clearance _ => ?_) batch _ rfl).mono
        fun _ _ kept _ => kept
      exact safeHandle_keeps (handle_inner deployment consumer) record
  · cases goesOn with
    | true => exact fun _ => kept rfl
    | false => exact stops left _ fun _ => by rintro ⟨⟩

def goal : Call → Except Exn Result → Clearance → Prop
  | .worker _, result, left => result = .ok (.pass true) → left.goesOn = true
  | _, _, _ => True

theorem keeps (deployment : Deployment) (call : Call) :
    monitor.Follows (program deployment call) (goal call) (monitor.born call) := by
  have inner : ∀ {program : Prog Result}, program.Uses Inner →
      monitor.Follows program (fun _ _ => True) ⟨false, false⟩ := fun uses =>
    Protocol.maintains_of_uses uses (keeps_inner fun _ _ => trivial) _ trivial
  cases call with
  | worker consumer =>
    refine (run_keeps consumer).bind (fun goesOn left kept => ?_) (by rintro _ _ _ ⟨⟩)
    rintro ⟨⟩
    exact kept rfl
  | submitOrder payload key => exact inner (.bind (submitOrder_inner ..) fun _ => trivial)
  | readOrder orderId => exact inner (.bind (readOrder_inner ..) fun _ => trivial)

end Clearance

/-! ### The flag -/

theorem answer_stopped {op : Op} {value : op.Reply} {world next : World} {oracle : Oracle}
    (answered : answer deployment thread op world oracle = some (.ok value, next)) :
    next.stopped = world.stopped := by
  cases op with
  | getmany topic => rw [fetch_world (answer_getmany answered)]
  | commit writes =>
    cases answered
    rw [write_world]
  | _ =>
    simp only [answer] at answered
    grind [World.setRedis, World.append, World.setPosition]

/-- A worker that was told to stop stays told. -/
theorem stopped_stays (moved : Step (system deployment) pool label after)
    (stopped : pool.world.stopped thread = true) : after.world.stopped thread = true := by
  cases moved with
  | did actor call op resume fate outcome world awaiting performed =>
    have same := perform_frame World.stopped performed fun _ _ answered => answer_stopped answered
    rw [same]
    exact stopped
  | event event world happened =>
    cases event with
    | stop other =>
      cases happened
      by_cases same : thread = other <;> simp [same, stopped]
    | expire key =>
      simp only [system, happen, Option.ite_none_right_eq_some] at happened
      obtain ⟨_, same⟩ := happened
      cases same
      exact stopped
    | _ => cases happened; exact stopped
  | _ => exact stopped

/-- A worker that looks at the flag finds it as it is. -/
theorem stopping_reads {outcome : Outcome Exn Bool}
    (moved : Step (system deployment) pool (.did thread .stopping outcome) after) :
    outcome = .ok (pool.world.stopped thread) := by
  cases moved with
  | did _ call _ resume fate _ world awaiting performed =>
    have asked : perform deployment thread .stopping pool.world fate = some (outcome, world) := performed
    obtain ⟨oracle, reply, answered, heard⟩ := perform_local asked rfl
    cases answered
    exact heard

/-- What the thread has of its last look at the flag. -/
def clearance (pool : Pipeline) (thread : Nat) : Clearance :=
  Clearance.monitor.record pool.trace thread

/-- The next step finds the flag of a stopped worker set. -/
theorem stopped_blocked {op : Op} {outcome : Outcome Exn op.Reply}
    (moved : Step (system deployment) pool (.did thread op outcome) after)
    (stopped : pool.world.stopped thread = true) :
    Clearance.budget.earns op outcome = 0 ∧ ∀ clearance : Clearance,
      (Clearance.monitor.next clearance op outcome).goesOn = clearance.goesOn := by
  cases op with
  | stopping =>
    have read := stopping_reads moved
    rw [stopped] at read
    subst read
    exact ⟨rfl, fun _ => rfl⟩
  | _ => exact ⟨rfl, fun _ => rfl⟩

theorem path_stopped (path : Path (system deployment) allows start past pool)
    (stopped : start.world.stopped thread = true) : pool.world.stopped thread = true := by
  induction path with
  | here => exact stopped
  | step walked permitted moved ih => exact stopped_stays moved ih

theorem earns_nothing (path : Path (system deployment) allows start past pool)
    (stopped : start.world.stopped thread = true) :
    amount Clearance.budget.earns thread (past.map Prod.snd) = 0 := by
  induction path with
  | here => rfl
  | @step past pool label after walked permitted moved ih =>
    cases label with
    | did actor op outcome =>
      simp only [List.map_cons, amount, ih, Nat.add_zero, ite_eq_right_iff]
      rintro rfl
      exact (stopped_blocked moved (path_stopped walked stopped)).1
    | _ => exact ih

/-- No handler looks at the flag. -/
theorem stopping_outside {before : Stage deployment} (permitted : before.allowed deployment .stopping) :
    before.record = none := by
  cases before with
  | outside => rfl
  | submitting submission => rfl
  | holding delivery token phase =>
    cases phase with
    | moved aim reason | sent aim | towards aim reason => cases aim <;> exact permitted.elim
    | _ => exact permitted.elim
  | _ => exact permitted.elim

/-- Inside a call of `handle` a worker has not looked at the flag. -/
theorem handling_uncleared (reached : Reachable (system deployment) allows World.empty pool)
    (thread : Nat) : ∀ record, (stage deployment pool thread).record = some record →
      (clearance pool thread).cleared = false := by
  refine Monitor.each_record Clearance.monitor (P := fun pool thread (clearance : Clearance) =>
    ∀ record, (stage deployment pool thread).record = some record → clearance.cleared = false)
    (Clearance.keeps deployment) (fun _ _ _ _ => rfl) (fun _ _ _ _ _ => rfl) ?_ ?_ reached thread
  · intro pool label after ran permitted moved other clearance elsewhere known record inCall
    rcases step_cases ran moved with ⟨actor, op, outcome, rfl, act⟩ | ⟨actor, turn⟩ |
      ⟨event, rfl, happening⟩
    · have differ : other ≠ actor := by
        rintro rfl
        exact elsewhere op outcome rfl
      exact known record (act.others other differ ▸ inCall)
    · by_cases same : other = actor
      · subst same
        have begins := turn.begins
        generalize stage deployment after other = begun at begins inCall
        cases begins <;> cases inCall
      · exact known record (turn.others other same ▸ inCall)
    · exact known record (happening.stages other ▸ inCall)
  · intro pool after actor op outcome ran permitted moved _ known record inCall
    rcases step_cases ran moved with ⟨_, _, _, same, act⟩ | ⟨_, turn⟩ | ⟨_, same, _⟩
    · cases same
      rcases act.progress.record inCall with ⟨within, _⟩ | ⟨name, rfl, _⟩
      · have before := known record within
        cases op with
        | stopping =>
          rw [stopping_outside act.permitted] at within
          cases within
        | handleCall | getmany => rfl
        | _ => exact before
      · rfl
    · exact (turn.not_did _ _ _ rfl).elim
    · cases same

/-- The thread polls for records, or enters `handle` with one. -/
def takesOn (thread : Nat) : Moment → Bool
  | .did actor (.handleCall _ _) _ => actor = thread
  | .did actor (.getmany _) _ => actor = thread
  | _ => false

theorem amount_takesOn (labels : List Moment) :
    amount Clearance.budget.spends thread labels = labels.countP (takesOn thread) := by
  induction labels with
  | nil => rfl
  | cons label labels ih =>
    cases label with
    | did actor op outcome =>
      rw [amount, ih, List.countP_cons, Nat.add_comm]
      cases op <;> simp [takesOn, Clearance.budget]
    | _ => simp [amount, ih, takesOn]

/-- A worker that was told to stop takes on at most one thing more, the one it has just
    cleared; told inside a call of `handle`, nothing after that call. -/
theorem stop_drains (reached : Reachable (system deployment) allows World.empty start)
    (stopped : start.world.stopped thread = true)
    (path : Path (system deployment) allows start past pool) :
    past.countP (fun step => takesOn thread step.2) ≤ 1 ∧
      ((stage deployment start thread).record.isSome →
        past.countP (fun step => takesOn thread step.2) = 0) := by
  have counted : past.countP (fun step => takesOn thread step.2) =
      (past.map Prod.snd).countP (takesOn thread) := by
    rw [List.countP_map]
    rfl
  have paid := Clearance.budget_balances.solvent (Clearance.keeps deployment)
    (path.reachable reached) thread path.trace
  rw [earns_nothing path stopped, amount_takesOn, ← counted] at paid
  have worth : Clearance.budget.worth (Clearance.monitor.record start.trace thread) ≤ 1 :=
    Bool.toNat_le _
  refine ⟨by omega, fun inCall => ?_⟩
  obtain ⟨record, handled⟩ := Option.isSome_iff_exists.mp inCall
  have nothing : Clearance.budget.worth (Clearance.monitor.record start.trace thread) = 0 :=
    congrArg Bool.toNat (handling_uncleared reached thread record handled)
  omega

theorem again_goesOn {call : Call} (reached : Reachable (system deployment) allows World.empty pool)
    (moved : Step (system deployment) pool (.again thread call) after) :
    (clearance pool thread).goesOn = true := by
  cases moved with
  | again _ before _ result ended loops =>
    have left := Monitor.follows_of_reachable (Clearance.keeps deployment) reached thread _ ended
    simp only [system, OrderFlow.again] at loops
    split at loops
    · exact left rfl
    · cases loops

/-- In a run without end a worker that was told to stop moves finitely often. -/
theorem stopped_worker_ends {pools : Nat → Pipeline} {labels : Nat → Moment}
    (reached : Reachable (system deployment) allows World.empty (pools 0))
    (stopped : (pools 0).world.stopped thread = true)
    (endless : Endless (system deployment) allows pools labels) :
    ∃ last, ∀ n, last ≤ n → ¬ (labels n).By thread := by
  have told : ∀ n, Reachable (system deployment) allows World.empty (pools n) ∧
      (pools n).world.stopped thread = true := by
    intro n
    induction n with
    | zero => exact ⟨reached, stopped⟩
    | succ n ih => exact ⟨.step ih.1 (endless n).1 (endless n).2, stopped_stays (endless n).2 ih.2⟩
  refine rests_finally Clearance.monitor (fun clearance => clearance.goesOn.toNat) endless reached
    (fun n op outcome same => ?_) fun n call same => ?_
  · have moved := (endless n).2
    rw [same] at moved
    rw [(stopped_blocked moved (told n).2).2]
  · have moved := (endless n).2
    rw [same] at moved
    have goesOn := again_goesOn (told n).1 moved
    rw [clearance] at goesOn
    rw [goesOn]
    exact Nat.zero_lt_one

namespace Sample

/-- The worker has entered `handle` when it is told to stop. -/
def toldToStop : Moves :=
  submit 0 (some .permanent) 1 2 ++ consume {} 1 .processor ++ runs 1 1 ++ [.event (.stop 1)]

/-- It finishes the record, commits, finds the flag set and leaves. -/
def leaves : Moves :=
  runs 1 1 ++ [.run 1 (draw 3)] ++ runs 1 6 ++ [.run 1 (result (.error (.permanent poisoned)))] ++
    runs 1 11 ++ [.again 1] ++ runs 1 2

def hasLeft (pool : Pipeline) : Bool :=
  match pool.threads 1 with
  | some ⟨.worker _, .ret (.pass false)⟩ => true
  | _ => false

theorem returned_of_left {pool : Pipeline} (left : hasLeft pool = true) :
    pool.Returned 1 (.pass false) := by
  unfold hasLeft at left
  split at left
  · exact ⟨_, ‹_›⟩
  · cases left

theorem stopped_inside : ∃ start past pool,
    Reachable (system shop) (GuardedRuns shop) World.empty start ∧
    Path (system shop) (GuardedRuns shop) start past pool ∧ start.world.stopped 1 = true ∧
      (stage shop start 1).record.isSome ∧ pool.Returned 1 (.pass false) := by
  obtain ⟨start, past, pool, reached, path, facts⟩ := play_walks {} fulfils
    [event (some .permanent) 1 2] toldToStop leaves faultless_guarded faultless_guarded
    (fun start pool => start.world.stopped 1 && (stage shop start 1).record.isSome && hasLeft pool)
    (by decide +kernel)
  simp only [Bool.and_eq_true] at facts
  obtain ⟨⟨stopped, inCall⟩, left⟩ := facts
  exact ⟨start, past, pool, reached, path, stopped, inCall, returned_of_left left⟩

/-- Nothing goes on but `stop()` being called again. -/
def idling (pool : Pipeline) (n : Nat) : Pipeline :=
  { pool with trace := List.replicate n (.event (.stop 1)) ++ pool.trace }

theorem idling_endless {pool : Pipeline} (stopped : pool.world.stopped 1 = true) :
    Endless (system shop) Anything (idling pool) fun _ => Label.event (Event.stop 1) := by
  intro n
  have same : Function.update pool.world.stopped 1 true = pool.world.stopped := by
    rw [← stopped]
    exact Function.update_eq_self ..
  have happened : happen shop (.stop 1) pool.world = some pool.world := by
    simp only [happen, same]
  exact ⟨trivial, .event (Event.stop 1) pool.world happened⟩

end Sample

theorem stop_drains_run : ∃ (start : Pipeline) (past : List (Pipeline × Moment)) (pool : Pipeline),
    (stage Sample.shop start 1).record.isSome ∧ pool.Returned 1 (.pass false) ∧
      past.countP (fun step => takesOn 1 step.2) = 0 := by
  obtain ⟨start, past, pool, reached, path, stopped, inCall, left⟩ := Sample.stopped_inside
  exact ⟨start, past, pool, inCall, left, (stop_drains reached stopped path).2 inCall⟩

theorem stopped_worker_ends_run : ∃ (start : Pipeline) (last : Nat),
    (stage Sample.shop start 1).record.isSome ∧
      ∀ n, last ≤ n → ¬ Label.By 1 (Label.event (Event.stop 1) : Moment) := by
  obtain ⟨start, past, pool, reached, path, stopped, inCall, left⟩ := Sample.stopped_inside
  have ran : Reachable (system Sample.shop) Sample.Anything World.empty (Sample.idling start 0) :=
    reached.mono fun _ _ _ _ _ _ => trivial
  obtain ⟨last, rests⟩ := stopped_worker_ends ran stopped (Sample.idling_endless stopped)
  exact ⟨start, last, inCall, rests⟩

end OrderFlow
