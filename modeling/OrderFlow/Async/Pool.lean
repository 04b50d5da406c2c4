import Mathlib.Logic.Function.Basic
import OrderFlow.Async.Coroutine

/-!
Any number of coroutines over one shared world, interleaved at their awaited
operations. Threads start, take one operation at a time, go round a loop again
or crash; the environment moves on its own. The trace keeps every label, newest
first, and what a thread has done so far is read off the trace by a monitor.
-/
namespace AsyncPool
open AsyncCoroutine

variable {Op : Type} {Reply : Op → Type} {Exn World Call Result Event Fate Record : Type}

/-- An executable semantics: a fate settles every choice the stores leave open. -/
structure System (Op : Type) (Reply : Op → Type) (Exn World Call Result Event Fate : Type) where
  perform : Nat → (op : Op) → World → Fate → Option (Outcome Exn (Reply op) × World)
  event : Event → World → Option World
  program : Call → Coroutine Op Reply Exn Result
  again : Call → Result → Option Call

inductive Label (Op : Type) (Reply : Op → Type) (Exn Call Event : Type) where
  | start (thread : Nat) (call : Call)
  | did (thread : Nat) (op : Op) (outcome : Outcome Exn (Reply op))
  | again (thread : Nat) (call : Call)
  | crash (thread : Nat)
  | event (event : Event)

structure Thread (Op : Type) (Reply : Op → Type) (Exn Call Result : Type) where
  call : Call
  program : Coroutine Op Reply Exn Result

structure Pool (Op : Type) (Reply : Op → Type) (Exn World Call Result Event : Type) where
  world : World
  threads : Nat → Option (Thread Op Reply Exn Call Result)
  trace : List (Label Op Reply Exn Call Event)

namespace Pool

def initial (world : World) : Pool Op Reply Exn World Call Result Event :=
  ⟨world, fun _ => none, []⟩

def Unused (pool : Pool Op Reply Exn World Call Result Event) (thread : Nat) : Prop :=
  ∀ label ∈ pool.trace, ∀ call, label ≠ .start thread call

def InFlight (pool : Pool Op Reply Exn World Call Result Event) (thread : Nat) : Prop :=
  ∃ running, pool.threads thread = some running ∧ running.program.Suspended

/-- The thread's call has returned this value. -/
def Returned (pool : Pool Op Reply Exn World Call Result Event) (thread : Nat)
    (value : Result) : Prop :=
  ∃ call, pool.threads thread = some ⟨call, .ret value⟩

def Raised (pool : Pool Op Reply Exn World Call Result Event) (thread : Nat) (error : Exn) : Prop :=
  ∃ call, pool.threads thread = some ⟨call, .raise error⟩

end Pool

inductive Step (system : System Op Reply Exn World Call Result Event Fate) :
    Pool Op Reply Exn World Call Result Event → Label Op Reply Exn Call Event →
    Pool Op Reply Exn World Call Result Event → Prop where
  | start {pool} (thread : Nat) (call : Call) (unused : pool.Unused thread) :
      Step system pool (.start thread call)
        ⟨pool.world,
          Function.update pool.threads thread (some ⟨call, system.program call⟩),
          .start thread call :: pool.trace⟩
  | did {pool} (thread : Nat) (call : Call) (op : Op)
      (resume : Except Exn (Reply op) → Coroutine Op Reply Exn Result) (fate : Fate)
      (outcome : Outcome Exn (Reply op)) (world : World)
      (awaiting : pool.threads thread = some ⟨call, .await op resume⟩)
      (performed : system.perform thread op pool.world fate = some (outcome, world)) :
      Step system pool (.did thread op outcome)
        ⟨world, Function.update pool.threads thread (some ⟨call, resume outcome.reply⟩),
          .did thread op outcome :: pool.trace⟩
  | again {pool} (thread : Nat) (call next : Call) (result : Result)
      (ended : pool.threads thread = some ⟨call, .ret result⟩)
      (loops : system.again call result = some next) :
      Step system pool (.again thread next)
        ⟨pool.world,
          Function.update pool.threads thread (some ⟨next, system.program next⟩),
          .again thread next :: pool.trace⟩
  | crash {pool} (thread : Nat) (running : pool.InFlight thread) :
      Step system pool (.crash thread)
        ⟨pool.world, Function.update pool.threads thread none, .crash thread :: pool.trace⟩
  | event {pool} (event : Event) (world : World)
      (happened : system.event event pool.world = some world) :
      Step system pool (.event event) ⟨world, pool.threads, .event event :: pool.trace⟩

/-- Pools reachable by steps the condition allows. The condition sees the pool
    before the step and the step's label. -/
inductive Reachable (system : System Op Reply Exn World Call Result Event Fate)
    (allows : Pool Op Reply Exn World Call Result Event → Label Op Reply Exn Call Event → Prop)
    (first : World) : Pool Op Reply Exn World Call Result Event → Prop where
  | init : Reachable system allows first (Pool.initial first)
  | step {pool label after} (reached : Reachable system allows first pool)
      (permitted : allows pool label) (moved : Step system pool label after) :
      Reachable system allows first after

/-- A stretch of a run, with every pool it passed through, newest first. -/
inductive Path (system : System Op Reply Exn World Call Result Event Fate)
    (allows : Pool Op Reply Exn World Call Result Event → Label Op Reply Exn Call Event → Prop)
    (start : Pool Op Reply Exn World Call Result Event) :
    List (Pool Op Reply Exn World Call Result Event × Label Op Reply Exn Call Event) →
    Pool Op Reply Exn World Call Result Event → Prop where
  | here : Path system allows start [] start
  | step {past pool label after} (walked : Path system allows start past pool)
      (permitted : allows pool label) (moved : Step system pool label after) :
      Path system allows start ((pool, label) :: past) after

variable {system : System Op Reply Exn World Call Result Event Fate}
variable {allows weaker : Pool Op Reply Exn World Call Result Event →
  Label Op Reply Exn Call Event → Prop}
variable {first : World} {pool start after : Pool Op Reply Exn World Call Result Event}

theorem step_trace {label : Label Op Reply Exn Call Event} (moved : Step system pool label after) :
    after.trace = label :: pool.trace := by
  cases moved <;> rfl

/-- Only a thread that was started can be running. -/
theorem started_of_held (reached : Reachable system allows first pool) :
    ∀ thread running, pool.threads thread = some running → ¬ pool.Unused thread := by
  induction reached with
  | init =>
    intro thread running held
    cases held
  | step reached permitted moved ih =>
    have earlier : ∀ {label : Label Op Reply Exn Call Event} {past} {world : World}
        {threads : Nat → Option (Thread Op Reply Exn Call Result)} {other : Nat},
        Pool.Unused ⟨world, threads, label :: past⟩ other →
        (⟨world, threads, past⟩ : Pool Op Reply Exn World Call Result Event).Unused other :=
      fun unused label member => unused label (List.mem_cons_of_mem _ member)
    intro other running held unused
    cases moved with
    | start thread call free =>
      by_cases same : other = thread
      · subst same
        exact unused _ (List.mem_cons_self ..) call rfl
      · simp only [Function.update_of_ne same] at held
        exact ih other running held (earlier unused)
    | did thread call op resume fate outcome world awaiting performed =>
      by_cases same : other = thread
      · subst same
        exact ih other _ awaiting (earlier unused)
      · simp only [Function.update_of_ne same] at held
        exact ih other running held (earlier unused)
    | again thread call next result ended loops =>
      by_cases same : other = thread
      · subst same
        exact ih other _ ended (earlier unused)
      · simp only [Function.update_of_ne same] at held
        exact ih other running held (earlier unused)
    | crash thread inFlight =>
      by_cases same : other = thread
      · subst same
        simp at held
      · simp only [Function.update_of_ne same] at held
        exact ih other running held (earlier unused)
    | event event world happened => exact ih other running held (earlier unused)

/-- A thread is started once. -/
theorem started_once (reached : Reachable system allows first pool) {thread : Nat} {one other : Call}
    (started : Label.start thread one ∈ pool.trace) (also : Label.start thread other ∈ pool.trace) :
    one = other := by
  induction reached with
  | init => cases started
  | @step pool label after reached permitted moved ih =>
    rw [step_trace moved] at started also
    have free : ∀ {call}, label = .start thread call → pool.Unused thread := by
      rintro call rfl
      cases moved with
      | start _ _ unused => exact unused
    rcases List.mem_cons.mp started with same | earlier
    · rcases List.mem_cons.mp also with again | before
      · rw [← same] at again
        cases again
        rfl
      · exact (free same.symm _ before other rfl).elim
    · rcases List.mem_cons.mp also with again | before
      · exact (free again.symm _ earlier one rfl).elim
      · exact ih earlier before

/-- A running call is the one its thread was started with, or one it went round to. -/
theorem call_of_held (reached : Reachable system allows first pool) :
    ∀ thread running, pool.threads thread = some running →
      Label.start thread running.call ∈ pool.trace ∨
        ∃ call result, system.again call result = some running.call := by
  induction reached with
  | init =>
    intro thread running held
    cases held
  | step reached permitted moved ih =>
    have earlier : ∀ {newest : Label Op Reply Exn Call Event}
        {past : List (Label Op Reply Exn Call Event)} {other : Nat} {call : Call},
        (Label.start other call ∈ past ∨ ∃ before result, system.again before result = some call) →
        Label.start other call ∈ newest :: past ∨
          ∃ before result, system.again before result = some call :=
      fun known => known.imp (List.mem_cons_of_mem _) id
    intro other running held
    cases moved with
    | start thread call free =>
      by_cases same : other = thread
      · subst same
        simp only [Function.update_self, Option.some.injEq] at held
        subst held
        exact .inl (List.mem_cons_self ..)
      · simp only [Function.update_of_ne same] at held
        exact earlier (ih other running held)
    | did thread call op resume fate outcome world awaiting performed =>
      by_cases same : other = thread
      · subst same
        simp only [Function.update_self, Option.some.injEq] at held
        subst held
        have known := ih other _ awaiting
        exact earlier known
      · simp only [Function.update_of_ne same] at held
        exact earlier (ih other running held)
    | again thread call next result ended loops =>
      by_cases same : other = thread
      · subst same
        simp only [Function.update_self, Option.some.injEq] at held
        subst held
        exact .inr ⟨call, result, loops⟩
      · simp only [Function.update_of_ne same] at held
        exact earlier (ih other running held)
    | crash thread inFlight =>
      by_cases same : other = thread
      · subst same
        simp at held
      · simp only [Function.update_of_ne same] at held
        exact earlier (ih other running held)
    | event event world happened => exact earlier (ih other running held)

/-- Only a thread that was started has done anything. -/
theorem started_of_did (reached : Reachable system allows first pool) {thread : Nat} {op : Op}
    {outcome : Outcome Exn (Reply op)} (did : Label.did thread op outcome ∈ pool.trace) :
    ¬ pool.Unused thread := by
  induction reached with
  | init => cases did
  | @step pool label after reached permitted moved ih =>
    rw [step_trace moved] at did
    intro unused
    rw [Pool.Unused, step_trace moved] at unused
    have before : pool.Unused thread := fun past member => unused past (List.mem_cons_of_mem _ member)
    rcases List.mem_cons.mp did with same | earlier
    · cases moved with
      | did actor call op resume fate outcome world awaiting performed =>
        cases same
        exact started_of_held reached thread _ awaiting before
      | _ => cases same
    · exact ih earlier before

/-- A thread that was started is there until it crashes. -/
theorem crashed_of_gone (reached : Reachable system allows first pool) :
    ∀ thread, ¬ pool.Unused thread → pool.threads thread = none →
      Label.crash thread ∈ pool.trace := by
  induction reached with
  | init => exact fun _ used _ => (used fun label member => by cases member).elim
  | @step pool label after reached permitted moved ih =>
    intro other used gone
    have trace := step_trace moved
    have earlier : pool.threads other = none → (∀ call, label ≠ .start other call) →
        Label.crash other ∈ after.trace := by
      intro absent another
      rw [trace]
      refine List.mem_cons_of_mem _ (ih other (fun unused => used ?_) absent)
      rw [Pool.Unused, trace]
      intro past member call
      rcases List.mem_cons.mp member with rfl | before
      · exact another call
      · exact unused past before call
    cases moved with
    | start thread call unused =>
      by_cases same : other = thread
      · subst same
        simp at gone
      · simp only [Function.update_of_ne same] at gone
        refine earlier gone ?_
        rintro started ⟨⟩
        exact same rfl
    | did thread call op resume fate outcome world awaiting performed =>
      by_cases same : other = thread
      · subst same
        simp at gone
      · simp only [Function.update_of_ne same] at gone
        exact earlier gone (by rintro _ ⟨⟩)
    | again thread call next result ended loops =>
      by_cases same : other = thread
      · subst same
        simp at gone
      · simp only [Function.update_of_ne same] at gone
        exact earlier gone (by rintro _ ⟨⟩)
    | crash thread running =>
      by_cases same : other = thread
      · subst same
        exact List.mem_cons_self ..
      · simp only [Function.update_of_ne same] at gone
        exact earlier gone (by rintro _ ⟨⟩)
    | event event world happened => exact earlier gone (by rintro _ ⟨⟩)

/-- A run of the stricter condition is a run of the weaker one, when the
    stricter condition implies the weaker for the steps it takes. -/
theorem Reachable.mono (reached : Reachable system allows first pool)
    (implies : ∀ pool label after, Reachable system allows first pool → allows pool label →
      Step system pool label after → weaker pool label) :
    Reachable system weaker first pool := by
  induction reached with
  | init => exact .init
  | step reached permitted moved ih =>
    exact .step ih (implies _ _ _ reached permitted moved) moved

/-- Every label of the trace is a step that was taken. -/
theorem taken_of_trace (reached : Reachable system allows first pool)
    {later past : List (Label Op Reply Exn Call Event)} {label : Label Op Reply Exn Call Event}
    (split : pool.trace = later ++ label :: past) :
    ∃ before taken, Reachable system allows first before ∧ before.trace = past ∧
      allows before label ∧ Step system before label taken := by
  induction reached generalizing later with
  | init => cases later <;> cases split
  | @step pool newest after reached permitted moved ih =>
    rw [step_trace moved] at split
    cases later with
    | nil =>
      cases split
      exact ⟨_, _, reached, rfl, permitted, moved⟩
    | cons other later =>
      rw [List.cons_append, List.cons.injEq] at split
      exact ih split.2

theorem Path.reachable {past} (reached : Reachable system allows first start)
    (path : Path system allows start past pool) : Reachable system allows first pool := by
  induction path with
  | here => exact reached
  | step walked permitted moved ih => exact .step ih permitted moved

/-- Every step of a stretch was taken after the earlier ones. -/
theorem Path.taken {past} (path : Path system allows start past pool)
    {before : Pool Op Reply Exn World Call Result Event} {label : Label Op Reply Exn Call Event}
    (member : (before, label) ∈ past) :
    ∃ later earlier taken, past = later ++ (before, label) :: earlier ∧
      Path system allows start earlier before ∧ allows before label ∧
      Step system before label taken := by
  induction path with
  | here => cases member
  | @step past pool newest after walked permitted moved ih =>
    rcases List.mem_cons.mp member with same | older
    · cases same
      exact ⟨[], past, after, rfl, walked, permitted, moved⟩
    · obtain ⟨later, earlier, taken, split, before⟩ := ih older
      exact ⟨(pool, newest) :: later, earlier, taken, by rw [split]; rfl, before⟩

/-- The stretch under a condition that every one of its steps meets. -/
theorem Path.mono {past} (path : Path system allows start past pool)
    (implies : ∀ step ∈ past, weaker step.1 step.2) : Path system weaker start past pool := by
  induction path with
  | here => exact .here
  | step walked permitted moved ih =>
    exact .step (ih fun step member => implies step (List.mem_cons_of_mem _ member))
      (implies _ (List.mem_cons_self ..)) moved

/-- A stretch in two parts, and the pool between them. -/
theorem Path.split {later earlier} (path : Path system allows start (later ++ earlier) pool) :
    ∃ middle, Path system allows start earlier middle ∧ Path system allows middle later pool := by
  induction later generalizing pool with
  | nil => exact ⟨pool, path, .here⟩
  | cons step later ih =>
    cases path with
    | step walked permitted moved =>
      obtain ⟨middle, before, between⟩ := ih walked
      exact ⟨middle, before, .step between permitted moved⟩

/-- Two stretches, one after the other. -/
theorem Path.join {later earlier} {middle : Pool Op Reply Exn World Call Result Event}
    (first : Path system allows start earlier middle) (second : Path system allows middle later pool) :
    Path system allows start (later ++ earlier) pool := by
  induction second with
  | here => exact first
  | step walked permitted moved ih => exact .step ih permitted moved

/-- A monitor reads from the trace what each thread has done in its call. -/
structure Monitor (Op : Type) (Reply : Op → Type) (Exn Call Record : Type)
    extends Protocol Op Reply Exn Record where
  idle : Record
  born : Call → Record

namespace Monitor
variable (monitor : Monitor Op Reply Exn Call Record)

def record : List (Label Op Reply Exn Call Event) → Nat → Record
  | [], _ => monitor.idle
  | .start thread call :: past, other =>
      if other = thread then monitor.born call else record past other
  | .did thread op outcome :: past, other =>
      if other = thread then monitor.next (record past other) op outcome
      else record past other
  | .again thread call :: past, other =>
      if other = thread then monitor.born call else record past other
  | .crash thread :: past, other =>
      if other = thread then monitor.idle else record past other
  | .event _ :: past, other => record past other

@[simp] theorem record_nil (other : Nat) :
    monitor.record ([] : List (Label Op Reply Exn Call Event)) other = monitor.idle := rfl

@[simp] theorem record_event (event : Event) (past : List (Label Op Reply Exn Call Event))
    (other : Nat) : monitor.record (.event event :: past) other = monitor.record past other := rfl

@[simp] theorem record_did_self (thread : Nat) (op : Op) (outcome : Outcome Exn (Reply op))
    (past : List (Label Op Reply Exn Call Event)) :
    monitor.record (.did thread op outcome :: past) thread =
      monitor.next (monitor.record past thread) op outcome := by
  simp [record]

theorem record_did_other {thread other : Nat} (differ : other ≠ thread) (op : Op)
    (outcome : Outcome Exn (Reply op)) (past : List (Label Op Reply Exn Call Event)) :
    monitor.record (.did thread op outcome :: past) other = monitor.record past other := by
  simp [record, differ]

/-- Every thread of a reachable pool keeps to the protocol from the record its
    own trace leaves. -/
theorem follows_of_reachable {monitor : Monitor Op Reply Exn Call Record}
    {goal : Call → Except Exn Result → Record → Prop}
    (keeps : ∀ call, monitor.Follows (system.program call) (goal call) (monitor.born call))
    (reached : Reachable system allows first pool) :
    ∀ thread running, pool.threads thread = some running →
      monitor.Follows running.program (goal running.call) (monitor.record pool.trace thread) := by
  induction reached with
  | init =>
    intro thread running held
    simp [Pool.initial] at held
  | step reached permitted moved ih =>
    intro other running held
    cases moved with
    | start thread call unused =>
      by_cases same : other = thread
      · subst same
        simp only [Function.update_self, Option.some.injEq] at held
        subst held
        simpa [record] using keeps call
      · simp only [Function.update_of_ne same] at held
        simpa [record, same] using ih other running held
    | did thread call op resume fate outcome world awaiting performed =>
      by_cases same : other = thread
      · subst same
        simp only [Function.update_self, Option.some.injEq] at held
        subst held
        rw [record_did_self]
        exact (ih other _ awaiting).2 outcome
      · simp only [Function.update_of_ne same] at held
        rw [record_did_other monitor same]
        exact ih other running held
    | again thread call next result ended loops =>
      by_cases same : other = thread
      · subst same
        simp only [Function.update_self, Option.some.injEq] at held
        subst held
        simpa [record] using keeps next
      · simp only [Function.update_of_ne same] at held
        simpa [record, same] using ih other running held
    | crash thread inFlight =>
      by_cases same : other = thread
      · subst same
        simp at held
      · simp only [Function.update_of_ne same] at held
        simpa [record, same] using ih other running held
    | event event world happened => exact ih other running held

theorem allowed_of_awaiting {monitor : Monitor Op Reply Exn Call Record}
    {goal : Call → Except Exn Result → Record → Prop}
    (keeps : ∀ call, monitor.Follows (system.program call) (goal call) (monitor.born call))
    (reached : Reachable system allows first pool) {thread : Nat} {call : Call} {op : Op}
    {resume : Except Exn (Reply op) → Coroutine Op Reply Exn Result}
    (awaiting : pool.threads thread = some ⟨call, .await op resume⟩) :
    monitor.allowed (monitor.record pool.trace thread) op :=
  (follows_of_reachable keeps reached thread _ awaiting).1

/-- A thread that runs no call has the idle record. -/
theorem record_gone (reached : Reachable system allows first pool) :
    ∀ thread, pool.threads thread = none → monitor.record pool.trace thread = monitor.idle := by
  induction reached with
  | init => exact fun _ _ => rfl
  | step reached permitted moved ih =>
    intro other gone
    cases moved with
    | start thread call unused =>
      by_cases same : other = thread
      · subst same
        simp at gone
      · simp only [Function.update_of_ne same] at gone
        simpa [record, same] using ih other gone
    | did thread call op resume fate outcome world awaiting performed =>
      by_cases same : other = thread
      · subst same
        simp at gone
      · simp only [Function.update_of_ne same] at gone
        simpa [record, same] using ih other gone
    | again thread call next result ended loops =>
      by_cases same : other = thread
      · subst same
        simp at gone
      · simp only [Function.update_of_ne same] at gone
        simpa [record, same] using ih other gone
    | crash thread running =>
      by_cases same : other = thread
      · simp [record, same]
      · simp only [Function.update_of_ne same] at gone
        simpa [record, same] using ih other gone
    | event event world happened => exact ih other gone

/-- A thread that was never started has the idle record. -/
theorem record_unused (reached : Reachable system allows first pool) (thread : Nat)
    (unused : pool.Unused thread) : monitor.record pool.trace thread = monitor.idle := by
  refine monitor.record_gone reached thread ?_
  cases held : pool.threads thread with
  | none => rfl
  | some running => exact (started_of_held reached thread running held unused).elim

/-- What each call begins with and each operation keeps holds of every thread's record. -/
theorem kept_of_held {Keeps : Call → Record → Prop}
    (begins : ∀ call, Keeps call (monitor.born call))
    (kept : ∀ call record op outcome, Keeps call record → monitor.allowed record op →
      Keeps call (monitor.next record op outcome))
    {goal : Call → Except Exn Result → Record → Prop}
    (follows : ∀ call, monitor.Follows (system.program call) (goal call) (monitor.born call))
    (reached : Reachable system allows first pool) :
    ∀ thread running, pool.threads thread = some running →
      Keeps running.call (monitor.record pool.trace thread) := by
  induction reached with
  | init =>
    intro thread running held
    cases held
  | step reached permitted moved ih =>
    intro other running held
    cases moved with
    | start thread call unused =>
      by_cases same : other = thread
      · subst same
        simp only [Function.update_self, Option.some.injEq] at held
        subst held
        simpa [record] using begins call
      · simp only [Function.update_of_ne same] at held
        simpa [record, same] using ih other running held
    | did thread call op resume fate outcome world awaiting performed =>
      by_cases same : other = thread
      · subst same
        simp only [Function.update_self, Option.some.injEq] at held
        subst held
        rw [record_did_self]
        exact kept call _ op outcome (ih other _ awaiting)
          (allowed_of_awaiting follows reached awaiting)
      · simp only [Function.update_of_ne same] at held
        rw [record_did_other monitor same]
        exact ih other running held
    | again thread call next result ended loops =>
      by_cases same : other = thread
      · subst same
        simp only [Function.update_self, Option.some.injEq] at held
        subst held
        simpa [record] using begins next
      · simp only [Function.update_of_ne same] at held
        simpa [record, same] using ih other running held
    | crash thread inFlight =>
      by_cases same : other = thread
      · subst same
        simp at held
      · simp only [Function.update_of_ne same] at held
        simpa [record, same] using ih other running held
    | event event world happened => exact ih other running held

/-- A fact about each thread's record: it is there before a call and when one begins, the
    thread's own operations keep it, and the steps of others do not take it away. -/
theorem each_record {P : Pool Op Reply Exn World Call Result Event → Nat → Record → Prop}
    {goal : Call → Except Exn Result → Record → Prop}
    (keeps : ∀ call, monitor.Follows (system.program call) (goal call) (monitor.born call))
    (idle : ∀ pool thread, P pool thread monitor.idle)
    (begins : ∀ pool thread call, P pool thread (monitor.born call))
    (stays : ∀ pool label after, Reachable system allows first pool → allows pool label →
      Step system pool label after → ∀ thread record,
        (∀ op outcome, label ≠ .did thread op outcome) → P pool thread record →
        P after thread record)
    (own : ∀ pool after thread op outcome, Reachable system allows first pool →
      allows pool (.did thread op outcome) → Step system pool (.did thread op outcome) after →
      monitor.allowed (monitor.record pool.trace thread) op →
      P pool thread (monitor.record pool.trace thread) →
      P after thread (monitor.next (monitor.record pool.trace thread) op outcome))
    (reached : Reachable system allows first pool) (thread : Nat) :
    P pool thread (monitor.record pool.trace thread) := by
  induction reached generalizing thread with
  | init => exact idle _ thread
  | @step pool label after reached permitted moved ih =>
    rw [step_trace moved]
    have others : (∀ op outcome, label ≠ .did thread op outcome) →
        P after thread (monitor.record pool.trace thread) := fun elsewhere =>
      stays _ _ _ reached permitted moved thread _ elsewhere (ih thread)
    have taken := moved
    cases moved with
    | did actor call op resume fate outcome world awaiting performed =>
      by_cases same : thread = actor
      · subst same
        rw [record_did_self]
        exact own _ _ _ _ _ reached permitted taken
          (allowed_of_awaiting keeps reached awaiting) (ih thread)
      · rw [record_did_other monitor same]
        refine others ?_
        rintro _ _ ⟨⟩
        exact same rfl
    | start actor call unused =>
      by_cases same : thread = actor
      · simpa [record, same] using begins _ thread call
      · simpa [record, same] using others (by rintro _ _ ⟨⟩)
    | again actor call next result ended loops =>
      by_cases same : thread = actor
      · simpa [record, same] using begins _ thread next
      · simpa [record, same] using others (by rintro _ _ ⟨⟩)
    | crash actor inFlight =>
      by_cases same : thread = actor
      · simpa [record, same] using idle _ thread
      · simpa [record, same] using others (by rintro _ _ ⟨⟩)
    | event event world happened => exact others (by rintro _ _ ⟨⟩)

end Monitor
end AsyncPool
