import Mathlib.Algebra.BigOperators.Group.Finset.Piecewise
import Mathlib.Algebra.Order.BigOperators.Group.Finset
import OrderFlow.Async.Pool

/-!
Bounds on what threads do. Operations earn and spend, and a thread's record bounds
what it can still spend; a rank that a thread's own steps lower bounds how often it
can move at all.
-/
namespace AsyncPool
open AsyncCoroutine

variable {Op : Type} {Reply : Op → Type} {Exn World Call Result Event Fate Record : Type}

abbrev Price (Op : Type) (Reply : Op → Type) (Exn : Type) :=
  (op : Op) → Outcome Exn (Reply op) → Nat

/-- What a thread's operations come to. -/
def amount (price : Price Op Reply Exn) (thread : Nat) :
    List (Label Op Reply Exn Call Event) → Nat
  | [] => 0
  | .did actor op outcome :: past =>
      (if actor = thread then price op outcome else 0) + amount price thread past
  | _ :: past => amount price thread past

/-- What the operations of all threads come to. -/
def total (price : Price Op Reply Exn) : List (Label Op Reply Exn Call Event) → Nat
  | [] => 0
  | .did _ op outcome :: past => price op outcome + total price past
  | _ :: past => total price past

structure Budget (Op : Type) (Reply : Op → Type) (Exn Record : Type) where
  worth : Record → Nat
  earns : Price Op Reply Exn
  spends : Price Op Reply Exn

/-- Whatever the monitor allows is paid for, and a call begins with nothing. -/
structure Budget.Balances (budget : Budget Op Reply Exn Record)
    (monitor : Monitor Op Reply Exn Call Record) : Prop where
  idle : budget.worth monitor.idle = 0
  born : ∀ call, budget.worth (monitor.born call) = 0
  pays : ∀ record op outcome, monitor.allowed record op →
    budget.spends op outcome + budget.worth (monitor.next record op outcome) ≤
      budget.earns op outcome + budget.worth record

section
variable {system : System Op Reply Exn World Call Result Event Fate}
  {allows : Pool Op Reply Exn World Call Result Event → Label Op Reply Exn Call Event → Prop}
  {first : World} {start pool : Pool Op Reply Exn World Call Result Event}
  {monitor : Monitor Op Reply Exn Call Record} {budget : Budget Op Reply Exn Record}
  {goal : Call → Except Exn Result → Record → Prop}

/-- A thread spends what it earns and what it had, at most. -/
theorem Budget.Balances.solvent (balances : budget.Balances monitor)
    (keeps : ∀ call, monitor.Follows (system.program call) (goal call) (monitor.born call))
    (reached : Reachable system allows first pool) (thread : Nat)
    {later past : List (Label Op Reply Exn Call Event)} (split : pool.trace = later ++ past) :
    amount budget.spends thread later + budget.worth (monitor.record pool.trace thread) ≤
      amount budget.earns thread later + budget.worth (monitor.record past thread) := by
  induction later generalizing pool with
  | nil => simp [split, amount]
  | cons label later ih =>
    have newest : pool.trace = [] ++ label :: (later ++ past) := split
    obtain ⟨before, taken, ran, trace, _, moved⟩ := taken_of_trace reached newest
    have known := ih ran trace
    rw [split]
    rw [trace] at known
    cases moved with
    | did actor call op resume fate outcome world awaiting performed =>
      by_cases same : thread = actor
      · subst same
        have permitted := Monitor.allowed_of_awaiting keeps ran awaiting
        rw [trace] at permitted
        have pays := balances.pays _ op outcome permitted
        simp only [List.cons_append, amount, Monitor.record_did_self, ite_true]
        omega
      · simpa [amount, Monitor.record, same, Ne.symm same] using known
    | start actor call unused =>
      by_cases same : thread = actor
      · simp only [List.cons_append, amount, Monitor.record, if_pos same, balances.born]
        omega
      · simpa [amount, Monitor.record, same] using known
    | again actor call next result ended loops =>
      by_cases same : thread = actor
      · simp only [List.cons_append, amount, Monitor.record, if_pos same, balances.born]
        omega
      · simpa [amount, Monitor.record, same] using known
    | crash actor inFlight =>
      by_cases same : thread = actor
      · simp only [List.cons_append, amount, Monitor.record, if_pos same, balances.idle]
        omega
      · simpa [amount, Monitor.record, same] using known
    | event event world happened => simpa [amount] using known

/-- A stretch of a run extends the trace by its labels. -/
theorem Path.trace {past} (path : Path system allows start past pool) :
    pool.trace = past.map Prod.snd ++ start.trace := by
  induction path with
  | here => rfl
  | step walked permitted moved ih => rw [step_trace moved, ih]; rfl

end

/-! ### All threads together -/

def actors : List (Label Op Reply Exn Call Event) → Finset Nat
  | [] => ∅
  | .did actor _ _ :: past => insert actor (actors past)
  | _ :: past => actors past

theorem total_eq_sum (price : Price Op Reply Exn) (past : List (Label Op Reply Exn Call Event))
    {threads : Finset Nat} (within : actors past ⊆ threads) :
    total price past = ∑ thread ∈ threads, amount price thread past := by
  induction past with
  | nil => simp [total, amount]
  | cons label past ih =>
    cases label with
    | did actor op outcome =>
      obtain ⟨member, rest⟩ := Finset.insert_subset_iff.mp within
      simp only [total, amount, Finset.sum_add_distrib, ih rest]
      rw [Finset.sum_ite_eq, if_pos member]
    | _ => exact ih within

theorem total_mono {price other : Price Op Reply Exn} (dearer : ∀ op outcome,
    price op outcome ≤ other op outcome) (past : List (Label Op Reply Exn Call Event)) :
    total price past ≤ total other past := by
  induction past with
  | nil => exact le_rfl
  | cons label past ih =>
    cases label with
    | did actor op outcome => exact Nat.add_le_add (dearer op outcome) ih
    | _ => exact ih

theorem total_sum {Kind : Type} (kinds : Finset Kind) (price : Kind → Price Op Reply Exn)
    (past : List (Label Op Reply Exn Call Event)) :
    total (fun op outcome => ∑ kind ∈ kinds, price kind op outcome) past =
      ∑ kind ∈ kinds, total (price kind) past := by
  induction past with
  | nil => simp [total]
  | cons label past ih =>
    cases label with
    | did actor op outcome => simp only [total, ih, Finset.sum_add_distrib]
    | _ => exact ih

/-- What holds of each thread holds of all of them. -/
theorem total_le {price other : Price Op Reply Exn} {past : List (Label Op Reply Exn Call Event)}
    (each : ∀ thread, amount price thread past ≤ amount other thread past) :
    total price past ≤ total other past := by
  rw [total_eq_sum price past (Finset.Subset.refl _), total_eq_sum other past (Finset.Subset.refl _)]
  exact Finset.sum_le_sum fun thread _ => each thread

/-! ### Endings -/

/-- A rank that never rises falls finitely often. -/
theorem falls_finitely {Height : Type} {lower : Height → Height → Prop}
    (founded : WellFounded lower) (height : Nat → Height) (falls : Nat → Prop)
    (moves : ∀ n, falls n ∧ lower (height (n + 1)) (height n) ∨
      ¬ falls n ∧ height (n + 1) = height n) :
    ∃ last, ∀ n, last ≤ n → ¬ falls n := by
  have descends : ∀ n gap, Relation.ReflTransGen lower (height (n + gap)) (height n) := by
    intro n gap
    induction gap with
    | zero => exact .refl
    | succ gap ih =>
      rcases moves (n + gap) with ⟨_, below⟩ | ⟨_, same⟩
      · exact .head below ih
      · rw [← Nat.add_assoc, same]
        exact ih
  have from_here : ∀ value n, height n = value → ∃ last, ∀ m, last ≤ m → ¬ falls m := by
    intro value
    induction value using founded.transGen.induction with
    | _ value ih =>
      rintro n rfl
      by_cases quiet : ∀ m, n ≤ m → ¬ falls m
      · exact ⟨n, quiet⟩
      · simp only [not_forall, not_not] at quiet
        obtain ⟨m, after, falling⟩ := quiet
        obtain ⟨gap, rfl⟩ := Nat.exists_eq_add_of_le after
        rcases moves (n + gap) with ⟨_, below⟩ | ⟨steady, _⟩
        · exact ih _ (.head' below (descends n gap)) _ rfl
        · exact (steady falling).elim
  exact from_here _ 0 rfl

/-- The thread itself takes the step. -/
def Label.By (thread : Nat) : Label Op Reply Exn Call Event → Prop
  | .start actor _ | .did actor _ _ | .again actor _ | .crash actor => actor = thread
  | .event _ => False

/-- A run that never ends. -/
def Endless (system : System Op Reply Exn World Call Result Event Fate)
    (allows : Pool Op Reply Exn World Call Result Event → Label Op Reply Exn Call Event → Prop)
    (pools : Nat → Pool Op Reply Exn World Call Result Event)
    (labels : Nat → Label Op Reply Exn Call Event) : Prop :=
  ∀ n, allows (pools n) (labels n) ∧ Step system (pools n) (labels n) (pools (n + 1))

/-- What a coroutine resumes with is less of it. -/
inductive Resumes : Option (Coroutine Op Reply Exn Result) →
    Option (Coroutine Op Reply Exn Result) → Prop where
  | mk (op : Op) (resume : Except Exn (Reply op) → Coroutine Op Reply Exn Result)
      (reply : Except Exn (Reply op)) : Resumes (some (resume reply)) (some (.await op resume))

theorem resumes_founded :
    WellFounded (Resumes : Option (Coroutine Op Reply Exn Result) → _ → Prop) := by
  refine ⟨fun program => ?_⟩
  cases program with
  | none => exact ⟨_, by rintro _ ⟨⟩⟩
  | some program =>
    induction program with
    | ret value => exact ⟨_, by rintro _ ⟨⟩⟩
    | raise error => exact ⟨_, by rintro _ ⟨⟩⟩
    | await op resume ih =>
      refine ⟨_, ?_⟩
      rintro _ ⟨_, _, reply⟩
      exact ih reply

abbrev Rank (Op : Type) (Reply : Op → Type) (Exn Result : Type) :=
  Nat × Nat × Option (Coroutine Op Reply Exn Result)

abbrev Rank.Below : Rank Op Reply Exn Result → Rank Op Reply Exn Result → Prop :=
  Prod.Lex (· < ·) (Prod.Lex (· < ·) Resumes)

section
variable {system : System Op Reply Exn World Call Result Event Fate}
  {allows : Pool Op Reply Exn World Call Result Event → Label Op Reply Exn Call Event → Prop}
  {first : World} {pool after : Pool Op Reply Exn World Call Result Event}
  {label : Label Op Reply Exn Call Event} {thread : Nat}
  (monitor : Monitor Op Reply Exn Call Record) (fuel : Record → Nat)

open Classical in
/-- A thread has yet to start, runs with some fuel, or is gone. -/
noncomputable def rank (pool : Pool Op Reply Exn World Call Result Event) (thread : Nat) :
    Rank Op Reply Exn Result :=
  if pool.Unused thread then (2, 0, none)
  else match pool.threads thread with
    | none => (0, 0, none)
    | some running => (1, fuel (monitor.record pool.trace thread), some running.program)

theorem rank_running {running : Thread Op Reply Exn Call Result} (used : ¬ pool.Unused thread)
    (held : pool.threads thread = some running) :
    rank monitor fuel pool thread =
      (1, fuel (monitor.record pool.trace thread), some running.program) := by
  simp [rank, used, held]

theorem rank_other (moved : Step system pool label after) (other : ¬ label.By thread) :
    rank monitor fuel after thread = rank monitor fuel pool thread := by
  have trace := step_trace moved
  have unused : after.Unused thread ↔ pool.Unused thread := by
    have not_started : ∀ call, label ≠ .start thread call := by
      rintro call rfl
      exact other rfl
    simp [Pool.Unused, trace, not_started]
  have same : after.threads thread = pool.threads thread ∧
      monitor.record after.trace thread = monitor.record pool.trace thread := by
    rw [trace]
    cases moved with
    | event event world happened => exact ⟨rfl, rfl⟩
    | _ =>
      have differ := Ne.symm other
      exact ⟨Function.update_of_ne differ .., if_neg differ⟩
  by_cases free : pool.Unused thread
  · simp only [rank, if_pos free, if_pos (unused.mpr free)]
  · simp only [rank, if_neg free, if_neg fun early => free (unused.mp early), same]

theorem rank_own (reached : Reachable system allows first pool) (moved : Step system pool label after)
    (own : label.By thread)
    (runs : ∀ op outcome, label = .did thread op outcome →
      fuel (monitor.next (monitor.record pool.trace thread) op outcome) ≤
        fuel (monitor.record pool.trace thread))
    (loops : ∀ call, label = .again thread call →
      fuel (monitor.born call) < fuel (monitor.record pool.trace thread)) :
    Rank.Below (rank monitor fuel after thread) (rank monitor fuel pool thread) := by
  have stays : ¬ pool.Unused thread → ¬ after.Unused thread := by
    intro used unused
    rw [Pool.Unused, step_trace moved] at unused
    exact used fun past member => unused past (List.mem_cons_of_mem _ member)
  cases moved with
  | start actor call unused =>
    obtain rfl := own
    have started : ¬ Pool.Unused ⟨pool.world, Function.update pool.threads actor
        (some ⟨call, system.program call⟩), .start actor call :: pool.trace⟩ actor :=
      fun free => free _ (List.mem_cons_self ..) call rfl
    rw [rank_running monitor fuel started (Function.update_self ..)]
    simp only [rank, if_pos unused]
    exact .left _ _ (by omega)
  | did actor call op resume fate outcome world awaiting performed =>
    obtain rfl := own
    have used := started_of_held reached actor _ awaiting
    rw [rank_running monitor fuel used awaiting,
      rank_running monitor fuel (stays used) (Function.update_self ..)]
    refine .right _ ?_
    simp only [Monitor.record_did_self]
    rcases Nat.lt_or_eq_of_le (runs op outcome rfl) with less | same
    · exact .left _ _ less
    · rw [same]
      exact .right _ ⟨op, resume, outcome.reply⟩
  | again actor call next result ended goes =>
    obtain rfl := own
    have used := started_of_held reached actor _ ended
    rw [rank_running monitor fuel used ended,
      rank_running monitor fuel (stays used) (Function.update_self ..)]
    refine .right _ (.left _ _ ?_)
    simpa [Monitor.record] using loops next rfl
  | crash actor inFlight =>
    obtain rfl := own
    obtain ⟨running, held, _⟩ := inFlight
    have used := started_of_held reached actor running held
    rw [rank_running monitor fuel used held]
    simp only [rank, if_neg (stays used), Function.update_self]
    exact .left _ _ (by omega)
  | event event world happened => exact own.elim

/-- A thread that gains no fuel, and burns some whenever it goes round, moves finitely often. -/
theorem rests_finally {pools : Nat → Pool Op Reply Exn World Call Result Event}
    {labels : Nat → Label Op Reply Exn Call Event} (endless : Endless system allows pools labels)
    (reached : Reachable system allows first (pools 0))
    (runs : ∀ n op outcome, labels n = .did thread op outcome →
      fuel (monitor.next (monitor.record (pools n).trace thread) op outcome) ≤
        fuel (monitor.record (pools n).trace thread))
    (loops : ∀ n call, labels n = .again thread call →
      fuel (monitor.born call) < fuel (monitor.record (pools n).trace thread)) :
    ∃ last, ∀ n, last ≤ n → ¬ (labels n).By thread := by
  have ran : ∀ n, Reachable system allows first (pools n) := by
    intro n
    induction n with
    | zero => exact reached
    | succ n ih => exact .step ih (endless n).1 (endless n).2
  have founded : WellFounded (Rank.Below : Rank Op Reply Exn Result → _ → Prop) :=
    WellFounded.prod_lex Nat.lt_wfRel.wf (WellFounded.prod_lex Nat.lt_wfRel.wf resumes_founded)
  refine falls_finitely founded (fun n => rank monitor fuel (pools n) thread) _ fun n => ?_
  by_cases own : (labels n).By thread
  · exact .inl ⟨own, rank_own monitor fuel (ran n) (endless n).2 own (runs n) (loops n)⟩
  · exact .inr ⟨own, rank_other monitor fuel (endless n).2 own⟩

end

end AsyncPool
