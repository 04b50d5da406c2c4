import OrderFlow.Journal
import OrderFlow.Service

/-!
The audit trail of an order: its hops in id order are a journal of the row's
status, and the rest of the row can be told from the journal.
-/
namespace OrderFlow

/-- The hops an order may make after it was accepted. -/
def OrderStatus.hops : OrderStatus → OrderStatus → Bool
  | .pending, .processing => true
  | .processing, .processing => true
  | .processing, .pending => true
  | .processing, .completed => true
  | .processing, .failed => true
  | _, _ => false

/-- The hops lead from acceptance to this status. -/
abbrev Trail (trail : List StatusTransition) (status : OrderStatus) : Prop :=
  Journals.Journal StatusTransition.id StatusTransition.fromStatus StatusTransition.toStatus
    (fun earlier later => earlier.hops later = true) .pending trail status

/-- An order whose row agrees with its trail. -/
structure Audited (order : Order) : Prop where
  trail : Trail order.transitions order.row.status
  attempts : order.row.attempts = 0 ↔ order.transitions.length = 1
  reason : order.row.failureReason.isSome = true ↔
    order.row.status = .failed ∨ order.row.status = .pending ∧ order.transitions.length ≠ 1

/-- The statuses a transition writes a failure reason with. -/
def OrderStatus.explained : OrderStatus → Bool
  | .pending | .failed => true
  | .processing | .completed => false

theorem hops_terminal {status next : OrderStatus} (terminal : status.terminal = true) :
    status.hops next = false := by
  cases status <;> cases next <;> first | rfl | cases terminal

theorem audited_created (payload : OrderCreate) (id : Uuid) (hopId : Nat) (note : Option PyStr) :
    Audited ⟨Repository.newRow payload id, [⟨hopId, none, .pending, note⟩]⟩ where
  trail := Journals.journal_opened rfl rfl
  attempts := by simp [Repository.newRow]
  reason := by simp [Repository.newRow]

namespace Audited
variable {order : Order}

theorem nonempty (audited : Audited order) : order.transitions ≠ [] := by
  obtain ⟨first, rest, same, _⟩ := audited.trail.opens
  rw [same]
  simp

/-- A transition with a number of its own keeps the row and the trail in step. -/
theorem transition (audited : Audited order) {toStatus : OrderStatus} {attempts hopId : Nat}
    {failureReason note : Option PyStr} (hop : order.row.status.hops toStatus = true)
    (attempted : 1 ≤ attempts) (explains : failureReason.isSome = toStatus.explained)
    (above : ∀ earlier ∈ order.transitions, earlier.id < hopId) :
    Audited ⟨Repository.transitionRow order.row toStatus attempts failureReason,
      order.transitions ++ [⟨hopId, some order.row.status, toStatus, note⟩]⟩ := by
  have longer : order.transitions.length ≠ 0 := by
    have := audited.nonempty
    simpa using this
  constructor
  · have entered : order.row.status.hops
        (StatusTransition.mk hopId (some order.row.status) toStatus note).toStatus = true := hop
    exact audited.trail.append above rfl entered
  · simp only [Repository.transitionRow, List.length_append, List.length_singleton]
    omega
  · simp only [Repository.transitionRow, List.length_append, List.length_singleton, explains]
    cases toStatus <;> simp [OrderStatus.explained, longer]

/-- No hop but the last is terminal. -/
theorem terminal_last (audited : Audited order) :
    ∀ hop ∈ order.transitions.dropLast, hop.toStatus.terminal = false := by
  intro hop member
  rw [Bool.eq_false_iff]
  intro terminal
  have stuck : ∀ next, ¬ hop.toStatus.hops next = true := by
    intro next permitted
    rw [hops_terminal terminal] at permitted
    cases permitted
  exact audited.trail.final_last stuck hop member rfl

end Audited

/-- A hop numbered above the others is read last. -/
theorem insertHop_above {hop : StatusTransition} {trail : List StatusTransition}
    (above : ∀ earlier ∈ trail, earlier.id < hop.id) : insertHop hop trail = trail ++ [hop] := by
  induction trail with
  | nil => rfl
  | cons first rest ih =>
    have smaller := above first (List.mem_cons_self ..)
    unfold insertHop
    rw [if_neg (by omega), ih fun earlier member => above earlier (List.mem_cons_of_mem _ member)]
    rfl

/-- The trail holds the hops it held before, and the new one. -/
theorem mem_insertHop {hop other : StatusTransition} {trail : List StatusTransition} :
    other ∈ insertHop hop trail ↔ other = hop ∨ other ∈ trail := by
  induction trail with
  | nil => simp [insertHop]
  | cons first rest ih =>
    unfold insertHop
    split
    · simp
    · rw [List.mem_cons, ih, List.mem_cons]
      tauto

end OrderFlow
