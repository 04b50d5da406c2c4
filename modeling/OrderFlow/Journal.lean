import Mathlib.Data.List.Chain

/-!
Journals of a state machine. Each entry is numbered and names the state it left
and the state it entered; a journal links every entry to the one before it, by
a move the machine may make. Entries and states are of any types.
-/
namespace Journals

variable {Entry State : Type} (number : Entry → Nat) (left : Entry → Option State)
  (entered : Entry → State) (legal : State → State → Prop)

/-- The later entry may be written right after the earlier one. -/
structure Links (earlier later : Entry) : Prop where
  numbered : number earlier < number later
  joined : left later = some (entered earlier)
  legal : legal (entered earlier) (entered later)

/-- The entries tell how the machine came from its start to where it is. -/
structure Journal (start : State) (entries : List Entry) (current : State) : Prop where
  opens : ∃ first rest, entries = first :: rest ∧ left first = none ∧ entered first = start
  linked : entries.IsChain (Links number left entered legal)
  last : ∃ final, entries.getLast? = some final ∧ entered final = current

variable {number left entered legal} {start current : State} {entries : List Entry} {entry : Entry}

theorem journal_opened (initial : left entry = none) (starts : entered entry = start) :
    Journal number left entered legal start [entry] start where
  opens := ⟨entry, [], rfl, initial, starts⟩
  linked := List.isChain_singleton entry
  last := ⟨entry, rfl, starts⟩

/-- A legal move from where the machine is, under a number of its own, continues the journal. -/
theorem Journal.append (journal : Journal number left entered legal start entries current)
    (above : ∀ earlier ∈ entries, number earlier < number entry)
    (joined : left entry = some current) (permitted : legal current (entered entry)) :
    Journal number left entered legal start (entries ++ [entry]) (entered entry) where
  opens := by
    obtain ⟨first, rest, same, initial, starts⟩ := journal.opens
    exact ⟨first, rest ++ [entry], by rw [same]; rfl, initial, starts⟩
  linked := by
    obtain ⟨final, ends, standing⟩ := journal.last
    apply List.IsChain.append journal.linked (List.isChain_singleton entry)
    intro earlier member later same
    rw [Option.mem_def, ends] at member
    cases member
    cases same
    have belongs : final ∈ entries := List.mem_of_getLast? ends
    constructor
    · exact above final belongs
    · rw [standing]
      exact joined
    · rw [standing]
      exact permitted
  last := ⟨entry, by simp, rfl⟩

/-- Only the last entry can have entered a state without legal moves. -/
theorem Journal.final_last (journal : Journal number left entered legal start entries current)
    {final : State} (stuck : ∀ next, ¬ legal final next) :
    ∀ earlier ∈ entries.dropLast, entered earlier ≠ final := by
  intro earlier member same
  obtain ⟨before, after, split⟩ := List.append_of_mem member
  obtain ⟨first, rest, opens, _⟩ := journal.opens
  have nonempty : entries ≠ [] := by
    rw [opens]
    simp
  have whole : entries = before ++ earlier :: (after ++ [entries.getLast nonempty]) := by
    rw [← List.cons_append, ← List.append_assoc, ← split]
    exact (List.dropLast_append_getLast nonempty).symm
  have linked := journal.linked
  rw [whole] at linked
  have follows := (List.isChain_split.mp linked).2
  cases later : after ++ [entries.getLast nonempty] with
  | nil => simp at later
  | cons next more =>
    rw [later] at follows
    have link := (List.isChain_cons_cons.mp follows).1
    have moved := link.legal
    rw [same] at moved
    exact stuck _ moved

end Journals
