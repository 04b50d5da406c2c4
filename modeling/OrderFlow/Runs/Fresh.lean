import OrderFlow.Stage.Progress

/-!
Identifiers are drawn once. Tokens, row ids and event ids that different threads
hold are therefore different, and a row is never inserted twice.
-/
namespace OrderFlow
open AsyncCoroutine AsyncPool

variable {deployment : Deployment} {allows : Pipeline → Moment → Prop} {pool after : Pipeline}

def Drew (trace : List Moment) (thread : Nat) (id : Uuid) : Prop :=
  Label.did thread .uuid4 (.ok id) ∈ trace

theorem Drew.later {trace : List Moment} {thread : Nat} {id : Uuid} (drew : Drew trace thread id)
    (label : Moment) : Drew (label :: trace) thread id :=
  List.mem_cons_of_mem _ drew

theorem draws_drew {trace : List Moment} {thread : Nat} {op : Op} {outcome : Outcome Exn op.Reply}
    {id : Uuid} (draws : Draws op outcome id) : Drew (.did thread op outcome :: trace) thread id := by
  unfold Draws at draws
  split at draws
  · subst draws
    exact List.mem_cons_self ..
  · cases draws

structure DrawnOnce (pool : Pipeline) : Prop where
  issued : ∀ thread id, Drew pool.trace thread id → id ∈ pool.world.issued
  once : ∀ thread other id, Drew pool.trace thread id → Drew pool.trace other id → thread = other

theorem drew_other {label : Moment} {trace : List Moment} {thread : Nat} {id : Uuid}
    (drew : Drew (label :: trace) thread id) (other : label ≠ .did thread .uuid4 (.ok id)) :
    Drew trace thread id := by
  rcases List.mem_cons.mp drew with rfl | before
  · exact absurd rfl other
  · exact before

theorem drawn_once (reached : Reachable (system deployment) allows World.empty pool) :
    DrawnOnce pool := by
  have unchanged : ∀ {pool after : Pipeline} {label : Moment}, DrawnOnce pool →
      after.trace = label :: pool.trace → (∀ thread id, label ≠ .did thread .uuid4 (.ok id)) →
      (∀ id ∈ pool.world.issued, id ∈ after.world.issued) → DrawnOnce after := by
    intro pool after label known trace other issued
    have before : ∀ thread id, Drew after.trace thread id → Drew pool.trace thread id := by
      intro thread id drew
      rw [trace] at drew
      exact drew_other drew (other thread id)
    exact ⟨fun thread id drew => issued id (known.issued thread id (before thread id drew)),
      fun thread second id first other => known.once thread second id (before _ _ first)
        (before _ _ other)⟩
  refine run_invariant ⟨?_, ?_⟩ ?_ ?_ ?_ reached
  · rintro thread id ⟨⟩
  · rintro thread other id ⟨⟩
  · intro pool after thread op outcome _ known _ act
    obtain ⟨fate, performed⟩ := act.performed
    by_cases draws : op = .uuid4
    · subst draws
      obtain ⟨id, rfl, fresh, world⟩ := perform_uuid4 performed
      have split : ∀ other drawn, Drew after.trace other drawn →
          (other = thread ∧ drawn = id) ∨ Drew pool.trace other drawn := by
        intro other drawn drew
        rw [act.trace] at drew
        rcases List.mem_cons.mp drew with same | before
        · cases same
          exact .inl ⟨rfl, rfl⟩
        · exact .inr before
      constructor
      · intro other drawn drew
        rw [world]
        rcases split other drawn drew with ⟨_, rfl⟩ | before
        · exact List.mem_cons_self ..
        · exact List.mem_cons_of_mem _ (known.issued _ _ before)
      · intro first second drawn drew drewToo
        rcases split _ _ drew with ⟨rfl, rfl⟩ | before <;>
          rcases split _ _ drewToo with ⟨rfl, same⟩ | beforeToo
        · rfl
        · exact absurd (known.issued _ _ beforeToo) fresh
        · subst same
          exact absurd (known.issued _ _ before) fresh
        · exact known.once _ _ _ before beforeToo
    · have same : after.world.issued = pool.world.issued := by
        refine perform_issued performed ?_
        cases op <;> first | rfl | exact absurd rfl draws
      refine unchanged known act.trace ?_ fun id member => same ▸ member
      intro other id equal
      cases equal
      exact draws rfl
  · intro pool after label thread _ known _ turn
    refine unchanged known turn.trace ?_ fun id member => turn.world ▸ member
    rcases turn.own with ⟨_, rfl, _⟩ | ⟨_, rfl, _⟩ | ⟨rfl, _⟩ <;> rintro _ _ ⟨⟩
  · intro pool after event _ known _ happening
    refine unchanged known happening.trace (by rintro _ _ ⟨⟩) fun id member => ?_
    rwa [(happen_frame happening.happened).2.2.2.2]

theorem Drew.kept {label : Moment} {thread : Nat} {id : Uuid} (drew : Drew pool.trace thread id)
    (moved : Step (system deployment) pool label after) : Drew after.trace thread id := by
  rw [step_trace moved]
  exact drew.later label

/-! ### Tokens -/

/-- A delivery carries a token its own thread drew. -/
theorem token_drawn (reached : Reachable (system deployment) allows World.empty pool)
    (thread : Nat) (delivery : Delivery deployment) (token : String)
    (carries : (stage deployment pool thread).carries = some (delivery, token)) :
    ∃ id, Drew pool.trace thread id ∧ token = id.hex := by
  refine each_stage (P := fun pool thread stage => ∀ delivery token,
    stage.carries = some (delivery, token) → ∃ id, Drew pool.trace thread id ∧ token = id.hex)
    ?_ ?_ ?_ reached thread delivery token carries
  · rintro pool thread stage (_ | _ | _ | _) delivery token ⟨⟩
  · intro pool label after _ _ moved thread stage _ known delivery token carries
    obtain ⟨id, drew, same⟩ := known delivery token carries
    exact ⟨id, drew.kept moved, same⟩
  · intro pool after thread op outcome _ _ _ act known delivery token carries
    rcases act.progress.carries carries with before | ⟨_, id, draws, same⟩
    · obtain ⟨id, drew, same⟩ := known delivery token before
      exact ⟨id, act.trace ▸ drew.later _, same⟩
    · exact ⟨id, act.trace ▸ draws_drew draws, same⟩

/-- Two threads never carry one token. -/
theorem token_owner (reached : Reachable (system deployment) allows World.empty pool)
    {thread other : Nat} {delivery second : Delivery deployment} {token : String}
    (first : (stage deployment pool thread).carries = some (delivery, token))
    (also : (stage deployment pool other).carries = some (second, token)) : thread = other := by
  obtain ⟨id, drew, rfl⟩ := token_drawn reached thread delivery token first
  obtain ⟨id', drew', same⟩ := token_drawn reached other second _ also
  obtain rfl := uuid_hex_injective same
  exact (drawn_once reached).once thread other id drew drew'

/-- No token reads as the tombstone. -/
theorem token_ne_done (reached : Reachable (system deployment) allows World.empty pool)
    (thread : Nat) {delivery : Delivery deployment} {token : String}
    (carries : (stage deployment pool thread).carries = some (delivery, token)) : token ≠ done := by
  obtain ⟨id, _, rfl⟩ := token_drawn reached thread delivery token carries
  intro same
  have length := uuid_hex_length id
  rw [same] at length
  exact absurd length (by decide)

/-! ### Rows and events of submissions -/

namespace Submission

/-- The row id of a submission that is on its way to publishing, or has published. -/
def row : Submission → Option Uuid
  | .drawn _ _ id => some id
  | .created _ _ id => some id
  | .reserved _ _ id => some id
  | .named _ _ id _ => some id
  | .stamped _ _ id _ _ => some id
  | .published _ _ id _ _ => some id
  | _ => none

def event : Submission → Option Uuid
  | .named _ _ _ eventId => some eventId
  | .stamped _ _ _ eventId _ => some eventId
  | .published _ _ _ eventId _ => some eventId
  | _ => none

variable {before later : Submission} {op : Op} {outcome : Outcome Exn op.Reply}

theorem Progress.row (moved : before.Progress deployment op outcome later) {id : Uuid}
    (holds : later.row = some id) : before.row = some id ∨ Draws op outcome id := by
  cases moved with
  | draws payload key drawn =>
    cases holds
    exact .inr rfl
  | inserts payload key drawn hop =>
    cases key <;> exact .inl holds
  | flushes | reserves | names | stamps | publishes | finishes => exact .inl holds
  | _ => cases holds

theorem Progress.event (moved : before.Progress deployment op outcome later) {id : Uuid}
    (holds : later.event = some id) : before.event = some id ∨ Draws op outcome id := by
  cases moved with
  | names payload key drawn eventId =>
    cases holds
    exact .inr rfl
  | inserts payload key drawn hop => cases key <;> cases holds
  | stamps | publishes | finishes => exact .inl holds
  | _ => cases holds

end Submission

namespace Stage

variable {before later : Stage deployment} {op : Op} {outcome : Outcome Exn op.Reply}

/-- A thread comes to a submission's stage from another of its stages only. -/
theorem Progress.submission (moved : Progress before op outcome later) {after : Submission}
    (same : later = .submitting after) :
    ∃ first, before = .submitting first ∧ first.Progress deployment op outcome after := by
  cases moved with
  | submits first _ moved =>
    cases same
    exact ⟨first, rfl, moved⟩
  | called name record =>
    simp only [Stage.called] at same
    split at same
    · cases same
    · split at same <;> cases same
  | _ => cases same

end Stage

theorem submitting_drawn (reached : Reachable (system deployment) allows World.empty pool)
    (thread : Nat) (submission : Submission)
    (same : stage deployment pool thread = .submitting submission) :
    (∀ id, submission.row = some id → Drew pool.trace thread id) ∧
      ∀ id, submission.event = some id → Drew pool.trace thread id := by
  refine each_stage (P := fun pool thread stage => ∀ submission,
    stage = .submitting submission →
      (∀ id, submission.row = some id → Drew pool.trace thread id) ∧
        ∀ id, submission.event = some id → Drew pool.trace thread id)
    ?_ ?_ ?_ reached thread submission same
  · rintro pool thread stage (_ | _ | _ | _) submission ⟨⟩
    · exact ⟨by rintro _ ⟨⟩, by rintro _ ⟨⟩⟩
    · exact ⟨by rintro _ ⟨⟩, by rintro _ ⟨⟩⟩
  · intro pool label after _ _ moved thread stage _ known submission same
    obtain ⟨row, event⟩ := known submission same
    exact ⟨fun id holds => (row id holds).kept moved, fun id holds => (event id holds).kept moved⟩
  · intro pool after thread op outcome _ _ _ act known submission same
    obtain ⟨first, before, moved⟩ := act.progress.submission same
    obtain ⟨row, event⟩ := known first before
    constructor
    · intro id holds
      rcases moved.row holds with earlier | draws
      · exact act.trace ▸ (row id earlier).later _
      · exact act.trace ▸ draws_drew draws
    · intro id holds
      rcases moved.event holds with earlier | draws
      · exact act.trace ▸ (event id earlier).later _
      · exact act.trace ▸ draws_drew draws

end OrderFlow
