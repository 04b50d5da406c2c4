import OrderFlow.Async.Alone
import OrderFlow.Frame

/-!
Calls made while no one else moves and every store is reachable: what each
operation answers then, and what becomes of sessions and counters.
-/
namespace OrderFlow
open AsyncCoroutine AsyncPool

/-- No operation fails on its way to a store or back; a store may still refuse it. -/
def Responsive (op : Op) (outcome : Outcome Exn op.Reply) : Prop :=
  outcome ≠ .lost .unavailable ∧ ∀ error, outcome ≠ .late error

variable {deployment : Deployment} {allows : (op : Op) → Outcome Exn op.Reply → Prop}
  {world after : World} {op : Op}

/-- An operation that cannot fail on its way does what its store can do. -/
theorem settles_alone {goal : op.Reply → World → Prop} (heard : ∀ value, allows op (.ok value))
    (reached : ¬ allows op (.lost .unavailable)) (punctual : ∀ error, ¬ allows op (.late error))
    (possible : ∃ oracle value last, answer deployment 0 op world oracle = some (.ok value, last))
    (every : ∀ oracle reply last, answer deployment 0 op world oracle = some (reply, last) →
      ∃ value, reply = .ok value ∧ goal value last) :
    Returns (perform deployment 0) allows (await op) world goal := by
  apply Yields.operation
  · obtain ⟨oracle, value, last, answers⟩ := possible
    refine ⟨.normal oracle, .ok value, last, ?_, heard value⟩
    simp only [perform, answers]
  · intro fate outcome last performed permitted
    cases fate with
    | normal oracle =>
      simp only [perform] at performed
      split at performed
      · rename_i value after answered
        cases performed
        obtain ⟨_, same, holds⟩ := every _ _ _ answered
        cases same
        exact ⟨value, rfl, holds⟩
      · rename_i error after answered
        obtain ⟨_, same, _⟩ := every _ _ _ answered
        cases same
      · cases performed
    | lost =>
      simp only [perform] at performed
      split at performed
      · cases performed
      · cases performed
        exact (reached permitted).elim
    | late oracle =>
      simp only [perform] at performed
      split at performed
      · cases performed
      · split at performed
        · cases performed
          exact (punctual _ permitted).elim
        · cases performed

theorem answers_alone {value : op.Reply} (heard : ∀ value, allows op (.ok value))
    (reached : ¬ allows op (.lost .unavailable)) (punctual : ∀ error, ¬ allows op (.late error))
    (answers : ∀ oracle, answer deployment 0 op world oracle = some (.ok value, after)) :
    Returns (perform deployment 0) allows (await op) world
      fun reply last => reply = value ∧ last = after := by
  apply settles_alone heard reached punctual ⟨{}, value, after, answers _⟩
  intro oracle reply last answered
  rw [answers oracle] at answered
  cases answered
  exact ⟨value, rfl, rfl, rfl⟩

theorem responsive_ok {value : op.Reply} : Responsive op (.ok value) := by
  constructor
  · intro same
    cases same
  · intro error same
    cases same

theorem settles {goal : op.Reply → World → Prop}
    (possible : ∃ oracle value last, answer deployment 0 op world oracle = some (.ok value, last))
    (every : ∀ oracle reply last, answer deployment 0 op world oracle = some (reply, last) →
      ∃ value, reply = .ok value ∧ goal value last) :
    Returns (perform deployment 0) Responsive (await op) world goal :=
  settles_alone (fun _ => responsive_ok) (fun lost => lost.1 rfl) (fun _ late => late.2 _ rfl)
    possible every

theorem responds {value : op.Reply}
    (answers : ∀ oracle, answer deployment 0 op world oracle = some (.ok value, after)) :
    Returns (perform deployment 0) Responsive (await op) world
      fun reply last => reply = value ∧ last = after :=
  answers_alone (fun _ => responsive_ok) (fun lost => lost.1 rfl) (fun _ late => late.2 _ rfl) answers

theorem utcnow_read : Returns (perform deployment 0) Responsive (await .utcnow) world
    fun _ last => last = world := by
  apply settles ⟨{}, _, _, rfl⟩
  intro oracle reply last answered
  cases answered
  exact ⟨_, rfl, rfl⟩

/-- A record is appended to some partition of its topic. -/
theorem send_appends {topic : String} {key : Option String} {value : Json} {headers : Headers}
    (partitioned : 0 < deployment.settings.partitions topic) :
    Returns (perform deployment 0) Responsive (await (.send topic key value headers)) world
      fun _ last => ∃ partition < deployment.settings.partitions topic,
        last = world.append ⟨topic, partition⟩
          (wireRecord deployment.platform key value headers) := by
  apply settles
  · refine ⟨{}, (), world.append ⟨topic, 0⟩
      (wireRecord deployment.platform key value headers), ?_⟩
    simp only [answer]
    rw [if_pos partitioned]
  · intro oracle reply last answered
    simp only [answer] at answered
    split at answered
    · rename_i home
      cases answered
      exact ⟨_, rfl, _, home, rfl⟩
    · cases answered

theorem buildHeaders_stamps {attempt : Nat} {notBefore : Option PyFloat} {error : Option PyStr}
    {topic : String} :
    Returns (perform deployment 0) Responsive
      (buildHeaders deployment attempt notBefore error (some topic)) world
      fun headers last => last = world ∧ ∃ failedAt, headers =
        Headers.build deployment.platform attempt notBefore error (some topic) failedAt := by
  unfold buildHeaders
  apply utcnow_read.bind
  intro failedAt last same
  exact Returns.ret ⟨same, failedAt, rfl⟩

/-- A row is read with its trail when nothing fails in between. -/
theorem getOrder_alone {id : Uuid}
    (selects : ∀ op, op = .selectOrder id ∨ op = .selectTransitions id →
      (∀ value, allows op (.ok value)) ∧ ¬ allows op (.lost .unavailable) ∧
        ∀ error, ¬ allows op (.late error)) :
    Returns (perform deployment 0) allows (Repository.getOrder id) world fun found last =>
      last = world ∧ found = (world.orders id).map fun row => ⟨row, world.transitions id⟩ := by
  unfold Repository.getOrder
  obtain ⟨heard, reached, punctual⟩ := selects _ (.inl rfl)
  apply (answers_alone heard reached punctual fun oracle => rfl).bind
  intro found middle answered
  obtain ⟨rfl, rfl⟩ := answered
  cases middle.orders id with
  | none => exact Returns.ret ⟨rfl, rfl⟩
  | some row =>
    obtain ⟨heard, reached, punctual⟩ := selects _ (.inr rfl)
    apply (answers_alone heard reached punctual fun oracle => rfl).bind
    intro trail last answered
    obtain ⟨rfl, rfl⟩ := answered
    exact Returns.ret ⟨rfl, rfl⟩

/-- A flush of values no column takes is refused. -/
theorem flush_refused {writes : List Write} (unfit : writes.all Write.fits = false) :
    Raises (perform deployment 0) Responsive (await (.flush writes)) world
      fun error last => error = .rejected ∧ last = world := by
  have answers : ∀ oracle, answer deployment 0 (.flush writes) world oracle =
      some (.error .rejected, world) := by
    intro oracle
    simp [answer, unfit]
  apply Yields.operation
  · refine ⟨.normal {}, .lost .rejected, world, ?_, ?_⟩
    · simp only [perform, answers]
    · constructor
      · intro same
        cases same
      · intro error same
        cases same
  · intro fate outcome last performed permitted
    cases fate with
    | normal oracle =>
      simp only [perform, answers] at performed
      cases performed
      exact ⟨_, rfl, rfl, rfl⟩
    | lost =>
      cases performed
      exact (permitted.1 rfl).elim
    | late oracle =>
      simp only [perform, answers] at performed
      split at performed <;> cases performed

theorem flush_taken {writes : List Write} (fit : writes.all Write.fits = true) :
    Returns (perform deployment 0) Responsive (await (.flush writes)) world
      fun hop last => hop = world.nextTransition ∧
        last = { world with nextTransition := world.nextTransition + 1 } := by
  apply responds
  intro oracle
  simp [answer, fit]

/-- A session that returned has committed what its body wrote, whatever may fail. -/
theorem session_committed {Value : Type} {body : Prog (Value × List Write)} {value : Value}
    (run : Alone (perform deployment 0) allows (sessionScope body) world (.ok value) after) :
    ∃ writes middle, Alone (perform deployment 0) allows body world (.ok (value, writes)) middle ∧
      after = middle.write writes := by
  unfold sessionScope at run
  obtain ⟨_, run, same⟩ | ⟨_, middle, _, run⟩ := alone_tryCatch.mp run
  · cases same
    obtain ⟨⟨_, writes⟩, middle, wrote, run⟩ | ⟨_, _, same⟩ := alone_bind.mp run
    · obtain ⟨_, last, committed, ended⟩ | ⟨_, _, same⟩ := alone_bind.mp run
      · obtain ⟨same, rfl⟩ := alone_ret.mp ended
        cases same
        obtain ⟨fate, outcome, performed, _, heard⟩ := alone_perform.mp committed
        rcases perform_commit performed with ⟨_, rfl, _⟩ | ⟨_, written⟩
        · cases heard
        · exact ⟨writes, middle, wrote, written⟩
      · cases same
    · cases same
  · obtain ⟨_, last, _, ended⟩ | ⟨_, _, same⟩ := alone_bind.mp run
    · cases ended
    · cases same

/-- A session whose body returns is committed. -/
theorem session_commits {Value : Type} {body : Prog (Value × List Write)}
    {goal : Value × List Write → World → Prop}
    (returns : Returns (perform deployment 0) Responsive body world goal) :
    Returns (perform deployment 0) Responsive (sessionScope body) world
      fun value last => ∃ writes middle, goal (value, writes) middle ∧ last = middle.write writes := by
  unfold sessionScope
  apply Returns.tryCatch
  apply returns.bind
  intro written middle held
  obtain ⟨value, writes⟩ := written
  refine Returns.bind (responds fun oracle => rfl) ?_
  intro _ last answered
  obtain ⟨_, rfl⟩ := answered
  exact Returns.ret ⟨writes, middle, held, rfl⟩

/-- A session whose body raises is rolled back, and the error goes on. -/
theorem session_rolls_back {Value : Type} {body : Prog (Value × List Write)}
    {goal : Exn → World → Prop}
    (raises : Raises (perform deployment 0) Responsive body world goal) :
    Raises (perform deployment 0) Responsive (sessionScope body) world goal := by
  unfold sessionScope
  apply (Raises.bind raises).tryCatch
  intro error middle held
  refine Returns.bind (responds fun oracle => rfl) ?_
  intro _ last answered
  obtain ⟨_, rfl⟩ := answered
  exact Yields.raise ⟨error, rfl, held⟩

theorem incrStat_counts (field : String) :
    Returns (perform deployment 0) Responsive (incrStat field) world
      fun _ last => ∃ stats, last = { world with stats } := by
  unfold incrStat
  apply Returns.tryCatch
  apply (responds fun oracle => rfl).mono
  intro _ last answered
  exact ⟨_, answered.2⟩

end OrderFlow
