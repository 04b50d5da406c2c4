import OrderFlow.Runs.Terminal

/-!
The guard keeps deliveries apart. While no key expires under a running call, a
delivery that has not given its guard up still has its token in the key, so two
deliveries of one event never work at the same time.
-/
namespace OrderFlow
open AsyncCoroutine AsyncPool

variable {deployment : Deployment} {allows : Pipeline → Moment → Prop} {pool after : Pipeline}
  {thread : Nat} {op : Op} {outcome : Outcome Exn op.Reply}

/-- The phases before the guard is completed or released. -/
def Phase.guarded : Phase → Bool
  | .buried => false
  | .closed _ => false
  | .aborting => false
  | _ => true

theorem Phase.Progress.guarded {delivery : Delivery deployment} {token : String}
    {before later : Phase} (moved : Phase.Progress delivery token before op outcome later)
    (holds : later.guarded = true) : before.guarded = true := by
  cases moved with
  | stays => exact holds
  | tombs | buries | ends | completes | releases | seals | aborts => cases holds
  | _ => rfl

/-- A guard key does not expire while the call of `handle` that acquired it is running. -/
def GuardsOutlive (deployment : Deployment) (pool : Pipeline) (label : Moment) : Prop :=
  ∀ eventId, label = .event (.expire (.eventGuard eventId)) →
    ∀ thread delivery token phase,
    stage deployment pool thread = .holding delivery token phase →
    pool.world.redis (.eventGuard eventId) ≠ some token

/-- Events come from submissions only, and no guard key expires under the call
    of `handle` that acquired it. -/
def GuardedRuns (deployment : Deployment) (pool : Pipeline) (label : Moment) : Prop :=
  (∀ tp record, label ≠ .event (.produce tp record)) ∧ GuardsOutlive deployment pool label

def Guarded (deployment : Deployment) (pool : Pipeline) : Prop :=
  ∀ thread delivery token phase, stage deployment pool thread = .holding delivery token phase →
    phase.guarded = true → pool.world.redis delivery.guard = some token

/-- What one thread does leaves the tokens of the others where they are. -/
theorem GuardChange.keeps {eventId : String} {other : Nat} {delivery : Delivery deployment}
    {token : String} (change : GuardChange deployment pool after thread eventId)
    (reached : Reachable (system deployment) allows World.empty pool) (differ : other ≠ thread)
    (carries : (stage deployment pool other).carries = some (delivery, token))
    (held : pool.world.redis (.eventGuard eventId) = some token) :
    after.world.redis (.eventGuard eventId) = some token := by
  have owner : ∀ {second : Delivery deployment} {phase : Phase},
      stage deployment pool thread ≠ .holding second token phase := by
    intro second phase standing
    exact differ (token_owner reached carries (by rw [standing]; rfl))
  cases change with
  | same redis => exact redis ▸ held
  | claimed second mine _ _ _ _ free _ =>
    rw [held] at free
    cases free
  | completed second mine phase verdict _ _ before _ owned _ =>
    rw [held] at owned
    cases owned
    exact (owner before).elim
  | released second mine phase _ before _ owned _ =>
    rw [held] at owned
    cases owned
    exact (owner before).elim

/-- A delivery that goes on with its guard has not touched the key. -/
theorem GuardChange.own {eventId : String} {delivery : Delivery deployment} {token : String}
    {first phase : Phase} (change : GuardChange deployment pool after thread eventId)
    (before : stage deployment pool thread = .holding delivery token first)
    (standing : stage deployment after thread = .holding delivery token phase)
    (holds : phase.guarded = true) :
    after.world.redis (.eventGuard eventId) = pool.world.redis (.eventGuard eventId) := by
  cases change with
  | same redis => exact redis
  | claimed _ _ _ _ claiming _ _ _ =>
    rw [before] at claiming
    cases claiming
  | completed second mine done verdict _ _ _ later _ _ =>
    rw [standing] at later
    rcases later with same | ⟨same, _⟩
    · cases same
      split at holds <;> cases holds
    · cases same
      cases holds
  | released second mine done _ _ later _ _ =>
    rw [standing] at later
    rcases later with same | same | same
    · cases same
    · cases same
      cases holds
    · cases same
      cases holds

theorem guarded (outlive : ∀ pool label, allows pool label → GuardsOutlive deployment pool label)
    (reached : Reachable (system deployment) allows World.empty pool) :
    Guarded deployment pool := by
  refine run_invariant ?_ ?_ ?_ ?_ reached
  · rintro thread delivery token phase ⟨⟩
  · intro pool after thread op outcome reached known _ act other delivery token phase standing holds
    have change := guard_change act delivery.event.eventId
    by_cases same : other = thread
    · subst same
      rcases act.progress.holding standing with ⟨first, before, moved⟩ | ⟨_, wins, _⟩
      · rw [Delivery.guard, change.own before standing holds]
        exact known other delivery token first before (moved.guarded holds)
      · exact (act.wins wins).2
    · rw [act.others other same] at standing
      exact change.keeps reached same (by rw [standing]; rfl)
        (known other delivery token phase standing holds)
  · intro pool after label thread _ known _ turn other delivery token phase standing holds
    rw [turn.world]
    by_cases same : other = thread
    · subst same
      exact (begins_holding turn.begins standing).elim
    · rw [turn.others other same] at standing
      exact known other delivery token phase standing holds
  · intro pool after event _ known permitted happening other delivery token phase standing holds
    rw [happening.stages other] at standing
    have held := known other delivery token phase standing holds
    rcases happen_redis happening.happened delivery.guard with same | ⟨rfl, _⟩
    · exact same ▸ held
    · exact (outlive _ _ permitted _ rfl other delivery token phase standing held).elim

/-- Of the deliveries of one event, one at most has its guard. -/
theorem guard_exclusive
    (outlive : ∀ pool label, allows pool label → GuardsOutlive deployment pool label)
    (reached : Reachable (system deployment) allows World.empty pool) {other : Nat}
    {delivery second : Delivery deployment} {token mine : String} {phase stands : Phase}
    (first : stage deployment pool thread = .holding delivery token phase)
    (holds : phase.guarded = true)
    (also : stage deployment pool other = .holding second mine stands)
    (holdsToo : stands.guarded = true) (same : delivery.guard = second.guard) : thread = other := by
  have held := guarded outlive reached thread delivery token phase first holds
  have heldToo := guarded outlive reached other second mine stands also holdsToo
  rw [same, heldToo] at held
  cases held
  exact token_owner reached (by rw [first]; rfl) (by rw [also]; rfl)

theorem deciding_guarded {phase : Phase} (decides : phase.deciding = true) :
    phase.guarded = true := by
  cases phase with
  | read | towards => rfl
  | moved => rfl
  | _ => cases decides

/-- Only a delivery that read the order commits an update of it. -/
theorem commits_update {stage : Stage deployment} {writes : List Write} {id : Uuid}
    {changes : OrderChanges} (permitted : stage.allowed deployment (.commit writes))
    (member : Write.updateOrder id changes ∈ writes) :
    ∃ delivery token aim reason row, stage = .holding delivery token (.read aim reason row) ∧
      id = row.id := by
  cases stage with
  | submitting submission =>
    cases submission with
    | drawn payload key drawn =>
      obtain ⟨hop, rfl⟩ := permitted
      simp [Repository.createWrites] at member
    | _ => exact permitted.elim
  | holding delivery token phase =>
    cases phase with
    | read aim reason row =>
      obtain ⟨note, hop, rfl⟩ := permitted
      simp only [Repository.transitionWrites, List.mem_cons, Write.updateOrder.injEq, reduceCtorEq,
        List.not_mem_nil, or_self, or_false] at member
      exact ⟨delivery, token, aim, reason, row, rfl, member.1⟩
    | absent =>
      obtain rfl := permitted
      cases member
    | closed verdict =>
      obtain rfl := permitted
      cases member
    | moved aim reason | towards aim reason | sent aim => cases aim <;> exact permitted.elim
    | _ => exact permitted.elim
  | archiving record =>
    obtain rfl := permitted
    simp at member
  | _ => exact permitted.elim

/-- Where the guard keeps deliveries apart, terminal commits are made alone. -/
theorem commits_alone (closed : Closed allows)
    (outlive : ∀ pool label, allows pool label → GuardsOutlive deployment pool label)
    (reached : Reachable (system deployment) allows World.empty pool) :
    Reachable (system deployment) (TerminalCommitsAlone deployment) World.empty pool := by
  refine reached.mono ?_
  intro pool label after reached permitted moved
  rintro thread writes outcome id changes status rfl member _ _ other differ
    ⟨second, mine, stands, also, decides, rfl⟩
  rcases step_cases reached moved with ⟨actor, op, heard, same, act⟩ | ⟨actor, turn⟩ |
    ⟨event, same, _⟩
  · cases same
    obtain ⟨delivery, token, aim, reason, row, reading, same⟩ := commits_update act.permitted member
    have named := (sighted reached thread delivery token _ reading).named aim reason row rfl
    obtain ⟨_, publisher, published⟩ := delivery_event thread delivery closed reached (by rw [reading]; rfl) (by rw [reading]; rfl)
    obtain ⟨_, publisher', published'⟩ := delivery_event other second closed reached (by rw [also]; rfl) (by rw [also]; rfl)
    have event : delivery.event = second.event :=
      one_event reached published published' (.inl (named.symm.trans same.symm))
    refine differ (guard_exclusive outlive reached reading rfl also (deciding_guarded decides) ?_).symm
    rw [Delivery.guard, Delivery.guard, event]
  · rcases turn.own with ⟨_, same, _⟩ | ⟨_, same, _⟩ | ⟨same, _⟩ <;> cases same
  · cases same

end OrderFlow
