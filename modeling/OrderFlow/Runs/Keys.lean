import OrderFlow.Runs.Submissions

/-!
Idempotency keys. While no lookup of a key falls between another call's miss and
its write of the key, the calls with the key have one leader: before the key is
set all others are still to look it up, and after that they find the leader's
order.
-/
namespace OrderFlow
open AsyncCoroutine AsyncPool

variable {deployment : Deployment} {allows : Pipeline → Moment → Prop} {pool after : Pipeline}
  {thread : Nat} {op : Op} {outcome : Outcome Exn op.Reply} {key : String}

namespace Submission

/-- The submission is of a call with this payload and usable key. -/
def Of (payload : OrderCreate) (key : Option String) : Submission → Prop
  | .asking given text => given = payload ∧ some text = key
  | .resolving given text _ => given = payload ∧ some text = key
  | .missed given text => given = payload ∧ text = key
  | .drawn given text _ => given = payload ∧ text = key
  | .created given text _ => given = payload ∧ some text = key
  | .reserved given text _ => given = payload ∧ text = key
  | .named given text _ _ => given = payload ∧ text = key
  | .stamped given text _ _ _ => given = payload ∧ text = key
  | .published given text _ _ _ => given = payload ∧ text = key
  | .found _ | .broken => True

/-- Past the miss of the key, the key not yet set. -/
def leads (key : String) : Submission → Bool
  | .missed _ text => text = some key
  | .drawn _ text _ => text = some key
  | .created _ text _ => text = key
  | _ => false

def asks : Submission → Bool
  | .asking _ _ => true
  | _ => false

/-- On its way to the order that is under the key. -/
def Follows (id : Uuid) : Submission → Prop
  | .asking _ _ => True
  | .resolving _ _ read => read = id
  | .found row => row.id = id
  | _ => False

/-- The key is set to the submission's own order. -/
def Settled (id : Uuid) : Submission → Prop
  | .reserved _ _ own => own = id
  | .named _ _ own _ => own = id
  | .stamped _ _ own _ _ => own = id
  | .published _ _ own _ _ => own = id
  | _ => False

variable {before later : Submission}

theorem Progress.of (moved : before.Progress deployment op outcome later) {payload : OrderCreate}
    {key : Option String} (same : before.Of payload key) : later.Of payload key := by
  cases moved with
  | inserts _ given => cases given <;> exact same
  | finds | reads | breaks => trivial
  | _ => exact same

end Submission

theorem Submission.Of.leading {submission : Submission} {payload : OrderCreate}
    {given : Option String} (same : submission.Of payload given)
    (leads : submission.leads key = true) : given = some key := by
  cases submission with
  | missed | drawn =>
    simp only [Submission.leads, decide_eq_true_eq] at leads
    rw [← same.2, leads]
  | created =>
    simp only [Submission.leads, decide_eq_true_eq] at leads
    rw [← same.2, leads]
  | _ => cases leads

/-- A call of `submit_order` with this key was made on this thread. -/
def Asked (pool : Pipeline) (thread : Nat) (key : String) : Prop :=
  ∃ payload, Label.start thread (.submitOrder payload (some key)) ∈ pool.trace

/-- A submission's stage is of the call its thread was started with. -/
theorem submission_started (reached : Reachable (system deployment) allows World.empty pool) :
    ∀ thread submission, stage deployment pool thread = .submitting submission →
      ∃ payload key, Label.start thread (.submitOrder payload key) ∈ pool.trace ∧
        submission.Of payload (Service.usableKey key) := by
  refine run_invariant (P := fun pool => ∀ thread submission,
    stage deployment pool thread = .submitting submission →
      ∃ payload key, Label.start thread (.submitOrder payload key) ∈ pool.trace ∧
        submission.Of payload (Service.usableKey key)) ?_ ?_ ?_ ?_ reached
  · rintro thread submission ⟨⟩
  · intro pool after thread op outcome _ known _ act other submission standing
    rw [act.trace]
    by_cases same : other = thread
    · subst same
      obtain ⟨first, before, moved⟩ := act.progress.submission standing
      obtain ⟨payload, key, started, facts⟩ := known other first before
      exact ⟨payload, key, List.mem_cons_of_mem _ started, moved.of facts⟩
    · rw [act.others other same] at standing
      obtain ⟨payload, key, started, facts⟩ := known other submission standing
      exact ⟨payload, key, List.mem_cons_of_mem _ started, facts⟩
  · intro pool after label thread _ known _ turn other submission standing
    rw [turn.trace]
    by_cases same : other = thread
    · subst same
      rcases turn.own with ⟨call, rfl, _, _, own⟩ | ⟨_, _, _, own⟩ | ⟨_, own⟩
      · rw [own] at standing
        cases call with
        | submitOrder payload key =>
          refine ⟨payload, key, List.mem_cons_self .., ?_⟩
          simp only [Stage.monitor] at standing
          cases usable : Service.usableKey key with
          | none =>
            rw [usable] at standing
            cases standing
            exact ⟨rfl, rfl⟩
          | some text =>
            rw [usable] at standing
            cases standing
            exact ⟨rfl, rfl⟩
        | _ => cases standing
      · rw [own] at standing
        cases standing
      · rw [own] at standing
        cases standing
    · rw [turn.others other same] at standing
      obtain ⟨payload, key, started, facts⟩ := known other submission standing
      exact ⟨payload, key, List.mem_cons_of_mem _ started, facts⟩
  · intro pool after event _ known _ happening other submission standing
    rw [happening.stages other] at standing
    obtain ⟨payload, key, started, facts⟩ := known other submission standing
    exact ⟨payload, key, by rw [happening.trace]; exact List.mem_cons_of_mem _ started, facts⟩

theorem usableKey_some {given : Option String} (same : some key = Service.usableKey given) :
    given = some key ∧ key ≠ "" := by
  unfold Service.usableKey at same
  split at same
  · split at same
    · cases same
    · rename_i text usable
      cases same
      exact ⟨rfl, usable⟩
  · cases same

/-- Only a call with the key comes to write it. -/
theorem asked_of_created (reached : Reachable (system deployment) allows World.empty pool)
    {payload : OrderCreate} {id : Uuid}
    (standing : stage deployment pool thread = .submitting (.created payload key id)) :
    Asked pool thread key := by
  obtain ⟨made, given, started, _, same⟩ := submission_started reached thread _ standing
  obtain ⟨rfl, _⟩ := usableKey_some same
  exact ⟨made, started⟩

/-- SET NX and the two scripts are used on guard keys only. -/
theorem permitted_guard {stage : Stage deployment} {written : Key}
    (permitted : stage.allowed deployment op)
    (touches : (∃ text ttl, op = .setNx written text ttl) ∨
      (∃ text ttl, op = .evalComplete written text ttl) ∨ ∃ text, op = .evalRelease written text) :
    ∃ eventId, written = .eventGuard eventId := by
  cases stage with
  | submitting submission =>
    rcases touches with ⟨_, _, rfl⟩ | ⟨_, _, rfl⟩ | ⟨_, rfl⟩ <;> cases submission <;>
      exact permitted.elim
  | claiming delivery token taken =>
    rcases touches with ⟨_, _, rfl⟩ | ⟨_, _, rfl⟩ | ⟨_, rfl⟩
    · exact ⟨_, permitted.1⟩
    · exact permitted.elim
    · exact permitted.elim
  | holding delivery token phase =>
    cases phase with
    | moved aim reason | towards aim reason | sent aim =>
      rcases touches with ⟨_, _, rfl⟩ | ⟨_, _, rfl⟩ | ⟨_, rfl⟩ <;> cases aim <;>
        first | exact permitted.elim | exact ⟨_, permitted.1⟩
    | _ =>
      rcases touches with ⟨_, _, rfl⟩ | ⟨_, _, rfl⟩ | ⟨_, rfl⟩ <;>
        first | exact permitted.elim | exact ⟨_, permitted.1⟩
  | _ => rcases touches with ⟨_, _, rfl⟩ | ⟨_, _, rfl⟩ | ⟨_, rfl⟩ <;> exact permitted.elim

theorem permitted_delete {stage : Stage deployment} {written : Key}
    (permitted : stage.allowed deployment (.delete written)) : ∃ orderId, written = .order orderId := by
  cases stage with
  | submitting submission => cases submission <;> exact permitted.elim
  | reading => exact permitted
  | holding delivery token phase =>
    cases phase with
    | moved aim reason | towards aim reason | sent aim => cases aim <;> exact permitted.elim
    | _ => exact permitted.elim
  | _ => exact permitted.elim

/-- Who changes an idempotency key, and to what. -/
theorem api_key_change (act : Acts deployment pool after thread op outcome) (key : String) :
    after.world.redis (.apiIdempotency key) = pool.world.redis (.apiIdempotency key) ∨
      ∃ payload id, stage deployment pool thread = .submitting (.created payload key id) ∧
        after.world.redis (.apiIdempotency key) = some id.str := by
  obtain ⟨fate, performed⟩ := act.performed
  have permitted := act.permitted
  have elsewhere : ∀ {written : Key} {value : Option String}, written ≠ .apiIdempotency key →
      after.world = pool.world.setRedis written value →
      after.world.redis (.apiIdempotency key) = pool.world.redis (.apiIdempotency key) := by
    intro written value differ world
    rw [world]
    simp [World.setRedis, Function.update_of_ne differ.symm]
  have guards : ∀ {written : Key}, (∃ eventId, written = .eventGuard eventId) →
      written ≠ .apiIdempotency key := by
    rintro written ⟨eventId, rfl⟩ ⟨⟩
  cases op with
  | set written text ttl =>
    rcases perform_set performed with ⟨_, _, same⟩ | ⟨_, world⟩
    · exact .inl (by rw [same])
    · by_cases mine : written = .apiIdempotency key
      · subst mine
        cases before : stage deployment pool thread with
        | submitting submission =>
          rw [before] at permitted
          cases submission with
          | created payload own id =>
            obtain ⟨same, rfl⟩ := permitted
            cases same
            exact .inr ⟨payload, id, rfl, by rw [world]; simp [World.setRedis]⟩
          | _ => exact permitted.elim
        | reading =>
          rw [before] at permitted
          obtain ⟨orderId, ⟨⟩⟩ := permitted
        | holding delivery token phase =>
          rw [before] at permitted
          cases phase with
          | moved aim reason | towards aim reason | sent aim => cases aim <;> exact permitted.elim
          | _ => exact permitted.elim
        | _ =>
          rw [before] at permitted
          exact permitted.elim
      · exact .inl (elsewhere mine world)
  | setNx written text ttl =>
    rcases perform_setNx performed with ⟨_, _, same⟩ | ⟨_, _, world⟩ | ⟨_, _, same⟩
    · exact .inl (by rw [same])
    · exact .inl (elsewhere (guards (permitted_guard permitted (.inl ⟨_, _, rfl⟩))) world)
    · exact .inl (by rw [same])
  | delete written =>
    rcases perform_delete performed with ⟨_, _, same⟩ | ⟨_, world⟩
    · exact .inl (by rw [same])
    · refine .inl (elsewhere ?_ world)
      obtain ⟨orderId, rfl⟩ := permitted_delete permitted
      rintro ⟨⟩
  | evalComplete written text ttl =>
    rcases perform_evalComplete performed with ⟨_, _, same⟩ | ⟨_, _, world⟩ | ⟨_, _, same⟩
    · exact .inl (by rw [same])
    · exact .inl (elsewhere (guards (permitted_guard permitted (.inr (.inl ⟨_, _, rfl⟩)))) world)
    · exact .inl (by rw [same])
  | evalRelease written text =>
    rcases perform_evalRelease performed with ⟨_, _, same⟩ | ⟨_, _, world⟩ | ⟨_, _, same⟩
    · exact .inl (by rw [same])
    · exact .inl (elsewhere (guards (permitted_guard permitted (.inr (.inr ⟨_, rfl⟩)))) world)
    · exact .inl (by rw [same])
  | _ => exact .inl (congrFun (perform_redis performed rfl) _)

/-- Postgres takes the row of a payload whose amount fits its column. -/
theorem createWrites_fit (payload : OrderCreate) (id : Uuid) (hop : Nat)
    (fits : payload.amountCents < 2 ^ 63) :
    (Repository.createWrites (Repository.newRow payload id) hop).all Write.fits = true := by
  have customer := payload.customerId_bounds
  have sku := payload.sku_bounds
  have quantity := payload.quantity_bounds
  have amount := payload.amountCents_bound
  simp only [Repository.createWrites, Repository.newRow, List.all_cons, List.all_nil, Write.fits,
    int32, int64, Bool.and_true, Bool.and_eq_true, decide_eq_true_eq]
  omega

/-- A submission raises because a store failed it, or Postgres rejected its row. -/
theorem submission_failure (act : Acts deployment pool after thread op outcome)
    {submission : Submission} (standing : stage deployment pool thread = .submitting submission)
    (failed : ∀ value, outcome ≠ .ok value) : outcome.reply = .error .unavailable ∨
      ∃ payload key id, submission = .drawn payload key id ∧
        (Repository.createWrites (Repository.newRow payload id) 0).all Write.fits = false := by
  obtain ⟨fate, performed⟩ := act.performed
  have permitted := act.permitted
  rw [standing] at permitted
  generalize after.world = left at performed
  cases fate with
  | lost =>
    simp only [perform] at performed
    split at performed
    · cases performed
    · cases performed
      exact .inl rfl
  | late oracle =>
    simp only [perform] at performed
    split at performed
    · cases performed
    · split at performed
      · cases performed
        exact .inl rfl
      · cases performed
  | normal oracle =>
    simp only [perform] at performed
    split at performed
    · rename_i value next answered
      cases performed
      exact (failed _ rfl).elim
    · rename_i error next answered
      cases op with
      | flush writes =>
        cases submission with
        | drawn payload key id =>
          obtain rfl := permitted
          simp only [answer] at answered
          split at answered
          · cases answered
          · rename_i rejected
            exact .inr ⟨payload, key, id, rfl, Bool.eq_false_iff.mpr rejected⟩
        | _ => exact permitted.elim
      | setNx | evalComplete | evalRelease | send | uuid4 | time | uniform | sleep =>
        simp only [answer] at answered
        split at answered <;> cases answered
      | getmany | seek | fulfil => cases submission <;> exact permitted.elim
      | _ => cases answered
    · cases performed

end OrderFlow
