import OrderFlow.Frame

/-!
Contests for the guard. Calls of `claim`, `complete` and `release` run as threads
over Redis, any number of them on any events; how far a call has come is read off
the commands it has awaited.
-/
namespace OrderFlow
open AsyncCoroutine AsyncPool

inductive GuardCall where
  | claim (eventId : String)
  | complete (claim : Claim)
  | release (claim : Claim)

inductive GuardResult where
  | claimed (claim : Claim)
  | changed (made : Bool)

def GuardCall.program (settings : Settings) : GuardCall → Prog GuardResult
  | .claim eventId => GuardResult.claimed <$> IdempotencyGuard.claim settings eventId
  | .complete held => GuardResult.changed <$> IdempotencyGuard.complete settings held
  | .release held => GuardResult.changed <$> IdempotencyGuard.release held

def guardSystem (deployment : Deployment) :
    System Op Op.Reply Exn World GuardCall GuardResult Event Fate where
  perform := perform deployment
  event := happen deployment
  program := GuardCall.program deployment.settings
  again _ _ := none

abbrev Callers := Pool Op Op.Reply Exn World GuardCall GuardResult Event
abbrev GuardMoment := Label Op Op.Reply Exn GuardCall Event

/-- How far a call has come: a claim tries to set its token, looks what is there when
    it could not, and tries once again when nothing was. -/
inductive Contest where
  | idle
  | asked (eventId : String)
  | tries (eventId token : String) (again : Bool)
  | looks (eventId token : String) (again : Bool)
  | claimed (claim : Claim)
  | completing (claim : Claim)
  | releasing (claim : Claim)
  | changed (made : Bool)
  | raised

namespace Contest

inductive Awaits : Contest → Op → Prop where
  | draws (eventId : String) : Awaits (.asked eventId) .uuid4
  | tries (eventId token : String) (again : Bool) (ttl : Nat) :
      Awaits (.tries eventId token again) (.setNx (.eventGuard eventId) token ttl)
  | looks (eventId token : String) (again : Bool) :
      Awaits (.looks eventId token again) (.get (.eventGuard eventId))
  | completes (claim : Claim) (ttl : Nat) :
      Awaits (.completing claim) (.evalComplete claim.key claim.token ttl)
  | releases (claim : Claim) : Awaits (.releasing claim) (.evalRelease claim.key claim.token)

def next : Contest → (op : Op) → Outcome Exn op.Reply → Contest
  | .asked eventId, .uuid4, .ok id => .tries eventId id.hex false
  | .tries eventId token again, .setNx _ _ _, .ok won =>
      if won then .claimed ⟨.acquired, .eventGuard eventId, token⟩
      else .looks eventId token again
  | .looks eventId token again, .get _, .ok current =>
      if current = none ∧ again = false then .tries eventId token true
      else .claimed (IdempotencyGuard.verdict (.eventGuard eventId) token current)
  | .completing _, .evalComplete _ _ _, .ok made => .changed made
  | .releasing _, .evalRelease _ _, .ok made => .changed made
  | _, _, _ => .raised

def monitor : Monitor Op Op.Reply Exn GuardCall Contest where
  allowed := Awaits
  next := next
  idle := .idle
  born
    | .claim eventId => .asked eventId
    | .complete claim => .completing claim
    | .release claim => .releasing claim

/-- How a call ends. -/
def goal : Except Exn GuardResult → Contest → Prop
  | .ok (.claimed claim), left => left = .claimed claim
  | .ok (.changed made), left => left = .changed made
  | .error _, left => left = .raised

theorem claim_follows (settings : Settings) (eventId : String) :
    monitor.Follows (IdempotencyGuard.claim settings eventId)
      (fun result left => goal (result.map GuardResult.claimed) left) (.asked eventId) := by
  refine .perform_bind (.draws eventId) (fun id => ?_) (fun _ => rfl) fun _ => rfl
  refine .perform_bind (.tries ..) (fun won => ?_) (fun _ => rfl) fun _ => rfl
  cases won with
  | true => exact rfl
  | false =>
    refine .perform_bind (.looks ..) (fun current => ?_) (fun _ => rfl) fun _ => rfl
    cases current with
    | some held => exact rfl
    | none =>
      refine .perform_bind (.tries ..) (fun won => ?_) (fun _ => rfl) fun _ => rfl
      cases won with
      | true => exact rfl
      | false =>
        refine .perform_bind (.looks ..) (fun current => ?_) (fun _ => rfl) fun _ => rfl
        cases current with
        | some held => exact rfl
        | none => exact rfl

theorem follows (settings : Settings) (call : GuardCall) :
    monitor.Follows (call.program settings) goal (monitor.born call) := by
  cases call with
  | claim eventId =>
    refine (claim_follows settings eventId).bind ?_ ?_
    · intro claim left ended
      exact ended
    · intro error left ended
      exact ended
  | complete claim =>
    refine .perform_bind ?_ (fun _ => rfl) (fun _ => rfl) fun _ => rfl
    exact .completes claim _
  | release claim =>
    refine .perform_bind ?_ (fun _ => rfl) (fun _ => rfl) fun _ => rfl
    exact .releases claim

/-- The contest is one of this call. -/
def Within : GuardCall → Contest → Prop
  | .claim eventId, .asked other => other = eventId
  | .claim eventId, .tries other _ _ => other = eventId
  | .claim eventId, .looks other _ _ => other = eventId
  | .claim eventId, .claimed held => held.key = .eventGuard eventId
  | .complete held, .completing other => other = held
  | .complete _, .changed _ => True
  | .release held, .releasing other => other = held
  | .release _, .changed _ => True
  | _, .raised => True
  | _, _ => False

theorem verdict_key (key : Key) (token : String) (current : Option String) :
    (IdempotencyGuard.verdict key token current).key = key := by
  unfold IdempotencyGuard.verdict
  split
  · rfl
  · rfl

theorem within_born (call : GuardCall) : Within call (monitor.born call) := by
  cases call <;> exact rfl

theorem within_next (call : GuardCall) (contest : Contest) (op : Op)
    (outcome : Outcome Exn op.Reply) (within : Within call contest) (awaits : Awaits contest op) :
    Within call (contest.next op outcome) := by
  cases awaits with
  | draws eventId =>
    cases outcome with
    | ok id => cases call <;> exact within
    | _ => cases call <;> trivial
  | tries eventId token again ttl =>
    cases outcome with
    | ok won =>
      cases won with
      | false => cases call <;> exact within
      | true =>
        cases call with
        | claim other => exact congrArg Key.eventGuard within
        | _ => exact within.elim
    | _ => cases call <;> trivial
  | looks eventId token again =>
    cases outcome with
    | ok current =>
      have read : next (.looks eventId token again) (.get (.eventGuard eventId)) (.ok current) =
          if current = none ∧ again = false then .tries eventId token true
          else .claimed (IdempotencyGuard.verdict (.eventGuard eventId) token current) := rfl
      rw [read]
      split
      · cases call <;> exact within
      · cases call with
        | claim asked =>
          have same : eventId = asked := within
          subst same
          exact verdict_key ..
        | _ => exact within.elim
    | _ => cases call <;> trivial
  | completes claim ttl => cases outcome <;> cases call <;> trivial
  | releases claim => cases outcome <;> cases call <;> trivial

end Contest

/-- How far the call of a thread has come. -/
def contest (pool : Callers) (thread : Nat) : Contest := Contest.monitor.record pool.trace thread

variable {deployment : Deployment} {allows : Callers → GuardMoment → Prop} {first : World}
  {pool after : Callers} {thread : Nat} {label : GuardMoment} {eventId : String}

theorem within_call (reached : Reachable (guardSystem deployment) allows first pool) {call : GuardCall}
    {program : Prog GuardResult} (held : pool.threads thread = some ⟨call, program⟩) :
    Contest.Within call (contest pool thread) :=
  Contest.monitor.kept_of_held Contest.within_born Contest.within_next
    (Contest.follows deployment.settings) reached thread _ held

/-- No command fails, and nobody completes or releases a claim whose token reads `done`. -/
structure Calling (_ : Callers) (label : GuardMoment) : Prop where
  answers : ∀ thread op outcome, label = .did thread op outcome → ∃ value, outcome = .ok value
  tokens : ∀ thread claim, label = .start thread (.complete claim) ∨
    label = .start thread (.release claim) → claim.token ≠ done

/-- The key is swapped for the value when it holds the claim's token, and left alone else. -/
def Swapped (world later : World) (claim : Claim) (value : Option String) (made : Bool) : Prop :=
  (made = true ↔ world.redis claim.key = some claim.token) ∧
    later = if made then world.setRedis claim.key value else world

/-- What one command of a call does. -/
inductive CallMove (pool after : Callers) (thread : Nat) : GuardMoment → Prop where
  | draws (eventId : String) (id : Uuid) (before : contest pool thread = .asked eventId)
      (later : contest after thread = .tries eventId id.hex false)
      (fresh : id ∉ pool.world.issued)
      (world : after.world = { pool.world with issued := id :: pool.world.issued }) :
      CallMove pool after thread (.did thread .uuid4 (.ok id))
  | wins (eventId token : String) (again : Bool) (ttl : Nat)
      (before : contest pool thread = .tries eventId token again)
      (later : contest after thread = .claimed ⟨.acquired, .eventGuard eventId, token⟩)
      (free : pool.world.redis (.eventGuard eventId) = none)
      (world : after.world = pool.world.setRedis (.eventGuard eventId) (some token)) :
      CallMove pool after thread (.did thread (.setNx (.eventGuard eventId) token ttl) (.ok true))
  | loses (eventId token : String) (again : Bool) (ttl : Nat)
      (before : contest pool thread = .tries eventId token again)
      (later : contest after thread = .looks eventId token again)
      (taken : pool.world.redis (.eventGuard eventId) ≠ none) (world : after.world = pool.world) :
      CallMove pool after thread (.did thread (.setNx (.eventGuard eventId) token ttl) (.ok false))
  | misses (eventId token : String) (before : contest pool thread = .looks eventId token false)
      (later : contest after thread = .tries eventId token true)
      (gone : pool.world.redis (.eventGuard eventId) = none) (world : after.world = pool.world) :
      CallMove pool after thread (.did thread (.get (.eventGuard eventId)) (.ok none))
  | reads (eventId token : String) (again : Bool) (current : Option String)
      (before : contest pool thread = .looks eventId token again)
      (later : contest after thread =
        .claimed (IdempotencyGuard.verdict (.eventGuard eventId) token current))
      (held : pool.world.redis (.eventGuard eventId) = current)
      (settles : current ≠ none ∨ again = true) (world : after.world = pool.world) :
      CallMove pool after thread (.did thread (.get (.eventGuard eventId)) (.ok current))
  | completes (claim : Claim) (ttl : Nat) (made : Bool)
      (before : contest pool thread = .completing claim)
      (later : contest after thread = .changed made)
      (swapped : Swapped pool.world after.world claim (some done) made) :
      CallMove pool after thread (.did thread (.evalComplete claim.key claim.token ttl) (.ok made))
  | releases (claim : Claim) (made : Bool) (before : contest pool thread = .releasing claim)
      (later : contest after thread = .changed made)
      (swapped : Swapped pool.world after.world claim none made) :
      CallMove pool after thread (.did thread (.evalRelease claim.key claim.token) (.ok made))

theorem call_move (reached : Reachable (guardSystem deployment) allows first pool)
    {op : Op} {outcome : Outcome Exn op.Reply} (calling : Calling pool (.did thread op outcome))
    (moved : Step (guardSystem deployment) pool (.did thread op outcome) after) :
    CallMove pool after thread (.did thread op outcome) := by
  have own : contest after thread = (contest pool thread).next op outcome := by
    unfold contest
    rw [step_trace moved]
    exact Monitor.record_did_self ..
  obtain ⟨value, rfl⟩ := calling.answers thread op outcome rfl
  cases moved with
  | did _ call _ resume fate _ world awaiting performed =>
    have awaits : (contest pool thread).Awaits op :=
      Monitor.allowed_of_awaiting (Contest.follows deployment.settings) reached awaiting
    have performed : perform deployment thread op pool.world fate = some (.ok value, world) :=
      performed
    generalize before : contest pool thread = standing at awaits own
    cases awaits with
    | draws eventId =>
      obtain ⟨id, same, fresh, world⟩ := perform_uuid4 performed
      cases same
      exact .draws eventId value before own fresh world
    | tries eventId token again ttl =>
      rcases perform_setNx performed with ⟨_, lost, _⟩ | ⟨won | ⟨_, lost⟩, free, world⟩ |
        ⟨lost | ⟨_, lost⟩, taken, world⟩
      · cases lost
      · cases won
        exact .wins eventId token again ttl before own free world
      · cases lost
      · cases lost
        exact .loses eventId token again ttl before own taken world
      · cases lost
    | looks eventId token again =>
      obtain ⟨world, ⟨_, lost⟩ | held | ⟨_, lost⟩⟩ := perform_get performed
      · cases lost
      · cases held
        by_cases misses : pool.world.redis (.eventGuard eventId) = none ∧ again = false
        · obtain ⟨gone, rfl⟩ := misses
          rw [gone] at own ⊢
          exact .misses eventId token before own gone world
        · have read : contest _ thread = .claimed (IdempotencyGuard.verdict (.eventGuard eventId)
              token (pool.world.redis (.eventGuard eventId))) := own.trans (if_neg misses)
          refine .reads eventId token again _ before read rfl ?_ world
          cases again with
          | true => exact .inr rfl
          | false => exact .inl fun gone => misses ⟨gone, rfl⟩
      · cases lost
    | completes claim ttl =>
      rcases perform_evalComplete performed with ⟨_, lost, _⟩ | ⟨made | ⟨_, lost⟩, held, world⟩ |
        ⟨made | ⟨_, lost⟩, other, world⟩
      · cases lost
      · cases made
        exact .completes claim ttl true before own ⟨⟨fun _ => held, fun _ => rfl⟩, world⟩
      · cases lost
      · cases made
        refine .completes claim ttl false before own ⟨⟨fun made => ?_, fun held => ?_⟩, world⟩
        · cases made
        · exact (other held).elim
      · cases lost
    | releases claim =>
      rcases perform_evalRelease performed with ⟨_, lost, _⟩ | ⟨made | ⟨_, lost⟩, held, world⟩ |
        ⟨made | ⟨_, lost⟩, other, world⟩
      · cases lost
      · cases made
        exact .releases claim true before own ⟨⟨fun _ => held, fun _ => rfl⟩, world⟩
      · cases lost
      · cases made
        refine .releases claim false before own ⟨⟨fun made => ?_, fun held => ?_⟩, world⟩
        · cases made
        · exact (other held).elim
      · cases lost

/-- The claim call of this thread has won the event's guard with this token. -/
def Won (pool : Callers) (thread : Nat) (eventId token : String) : Prop :=
  pool.threads thread = some ⟨.claim eventId, .ret (.claimed ⟨.acquired, .eventGuard eventId, token⟩)⟩

/-! ### Calls and what they returned -/

theorem returned_stays (moved : Step (guardSystem deployment) pool label after) {call : GuardCall}
    {result : GuardResult} (reached : Reachable (guardSystem deployment) allows first pool)
    (returned : pool.threads thread = some ⟨call, .ret result⟩) :
    after.threads thread = some ⟨call, .ret result⟩ := by
  cases moved with
  | start actor _ unused =>
    have differ : thread ≠ actor := by
      intro same
      exact started_of_held reached thread _ returned (same ▸ unused)
    simp [Function.update_of_ne differ, returned]
  | did actor _ op resume fate outcome world awaiting performed =>
    have differ : thread ≠ actor := by
      intro same
      subst same
      cases returned.symm.trans awaiting
    simp [Function.update_of_ne differ, returned]
  | again actor _ next result ended loops => cases loops
  | crash actor running =>
    have differ : thread ≠ actor := by
      intro same
      subst same
      obtain ⟨current, held, suspended⟩ := running
      cases returned.symm.trans held
      exact suspended
    simp [Function.update_of_ne differ, returned]
  | event event world happened => exact returned

theorem caller_follows (reached : Reachable (guardSystem deployment) allows first pool)
    {call : GuardCall} {program : Prog GuardResult}
    (held : pool.threads thread = some ⟨call, program⟩) :
    Contest.monitor.Follows program Contest.goal (contest pool thread) :=
  Monitor.follows_of_reachable (Contest.follows deployment.settings) reached thread _ held

/-- A call that has returned left its result in the record of the thread. -/
theorem returned_contest (reached : Reachable (guardSystem deployment) allows first pool)
    {call : GuardCall} {result : GuardResult}
    (returned : pool.threads thread = some ⟨call, .ret result⟩) :
    Contest.goal (.ok result) (contest pool thread) :=
  caller_follows reached returned

/-- Where a thread stands in a call, it is there: at work, or returned. -/
theorem standing (reached : Reachable (guardSystem deployment) allows first pool)
    (stands : contest pool thread ≠ .idle) : ∃ running, pool.threads thread = some running ∧
      Contest.Within running.call (contest pool thread) ∧
      Contest.monitor.Follows running.program Contest.goal (contest pool thread) := by
  cases held : pool.threads thread with
  | none => exact (stands (Monitor.record_gone Contest.monitor reached thread held)).elim
  | some running =>
    exact ⟨running, rfl, within_call reached held, caller_follows reached held⟩

theorem claimed_returned (reached : Reachable (guardSystem deployment) allows first pool)
    {claim : Claim} (claimed : contest pool thread = .claimed claim) :
    ∃ eventId, claim.key = .eventGuard eventId ∧
      pool.threads thread = some ⟨.claim eventId, .ret (.claimed claim)⟩ := by
  obtain ⟨⟨call, program⟩, held, within, follows⟩ := standing reached (by rw [claimed]; simp)
  rw [claimed] at within follows
  cases call with
  | claim eventId =>
    refine ⟨eventId, within, ?_⟩
    cases program with
    | ret result =>
      cases result with
      | claimed other =>
        cases follows
        exact held
      | changed made => cases follows
    | raise error => cases follows
    | await op resume => cases follows.1
  | _ => exact within.elim

theorem changed_returned (reached : Reachable (guardSystem deployment) allows first pool)
    {call : GuardCall} {program : Prog GuardResult} {made : Bool}
    (held : pool.threads thread = some ⟨call, program⟩)
    (changed : contest pool thread = .changed made) : program = .ret (.changed made) := by
  have follows := caller_follows reached held
  rw [changed] at follows
  cases program with
  | ret result =>
    cases result with
    | claimed other => cases follows
    | changed other =>
      cases follows
      rfl
  | raise error => cases follows
  | await op resume => cases follows.1

/-- A call that still has a command to await is in flight. -/
theorem contending_in_flight (reached : Reachable (guardSystem deployment) allows first pool)
    {token : String} {again : Bool} (contends : contest pool thread = .tries eventId token again ∨
      contest pool thread = .looks eventId token again) : pool.InFlight thread := by
  have stands : contest pool thread ≠ .idle := by
    rcases contends with same | same <;> rw [same] <;> simp
  obtain ⟨⟨call, program⟩, held, _, follows⟩ := standing reached stands
  cases program with
  | await op resume => exact ⟨_, held, trivial⟩
  | ret result =>
    rcases contends with same | same <;> rw [same] at follows <;> cases result <;> cases follows
  | raise error => rcases contends with same | same <;> rw [same] at follows <;> cases follows

/-- Nobody else changes where a thread stands, but for a crash or a new call. -/
theorem contest_other (moved : Step (guardSystem deployment) pool label after)
    (others : ∀ op outcome, label ≠ .did thread op outcome) :
    contest after thread = contest pool thread ∨ contest after thread = .idle ∨
      ∃ call, contest after thread = Contest.monitor.born call := by
  unfold contest
  rw [step_trace moved]
  cases label with
  | did actor op outcome =>
    have differ : thread ≠ actor := by
      intro same
      exact others op outcome (same ▸ rfl)
    exact .inl (Monitor.record_did_other _ differ ..)
  | start actor call | again actor call =>
    by_cases same : thread = actor
    · exact .inr (.inr ⟨call, by simp [Monitor.record, same]⟩)
    · exact .inl (by simp [Monitor.record, same])
  | crash actor =>
    by_cases same : thread = actor
    · exact .inr (.inl (by simp [Monitor.record, same, Contest.monitor]))
    · exact .inl (by simp [Monitor.record, same])
  | event event => exact .inl rfl

/-! ### Tokens -/

def Contest.token : Contest → Option String
  | .tries _ token _ | .looks _ token _ => some token
  | .claimed claim => some claim.token
  | _ => none

/-- A claim has the token it had, or has just drawn one that nobody had. -/
theorem token_step (reached : Reachable (guardSystem deployment) allows first pool)
    (calling : Calling pool label) (moved : Step (guardSystem deployment) pool label after)
    {token : String} (carries : (contest after thread).token = some token) :
    (contest pool thread).token = some token ∨
      ∃ id, label = .did thread .uuid4 (.ok id) ∧ id ∉ pool.world.issued ∧ token = id.hex := by
  by_cases own : ∃ op outcome, label = .did thread op outcome
  · obtain ⟨op, outcome, rfl⟩ := own
    cases call_move reached calling moved with
    | draws _ id before later fresh world =>
      rw [later] at carries
      exact .inr ⟨id, rfl, fresh, (Option.some.inj carries).symm⟩
    | wins _ _ _ _ before later | loses _ _ _ _ before later | misses _ _ before later =>
      rw [later] at carries
      rw [before]
      exact .inl carries
    | reads asked mine _ current before later =>
      have same : (Contest.claimed
          (IdempotencyGuard.verdict (.eventGuard asked) mine current)).token = some mine := by
        unfold IdempotencyGuard.verdict
        split
        · rfl
        · rfl
      rw [later, same] at carries
      rw [before]
      exact .inl carries
    | completes _ _ _ before later | releases _ _ before later =>
      rw [later] at carries
      cases carries
  · rcases contest_other moved fun op outcome same => own ⟨op, outcome, same⟩ with
      same | idle | ⟨call, born⟩
    · exact .inl (same ▸ carries)
    · rw [idle] at carries
      cases carries
    · rw [born] at carries
      cases call <;> cases carries

theorem issued_grow (reached : Reachable (guardSystem deployment) allows first pool)
    (calling : Calling pool label) (moved : Step (guardSystem deployment) pool label after) :
    ∀ id ∈ pool.world.issued, id ∈ after.world.issued := by
  intro id member
  cases label with
  | did thread op outcome =>
    cases call_move reached calling moved with
    | draws _ _ _ _ _ world => exact world ▸ List.mem_cons_of_mem _ member
    | wins _ _ _ _ _ _ _ world => exact world ▸ member
    | loses _ _ _ _ _ _ _ world | misses _ _ _ _ _ world | reads _ _ _ _ _ _ _ _ world =>
      exact world ▸ member
    | completes _ _ _ _ _ swapped | releases _ _ _ _ swapped =>
      rw [swapped.2]
      split
      · exact member
      · exact member
  | event event =>
    cases moved with
    | event _ world happened => exact (happen_frame happened).2.2.2.2 ▸ member
  | start thread call | again thread call | crash thread =>
    cases moved
    exact member

/-- Every claim has drawn a token of its own. -/
structure Drawn (pool : Callers) : Prop where
  issued : ∀ thread token, (contest pool thread).token = some token →
    ∃ id ∈ pool.world.issued, token = id.hex
  once : ∀ thread other token, (contest pool thread).token = some token →
    (contest pool other).token = some token → thread = other

theorem drawn (reached : Reachable (guardSystem deployment) Calling first pool) : Drawn pool := by
  induction reached with
  | init =>
    constructor
    · intro thread token carries
      cases carries
    · intro thread other token carries
      cases carries
  | @step pool label after reached calling moved ih =>
    have grow := issued_grow reached calling moved
    have new : ∀ thread other token, (contest pool other).token = some token →
        (∃ id, label = .did thread .uuid4 (.ok id) ∧ id ∉ pool.world.issued ∧ token = id.hex) →
        False := by
      intro thread other token carries drew
      obtain ⟨id, _, fresh, same⟩ := drew
      obtain ⟨older, member, equal⟩ := ih.issued other token carries
      have known := uuid_hex_injective (same.symm.trans equal)
      exact fresh (known ▸ member)
    constructor
    · intro thread token carries
      rcases token_step reached calling moved carries with before | ⟨id, rfl, _, same⟩
      · obtain ⟨id, member, same⟩ := ih.issued thread token before
        exact ⟨id, grow id member, same⟩
      · cases call_move reached calling moved with
        | draws _ _ _ _ _ world => exact ⟨id, world ▸ List.mem_cons_self .., same⟩
    · intro thread other token carries also
      rcases token_step reached calling moved carries with before | drew <;>
        rcases token_step reached calling moved also with beforeToo | drewToo
      · exact ih.once thread other token before beforeToo
      · exact (new other thread token before drewToo).elim
      · exact (new thread other token beforeToo drew).elim
      · obtain ⟨_, same, _⟩ := drew
        obtain ⟨_, sameToo, _⟩ := drewToo
        cases same.symm.trans sameToo
        rfl

theorem hex_ne_done (id : Uuid) : id.hex ≠ done := by
  intro same
  have length := uuid_hex_length id
  rw [same] at length
  exact absurd length (by decide)

theorem Won.token (reached : Reachable (guardSystem deployment) allows first pool) {token : String}
    (won : Won pool thread eventId token) : (contest pool thread).token = some token := by
  have left : contest pool thread = .claimed ⟨.acquired, .eventGuard eventId, token⟩ :=
    returned_contest reached won
  rw [left]
  rfl

/-- A token is won by one claim. -/
theorem won_once (reached : Reachable (guardSystem deployment) Calling first pool) {other : Nat}
    {token : String} (won : Won pool thread eventId token) (also : Won pool other eventId token) :
    thread = other :=
  (drawn reached).once thread other token (won.token reached) (also.token reached)

/-- Nobody at work completes or releases a claim whose token reads as the tombstone. -/
theorem tokens_apart (reached : Reachable (guardSystem deployment) Calling first pool) :
    ∀ thread running claim, pool.threads thread = some running →
      running.call = .complete claim ∨ running.call = .release claim → claim.token ≠ done := by
  induction reached with
  | init =>
    intro thread running claim held
    cases held
  | step reached calling moved ih =>
    intro thread running claim held calls
    cases moved with
    | start actor call unused =>
      by_cases same : thread = actor
      · subst same
        simp only [Function.update_self, Option.some.injEq] at held
        subst held
        apply calling.tokens thread claim
        rcases calls with rfl | rfl
        · exact .inl rfl
        · exact .inr rfl
      · simp only [Function.update_of_ne same] at held
        exact ih thread running claim held calls
    | did actor call op resume fate outcome world awaiting performed =>
      by_cases same : thread = actor
      · subst same
        simp only [Function.update_self, Option.some.injEq] at held
        subst held
        exact ih thread _ claim awaiting calls
      · simp only [Function.update_of_ne same] at held
        exact ih thread running claim held calls
    | again actor call next result ended loops => cases loops
    | crash actor inFlight =>
      by_cases same : thread = actor
      · simp [same] at held
      · simp only [Function.update_of_ne same] at held
        exact ih thread running claim held calls
    | event event world happened => exact ih thread running claim held calls

end OrderFlow
