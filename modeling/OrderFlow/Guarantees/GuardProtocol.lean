import OrderFlow.Contests
import OrderFlow.Sample

/-!
What the guard promises its callers. Every change of a key is one of the four of the
protocol, and a claim that was refused saw the reason while it ran.
-/
namespace OrderFlow
open AsyncCoroutine AsyncPool

variable {deployment : Deployment} {allows : Callers → GuardMoment → Prop} {first : World}
  {pool after : Callers} {thread : Nat} {label : GuardMoment} {eventId : String}
  {past : List (Callers × GuardMoment)}

/-! ### The key -/

/-- The four changes of an event's guard key. -/
inductive KeyMove (pool after : Callers) (eventId : String) : GuardMoment → Prop where
  | acquired (thread : Nat) (token : String) (ttl : Nat)
      (free : pool.world.redis (.eventGuard eventId) = none)
      (redis : after.world.redis (.eventGuard eventId) = some token)
      (won : Won after thread eventId token) :
      KeyMove pool after eventId (.did thread (.setNx (.eventGuard eventId) token ttl) (.ok true))
  | completed (thread : Nat) (claim : Claim) (ttl : Nat) (key : claim.key = .eventGuard eventId)
      (held : pool.world.redis (.eventGuard eventId) = some claim.token)
      (redis : after.world.redis (.eventGuard eventId) = some done)
      (returned : after.threads thread = some ⟨.complete claim, .ret (.changed true)⟩) :
      KeyMove pool after eventId (.did thread (.evalComplete claim.key claim.token ttl) (.ok true))
  | released (thread : Nat) (claim : Claim) (key : claim.key = .eventGuard eventId)
      (held : pool.world.redis (.eventGuard eventId) = some claim.token)
      (redis : after.world.redis (.eventGuard eventId) = none)
      (returned : after.threads thread = some ⟨.release claim, .ret (.changed true)⟩) :
      KeyMove pool after eventId (.did thread (.evalRelease claim.key claim.token) (.ok true))
  | expired (held : pool.world.redis (.eventGuard eventId) ≠ none)
      (redis : after.world.redis (.eventGuard eventId) = none) :
      KeyMove pool after eventId (.event (.expire (.eventGuard eventId)))

/-- A script is the only command of its call, which returns what it answered. -/
theorem swap_returned (reached : Reachable (guardSystem deployment) Calling first pool)
    {op : Op} {outcome : Outcome Exn op.Reply} (calling : Calling pool (.did thread op outcome))
    (moved : Step (guardSystem deployment) pool (.did thread op outcome) after) {made : Bool}
    (later : contest after thread = .changed made) :
    ∃ call, Contest.Within call (contest pool thread) ∧
      (∃ program, pool.threads thread = some ⟨call, program⟩) ∧
      after.threads thread = some ⟨call, .ret (.changed made)⟩ := by
  have next := Reachable.step reached calling moved
  cases moved with
  | did _ call _ resume fate _ world awaiting performed =>
    have held : (Function.update pool.threads thread (some ⟨call, resume outcome.reply⟩)) thread =
        some ⟨call, resume outcome.reply⟩ := Function.update_self ..
    refine ⟨call, within_call reached awaiting, ⟨_, awaiting⟩, ?_⟩
    exact (changed_returned next held later) ▸ held

theorem completing_returned (reached : Reachable (guardSystem deployment) Calling first pool)
    {op : Op} {outcome : Outcome Exn op.Reply} (calling : Calling pool (.did thread op outcome))
    (moved : Step (guardSystem deployment) pool (.did thread op outcome) after) {claim : Claim}
    {made : Bool} (before : contest pool thread = .completing claim)
    (later : contest after thread = .changed made) :
    (∃ program, pool.threads thread = some ⟨.complete claim, program⟩) ∧
      after.threads thread = some ⟨.complete claim, .ret (.changed made)⟩ := by
  obtain ⟨call, within, held, returned⟩ := swap_returned reached calling moved later
  rw [before] at within
  cases call with
  | complete other =>
    cases within
    exact ⟨held, returned⟩
  | _ => exact within.elim

theorem releasing_returned (reached : Reachable (guardSystem deployment) Calling first pool)
    {op : Op} {outcome : Outcome Exn op.Reply} (calling : Calling pool (.did thread op outcome))
    (moved : Step (guardSystem deployment) pool (.did thread op outcome) after) {claim : Claim}
    {made : Bool} (before : contest pool thread = .releasing claim)
    (later : contest after thread = .changed made) :
    (∃ program, pool.threads thread = some ⟨.release claim, program⟩) ∧
      after.threads thread = some ⟨.release claim, .ret (.changed made)⟩ := by
  obtain ⟨call, within, held, returned⟩ := swap_returned reached calling moved later
  rw [before] at within
  cases call with
  | release other =>
    cases within
    exact ⟨held, returned⟩
  | _ => exact within.elim

theorem setRedis_changed {world : World} {key : Key} {value : Option String} {other : Key}
    (changes : (world.setRedis key value).redis other ≠ world.redis other) : key = other := by
  by_contra differ
  apply changes
  have apart : other ≠ key := fun same => differ same.symm
  simp [World.setRedis, Function.update_of_ne apart]

theorem setRedis_self (world : World) (key : Key) (value : Option String) :
    (world.setRedis key value).redis key = value := by
  simp [World.setRedis]

theorem key_move (reached : Reachable (guardSystem deployment) Calling first pool)
    (calling : Calling pool label) (moved : Step (guardSystem deployment) pool label after)
    (changes : after.world.redis (.eventGuard eventId) ≠ pool.world.redis (.eventGuard eventId)) :
    KeyMove pool after eventId label := by
  have next := Reachable.step reached calling moved
  cases label with
  | did thread op outcome =>
    cases call_move reached calling moved with
    | draws _ _ _ _ _ world => exact (changes (by rw [world])).elim
    | loses _ _ _ _ _ _ _ world | misses _ _ _ _ _ world | reads _ _ _ _ _ _ _ _ world =>
      exact (changes (by rw [world])).elim
    | wins asked token again ttl before later free world =>
      rw [world] at changes
      cases setRedis_changed changes
      obtain ⟨named, key, won⟩ := claimed_returned next later
      cases key
      exact .acquired thread token ttl free (world ▸ setRedis_self ..) won
    | completes claim ttl made before later swapped =>
      obtain ⟨iff, world⟩ := swapped
      cases made with
      | false => exact (changes (by rw [world]; rfl)).elim
      | true =>
        have key : claim.key = .eventGuard eventId := setRedis_changed (world ▸ changes)
        have held := iff.mp rfl
        rw [key] at held
        have redis : after.world.redis (.eventGuard eventId) = some done := by
          rw [world, ← key]
          exact setRedis_self ..
        exact .completed thread claim ttl key held redis
          (completing_returned reached calling moved before later).2
    | releases claim made before later swapped =>
      obtain ⟨iff, world⟩ := swapped
      cases made with
      | false => exact (changes (by rw [world]; rfl)).elim
      | true =>
        have key : claim.key = .eventGuard eventId := setRedis_changed (world ▸ changes)
        have held := iff.mp rfl
        rw [key] at held
        have redis : after.world.redis (.eventGuard eventId) = none := by
          rw [world, ← key]
          exact setRedis_self ..
        exact .released thread claim key held redis
          (releasing_returned reached calling moved before later).2
  | event event =>
    cases moved with
    | event _ world happened =>
      rcases happen_redis happened (.eventGuard eventId) with same | ⟨rfl, gone⟩
      · exact (changes same).elim
      · refine .expired (fun empty => changes ?_) gone
        exact gone.trans empty.symm
  | start thread call | again thread call | crash thread =>
    cases moved
    exact (changes rfl).elim

/-- A key that is held is held by the tombstone or by the token of a claim that won it. -/
theorem owned (reached : Reachable (guardSystem deployment) Calling first pool)
    (absent : first.redis (.eventGuard eventId) = none) :
    ∀ token, pool.world.redis (.eventGuard eventId) = some token →
      token = done ∨ ∃ thread, Won pool thread eventId token := by
  induction reached with
  | init =>
    intro token held
    have empty : some token = none := held.symm.trans absent
    cases empty
  | @step pool label after reached calling moved ih =>
    intro token held
    by_cases same : after.world.redis (.eventGuard eventId) =
        pool.world.redis (.eventGuard eventId)
    · rw [same] at held
      rcases ih token held with tombstone | ⟨thread, won⟩
      · exact .inl tombstone
      · exact .inr ⟨thread, returned_stays moved reached won⟩
    · cases key_move reached calling moved same with
      | acquired thread mine ttl free redis won =>
        rw [redis] at held
        cases held
        exact .inr ⟨thread, won⟩
      | completed _ _ _ _ _ redis =>
        rw [redis] at held
        cases held
        exact .inl rfl
      | released _ _ _ _ redis | expired _ redis =>
        rw [redis] at held
        cases held

/-- The step gives the key back: it expires, or the holder of the token releases it. -/
def Frees (eventId token : String) (label : GuardMoment) : Prop :=
  label = .event (.expire (.eventGuard eventId)) ∨
    token ≠ done ∧ ∃ thread, label = .did thread (.evalRelease (.eventGuard eventId) token) (.ok true)

/-- While nothing gives the key back, it keeps its token or becomes the tombstone. -/
theorem held_until {start : Callers}
    (reached : Reachable (guardSystem deployment) Calling first start)
    (path : Path (guardSystem deployment) Calling start past pool) {token : String}
    (held : start.world.redis (.eventGuard eventId) = some token)
    (keeps : ∀ step ∈ past, ¬ Frees eventId token step.2) :
    pool.world.redis (.eventGuard eventId) = some token ∨
      pool.world.redis (.eventGuard eventId) = some done := by
  induction path with
  | here => exact .inl held
  | @step past pool label after walked calling moved ih =>
    have before := ih fun step member => keeps step (List.mem_cons_of_mem _ member)
    have here := walked.reachable reached
    by_cases same : after.world.redis (.eventGuard eventId) =
        pool.world.redis (.eventGuard eventId)
    · rw [same]
      exact before
    · have stays := keeps _ (List.mem_cons_self ..)
      cases key_move here calling moved same with
      | acquired _ _ _ free =>
        rw [free] at before
        rcases before with taken | taken <;> cases taken
      | completed _ _ _ _ _ redis => exact .inr redis
      | released thread claim key mine _ returned =>
        have apart := tokens_apart (.step here calling moved) thread _ claim returned (.inr rfl)
        rw [mine] at before
        rcases before with owns | buried
        · cases owns
          exact (stays (.inr ⟨apart, thread, by rw [key]⟩)).elim
        · exact (apart (Option.some.inj buried)).elim
      | expired => exact (stays (.inl rfl)).elim

def Grabs (eventId token : String) (label : GuardMoment) : Prop :=
  ∃ thread ttl, label = .did thread (.setNx (.eventGuard eventId) token ttl) (.ok true)

/-- A key that holds this token after one step is given back before a claim wins it. -/
theorem freed_between {later mid earlier : List (Callers × GuardMoment)}
    {second before : Callers × GuardMoment} {token other : String}
    (path : Path (guardSystem deployment) Calling (.initial first)
      (later ++ second :: (mid ++ before :: earlier)) pool)
    (holds : ∀ after, Reachable (guardSystem deployment) Calling first before.1 →
      Calling before.1 before.2 → Step (guardSystem deployment) before.1 before.2 after →
      after.world.redis (.eventGuard eventId) = some token)
    (wins : Grabs eventId other second.2) : ∃ step ∈ mid, Frees eventId token step.2 := by
  by_contra never
  have keeps : ∀ step ∈ mid, ¬ Frees eventId token step.2 :=
    fun step member frees => never ⟨step, member, frees⟩
  obtain ⟨_, untilSecond, _⟩ := path.split
  cases untilSecond with
  | step walked calling moved =>
    obtain ⟨start, untilFirst, between⟩ := walked.split
    cases untilFirst with
    | step walkedFirst callingFirst movedFirst =>
      have reached := walkedFirst.reachable .init
      have started := Reachable.step reached callingFirst movedFirst
      have held := held_until started between (holds start reached callingFirst movedFirst) keeps
      obtain ⟨thread, ttl, rfl⟩ := wins
      cases call_move (between.reachable started) calling moved with
      | wins _ _ _ _ _ _ free =>
        rw [free] at held
        rcases held with taken | taken <;> cases taken

/-! ### What a refused claim saw -/

/-- In some state of the run in which the call was at work, this was so. -/
def During (past : List (Callers × GuardMoment)) (thread : Nat) (P : Callers → Prop) : Prop :=
  ∃ step ∈ past, step.1.InFlight thread ∧ P step.1

def Buried (eventId : String) (pool : Callers) : Prop :=
  pool.world.redis (.eventGuard eventId) = some done

/-- The key holds the token that another claim won it with. -/
def Foreign (eventId : String) (thread : Nat) (pool : Callers) : Prop :=
  ∃ other token, other ≠ thread ∧ pool.world.redis (.eventGuard eventId) = some token ∧
    Won pool other eventId token

theorem During.later {P : Callers → Prop} (during : During past thread P)
    (step : Callers × GuardMoment) : During (step :: past) thread P := by
  obtain ⟨moment, member, seen⟩ := during
  exact ⟨moment, List.mem_cons_of_mem _ member, seen⟩

/-- A claim that found no key has another claim's token before it, unless there is
    still no key; one that lost twice has seen it, and so has one that was refused. -/
def Witnessed (past : List (Callers × GuardMoment)) (pool : Callers) (eventId : String)
    (thread : Nat) : Contest → Prop
  | .tries asked _ true => asked = eventId → pool.world.redis (.eventGuard eventId) = none ∨
      Foreign eventId thread pool ∨ During past thread (Foreign eventId thread)
  | .looks asked _ true => asked = eventId → During past thread (Foreign eventId thread)
  | .claimed ⟨.alreadyDone, key, _⟩ => key = .eventGuard eventId →
      During past thread (Buried eventId)
  | .claimed ⟨.inProgress, key, _⟩ => key = .eventGuard eventId →
      During past thread (Foreign eventId thread)
  | _ => True

theorem foreign_of_held (reached : Reachable (guardSystem deployment) Calling first pool)
    (absent : first.redis (.eventGuard eventId) = none) {token mine asked : String} {again : Bool}
    (held : pool.world.redis (.eventGuard eventId) = some token) (live : token ≠ done)
    (looks : contest pool thread = .looks asked mine again) : Foreign eventId thread pool := by
  rcases owned reached absent token held with tombstone | ⟨other, won⟩
  · exact (live tombstone).elim
  · refine ⟨other, token, ?_, held, won⟩
    intro same
    have left : contest pool other = .claimed _ := returned_contest reached won
    rw [same, looks] at left
    cases left

/-- The reason of a refusal that was read. -/
theorem verdict_witnessed (reached : Reachable (guardSystem deployment) Calling first pool)
    (absent : first.redis (.eventGuard eventId) = none) {token asked : String} {again : Bool}
    {current : Option String} (before : contest pool thread = .looks asked token again)
    (held : pool.world.redis (.eventGuard asked) = current)
    (settles : current ≠ none ∨ again = true)
    (known : Witnessed past pool eventId thread (.looks asked token again)) :
    Witnessed ((pool, label) :: past) after eventId thread
      (.claimed (IdempotencyGuard.verdict (.eventGuard asked) token current)) := by
  have working := contending_in_flight reached (.inr before)
  unfold IdempotencyGuard.verdict
  split
  · rename_i tombstone
    intro same
    cases same
    exact ⟨_, List.mem_cons_self .., working, held.trans tombstone⟩
  · rename_i live
    intro same
    cases same
    cases current with
    | some other =>
      have differ : other ≠ done := fun same => live (same ▸ rfl)
      exact ⟨_, List.mem_cons_self .., working, foreign_of_held reached absent held differ before⟩
    | none =>
      have second : again = true := settles.resolve_left fun some => some rfl
      subst second
      exact (known rfl).later _

theorem Witnessed.own (reached : Reachable (guardSystem deployment) Calling first pool)
    (absent : first.redis (.eventGuard eventId) = none) {op : Op} {outcome : Outcome Exn op.Reply}
    (calling : Calling pool (.did thread op outcome))
    (moved : Step (guardSystem deployment) pool (.did thread op outcome) after)
    (known : Witnessed past pool eventId thread (contest pool thread)) :
    Witnessed ((pool, .did thread op outcome) :: past) after eventId thread
      (contest after thread) := by
  cases call_move reached calling moved with
  | draws _ _ _ later => exact later ▸ trivial
  | wins _ _ _ _ _ later => exact later ▸ trivial
  | completes _ _ _ _ later | releases _ _ _ later => exact later ▸ trivial
  | misses asked token before later gone world =>
    rw [later]
    intro same
    subst same
    rw [world]
    exact .inl gone
  | loses asked token again ttl before later taken world =>
    rw [later]
    cases again with
    | false => trivial
    | true =>
      intro same
      subst same
      rw [before] at known
      have working := contending_in_flight reached (.inl before)
      rcases known rfl with gone | foreign | seen
      · exact (taken gone).elim
      · exact ⟨_, List.mem_cons_self .., working, foreign⟩
      · exact seen.later _
  | reads asked token again current before later held settles world =>
    rw [later]
    rw [before] at known
    exact verdict_witnessed reached absent before held settles known

theorem Witnessed.others (reached : Reachable (guardSystem deployment) Calling first pool)
    (calling : Calling pool label) (moved : Step (guardSystem deployment) pool label after)
    (others : ∀ op outcome, label ≠ .did thread op outcome) {contest' : Contest}
    (stands : contest pool thread = contest') (known : Witnessed past pool eventId thread contest') :
    Witnessed ((pool, label) :: past) after eventId thread contest' := by
  cases contest' with
  | tries asked token again =>
    cases again with
    | false => trivial
    | true =>
      intro same
      have working := contending_in_flight reached (.inl stands)
      rcases known same with gone | foreign | seen
      · by_cases still : after.world.redis (.eventGuard eventId) =
            pool.world.redis (.eventGuard eventId)
        · exact .inl (still.trans gone)
        · cases key_move reached calling moved still with
          | acquired actor mine ttl free redis won =>
            refine .inr (.inl ⟨actor, mine, ?_, redis, won⟩)
            intro same
            subst same
            exact others _ _ rfl
          | completed _ _ _ _ held | released _ _ _ held => cases held.symm.trans gone
          | expired held => exact (held gone).elim
      · exact .inr (.inr ⟨_, List.mem_cons_self .., working, foreign⟩)
      · exact .inr (.inr (seen.later _))
  | looks asked token again =>
    cases again with
    | false => trivial
    | true => exact fun same => (known same).later _
  | claimed claim =>
    obtain ⟨status, key, token⟩ := claim
    cases status with
    | acquired => trivial
    | alreadyDone | inProgress => exact fun same => (known same).later _
  | _ => trivial

theorem witnessed (absent : first.redis (.eventGuard eventId) = none)
    (path : Path (guardSystem deployment) Calling (.initial first) past pool) (thread : Nat) :
    Witnessed past pool eventId thread (contest pool thread) := by
  induction path with
  | here => trivial
  | @step past pool label after walked calling moved ih =>
    have reached := walked.reachable .init
    by_cases own : ∃ op outcome, label = .did thread op outcome
    · obtain ⟨op, outcome, rfl⟩ := own
      exact Witnessed.own reached absent calling moved ih
    · have others : ∀ op outcome, label ≠ .did thread op outcome :=
        fun op outcome same => own ⟨op, outcome, same⟩
      rcases contest_other moved others with same | idle | ⟨call, born⟩
      · rw [same]
        exact Witnessed.others reached calling moved others rfl ih
      · exact idle ▸ trivial
      · rw [born]
        cases call <;> trivial

/-! ### The protocol -/

/-- Every step of such a call swaps the key for the value or leaves it, and returns which. -/
def Swaps (deployment : Deployment) (pool : Callers) (call : Claim → GuardCall)
    (value : Option String) : Prop :=
  ∀ thread claim program op outcome after, pool.threads thread = some ⟨call claim, program⟩ →
    Calling pool (.did thread op outcome) →
    Step (guardSystem deployment) pool (.did thread op outcome) after →
    ∃ made, after.threads thread = some ⟨call claim, .ret (.changed made)⟩ ∧
      Swapped pool.world after.world claim value made

theorem completes_swap (reached : Reachable (guardSystem deployment) Calling first pool) :
    Swaps deployment pool .complete (some done) := by
  intro thread claim program op outcome after held calling moved
  have within := within_call reached held
  cases call_move reached calling moved with
  | completes other ttl made before later swapped =>
    rw [before] at within
    cases within
    exact ⟨made, (completing_returned reached calling moved before later).2, swapped⟩
  | draws _ _ before | wins _ _ _ _ before | loses _ _ _ _ before | misses _ _ before
  | reads _ _ _ _ before | releases _ _ before =>
    rw [before] at within
    exact within.elim

theorem releases_swap (reached : Reachable (guardSystem deployment) Calling first pool) :
    Swaps deployment pool .release none := by
  intro thread claim program op outcome after held calling moved
  have within := within_call reached held
  cases call_move reached calling moved with
  | releases other made before later swapped =>
    rw [before] at within
    cases within
    exact ⟨made, (releasing_returned reached calling moved before later).2, swapped⟩
  | draws _ _ before | wins _ _ _ _ before | loses _ _ _ _ before | misses _ _ before
  | reads _ _ _ _ before | completes _ _ _ before =>
    rw [before] at within
    exact within.elim

/-- What holds of the guard of one event at the end of any run of its callers. -/
structure GuardProtocol (deployment : Deployment) (eventId : String)
    (past : List (Callers × GuardMoment)) (pool : Callers) : Prop where
  changes : ∀ label after, Calling pool label → Step (guardSystem deployment) pool label after →
    after.world.redis (.eventGuard eventId) ≠ pool.world.redis (.eventGuard eventId) →
    KeyMove pool after eventId label
  one : ∀ thread other token, Won pool thread eventId token → Won pool other eventId token →
    thread = other
  holder : ∀ token, pool.world.redis (.eventGuard eventId) = some token →
    token = done ∨ ∃ thread, Won pool thread eventId token
  apart : ∀ later mid earlier second before token other,
    past = later ++ second :: (mid ++ before :: earlier) → Grabs eventId token before.2 →
    Grabs eventId other second.2 → ∃ step ∈ mid, Frees eventId token step.2
  buried : ∀ later mid earlier second before thread token ttl other,
    past = later ++ second :: (mid ++ before :: earlier) →
    before.2 = .did thread (.evalComplete (.eventGuard eventId) token ttl) (.ok true) →
    Grabs eventId other second.2 → ∃ step ∈ mid, step.2 = .event (.expire (.eventGuard eventId))
  completes : Swaps deployment pool .complete (some done)
  releases : Swaps deployment pool .release none
  alreadyDone : ∀ thread token, pool.threads thread =
      some ⟨.claim eventId, .ret (.claimed ⟨.alreadyDone, .eventGuard eventId, token⟩)⟩ →
    During past thread (Buried eventId)
  inProgress : ∀ thread token, pool.threads thread =
      some ⟨.claim eventId, .ret (.claimed ⟨.inProgress, .eventGuard eventId, token⟩)⟩ →
    During past thread (Foreign eventId thread)

theorem guard_protocol (absent : first.redis (.eventGuard eventId) = none)
    (path : Path (guardSystem deployment) Calling (.initial first) past pool) :
    GuardProtocol deployment eventId past pool := by
  have reached := path.reachable .init
  constructor
  · intro label after calling moved changes
    exact key_move reached calling moved changes
  · intro thread other token won also
    exact won_once reached won also
  · exact owned reached absent
  · intro later mid earlier second before token other split grabs grabsToo
    subst split
    apply freed_between path ?_ grabsToo
    intro after here calling moved
    obtain ⟨thread, ttl, same⟩ := grabs
    obtain ⟨start, label⟩ := before
    subst same
    cases call_move here calling moved with
    | wins _ _ _ _ _ _ _ world => exact world ▸ setRedis_self ..
  · intro later mid earlier second before thread token ttl other split completes grabs
    subst split
    have frees : ∃ step ∈ mid, Frees eventId done step.2 := by
      apply freed_between path ?_ grabs
      intro after here calling moved
      obtain ⟨start, label⟩ := before
      subst completes
      generalize key : Key.eventGuard eventId = guard at moved calling
      cases call_move here calling moved with
      | completes claim _ _ _ _ swapped =>
        rw [swapped.2]
        exact setRedis_self ..
    obtain ⟨step, member, expires | ⟨apart, _⟩⟩ := frees
    · exact ⟨step, member, expires⟩
    · exact (apart rfl).elim
  · exact completes_swap reached
  · exact releases_swap reached
  · intro thread token returned
    have left : contest pool thread = .claimed _ := returned_contest reached returned
    have known := witnessed absent path thread
    rw [left] at known
    exact known rfl
  · intro thread token returned
    have left : contest pool thread = .claimed _ := returned_contest reached returned
    have known := witnessed absent path thread
    rw [left] at known
    exact known rfl

namespace Sample

def calling : GuardMoment → Bool
  | .did _ _ (.ok _) => true
  | .did _ _ _ => false
  | .start _ (.complete claim) => claim.token ≠ done
  | .start _ (.release claim) => claim.token ≠ done
  | _ => true

theorem calling_sound (pool : Callers) (label : GuardMoment) (passes : calling label = true) :
    Calling pool label := by
  constructor
  · intro thread op outcome same
    subst same
    cases outcome with
    | ok value => exact ⟨value, rfl⟩
    | _ => cases passes
  · intro thread claim same
    rcases same with rfl | rfl
    · simpa [calling] using passes
    · simpa [calling] using passes

/-- The second claim loses to the first, finds no key, loses to the third, which is
    completed, and finds no key again. -/
def losesTwice : List (Move GuardCall Event Fate) :=
  [.start 0 (.claim "e"), .run 0 (draw 1), .run 0 ok, .start 1 (.claim "e"), .run 1 (draw 2),
    .run 1 ok, .event (.expire (.eventGuard "e")), .run 1 ok, .start 2 (.claim "e"),
    .run 2 (draw 3), .run 2 ok, .run 1 ok,
    .start 3 (.complete ⟨.acquired, .eventGuard "e", Uuid.hex ⟨3⟩⟩), .run 3 ok,
    .event (.expire (.eventGuard "e")), .run 1 ok]

def refused (pool : Callers) (thread : Nat) : Option String :=
  match pool.threads thread with
  | some ⟨.claim eventId, .ret (.claimed ⟨.inProgress, key, token⟩)⟩ =>
      if eventId = "e" ∧ key = .eventGuard "e" then some token else none
  | _ => none

theorem refused_returned {pool : Callers} {thread : Nat} {token : String}
    (returned : refused pool thread = some token) : pool.threads thread =
      some ⟨.claim "e", .ret (.claimed ⟨.inProgress, .eventGuard "e", token⟩)⟩ := by
  unfold refused at returned
  split at returned
  · rename_i held
    split at returned
    · rename_i same
      cases returned
      rw [held, same.1, same.2]
    · cases returned
  · cases returned

end Sample

theorem guard_protocol_run : ∃ past pool token,
    Path (guardSystem Sample.shop) Calling (.initial .empty) past pool ∧
      pool.threads 1 = some ⟨.claim "e", .ret (.claimed ⟨.inProgress, .eventGuard "e", token⟩)⟩ ∧
      During past 1 (Foreign "e" 1) := by
  have shows : ((Pool.initial World.empty : Callers).play (guardSystem Sample.shop)
      (fun _ => Sample.calling) Sample.losesTwice).any (fun pool =>
        (Sample.refused pool 1).isSome) = true := by
    decide +kernel
  obtain ⟨pool, played, ended⟩ := (Option.any_eq_true _ _).mp shows
  obtain ⟨past, path⟩ := Pool.play_path _ Sample.calling_sound Sample.losesTwice .here played
  obtain ⟨token, returned⟩ := Option.isSome_iff_exists.mp ended
  have refused := Sample.refused_returned returned
  have protocol : GuardProtocol Sample.shop "e" past pool := guard_protocol rfl path
  exact ⟨past, pool, token, path, refused, protocol.inProgress 1 token refused⟩

end OrderFlow
