import OrderFlow.Runs.Keys
import OrderFlow.Sample

/-!
Client retries collapse into one order when no lookup of the key falls between
another call's miss and its write of the key. The lookup and the write are
separate commands, so two calls at once may both miss.
-/
namespace OrderFlow
open AsyncCoroutine AsyncPool

variable {deployment : Deployment} {pool after : Pipeline} {thread : Nat} {op : Op}
  {outcome : Outcome Exn op.Reply} {key : String}

/-- No store fails a call with the key, none of them crashes, and the key does not expire. -/
structure KeyUndisturbed (key : String) (pool : Pipeline) (label : Moment) : Prop where
  kept : label ≠ .event (.expire (.apiIdempotency key))
  answered : ∀ thread op outcome, Asked pool thread key → label = .did thread op outcome →
    outcome.reply ≠ .error .unavailable
  alive : ∀ thread, Asked pool thread key → label ≠ .crash thread

/-- Besides, amounts fit their column, and the key is looked up only while no other
    call has missed it and is yet to set it. -/
structure LookupsApart (deployment : Deployment) (key : String) (pool : Pipeline)
    (label : Moment) : Prop extends KeyUndisturbed key pool label where
  fits : ∀ thread payload, label = .start thread (.submitOrder payload (some key)) →
    payload.amountCents < 2 ^ 63
  apart : ∀ thread outcome, label = .did thread (.get (.apiIdempotency key)) outcome →
    ∀ other submission, other ≠ thread → stage deployment pool other = .submitting submission →
      submission.leads key = false

/-- What the claim asks of the calls with one key. -/
structure Collapsed (deployment : Deployment) (key : String) (pool : Pipeline) : Prop where
  oneRow : ∀ thread other id second, Asked pool thread key → Asked pool other key →
    Inserted pool.trace thread id → Inserted pool.trace other second → id = second
  oneEvent : ∀ thread other past later event second, Asked pool thread key →
    Asked pool other key → PublishedAt deployment pool.trace past thread event →
    PublishedAt deployment pool.trace later other second →
    thread = other ∧ past = later ∧ event = second
  returns : ∀ thread, Asked pool thread key → pool.InFlight thread ∨
    ∃ order wasDuplicate, pool.Returned thread (.submitted order wasDuplicate) ∧
      ∃ creator, Asked pool creator key ∧ Inserted pool.trace creator order.row.id
  oneFresh : ∀ thread other order second, Asked pool thread key → Asked pool other key →
    pool.Returned thread (.submitted order false) → pool.Returned other (.submitted second false) →
    thread = other
  someFresh : (∃ thread, Asked pool thread key) → (∀ thread, Asked pool thread key →
    ¬ pool.InFlight thread) → ∃ thread order, Asked pool thread key ∧
      pool.Returned thread (.submitted order false)

/-- Where each call with the key stands, by what is under the key. -/
inductive Roles (deployment : Deployment) (key : String) (pool : Pipeline) : Prop where
  | unclaimed (free : pool.world.redis (.apiIdempotency key) = none)
      (early : ∀ thread, Asked pool thread key → ∃ submission,
        stage deployment pool thread = .submitting submission ∧
          (submission.asks = true ∨ submission.leads key = true))
      (sole : ∀ thread other submission second,
        stage deployment pool thread = .submitting submission → submission.leads key = true →
        stage deployment pool other = .submitting second → second.leads key = true →
        thread = other)
  | claimed (leader : Nat) (id : Uuid) (asked : Asked pool leader key)
      (taken : pool.world.redis (.apiIdempotency key) = some id.str) (known : Known pool id)
      (settled : ∃ submission, stage deployment pool leader = .submitting submission ∧
        submission.Settled id)
      (follow : ∀ thread, Asked pool thread key → thread ≠ leader → ∃ submission,
        stage deployment pool thread = .submitting submission ∧ submission.Follows id)

structure KeyState (deployment : Deployment) (key : String) (pool : Pipeline) : Prop where
  staged : ∀ thread payload, Label.start thread (.submitOrder payload (some key)) ∈ pool.trace →
    payload.amountCents < 2 ^ 63 ∧ ∃ submission,
      stage deployment pool thread = .submitting submission ∧ submission ≠ .broken ∧
      submission.Of payload (some key)
  roles : Roles deployment key pool

/-- A key that leads to the row with its id resolves. -/
theorem resolved_text (id : Uuid) : ¬ Submission.Unresolved (some id.str) := by
  rintro (absent | ⟨raw, same, empty | unparsed⟩)
  · exact Option.some_ne_none _ absent
  · exact uuid_str_ne_empty id ((Option.some.inj same).trans empty)
  · rw [← Option.some.inj same, uuid_parse_str] at unparsed
    exact Option.some_ne_none _ unparsed

theorem started_asked {label : Moment} (trace : after.trace = label :: pool.trace)
    (asked : Asked after thread key) : Asked pool thread key ∨
      ∃ payload, label = .start thread (.submitOrder payload (some key)) := by
  obtain ⟨payload, member⟩ := asked
  rw [trace] at member
  rcases List.mem_cons.mp member with same | earlier
  · exact .inr ⟨payload, same.symm⟩
  · exact .inl ⟨payload, earlier⟩

theorem Asked.later {label : Moment} (trace : after.trace = label :: pool.trace)
    (asked : Asked pool thread key) : Asked after thread key := by
  obtain ⟨payload, member⟩ := asked
  exact ⟨payload, by rw [trace]; exact List.mem_cons_of_mem _ member⟩

/-- A call with the key goes on without failing. -/
theorem asked_advances (state : KeyState deployment key pool)
    (permitted : LookupsApart deployment key pool (.did thread op outcome))
    (act : Acts deployment pool after thread op outcome) {payload : OrderCreate}
    (started : Label.start thread (.submitOrder payload (some key)) ∈ pool.trace) :
    ∃ first later, stage deployment pool thread = .submitting first ∧
      stage deployment after thread = .submitting later ∧
      first.Progress deployment op outcome later ∧ later ≠ .broken ∧
      first.Of payload (some key) ∧ later.Of payload (some key) := by
  obtain ⟨fits, first, standing, sound, same⟩ := state.staged thread payload started
  obtain ⟨later, reached, moved⟩ : ∃ later, stage deployment after thread = .submitting later ∧
      first.Progress deployment op outcome later := by
    have own := act.own
    have permits := act.permitted
    rw [standing] at own permits
    exact ⟨_, own, Submission.progress permits⟩
  refine ⟨first, later, standing, reached, moved, ?_, same, moved.of same⟩
  rintro rfl
  generalize ends : Submission.broken = last at moved
  cases moved with
  | breaks submission unfinished allowed failed =>
    rcases submission_failure act standing failed with unavailable | ⟨given, text, id, rfl, rejected⟩
    · exact permitted.answered thread op outcome ⟨payload, started⟩ rfl unavailable
    · obtain ⟨rfl, _⟩ := same
      rw [createWrites_fit given id 0 fits] at rejected
      cases rejected
  | inserts _ text => cases text <;> cases ends
  | _ => cases ends

/-- Threads that have not moved keep the roles they had. -/
theorem Roles.unmoved (roles : Roles deployment key pool)
    (redis : after.world.redis (.apiIdempotency key) = pool.world.redis (.apiIdempotency key))
    (known : ∀ id, Known pool id → Known after id)
    (asked : ∀ thread, Asked after thread key → Asked pool thread key ∨
      ∃ payload, stage deployment after thread = .submitting (.asking payload key))
    (stays : ∀ thread, Asked pool thread key → Asked after thread key ∧
      stage deployment after thread = stage deployment pool thread)
    (leads : ∀ thread submission, stage deployment after thread = .submitting submission →
      submission.leads key = true → stage deployment pool thread = .submitting submission) :
    Roles deployment key after := by
  cases roles with
  | unclaimed free early sole =>
    refine .unclaimed (redis ▸ free) ?_ fun thread other submission second first leadsFirst also
      leadsToo => sole thread other submission second (leads _ _ first leadsFirst) leadsFirst
        (leads _ _ also leadsToo) leadsToo
    intro thread now
    rcases asked thread now with before | ⟨payload, begins⟩
    · obtain ⟨submission, standing, role⟩ := early thread before
      exact ⟨submission, by rw [(stays thread before).2, standing], role⟩
    · exact ⟨_, begins, .inl rfl⟩
  | claimed leader id calls taken row settled follow =>
    obtain ⟨submission, standing, role⟩ := settled
    refine .claimed leader id (stays leader calls).1 (redis ▸ taken) (known id row)
      ⟨submission, by rw [(stays leader calls).2, standing], role⟩ ?_
    intro thread now differ
    rcases asked thread now with before | ⟨payload, begins⟩
    · obtain ⟨submission, standing, role⟩ := follow thread before differ
      exact ⟨submission, by rw [(stays thread before).2, standing], role⟩
    · exact ⟨_, begins, trivial⟩

section moves

variable {allows : Pipeline → Moment → Prop} {first later : Submission} {payload : OrderCreate}

/-- A call with the key moves before the key is set. -/
theorem unclaimed_moves (reached : Reachable (system deployment) allows World.empty pool)
    (permitted : LookupsApart deployment key pool (.did thread op outcome))
    (act : Acts deployment pool after thread op outcome) (asked : Asked pool thread key)
    (standing : stage deployment pool thread = .submitting first)
    (stands : stage deployment after thread = .submitting later)
    (moved : first.Progress deployment op outcome later) (sound : later ≠ .broken)
    (same : first.Of payload (some key))
    (free : pool.world.redis (.apiIdempotency key) = none)
    (early : ∀ thread, Asked pool thread key → ∃ submission,
      stage deployment pool thread = .submitting submission ∧
        (submission.asks = true ∨ submission.leads key = true))
    (sole : ∀ thread other submission second,
      stage deployment pool thread = .submitting submission → submission.leads key = true →
      stage deployment pool other = .submitting second → second.leads key = true →
      thread = other) : Roles deployment key after := by
  have role : first.asks = true ∨ first.leads key = true := by
    obtain ⟨submission, equal, role⟩ := early thread asked
    rw [standing] at equal
    cases equal
    exact role
  have before : ∀ other, Asked after other key → Asked pool other key := by
    intro other now
    rcases started_asked act.trace now with earlier | ⟨_, same⟩
    · exact earlier
    · cases same
  have others : ∀ other, other ≠ thread → Asked after other key → ∃ submission,
      stage deployment after other = .submitting submission ∧
        (submission.asks = true ∨ submission.leads key = true) := by
    intro other differ now
    obtain ⟨submission, equal, role⟩ := early other (before other now)
    exact ⟨submission, by rw [act.others other differ, equal], role⟩
  -- the mover leads, and nobody else does
  have lead : after.world.redis (.apiIdempotency key) = none → later.leads key = true →
      (∀ other submission, other ≠ thread → stage deployment pool other = .submitting submission →
        submission.leads key = false) → Roles deployment key after := by
    intro free leading alone
    refine .unclaimed free ?_ ?_
    · intro other now
      by_cases own : other = thread
      · exact ⟨later, own ▸ stands, .inr leading⟩
      · exact others other own now
    · have mine : ∀ other submission, stage deployment after other = .submitting submission →
          submission.leads key = true → other = thread := by
        intro other submission equal leadsToo
        by_contra differ
        rw [act.others other differ] at equal
        rw [alone other submission differ equal] at leadsToo
        cases leadsToo
      intro one other submission second equal leadsOne also leadsOther
      rw [mine one submission equal leadsOne, mine other second also leadsOther]
  have alone : first.leads key = true → ∀ other submission, other ≠ thread →
      stage deployment pool other = .submitting submission → submission.leads key = false := by
    intro leads other submission differ equal
    by_contra leadsToo
    exact differ (sole other thread submission first equal (by simpa using leadsToo) standing leads)
  have quiet : (∀ given id, first ≠ .created given key id) →
      after.world.redis (.apiIdempotency key) = none := by
    intro notCreated
    rcases api_key_change act key with unchanged | ⟨given, id, created, _⟩
    · rw [unchanged, free]
    · rw [standing] at created
      cases created
      exact (notCreated _ _ rfl).elim
  cases moved with
  | misses given text current unresolved =>
    obtain ⟨_, equal⟩ := same
    cases equal
    exact lead (quiet (by rintro _ _ ⟨⟩)) (by simp [Submission.leads])
      fun other submission differ equal => permitted.apart thread _ rfl other submission differ equal
  | resolves given text raw id parsed =>
    obtain ⟨_, equal⟩ := same
    cases equal
    have found : pool.world.redis (.apiIdempotency key) = some raw := (act.gets ⟨rfl, rfl⟩).1
    rw [free] at found
    cases found
  | draws given text id =>
    obtain ⟨_, rfl⟩ := same
    exact lead (quiet (by rintro _ _ ⟨⟩)) (by simp [Submission.leads])
      (alone (by simp [Submission.leads]))
  | flushes given text id writes hop =>
    obtain ⟨_, rfl⟩ := same
    exact lead (quiet (by rintro _ _ ⟨⟩)) (by simp [Submission.leads])
      (alone (by simp [Submission.leads]))
  | inserts given text id hop =>
    obtain ⟨_, rfl⟩ := same
    exact lead (quiet (by rintro _ _ ⟨⟩)) (by simp [Submission.leads, Submission.saved])
      (alone (by simp [Submission.leads]))
  | reserves given text id ttl =>
    obtain ⟨_, equal⟩ := same
    cases equal
    have leads : (Submission.created given key id).leads key = true := by simp [Submission.leads]
    obtain ⟨_, row⟩ := submission_stored reached thread _ standing id rfl
    have set : after.world.redis (.apiIdempotency key) = some id.str := by
      obtain ⟨fate, performed⟩ := act.performed
      rcases perform_set performed with ⟨error, lost, _⟩ | ⟨_, world⟩
      · cases lost
      · rw [world]
        simp [World.setRedis]
    refine .claimed thread id (asked.later act.trace) set ((orders_change act).known row)
      ⟨_, stands, rfl⟩ ?_
    intro other now differ
    obtain ⟨submission, equal, asks | leadsToo⟩ := early other (before other now)
    · refine ⟨submission, by rw [act.others other differ, equal], ?_⟩
      cases submission with
      | asking => trivial
      | _ => cases asks
    · rw [alone leads other submission differ equal] at leadsToo
      cases leadsToo
  | breaks => exact (sound rfl).elim
  | _ => rcases role with asks | leads <;> contradiction

/-- A call with the key moves once the key is set. -/
theorem claimed_moves (reached : Reachable (system deployment) allows World.empty pool)
    (act : Acts deployment pool after thread op outcome) (asked : Asked pool thread key)
    (standing : stage deployment pool thread = .submitting first)
    (stands : stage deployment after thread = .submitting later)
    (moved : first.Progress deployment op outcome later) (sound : later ≠ .broken)
    (same : first.Of payload (some key)) (leader : Nat) (id : Uuid)
    (calls : Asked pool leader key)
    (taken : pool.world.redis (.apiIdempotency key) = some id.str) (known : Known pool id)
    (settled : ∃ submission, stage deployment pool leader = .submitting submission ∧
      submission.Settled id)
    (follow : ∀ thread, Asked pool thread key → thread ≠ leader → ∃ submission,
      stage deployment pool thread = .submitting submission ∧ submission.Follows id) :
    Roles deployment key after := by
  have before : ∀ other, Asked after other key → Asked pool other key := by
    intro other now
    rcases started_asked act.trace now with earlier | ⟨_, same⟩
    · exact earlier
    · cases same
  have quiet : (∀ given own, first ≠ .created given key own) →
      after.world.redis (.apiIdempotency key) = some id.str := by
    intro notCreated
    rcases api_key_change act key with unchanged | ⟨given, own, created, _⟩
    · rw [unchanged, taken]
    · rw [standing] at created
      cases created
      exact (notCreated _ _ rfl).elim
  have row := (orders_change act).known known
  by_cases own : thread = leader
  · subst own
    obtain ⟨submission, equal, role⟩ := settled
    rw [standing] at equal
    cases equal
    have still : later.Settled id := by
      cases moved with
      | names | stamps | publishes | finishes => exact role
      | breaks => exact (sound rfl).elim
      | _ => exact role.elim
    refine .claimed thread id (asked.later act.trace) (quiet ?_) row ⟨_, stands, still⟩ ?_
    · rintro given created rfl
      exact role
    · intro other now differ
      obtain ⟨submission, equal, role⟩ := follow other (before other now) differ
      exact ⟨submission, by rw [act.others other differ, equal], role⟩
  · obtain ⟨submission, equal, role⟩ := follow thread asked own
    rw [standing] at equal
    cases equal
    have still : later.Follows id := by
      cases moved with
      | misses given text current unresolved =>
        obtain ⟨_, equal⟩ := same
        cases equal
        have found : pool.world.redis (.apiIdempotency key) = current :=
          (act.gets ⟨rfl, rfl⟩).1
        rw [taken] at found
        exact (resolved_text id (found ▸ unresolved)).elim
      | resolves given text raw resolved parsed =>
        obtain ⟨_, equal⟩ := same
        cases equal
        have found : pool.world.redis (.apiIdempotency key) = some raw :=
          (act.gets ⟨rfl, rfl⟩).1
        rw [taken] at found
        rw [← Option.some.inj found, uuid_parse_str] at parsed
        exact (Option.some.inj parsed).symm
      | unknown given text resolved =>
        obtain rfl : resolved = id := role
        obtain ⟨stored, found⟩ := known
        have absent : pool.world.orders resolved = none := (act.selects ⟨rfl, rfl⟩).1
        rw [absent] at found
        cases found
      | finds given text resolved stored =>
        obtain rfl : resolved = id := role
        exact row_named reached resolved stored (act.selects ⟨rfl, rfl⟩).1
      | reads => exact role
      | breaks => exact (sound rfl).elim
      | _ => exact role.elim
    refine .claimed leader id (calls.later act.trace) (quiet ?_) row ?_ ?_
    · rintro given created rfl
      exact role
    · obtain ⟨submission, equal, role⟩ := settled
      exact ⟨submission, by rw [act.others leader (Ne.symm own), equal], role⟩
    · intro other now differ
      by_cases mine : other = thread
      · exact ⟨later, mine ▸ stands, still⟩
      · obtain ⟨submission, equal, role⟩ := follow other (before other now) differ
        exact ⟨submission, by rw [act.others other mine, equal], role⟩

end moves

/-- The calls with the key keep their roles in every run of the condition. -/
theorem key_state (usable : key ≠ "")
    (reached : Reachable (system deployment) (LookupsApart deployment key) World.empty pool) :
    KeyState deployment key pool := by
  have begins : ∀ payload, (Stage.monitor deployment).born (.submitOrder payload (some key)) =
      .submitting (.asking payload key) := by
    intro payload
    simp [Stage.monitor, Service.usableKey, usable]
  refine run_invariant ⟨?_, ?_⟩ ?_ ?_ ?_ reached
  · rintro thread payload ⟨⟩
  · refine .unclaimed rfl ?_ ?_
    · rintro thread ⟨payload, ⟨⟩⟩
    · rintro thread other submission second ⟨⟩
  · intro pool after thread op outcome reached state permitted act
    have calls : ∀ other payload,
        Label.start other (.submitOrder payload (some key)) ∈ after.trace →
        Label.start other (.submitOrder payload (some key)) ∈ pool.trace := by
      intro other payload member
      rw [act.trace] at member
      rcases List.mem_cons.mp member with same | earlier
      · cases same
      · exact earlier
    constructor
    · intro other payload member
      obtain ⟨fits, submission, standing, sound, same⟩ :=
        state.staged other payload (calls other payload member)
      by_cases own : other = thread
      · subst own
        obtain ⟨_, later, _, stands, _, sound, _, same⟩ :=
          asked_advances state permitted act (calls other payload member)
        exact ⟨fits, later, stands, sound, same⟩
      · exact ⟨fits, submission, by rw [act.others other own, standing], sound, same⟩
    · by_cases asked : Asked pool thread key
      · obtain ⟨payload, started⟩ := asked
        obtain ⟨first, later, standing, stands, moved, sound, same, _⟩ :=
          asked_advances state permitted act started
        cases state.roles with
        | unclaimed free early sole =>
          exact unclaimed_moves reached permitted act ⟨payload, started⟩ standing stands moved sound
            same free early sole
        | claimed leader id calls taken known settled follow =>
          exact claimed_moves reached act ⟨payload, started⟩ standing stands moved sound same leader
            id calls taken known settled follow
      · refine state.roles.unmoved ?_ (fun id => (orders_change act).known) ?_ ?_ ?_
        · rcases api_key_change act key with same | ⟨payload, id, created, _⟩
          · exact same
          · exact (asked (asked_of_created reached created)).elim
        · rintro other ⟨payload, member⟩
          exact .inl ⟨payload, calls other payload member⟩
        · intro other before
          refine ⟨before.later act.trace, act.others other ?_⟩
          rintro rfl
          exact asked before
        · intro other submission standing leads
          by_cases own : other = thread
          · subst own
            obtain ⟨first, before, moved⟩ := act.progress.submission standing
            obtain ⟨payload, given, started, same⟩ :=
              submission_started reached other first before
            obtain ⟨rfl, _⟩ := usableKey_some ((moved.of same).leading leads).symm
            exact (asked ⟨payload, started⟩).elim
          · rw [← act.others other own, standing]
  · intro pool after label thread reached state permitted turn
    have mover : ¬ Asked pool thread key := by
      rintro ⟨payload, started⟩
      obtain ⟨_, submission, standing, _⟩ := state.staged thread payload started
      rcases turn.own with ⟨_, _, unused, _⟩ | ⟨_, _, outside, _⟩ | ⟨crash, _⟩
      · exact unused _ started _ rfl
      · rw [standing] at outside
        cases outside
      · exact permitted.alive thread ⟨payload, started⟩ crash
    have calls : ∀ other payload,
        Label.start other (.submitOrder payload (some key)) ∈ after.trace →
        Label.start other (.submitOrder payload (some key)) ∈ pool.trace ∨ other = thread ∧
          payload.amountCents < 2 ^ 63 ∧
          stage deployment after thread = .submitting (.asking payload key) := by
      intro other payload member
      rw [turn.trace] at member
      rcases List.mem_cons.mp member with same | earlier
      · rcases turn.own with ⟨call, started, _, _, own⟩ | ⟨_, again, _⟩ | ⟨crash, _⟩
        · rw [started] at same
          cases same
          exact .inr ⟨rfl, permitted.fits thread payload started, by rw [own, begins]⟩
        · rw [again] at same
          cases same
        · rw [crash] at same
          cases same
      · exact .inl earlier
    constructor
    · intro other payload member
      rcases calls other payload member with earlier | ⟨rfl, fits, begun⟩
      · obtain ⟨fits, submission, standing, rest⟩ := state.staged other payload earlier
        have differ : other ≠ thread := by
          rintro rfl
          exact mover ⟨payload, earlier⟩
        exact ⟨fits, submission, by rw [turn.others other differ, standing], rest⟩
      · exact ⟨fits, _, begun, by rintro ⟨⟩, rfl, rfl⟩
    · refine state.roles.unmoved (by rw [turn.world]) ?_ ?_ ?_ ?_
      · rintro id ⟨row, found⟩
        exact ⟨row, by rw [turn.world, found]⟩
      · rintro other ⟨payload, member⟩
        rcases calls other payload member with earlier | ⟨rfl, _, begun⟩
        · exact .inl ⟨payload, earlier⟩
        · exact .inr ⟨payload, begun⟩
      · intro other before
        refine ⟨before.later turn.trace, turn.others other ?_⟩
        rintro rfl
        exact mover before
      · intro other submission standing leads
        by_cases own : other = thread
        · subst own
          have begun := turn.begins
          rw [standing] at begun
          cases begun <;> simp [Submission.leads] at leads
        · rw [← turn.others other own, standing]
  · intro pool after event reached state permitted happening
    have calls : ∀ other payload,
        Label.start other (.submitOrder payload (some key)) ∈ after.trace →
        Label.start other (.submitOrder payload (some key)) ∈ pool.trace := by
      intro other payload member
      rw [happening.trace] at member
      rcases List.mem_cons.mp member with same | earlier
      · cases same
      · exact earlier
    constructor
    · intro other payload member
      rw [happening.stages other]
      exact state.staged other payload (calls other payload member)
    · refine state.roles.unmoved ?_ ?_ ?_ ?_ ?_
      · rcases happen_redis happening.happened (.apiIdempotency key) with same | ⟨rfl, _⟩
        · exact same
        · exact (permitted.kept rfl).elim
      · rintro id ⟨row, found⟩
        exact ⟨row, by rw [(happen_frame happening.happened).1, found]⟩
      · rintro other ⟨payload, member⟩
        exact .inl ⟨payload, calls other payload member⟩
      · exact fun other before => ⟨before.later happening.trace, happening.stages other⟩
      · intro other submission standing _
        rw [← happening.stages other, standing]

/-- Of the calls with the key one at most has stored an order. -/
theorem KeyState.stored_once (state : KeyState deployment key pool) {other : Nat}
    {first second : Submission} {id also : Uuid} (asked : Asked pool thread key)
    (askedToo : Asked pool other key)
    (standing : stage deployment pool thread = .submitting first) (stored : first.stored = some id)
    (standingToo : stage deployment pool other = .submitting second)
    (storedToo : second.stored = some also) : thread = other := by
  cases state.roles with
  | unclaimed free early sole =>
    have leading : ∀ thread submission id, Asked pool thread key →
        stage deployment pool thread = .submitting submission → submission.stored = some id →
        submission.leads key = true := by
      intro thread submission id asked standing stored
      obtain ⟨_, equal, asks | leads⟩ := early thread asked
      · rw [standing] at equal
        cases equal
        cases submission with
        | asking => cases stored
        | _ => cases asks
      · rw [standing] at equal
        cases equal
        exact leads
    exact sole thread other first second standing (leading _ _ _ asked standing stored) standingToo
      (leading _ _ _ askedToo standingToo storedToo)
  | claimed leader own calls taken known settled follow =>
    have mine : ∀ thread submission id, Asked pool thread key →
        stage deployment pool thread = .submitting submission → submission.stored = some id →
        thread = leader := by
      intro thread submission id asked standing stored
      by_contra differ
      obtain ⟨_, equal, follows⟩ := follow thread asked differ
      rw [standing] at equal
      cases equal
      cases submission with
      | asking | resolving | found => cases stored
      | _ => exact follows
    rw [mine _ _ _ asked standing stored, mine _ _ _ askedToo standingToo storedToo]

/-- A call with the key that inserted a row has it stored. -/
theorem KeyState.inserted (state : KeyState deployment key pool)
    {allows : Pipeline → Moment → Prop}
    (reached : Reachable (system deployment) allows World.empty pool) {id : Uuid}
    (asked : Asked pool thread key) (inserted : Inserted pool.trace thread id) :
    ∃ submission, stage deployment pool thread = .submitting submission ∧
      submission.stored = some id := by
  obtain ⟨payload, started⟩ := asked
  obtain ⟨_, submission, standing, sound, _⟩ := state.staged thread payload started
  rcases submission_fate reached thread id inserted with crashed | ⟨other, also, stored | broken⟩
  · exact ((crashed_outside reached thread crashed).2 submission standing).elim
  · exact ⟨other, also, stored⟩
  · rw [standing] at also
    cases also
    exact (sound broken).elim

/-- A call with the key is running, or has returned its own order or the leader's. -/
theorem KeyState.ended (state : KeyState deployment key pool)
    {allows : Pipeline → Moment → Prop}
    (reached : Reachable (system deployment) allows World.empty pool)
    (asked : Asked pool thread key) : pool.InFlight thread ∨ ∃ order wasDuplicate,
      pool.Returned thread (.submitted order wasDuplicate) ∧
        Submission.Submitted (.ok (order, wasDuplicate)) (stage deployment pool thread) := by
  obtain ⟨payload, started⟩ := asked
  obtain ⟨_, submission, standing, sound, _⟩ := state.staged thread payload started
  cases held : pool.threads thread with
  | none =>
    have crashed := crashed_of_gone reached thread (fun unused => unused _ started _ rfl) held
    exact ((crashed_outside reached thread crashed).2 submission standing).elim
  | some running =>
    obtain ⟨call, program⟩ := running
    cases program with
    | await op resume => exact .inl ⟨_, held, trivial⟩
    | raise error =>
      have ended : Stage.goal call (.error error) (stage deployment pool thread) :=
        left_submitted reached held rfl
      rw [standing] at ended
      cases call with
      | submitOrder other otherKey => exact (sound (Stage.submitting.inj ended)).elim
      | _ => cases ended
    | ret value =>
      have ended : Stage.goal call (.ok value) (stage deployment pool thread) :=
        left_submitted reached held rfl
      cases call with
      | submitOrder other otherKey =>
        cases value with
        | submitted order wasDuplicate => exact .inr ⟨order, wasDuplicate, ⟨_, held⟩, ended⟩
        | _ => exact ended.elim
      | _ =>
        rw [standing] at ended
        cases ended

/-- A thread returns one value. -/
theorem returned_once {first second : Result} (returned : pool.Returned thread first)
    (also : pool.Returned thread second) : first = second := by
  obtain ⟨call, held⟩ := returned
  obtain ⟨other, heldToo⟩ := also
  rw [held] at heldToo
  cases heldToo
  rfl

theorem client_retries_collapse (key : String) (usable : key ≠ "")
    (reached : Reachable (system deployment) (LookupsApart deployment key) World.empty pool) :
    Collapsed deployment key pool := by
  have state := key_state usable reached
  have facts := publication reached
  have fresh : ∀ thread order, Asked pool thread key →
      pool.Returned thread (.submitted order false) → ∃ submission,
        stage deployment pool thread = .submitting submission ∧
          submission.stored = some order.row.id := by
    intro thread order asked returned
    rcases state.ended reached asked with ⟨running, held, suspended⟩ |
      ⟨made, wasDuplicate, also, left⟩
    · obtain ⟨call, ended⟩ := returned
      rw [held] at ended
      cases ended
      exact suspended.elim
    · cases returned_once returned also
      obtain ⟨payload, text, id, eventId, instant, standing, same⟩ := left
      exact ⟨_, standing, by rw [same]; rfl⟩
  -- whoever returns a duplicate found the row of the call that set the key
  have duplicate : ∀ thread (order : Order), Asked pool thread key →
      stage deployment pool thread = .submitting (.found order.row) → ∃ leader submission,
        Asked pool leader key ∧ stage deployment pool leader = .submitting submission ∧
          submission.Settled order.row.id := by
    intro thread order asked standing
    cases state.roles with
    | unclaimed free early sole =>
      obtain ⟨_, equal, asks | leads⟩ := early thread asked
      · rw [standing] at equal
        cases equal
        cases asks
      · rw [standing] at equal
        cases equal
        cases leads
    | claimed leader id calls taken known settled follow =>
      obtain ⟨submission, stands, settled⟩ := settled
      have differ : thread ≠ leader := by
        rintro rfl
        rw [standing] at stands
        cases stands
        exact settled
      obtain ⟨_, equal, follows⟩ := follow thread asked differ
      rw [standing] at equal
      cases equal
      exact ⟨leader, submission, calls, stands, (follows : order.row.id = id) ▸ settled⟩
  have settledStored : ∀ {submission : Submission} {id : Uuid}, submission.Settled id →
      submission.stored = some id := by
    intro submission id settled
    cases submission with
    | reserved | named | stamped | published => exact congrArg some settled
    | _ => exact settled.elim
  constructor
  · intro thread other id second asked askedToo inserted insertedToo
    obtain ⟨first, standing, stored⟩ := state.inserted reached asked inserted
    obtain ⟨later, standingToo, storedToo⟩ := state.inserted reached askedToo insertedToo
    obtain rfl := state.stored_once asked askedToo standing stored standingToo storedToo
    rw [standing] at standingToo
    cases standingToo
    rw [stored] at storedToo
    exact Option.some.inj storedToo
  · intro thread other past later event second asked askedToo published publishedToo
    obtain ⟨first, standing, stored⟩ :=
      state.inserted reached asked (facts.known thread event ⟨past, published⟩).1
    obtain ⟨last, standingToo, storedToo⟩ :=
      state.inserted reached askedToo (facts.known other second ⟨later, publishedToo⟩).1
    obtain rfl := state.stored_once asked askedToo standing stored standingToo storedToo
    exact ⟨rfl, facts.single thread past later event second published publishedToo⟩
  · intro thread asked
    refine (state.ended reached asked).imp id ?_
    rintro ⟨order, wasDuplicate, returned, left⟩
    refine ⟨order, wasDuplicate, returned, ?_⟩
    cases wasDuplicate with
    | false =>
      obtain ⟨submission, standing, stored⟩ := fresh thread order asked returned
      exact ⟨thread, asked, (submission_stored reached thread submission standing _ stored).1⟩
    | true =>
      obtain ⟨leader, submission, calls, standing, settled⟩ := duplicate thread order asked left
      exact ⟨leader, calls,
        (submission_stored reached leader submission standing _ (settledStored settled)).1⟩
  · intro thread other order second asked askedToo returned returnedToo
    obtain ⟨first, standing, stored⟩ := fresh thread order asked returned
    obtain ⟨last, standingToo, storedToo⟩ := fresh other second askedToo returnedToo
    exact state.stored_once asked askedToo standing stored standingToo storedToo
  · rintro ⟨thread, asked⟩ quiet
    rcases state.ended reached asked with running | ⟨order, wasDuplicate, returned, left⟩
    · exact (quiet thread asked running).elim
    · cases wasDuplicate with
      | false => exact ⟨thread, order, asked, returned⟩
      | true =>
        obtain ⟨leader, submission, calls, standing, settled⟩ := duplicate thread order asked left
        rcases state.ended reached calls with running | ⟨made, wasAgain, ended, leftToo⟩
        · exact (quiet leader calls running).elim
        · cases wasAgain with
          | false => exact ⟨leader, made, calls, ended⟩
          | true =>
            have found : stage deployment pool leader = .submitting (.found made.row) := leftToo
            rw [standing] at found
            cases found
            exact settled.elim

namespace Sample

/-- Every operation answers, nothing crashes and nothing expires. -/
def answers : Moment → Bool
  | .did _ _ (.ok _) => true
  | .did _ _ _ => false
  | .crash _ => false
  | .event (.expire _) => false
  | _ => true

theorem answers_undisturbed (pool : Pipeline) (label : Moment) (passes : answers label = true) :
    KeyUndisturbed "k" pool label := by
  constructor
  · rintro rfl
    cases passes
  · rintro thread op outcome _ rfl same
    cases outcome with
    | ok value => cases same
    | _ => cases passes
  · rintro thread _ rfl
    cases passes

def leading (pool : Pipeline) (thread : Nat) : Bool :=
  match stage shop pool thread with
  | .submitting submission => submission.leads "k"
  | _ => false

/-- Besides, a call is started with a small amount, and a lookup finds nobody leading. -/
def apart (pool : Pipeline) (label : Moment) : Bool :=
  answers label && (starts pool.trace).all (fun thread => !leading pool thread ||
    match label with
    | .did _ (.get _) _ => false
    | _ => true) &&
    match label with
    | .start _ (.submitOrder payload _) => payload.amountCents < 2 ^ 63
    | _ => true

theorem apart_sound (pool : Pipeline) (label : Moment)
    (reached : Reachable (system shop) (LookupsApart shop "k") World.empty pool)
    (passes : apart pool label = true) : LookupsApart shop "k" pool label := by
  simp only [apart, Bool.and_eq_true, List.all_eq_true, Bool.or_eq_true, Bool.not_eq_true'] at passes
  obtain ⟨⟨answered, alone⟩, small⟩ := passes
  refine { answers_undisturbed pool label answered with fits := ?_, apart := ?_ }
  · rintro thread payload rfl
    simpa using small
  · rintro thread outcome rfl other submission _ standing
    by_contra leads
    have none := every_thread (P := fun stage => ∀ submission, stage = .submitting submission →
      submission.leads "k" = false) reached (by rintro _ ⟨⟩) ?_ other submission standing
    · exact leads none
    · intro thread member submission standing
      rcases alone thread member with quiet | quiet
      · rwa [leading, standing] at quiet
      · cases quiet

/-- The thread's call returned an order, new or not. -/
def returns (pool : Pipeline) (thread : Nat) (wasDuplicate : Bool) : Bool :=
  match pool.threads thread with
  | some ⟨_, .ret (.submitted _ again)⟩ => again == wasDuplicate
  | _ => false

theorem returns_returned {pool : Pipeline} {thread : Nat} {wasDuplicate : Bool}
    (ended : returns pool thread wasDuplicate = true) :
    ∃ order, pool.Returned thread (.submitted order wasDuplicate) := by
  unfold returns at ended
  split at ended
  · rename_i call order again held
    obtain rfl := eq_of_beq ended
    exact ⟨order, call, held⟩
  · cases ended

def asks (pool : Pipeline) (thread : Nat) : Bool :=
  pool.trace.any fun
    | .start other (.submitOrder _ (some text)) => other = thread && text = "k"
    | _ => false

theorem asks_asked {pool : Pipeline} {thread : Nat} (asked : asks pool thread = true) :
    Asked pool thread "k" := by
  obtain ⟨label, member, same⟩ := List.any_eq_true.mp asked
  split at same
  · simp only [Bool.and_eq_true, decide_eq_true_eq] at same
    obtain ⟨rfl, rfl⟩ := same
    exact ⟨_, member⟩
  · cases same

/-- One call, and a retry once it has returned. -/
def retriedAfter : Moves :=
  [keyed 0, .run 0 ok, .run 0 (draw 1)] ++ runs 0 3 ++ [.run 0 (draw 2)] ++ runs 0 4 ++
    [keyed 1] ++ runs 1 3

/-- Two calls that both look the key up before either sets it. -/
def retriedAtOnce : Moves :=
  [keyed 0, keyed 1, .run 0 ok, .run 1 ok, .run 0 (draw 1)] ++ runs 0 3 ++ [.run 0 (draw 2)] ++
    runs 0 4 ++ [.run 1 (draw 3)] ++ runs 1 3 ++ [.run 1 (draw 4)] ++ runs 1 4

end Sample

theorem client_retries_collapse_run : ∃ pool,
    (∃ order, pool.Returned 0 (.submitted order false)) ∧
      (∃ order, pool.Returned 1 (.submitted order true)) ∧ Collapsed Sample.shop "k" pool := by
  obtain ⟨pool, reached, facts⟩ := Sample.play_checks {} Sample.fulfils [] Sample.retriedAfter
    Sample.apart_sound (fun pool => Sample.returns pool 0 false && Sample.returns pool 1 true)
    (by decide +kernel)
  rw [Bool.and_eq_true] at facts
  exact ⟨pool, Sample.returns_returned facts.1, Sample.returns_returned facts.2,
    client_retries_collapse "k" (by decide) reached⟩

theorem two_fresh_orders_with_one_key : ∃ pool,
    Reachable (system Sample.shop) (KeyUndisturbed "k") World.empty pool ∧
      ¬ Collapsed Sample.shop "k" pool := by
  obtain ⟨pool, reached, facts⟩ := Sample.play_shows {} Sample.fulfils [] Sample.retriedAtOnce
    Sample.answers_undisturbed (fun pool => Sample.returns pool 0 false && Sample.returns pool 1 false &&
      Sample.asks pool 0 && Sample.asks pool 1) (by decide +kernel)
  simp only [Bool.and_eq_true] at facts
  obtain ⟨⟨⟨first, second⟩, asked⟩, askedToo⟩ := facts
  obtain ⟨order, returned⟩ := Sample.returns_returned first
  obtain ⟨other, returnedToo⟩ := Sample.returns_returned second
  refine ⟨pool, reached, fun collapsed => ?_⟩
  exact absurd (collapsed.oneFresh 0 1 order other (Sample.asks_asked asked)
    (Sample.asks_asked askedToo) returned returnedToo) (by decide)

end OrderFlow
