import OrderFlow.Guarantees.Acknowledgements
import OrderFlow.Runs.Entries

/-!
What a caller of `submit_order` is given. However calls fail, crash and overlap and
keys expire, a fresh answer is the order the call itself entered and published, and a
duplicate is an order another call entered under the same key.
-/
namespace OrderFlow
open AsyncCoroutine AsyncPool

variable {deployment : Deployment} {allows : Pipeline → Moment → Prop} {pool after : Pipeline}
  {thread : Nat} {key : String} {id : Uuid}

/-- Some call with the key entered the order. -/
def OrderedUnder (trace : List Moment) (key : String) (id : Uuid) : Prop :=
  ∃ creator payload, OrderedBy trace creator id payload (some key)

theorem OrderedUnder.later {trace : List Moment} (ordered : OrderedUnder trace key id)
    (label : Moment) : OrderedUnder (label :: trace) key id := by
  obtain ⟨creator, payload, known⟩ := ordered
  exact ⟨creator, payload, known.later label⟩

/-- A key leads to an order that a call with the key entered. -/
theorem key_ordered (reached : Reachable (system deployment) allows World.empty pool) :
    ∀ key raw, pool.world.redis (.apiIdempotency key) = some raw →
      ∃ id : Uuid, raw = id.str ∧ OrderedUnder pool.trace key id := by
  induction reached with
  | init =>
    intro key raw stored
    cases stored
  | @step pool label after reached permitted moved ih =>
    intro key raw stored
    rw [step_trace moved]
    have before : pool.world.redis (.apiIdempotency key) = some raw →
        ∃ id : Uuid, raw = id.str ∧ OrderedUnder (label :: pool.trace) key id := by
      intro earlier
      obtain ⟨id, text, ordered⟩ := ih key raw earlier
      exact ⟨id, text, ordered.later label⟩
    rcases step_cases reached moved with ⟨thread, op, outcome, rfl, act⟩ | ⟨thread, turn⟩ |
      ⟨event, rfl, happening⟩
    · rcases api_key_change act key with same | ⟨payload, id, standing, written⟩
      · exact before (same ▸ stored)
      · rw [written, Option.some.injEq] at stored
        obtain ⟨given, text, ordered, _, same⟩ := stored_ordered reached thread _ id standing rfl
        obtain ⟨rfl, _⟩ := usableKey_some same
        exact ⟨id, stored.symm, OrderedUnder.later ⟨thread, given, ordered⟩ _⟩
    · exact before (turn.world ▸ stored)
    · rcases happen_redis happening.happened (.apiIdempotency key) with same | ⟨_, none⟩
      · exact before (same ▸ stored)
      · rw [none] at stored
        cases stored

/-- The call on this thread was made with the key, and the row is of an order that a
    call with the key entered. -/
def FoundUnder (trace : List Moment) (thread : Nat) (row : OrderRow) : Prop :=
  ∃ payload given key creator ordered, Label.start thread (.submitOrder payload given) ∈ trace ∧
    Service.usableKey given = some key ∧ OrderedBy trace creator row.id ordered (some key) ∧
    row.Keeps ordered

/-- On its way to a duplicate a call has an order that was entered under its key. -/
structure Resolves (trace : List Moment) (thread : Nat) (stage : Stage deployment) : Prop where
  resolving : ∀ payload key id, stage = .submitting (.resolving payload key id) →
    OrderedUnder trace key id
  found : ∀ row, stage = .submitting (.found row) → FoundUnder trace thread row

theorem Resolves.later {trace : List Moment} {stage : Stage deployment}
    (resolves : Resolves trace thread stage) (label : Moment) :
    Resolves (label :: trace) thread stage := by
  refine ⟨fun payload key id same => (resolves.resolving payload key id same).later label, ?_⟩
  intro row same
  obtain ⟨payload, given, key, creator, ordered, started, usable, entered, keeps⟩ :=
    resolves.found row same
  exact ⟨payload, given, key, creator, ordered, List.mem_cons_of_mem _ started, usable,
    entered.later label, keeps⟩

theorem Resolves.own {op : Op} {outcome : Outcome Exn op.Reply}
    (reached : Reachable (system deployment) allows World.empty pool)
    (act : Acts deployment pool after thread op outcome)
    (resolves : Resolves pool.trace thread (stage deployment pool thread)) :
    Resolves pool.trace thread (stage deployment after thread) := by
  constructor
  · intro payload key id standing
    obtain ⟨first, before, moved⟩ := act.progress.submission standing
    generalize reach : Submission.resolving payload key id = last at moved
    cases moved with
    | resolves _ _ raw _ parsed =>
      cases reach
      obtain ⟨stored, _⟩ := act.gets
        (⟨rfl, rfl⟩ : Gets (.get (.apiIdempotency key)) (.ok (some raw)) _ (some raw))
      obtain ⟨other, rfl, ordered⟩ := key_ordered reached key raw stored
      rw [uuid_parse_str, Option.some.injEq] at parsed
      exact parsed ▸ ordered
    | inserts _ text => cases text <;> cases reach
    | _ => cases reach
  · intro row standing
    obtain ⟨first, before, moved⟩ := act.progress.submission standing
    generalize reach : Submission.found row = last at moved
    cases moved with
    | finds payload key id =>
      cases reach
      obtain ⟨stood, _⟩ := act.selects (⟨rfl, rfl⟩ : Selects (.selectOrder id) (.ok (some row)) id _)
      have named := row_named reached id row stood
      obtain ⟨creator, ordered, entered⟩ := resolves.resolving payload key id before
      obtain ⟨given, text, started, same⟩ := submission_started reached thread _ before
      obtain ⟨now, found, keeps⟩ := entered_kept reached entered.enters
      rw [stood] at found
      cases found
      exact ⟨given, text, key, creator, ordered, started, same.2.symm, named ▸ entered, keeps⟩
    | reads =>
      cases reach
      exact resolves.found row before
    | inserts _ text => cases text <;> cases reach
    | _ => cases reach

theorem resolves (reached : Reachable (system deployment) allows World.empty pool) (thread : Nat) :
    Resolves pool.trace thread (stage deployment pool thread) := by
  refine each_stage (P := fun pool thread stage => Resolves pool.trace thread stage)
    ?_ ?_ ?_ reached thread
  · rintro pool thread stage (_ | _ | _ | _) <;> exact ⟨by rintro _ _ _ ⟨⟩, by rintro _ ⟨⟩⟩
  · intro pool label after _ _ moved thread stage _ known
    rw [step_trace moved]
    exact known.later label
  · intro pool after thread op outcome reached _ _ act known
    rw [act.trace]
    exact (known.own reached act).later _

/-! ### The answer -/

/-- What a call of `submit_order` answers with. -/
structure Receipt (deployment : Deployment) (trace : List Moment) (thread : Nat)
    (payload : OrderCreate) (key : Option String) (order : Order) (wasDuplicate : Bool) : Prop where
  fresh : wasDuplicate = false → order.row = Repository.newRow payload order.row.id ∧
    OrderedBy trace thread order.row.id payload key ∧
    ∃ eventId instant, PublishedBy deployment trace thread
      (submittedEvent payload order.row.id eventId instant)
  duplicate : wasDuplicate = true → ∃ text creator ordered, key = some text ∧ text ≠ "" ∧
    creator ≠ thread ∧ OrderedBy trace creator order.row.id ordered key ∧
    order.row.Keeps ordered

theorem submitted_started (reached : Reachable (system deployment) allows World.empty pool)
    {payload : OrderCreate} {key : Option String} {program : Prog Result}
    (held : pool.threads thread = some ⟨.submitOrder payload key, program⟩) :
    Label.start thread (.submitOrder payload key) ∈ pool.trace := by
  rcases call_of_held reached thread _ held with started | ⟨call, result, loops⟩
  · exact started
  · simp only [system, OrderFlow.again] at loops
    split at loops <;> cases loops

/-- In any run at all, a caller is given its own order or one that was entered under its key. -/
theorem submission_receipt (reached : Reachable (system deployment) allows World.empty pool)
    {payload : OrderCreate} {key : Option String} {order : Order} {wasDuplicate : Bool}
    (returned : pool.threads thread =
      some ⟨.submitOrder payload key, .ret (.submitted order wasDuplicate)⟩) :
    Receipt deployment pool.trace thread payload key order wasDuplicate := by
  have left : Stage.goal _ (.ok _) (stage deployment pool thread) :=
    left_submitted reached returned rfl
  have begun := submitted_started reached returned
  constructor
  · rintro rfl
    obtain ⟨given, text, id, eventId, instant, standing, same⟩ := left
    obtain ⟨own, other, ordered, of⟩ := stored_ordered reached thread _ id standing rfl
    cases started_once reached begun ordered.started
    obtain ⟨rfl, _⟩ := of
    rw [same]
    exact ⟨rfl, ordered, eventId, instant,
      published_stage reached thread given text id eventId instant standing⟩
  · rintro rfl
    have standing : stage deployment pool thread = .submitting (.found order.row) := left
    obtain ⟨own, given, text, creator, ordered, started, usable, entered, keeps⟩ :=
      (resolves reached thread).found order.row standing
    cases started_once reached begun started
    obtain ⟨rfl, nonempty⟩ := usableKey_some usable.symm
    refine ⟨text, creator, ordered, rfl, nonempty, ?_, entered, keeps⟩
    rintro rfl
    obtain ⟨hop, outcome, inserted, took⟩ := entered.enters
    rcases submission_fate reached creator _ ⟨_, _, _, inserted, took⟩ with crashed |
      ⟨submission, stands, holds⟩
    · exact (crashed_outside reached creator crashed).2 _ standing
    · rw [standing] at stands
      cases stands
      rcases holds with stored | broken
      · cases stored
      · cases broken

/-- The client retries after its first call has failed, and is given that call's order. -/
theorem submission_receipt_run : ∃ (pool : Pipeline) (payload : OrderCreate) (order : Order),
    order.row.id = ⟨1⟩ ∧ Receipt Sample.shop pool.trace 1 payload (some "k") order true := by
  obtain ⟨pool, reached, facts⟩ := Sample.play_shows {} Sample.fulfils [] Sample.retried
    Sample.anything_sound (Sample.acknowledges · 1) (by decide +kernel)
  obtain ⟨payload, order, returned, same⟩ := Sample.acknowledges_returned facts
  exact ⟨pool, payload, order, same, submission_receipt reached returned⟩

end OrderFlow
