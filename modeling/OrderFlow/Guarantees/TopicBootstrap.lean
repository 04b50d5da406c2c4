import Mathlib.Data.List.Nodup
import OrderFlow.Async.Schedule
import OrderFlow.Kafka.Admin

/-!
Replicas that start together. However their calls of `ensure_topics` interleave and
fail, one that returns leaves every topic in place, and each gives up in time.
-/
namespace OrderFlow.Admin
open AsyncCoroutine AsyncPool

variable {settings : BootSettings} {allows : Replicas → Turn → Prop} {pool after : Replicas}
  {first : Broker} {thread : Nat} {label : Turn}

theorem desired_names (settings : BootSettings) :
    ((desiredTopics settings).map NewTopic.name).Nodup := by
  obtain ⟨retry, dlq, apart⟩ := settings.topics_distinct
  simp [desiredTopics, retry, dlq, apart]

theorem missing_desired {existing : List String} {topic : NewTopic}
    (missing : topic ∈ missingTopics settings existing) : topic ∈ desiredTopics settings :=
  (List.mem_filter.mp missing).1

/-! ### What a call does -/

/-- What a call knows of the topics. -/
inductive Survey where
  | blank
  | listed (existing : List String)
  | ensured

/-- Nothing was missing, or what was missing is there now. -/
def Survey.Complete (settings : BootSettings) : Survey → Prop
  | .blank => False
  | .listed existing => (missingTopics settings existing).isEmpty = true
  | .ensured => True

/-- The clients a call has opened and closed, its waits, and the last error it heard. -/
structure Tries where
  retries : Nat
  opened : Nat := 0
  closed : Nat := 0
  waits : Nat := 0
  survey : Survey := .blank
  heard : Option (AdminOp × AdminExn) := none

namespace Tries

def allowed (settings : BootSettings) (tries : Tries) : AdminOp → Prop
  | .start => tries.opened = tries.closed ∧ tries.opened < tries.retries
  | .createTopics topics => tries.opened = tries.closed + 1 ∧
      ∃ existing, tries.survey = .listed existing ∧ topics = missingTopics settings existing
  | .sleep _ => tries.opened = tries.closed + 1 ∧ tries.opened = tries.waits + 1
  | _ => tries.opened = tries.closed + 1

def count (tries : Tries) : AdminOp → Tries
  | .start => { tries with opened := tries.opened + 1 }
  | .close => { tries with closed := tries.closed + 1 }
  | .sleep _ => { tries with waits := tries.waits + 1 }
  | _ => tries

def settled : Except AdminExn Unit → Bool
  | .ok _ | .error .topicAlreadyExists => true
  | _ => false

def surveyed (survey : Survey) : (op : AdminOp) → Except AdminExn op.Reply → Survey
  | .listTopics, .ok existing => .listed existing
  | .createTopics _, reply => if settled reply then .ensured else survey
  | _, _ => survey

/-- An error of `close` is dropped unheard. -/
def hears (heard : Option (AdminOp × AdminExn)) : (op : AdminOp) → Except AdminExn op.Reply →
    Option (AdminOp × AdminExn)
  | .close, _ => heard
  | op, .error error => some (op, error)
  | _, .ok _ => heard

def next (tries : Tries) (op : AdminOp) (outcome : Outcome AdminExn op.Reply) : Tries :=
  { tries.count op with
    survey := surveyed tries.survey op outcome.reply
    heard := hears tries.heard op outcome.reply }

def monitor (settings : BootSettings) : Monitor AdminOp AdminOp.Reply AdminExn Boot Tries where
  allowed := allowed settings
  next := next
  idle := { retries := 0 }
  born boot := { retries := boot.retries.toNat }

/-- As many clients opened, closed and waits as these. -/
def Counts (tries : Tries) (retries opened closed waits : Nat) : Prop :=
  tries.retries = retries ∧ tries.opened = opened ∧ tries.closed = closed ∧ tries.waits = waits

/-- The error is not one that a turn of the loop waits out. -/
def Fatal : AdminOp → AdminExn → Prop
  | .sleep _, _ => True
  | .createTopics _, .topicAlreadyExists => False
  | _, .kafkaConnection | _, .os => False
  | _, _ => True

/-- What `createMissing` leaves: the topics seen to, or the error it raises. -/
def Fetched {Value : Type} (settings : BootSettings) (retries opened : Nat) :
    Except AdminExn Value → Tries → Prop
  | .ok _, left => left.Counts retries (opened + 1) opened opened ∧ left.survey.Complete settings
  | .error error, left => left.Counts retries (opened + 1) opened opened ∧
      ∃ op, left.heard = some (op, error) ∧
        (error = .kafkaConnection ∨ error = .os ∨ Fatal op error)

/-- What a turn of the loop leaves, with this many clients closed. -/
def Turned (settings : BootSettings) (retries opened closed : Nat) :
    Except AdminExn (Option AdminExn) → Tries → Prop
  | .ok none, left => left.Counts retries (opened + 1) closed opened ∧ left.survey.Complete settings
  | .ok (some _), left => left.Counts retries (opened + 1) closed (opened + 1)
  | .error error, left => left.opened = opened + 1 ∧ left.closed = closed ∧
      ∃ op, left.heard = some (op, error) ∧ Fatal op error

/-- What a call leaves. -/
def Ended (settings : BootSettings) (retries : Nat) : Except AdminExn Unit → Tries → Prop
  | .ok _, left => left.opened = left.closed ∧ left.opened = left.waits + 1 ∧
      left.survey.Complete settings
  | .error error, left => left.opened = left.closed ∧
      ((∃ op, left.heard = some (op, error) ∧ Fatal op error) ∨
        ∃ last, error = .runtime last ∧ left.opened = retries ∧ left.waits = retries ∧
          (last = none ↔ retries = 0))

theorem waited_or_fatal {op : AdminOp} (other : ∀ topics, op ≠ .createTopics topics)
    (error : AdminExn) : error = .kafkaConnection ∨ error = .os ∨ Fatal op error := by
  cases op <;> cases error <;> simp_all [Fatal]

/-- Creating what is missing from a listing: a lost race is as good as success. -/
theorem creating_follows {tries : Tries} {retries opened : Nat} {existing : List String}
    (counts : tries.Counts retries (opened + 1) opened opened)
    (listed : tries.survey = .listed existing) :
    (monitor settings).Follows
      (tryCatch (call (.createTopics (missingTopics settings existing))) fun
        | .topicAlreadyExists => return ()
        | error => throw error)
      (Fetched settings retries opened) tries := by
  have asked : (monitor settings).allowed tries (.createTopics (missingTopics settings existing)) :=
    ⟨by rw [counts.2.1, counts.2.2.1], existing, listed, rfl⟩
  refine ⟨asked, fun outcome => ?_⟩
  cases outcome with
  | ok value => exact ⟨counts, trivial⟩
  | lost error | late error =>
    cases error with
    | topicAlreadyExists => exact ⟨counts, trivial⟩
    | _ => exact ⟨counts, _, rfl, by simp [Fatal]⟩

theorem createMissing_follows {tries : Tries} {retries opened : Nat}
    (counts : tries.Counts retries opened opened opened) (more : opened < retries) :
    (monitor settings).Follows (createMissing settings) (Fetched settings retries opened) tries := by
  obtain ⟨rfl, rfl, closed, waits⟩ := counts
  have ready : ∀ outcome, (tries.next .start outcome).Counts tries.retries (tries.opened + 1)
      tries.opened tries.opened := fun _ => ⟨rfl, rfl, closed, waits⟩
  refine Protocol.Follows.perform_bind ⟨closed.symm, more⟩ (fun _ => ?_)
    (fun error => ⟨ready (.lost error), .start, rfl, waited_or_fatal (by simp) error⟩)
    fun error => ⟨ready (.late error), .start, rfl, waited_or_fatal (by simp) error⟩
  refine Protocol.Follows.perform_bind (congrArg (· + 1) closed.symm) (fun existing => ?_)
    (fun error => ⟨ready (.ok ()), .listTopics, rfl, waited_or_fatal (by simp) error⟩)
    fun error => ⟨ready (.ok ()), .listTopics, rfl, waited_or_fatal (by simp) error⟩
  split
  · exact ⟨ready (.ok ()), ‹_›⟩
  · exact creating_follows (ready (.ok ())) rfl

/-- Whatever the body did, its client is closed and its result stands. -/
theorem closing_follows {Value : Type} {body : AdminProg Value}
    {Q : Except AdminExn Value → Tries → Prop} {tries : Tries}
    (opens : ∀ result left, Q result left → left.opened = left.closed + 1)
    (follows : (monitor settings).Follows body Q tries) :
    (monitor settings).Follows (closing body)
      (fun result left => ∃ before, Q result before ∧ left = before.count .close) tries := by
  have caught : (monitor settings).Follows
      (tryCatch (Except.ok <$> body) fun error => return Except.error error)
      (fun outcome left => ∃ result, outcome = .ok result ∧ Q result left) tries :=
    Protocol.Follows.tryCatch (Q := fun outcome left => Q (outcome >>= id) left)
      (Protocol.Follows.bind follows (fun _ _ holds => holds) fun _ _ holds => holds)
      (fun result _ holds => ⟨result, rfl, holds⟩) fun error _ holds => ⟨.error error, rfl, holds⟩
  refine caught.bind (fun outcome left done => ?_) (by rintro _ _ ⟨_, ⟨⟩, _⟩)
  obtain ⟨_, ⟨⟩, holds⟩ := done
  have shut : (monitor settings).Follows (tryCatch (call .close) fun _ => return ())
      (fun reply after => reply = .ok () ∧ after = left.count .close) left :=
    ⟨opens _ _ holds, fun outcome => by cases outcome <;> exact ⟨rfl, rfl⟩⟩
  refine shut.bind (fun _ after done => ?_) (by rintro _ _ ⟨⟨⟩, _⟩)
  obtain ⟨_, rfl⟩ := done
  cases outcome with
  | ok value => exact ⟨left, holds, rfl⟩
  | error error => exact ⟨left, holds, rfl⟩

theorem Turned.closes {retries opened closed : Nat} {result : Except AdminExn (Option AdminExn)}
    {left : Tries} (turned : Turned settings retries opened closed result left) :
    Turned settings retries opened (closed + 1) result (left.count .close) := by
  cases result with
  | ok failed =>
    cases failed with
    | none =>
      obtain ⟨⟨same, opens, closes, waits⟩, complete⟩ := turned
      exact ⟨⟨same, opens, congrArg (· + 1) closes, waits⟩, complete⟩
    | some error =>
      obtain ⟨same, opens, closes, waits⟩ := turned
      exact ⟨same, opens, congrArg (· + 1) closes, waits⟩
  | error error =>
    obtain ⟨opens, closes, heard⟩ := turned
    exact ⟨opens, congrArg (· + 1) closes, heard⟩

theorem Turned.opens {retries opened closed : Nat} {result : Except AdminExn (Option AdminExn)}
    {left : Tries} (turned : Turned settings retries opened closed result left) :
    left.opened = opened + 1 ∧ left.closed = closed := by
  cases result with
  | ok failed =>
    cases failed with
    | none => exact ⟨turned.1.2.1, turned.1.2.2.1⟩
    | some error => exact ⟨turned.2.1, turned.2.2.1⟩
  | error error => exact ⟨turned.1, turned.2.1⟩

theorem waits_follows {left : Tries} {retries opened : Nat} (delay : ℚ) (error : AdminExn)
    (counts : left.Counts retries (opened + 1) opened opened) :
    (monitor settings).Follows
      (do
        call (.sleep delay)
        return some error)
      (Turned settings retries opened opened) left := by
  obtain ⟨same, opens, closes, waits⟩ := counts
  refine Protocol.Follows.perform_bind ⟨by rw [opens, closes], by rw [opens, waits]⟩
    (fun _ => ⟨same, opens, closes, congrArg (· + 1) waits⟩)
    (fun error => ⟨opens, closes, .sleep delay, rfl, trivial⟩)
    fun error => ⟨opens, closes, .sleep delay, rfl, trivial⟩

theorem attempt_follows {tries : Tries} {retries opened : Nat} (delay : ℚ)
    (counts : tries.Counts retries opened opened opened) (more : opened < retries) :
    (monitor settings).Follows (attempt settings delay)
      (Turned settings retries opened (opened + 1)) tries := by
  have fetches : (monitor settings).Follows
      (do
        createMissing settings
        return none)
      (fun result left => Fetched settings retries opened result left ∧
        ∀ failed, result = .ok failed → failed = (none : Option AdminExn)) tries :=
    (createMissing_follows counts more).bind
      (fun _ _ fetched => ⟨fetched, by rintro _ ⟨⟩; rfl⟩)
      fun _ _ fetched => ⟨fetched, by rintro _ ⟨⟩⟩
  refine (closing_follows (Q := Turned settings retries opened opened) ?_
    (fetches.tryCatch ?_ fun error left fetched => ?_)).mono ?_
  · intro result left turned
    rw [turned.opens.1, turned.opens.2]
  · intro failed left fetched
    cases fetched.2 failed rfl
    exact fetched.1
  · obtain ⟨⟨counted, op, heard, kind⟩, _⟩ := fetched
    cases error with
    | kafkaConnection | os => exact waits_follows delay _ counted
    | _ => exact ⟨counted.2.1, counted.2.2.1, op, heard, by simpa using kind⟩
  · rintro result _ ⟨before, turned, rfl⟩
    exact turned.closes

/-- By induction on the attempts that are left. -/
theorem attempts_follows (delay : ℚ) (more : Nat) (lastError : Option AdminExn) {tries : Tries}
    {retries opened : Nat} (counts : tries.Counts retries opened opened opened)
    (rest : opened + more = retries) (last : lastError = none ↔ opened = 0) :
    (monitor settings).Follows (attempts settings delay more lastError)
      (Ended settings retries) tries := by
  induction more generalizing lastError tries opened with
  | zero =>
    obtain ⟨same, opens, closes, waits⟩ := counts
    rw [Nat.add_zero] at rest
    subst rest
    exact ⟨opens.trans closes.symm, .inr ⟨lastError, rfl, opens, waits, last⟩⟩
  | succ more ih =>
    refine (attempt_follows delay counts (by omega)).bind (fun failed left turned => ?_)
      fun error left turned => ?_
    · cases failed with
      | none =>
        obtain ⟨⟨_, opens, closes, waits⟩, complete⟩ := turned
        exact ⟨opens.trans closes.symm, by rw [opens, waits], complete⟩
      | some error => exact ih (some error) turned (by omega) (by simp)
    · obtain ⟨opens, closes, heard⟩ := turned
      exact ⟨opens.trans closes.symm, .inl heard⟩

theorem keeps (settings : BootSettings) (boot : Boot) :
    (monitor settings).Follows ((system settings).program boot)
      (Ended settings boot.retries.toNat) ((monitor settings).born boot) :=
  attempts_follows boot.delay _ none ⟨rfl, rfl, rfl, rfl⟩ (Nat.zero_add _)
    (iff_of_true rfl rfl)

end Tries

/-! ### The broker's side -/

/-- What the client may raise at a call. -/
def May : AdminOp → AdminExn → Prop
  | .sleep _, _ => False
  | .createTopics _, .topicAlreadyExists => True
  | _, error => error.fault = true

theorem other_of_fatal {op : AdminOp} {error : AdminExn} (may : May op error)
    (fatal : Tries.Fatal op error) : error = .other := by
  cases op <;> cases error <;> simp_all [May, Tries.Fatal, AdminExn.fault]

/-- All a request for topics can do: it goes through, loses its race, or fails half way. -/
theorem creating_cases (actor : Nat) {broker last : Broker} {topics : List NewTopic} {fate : AdminFate}
    {outcome : Outcome AdminExn Unit}
    (performed : perform actor (.createTopics topics) broker fate = some (outcome, last)) :
    ∃ created, last = ⟨broker.topics ++ created⟩ ∧ created.Sublist (fresh broker topics) ∧
      (created = fresh broker topics ∧ (outcome = .ok () ∨ outcome = .late .topicAlreadyExists) ∨
        ∃ error, error.fault = true ∧ outcome = .late error) := by
  cases fate with
  | normal =>
    simp only [perform] at performed
    split at performed
    · cases performed
      exact ⟨_, rfl, List.Sublist.refl _, .inl ⟨rfl, .inl rfl⟩⟩
    · cases performed
      exact ⟨_, rfl, List.Sublist.refl _, .inl ⟨rfl, .inr rfl⟩⟩
  | fails error created =>
    simp only [perform, Option.ite_none_right_eq_some, Option.some.injEq, Prod.mk.injEq] at performed
    obtain ⟨⟨faulty, within⟩, rfl, rfl⟩ := performed
    exact ⟨created, rfl, within, .inr ⟨error, faulty, rfl⟩⟩

/-- Any other operation leaves the topics, and may fail unless it is a wait. -/
theorem perform_cases (actor : Nat) {op : AdminOp} {broker last : Broker} {fate : AdminFate}
    {outcome : Outcome AdminExn op.Reply}
    (performed : perform actor op broker fate = some (outcome, last))
    (other : ∀ topics, op ≠ .createTopics topics) :
    last = broker ∧ ∀ error, outcome.reply = .error error → May op error := by
  cases fate with
  | normal =>
    cases op with
    | createTopics topics => exact absurd rfl (other topics)
    | _ =>
      cases performed
      exact ⟨rfl, by rintro _ ⟨⟩⟩
  | fails failure created =>
    cases op with
    | createTopics topics => exact absurd rfl (other topics)
    | sleep seconds => cases performed
    | _ =>
      simp only [perform, Option.ite_none_right_eq_some, Option.some.injEq, Prod.mk.injEq] at performed
      obtain ⟨faulty, rfl, rfl⟩ := performed
      refine ⟨rfl, ?_⟩
      rintro _ ⟨⟩
      exact faulty

theorem perform_may (actor : Nat) {op : AdminOp} {broker last : Broker} {fate : AdminFate}
    {outcome : Outcome AdminExn op.Reply} {error : AdminExn}
    (performed : perform actor op broker fate = some (outcome, last))
    (raised : outcome.reply = .error error) : May op error := by
  cases op with
  | createTopics topics =>
    obtain ⟨_, _, _, ⟨_, rfl | rfl⟩ | ⟨failure, faulty, rfl⟩⟩ := creating_cases actor performed
    · cases raised
    · cases raised
      trivial
    · cases raised
      cases error <;> first | exact faulty | trivial
  | _ => exact (perform_cases actor performed (by simp)).2 _ raised

/-- An operation creates some of the topics it was asked for, each of a new name. -/
theorem perform_created (actor : Nat) {op : AdminOp} {broker last : Broker} {fate : AdminFate}
    {outcome : Outcome AdminExn op.Reply}
    (performed : perform actor op broker fate = some (outcome, last)) :
    ∃ created, last.topics = broker.topics ++ created ∧
      (created = [] ∨ ∃ topics, op = .createTopics topics ∧ created.Sublist (fresh broker topics)) := by
  cases op with
  | createTopics topics =>
    obtain ⟨created, rfl, within, _⟩ := creating_cases actor performed
    exact ⟨created, rfl, .inr ⟨topics, rfl, within⟩⟩
  | _ =>
    obtain rfl := (perform_cases actor performed (by simp)).1
    exact ⟨[], (List.append_nil _).symm, .inl rfl⟩

theorem create_asked (reached : Reachable (system settings) allows first pool) {call : Boot}
    {topics : List NewTopic} {resume : Except AdminExn Unit → AdminProg Unit}
    (awaiting : pool.threads thread = some ⟨call, .await (.createTopics topics) resume⟩) :
    ∃ existing, topics = missingTopics settings existing := by
  obtain ⟨_, existing, _, same⟩ :=
    Monitor.allowed_of_awaiting (Tries.keeps settings) reached awaiting
  exact ⟨existing, same⟩

/-- Topics have names of their own, and come from the start, from the declaration or from others. -/
structure Kept (settings : BootSettings) (first : Broker) (pool : Replicas) : Prop where
  apart : pool.world.names.Nodup
  origin : ∀ topic ∈ pool.world.topics, topic ∈ first.topics ∨ topic ∈ desiredTopics settings ∨
    Label.event (.create topic) ∈ pool.trace

theorem fresh_apart {broker : Broker} {topics created : List NewTopic} (apart : broker.names.Nodup)
    (named : (topics.map NewTopic.name).Nodup) (some_ : created.Sublist (fresh broker topics)) :
    ((broker.topics ++ created).map NewTopic.name).Nodup := by
  rw [List.map_append, List.nodup_append]
  refine ⟨apart, ?_, ?_⟩
  · exact named.sublist ((some_.trans List.filter_sublist).map _)
  · rintro name there _ new rfl
    obtain ⟨topic, member, rfl⟩ := List.mem_map.mp new
    have absent := (List.mem_filter.mp (some_.subset member)).2
    simp only [decide_not, Bool.not_eq_true', decide_eq_false_iff_not] at absent
    exact absent there

theorem kept (reached : Reachable (system settings) allows first pool) (apart : first.names.Nodup) :
    Kept settings first pool := by
  induction reached with
  | init => exact ⟨apart, fun topic member => .inl member⟩
  | @step pool label after reached permitted moved ih =>
    have older : ∀ {topic}, topic ∈ pool.world.topics → topic ∈ first.topics ∨
        topic ∈ desiredTopics settings ∨ Label.event (.create topic) ∈ after.trace := by
      intro topic member
      rw [step_trace moved]
      exact (ih.origin topic member).imp_right (Or.imp_right (List.mem_cons_of_mem _))
    cases moved with
    | did actor call op resume fate outcome world awaiting performed =>
      obtain ⟨created, grown, none | ⟨topics, asked, some_⟩⟩ := perform_created actor performed
      · rw [none, List.append_nil] at grown
        refine ⟨?_, fun topic member => older (grown ▸ member)⟩
        rw [Broker.names, grown]
        exact ih.apart
      · subst asked
        obtain ⟨existing, rfl⟩ := create_asked reached awaiting
        constructor
        · rw [Broker.names, grown]
          exact fresh_apart ih.apart
            ((desired_names settings).sublist (List.filter_sublist.map _)) some_
        · intro topic member
          rw [grown, List.mem_append] at member
          rcases member with old | new
          · exact older old
          · exact .inr (.inl (missing_desired (List.mem_filter.mp (some_.subset new)).1))
    | event event world happened =>
      cases event with
      | create topic =>
        simp only [system, happen, Option.ite_none_left_eq_some, Option.some.injEq] at happened
        obtain ⟨new, rfl⟩ := happened
        constructor
        · simp only [Broker.names, List.map_append, List.map_cons, List.map_nil]
          exact List.nodup_append.mpr ⟨ih.apart, by simp, by
            rintro name there _ member rfl
            rw [List.mem_singleton.mp member] at there
            exact new there⟩
        · intro other member
          rcases List.mem_append.mp member with old | same
          · exact older old
          · rw [List.mem_singleton.mp same]
            exact .inr (.inr (List.mem_cons_self ..))
      | delete name =>
        simp only [system, happen, Option.some.injEq] at happened
        subst happened
        exact ⟨ih.apart.sublist (List.filter_sublist.map _),
          fun topic member => older (List.mem_filter.mp member).1⟩
    | _ => exact ⟨ih.apart, fun topic member => older member⟩

/-- Nobody deletes a topic the program needs. -/
def LeavesTopics (settings : BootSettings) (_ : Replicas) (label : Turn) : Prop :=
  ∀ topic ∈ desiredTopics settings, label ≠ .event (.delete topic.name)

/-- What the survey says of the broker. -/
def Survey.Holds (settings : BootSettings) (broker : Broker) : Survey → Prop
  | .blank => True
  | .listed existing => ∀ wanted ∈ desiredTopics settings, wanted.name ∈ existing →
      wanted.name ∈ broker.names
  | .ensured => ∀ wanted ∈ desiredTopics settings, wanted.name ∈ broker.names

theorem Survey.Holds.later {broker last : Broker} {survey : Survey}
    (holds : survey.Holds settings broker)
    (stays : ∀ wanted ∈ desiredTopics settings, wanted.name ∈ broker.names →
      wanted.name ∈ last.names) : survey.Holds settings last := by
  cases survey with
  | blank => trivial
  | listed existing =>
    exact fun wanted desired listed => stays wanted desired (holds wanted desired listed)
  | ensured => exact fun wanted desired => stays wanted desired (holds wanted desired)

theorem Survey.Holds.complete {broker : Broker} {survey : Survey}
    (holds : survey.Holds settings broker) (complete : survey.Complete settings) {wanted : NewTopic}
    (desired : wanted ∈ desiredTopics settings) : wanted.name ∈ broker.names := by
  cases survey with
  | blank => exact complete.elim
  | listed existing =>
    refine holds wanted desired ?_
    by_contra absent
    have missing : wanted ∈ missingTopics settings existing :=
      List.mem_filter.mpr ⟨desired, by simpa using absent⟩
    rw [List.isEmpty_iff.mp complete] at missing
    cases missing
  | ensured => exact holds wanted desired

abbrev Moves := List (Move Boot BrokerEvent AdminFate)

def undisturbed (_ : Replicas) : Turn → Bool
  | .event _ => false
  | _ => true

theorem undisturbed_sound (pool : Replicas) (label : Turn) (quiet : undisturbed pool label = true) :
    LeavesTopics settings pool label := by
  rintro topic _ rfl
  cases quiet

/-- Replicas on their own, over an empty broker. -/
def played (moves : Moves) : Option Replicas :=
  (Pool.initial ⟨[]⟩ : Replicas).play (system {}) undisturbed moves

theorem played_reached {moves : Moves} (ran : played moves = some pool) :
    Reachable (system {}) (LeavesTopics {}) ⟨[]⟩ pool :=
  Pool.play_reachable _ (fun pool label _ => undisturbed_sound pool label) moves .init ran

def outcomeOf (pool : Replicas) (thread : Nat) : Option (Except AdminExn Unit) :=
  match pool.threads thread with
  | some ⟨_, .ret _⟩ => some (.ok ())
  | some ⟨_, .raise error⟩ => some (.error error)
  | _ => none

/-- How often a call tries, and how it ends. -/
structure Bounded (boot : Boot) (program : AdminProg Unit) (tries : Tries) : Prop where
  within : tries.opened ≤ boot.retries.toNat
  single : tries.closed ≤ tries.opened ∧ tries.opened ≤ tries.closed + 1
  returned : ∀ value, program = .ret value →
    tries.opened = tries.closed ∧ tries.opened = tries.waits + 1
  raised : ∀ error, program = .raise error → tries.opened = tries.closed ∧
    (error = .other ∨ ∃ last, error = .runtime last ∧ tries.opened = boot.retries.toNat ∧
      tries.waits = boot.retries.toNat ∧ (last = none ↔ boot.retries ≤ 0))

theorem heard_may (reached : Reachable (system settings) allows first pool) (thread : Nat) :
    ∀ op error, ((Tries.monitor settings).record pool.trace thread).heard = some (op, error) →
      May op error := by
  refine Monitor.each_record
    (P := fun _ _ tries => ∀ op error, tries.heard = some (op, error) → May op error)
    (Tries.monitor settings) (Tries.keeps settings) (by rintro _ _ _ _ ⟨⟩) (by rintro _ _ _ _ _ ⟨⟩)
    (fun _ _ _ _ _ _ _ _ _ holds => holds) ?_ reached thread
  intro pool after thread op outcome reached permitted moved allowed holds last error heard
  cases moved with
  | did _ call _ resume fate _ world awaiting performed =>
    have may : ∀ {failure}, outcome.reply = .error failure → May op failure :=
      perform_may thread performed
    cases op with
    | close => exact holds last error heard
    | _ =>
      simp only [Tries.monitor, Tries.next] at heard
      cases outcome with
      | ok value => exact holds last error heard
      | lost failure | late failure =>
        cases heard
        exact may rfl

def Tries.OneByOne (boot : Boot) (tries : Tries) : Prop :=
  tries.retries = boot.retries.toNat ∧ tries.opened ≤ tries.retries ∧
    tries.closed ≤ tries.opened ∧ tries.opened ≤ tries.closed + 1

theorem one_by_one (reached : Reachable (system settings) allows first pool)
    {running : Thread AdminOp AdminOp.Reply AdminExn Boot Unit}
    (held : pool.threads thread = some running) :
    Tries.OneByOne running.call ((Tries.monitor settings).record pool.trace thread) := by
  refine Monitor.kept_of_held (Tries.monitor settings) ?_ ?_ (Tries.keeps settings) reached thread
    running held
  · exact fun boot => ⟨rfl, Nat.zero_le _, Nat.le_refl _, Nat.zero_le _⟩
  · intro boot tries op outcome ⟨same, within, single⟩ allowed
    cases op with
    | start =>
      obtain ⟨closed, more⟩ := allowed
      refine ⟨same, more, ?_, ?_⟩ <;> simp [Tries.monitor, Tries.next, Tries.count, closed]
    | close =>
      have opened : tries.opened = tries.closed + 1 := allowed
      refine ⟨same, within, ?_, ?_⟩ <;> simp [Tries.monitor, Tries.next, Tries.count, opened]
    | _ => exact ⟨same, within, single⟩

/-- A call opens one client at a time, at most `retries` of them, and closes each. -/
theorem bootstrap_bounded (reached : Reachable (system settings) allows first pool)
    {running : Thread AdminOp AdminOp.Reply AdminExn Boot Unit}
    (held : pool.threads thread = some running) :
    Bounded running.call running.program ((Tries.monitor settings).record pool.trace thread) := by
  have follows := Monitor.follows_of_reachable (Tries.keeps settings) reached thread _ held
  obtain ⟨same, within, single⟩ := one_by_one reached held
  refine ⟨same ▸ within, single, ?_, ?_⟩
  · intro value ended
    rw [ended] at follows
    exact ⟨follows.1, follows.2.1⟩
  · intro error ended
    rw [ended] at follows
    obtain ⟨closed, ⟨op, heard, fatal⟩ | ⟨last, rfl, opened, waits, given⟩⟩ := follows
    · exact ⟨closed, .inl (other_of_fatal (heard_may reached thread _ _ heard) fatal)⟩
    · exact ⟨closed, .inr ⟨last, rfl, opened, waits, given.trans Int.toNat_eq_zero⟩⟩

/-- One attempt, and the broker is not up. -/
def unreachable : Moves :=
  [.start 0 { retries := 1 }, .run 0 (.fails .kafkaConnection []), .run 0 .normal, .run 0 .normal]

def waitedOut : Option (Except AdminExn Unit) → Bool
  | some (.error (.runtime (some .kafkaConnection))) => true
  | _ => false

theorem unreachable_raises : ∃ (pool : Replicas) (boot : Boot),
    Reachable (system {}) (LeavesTopics {}) ⟨[]⟩ pool ∧
      pool.threads 0 = some ⟨boot, .raise (.runtime (some .kafkaConnection))⟩ := by
  obtain ⟨pool, ran, finished⟩ := (Option.any_eq_true _ _).mp
    (show (played unreachable).any (fun pool => waitedOut (outcomeOf pool 0)) = true by
      decide +kernel)
  unfold outcomeOf at finished
  split at finished
  · cases finished
  · unfold waitedOut at finished
    split at finished
    · rename_i same
      cases same
      exact ⟨pool, _, played_reached ran, ‹_›⟩
    · cases finished
  · cases finished

theorem bootstrap_bounded_run : ∃ (pool : Replicas) (boot : Boot),
    pool.threads 0 = some ⟨boot, .raise (.runtime (some .kafkaConnection))⟩ ∧
      Bounded boot (.raise (.runtime (some .kafkaConnection)))
        ((Tries.monitor {}).record pool.trace 0) := by
  obtain ⟨pool, boot, reached, held⟩ := unreachable_raises
  exact ⟨pool, boot, held, bootstrap_bounded reached held⟩

end OrderFlow.Admin
