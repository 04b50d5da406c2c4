import OrderFlow.System

/-!
What one operation does to the stores: it leaves no trace or takes effect, and
each part of the world is changed by few operations.
-/
namespace OrderFlow
open AsyncCoroutine AsyncPool

variable {deployment : Deployment} {thread : Nat} {op : Op} {world after : World} {fate : Fate}
  {outcome : Outcome Exn op.Reply} {oracle : Oracle} {value : op.Reply}

theorem answer_error {error : Exn}
    (answered : answer deployment thread op world oracle = some (.error error, after)) :
    after = world := by
  cases op <;> simp only [answer] at answered <;> grind

/-- A raised operation left no trace; an answered or late one took effect. -/
theorem perform_cases (performed : perform deployment thread op world fate = some (outcome, after)) :
    (∃ error, outcome = .lost error ∧ after = world) ∨
    (∃ value oracle, answer deployment thread op world oracle = some (.ok value, after) ∧
      outcome.Took value) := by
  cases fate with
  | normal oracle =>
    simp only [perform] at performed
    split at performed
    · rename_i value next answered
      cases performed
      exact .inr ⟨value, oracle, answered, .inl rfl⟩
    · rename_i error next answered
      cases performed
      exact .inl ⟨error, rfl, answer_error answered⟩
    · cases performed
  | lost =>
    simp only [perform] at performed
    split at performed
    · cases performed
    · cases performed
      exact .inl ⟨_, rfl, rfl⟩
  | late oracle =>
    simp only [perform] at performed
    split at performed
    · cases performed
    · split at performed
      · rename_i value next answered
        cases performed
        exact .inr ⟨value, oracle, answered, .inr ⟨_, rfl⟩⟩
      · cases performed

/-- Steps inside the process are never lost on the way: they answer or raise by themselves. -/
theorem perform_local (performed : perform deployment thread op world fate = some (outcome, after))
    (inside : op.isLocal = true) :
    ∃ oracle reply, answer deployment thread op world oracle = some (reply, after) ∧
      outcome = (match reply with | .ok value => .ok value | .error error => .lost error) := by
  cases fate with
  | normal oracle =>
    simp only [perform] at performed
    split at performed
    · rename_i value next answered
      cases performed
      exact ⟨oracle, _, answered, rfl⟩
    · rename_i error next answered
      cases performed
      exact ⟨oracle, _, answered, rfl⟩
    · cases performed
  | lost => simp [perform, inside] at performed
  | late oracle => simp [perform, inside] at performed

theorem fetch_cons {decode : Decode} {topic : String} {tp : TopicPartition} {count : Nat}
    {plan : List (TopicPartition × Nat)} {batch : List (TopicPartition × List ConsumerRecord)}
    (fetched : fetch decode thread topic world ((tp, count) :: plan) = some (.ok (batch, after))) :
    ∃ position records more, world.positions thread tp = some position ∧ tp.topic = topic ∧
      0 < count ∧ (((world.logs tp).drop position).take count).length = count ∧
      tp ∉ plan.map Prod.fst ∧
      decodeFrom decode tp position (((world.logs tp).drop position).take count) =
        some records ∧
      fetch decode thread topic (world.setPosition thread tp (some (position + count))) plan =
        some (.ok (more, after)) ∧ batch = (tp, records) :: more := by
  simp only [fetch, Option.bind_eq_bind, Option.bind_eq_some_iff] at fetched
  obtain ⟨position, held, fetched⟩ := fetched
  split at fetched
  · cases fetched
  · rename_i sound
    simp only [not_or, not_not, ne_eq] at sound
    obtain ⟨sameTopic, positive, enough, absent⟩ := sound
    split at fetched
    · cases fetched
    · rename_i records decoded
      simp only [Option.bind_eq_some_iff] at fetched
      obtain ⟨result, more, fetched⟩ := fetched
      split at fetched
      · cases fetched
        exact ⟨position, records, _, held, sameTopic, Nat.pos_of_ne_zero positive, enough, absent,
          decoded, more, rfl⟩
      · cases fetched

theorem fetch_world {decode : Decode} {topic : String} {plan : List (TopicPartition × Nat)}
    {batch : List (TopicPartition × List ConsumerRecord)}
    (fetched : fetch decode thread topic world plan = some (.ok (batch, after))) :
    after = { world with positions := after.positions } := by
  induction plan generalizing world batch with
  | nil =>
    cases fetched
    rfl
  | cons entry rest ih =>
    obtain ⟨position, records, more, _, _, _, _, _, _, fetchedMore, _⟩ := fetch_cons fetched
    have later := ih fetchedMore
    rw [later]
    rfl

/-! ### What stays -/

theorem answer_getmany {topic : String} {batch : List (TopicPartition × List ConsumerRecord)}
    (answered : answer deployment thread (.getmany topic) world oracle = some (.ok batch, after)) :
    fetch (deserialize deployment.platform) thread topic world oracle.fetch = some (.ok (batch, after)) := by
  simp only [answer] at answered
  split at answered
  · split at answered
    · rename_i fetched
      cases answered
      exact fetched
    · cases answered
    · cases answered
  · cases answered

/-- A commit changes the three tables only. -/
theorem write_world (writes : List Write) (world : World) :
    world.write writes = { world with
      orders := (world.write writes).orders
      transitions := (world.write writes).transitions
      deadLetters := (world.write writes).deadLetters } := by
  induction writes generalizing world with
  | nil => rfl
  | cons first rest ih =>
    have later := ih (first.apply world)
    simp only [World.write, List.foldl_cons] at later ⊢
    rw [later]
    cases first <;> rfl

theorem answer_tables
    (answered : answer deployment thread op world oracle = some (.ok value, after))
    (other : op.onTables = false) :
    after.orders = world.orders ∧ after.transitions = world.transitions ∧
      after.deadLetters = world.deadLetters := by
  cases op with
  | commit writes => cases other
  | getmany topic =>
    rw [fetch_world (answer_getmany answered)]
    exact ⟨rfl, rfl, rfl⟩
  | _ => simp only [answer] at answered; grind [World.setRedis, World.append, World.setPosition]

theorem answer_redis
    (answered : answer deployment thread op world oracle = some (.ok value, after))
    (other : op.onKeys = false) : after.redis = world.redis := by
  cases op with
  | getmany topic => rw [fetch_world (answer_getmany answered)]
  | commit writes =>
    cases answered
    rw [write_world]
  | _ => simp only [answer] at answered; grind [World.append, World.setPosition, Op.onKeys]

theorem answer_logs
    (answered : answer deployment thread op world oracle = some (.ok value, after))
    (other : op.onLogs = false) : after.logs = world.logs ∧ after.appends = world.appends := by
  cases op with
  | getmany topic =>
    rw [fetch_world (answer_getmany answered)]
    exact ⟨rfl, rfl⟩
  | commit writes =>
    cases answered
    rw [write_world]
    exact ⟨rfl, rfl⟩
  | _ => simp only [answer] at answered; grind [World.setRedis, World.setPosition, Op.onLogs]

theorem answer_committed
    (answered : answer deployment thread op world oracle = some (.ok value, after))
    (other : op.onOffsets = false) : after.committed = world.committed := by
  cases op with
  | getmany topic => rw [fetch_world (answer_getmany answered)]
  | commit writes =>
    cases answered
    rw [write_world]
  | _ =>
    simp only [answer] at answered
    grind [World.setRedis, World.append, World.setPosition, Op.onOffsets]

theorem answer_positions
    (answered : answer deployment thread op world oracle = some (.ok value, after))
    (other : op.onPositions = false) : after.positions = world.positions := by
  cases op with
  | commit writes =>
    cases answered
    rw [write_world]
  | _ =>
    simp only [answer] at answered
    grind [World.setRedis, World.append, Op.onPositions]

theorem answer_issued
    (answered : answer deployment thread op world oracle = some (.ok value, after))
    (other : op.onIssued = false) : after.issued = world.issued := by
  cases op with
  | getmany topic => rw [fetch_world (answer_getmany answered)]
  | commit writes =>
    cases answered
    rw [write_world]
  | _ =>
    simp only [answer] at answered
    grind [World.setRedis, World.append, World.setPosition, Op.onIssued]

theorem answer_numbers
    (answered : answer deployment thread op world oracle = some (.ok value, after))
    (other : op.onNumbers = false) : after.nextTransition = world.nextTransition := by
  cases op with
  | getmany topic => rw [fetch_world (answer_getmany answered)]
  | commit writes =>
    cases answered
    rw [write_world]
  | _ =>
    simp only [answer] at answered
    grind [World.setRedis, World.append, World.setPosition, Op.onNumbers]

/-- The same for an operation with any fate. -/
theorem perform_frame {Part : Type} (part : World → Part)
    (performed : perform deployment thread op world fate = some (outcome, after))
    (keeps : ∀ value oracle, answer deployment thread op world oracle = some (.ok value, after) →
      part after = part world) : part after = part world := by
  rcases perform_cases performed with ⟨error, _, same⟩ | ⟨value, oracle, answered, _⟩
  · rw [same]
  · exact keeps value oracle answered

theorem perform_orders (performed : perform deployment thread op world fate = some (outcome, after))
    (other : op.onTables = false) : after.orders = world.orders :=
  perform_frame World.orders performed fun _ _ answered => (answer_tables answered other).1

theorem perform_transitions
    (performed : perform deployment thread op world fate = some (outcome, after))
    (other : op.onTables = false) : after.transitions = world.transitions :=
  perform_frame World.transitions performed fun _ _ answered => (answer_tables answered other).2.1

theorem perform_deadLetters
    (performed : perform deployment thread op world fate = some (outcome, after))
    (other : op.onTables = false) : after.deadLetters = world.deadLetters :=
  perform_frame World.deadLetters performed fun _ _ answered => (answer_tables answered other).2.2

theorem perform_redis (performed : perform deployment thread op world fate = some (outcome, after))
    (other : op.onKeys = false) : after.redis = world.redis :=
  perform_frame World.redis performed fun _ _ answered => answer_redis answered other

theorem perform_logs (performed : perform deployment thread op world fate = some (outcome, after))
    (other : op.onLogs = false) : after.logs = world.logs :=
  perform_frame World.logs performed fun _ _ answered => (answer_logs answered other).1

theorem perform_appends
    (performed : perform deployment thread op world fate = some (outcome, after))
    (other : op.onLogs = false) : after.appends = world.appends :=
  perform_frame World.appends performed fun _ _ answered => (answer_logs answered other).2

theorem perform_committed
    (performed : perform deployment thread op world fate = some (outcome, after))
    (other : op.onOffsets = false) : after.committed = world.committed :=
  perform_frame World.committed performed fun _ _ answered => answer_committed answered other

theorem perform_positions
    (performed : perform deployment thread op world fate = some (outcome, after))
    (other : op.onPositions = false) : after.positions = world.positions :=
  perform_frame World.positions performed fun _ _ answered => answer_positions answered other

theorem perform_issued (performed : perform deployment thread op world fate = some (outcome, after))
    (other : op.onIssued = false) : after.issued = world.issued :=
  perform_frame World.issued performed fun _ _ answered => answer_issued answered other

theorem perform_numbers
    (performed : perform deployment thread op world fate = some (outcome, after))
    (other : op.onNumbers = false) : after.nextTransition = world.nextTransition :=
  perform_frame World.nextTransition performed fun _ _ answered => answer_numbers answered other

theorem fetch_positions_other {decode : Decode} {topic : String}
    {plan : List (TopicPartition × Nat)}
    {batch : List (TopicPartition × List ConsumerRecord)} {other : Nat} (differ : other ≠ thread)
    (fetched : fetch decode thread topic world plan = some (.ok (batch, after))) :
    after.positions other = world.positions other := by
  induction plan generalizing world batch with
  | nil =>
    cases fetched
    rfl
  | cons entry rest ih =>
    obtain ⟨position, records, more, _, _, _, _, _, _, fetchedMore, _⟩ := fetch_cons fetched
    rw [ih fetchedMore]
    simp [World.setPosition, Function.update_of_ne differ]

/-- A worker's positions are its own. -/
theorem perform_positions_other {other : Nat} (differ : other ≠ thread)
    (performed : perform deployment thread op world fate = some (outcome, after)) :
    after.positions other = world.positions other := by
  refine perform_frame (fun world => world.positions other) performed ?_
  intro value oracle answered
  cases op with
  | getmany topic => exact fetch_positions_other differ (answer_getmany answered)
  | seek tp offset =>
    simp only [answer] at answered
    split at answered
    · cases answered
      simp [World.setPosition, Function.update_of_ne differ]
    · cases answered
  | stopConsumer =>
    cases answered
    simp [Function.update_of_ne differ]
  | _ => rw [answer_positions answered rfl]

/-- The environment touches keys, logs and positions, never tables or commits. -/
theorem happen_frame {event : Event} (happened : happen deployment event world = some after) :
    after.orders = world.orders ∧ after.transitions = world.transitions ∧
      after.deadLetters = world.deadLetters ∧ after.committed = world.committed ∧
      after.issued = world.issued := by
  cases event with
  | expire key =>
    simp only [happen] at happened
    split at happened
    · cases happened
      exact ⟨rfl, rfl, rfl, rfl, rfl⟩
    · cases happened
  | _ =>
    cases happened
    exact ⟨rfl, rfl, rfl, rfl, rfl⟩

theorem happen_numbers {event : Event} (happened : happen deployment event world = some after) :
    after.nextTransition = world.nextTransition := by
  cases event with
  | expire key =>
    simp only [happen] at happened
    split at happened
    · cases happened
      rfl
    · cases happened
  | _ =>
    cases happened
    rfl

theorem happen_redis {event : Event} (happened : happen deployment event world = some after)
    (key : Key) : after.redis key = world.redis key ∨
      event = .expire key ∧ after.redis key = none := by
  cases event with
  | expire expired =>
    simp only [happen] at happened
    split at happened
    · cases happened
      by_cases same : key = expired
      · subst same
        exact .inr ⟨rfl, by simp [World.setRedis]⟩
      · exact .inl (by simp [World.setRedis, Function.update_of_ne same])
    · cases happened
  | _ =>
    cases happened
    exact .inl rfl

theorem happen_logs {event : Event} (happened : happen deployment event world = some after) :
    (after.logs = world.logs ∧ after.appends = world.appends) ∨
      ∃ tp record, event = .produce tp record ∧ after = world.append tp record := by
  cases event with
  | produce tp record =>
    cases happened
    exact .inr ⟨tp, record, rfl, rfl⟩
  | expire expired =>
    simp only [happen] at happened
    split at happened
    · cases happened
      exact .inl ⟨rfl, rfl⟩
    · cases happened
  | _ =>
    cases happened
    exact .inl ⟨rfl, rfl⟩

/-! ### What changes -/

section
variable {key : Key} {text : String} {ttl : Nat}

theorem perform_commit {writes : List Write} {outcome : Outcome Exn Unit}
    (performed : perform deployment thread (.commit writes) world fate = some (outcome, after)) :
    (∃ error, outcome = .lost error ∧ after = world) ∨
      (outcome.Took () ∧ after = world.write writes) := by
  rcases perform_cases performed with lost | ⟨value, oracle, answered, took⟩
  · exact .inl lost
  · cases answered
    exact .inr ⟨took, rfl⟩

theorem perform_setNx {outcome : Outcome Exn Bool}
    (performed : perform deployment thread (.setNx key text ttl) world fate =
      some (outcome, after)) :
    (∃ error, outcome = .lost error ∧ after = world) ∨
      (outcome.Took true ∧ world.redis key = none ∧ after = world.setRedis key (some text)) ∨
      (outcome.Took false ∧ world.redis key ≠ none ∧ after = world) := by
  rcases perform_cases performed with lost | ⟨value, oracle, answered, took⟩
  · exact .inl lost
  · simp only [answer] at answered
    split at answered
    · rename_i free
      cases answered
      exact .inr (.inl ⟨took, by simpa using free, rfl⟩)
    · rename_i taken
      cases answered
      exact .inr (.inr ⟨took, by simpa using taken, rfl⟩)

theorem perform_set {outcome : Outcome Exn Unit}
    (performed : perform deployment thread (.set key text ttl) world fate =
      some (outcome, after)) :
    (∃ error, outcome = .lost error ∧ after = world) ∨
      (outcome.Took () ∧ after = world.setRedis key (some text)) := by
  rcases perform_cases performed with lost | ⟨value, oracle, answered, took⟩
  · exact .inl lost
  · cases answered
    exact .inr ⟨took, rfl⟩

theorem perform_get {outcome : Outcome Exn (Option String)}
    (performed : perform deployment thread (.get key) world fate = some (outcome, after)) :
    after = world ∧ ((∃ error, outcome = .lost error) ∨ outcome.Took (world.redis key)) := by
  rcases perform_cases performed with ⟨error, lost, same⟩ | ⟨value, oracle, answered, took⟩
  · exact ⟨same, .inl ⟨error, lost⟩⟩
  · cases answered
    exact ⟨rfl, .inr took⟩

theorem perform_delete {outcome : Outcome Exn Unit}
    (performed : perform deployment thread (.delete key) world fate = some (outcome, after)) :
    (∃ error, outcome = .lost error ∧ after = world) ∨
      (outcome.Took () ∧ after = world.setRedis key none) := by
  rcases perform_cases performed with lost | ⟨value, oracle, answered, took⟩
  · exact .inl lost
  · cases answered
    exact .inr ⟨took, rfl⟩

theorem perform_evalComplete {outcome : Outcome Exn Bool}
    (performed : perform deployment thread (.evalComplete key text ttl) world fate =
      some (outcome, after)) :
    (∃ error, outcome = .lost error ∧ after = world) ∨
      (outcome.Took true ∧ world.redis key = some text ∧ after = world.setRedis key (some done)) ∨
      (outcome.Took false ∧ world.redis key ≠ some text ∧ after = world) := by
  rcases perform_cases performed with lost | ⟨value, oracle, answered, took⟩
  · exact .inl lost
  · simp only [answer] at answered
    split at answered
    · rename_i owned
      cases answered
      exact .inr (.inl ⟨took, owned, rfl⟩)
    · rename_i foreign
      cases answered
      exact .inr (.inr ⟨took, foreign, rfl⟩)

theorem perform_evalRelease {outcome : Outcome Exn Bool}
    (performed : perform deployment thread (.evalRelease key text) world fate =
      some (outcome, after)) :
    (∃ error, outcome = .lost error ∧ after = world) ∨
      (outcome.Took true ∧ world.redis key = some text ∧ after = world.setRedis key none) ∨
      (outcome.Took false ∧ world.redis key ≠ some text ∧ after = world) := by
  rcases perform_cases performed with lost | ⟨value, oracle, answered, took⟩
  · exact .inl lost
  · simp only [answer] at answered
    split at answered
    · rename_i owned
      cases answered
      exact .inr (.inl ⟨took, owned, rfl⟩)
    · rename_i foreign
      cases answered
      exact .inr (.inr ⟨took, foreign, rfl⟩)

theorem perform_selectOrder {id : Uuid} {outcome : Outcome Exn (Option OrderRow)}
    (performed : perform deployment thread (.selectOrder id) world fate = some (outcome, after)) :
    after = world ∧ ((∃ error, outcome = .lost error) ∨ outcome.Took (world.orders id)) := by
  rcases perform_cases performed with ⟨error, lost, same⟩ | ⟨value, oracle, answered, took⟩
  · exact ⟨same, .inl ⟨error, lost⟩⟩
  · cases answered
    exact ⟨rfl, .inr took⟩

theorem perform_selectTransitions {id : Uuid} {outcome : Outcome Exn (List StatusTransition)}
    (performed : perform deployment thread (.selectTransitions id) world fate =
      some (outcome, after)) :
    after = world ∧ ((∃ error, outcome = .lost error) ∨ outcome.Took (world.transitions id)) := by
  rcases perform_cases performed with ⟨error, lost, same⟩ | ⟨value, oracle, answered, took⟩
  · exact ⟨same, .inl ⟨error, lost⟩⟩
  · cases answered
    exact ⟨rfl, .inr took⟩

theorem perform_flush {writes : List Write} {outcome : Outcome Exn Nat}
    (performed : perform deployment thread (.flush writes) world fate = some (outcome, after)) :
    (∃ error, outcome = .lost error ∧ after = world) ∨
      (outcome.Took world.nextTransition ∧
        after = { world with nextTransition := world.nextTransition + 1 }) := by
  rcases perform_cases performed with lost | ⟨value, oracle, answered, took⟩
  · exact .inl lost
  · simp only [answer] at answered
    split at answered
    · cases answered
      exact .inr ⟨took, rfl⟩
    · cases answered

/-- A flush that was numbered is one of values the columns take. -/
theorem flush_fits {writes : List Write} {hop : Nat}
    (performed : perform deployment thread (.flush writes) world fate = some (.ok hop, after)) :
    writes.all Write.fits = true := by
  rcases perform_cases performed with ⟨error, lost, _⟩ | ⟨value, oracle, answered, _⟩
  · cases lost
  · simp only [answer] at answered
    split at answered
    · assumption
    · cases answered

theorem perform_send {topic : String} {key : Option String} {value : Json} {headers : Headers}
    {outcome : Outcome Exn Unit}
    (performed : perform deployment thread (.send topic key value headers) world fate =
      some (outcome, after)) :
    (∃ error, outcome = .lost error ∧ after = world) ∨
      (outcome.Took () ∧ ∃ partition < deployment.settings.partitions topic,
        after = world.append ⟨topic, partition⟩
          (wireRecord deployment.platform key value headers)) := by
  rcases perform_cases performed with lost | ⟨reply, oracle, answered, took⟩
  · exact .inl lost
  · simp only [answer] at answered
    split at answered
    · rename_i small
      cases answered
      exact .inr ⟨took, oracle.partition, small, rfl⟩
    · cases answered

theorem perform_commitOffset {group : String} {tp : TopicPartition} {offset : Nat}
    {outcome : Outcome Exn Unit}
    (performed : perform deployment thread (.commitOffset group tp offset) world fate =
      some (outcome, after)) :
    (∃ error, outcome = .lost error ∧ after = world) ∨
      (outcome.Took () ∧ after.committed = Function.update world.committed group
          (Function.update (world.committed group) tp offset)) := by
  rcases perform_cases performed with lost | ⟨value, oracle, answered, took⟩
  · exact .inl lost
  · cases answered
    exact .inr ⟨took, rfl⟩

theorem perform_seek {tp : TopicPartition} {offset : Nat} {outcome : Outcome Exn Unit}
    (performed : perform deployment thread (.seek tp offset) world fate = some (outcome, after)) :
    (∃ error, outcome = .lost error ∧ after = world) ∨
      (outcome.Took () ∧ after = world.setPosition thread tp (some offset)) := by
  rcases perform_cases performed with lost | ⟨value, oracle, answered, took⟩
  · exact .inl lost
  · simp only [answer] at answered
    split at answered
    · cases answered
      exact .inr ⟨took, rfl⟩
    · cases answered

theorem perform_uuid4 {outcome : Outcome Exn Uuid}
    (performed : perform deployment thread .uuid4 world fate = some (outcome, after)) :
    ∃ id, outcome = .ok id ∧ id ∉ world.issued ∧
      after = { world with issued := id :: world.issued } := by
  obtain ⟨oracle, reply, answered, same⟩ := perform_local performed rfl
  simp only [answer] at answered
  split at answered
  · cases answered
  · rename_i fresh
    cases answered
    exact ⟨_, same, fresh, rfl⟩

end

/-! ### Tables after a commit -/

theorem create_orders (world : World) (row : OrderRow) (hop : Nat) :
    (world.write (Repository.createWrites row hop)).orders =
      Function.update world.orders row.id (some row) := rfl

theorem create_transitions (world : World) (row : OrderRow) (hop : Nat) :
    (world.write (Repository.createWrites row hop)).transitions =
      Function.update world.transitions row.id
        (insertHop ⟨hop, none, .pending, some (py "order accepted")⟩
          (world.transitions row.id)) := rfl

theorem transition_orders (world : World) (before row : OrderRow) (note : Option PyStr)
    (hop : Nat) :
    (world.write (Repository.transitionWrites before row note hop)).orders =
      Function.update world.orders before.id
        ((world.orders before.id).map (Repository.changesOf before row).apply) := rfl

theorem transition_transitions (world : World) (before row : OrderRow) (note : Option PyStr)
    (hop : Nat) :
    (world.write (Repository.transitionWrites before row note hop)).transitions =
      Function.update world.transitions before.id
        (insertHop ⟨hop, some before.status, row.status, note⟩
          (world.transitions before.id)) := rfl

theorem changed_getD {Value : Type} [DecidableEq Value] (written old : Value) :
    (if written = old then none else some written).getD old = written := by
  by_cases same : written = old <;> simp [same]

/-- Writing the changed columns onto the row that was read gives the new row. -/
theorem changes_apply (row : OrderRow) (status : OrderStatus) (attempts : Nat)
    (failureReason : Option PyStr) :
    (Repository.changesOf row (Repository.transitionRow row status attempts failureReason)).apply
      row = Repository.transitionRow row status attempts failureReason := by
  generalize written : Repository.transitionRow row status attempts failureReason = after
  simp only [OrderChanges.apply, Repository.changesOf, changed_getD]
  subst written
  rfl

theorem changes_id (changes : OrderChanges) (row : OrderRow) : (changes.apply row).id = row.id := rfl

/-- Idle operations are seen in the order cache at most. -/
theorem perform_idle (performed : perform deployment thread op world fate = some (outcome, after))
    (idle : op.idle = true) :
    after.orders = world.orders ∧ after.transitions = world.transitions ∧
      after.deadLetters = world.deadLetters ∧ after.logs = world.logs ∧
      after.appends = world.appends ∧
      ∀ key, (∀ orderId, key ≠ .order orderId) → after.redis key = world.redis key := by
  have frame : op.onTables = false → op.onLogs = false → op.onKeys = false →
      after.orders = world.orders ∧ after.transitions = world.transitions ∧
        after.deadLetters = world.deadLetters ∧ after.logs = world.logs ∧
        after.appends = world.appends ∧
        ∀ key, (∀ orderId, key ≠ .order orderId) → after.redis key = world.redis key :=
    fun tables logs keys => ⟨perform_orders performed tables, perform_transitions performed tables,
      perform_deadLetters performed tables, perform_logs performed logs,
      perform_appends performed logs, fun key _ => congrFun (perform_redis performed keys) key⟩
  cases op with
  | set written value ttl =>
    cases written with
    | order orderId =>
      rcases perform_set performed with ⟨_, _, rfl⟩ | ⟨_, rfl⟩
      · exact ⟨rfl, rfl, rfl, rfl, rfl, fun _ _ => rfl⟩
      · refine ⟨rfl, rfl, rfl, rfl, rfl, fun key other => ?_⟩
        simp [World.setRedis, Function.update_of_ne (other orderId)]
    | _ => cases idle
  | commit writes =>
    cases writes with
    | nil =>
      rcases perform_commit performed with ⟨_, _, rfl⟩ | ⟨_, rfl⟩ <;>
        exact ⟨rfl, rfl, rfl, rfl, rfl, fun _ _ => rfl⟩
    | cons first rest => cases idle
  | _ => first | exact frame rfl rfl rfl | cases idle

end OrderFlow
