import OrderFlow.Runs.Changes

/-!
Order rows over whole runs. A row stands under its own id, was inserted by one
submission, and never goes away; a delivery past its first read has an order.
-/
namespace OrderFlow
open AsyncCoroutine AsyncPool

variable {deployment : Deployment} {allows : Pipeline → Moment → Prop} {pool after : Pipeline}
  {thread : Nat} {op : Op} {outcome : Outcome Exn op.Reply}

def Known (pool : Pipeline) (id : Uuid) : Prop := ∃ row, pool.world.orders id = some row

theorem Inserted.later {trace : List Moment} {id : Uuid} (inserted : Inserted trace thread id)
    (label : Moment) : Inserted (label :: trace) thread id := by
  obtain ⟨payload, hop, outcome, member, took⟩ := inserted
  exact ⟨payload, hop, outcome, List.mem_cons_of_mem _ member, took⟩

/-- A step changes the order rows through an operation of one thread, if at all. -/
theorem step_orders {label : Moment}
    (reached : Reachable (system deployment) allows World.empty pool)
    (moved : Step (system deployment) pool label after) :
    after.world.orders = pool.world.orders ∨ ∃ thread op outcome,
      label = .did thread op outcome ∧ Acts deployment pool after thread op outcome ∧
        OrdersChange deployment pool after thread op := by
  rcases step_cases reached moved with ⟨thread, op, outcome, rfl, act⟩ | ⟨thread, turn⟩ |
    ⟨event, rfl, happening⟩
  · exact .inr ⟨thread, op, outcome, rfl, act, orders_change act⟩
  · exact .inl (by rw [turn.world])
  · exact .inl (happen_frame happening.happened).1

theorem OrdersChange.known (change : OrdersChange deployment pool after thread op) {id : Uuid}
    (known : Known pool id) : Known after id := by
  obtain ⟨row, found⟩ := known
  cases change with
  | same orders => exact ⟨row, orders ▸ found⟩
  | inserted payload key new _ _ orders _ =>
    by_cases same : id = new
    · exact ⟨_, by rw [orders, same, Function.update_self]⟩
    · exact ⟨row, by rw [orders, Function.update_of_ne same, found]⟩
  | updated delivery token aim reason read _ _ _ _ _ orders =>
    by_cases same : id = read.id
    · exact ⟨_, by rw [orders, same, Function.update_self, ← same, found]; rfl⟩
    · exact ⟨row, by rw [orders, Function.update_of_ne same, found]⟩

/-- No step removes a row. -/
theorem known_stays {label : Moment}
    (reached : Reachable (system deployment) allows World.empty pool)
    (moved : Step (system deployment) pool label after) {id : Uuid} (known : Known pool id) :
    Known after id := by
  rcases step_orders reached moved with same | ⟨thread, op, outcome, _, _, change⟩
  · obtain ⟨row, found⟩ := known
    exact ⟨row, same ▸ found⟩
  · exact change.known known

/-- A row stands under its own id. -/
theorem row_named (reached : Reachable (system deployment) allows World.empty pool) :
    ∀ id row, pool.world.orders id = some row → row.id = id := by
  induction reached with
  | init => rintro id row ⟨⟩
  | @step pool label after reached permitted moved ih =>
    intro id row found
    rcases step_orders reached moved with same | ⟨thread, op, outcome, _, _, change⟩
    · exact ih id row (same ▸ found)
    · cases change with
      | same orders => exact ih id row (orders ▸ found)
      | inserted payload key new _ _ orders _ =>
        rw [orders] at found
        by_cases same : id = new
        · rw [same, Function.update_self] at found
          cases found
          exact same.symm
        · rw [Function.update_of_ne same] at found
          exact ih id row found
      | updated delivery token aim reason read _ _ _ _ _ orders =>
        rw [orders] at found
        by_cases same : id = read.id
        · rw [same, Function.update_self, Option.map_eq_some_iff] at found
          obtain ⟨before, stood, rfl⟩ := found
          rw [changes_id, ih _ _ stood, same]
        · rw [Function.update_of_ne same] at found
          exact ih id row found

/-- Every row was inserted by a submission, under an id the submission drew. -/
theorem row_inserted (reached : Reachable (system deployment) allows World.empty pool) :
    ∀ id, Known pool id →
      ∃ thread, Inserted pool.trace thread id ∧ Drew pool.trace thread id := by
  induction reached with
  | init => rintro id ⟨row, ⟨⟩⟩
  | @step pool label after reached permitted moved ih =>
    intro id known
    have trace := step_trace moved
    have before : Known pool id →
        ∃ thread, Inserted after.trace thread id ∧ Drew after.trace thread id := by
      intro earlier
      obtain ⟨thread, inserted, drew⟩ := ih id earlier
      exact ⟨thread, trace ▸ inserted.later label, drew.kept moved⟩
    obtain ⟨row, found⟩ := known
    rcases step_orders reached moved with same | ⟨thread, op, outcome, rfl, act, change⟩
    · exact before ⟨row, same ▸ found⟩
    · cases change with
      | same orders => exact before ⟨row, orders ▸ found⟩
      | inserted payload key new drawn _ orders wrote =>
        by_cases same : id = new
        · subst same
          exact ⟨thread, wrote, ((submitting_drawn reached thread _ drawn).1 id rfl).kept moved⟩
        · rw [orders, Function.update_of_ne same] at found
          exact before ⟨row, found⟩
      | updated delivery token aim reason read _ _ _ _ _ orders =>
        rw [orders] at found
        by_cases same : id = read.id
        · rw [same, Function.update_self, Option.map_eq_some_iff] at found
          obtain ⟨earlier, stood, rfl⟩ := found
          exact before ⟨earlier, same ▸ stood⟩
        · rw [Function.update_of_ne same] at found
          exact before ⟨row, found⟩

/-! ### Deliveries with an order -/

namespace Phase

/-- The phases of a delivery that has read its order. -/
def seen : Phase → Bool
  | .skipping => true
  | .read _ _ _ => true
  | .moved _ _ => true
  | .towards _ _ => true
  | .absent => true
  | .sent _ => true
  | .closed verdict => verdict != .unknown
  | _ => false

theorem decide_read (delivery : Delivery deployment) (result : Except Exn Unit) (row : OrderRow)
    (aim : OrderStatus) (reason : Option PyStr) : decide delivery result ≠ .read aim reason row := by
  unfold decide
  split
  · rintro ⟨⟩
  · split <;> rintro ⟨⟩
  · rintro ⟨⟩
  · rintro ⟨⟩

variable {delivery : Delivery deployment} {token : String} {before later : Phase}

/-- A delivery comes to have seen its order by reading its row. -/
theorem Progress.seen (moved : Progress delivery token before op outcome later)
    (sees : later.seen = true) : before.seen = true ∨
      ∃ row, Selects op outcome delivery.event.orderId (some row) := by
  cases moved with
  | checks row => exact .inr ⟨row, rfl, rfl⟩
  | misses | tombs | buries | aborts => cases sees
  | stays => exact .inl sees
  | _ => exact .inl rfl

/-- A row is carried along from the read on. -/
theorem Progress.read {aim : OrderStatus} {reason : Option PyStr} {row : OrderRow}
    (moved : Progress delivery token before op outcome later) (same : later = .read aim reason row) :
    before = .read aim reason row ∨ Selects op outcome delivery.event.orderId (some row) ∧
      (before = .acquired ∧ row.status.terminal = false ∧ aim = .processing ∨
        before = .towards aim reason) := by
  cases moved with
  | checks read =>
    unfold checked at same
    split at same
    · cases same
    · rename_i live
      cases same
      exact .inr ⟨⟨rfl, rfl⟩, .inl ⟨rfl, by simpa using live, rfl⟩⟩
  | rereads =>
    cases same
    exact .inr ⟨⟨rfl, rfl⟩, .inr rfl⟩
  | fulfils => exact (decide_read _ _ _ _ _ same).elim
  | stays => exact .inl same
  | _ => cases same

end Phase

theorem Acts.selects {id : Uuid} {found : Option OrderRow}
    (act : Acts deployment pool after thread op outcome) (selects : Selects op outcome id found) :
    pool.world.orders id = found ∧ after.world = pool.world := by
  obtain ⟨fate, performed⟩ := act.performed
  unfold Selects at selects
  split at selects
  · obtain ⟨rfl, rfl⟩ := selects
    obtain ⟨same, ⟨error, lost⟩ | took⟩ := perform_selectOrder performed
    · cases lost
    · rcases took with answered | ⟨error, late⟩
      · cases answered
        exact ⟨rfl, same⟩
      · cases late
  · cases selects

theorem Acts.commits {writes : List Write} (act : Acts deployment pool after thread op outcome)
    (commits : Commits op outcome writes) : after.world = pool.world.write writes := by
  obtain ⟨fate, performed⟩ := act.performed
  unfold Commits at commits
  split at commits
  · subst commits
    rcases perform_commit performed with ⟨error, lost, _⟩ | ⟨_, written⟩
    · cases lost
    · exact written
  · cases commits

theorem Acts.wins {key : Key} {token : String} (act : Acts deployment pool after thread op outcome)
    (wins : Wins op outcome key token) :
    pool.world.redis key = none ∧ after.world.redis key = some token := by
  obtain ⟨fate, performed⟩ := act.performed
  unfold Wins at wins
  split at wins
  · obtain ⟨rfl, rfl, rfl⟩ := wins
    rcases perform_setNx performed with ⟨error, lost, _⟩ | ⟨_, free, world⟩ | ⟨took, _, _⟩
    · cases lost
    · exact ⟨free, by rw [world]; simp [World.setRedis]⟩
    · rcases took with answered | ⟨error, late⟩
      · cases answered
      · cases late
  · cases wins

theorem Acts.sends {topic : String} {key : Option String} {value : Json} {headers : Headers}
    (act : Acts deployment pool after thread op outcome)
    (sends : Sends op outcome topic key value headers) :
    ∃ partition, after.world = pool.world.append ⟨topic, partition⟩
      (wireRecord deployment.platform key value headers) := by
  obtain ⟨fate, performed⟩ := act.performed
  unfold Sends at sends
  split at sends
  · obtain ⟨rfl, rfl, rfl, rfl⟩ := sends
    rcases perform_send performed with ⟨error, lost, _⟩ | ⟨_, partition, _, world⟩
    · cases lost
    · exact ⟨partition, world⟩
  · cases sends

theorem Acts.gets {key : Key} {found : Option String}
    (act : Acts deployment pool after thread op outcome) (gets : Gets op outcome key found) :
    pool.world.redis key = found ∧ after.world = pool.world := by
  obtain ⟨fate, performed⟩ := act.performed
  unfold Gets at gets
  split at gets
  · obtain ⟨rfl, rfl⟩ := gets
    obtain ⟨same, ⟨error, lost⟩ | took⟩ := perform_get performed
    · cases lost
    · rcases took with answered | ⟨error, late⟩
      · cases answered
        exact ⟨rfl, same⟩
      · cases late
  · cases gets

/-- A thread comes to a held delivery from one of its phases, or by acquiring the guard. -/
theorem Stage.Progress.holding {before later : Stage deployment}
    (moved : Progress before op outcome later) {delivery : Delivery deployment} {token : String}
    {phase : Phase} (same : later = .holding delivery token phase) :
    (∃ first, before = .holding delivery token first ∧
      first.Progress delivery token op outcome phase) ∨
    phase = .acquired ∧ Wins op outcome delivery.guard token ∧
      ∃ taken, before = .claiming delivery token taken := by
  cases moved with
  | proceeds _ _ first _ moved =>
    cases same
    exact .inl ⟨first, rfl, moved⟩
  | acquires _ _ taken =>
    cases same
    exact .inr ⟨rfl, ⟨rfl, rfl, rfl⟩, taken, rfl⟩
  | called name record =>
    simp only [Stage.called] at same
    split at same
    · cases same
    · split at same <;> cases same
  | _ => cases same

/-- What a delivery that has seen its order knows of it. -/
structure Sighted (pool : Pipeline) (delivery : Delivery deployment) (phase : Phase) : Prop where
  known : phase.seen = true → Known pool delivery.event.orderId
  named : ∀ aim reason row, phase = .read aim reason row → row.id = delivery.event.orderId

theorem sighted (reached : Reachable (system deployment) allows World.empty pool) (thread : Nat)
    (delivery : Delivery deployment) (token : String) (phase : Phase)
    (same : stage deployment pool thread = .holding delivery token phase) :
    Sighted pool delivery phase := by
  refine each_stage (P := fun pool _ stage => ∀ delivery token phase,
    stage = .holding delivery token phase → Sighted pool delivery phase)
    ?_ ?_ ?_ reached thread delivery token phase same
  · rintro pool thread stage (_ | _ | _ | _) delivery token phase ⟨⟩
  · intro pool label after reached _ moved thread stage _ known delivery token phase same
    obtain ⟨row, named⟩ := known delivery token phase same
    exact ⟨fun sees => known_stays reached moved (row sees), named⟩
  · intro pool after thread op outcome reached _ _ act known delivery token phase same
    rcases act.progress.holding same with ⟨first, before, moved⟩ | ⟨rfl, _⟩
    · obtain ⟨row, named⟩ := known delivery token first before
      constructor
      · intro sees
        rcases moved.seen sees with earlier | ⟨found, selects⟩
        · exact (orders_change act).known (row earlier)
        · obtain ⟨stood, world⟩ := act.selects selects
          exact ⟨found, world ▸ stood⟩
      · intro aim reason row read
        rcases moved.read read with earlier | ⟨selects, _⟩
        · exact named aim reason row earlier
        · exact row_named reached _ _ (act.selects selects).1
    · exact ⟨by rintro ⟨⟩, by rintro _ _ _ ⟨⟩⟩

/-- The id a submission drew has no row until it inserts it. -/
theorem drawn_absent (reached : Reachable (system deployment) allows World.empty pool)
    (thread : Nat) (payload : OrderCreate) (key : Option String) (id : Uuid)
    (same : stage deployment pool thread = .submitting (.drawn payload key id)) :
    pool.world.orders id = none := by
  have fact : Drew pool.trace thread id ∧ ¬ Known pool id := by
    refine each_stage (P := fun pool thread stage => ∀ payload key id,
      stage = .submitting (.drawn payload key id) → Drew pool.trace thread id ∧ ¬ Known pool id)
      ?_ ?_ ?_ reached thread payload key id same
    · rintro pool thread stage (_ | _ | _ | _) payload key id ⟨⟩
    · intro pool label after reached _ moved thread stage others known payload key id same
      obtain ⟨drew, absent⟩ := known payload key id same
      refine ⟨drew.kept moved, ?_⟩
      rintro ⟨row, found⟩
      rcases step_orders reached moved with unchanged | ⟨actor, op, outcome, rfl, act, change⟩
      · exact absent ⟨row, unchanged ▸ found⟩
      · cases change with
        | same orders => exact absent ⟨row, orders ▸ found⟩
        | inserted payload' key' new before _ orders _ =>
          by_cases equal : id = new
          · subst equal
            have drewToo := (submitting_drawn reached actor _ before).1 id rfl
            obtain rfl := (drawn_once reached).once thread actor id drew drewToo
            exact others op outcome rfl
          · rw [orders, Function.update_of_ne equal] at found
            exact absent ⟨row, found⟩
        | updated delivery token aim reason read _ _ _ _ _ orders =>
          rw [orders] at found
          by_cases equal : id = read.id
          · rw [equal, Function.update_self, Option.map_eq_some_iff] at found
            obtain ⟨earlier, stood, _⟩ := found
            exact absent ⟨earlier, equal ▸ stood⟩
          · rw [Function.update_of_ne equal] at found
            exact absent ⟨row, found⟩
    · intro pool after thread op outcome reached _ _ act known payload key id same
      obtain ⟨first, before, moved⟩ := act.progress.submission same
      generalize arrived : Submission.drawn payload key id = later at moved
      cases moved with
      | draws =>
        cases arrived
        obtain ⟨fate, performed⟩ := act.performed
        obtain ⟨drawn, answered, fresh, world⟩ := perform_uuid4 performed
        cases answered
        refine ⟨act.trace ▸ List.mem_cons_self .., ?_⟩
        rintro ⟨row, found⟩
        rw [world] at found
        obtain ⟨other, _, drew⟩ := row_inserted reached id ⟨row, found⟩
        exact fresh ((drawn_once reached).issued other id drew)
      | flushes =>
        cases arrived
        obtain ⟨drew, absent⟩ := known payload key id before
        refine ⟨act.trace ▸ drew.later _, ?_⟩
        rintro ⟨row, found⟩
        obtain ⟨fate, performed⟩ := act.performed
        rw [perform_orders performed rfl] at found
        exact absent ⟨row, found⟩
      | inserts _ idempotencyKey => cases idempotencyKey <;> cases arrived
      | _ => cases arrived
  cases found : pool.world.orders id with
  | none => rfl
  | some row => exact (fact.2 ⟨row, found⟩).elim

end OrderFlow
