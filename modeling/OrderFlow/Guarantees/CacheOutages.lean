import OrderFlow.Calls
import OrderFlow.Sample

/-!
A read with Redis failing in any pattern. The cache never breaks it, but for one
command: the DELETE of an unreadable entry, which nothing guards.
-/
namespace OrderFlow
open AsyncCoroutine AsyncPool

def Op.onRedis : Op → Bool
  | .setNx _ _ _ | .set _ _ _ | .get _ | .delete _ | .evalComplete _ _ _ | .evalRelease _ _
  | .hincrby _ _ => true
  | _ => false

/-- The Redis commands of the pattern raise, having taken effect or not; all else answers. -/
def Outage (faults : Op → Bool) (op : Op) (outcome : Outcome Exn op.Reply) : Prop :=
  if op.onRedis && faults op then ∃ error, outcome.reply = .error error
  else ∃ value, outcome = .ok value

variable {deployment : Deployment} {faults : Op → Bool} {world : World} {id : Uuid}

/-- What the read is to return: the cached order, else what Postgres holds. -/
def expectedRead (deployment : Deployment) (faults : Op → Bool) (world : World) (id : Uuid) :
    Option OrderRead :=
  let entry := if faults (.get (.order id.str)) then none else world.redis (.order id.str)
  match entry.bind deployment.platform.modelValidateJson with
  | some cached => some ⟨cached, .cache⟩
  | none => (world.orders id).map fun row =>
      ⟨OrderOut.ofOrder ⟨row, world.transitions id⟩, .database⟩

def ReadServes (deployment : Deployment) (faults : Op → Bool) (world : World) (id : Uuid) : Prop :=
  Returns (perform deployment 0) (Outage faults) (Service.readOrder deployment id) world
    fun read _ => read = expectedRead deployment faults world id

/-- The GET answers with an entry that cannot be read, and its DELETE raises. -/
def StuckEntry (deployment : Deployment) (faults : Op → Bool) (world : World) (id : Uuid) : Prop :=
  faults (.get (.order id.str)) = false ∧ faults (.delete (.order id.str)) = true ∧
    ∃ raw, world.redis (.order id.str) = some raw ∧
      deployment.platform.modelValidateJson raw = none

def SameTables (world after : World) : Prop :=
  after.orders = world.orders ∧ after.transitions = world.transitions

theorem SameTables.trans {middle after : World} (first : SameTables world middle)
    (second : SameTables middle after) : SameTables world after :=
  ⟨second.1.trans first.1, second.2.trans first.2⟩

theorem performed_tables {op : Op} {outcome : Outcome Exn op.Reply} {after : World} {fate : Fate}
    (performed : perform deployment 0 op world fate = some (outcome, after))
    (other : op.onTables = false) : SameTables world after :=
  ⟨perform_orders performed other, perform_transitions performed other⟩

theorem raising_command {op : Op} (redis : op.onRedis = true) (faulty : faults op = true) :
    Raises (perform deployment 0) (Outage faults) (await op) world
      fun _ after => SameTables world after := by
  have struck : (op.onRedis && faults op) = true := by simp [redis, faulty]
  apply Yields.operation
  · refine ⟨.lost, .lost .unavailable, world, ?_, ?_⟩
    · cases op <;> first | rfl | cases redis
    · unfold Outage
      rw [if_pos struck]
      exact ⟨_, rfl⟩
  · intro fate outcome after performed permitted
    unfold Outage at permitted
    rw [if_pos struck] at permitted
    obtain ⟨error, raised⟩ := permitted
    refine ⟨error, raised, performed_tables performed ?_⟩
    cases op <;> first | rfl | cases redis

theorem answering_operation {op : Op} {value : op.Reply} {after : World}
    (healthy : (op.onRedis && faults op) = false)
    (answers : ∀ oracle, answer deployment 0 op world oracle = some (.ok value, after)) :
    Returns (perform deployment 0) (Outage faults) (await op) world
      fun reply last => reply = value ∧ last = after := by
  apply answers_alone _ _ _ answers
  all_goals
    unfold Outage
    simp [healthy]

theorem incrStat_served (field : String) :
    Returns (perform deployment 0) (Outage faults) (incrStat field) world
      fun _ after => SameTables world after := by
  unfold incrStat
  by_cases faulty : faults (.hincrby field 1) = true
  · apply (raising_command rfl faulty).tryCatch
    intro error middle kept
    exact Returns.ret kept
  · have healthy : (Op.onRedis (.hincrby field 1) && faults (.hincrby field 1)) = false := by
      simpa [Op.onRedis] using faulty
    apply Returns.tryCatch
    apply (answering_operation healthy fun oracle => rfl).mono
    intro value after answered
    obtain ⟨_, rfl⟩ := answered
    exact ⟨rfl, rfl⟩

theorem putOrder_served (order : Order) :
    Returns (perform deployment 0) (Outage faults) (Cache.putOrder deployment order) world
      fun _ after => SameTables world after := by
  unfold Cache.putOrder
  by_cases faulty : faults (.set (.order order.row.id.str) (deployment.platform.modelDumpJson
      (OrderOut.ofOrder order)) deployment.settings.cacheTtlSeconds) = true
  · apply (raising_command rfl faulty).tryCatch
    intro error middle kept
    exact Returns.ret kept
  · apply Returns.tryCatch
    apply (answering_operation (by simpa [Op.onRedis] using faulty) fun oracle => rfl).mono
    intro value after answered
    obtain ⟨_, rfl⟩ := answered
    exact ⟨rfl, rfl⟩

/-- The GET: nothing to see when it raises. -/
theorem get_served (key : Key) :
    Returns (perform deployment 0) (Outage faults)
      (tryCatch (some <$> await (.get key)) fun _ => pure none) world
      fun read after => SameTables world after ∧
        read = if faults (.get key) then none else some (world.redis key) := by
  by_cases faulty : faults (.get key) = true
  · rw [if_pos faulty]
    apply (Raises.bind (raising_command rfl faulty)).tryCatch
    intro error middle kept
    exact Returns.ret ⟨kept, rfl⟩
  · rw [if_neg faulty]
    apply Returns.tryCatch
    apply (answering_operation (by simpa [Op.onRedis] using faulty) fun oracle => rfl).bind
    intro value middle answered
    obtain ⟨rfl, rfl⟩ := answered
    exact Returns.ret ⟨⟨rfl, rfl⟩, rfl⟩

/-- The cache lookup, unless the entry is stuck. -/
theorem cached_served (free : ¬ StuckEntry deployment faults world id) :
    Returns (perform deployment 0) (Outage faults) (Cache.getOrder deployment id.str) world
      fun cached after => SameTables world after ∧
        cached = (if faults (.get (.order id.str)) then none
          else world.redis (.order id.str)).bind deployment.platform.modelValidateJson := by
  unfold Cache.getOrder
  apply (get_served _).bind
  intro value middle read
  obtain ⟨kept, rfl⟩ := read
  by_cases faulty : faults (.get (.order id.str)) = true
  · simp only [if_pos faulty]
    exact Returns.ret ⟨kept, rfl⟩
  · simp only [if_neg faulty]
    cases stored : world.redis (.order id.str) with
    | none =>
      apply (incrStat_served _).bind
      intro _ last counted
      exact Returns.ret ⟨kept.trans counted, rfl⟩
    | some raw =>
      apply (incrStat_served _).bind
      intro _ last counted
      have keptToo := kept.trans counted
      cases parsed : deployment.platform.modelValidateJson raw with
      | some out => exact Returns.ret ⟨keptToo, by simp [parsed]⟩
      | none =>
        have deletes : faults (.delete (.order id.str)) = false := by
          by_contra struck
          exact free ⟨by simpa using faulty, by simpa using struck, raw, stored, parsed⟩
        apply (answering_operation (by simpa [Op.onRedis] using deletes) fun oracle => rfl).bind
        intro _ final answered
        obtain ⟨_, rfl⟩ := answered
        exact Returns.ret ⟨keptToo, by simp [parsed]⟩

/-- A stuck entry: the error of its DELETE leaves `get_order`. -/
theorem stuck_raises (stuck : StuckEntry deployment faults world id) :
    Raises (perform deployment 0) (Outage faults) (Cache.getOrder deployment id.str) world
      fun _ _ => True := by
  obtain ⟨reads, deletes, raw, stored, unreadable⟩ := stuck
  unfold Cache.getOrder
  apply (get_served _).bind
  intro value middle read
  obtain ⟨_, rfl⟩ := read
  simp only [reads, stored, Bool.false_eq_true, ↓reduceIte]
  apply (incrStat_served _).bind
  intro _ last _
  simp only [unreadable]
  apply Raises.bind
  apply (raising_command rfl deletes).mono
  intro result after raised
  obtain ⟨error, same, _⟩ := raised
  exact ⟨error, same, trivial⟩

theorem row_served :
    Returns (perform deployment 0) (Outage faults) (Repository.getOrder id) world
      fun order after => SameTables world after ∧
        order = (world.orders id).map fun row => ⟨row, world.transitions id⟩ := by
  refine (getOrder_alone ?_).mono ?_
  · intro op select
    rcases select with rfl | rfl
    all_goals simp [Outage, Op.onRedis]
  · intro order after found
    obtain ⟨rfl, rfl⟩ := found
    exact ⟨⟨rfl, rfl⟩, rfl⟩

theorem free_serves (free : ¬ StuckEntry deployment faults world id) :
    ReadServes deployment faults world id := by
  unfold ReadServes Service.readOrder expectedRead
  apply (cached_served free).bind
  intro value middle read
  obtain ⟨kept, same⟩ := read
  simp only [← same]
  cases value with
  | some cached => exact Returns.ret rfl
  | none =>
    apply row_served.bind
    intro order last found
    obtain ⟨_, rfl⟩ := found
    rw [kept.1, kept.2]
    cases world.orders id with
    | none => exact Returns.ret rfl
    | some row =>
      apply (putOrder_served _).bind
      intro _ final _
      exact Returns.ret rfl

theorem stuck_breaks (stuck : StuckEntry deployment faults world id) :
    ¬ ReadServes deployment faults world id := by
  intro serves
  have raises : Raises (perform deployment 0) (Outage faults) (Service.readOrder deployment id)
      world fun _ _ => True := (stuck_raises stuck).bind
  obtain ⟨result, after, run⟩ := raises.ends
  obtain ⟨error, raised, _⟩ := raises.meets _ _ run
  obtain ⟨read, returned, _⟩ := serves.meets _ _ run
  rw [raised] at returned
  cases returned

theorem cache_outage_served :
    ReadServes deployment faults world id ↔ ¬ StuckEntry deployment faults world id := by
  constructor
  · intro serves stuck
    exact stuck_breaks stuck serves
  · exact free_serves

namespace Sample

/-- An unreadable entry under the key of order 1. -/
def corrupted : World := World.empty.setRedis (.order (Uuid.str ⟨1⟩)) (some "not json")

def deleteFails : Op → Bool
  | .delete _ => true
  | _ => false

end Sample

theorem corrupt_entry_breaks_read :
    ¬ ReadServes Sample.shop Sample.deleteFails Sample.corrupted ⟨1⟩ := by
  apply stuck_breaks
  refine ⟨rfl, rfl, "not json", ?_, rfl⟩
  simp [Sample.corrupted, World.setRedis]

end OrderFlow
