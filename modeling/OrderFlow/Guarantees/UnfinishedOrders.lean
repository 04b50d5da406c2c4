import Mathlib.Order.Lattice.Nat
import OrderFlow.Runs.Outcomes
import OrderFlow.Sample

/-!
No unfinished order is ever dropped: as long as it is pending or processing, a
record with its event waits beyond a committed offset.
-/
namespace OrderFlow
open AsyncCoroutine AsyncPool

variable {deployment : Deployment} {allows : Pipeline → Moment → Prop} {pool : Pipeline}

/-- Among the entries with the event one was appended last. -/
theorem last_entry {event : OrderEvent}
    (reached : Reachable (system deployment) allows World.empty pool)
    (published : ∃ tp entry, deployment.settings.carriesEvents tp.topic ∧
      entry ∈ pool.world.logs tp ∧ Carries deployment.platform entry event) :
    ∃ tp entry, deployment.settings.carriesEvents tp.topic ∧ entry ∈ pool.world.logs tp ∧
      Carries deployment.platform entry event ∧
      ∀ other later, deployment.settings.carriesEvents other.topic →
        later ∈ pool.world.logs other → Carries deployment.platform later event →
        later.stamp ≤ entry.stamp := by
  let stamps : Set Nat := { stamp | ∃ tp entry, deployment.settings.carriesEvents tp.topic ∧
    entry ∈ pool.world.logs tp ∧ Carries deployment.platform entry event ∧ entry.stamp = stamp }
  have bounded : BddAbove stamps := by
    refine ⟨pool.world.appends, ?_⟩
    rintro stamp ⟨tp, entry, _, member, _, rfl⟩
    exact (stamped reached tp entry member).le
  have inhabited : stamps.Nonempty := by
    obtain ⟨tp, entry, topic, member, carries⟩ := published
    exact ⟨entry.stamp, tp, entry, topic, member, carries, rfl⟩
  obtain ⟨tp, entry, topic, member, carries, same⟩ := Nat.sSup_mem inhabited bounded
  refine ⟨tp, entry, topic, member, carries, fun other later through inside with' => ?_⟩
  rw [same]
  exact le_csSup bounded ⟨other, later, through, inside, with', rfl⟩

theorem unfinished_order_waits (event : OrderEvent) (row : OrderRow)
    (reached : Reachable (system deployment) (GuardedRuns deployment) World.empty pool)
    (published : ∃ partition, ∃ entry ∈
      pool.world.logs ⟨deployment.settings.topicOrders, partition⟩,
      Carries deployment.platform entry event)
    (found : pool.world.orders event.orderId = some row)
    (unfinished : row.status = .pending ∨ row.status = .processing) :
    Waiting deployment pool .processor event ∨ Waiting deployment pool .retry event := by
  have closed : Closed (GuardedRuns deployment) := fun pool tp record permitted =>
    permitted.1 tp record rfl
  have outlive : ∀ pool label, GuardedRuns deployment pool label →
      GuardsOutlive deployment pool label := fun pool label permitted => permitted.2
  by_contra dropped
  rw [not_or] at dropped
  obtain ⟨partition, first, inside, carriesFirst⟩ := published
  obtain ⟨⟨topic, place⟩, entry, through, member, carries, last⟩ :=
    last_entry reached ⟨_, first, .inl rfl, inside, carriesFirst⟩
  obtain ⟨consumer, upstream, rfl, notWaiting⟩ : ∃ consumer : Consumer, consumer ≠ .dlq ∧
      consumer.topic deployment.settings = topic ∧ ¬ Waiting deployment pool consumer event := by
    rcases through with same | same
    · exact ⟨.processor, by rintro ⟨⟩, same.symm, dropped.1⟩
    · exact ⟨.retry, by rintro ⟨⟩, same.symm, dropped.2⟩
  obtain ⟨offset, bound, stands⟩ := List.getElem_of_mem member
  have placed : (pool.world.logs ⟨consumer.topic deployment.settings, place⟩)[offset]? =
      some entry := by rw [← stands]; exact List.getElem?_eq_getElem bound
  -- the newest record of the event is below a committed offset, so its call was answered
  have past : offset < pool.world.committed (consumer.group deployment.settings)
      ⟨consumer.topic deployment.settings, place⟩ := by
    by_contra ahead
    exact notWaiting ⟨place, offset, entry, placed, carries, Nat.le_of_not_lt ahead⟩
  obtain ⟨record, rfl, rfl, handed, committed⟩ := committed_past reached past
  obtain ⟨stood, _, foundAt, decodes⟩ := handed.logged.carries
  rw [handed.place, placed] at foundAt
  cases foundAt
  obtain ⟨answered, value, left⟩ := accounted closed outlive reached committed upstream
  obtain rfl : answered = event := by
    have valid := deployment.platform.modelValidate_dump event
    rw [← decodes event carries, value, deployment.platform.modelValidate_dump] at valid
    exact Except.ok.inj valid
  rcases left with finished | superseded
  · obtain ⟨current, stands, terminal⟩ := finished
    rw [found] at stands
    cases stands
    rcases unfinished with pending | processing
    · rw [pending] at terminal
      cases terminal
    · rw [processing] at terminal
      cases terminal
  · obtain ⟨stood, foundAt, other, later, topic, inLog, carriesLater, newer⟩ := superseded
    rw [handed.place, placed] at foundAt
    cases foundAt
    exact absurd (last other later topic inLog carriesLater) (Nat.not_le_of_lt newer)

/-- A delivery of a record whose order is still pending. -/
theorem unfinished_order_waits_run : ∃ pool,
    Sample.status pool 1 = some .processing ∧
      (Waiting Sample.shop pool .processor (Sample.event none 1 2) ∨
        Waiting Sample.shop pool .retry (Sample.event none 1 2)) := by
  obtain ⟨pool, reached, facts⟩ := Sample.play_shows {} Sample.fulfils [Sample.event none 1 2]
    (Sample.submit 0 none 1 2 ++ Sample.consume {} 1 .processor ++ Sample.runs 1 2 ++
      [.run 1 (Sample.draw 3)] ++ Sample.runs 1 5) Sample.faultless_guarded
    (fun pool => Sample.status pool 1 = some .processing &&
      (pool.world.logs ⟨"orders.created", 0⟩).any (Sample.carriesEvent (Sample.event none 1 2)))
    (by decide +kernel)
  simp only [Bool.and_eq_true, decide_eq_true_eq, List.any_eq_true] at facts
  obtain ⟨processing, entry, inside, carries⟩ := facts
  obtain ⟨row, found, unfinished⟩ := Option.map_eq_some_iff.mp processing
  exact ⟨pool, processing, unfinished_order_waits (Sample.event none 1 2) row reached
    ⟨0, entry, inside, Sample.carries_of_carriesEvent carries⟩ found (.inr unfinished)⟩

end OrderFlow
