import OrderFlow.Runs.Submissions
import OrderFlow.Sample

/-!
What an acknowledged submission has done. The row, the key and the publication
are three writes; a call that fails between the last two leaves a key that later
calls answer from, though nothing was published.
-/
namespace OrderFlow
open AsyncCoroutine AsyncPool

variable {deployment : Deployment} {allows : Pipeline → Moment → Prop} {pool : Pipeline}

theorem acknowledged_submission (thread : Nat) (payload : OrderCreate) (key : Option String)
    (order : Order) (wasDuplicate : Bool)
    (reached : Reachable (system deployment) allows World.empty pool)
    (returned : pool.threads thread =
      some ⟨.submitOrder payload key, .ret (.submitted order wasDuplicate)⟩) :
    ∃ creator, Inserted pool.trace creator order.row.id ∧
      (OrderPublished deployment pool order.row.id ∨ wasDuplicate = true ∧
        (pool.InFlight creator ∨ (∃ error, pool.Raised creator error) ∨
          Label.crash creator ∈ pool.trace)) := by
  have finished : ∀ creator payload key id eventId instant,
      stage deployment pool creator = .submitting (.published payload key id eventId instant) →
      Inserted pool.trace creator id ∧ OrderPublished deployment pool id := by
    intro creator payload key id eventId instant standing
    have published := published_stage reached creator payload key id eventId instant standing
    exact ⟨((publication reached).known creator _ published).1, published_logged reached creator _ published⟩
  have left : Stage.goal _ (.ok _) (stage deployment pool thread) :=
    left_submitted reached returned rfl
  cases wasDuplicate with
  | false =>
    obtain ⟨payload, key, id, eventId, instant, standing, same⟩ := left
    rw [same]
    obtain ⟨inserted, published⟩ := finished thread payload key id eventId instant standing
    exact ⟨thread, inserted, .inl published⟩
  | true =>
    obtain ⟨creator, inserted, _⟩ :=
      row_inserted reached order.row.id (found_known reached thread order.row left)
    refine ⟨creator, inserted, ?_⟩
    rcases submission_fate reached creator _ inserted with crashed | ⟨submission, standing, holds⟩
    · exact .inr ⟨rfl, .inr (.inr crashed)⟩
    · cases held : pool.threads creator with
      | none =>
        have started : ¬ pool.Unused creator := by
          obtain ⟨_, _, _, member, _⟩ := inserted
          exact started_of_did reached member
        exact .inr ⟨rfl, .inr (.inr (crashed_of_gone reached creator started held))⟩
      | some running =>
        obtain ⟨call, program⟩ := running
        cases program with
        | await op resume => exact .inr ⟨rfl, .inl ⟨_, held, trivial⟩⟩
        | raise error => exact .inr ⟨rfl, .inr (.inl ⟨error, call, held⟩)⟩
        | ret value =>
          have ended : Stage.goal call (.ok value) (stage deployment pool creator) :=
            left_submitted reached held rfl
          rw [standing] at ended
          cases call with
          | worker consumer => cases ended
          | readOrder orderId => cases ended
          | submitOrder other otherKey =>
            cases value with
            | pass again => exact ended.elim
            | read found => exact ended.elim
            | submitted made wasAgain =>
              cases wasAgain with
              | true =>
                obtain rfl : submission = .found made.row := Stage.submitting.inj ended
                rcases holds with stored | broken
                · cases stored
                · cases broken
              | false =>
                obtain ⟨payload, key, id, eventId, instant, same, _⟩ := ended
                cases same
                obtain ⟨_, published⟩ := finished creator payload key id eventId instant standing
                rcases holds with stored | broken
                · cases stored
                  exact .inl published
                · cases broken

/-! ### A submission acknowledged without a publication -/

namespace Sample

/-- The first call sets the key and fails to publish. -/
def publishLost : Moves :=
  [keyed 0, .run 0 ok, .run 0 (draw 1)] ++ runs 0 3 ++ [.run 0 (draw 2), .run 0 ok, .run 0 .lost]

/-- The client retries. -/
def retried : Moves := publishLost ++ [keyed 1] ++ runs 1 3

def acknowledges (pool : Pipeline) (thread : Nat) : Bool :=
  match pool.threads thread with
  | some ⟨.submitOrder _ (some key), .ret (.submitted order wasDuplicate)⟩ =>
      key = "k" && order.row.id = ⟨1⟩ && wasDuplicate
  | _ => false

theorem acknowledges_returned {pool : Pipeline} {thread : Nat}
    (acknowledged : acknowledges pool thread = true) : ∃ payload order, pool.threads thread =
      some ⟨.submitOrder payload (some "k"), .ret (.submitted order true)⟩ ∧ order.row.id = ⟨1⟩ := by
  unfold acknowledges at acknowledged
  split at acknowledged
  · rename_i payload key order wasDuplicate held
    simp only [Bool.and_eq_true, decide_eq_true_eq] at acknowledged
    obtain ⟨⟨rfl, same⟩, rfl⟩ := acknowledged
    exact ⟨payload, order, held, same⟩
  · cases acknowledged

theorem not_published {deployment : Deployment} {allows : Pipeline → Moment → Prop} {pool : Pipeline}
    (reached : Reachable (system deployment) allows World.empty pool)
    (inside : produced pool.trace = [])
    (empty : ∀ partition < deployment.settings.partitions deployment.settings.topicOrders,
      (pool.world.logs ⟨deployment.settings.topicOrders, partition⟩).length = 0) (id : Uuid) :
    ¬ OrderPublished deployment pool id := by
  rintro ⟨event, partition, _, entry, member, _⟩
  rcases logs_home reached _ entry member with home | outside
  · rw [List.length_eq_zero_iff.mp (empty partition home)] at member
    cases member
  · rw [inside] at outside
    cases outside

def nothingSent (pool : Pipeline) : Bool :=
  starts pool.trace = [1, 0] && produced pool.trace = [] && !suspended pool 0 &&
    !suspended pool 1 &&
    [0, 1, 2].all fun partition => (pool.world.logs ⟨"orders.created", partition⟩).length = 0

end Sample

theorem acknowledged_submission_run : ∃ pool creator,
    Inserted pool.trace creator ⟨1⟩ ∧
      (OrderPublished Sample.shop pool ⟨1⟩ ∨ pool.InFlight creator ∨
        (∃ error, pool.Raised creator error) ∨ Label.crash creator ∈ pool.trace) := by
  obtain ⟨pool, reached, facts⟩ := Sample.play_shows {} Sample.fulfils [] Sample.retried
    Sample.anything_sound (Sample.acknowledges · 1) (by decide +kernel)
  obtain ⟨payload, order, returned, same⟩ := Sample.acknowledges_returned facts
  obtain ⟨creator, inserted, result⟩ :=
    acknowledged_submission 1 payload (some "k") order true reached returned
  rw [same] at inserted result
  exact ⟨pool, creator, inserted, result.imp id And.right⟩

theorem acknowledged_but_unpublished : ∃ pool thread payload order,
    Reachable (system Sample.shop) Sample.SubmittedOnly World.empty pool ∧
      pool.threads thread =
        some ⟨.submitOrder payload (some "k"), .ret (.submitted order true)⟩ ∧
      ¬ OrderPublished Sample.shop pool order.row.id ∧
      ∀ creator, Inserted pool.trace creator order.row.id → ¬ pool.InFlight creator := by
  obtain ⟨pool, reached, facts⟩ := Sample.play_shows {} Sample.fulfils [] Sample.retried
    Sample.submittedOnly_sound (fun pool => Sample.acknowledges pool 1 && Sample.nothingSent pool)
    (by decide +kernel)
  simp only [Sample.nothingSent, Bool.and_eq_true, decide_eq_true_eq, List.all_eq_true,
    Bool.not_eq_true'] at facts
  obtain ⟨acknowledged, ⟨⟨⟨threads, inside⟩, first⟩, second⟩, empty⟩ := facts
  obtain ⟨payload, order, returned, _⟩ := Sample.acknowledges_returned acknowledged
  refine ⟨pool, 1, payload, order, reached, returned, ?_, fun creator _ => ?_⟩
  · have none : ¬ OrderPublished Sample.shop pool order.row.id :=
      Sample.not_published reached inside (fun partition (home : partition < 3) =>
        empty partition (by simp only [List.mem_cons, List.not_mem_nil]; omega)) _
    exact none
  · refine Sample.not_in_flight reached ?_ creator
    rw [threads]
    intro thread member
    simp only [List.mem_cons, List.not_mem_nil, or_false] at member
    rcases member with rfl | rfl
    · exact second
    · exact first

end OrderFlow
