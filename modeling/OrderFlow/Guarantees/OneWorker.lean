import OrderFlow.Guarantees.FulfilAlone
import OrderFlow.Guarantees.RetryTransport
import OrderFlow.Runs.Assignment

/-!
All events of an order land on one worker. Where equal keys share a partition and a
partition is handed over, no two workers are on one order at once, whatever becomes
of the guard keys.
-/
namespace OrderFlow
open AsyncCoroutine AsyncPool

variable {deployment : Deployment} {allows : Pipeline → Moment → Prop} {pool : Pipeline}
  {thread other : Nat}
  {record second : ConsumerRecord}

/-- Events come from submissions only, and a partition is given to a worker only when
    nobody else works on it. -/
def HandedOver (deployment : Deployment) (pool : Pipeline) (label : Moment) : Prop :=
  (∀ tp record, label ≠ .event (.produce tp record)) ∧ HandsOver deployment pool label

/-- Records of the topic with one key are on one partition. -/
def Partitioned (pool : Pipeline) (topic : String) : Prop :=
  ∀ p q, ∀ first ∈ pool.world.logs ⟨topic, p⟩, ∀ second ∈ pool.world.logs ⟨topic, q⟩,
    first.record.key.isSome → first.record.key = second.record.key → p = q

/-- A record of an event topic is keyed by its order's id. -/
theorem handed_keyed (closed : Closed allows)
    (reached : Reachable (system deployment) allows World.empty pool) {consumer : Consumer}
    (handed : Handed deployment pool consumer record)
    (through : deployment.settings.carriesEvents (consumer.topic deployment.settings))
    {event : OrderEvent} {id : Uuid} (about : About deployment record event id) :
    ∃ stored ∈ pool.world.logs record.tp, stored.record.key = some id.str.toUTF8 := by
  obtain ⟨stored, _, carried, _, member, _, transported, _, value, _⟩ :=
    Transported.handed (all_transported closed reached) handed through
  refine ⟨stored, member, ?_⟩
  obtain ⟨valid, rfl⟩ := about
  rw [value, deployment.platform.modelValidate_dump] at valid
  cases valid
  exact transported.key

/-- Two calls of `handle` of one consumer on records of one order are the same call. -/
theorem order_worked_by_one
    (reached : Reachable (system deployment) (HandedOver deployment) World.empty pool)
    {consumer : Consumer}
    (through : deployment.settings.carriesEvents (consumer.topic deployment.settings))
    (placed : Partitioned pool (consumer.topic deployment.settings))
    (hand : InHand deployment pool thread consumer record)
    (also : InHand deployment pool other consumer second) {event again : OrderEvent} {id : Uuid}
    (about : About deployment record event id) (alsoAbout : About deployment second again id) :
    thread = other ∧ record = second := by
  have closed : Closed (HandedOver deployment) := fun _ tp record permitted =>
    permitted.1 tp record rfl
  obtain ⟨works, handed⟩ := hand.place reached
  obtain ⟨worksToo, handedToo⟩ := also.place reached
  obtain ⟨stored, member, key⟩ := handed_keyed closed reached handed through about
  obtain ⟨storedToo, memberToo, keyToo⟩ := handed_keyed closed reached handedToo through alsoAbout
  rw [handed.place] at member works
  rw [handedToo.place] at memberToo worksToo
  have same := placed _ _ _ member _ memberToo (by simp [key]) (key.trans keyToo.symm)
  rw [← same] at worksToo
  obtain rfl := one_worker (fun _ _ permitted => permitted.2) reached thread other works worksToo
  obtain ⟨batch, inside⟩ := hand
  obtain ⟨batchToo, insideToo⟩ := also
  rw [inside] at insideToo
  cases insideToo
  exact ⟨rfl, rfl⟩

namespace Sample

def assigns : Moment → Bool
  | .event (.assign _ _ _) => true
  | _ => false

/-- One partition is assigned, and nobody else produces. -/
def assignsOnce (pool : Pipeline) : Moment → Bool
  | .event (.produce _ _) => false
  | .event (.assign _ _ _) => pool.trace.all fun label => !assigns label
  | _ => true

theorem assignsOnce_sound {allows : Pipeline → Moment → Prop} (pool : Pipeline) (label : Moment)
    (reached : Reachable (system shop) allows World.empty pool)
    (passes : assignsOnce pool label = true) : HandedOver shop pool label := by
  constructor
  · rintro tp record rfl
    cases passes
  · rintro thread consumer partition rfl other _ works
    obtain ⟨_, _, assigned, _⟩ := worksOn_assigned reached works
    have never := List.all_eq_true.mp passes _ assigned
    cases never

def handling (pool : Pipeline) : Bool :=
  match loop shop pool 1 with
  | .on .processor _ (.inside _) => true
  | _ => false

theorem hand_of_handling {pool : Pipeline} (inside : handling pool = true) :
    ∃ record, InHand shop pool 1 .processor record := by
  unfold handling at inside
  split at inside
  · exact ⟨_, _, ‹_›⟩
  · cases inside

theorem first_partition {allows : Pipeline → Moment → Prop} {pool : Pipeline}
    (reached : Reachable (system shop) allows World.empty pool) (inside : produced pool.trace = [])
    (others : ∀ p ∈ [1, 2], (pool.world.logs ⟨"orders.created", p⟩).isEmpty = true) :
    Partitioned pool "orders.created" := by
  have first : ∀ p, ∀ entry ∈ pool.world.logs ⟨"orders.created", p⟩, p = 0 := by
    intro p entry member
    rcases logs_home reached _ entry member with home | outside
    · have small : p < 3 := home
      by_contra other
      have empty := others p (by simp only [List.mem_cons, List.not_mem_nil]; omega)
      rw [List.isEmpty_iff.mp empty] at member
      cases member
    · rw [inside] at outside
      cases outside
  intro p q entry member other memberToo _ _
  rw [first p entry member, first q other memberToo]

end Sample

theorem order_worked_by_one_run : ∃ (pool : Pipeline) (record : ConsumerRecord) (event : OrderEvent),
    InHand Sample.shop pool 1 .processor record ∧
      ∀ other second again, InHand Sample.shop pool other .processor second →
        About Sample.shop second again event.orderId → 1 = other ∧ record = second := by
  obtain ⟨pool, reached, facts⟩ := Sample.play_checks {} Sample.fulfils [Sample.event none 1 2]
    (Sample.submit 0 none 1 2 ++ Sample.consume {} 1 .processor ++ Sample.runs 1 1)
    (fun pool label reached passes => Sample.assignsOnce_sound pool label reached passes)
    (fun pool => Sample.handling pool && (Sample.produced pool.trace).isEmpty &&
      [1, 2].all fun p => (pool.world.logs ⟨"orders.created", p⟩).isEmpty)
    (by decide +kernel)
  simp only [Bool.and_eq_true, List.isEmpty_iff, List.all_eq_true] at facts
  obtain ⟨⟨inside, nobody⟩, others⟩ := facts
  obtain ⟨record, hand⟩ := Sample.hand_of_handling inside
  have closed : Closed (HandedOver Sample.shop) := fun _ tp record permitted =>
    permitted.1 tp record rfl
  have through : Sample.shop.settings.carriesEvents (Consumer.processor.topic Sample.shop.settings) :=
    .inl rfl
  obtain ⟨_, _, event, _, _, _, _, _, value, _⟩ :=
    Transported.handed (all_transported closed reached) (hand.place reached).2 through
  have about : About Sample.shop record event event.orderId := by
    refine ⟨?_, rfl⟩
    rw [value]
    exact Sample.platform.modelValidate_dump event
  exact ⟨pool, record, event, hand, fun other second again also alsoAbout =>
    order_worked_by_one reached through
      (Sample.first_partition reached nobody (by simpa using others)) hand also about alsoAbout⟩

end OrderFlow
