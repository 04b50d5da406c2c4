import Mathlib.Algebra.BigOperators.Ring.Finset
import OrderFlow.Guarantees.FulfilAlone
import OrderFlow.Runs.Counters

/-!
The counters of the dashboard never show more than has been done.
-/
namespace OrderFlow
open AsyncCoroutine AsyncPool

variable {deployment : Deployment} {allows : Pipeline → Moment → Prop} {pool after : Pipeline}
  {thread : Nat} {op : Op} {label : Moment}

namespace Counters

/-- How often a run has done what counters are raised for. -/
def times (settings : Settings) (due : Due) (trace : List Moment) : Nat :=
  total (fun op outcome => (does settings due op outcome).toNat) trace

/-- The counter is raised. -/
def raises (field : String) : Price Op Op.Reply Exn
  | .hincrby raised _, outcome => if raised = field ∧ effective outcome = true then 1 else 0
  | _, _ => 0

theorem answer_stats {value : op.Reply} {world next : World} {oracle : Oracle}
    (answered : answer deployment thread op world oracle = some (.ok value, next))
    (other : ∀ field amount, op ≠ .hincrby field amount) : next.stats = world.stats := by
  cases op with
  | getmany topic => rw [fetch_world (answer_getmany answered)]
  | commit writes =>
    cases answered
    rw [write_world]
  | hincrby field amount => exact (other field amount rfl).elim
  | _ =>
    simp only [answer] at answered
    grind [World.setRedis, World.append, World.setPosition]

theorem happen_stats {event : Event} {world next : World}
    (happened : happen deployment event world = some next) : next.stats = world.stats := by
  cases event with
  | expire key =>
    simp only [happen, Option.ite_none_right_eq_some] at happened
    obtain ⟨_, same⟩ := happened
    cases same
    rfl
  | _ => cases happened; rfl

/-- A counter shows how often it was raised. -/
theorem stats_raised (reached : Reachable (system deployment) allows World.empty pool)
    (field : String) : pool.world.stats field = (total (raises field) pool.trace : Int) := by
  induction reached with
  | init => rfl
  | @step pool label after reached permitted moved ih =>
    cases moved with
    | did thread call op resume fate outcome world awaiting performed =>
      have allowed := Monitor.allowed_of_awaiting (keeps deployment) reached awaiting
      have acted : perform deployment thread op pool.world fate = some (outcome, world) := performed
      simp only [total, Nat.cast_add, ← ih]
      cases op with
      | hincrby raised amount =>
        obtain ⟨rfl, _⟩ := allowed
        rcases perform_cases acted with ⟨error, rfl, rfl⟩ | ⟨value, oracle, answered, took⟩
        · simp [raises, effective]
        · have effects : effective outcome = true := by
            rcases took with rfl | ⟨error, rfl⟩ <;> rfl
          cases answered
          by_cases same : raised = field
          · subst same
            simp [raises, effects, Int.add_comm]
          · simp [raises, same, Function.update_of_ne (Ne.symm same)]
      | _ =>
        have same := perform_frame World.stats acted fun _ _ answered =>
          answer_stats answered (by rintro _ _ ⟨⟩)
        simp [raises, same]
    | event event world happened =>
      rw [happen_stats happened, ih]
      rfl
    | _ => exact ih

/-- Of the counters that need the same thing done, each time it is done raises one at most. -/
theorem raised_within (reached : Reachable (system deployment) allows World.empty pool) (due : Due)
    (fields : Finset String) (needing : ∀ field ∈ fields, due ∈ needs field) :
    ∑ field ∈ fields, pool.world.stats field ≤ (times deployment.settings due pool.trace : Int) := by
  have raised : ∑ field ∈ fields, pool.world.stats field =
      ((∑ field ∈ fields, total (raises field) pool.trace : Nat) : Int) := by
    rw [Nat.cast_sum]
    exact Finset.sum_congr rfl fun field _ => stats_raised reached field
  have one_at_most : ∀ op outcome, ∑ field ∈ fields, raises field op outcome ≤
      (budget deployment.settings due).spends op outcome := by
    intro op outcome
    cases op with
    | hincrby raised amount =>
      by_cases effects : effective outcome = true
      · simp only [raises, effects, and_true, Finset.sum_ite_eq, budget]
        split
        · simp [needing raised ‹_›]
        · exact Nat.zero_le _
      · simp [raises, effects]
    | _ => simp [raises]
  have paid : total (budget deployment.settings due).spends pool.trace ≤
      times deployment.settings due pool.trace := by
    refine total_le fun thread => ?_
    have solvent := (budget_balances due).solvent (keeps deployment) reached thread
      (List.append_nil pool.trace).symm
    rw [Monitor.record_nil] at solvent
    have nothing : (budget deployment.settings due).worth (monitor deployment.settings).idle = 0 := rfl
    exact (Nat.le_add_right _ _).trans (solvent.trans_eq (by rw [nothing]; rfl))
  rw [raised, ← total_sum]
  exact_mod_cast (total_mono one_at_most pool.trace).trans paid

theorem one_within (reached : Reachable (system deployment) allows World.empty pool) (due : Due)
    {field : String} (needed : due ∈ needs field) :
    pool.world.stats field ≤ (times deployment.settings due pool.trace : Int) := by
  have within := raised_within reached due {field} fun other same =>
    Finset.mem_singleton.mp same ▸ needed
  rwa [Finset.sum_singleton] at within

theorem letters_written (world : World) (writes : List Write) :
    (world.write writes).deadLetters.length =
      world.deadLetters.length + writes.countP Write.archives := by
  induction writes generalizing world with
  | nil => rfl
  | cons write writes ih =>
    rw [World.write, List.foldl_cons, ← World.write, ih, List.countP_cons]
    cases write <;> simp [Write.apply, Write.archives]
    omega

/-- Each unit of work with a dead letter has put one into the archive. -/
theorem archived_within (reached : Reachable (system deployment) allows World.empty pool) :
    times deployment.settings .archived pool.trace ≤ pool.world.deadLetters.length := by
  induction reached with
  | init => exact le_rfl
  | @step pool label after reached permitted moved ih =>
    cases moved with
    | did thread call op resume fate outcome world awaiting performed =>
      have acted : perform deployment thread op pool.world fate = some (outcome, world) := performed
      show (does deployment.settings .archived op outcome).toNat +
        times deployment.settings .archived pool.trace ≤ world.deadLetters.length
      cases op with
      | commit writes =>
        rcases perform_commit acted with ⟨error, rfl, rfl⟩ | ⟨took, rfl⟩
        · exact (Nat.zero_add _).trans_le ih
        · rw [letters_written]
          have each : (does deployment.settings .archived (.commit writes) outcome).toNat ≤
              writes.countP Write.archives := by
            cases files : writes.any Write.archives with
            | false => simp [does, files]
            | true =>
              obtain ⟨write, member, archives⟩ := List.any_eq_true.mp files
              exact (Bool.toNat_le _).trans (List.countP_pos_iff.mpr ⟨write, member, archives⟩)
          omega
      | _ =>
        rw [perform_deadLetters acted rfl]
        exact (Nat.zero_add _).trans_le ih
    | event event world happened =>
      rw [(happen_frame happened).2.2.1]
      exact ih
    | _ => exact ih

end Counters

/-- Every counter shows at most what has been done. -/
structure Tallied (settings : Settings) (pool : Pipeline) : Prop where
  entered : pool.world.stats "published" ≤ Counters.times settings .entered pool.trace
  published : pool.world.stats "published" ≤ Counters.times settings .published pool.trace
  consumed : pool.world.stats "consumed" ≤ Counters.times settings .consumed pool.trace
  settled : pool.world.stats "completed" + pool.world.stats "failed" +
    pool.world.stats "retries_scheduled" + pool.world.stats "duplicates_skipped" ≤
      Counters.times settings .settled pool.trace
  completed : pool.world.stats "completed" ≤ Counters.times settings .completed pool.trace
  failed : pool.world.stats "failed" ≤ Counters.times settings .failed pool.trace
  retried : pool.world.stats "retries_scheduled" ≤ Counters.times settings .retried pool.trace
  archived : pool.world.stats "dead_lettered" ≤ pool.world.deadLetters.length
  looked : pool.world.stats "cache_hits" + pool.world.stats "cache_misses" ≤
    Counters.times settings .looked pool.trace

open Counters in
/-- In any run at all, the counters never overstate. -/
theorem counters_never_overstate (reached : Reachable (system deployment) allows World.empty pool) :
    Tallied deployment.settings pool where
  entered := one_within reached .entered (by decide)
  published := one_within reached .published (by decide)
  consumed := one_within reached .consumed (by decide)
  settled := by
    have within := raised_within reached .settled
      {"completed", "failed", "retries_scheduled", "duplicates_skipped"} (by decide)
    rw [Finset.sum_insert (by decide), Finset.sum_insert (by decide), Finset.sum_insert (by decide),
      Finset.sum_singleton] at within
    omega
  completed := one_within reached .completed (by decide)
  failed := one_within reached .failed (by decide)
  retried := one_within reached .retried (by decide)
  archived := by
    have needed : Due.archived ∈ Counters.needs "dead_lettered" := by decide
    have within := one_within reached .archived needed
    have filed := archived_within reached
    omega
  looked := by
    have within := raised_within reached .looked {"cache_hits", "cache_misses"} (by decide)
    rwa [Finset.sum_insert (by decide), Finset.sum_singleton] at within

namespace Sample

/-- The failed order has been counted. -/
theorem failure_counted : ∃ pool : Pipeline,
    Reachable (system shop) (GuardedRuns shop) World.empty pool ∧
      pool.world.stats "failed" = 1 ∧ pool.world.stats "consumed" = 1 := by
  obtain ⟨pool, reached, facts⟩ := play_shows {} fulfils [event (some .permanent) 1 2]
    (workedOn ++ runs 1 5) faultless_guarded
    (fun pool => pool.world.stats "failed" = 1 && pool.world.stats "consumed" = 1)
    (by decide +kernel)
  simp only [Bool.and_eq_true, decide_eq_true_eq] at facts
  exact ⟨pool, reached, facts⟩

end Sample

theorem counters_never_overstate_run : ∃ pool : Pipeline, pool.world.stats "failed" = 1 ∧
    Tallied Sample.shop.settings pool := by
  obtain ⟨pool, reached, failed, _⟩ := Sample.failure_counted
  exact ⟨pool, failed, counters_never_overstate reached⟩

end OrderFlow
