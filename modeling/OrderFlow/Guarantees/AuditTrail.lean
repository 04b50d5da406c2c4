import OrderFlow.Runs.Working
import OrderFlow.Sample

/-!
The audit trail and the order row agree at all times, whatever raises, crashes
and is delivered again, as long as the guard keeps deliveries apart.
-/
namespace OrderFlow
open AsyncCoroutine AsyncPool

variable {deployment : Deployment} {allows : Pipeline → Moment → Prop} {pool after : Pipeline}
  {thread : Nat} {op : Op} {outcome : Outcome Exn op.Reply}

/-- Every order in the database agrees with its trail. -/
def AllAudited (pool : Pipeline) : Prop :=
  ∀ id row, pool.world.orders id = some row → Audited ⟨row, pool.world.transitions id⟩

theorem Stands.audited {world : World} {order : Order} {row : OrderRow} (stands : Stands world order)
    (audited : Audited order) (found : world.orders order.row.id = some row) :
    Audited ⟨row, world.transitions order.row.id⟩ := by
  rw [stands.row] at found
  cases found
  rw [stands.trail]
  exact audited

theorem AllAudited.acts (audited : AllAudited pool) (closed : Closed allows)
    (outlive : ∀ pool label, allows pool label → GuardsOutlive deployment pool label)
    (reached : Reachable (system deployment) allows World.empty pool)
    (moved : Step (system deployment) pool (.did thread op outcome) after)
    (act : Acts deployment pool after thread op outcome) : AllAudited after := by
  intro id row found
  cases versions_change act with
  | same orders transitions =>
    rw [orders] at found
    rw [transitions]
    exact audited id row found
  | inserted payload key new hop commits drawn world wrote =>
    have absent := drawn_absent reached thread payload key new drawn
    have stands : Stands after.world _ :=
      world ▸ create_stands hop (untracked reached new absent)
    by_cases same : id = new
    · subst same
      exact stands.audited (audited_created payload id hop _) found
    · have other : id ≠ (Repository.newRow payload new).id := same
      rw [world, create_orders, Function.update_of_ne other] at found
      rw [world, create_transitions, Function.update_of_ne other]
      exact audited id row found
  | updated delivery token aim reason read note hop commits reading world wrote =>
    subst commits
    obtain ⟨current, reads, hops, explains⟩ :=
      working closed outlive reached thread delivery token _ reading
    obtain ⟨order, rfl, stands, above⟩ := current.version reads (copy_permitted reached moved)
    by_cases same : id = order.row.id
    · subst same
      have next := transition_stands aim delivery.attempt reason (some note) stands above
      rw [← world] at next
      refine next.audited ?_ found
      have before := audited _ _ stands.row
      rw [stands.trail] at before
      exact before.transition hops delivery.record.headers.one_le_getAttempt explains above
    · rw [world, transition_orders, Function.update_of_ne same] at found
      rw [world, transition_transitions, Function.update_of_ne same]
      exact audited id row found

theorem all_audited (closed : Closed allows)
    (outlive : ∀ pool label, allows pool label → GuardsOutlive deployment pool label)
    (reached : Reachable (system deployment) allows World.empty pool) : AllAudited pool := by
  induction reached with
  | init =>
    intro id row found
    cases found
  | @step pool label after reached permitted moved ih =>
    rcases step_cases reached moved with ⟨thread, op, outcome, rfl, act⟩ | ⟨thread, turn⟩ |
      ⟨event, rfl, happening⟩
    · exact ih.acts closed outlive reached moved act
    · intro id row found
      rw [turn.world] at found ⊢
      exact ih id row found
    · obtain ⟨orders, transitions, _⟩ := happen_frame happening.happened
      intro id row found
      rw [orders] at found
      rw [transitions]
      exact ih id row found

/-- In every reachable state the trail of every order is a chain of the hops the
    consumer makes, none but the last of them terminal, and the row tells the same. -/
theorem audit_trail_agrees
    (reached : Reachable (system deployment) (GuardedRuns deployment) World.empty pool) {id : Uuid}
    {row : OrderRow} (found : pool.world.orders id = some row) :
    Audited ⟨row, pool.world.transitions id⟩ ∧
      ∀ hop ∈ (pool.world.transitions id).dropLast, hop.toStatus.terminal = false := by
  have audited := all_audited (fun pool tp record permitted => permitted.1 tp record rfl)
    (fun pool label permitted => permitted.2) reached id row found
  exact ⟨audited, audited.terminal_last⟩

namespace Sample

def emptyHanded : Stage shop → Bool
  | .holding _ _ _ => false
  | _ => true

/-- No thread holds a guard. -/
def unguarded (pool : Pipeline) : Bool :=
  (starts pool.trace).all fun thread => emptyHanded (stage shop pool thread)

/-- Guard keys expire when nobody holds one, and nobody else produces. -/
def guardedly (pool : Pipeline) : Moment → Bool
  | .event (.expire (.eventGuard _)) => unguarded pool
  | .event (.produce _ _) => false
  | _ => true

theorem guardedly_sound {allows : Pipeline → Moment → Prop} (pool : Pipeline) (label : Moment)
    (reached : Reachable (system shop) allows World.empty pool)
    (passes : guardedly pool label = true) : GuardedRuns shop pool label := by
  constructor
  · rintro tp record rfl
    cases passes
  · rintro eventId rfl thread delivery token phase standing
    have free := every_thread (P := fun stage => emptyHanded stage = true) reached rfl
      (List.all_eq_true.mp passes) thread
    rw [standing] at free
    cases free

/-- A worker crashes after its PROCESSING commit; once the guard has expired another
    takes the record and completes the order. -/
def takenOver : Moves :=
  submit 0 none 1 2 ++ consume {} 1 .processor ++ runs 1 2 ++ [.run 1 (draw 3)] ++ runs 1 5 ++
    [.crash 1, .event (.expire (.eventGuard (Uuid.str ⟨2⟩)))] ++ consume {} 2 .processor ++
    runs 2 2 ++ [.run 2 (draw 4)] ++ runs 2 14

end Sample

theorem audit_trail_agrees_run : ∃ (pool : Pipeline) (row : OrderRow), pool.world.orders ⟨1⟩ = some row ∧
    row.status = .completed ∧ (pool.world.transitions ⟨1⟩).length = 4 ∧
    Audited ⟨row, pool.world.transitions ⟨1⟩⟩ := by
  obtain ⟨pool, reached, facts⟩ := Sample.play_checks {} Sample.fulfils [Sample.event none 1 2]
    Sample.takenOver (fun pool label reached => Sample.guardedly_sound pool label reached)
    (fun pool => Sample.status pool 1 = some .completed &&
      (pool.world.transitions ⟨1⟩).length = 4) (by decide +kernel)
  simp only [Bool.and_eq_true, decide_eq_true_eq, Sample.status, Option.map_eq_some_iff] at facts
  obtain ⟨⟨row, found, completed⟩, hops⟩ := facts
  exact ⟨pool, row, found, completed, hops, (audit_trail_agrees reached found).1⟩

end OrderFlow
