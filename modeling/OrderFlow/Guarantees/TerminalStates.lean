import OrderFlow.Sample

/-!
Terminal statuses are absorbing, the guard failing or not, in every run in which
no delivery finishes an order that another delivery is still deciding.
-/
namespace OrderFlow
open AsyncCoroutine AsyncPool

variable {deployment : Deployment} {start pool : Pipeline} {past : List (Pipeline × Moment)}

theorem terminal_status_absorbing (id : Uuid) (row : OrderRow)
    (reached : Reachable (system deployment) (TerminalCommitsAlone deployment) World.empty start)
    (path : Path (system deployment) (TerminalCommitsAlone deployment) start past pool)
    (found : start.world.orders id = some row) (terminal : row.status.terminal = true) :
    ∃ now, pool.world.orders id = some now ∧ now.status = row.status := by
  induction path with
  | here => exact ⟨row, found, rfl⟩
  | step walked permitted moved ih =>
    obtain ⟨now, stands, same⟩ := ih
    obtain ⟨later, standsToo, kept⟩ :=
      finished_stays (walked.reachable reached) moved stands (same ▸ terminal)
    exact ⟨later, standsToo, kept.trans same⟩

namespace Sample

/-- A delivery up to its COMPLETED commit. -/
def completed : Moves :=
  submit 0 none 1 2 ++ consume {} 1 .processor ++ runs 1 2 ++ [.run 1 (draw 3)] ++ runs 1 12

/-- Anything but a commit of order rows. -/
def commitless : Moment → Bool
  | .did _ (.commit _) _ => false
  | _ => true

theorem commitless_alone (pool : Pipeline) (label : Moment) (passes : commitless label = true) :
    TerminalCommitsAlone shop pool label := by
  rintro thread writes outcome id changes status rfl
  cases passes

end Sample

theorem terminal_status_absorbing_run : ∃ start past pool now,
    Path (system Sample.shop) (TerminalCommitsAlone Sample.shop) start past pool ∧
      past ≠ [] ∧ pool.world.orders ⟨1⟩ = some now ∧ now.status = .completed := by
  obtain ⟨start, past, pool, reached, path, facts⟩ := Sample.play_walks {} Sample.fulfils
    [Sample.event none 1 2] Sample.completed (Sample.runs 1 4) Sample.faultless_guarded
    Sample.commitless_alone (fun start pool => Sample.status start 1 = some .completed &&
      start.trace.length ≠ pool.trace.length) (by decide +kernel)
  simp only [Bool.and_eq_true, decide_eq_true_eq, Sample.status, Option.map_eq_some_iff] at facts
  obtain ⟨⟨row, found, completed⟩, grown⟩ := facts
  have alone := commits_alone (fun pool tp record permitted => permitted.1 tp record rfl)
    (fun pool label permitted => permitted.2) reached
  obtain ⟨now, stands, same⟩ := terminal_status_absorbing ⟨1⟩ row alone path found
    (by rw [completed]; rfl)
  refine ⟨start, past, pool, now, path, ?_, stands, same.trans completed⟩
  rintro rfl
  cases path
  exact grown rfl

/-! ### A status that changes after all -/

namespace Sample

/-- Worker 1 reads the order and stalls while its guard expires. -/
def stalled : Moves :=
  submit 0 none 1 2 ++ consume {} 1 .processor ++ runs 1 2 ++ [.run 1 (draw 3)] ++ runs 1 3 ++
    [.event (.expire (.eventGuard (event none 1 2).eventId))]

/-- Worker 2 gets the same record and completes the order. -/
def overtaken : Moves :=
  stalled ++ consume {} 2 .processor ++ runs 2 2 ++ [.run 2 (draw 4)] ++ runs 2 12

end Sample

theorem completed_order_reopened : ∃ start past pool,
    Reachable (system Sample.shop) Sample.SubmittedOnly World.empty start ∧
      Path (system Sample.shop) Sample.SubmittedOnly start past pool ∧
      (start.world.orders ⟨1⟩).map (·.status) = some .completed ∧
      (pool.world.orders ⟨1⟩).map (·.status) = some .processing := by
  obtain ⟨start, past, pool, reached, path, facts⟩ := Sample.play_walks {} Sample.fulfils
    [Sample.event none 1 2] Sample.overtaken (Sample.runs 1 2) Sample.submittedOnly_sound
    Sample.submittedOnly_sound (fun start pool => Sample.status start 1 = some .completed &&
      Sample.status pool 1 = some .processing) (by decide +kernel)
  simp only [Bool.and_eq_true, decide_eq_true_eq] at facts
  exact ⟨start, past, pool, reached, path, facts⟩

end OrderFlow
