import OrderFlow.Guarantees.ReadVersions
import OrderFlow.Runs.Sightings

/-!
What a read may be wrong about. Entries grow stale and the two SELECTs of a read may see
two versions, but every answer is put together from what was committed: a row, and a
trail no older than it, of the order that was asked for.
-/
namespace OrderFlow
open AsyncCoroutine AsyncPool

variable {deployment : Deployment} {pool : Pipeline} {past : List (Pipeline × Moment)}

/-- What the answer shows of the order was committed in this history. -/
def ShowsPast (history : List World) (id : Uuid) : Option OrderRead → Prop
  | none => ∃ world ∈ history, world.orders id = none
  | some read => ∃ order, order.row.id = id ∧ Assembled history order ∧
      read.order = OrderOut.ofOrder order

/-- Whatever `read_order` answers, from the cache or the database, was committed; it answers
    `None` only for an order that was not there. -/
theorem reads_show_past
    (rereads : ∀ out read, deployment.platform.modelValidateJson
      (deployment.platform.modelDumpJson out) = some read → read = out)
    (path : Path (system deployment) (GuardedRuns deployment) (.initial .empty) past pool)
    {reader : Nat} {id : Uuid} {answer : Option OrderRead}
    (finished : pool.threads reader = some ⟨.readOrder id, .ret (.read answer)⟩) :
    ShowsPast (worlds past pool) id answer := by
  have genuine := (historic path).glances reader
  have follows := Monitor.follows_of_reachable (Glance.keeps deployment) (path.reachable .init)
    reader _ finished
  have answered : Glance.Answered deployment id (.ok answer) (glance pool reader) := follows
  cases answer with
  | none =>
    have absent : glance pool reader = .reading id .absent := answered
    rw [absent] at genuine
    exact genuine
  | some read =>
    obtain ⟨out, source⟩ := read
    cases source with
    | cache =>
      obtain ⟨text, saw, parsed⟩ := answered
      rw [saw] at genuine
      obtain ⟨order, named, assembled, dumped⟩ := genuine
      rw [dumped] at parsed
      exact ⟨order, named, assembled, rereads _ _ parsed⟩
    | database =>
      obtain ⟨order, held, same⟩ := answered
      rw [held] at genuine
      exact ⟨order, genuine.1, genuine.2, same⟩

/-- A reader that saw one version's row and the next one's trail. -/
theorem reads_show_past_run : ∃ (past : List (Pipeline × Moment)) (pool : Pipeline)
    (read : OrderRead), read.order.status = .pending ∧
      ShowsPast (worlds past pool) ⟨1⟩ (some read) := by
  obtain ⟨past, pool, path, facts⟩ := Sample.play_paths {} Sample.fulfils [Sample.event none 1 2]
    Sample.readBetween (fun pool label => Sample.faultless_guarded pool label)
    (fun pool => (Sample.answered pool 2 ⟨1⟩).any fun out => out.status = .pending)
    (by decide +kernel)
  obtain ⟨out, answered, pending⟩ := (Option.any_eq_true _ _).mp facts
  exact ⟨past, pool, ⟨out, .database⟩, of_decide_eq_true pending,
    reads_show_past (by rintro _ _ ⟨⟩) path (Sample.threads_of_answered answered)⟩

end OrderFlow
