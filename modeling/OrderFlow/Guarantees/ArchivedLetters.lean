import OrderFlow.Guarantees.FulfilAlone
import OrderFlow.Runs.Archive
import OrderFlow.Runs.Letters

/-!
What the archive is worth. No letter that was answered for is missing from
`dead_letters`, and where deliveries are kept apart every row there tells of an order
that failed what the order itself tells.
-/
namespace OrderFlow
open AsyncCoroutine AsyncPool

variable {deployment : Deployment} {allows : Pipeline → Moment → Prop} {pool : Pipeline}

/-- `model_dump(mode="json")` puts the identifiers under their names, as texts. -/
structure Identifies (platform : Platform) : Prop where
  orderId : ∀ event, (platform.modelDump event).get "order_id" = .str (py event.orderId.str)
  eventId : ∀ event, (platform.modelDump event).get "event_id" = .str (py event.eventId)

/-- The archived letter tells of this event and of the failed order it was published for. -/
structure LetterTells (deployment : Deployment) (pool : Pipeline) (letter : DeadLetter)
    (event : OrderEvent) (row : OrderRow) : Prop where
  published : ∃ thread, PublishedBy deployment pool.trace thread event
  found : pool.world.orders event.orderId = some row
  failed : row.status = .failed
  orderId : letter.orderId = some event.orderId
  eventId : letter.eventId = .str (py event.eventId)
  payload : letter.payload = deployment.platform.modelDump event
  source : deployment.settings.topicOrders ≠ "" →
    letter.sourceTopic = deployment.settings.topicOrders
  attempts : letter.attempts = row.attempts
  error : ∃ hop ∈ pool.world.transitions event.orderId, hop.toStatus = .failed ∧
    ∃ note, hop.note = some note ∧ letter.error = some (replaced (note.take 500))

theorem uuidOf_str (id : Uuid) : DlqArchiver.uuidOf (.str (py id.str)) = some id := by
  have whole : (py id.str).any CodePoint.surrogate = false := by
    rw [List.any_eq_false]
    intro c member
    obtain ⟨char, _, rfl⟩ := List.mem_map.mp member
    rw [surrogate_ofChar]
    exact Bool.false_ne_true
  simp only [DlqArchiver.uuidOf, whole, Bool.false_eq_true, ↓reduceIte]
  show Uuid.parse (Sample.unpy (py id.str)) = some id
  rw [Sample.unpy_py, uuid_parse_str]

/-- The letter that was read off the log is the one that was put there. -/
theorem handed_dump {record : ConsumerRecord} {entry : LogEntry}
    {event : OrderEvent} (carries : Carries deployment.platform entry event)
    (read : deserialize deployment.platform record.tp record.offset entry.record = some record) :
    record.value = deployment.platform.modelDump event ∧ record.headers = entry.record.headers := by
  simp only [deserialize, Option.bind_eq_bind, Option.bind_eq_some_iff, Option.pure_def,
    Option.some.injEq] at read
  obtain ⟨key, _, value, decoded, same⟩ := read
  rw [carries, serialized_value, Option.some.injEq] at decoded
  subst decoded
  exact ⟨by rw [← same], by rw [← same]⟩

/-- Where events come from submissions only and guards are kept, every row of the archive
    tells of a failed order what its row and its trail tell. -/
theorem archive_tells (identifies : Identifies deployment.platform)
    (reached : Reachable (system deployment) (GuardedRuns deployment) World.empty pool)
    {letter : DeadLetter} (archived : letter ∈ pool.world.deadLetters) :
    ∃ event row, LetterTells deployment pool letter event row := by
  obtain ⟨record, handed, rfl⟩ := archived_handed reached letter archived
  obtain ⟨entry, stored, read⟩ := handed.logged
  rw [handed.place] at stored
  obtain ⟨event, row, stands⟩ := letters_stand reached _ entry (List.mem_of_getElem? stored)
  obtain ⟨value, headers⟩ := handed_dump stands.carries read
  have payload : OrderConsumer.wrapRaw record.value = deployment.platform.modelDump event := by
    rw [value, wrapRaw_dump]
  refine ⟨event, row, stands.published, stands.found, stands.failed, ?_, ?_, payload, ?_, ?_, ?_⟩
  · simp only [DlqArchiver.entryOf, payload, identifies.orderId, uuidOf_str]
  · simp only [DlqArchiver.entryOf, payload, identifies.eventId]
  · intro named
    simp only [DlqArchiver.entryOf, headers, stands.origin, if_neg named]
  · simp only [DlqArchiver.entryOf, headers, stands.attempt]
  · simp only [DlqArchiver.entryOf, headers]
    exact stands.error

namespace Sample

/-- The order fails, its letter is put on `orders.dlq`, and the archiver takes it. -/
def filed : Moves :=
  workedOn ++ runs 1 7 ++ consume {} 3 .dlq ++ runs 3 6

theorem letter_archived : ∃ (pool : Pipeline) (letter : DeadLetter),
    Reachable (system shop) (GuardedRuns shop) World.empty pool ∧
      letter ∈ pool.world.deadLetters ∧
      0 < pool.world.committed shop.settings.groupDlq ⟨shop.settings.topicDlq, 0⟩ := by
  obtain ⟨pool, reached, facts⟩ := play_shows {} fulfils [Sample.event (some .permanent) 1 2]
    filed faultless_guarded (fun pool => !pool.world.deadLetters.isEmpty &&
      0 < pool.world.committed shop.settings.groupDlq ⟨shop.settings.topicDlq, 0⟩)
    (by decide +kernel)
  simp only [Bool.and_eq_true, decide_eq_true_eq] at facts
  obtain ⟨filled, past⟩ := facts
  cases letters : pool.world.deadLetters with
  | nil =>
    rw [letters] at filled
    cases filled
  | cons letter rest => exact ⟨pool, letter, reached, by simp [letters], past⟩

theorem platform_identifies : Identifies platform where
  orderId _ := rfl
  eventId _ := rfl

end Sample

theorem archive_tells_run : ∃ (pool : Pipeline) (letter : DeadLetter) (event : OrderEvent)
    (row : OrderRow), LetterTells Sample.shop pool letter event row := by
  obtain ⟨pool, letter, reached, archived, _⟩ := Sample.letter_archived
  exact ⟨pool, letter, archive_tells Sample.platform_identifies reached archived⟩

end OrderFlow
