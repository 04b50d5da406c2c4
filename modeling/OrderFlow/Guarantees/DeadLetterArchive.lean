import OrderFlow.Deliveries
import OrderFlow.Kafka.Codec
import OrderFlow.Sample

/-!
From a failed record to its row in `dead_letters`: which letters the archive can
store, and when the row it stores describes the record that failed.
-/
namespace OrderFlow
open AsyncCoroutine AsyncPool

variable {deployment : Deployment} {start world : World} {record letter : ConsumerRecord}
  {error : PyStr}

/-- `_to_dlq` is called on the record with this error text from state `start`, and
    the archiver is handed what it appended. -/
def LetterFrom (deployment : Deployment) (start : World) (record : ConsumerRecord) (error : PyStr)
    (letter : ConsumerRecord) : Prop :=
  ∃ after partition entry,
    Alone (perform deployment 0) Responsive
      (OrderConsumer.toDlq deployment record record.headers.getAttempt error) start (.ok ()) after ∧
    after.logs ⟨deployment.settings.topicDlq, partition⟩ =
      start.logs ⟨deployment.settings.topicDlq, partition⟩ ++ [entry] ∧
    deserialize deployment.platform ⟨deployment.settings.topicDlq, partition⟩
      (start.logs ⟨deployment.settings.topicDlq, partition⟩).length entry.record = some letter

/-- Encoding and decoding the body of a dead letter gives the body back. -/
def Rereads (platform : Platform) (record : ConsumerRecord) : Prop :=
  platform.loads (platform.dumps (OrderConsumer.wrapRaw record.value)) =
    some (OrderConsumer.wrapRaw record.value)

/-- What the archiver is handed for a dead-lettered record. -/
structure LetterOf (deployment : Deployment) (start : World) (record : ConsumerRecord)
    (error : PyStr) (letter : ConsumerRecord) : Prop where
  topic : letter.topic = deployment.settings.topicDlq
  partition : letter.partition = 0
  offset : letter.offset = (start.logs ⟨deployment.settings.topicDlq, 0⟩).length
  value : letter.value = OrderConsumer.wrapRaw record.value
  headers : ∃ failedAt, letter.headers = Headers.build deployment.platform
    record.headers.getAttempt none (some error) (some record.topic) failedAt

theorem letterOf_lettered (lettered : LetterFrom deployment start record error letter)
    (rereads : Rereads deployment.platform record) :
    LetterOf deployment start record error letter := by
  obtain ⟨after, partition, entry, run, appended, read⟩ := lettered
  obtain ⟨_, _, failedAt, rfl⟩ := (toDlq_appends ..).meets _ _ run
  obtain rfl : partition = 0 := by
    by_contra differ
    simp [World.append, Function.update, differ] at appended
  simp only [World.append, Function.update_self, List.append_cancel_left_eq, List.cons.injEq,
    and_true] at appended
  subst appended
  simp only [deserialize, wireRecord, Option.bind_eq_bind, Option.bind_eq_some_iff, Option.pure_def,
    Option.some.injEq] at read
  obtain ⟨key, _, value, decoded, rfl⟩ := read
  simp only [valueDeserializer, serialize, decode_encode, Option.bind_some] at decoded
  rw [rereads] at decoded
  cases decoded
  exact ⟨rfl, rfl, rfl, rfl, failedAt, rfl⟩

/-- The archive's columns take this dead letter. -/
def Storable (deployment : Deployment) (record : ConsumerRecord) : Prop :=
  fitsString 64 ((OrderConsumer.wrapRaw record.value).get "event_id") = true ∧
    record.headers.getAttempt < 2 ^ 31 ∧
    (if record.topic = "" then deployment.settings.topicDlq else record.topic).length ≤ 128

theorem wrapRaw_wrapRaw (value : Json) :
    OrderConsumer.wrapRaw (OrderConsumer.wrapRaw value) = OrderConsumer.wrapRaw value := by
  have dict : (OrderConsumer.wrapRaw value).isDict = true := by
    unfold OrderConsumer.wrapRaw
    split
    · assumption
    · rfl
  generalize OrderConsumer.wrapRaw value = wrapped at dict
  unfold OrderConsumer.wrapRaw
  rw [if_pos dict]

/-- The row the archiver builds from a letter. -/
theorem entry_of_letter (found : LetterOf deployment start record error letter) :
    DlqArchiver.entryOf letter =
      { orderId := DlqArchiver.uuidOf ((OrderConsumer.wrapRaw record.value).get "order_id")
        eventId := (OrderConsumer.wrapRaw record.value).get "event_id"
        sourceTopic := if record.topic = "" then deployment.settings.topicDlq else record.topic
        partition := 0
        offset := (start.logs ⟨deployment.settings.topicDlq, 0⟩).length
        attempts := record.headers.getAttempt
        error := some (replaced (error.take 500))
        payload := OrderConsumer.wrapRaw record.value } := by
  obtain ⟨failedAt, headers⟩ := found.headers
  simp only [DlqArchiver.entryOf, found.value, wrapRaw_wrapRaw, headers,
    Headers.getOriginTopic_build, Headers.getAttempt_rebuild, Headers.getError_build, found.topic,
    found.partition, found.offset, Option.map_some]

theorem entry_fits (found : LetterOf deployment start record error letter)
    (placed : letter.offset < 2 ^ 63) :
    (Write.insertDeadLetter (DlqArchiver.entryOf letter)).fits = true ↔
      Storable deployment record := by
  rw [found.offset] at placed
  rw [entry_of_letter found]
  simp only [Write.fits, Storable, int32, int64, Bool.and_eq_true, decide_eq_true_eq]
  constructor
  · intro fits
    obtain ⟨⟨⟨⟨event, topic⟩, _⟩, _⟩, attempts⟩ := fits
    refine ⟨event, ?_, topic⟩
    omega
  · intro storable
    obtain ⟨event, attempts, topic⟩ := storable
    refine ⟨⟨⟨⟨event, topic⟩, ?_⟩, ?_⟩, ?_⟩
    all_goals omega

/-- The archiver inserts one row for the letter, with its payload, and commits it. -/
def Archives (deployment : Deployment) (letter : ConsumerRecord) (world : World) : Prop :=
  Returns (perform deployment 0) Responsive (DlqArchiver.handle letter) world fun ack after =>
    ack = .commit ∧ ∃ row, after.deadLetters = world.deadLetters ++ [row] ∧
      row.payload = OrderConsumer.wrapRaw letter.value

theorem archives_fitting
    (fit : (Write.insertDeadLetter (DlqArchiver.entryOf letter)).fits = true) :
    Archives deployment letter world := by
  unfold Archives DlqArchiver.handle Repository.recordDeadLetter
  have returns : Returns (perform deployment 0) Responsive
      (do
        let _ ← await (.flush [.insertDeadLetter (DlqArchiver.entryOf letter)])
        return ((), [Write.insertDeadLetter (DlqArchiver.entryOf letter)])) world
      fun written last => written.2 = [.insertDeadLetter (DlqArchiver.entryOf letter)] ∧
        last.deadLetters = world.deadLetters := by
    apply (flush_taken (by simpa using fit)).bind
    intro _ last answered
    obtain ⟨_, rfl⟩ := answered
    exact Returns.ret ⟨rfl, rfl⟩
  apply (session_commits returns).bind
  intro _ last committed
  obtain ⟨writes, middle, ⟨rfl, kept⟩, rfl⟩ := committed
  apply (incrStat_counts _).bind
  intro _ final counted
  obtain ⟨stats, rfl⟩ := counted
  refine Returns.ret ⟨rfl, DlqArchiver.entryOf letter, ?_, rfl⟩
  simp [World.write, Write.apply, kept]

theorem archive_refuses
    (unfit : (Write.insertDeadLetter (DlqArchiver.entryOf letter)).fits = false) :
    ¬ Archives deployment letter world := by
  intro archives
  have raises : Raises (perform deployment 0) Responsive (DlqArchiver.handle letter) world
      fun _ _ => True := by
    unfold DlqArchiver.handle Repository.recordDeadLetter
    apply Raises.bind
    apply session_rolls_back
    apply Raises.bind
    apply (flush_refused (by simpa using unfit)).mono
    intro result after raised
    obtain ⟨error, same, _⟩ := raised
    exact ⟨error, same, trivial⟩
  obtain ⟨result, after, run⟩ := raises.ends
  obtain ⟨error, raised, _⟩ := raises.meets _ _ run
  obtain ⟨ack, returned, _⟩ := archives.meets _ _ run
  rw [raised] at returned
  cases returned

theorem dead_letter_archived (lettered : LetterFrom deployment start record error letter)
    (rereads : Rereads deployment.platform record) (placed : letter.offset < 2 ^ 63) :
    Archives deployment letter world ↔ Storable deployment record := by
  have found := letterOf_lettered lettered rereads
  rw [← entry_fits found placed]
  constructor
  · intro archives
    by_contra unfit
    exact archive_refuses (by simpa using unfit) archives
  · exact archives_fitting

theorem keyDeserializer_encoded (key : Option String) :
    ∃ read, keyDeserializer (key.map String.toUTF8) = some read := by
  cases key with
  | none => exact ⟨_, rfl⟩
  | some text =>
    simp only [Option.map_some, keyDeserializer, decode_encode]
    split
    · exact ⟨_, rfl⟩
    · exact ⟨_, rfl⟩

/-- With every store reachable a record can be dead-lettered from any state. -/
theorem lettered_from (start : World) (error : PyStr)
    (rereads : Rereads deployment.platform record) :
    ∃ letter, LetterFrom deployment start record error letter := by
  obtain ⟨result, after, run⟩ :=
    (toDlq_appends deployment record record.headers.getAttempt error start).ends
  obtain ⟨_, rfl, failedAt, same⟩ := (toDlq_appends ..).meets _ _ run
  obtain ⟨key, read⟩ := keyDeserializer_encoded record.key
  let headers := Headers.build deployment.platform record.headers.getAttempt none (some error)
    (some record.topic) failedAt
  let stored := wireRecord deployment.platform record.key (OrderConsumer.wrapRaw record.value) headers
  let offset := (start.logs ⟨deployment.settings.topicDlq, 0⟩).length
  refine ⟨⟨deployment.settings.topicDlq, 0, offset, key, OrderConsumer.wrapRaw record.value,
    headers⟩, after, 0, ⟨stored, start.appends⟩, run, ?_, ?_⟩
  · rw [same]
    exact Function.update_self ..
  · simp only [stored, deserialize, wireRecord, valueDeserializer, serialize, decode_encode, read,
      Option.bind_eq_bind, Option.bind_some]
    rw [rereads]
    rfl

namespace Sample

/-- A record on orders.created with this body, unreadable as an event unless it is one. -/
def received (value : Json) (partition offset : Nat) : ConsumerRecord :=
  ⟨"orders.created", partition, offset, none, value, []⟩

theorem rereads_flat (fields : List (PyStr × Json)) (nonempty : fields ≠ [])
    (flat : ∀ field ∈ fields, (∃ name, field.1 = py name) ∧ Flat field.2) :
    platform.loads (platform.dumps (.obj fields)) = some (.obj fields) := by
  have read := parse_print fields nonempty flat
  simpa [platform] using read

end Sample

theorem null_rereads (partition offset : Nat) :
    Rereads Sample.shop.platform (Sample.received .null partition offset) := by
  apply Sample.rereads_flat
  · simp
  · simpa [Sample.received] using Sample.Flat.null

theorem null_storable (partition offset : Nat) :
    Storable Sample.shop (Sample.received .null partition offset) := by
  refine ⟨rfl, ?_, ?_⟩
  · show Headers.getAttempt [] < 2 ^ 31
    decide
  · show (if "orders.created" = "" then "orders.dlq" else "orders.created").length ≤ 128
    decide

theorem dead_letter_archived_run : ∃ letter,
    LetterFrom Sample.shop World.empty (Sample.received .null 0 0) (py "schema violation") letter ∧
      Archives Sample.shop letter World.empty := by
  have rereads := null_rereads 0 0
  obtain ⟨letter, lettered⟩ := lettered_from World.empty (py "schema violation") rereads
  refine ⟨letter, lettered, (dead_letter_archived lettered rereads ?_).mpr (null_storable 0 0)⟩
  rw [(letterOf_lettered lettered rereads).offset]
  decide

/-- A payload whose `event_id` is a number is dead-lettered and cannot be archived. -/
theorem numbered_letter_refused : ∃ letter,
    LetterFrom Sample.shop World.empty (Sample.received (.obj [(py "event_id", .int 7)]) 0 0)
      (py "schema violation") letter ∧ ¬ Archives Sample.shop letter World.empty := by
  have rereads : Rereads Sample.shop.platform
      (Sample.received (.obj [(py "event_id", .int 7)]) 0 0) := by
    apply Sample.rereads_flat
    · simp
    · simpa using Sample.Flat.int 7
  obtain ⟨letter, lettered⟩ := lettered_from World.empty (py "schema violation") rereads
  refine ⟨letter, lettered, archive_refuses ?_⟩
  have placed : letter.offset < 2 ^ 63 := by
    rw [(letterOf_lettered lettered rereads).offset]
    decide
  rw [Bool.eq_false_iff]
  intro fits
  have storable := ((entry_fits (letterOf_lettered lettered rereads) placed).mp fits).1
  exact absurd storable (by decide)

/-! ### What the row says -/

/-- The row identifies and explains the record that failed. -/
structure FaithfulRow (record : ConsumerRecord) (error : PyStr) (row : DeadLetter) : Prop where
  payload : row.payload = OrderConsumer.wrapRaw record.value
  attempts : row.attempts = record.headers.getAttempt
  error : row.error.map py = some error
  sourceTopic : row.sourceTopic = record.topic
  partition : row.partition = record.partition
  offset : row.offset = record.offset

/-- The text fits the header, and the dead letter stands where the record stood. -/
def LetterMatches (deployment : Deployment) (start : World) (record : ConsumerRecord)
    (error : PyStr) : Prop :=
  error.length ≤ 500 ∧ (∀ c ∈ error, c.surrogate = false) ∧ record.topic ≠ "" ∧
    record.partition = 0 ∧
    record.offset = (start.logs ⟨deployment.settings.topicDlq, 0⟩).length

theorem take_replaced (error : PyStr) : py (replaced (error.take 500)) = error ↔
    error.length ≤ 500 ∧ ∀ c ∈ error, c.surrogate = false := by
  constructor
  · intro same
    have short : error.length ≤ 500 := by
      have lengths := congrArg List.length same
      simp only [py, replaced, String.toList_ofList, List.map_map, List.length_map,
        List.length_take] at lengths
      omega
    rw [List.take_of_length_le short, py_replaced] at same
    exact ⟨short, same⟩
  · intro fits
    rw [List.take_of_length_le fits.1, py_replaced]
    exact fits.2

theorem row_faithful (found : LetterOf deployment start record error letter)
    (received : record.topic = deployment.settings.topicOrders) :
    FaithfulRow record error (DlqArchiver.entryOf letter) ↔
      LetterMatches deployment start record error := by
  have apart := deployment.settings.topics_distinct.2.1
  rw [entry_of_letter found]
  constructor
  · intro faithful
    have text := Option.some.inj faithful.error
    obtain ⟨short, whole⟩ := (take_replaced error).mp text
    refine ⟨short, whole, ?_, faithful.partition.symm, faithful.offset.symm⟩
    intro nameless
    have source := faithful.sourceTopic
    simp only [if_pos nameless] at source
    exact apart (received.symm.trans source.symm)
  · intro matching
    obtain ⟨short, whole, named, partition, offset⟩ := matching
    refine ⟨rfl, rfl, ?_, if_neg named, partition.symm, offset.symm⟩
    exact congrArg some ((take_replaced error).mpr ⟨short, whole⟩)

/-- A call of the archiver that returns has inserted one row, whatever else failed. -/
theorem archiver_inserts {after : World}
    (run : Alone (perform deployment 0) (fun _ _ => True) (DlqArchiver.handle letter) world
      (.ok .commit) after) :
    after.deadLetters = world.deadLetters ++ [DlqArchiver.entryOf letter] := by
  unfold DlqArchiver.handle at run
  obtain ⟨_, middle, committed, rest⟩ | ⟨_, _, same⟩ := alone_bind.mp run
  · have kept : after.deadLetters = middle.deadLetters := by
      obtain ⟨_, last, counted, ended⟩ | ⟨_, _, same⟩ := alone_bind.mp rest
      · obtain ⟨_, rfl⟩ := alone_ret.mp ended
        obtain ⟨_, performed, _⟩ | ⟨_, last, performed, ended⟩ := alone_tryCatch.mp counted
        · obtain ⟨fate, outcome, performed, _, _⟩ := alone_perform.mp performed
          exact perform_deadLetters performed rfl
        · obtain ⟨_, rfl⟩ := alone_ret.mp ended
          obtain ⟨fate, outcome, performed, _, _⟩ := alone_perform.mp performed
          exact perform_deadLetters performed rfl
      · cases same
    rw [kept]
    obtain ⟨writes, last, wrote, rfl⟩ := session_committed committed
    obtain ⟨_, before, flushed, ended⟩ | ⟨_, _, same⟩ := alone_bind.mp wrote
    · obtain ⟨same, rfl⟩ := alone_ret.mp ended
      cases same
      obtain ⟨fate, outcome, performed, _, _⟩ := alone_perform.mp flushed
      have unchanged := perform_deadLetters performed rfl
      simp [World.write, Write.apply, unchanged]
    · cases same
  · cases same

theorem dead_letter_faithful {after : World}
    (lettered : LetterFrom deployment start record error letter)
    (rereads : Rereads deployment.platform record)
    (received : record.topic = deployment.settings.topicOrders)
    (run : Alone (perform deployment 0) (fun _ _ => True) (DlqArchiver.handle letter) world
      (.ok .commit) after) :
    ∃ row, after.deadLetters = world.deadLetters ++ [row] ∧
      (FaithfulRow record error row ↔ LetterMatches deployment start record error) :=
  ⟨_, archiver_inserts run, row_faithful (letterOf_lettered lettered rereads) received⟩

/-- A record dead-lettered and archived with nothing failing. -/
theorem letter_archived (start : World) (error : PyStr)
    (rereads : Rereads deployment.platform record) (storable : Storable deployment record)
    (placed : (start.logs ⟨deployment.settings.topicDlq, 0⟩).length < 2 ^ 63) :
    ∃ letter after, LetterFrom deployment start record error letter ∧
      Alone (perform deployment 0) (fun _ _ => True) (DlqArchiver.handle letter) start
        (.ok .commit) after := by
  obtain ⟨letter, lettered⟩ := lettered_from start error rereads
  have found := letterOf_lettered lettered rereads
  have archives : Archives deployment letter start :=
    archives_fitting ((entry_fits found (found.offset ▸ placed)).mpr storable)
  obtain ⟨result, after, run⟩ := archives.ends
  obtain ⟨ack, rfl, rfl, _⟩ := archives.meets _ _ run
  exact ⟨letter, after, lettered, run.mono fun _ _ _ => trivial⟩

theorem dead_letter_faithful_run : ∃ letter row,
    LetterFrom Sample.shop World.empty (Sample.received .null 0 0) (py "schema violation") letter ∧
      FaithfulRow (Sample.received .null 0 0) (py "schema violation") row := by
  obtain ⟨letter, after, lettered, run⟩ := letter_archived World.empty (py "schema violation")
    (null_rereads 0 0) (null_storable 0 0) (by decide)
  obtain ⟨row, _, faithful⟩ := dead_letter_faithful lettered (null_rereads 0 0) rfl run
  refine ⟨letter, row, lettered, faithful.mpr ⟨by decide, by decide, by decide, rfl, rfl⟩⟩

namespace Sample

/-- An error text one character too long for the header. -/
def longText : PyStr := List.replicate 501 (CodePoint.ofChar 'x')

end Sample

/-- A record at another place than its letter, and one whose error is too long. -/
theorem dead_letter_blurred :
    (∃ letter after row,
      LetterFrom Sample.shop World.empty (Sample.received .null 1 5) (py "schema violation") letter ∧
        Alone (perform Sample.shop 0) (fun _ _ => True) (DlqArchiver.handle letter) World.empty
          (.ok .commit) after ∧ after.deadLetters = [row] ∧
        ¬ FaithfulRow (Sample.received .null 1 5) (py "schema violation") row) ∧
    ∃ letter after row,
      LetterFrom Sample.shop World.empty (Sample.received .null 0 0) Sample.longText letter ∧
        Alone (perform Sample.shop 0) (fun _ _ => True) (DlqArchiver.handle letter) World.empty
          (.ok .commit) after ∧ after.deadLetters = [row] ∧
        ¬ FaithfulRow (Sample.received .null 0 0) Sample.longText row := by
  constructor
  · obtain ⟨letter, after, lettered, run⟩ := letter_archived World.empty (py "schema violation")
      (null_rereads 1 5) (null_storable 1 5) (by decide)
    refine ⟨letter, after, _, lettered, run, archiver_inserts run, ?_⟩
    intro faithful
    have found := letterOf_lettered lettered (null_rereads 1 5)
    have matching := (row_faithful found rfl).mp faithful
    cases matching.2.2.2.1
  · obtain ⟨letter, after, lettered, run⟩ := letter_archived World.empty Sample.longText
      (null_rereads 0 0) (null_storable 0 0) (by decide)
    refine ⟨letter, after, _, lettered, run, archiver_inserts run, ?_⟩
    intro faithful
    have found := letterOf_lettered lettered (null_rereads 0 0)
    have short := ((row_faithful found rfl).mp faithful).1
    have long : Sample.longText.length = 501 := List.length_replicate
    omega

end OrderFlow
