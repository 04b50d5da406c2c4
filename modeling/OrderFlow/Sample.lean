import Mathlib.Data.Nat.Digits.Defs
import OrderFlow.Decimal
import OrderFlow.Async.Schedule
import OrderFlow.Runs.Guard

/-!
A platform for concrete runs: JSON is printed as `json.dumps` prints plain texts,
a parser of flat objects takes it back, and the event model accepts the dumps of
events. Schedules are played on a system that looks known records up instead of
decoding them; it is the same system.
-/
namespace OrderFlow.Sample
open AsyncCoroutine AsyncPool

/-! ### Texts -/

def charOf (c : CodePoint) : Char := Char.ofNat c.val

theorem charOf_ofChar (c : Char) : charOf (CodePoint.ofChar c) = c := Char.ofNat_toNat c

def unpy (text : PyStr) : String := String.ofList (text.map charOf)

theorem map_charOf_py (text : String) : (py text).map charOf = text.toList := by
  rw [py, List.map_map, show charOf ∘ CodePoint.ofChar = id from funext charOf_ofChar, List.map_id]

@[simp] theorem unpy_py (text : String) : unpy (py text) = text := by
  rw [unpy, map_charOf_py, String.ofList_toList]

/-! ### Printing -/

def escape (c : Char) : List Char := if c = '"' ∨ c = '\\' then ['\\', c] else [c]

def quote (text : PyStr) : List Char := '"' :: (text.map charOf).flatMap escape ++ ['"']

def printInt : Int → List Char
  | .ofNat n => Nat.toDigits 10 n
  | .negSucc n => '-' :: Nat.toDigits 10 (n + 1)

mutual

def print : Json → List Char
  | .null => ['n', 'u', 'l', 'l']
  | .bool true => ['t', 'r', 'u', 'e']
  | .bool false => ['f', 'a', 'l', 's', 'e']
  | .int n => printInt n
  | .float _ => ['0', '.', '0']
  | .str text => quote text
  | .arr items => '[' :: printItems items ++ [']']
  | .obj fields => '\x7b' :: printFields fields ++ ['\x7d']

def printItems : List Json → List Char
  | [] => []
  | item :: [] => print item
  | item :: rest => print item ++ [',', ' '] ++ printItems rest

def printFields : List (PyStr × Json) → List Char
  | [] => []
  | field :: [] => printField field
  | field :: rest => printField field ++ [',', ' '] ++ printFields rest

def printField : PyStr × Json → List Char
  | (name, value) => quote name ++ [':', ' '] ++ print value

end

/-! ### Parsing -/

def readText : List Char → Option (List Char × List Char)
  | [] => none
  | '"' :: rest => some ([], rest)
  | '\\' :: c :: rest => (readText rest).map fun (text, more) => (c :: text, more)
  | c :: rest => (readText rest).map fun (text, more) => (c :: text, more)

def readDigits : List Char → List Char × List Char
  | [] => ([], [])
  | c :: rest =>
      if c.isDigit then let (digits, more) := readDigits rest; (c :: digits, more)
      else ([], c :: rest)

def readNat (text : List Char) : Option (Nat × List Char) :=
  let (digits, rest) := readDigits text
  if digits = [] then none else some (Nat.ofDigitChars 10 digits 0, rest)

def readScalar : List Char → Option (Json × List Char)
  | 'n' :: 'u' :: 'l' :: 'l' :: rest => some (.null, rest)
  | 't' :: 'r' :: 'u' :: 'e' :: rest => some (.bool true, rest)
  | 'f' :: 'a' :: 'l' :: 's' :: 'e' :: rest => some (.bool false, rest)
  | '"' :: rest => (readText rest).map fun (text, more) => (.str (text.map CodePoint.ofChar), more)
  | '-' :: rest => (readNat rest).map fun (n, more) => (.int (-n), more)
  | text => (readNat text).map fun (n, more) => (.int n, more)

def readField : List Char → Option ((PyStr × Json) × List Char)
  | '"' :: rest => do
      let (name, more) ← readText rest
      match more with
      | ':' :: ' ' :: more =>
          let (value, more) ← readScalar more
          return ((name.map CodePoint.ofChar, value), more)
      | _ => none
  | _ => none

/-- The first number bounds how many fields are read. -/
def readFields : Nat → List Char → Option (List (PyStr × Json))
  | 0, _ => none
  | bound + 1, text => do
      let (field, more) ← readField text
      match more with
      | ['\x7d'] => return [field]
      | ',' :: ' ' :: more => return field :: (← readFields bound more)
      | _ => none

def parse : List Char → Option Json
  | ['\x7b', '\x7d'] => some (.obj [])
  | '\x7b' :: rest => (readFields rest.length rest).map .obj
  | text =>
      match readScalar text with
      | some (value, []) => some value
      | _ => none

/-! ### Reading back what was printed -/

theorem readText_quoted (text rest : List Char) :
    readText (text.flatMap escape ++ '"' :: rest) = some (text, rest) := by
  induction text with
  | nil => rfl
  | cons c text ih =>
    rw [List.flatMap_cons, List.append_assoc]
    by_cases special : c = '"' ∨ c = '\\'
    · rw [escape, if_pos special]
      rcases special with rfl | rfl
      · simp [readText, ih]
      · simp [readText, ih]
    · rw [escape, if_neg special, List.singleton_append]
      obtain ⟨notQuote, notSlash⟩ := not_or.mp special
      rw [readText]
      · simp [ih]
      · exact notQuote
      · intro d more same _
        exact notSlash same

theorem readDigits_append (digits : List Char) (all : ∀ c ∈ digits, c.isDigit = true)
    (next : Char) (ends : next.isDigit = false) (rest : List Char) :
    readDigits (digits ++ next :: rest) = (digits, next :: rest) := by
  induction digits with
  | nil => simp [readDigits, ends]
  | cons c digits ih =>
    have first := all c (by simp)
    have more := ih fun d member => all d (by simp [member])
    simp [readDigits, first, more]

theorem readNat_decimal (n : Nat) (next : Char) (ends : next.isDigit = false) (rest : List Char) :
    readNat (Nat.toDigits 10 n ++ next :: rest) = some (n, next :: rest) := by
  have all : ∀ c ∈ Nat.toDigits 10 n, c.isDigit = true :=
    fun c member => Nat.isDigit_of_mem_toDigits (by decide) (by decide) member
  simp [readNat, readDigits_append _ all next ends rest, Nat.toDigits_ne_nil]

/-- Values a field of an event may have. -/
inductive Flat : Json → Prop where
  | null : Flat .null
  | int (n : Int) : Flat (.int n)
  | str (text : String) : Flat (.str (py text))

theorem readScalar_digits {c : Char} (digit : c.isDigit = true) (text : List Char) :
    readScalar (c :: text) = (readNat (c :: text)).map fun (n, more) => (.int n, more) := by
  rw [readScalar]
  all_goals
    rintro _ same
    cases same
    exact absurd digit (by decide)

theorem readScalar_print {value : Json} (flat : Flat value) (next : Char)
    (ends : next.isDigit = false) (rest : List Char) :
    readScalar (print value ++ next :: rest) = some (value, next :: rest) := by
  cases flat with
  | null => rfl
  | int n =>
    cases n with
    | ofNat n =>
      have read := readNat_decimal n next ends rest
      rw [print, printInt]
      cases digits : Nat.toDigits 10 n with
      | nil => exact absurd digits Nat.toDigits_ne_nil
      | cons c more =>
        have first : c.isDigit = true :=
          Nat.isDigit_of_mem_toDigits (b := 10) (n := n) (by decide) (by decide) (by simp [digits])
        rw [digits] at read
        rw [List.cons_append, readScalar_digits first, ← List.cons_append, read]
        rfl
    | negSucc n =>
      rw [print, printInt, List.cons_append, readScalar, readNat_decimal _ next ends rest]
      rfl
  | str text =>
    rw [print, quote, map_charOf_py, List.cons_append, List.cons_append, List.append_assoc,
      List.singleton_append, readScalar, readText_quoted]
    rfl

theorem readField_print (name : String) {value : Json} (flat : Flat value) (next : Char)
    (ends : next.isDigit = false) (rest : List Char) :
    readField (printField (py name, value) ++ next :: rest) =
      some ((py name, value), next :: rest) := by
  have read := readScalar_print flat next ends rest
  simp only [printField, quote, map_charOf_py, List.cons_append, List.append_assoc, List.nil_append,
    readField, readText_quoted, Option.bind_eq_bind, Option.bind_some, read, Option.pure_def]
  rfl

theorem printFields_length (fields : List (PyStr × Json)) :
    fields.length ≤ (printFields fields).length := by
  have first : ∀ field, 0 < (printField field).length := fun field => by
    obtain ⟨name, value⟩ := field
    simp [printField, quote]
  induction fields with
  | nil => exact Nat.zero_le _
  | cons field rest ih =>
    have := first field
    cases rest with
    | nil =>
      rw [printFields]
      exact this
    | cons second more =>
      rw [printFields]
      · simp only [List.length_append, List.length_cons] at ih ⊢
        omega
      · simp

theorem readFields_print (fields : List (PyStr × Json)) (bound : Nat)
    (enough : fields.length ≤ bound) (nonempty : fields ≠ [])
    (flat : ∀ field ∈ fields, (∃ name, field.1 = py name) ∧ Flat field.2) :
    readFields bound (printFields fields ++ ['\x7d']) = some fields := by
  induction fields generalizing bound with
  | nil => exact absurd rfl nonempty
  | cons field rest ih =>
    obtain ⟨⟨name, named⟩, scalar⟩ := flat field (by simp)
    obtain ⟨text, value⟩ := field
    obtain rfl : text = py name := named
    cases bound with
    | zero => cases enough
    | succ bound =>
      cases rest with
      | nil => simp [printFields, readFields, readField_print name scalar '\x7d' rfl]
      | cons second more =>
        have later := ih bound (by simpa using enough) (by simp)
          fun field member => flat field (by simp [member])
        rw [printFields]
        · simp only [List.append_assoc, List.cons_append, List.nil_append, readFields,
            readField_print name scalar ',' rfl, Option.bind_eq_bind, Option.bind_some, later,
            Option.pure_def]
        · simp

theorem parse_print (fields : List (PyStr × Json)) (nonempty : fields ≠ [])
    (flat : ∀ field ∈ fields, (∃ name, field.1 = py name) ∧ Flat field.2) :
    parse (print (.obj fields)) = some (.obj fields) := by
  have enough : fields.length ≤ (printFields fields ++ ['\x7d']).length := by
    have := printFields_length fields
    simp only [List.length_append, List.length_cons, List.length_nil]
    omega
  have read := readFields_print fields _ enough nonempty flat
  have begins : ∃ rest, printFields fields = '"' :: rest := by
    cases fields with
    | nil => exact absurd rfl nonempty
    | cons field rest =>
      obtain ⟨text, value⟩ := field
      cases rest with
      | nil => exact ⟨_, by simp [printFields, printField, quote]; rfl⟩
      | cons second more => exact ⟨_, by simp [printFields, printField, quote]; rfl⟩
  obtain ⟨rest, same⟩ := begins
  rw [print, List.cons_append, same, List.cons_append, parse]
  · rw [← List.cons_append, ← same, read]
    rfl
  · simp

/-! ### The platform -/

def failModeJson : Option FailMode → Json
  | none => .null
  | some .transient => .str (py "transient")
  | some .permanent => .str (py "permanent")

def modelDump (event : OrderEvent) : Json :=
  .obj [(py "event_id", .str (py event.eventId)), (py "event_type", .str (py event.eventType)),
    (py "occurred_at", .str (py event.occurredAt)), (py "order_id", .str (py event.orderId.str)),
    (py "customer_id", .str (py event.customerId)), (py "sku", .str (py event.sku)),
    (py "quantity", .int event.quantity), (py "amount_cents", .int event.amountCents),
    (py "fail_mode", failModeJson event.failMode)]

def readFailMode : Json → Option (Option FailMode)
  | .null => some none
  | .str text =>
      if text = py "transient" then some (some .transient)
      else if text = py "permanent" then some (some .permanent)
      else none
  | _ => none

/-- Accepts the fields in the order they are dumped in. -/
def readEvent : Json → Option OrderEvent
  | .obj [(_, .str eventId), (_, .str eventType), (_, .str occurredAt), (_, .str orderId),
      (_, .str customerId), (_, .str sku), (_, .int quantity), (_, .int amountCents),
      (_, failMode)] => do
      let orderId ← Uuid.parse (unpy orderId)
      let failMode ← readFailMode failMode
      return ⟨unpy eventId, unpy eventType, unpy occurredAt, orderId, unpy customerId, unpy sku,
        quantity, amountCents, failMode⟩
  | _ => none

def modelValidate (value : Json) : Except PyStr OrderEvent :=
  match readEvent value with
  | some event => .ok event
  | none => .error (py "validation error for OrderEvent")

theorem readFailMode_json (failMode : Option FailMode) :
    readFailMode (failModeJson failMode) = some failMode := by
  rcases failMode with _ | _ | _
  · rfl
  · rfl
  · decide

theorem modelValidate_dump (event : OrderEvent) : modelValidate (modelDump event) = .ok event := by
  simp [modelValidate, modelDump, readEvent, readFailMode_json, uuid_parse_str]

theorem failModeJson_flat (failMode : Option FailMode) : Flat (failModeJson failMode) := by
  rcases failMode with _ | _ | _
  · exact .null
  · exact .str "transient"
  · exact .str "permanent"

theorem parse_modelDump (event : OrderEvent) :
    parse (print (modelDump event)) = some (modelDump event) := by
  refine parse_print _ (by simp) ?_
  intro field member
  simp only [List.mem_cons, List.not_mem_nil, or_false] at member
  rcases member with rfl | rfl | rfl | rfl | rfl | rfl | rfl | rfl | rfl
  · exact ⟨⟨_, rfl⟩, .str _⟩
  · exact ⟨⟨_, rfl⟩, .str _⟩
  · exact ⟨⟨_, rfl⟩, .str _⟩
  · exact ⟨⟨_, rfl⟩, .str _⟩
  · exact ⟨⟨_, rfl⟩, .str _⟩
  · exact ⟨⟨_, rfl⟩, .str _⟩
  · exact ⟨⟨_, rfl⟩, .int _⟩
  · exact ⟨⟨_, rfl⟩, .int _⟩
  · exact ⟨⟨_, rfl⟩, failModeJson_flat _⟩

/-- `repr` of a float that stands for a whole number. -/
def reprFloat : PyFloat → String
  | .num value => toString value.num ++ (if value.den = 1 then ".0" else "/" ++ toString value.den)
  | .posInf => "inf"
  | .negInf => "-inf"
  | .nan => "nan"

def floatOf (text : String) : Option PyFloat :=
  match readScalar (text.toList ++ [' ']) with
  | some (.int n, ['.', '0', ' ']) => some (.num n)
  | _ => none

def statusName : OrderStatus → PyStr
  | .pending => py "pending"
  | .processing => py "processing"
  | .completed => py "completed"
  | .failed => py "failed"

def optional : Option PyStr → Json
  | none => .null
  | some text => .str text

def dumpOut (out : OrderOut) : Json :=
  .obj [(py "id", .str (py out.id.str)), (py "customer_id", .str (py out.customerId)),
    (py "sku", .str (py out.sku)), (py "quantity", .int out.quantity),
    (py "amount_cents", .int out.amountCents), (py "status", .str (statusName out.status)),
    (py "attempts", .int out.attempts), (py "failure_reason", optional out.failureReason),
    (py "transitions", .arr (out.transitions.map fun hop =>
      .obj [(py "from_status", optional (hop.fromStatus.map statusName)),
        (py "to_status", .str (statusName hop.toStatus)), (py "note", optional hop.note)]))]

/-- No blob is read back in the runs on this platform. -/
def platform : Platform where
  loads text := parse text.toList
  dumps value := String.ofList (print value)
  modelValidate
  modelDump
  modelDumpJson out := String.ofList (print (dumpOut out))
  modelValidateJson _ := none
  reprFloat
  floatOf
  isPrintable c := decide (0xA1 ≤ c.toNat)
  modelDump_isDict _ := rfl
  loads_dumps event := by rw [String.toList_ofList, parse_modelDump]
  modelValidate_dump

/-! ### Playing schedules -/

def recallValue (events : List OrderEvent) : Option ByteArray → Option Json
  | none => none
  | some bytes =>
      match events.find? fun event =>
          bytes.data.toList = (serialize platform (modelDump event)).data.toList with
      | some event => some (modelDump event)
      | none => valueDeserializer platform (some bytes)

theorem recallValue_eq (events : List OrderEvent) : recallValue events = valueDeserializer platform := by
  funext bytes
  cases bytes with
  | none => rfl
  | some bytes =>
    rw [recallValue]
    split
    · rename_i event found
      have same := List.find?_some found
      rw [decide_eq_true_eq] at same
      obtain rfl : bytes = serialize platform (modelDump event) :=
        ByteArray.ext (Array.toList_inj.mp same)
      exact (serialized_value platform event).symm
    · rfl

def recallRecord (events : List OrderEvent) : Decode := fun tp offset record => do
  let key ← keyDeserializer record.key
  let value ← recallValue events record.value
  return ⟨tp.topic, tp.partition, offset, key, value, record.headers⟩

theorem recallRecord_eq (events : List OrderEvent) : recallRecord events = deserialize platform := by
  funext tp offset record
  rw [recallRecord, deserialize, recallValue_eq]

def deployment (settings : Settings) (mayFulfil : OrderEvent → Except Exn Unit → Bool) :
    Deployment := ⟨settings, platform, mayFulfil⟩

variable (settings : Settings) (mayFulfil : OrderEvent → Except Exn Unit → Bool)
  (events : List OrderEvent)

def quickAnswer (thread : Nat) : (op : Op) → World → Oracle →
    Option (Except Exn op.Reply × World)
  | .getmany topic, world, oracle =>
      if (oracle.fetch.map Prod.snd).sum ≤ maxPollRecords then
        match fetch (recallRecord events) thread topic world oracle.fetch with
        | some (.ok (batch, after)) => some (.ok batch, after)
        | some (.error error) => some (.error error, world)
        | none => none
      else none
  | op, world, oracle => answer (deployment settings mayFulfil) thread op world oracle

theorem quickAnswer_eq (thread : Nat) (op : Op) (world : World) (oracle : Oracle) :
    quickAnswer settings mayFulfil events thread op world oracle =
      answer (deployment settings mayFulfil) thread op world oracle := by
  cases op with
  | getmany topic => rw [quickAnswer, recallRecord_eq]; rfl
  | _ => rfl

def quickPerform (thread : Nat) (op : Op) (world : World) :
    Fate → Option (Outcome Exn op.Reply × World)
  | .normal oracle =>
      match quickAnswer settings mayFulfil events thread op world oracle with
      | some (.ok value, after) => some (.ok value, after)
      | some (.error error, after) => some (.lost error, after)
      | none => none
  | .lost => if op.isLocal then none else some (.lost .unavailable, world)
  | .late oracle =>
      if op.isLocal then none
      else match quickAnswer settings mayFulfil events thread op world oracle with
        | some (.ok _, after) => some (.late .unavailable, after)
        | _ => none

/-- The system with its decoder replaced by the look-up. -/
def quick : System Op Op.Reply Exn World Call Result Event Fate :=
  { system (deployment settings mayFulfil) with
    perform := quickPerform settings mayFulfil events }

theorem quick_eq : quick settings mayFulfil events = system (deployment settings mayFulfil) := by
  have same : quickPerform settings mayFulfil events = perform (deployment settings mayFulfil) := by
    funext thread op world fate
    cases fate with
    | normal oracle => rw [quickPerform, quickAnswer_eq]; rfl
    | lost => rfl
    | late oracle => rw [quickPerform, quickAnswer_eq]; rfl
  rw [quick, same]
  rfl

/-- `fulfil` as the repository has it. -/
def fulfils (event : OrderEvent) (result : Except Exn Unit) : Bool :=
  match Processing.fulfil platform.isPrintable event, result with
  | .ok _, .ok _ => true
  | .error error, .error other => decide (error = other)
  | _, _ => false

theorem fulfils_sound {event : OrderEvent} {result : Except Exn Unit}
    (may : fulfils event result = true) : result = Processing.fulfil platform.isPrintable event := by
  unfold fulfils at may
  split at may
  · rename_i returned
    exact returned.symm
  · rename_i raised
    rw [raised, of_decide_eq_true may]
  · cases may

/-- The default settings, and `fulfil` as it is. -/
def shop : Deployment := deployment {} fulfils

abbrev Moves := List (Move Call Event Fate)

/-- A schedule played from the start, on the quick system. -/
def play (moves : Moves) (permits : Moment → Bool) : Option Pipeline :=
  (Pool.initial World.empty : Pipeline).play (quick settings mayFulfil events) (fun _ => permits) moves

theorem play_reached {allows : Pipeline → Moment → Prop} {permits : Moment → Bool} {moves : Moves}
    {pool : Pipeline} (sound : ∀ pool label, permits label = true → allows pool label)
    (played : play settings mayFulfil events moves permits = some pool) :
    Reachable (system (deployment settings mayFulfil)) allows World.empty pool := by
  rw [play, quick_eq] at played
  exact Pool.play_reachable _ (fun pool label _ => sound pool label) moves .init played

/-- A schedule whose last state passes a test reaches such a state. -/
theorem play_shows {allows : Pipeline → Moment → Prop} {permits : Moment → Bool} (moves : Moves)
    (sound : ∀ pool label, permits label = true → allows pool label) (test : Pipeline → Bool)
    (shows : (play settings mayFulfil events moves permits).any test = true) :
    ∃ pool, Reachable (system (deployment settings mayFulfil)) allows World.empty pool ∧
      test pool = true := by
  obtain ⟨pool, played, holds⟩ := (Option.any_eq_true _ _).mp shows
  exact ⟨pool, play_reached settings mayFulfil events sound played, holds⟩

/-- The same, where a step is tested in the state it is taken in. -/
theorem play_checks {allows : Pipeline → Moment → Prop} {permits : Pipeline → Moment → Bool}
    (moves : Moves) (sound : ∀ pool label,
      Reachable (system (deployment settings mayFulfil)) allows World.empty pool →
      permits pool label = true → allows pool label) (test : Pipeline → Bool)
    (shows : ((Pool.initial World.empty : Pipeline).play (quick settings mayFulfil events) permits
      moves).any test = true) :
    ∃ pool, Reachable (system (deployment settings mayFulfil)) allows World.empty pool ∧
      test pool = true := by
  obtain ⟨pool, played, holds⟩ := (Option.any_eq_true _ _).mp shows
  rw [quick_eq] at played
  exact ⟨pool, Pool.play_reachable _ sound moves .init played, holds⟩

/-- The same, with every step of the run. -/
theorem play_paths {allows : Pipeline → Moment → Prop} {permits : Pipeline → Moment → Bool}
    (moves : Moves) (sound : ∀ pool label, permits pool label = true → allows pool label)
    (test : Pipeline → Bool)
    (shows : ((Pool.initial World.empty : Pipeline).play (quick settings mayFulfil events) permits
      moves).any test = true) :
    ∃ past pool, Path (system (deployment settings mayFulfil)) allows (.initial .empty) past pool ∧
      test pool = true := by
  obtain ⟨pool, played, holds⟩ := (Option.any_eq_true _ _).mp shows
  rw [quick_eq] at played
  obtain ⟨past, path⟩ := Pool.play_path _ sound moves .here played
  exact ⟨past, pool, path, holds⟩

/-- A schedule in two parts, and the stretch between its two states. -/
theorem play_walks {allows goesOn : Pipeline → Moment → Prop} {permits passes : Moment → Bool}
    (moves more : Moves) (sound : ∀ pool label, permits label = true → allows pool label)
    (soundToo : ∀ pool label, passes label = true → goesOn pool label)
    (test : Pipeline → Pipeline → Bool)
    (shows : (play settings mayFulfil events moves permits).any (fun start =>
      (start.play (quick settings mayFulfil events) (fun _ => passes) more).any (test start)) = true) :
    ∃ start past pool,
      Reachable (system (deployment settings mayFulfil)) allows World.empty start ∧
      Path (system (deployment settings mayFulfil)) goesOn start past pool ∧
      test start pool = true := by
  obtain ⟨start, played, walks⟩ := (Option.any_eq_true _ _).mp shows
  obtain ⟨pool, playedMore, holds⟩ := (Option.any_eq_true _ _).mp walks
  rw [quick_eq] at playedMore
  obtain ⟨past, path⟩ := Pool.play_path _ soundToo more .here playedMore
  exact ⟨start, past, pool, play_reached settings mayFulfil events sound played, path, holds⟩

def ok : Fate := .normal {}
def draw (id : Fin (2 ^ 128)) : Fate := .normal { uuid := ⟨id⟩ }
def result (result : Except Exn Unit) : Fate := .normal { result }

/-- The next `count` records of a partition. -/
def take (topic : String) (partition count : Nat) : Fate :=
  .normal { fetch := [(⟨topic, partition⟩, count)] }

def runs (thread count : Nat) : Moves := List.replicate count (.run thread ok)

def payload (failMode : Option FailMode) : OrderCreate where
  customerId := "c1"
  sku := "W-1"
  quantity := 2
  amountCents := 500
  failMode
  customerId_bounds := by decide
  sku_bounds := by decide
  quantity_bounds := by decide
  amountCents_bound := by decide

/-- A submission without a key, up to its publication. -/
def submit (thread : Nat) (failMode : Option FailMode) (id eventId : Fin (2 ^ 128)) : Moves :=
  [.start thread (.submitOrder (payload failMode) none), .run thread (draw id), .run thread ok,
    .run thread ok, .run thread (draw eventId), .run thread ok, .run thread ok]

/-- A submission with a key begins. -/
def keyed (thread : Nat) : Move Call Event Fate :=
  .start thread (.submitOrder (payload none) (some "k"))

def event (failMode : Option FailMode) (id eventId : Fin (2 ^ 128)) : OrderEvent :=
  submittedEvent (payload failMode) ⟨id⟩ ⟨eventId⟩ "1970-01-01T00:00:00Z"

/-- A worker is started, given a partition, and fetches one record. -/
def consume (thread : Nat) (consumer : Consumer) : Moves :=
  [.start thread (.worker consumer), .event (.assign thread consumer 0), .run thread ok,
    .run thread (take (consumer.topic settings) 0 1), .run thread ok]

/-- The text `fulfil` raises for `fail_mode=permanent`. -/
def poisoned : PyStr := py "simulated permanent failure (fail_mode=permanent)"

/-- The text `fulfil` raises for `fail_mode=transient`. -/
def shaken : PyStr := py "simulated downstream timeout (fail_mode=transient)"

/-- Events come from submissions only. -/
def SubmittedOnly (_ : Pipeline) (label : Moment) : Prop :=
  ∀ tp record, label ≠ .event (.produce tp record)

def submittedOnly : Moment → Bool
  | .event (.produce _ _) => false
  | _ => true

theorem submittedOnly_sound (pool : Pipeline) (label : Moment)
    (passes : submittedOnly label = true) : SubmittedOnly pool label := by
  rintro tp record rfl
  cases passes

/-- Any step at all. -/
def Anything (_ : Pipeline) (_ : Moment) : Prop := True

def anything (_ : Moment) : Bool := true

theorem anything_sound (pool : Pipeline) (label : Moment) (_ : anything label = true) :
    Anything pool label := trivial

/-- No fault: nothing raises but `fulfil`, no worker crashes, no key expires, and
    nobody else produces. -/
def faultless : Moment → Bool
  | .did _ (.fulfil _) _ => true
  | .did _ _ (.ok _) => true
  | .did _ _ _ => false
  | .crash _ => false
  | .event (.produce _ _) => false
  | .event (.expire _) => false
  | _ => true

theorem faultless_guarded (pool : Pipeline) (label : Moment) (passes : faultless label = true) :
    GuardedRuns shop pool label := by
  constructor
  · rintro tp record rfl
    cases passes
  · rintro eventId rfl
    cases passes

def status (pool : Pipeline) (id : Fin (2 ^ 128)) : Option OrderStatus :=
  (pool.world.orders ⟨id⟩).map (·.status)

def carriesEvent (event : OrderEvent) (entry : LogEntry) : Bool :=
  entry.record.value.map (·.data.toList) = some (serialize platform (modelDump event)).data.toList

theorem carries_of_carriesEvent {event : OrderEvent} {entry : LogEntry}
    (same : carriesEvent event entry = true) : Carries platform entry event := by
  rw [carriesEvent, decide_eq_true_eq, Option.map_eq_some_iff] at same
  obtain ⟨bytes, stored, equal⟩ := same
  rw [Carries, stored, ByteArray.ext (Array.toList_inj.mp equal)]
  rfl

/-! ### Facts about all threads and all partitions -/

def starts : List Moment → List Nat
  | [] => []
  | .start thread _ :: past => thread :: starts past
  | _ :: past => starts past

theorem mem_starts {trace : List Moment} {thread : Nat} {call : Call}
    (started : Label.start thread call ∈ trace) : thread ∈ starts trace := by
  induction trace with
  | nil => cases started
  | cons label past ih =>
    rcases List.mem_cons.mp started with rfl | earlier
    · exact List.mem_cons_self ..
    · cases label with
      | start other call => exact List.mem_cons_of_mem _ (ih earlier)
      | _ => exact ih earlier

variable {d : Deployment} {allows : Pipeline → Moment → Prop} {pool : Pipeline}

/-- What holds outside of any call, and of each thread that was started, holds of all. -/
theorem every_thread {P : Stage d → Prop}
    (reached : Reachable (system d) allows World.empty pool) (outside : P .outside)
    (started : ∀ thread ∈ starts pool.trace, P (stage d pool thread)) (thread : Nat) :
    P (stage d pool thread) := by
  by_cases member : thread ∈ starts pool.trace
  · exact started thread member
  · have idle := Monitor.record_unused (Stage.monitor d) reached thread
      fun label inside call same => member (mem_starts (same ▸ inside))
    rw [stage, idle]
    exact outside

def suspended (pool : Pipeline) (thread : Nat) : Bool :=
  match pool.threads thread with
  | some ⟨_, .await _ _⟩ => true
  | _ => false

theorem not_in_flight (reached : Reachable (system d) allows World.empty pool)
    (still : ∀ thread ∈ starts pool.trace, suspended pool thread = false) (thread : Nat) :
    ¬ pool.InFlight thread := by
  rintro ⟨⟨call, program⟩, held, running⟩
  have member : thread ∈ starts pool.trace := by
    by_contra never
    exact started_of_held reached thread _ held fun label inside call same =>
      never (mem_starts (same ▸ inside))
  have ended := still thread member
  rw [suspended, held] at ended
  cases program with
  | await op resume => cases ended
  | _ => exact running

/-- The partitions that records were produced to from outside. -/
def produced : List Moment → List TopicPartition
  | [] => []
  | .event (.produce tp _) :: past => tp :: produced past
  | _ :: past => produced past

theorem produced_grows (label : Moment) (past : List Moment) :
    produced past ⊆ produced (label :: past) := by
  cases label with
  | event happening =>
    cases happening with
    | produce tp record => exact List.subset_cons_self ..
    | _ => exact fun _ => id
  | _ => exact fun _ => id

/-- A record nobody produced from outside is in a partition of its topic. -/
theorem logs_home (reached : Reachable (system d) allows World.empty pool) :
    ∀ tp, ∀ entry ∈ pool.world.logs tp,
      tp.partition < d.settings.partitions tp.topic ∨ tp ∈ produced pool.trace := by
  refine run_invariant (P := fun pool => ∀ tp, ∀ entry ∈ pool.world.logs tp,
    tp.partition < d.settings.partitions tp.topic ∨ tp ∈ produced pool.trace) ?_ ?_ ?_ ?_ reached
  · rintro tp entry ⟨⟩
  · intro pool after thread op outcome _ known _ act tp entry member
    have before : entry ∈ pool.world.logs tp → tp.partition < d.settings.partitions tp.topic ∨
        tp ∈ produced after.trace := fun earlier =>
      (known tp entry earlier).imp id fun inside => act.trace ▸ produced_grows _ _ inside
    obtain ⟨fate, performed⟩ := act.performed
    cases op with
    | send topic key value headers =>
      rcases perform_send performed with ⟨_, _, same⟩ | ⟨_, partition, home, world⟩
      · exact before (same ▸ member)
      · rw [world] at member
        rcases mem_append member with earlier | ⟨rfl, _⟩
        · exact before earlier
        · exact .inl home
    | _ => exact before (perform_logs performed rfl ▸ member)
  · intro pool after label thread _ known _ turn tp entry member
    rw [turn.world] at member
    exact (known tp entry member).imp id fun inside => turn.trace ▸ produced_grows _ _ inside
  · intro pool after event _ known _ happening tp entry member
    have before : entry ∈ pool.world.logs tp → tp.partition < d.settings.partitions tp.topic ∨
        tp ∈ produced after.trace := fun earlier =>
      (known tp entry earlier).imp id fun inside => happening.trace ▸ produced_grows _ _ inside
    rcases happen_logs happening.happened with ⟨same, _⟩ | ⟨place, record, rfl, world⟩
    · exact before (same ▸ member)
    · rw [world] at member
      rcases mem_append member with earlier | ⟨rfl, _⟩
      · exact before earlier
      · exact .inr (by rw [happening.trace]; exact List.mem_cons_self ..)

theorem not_waiting {consumer : Consumer} {event : OrderEvent}
    (reached : Reachable (system d) allows World.empty pool) (inside : produced pool.trace = [])
    (below : ∀ partition < d.settings.partitions (consumer.topic d.settings),
      (pool.world.logs ⟨consumer.topic d.settings, partition⟩).length ≤
        pool.world.committed (consumer.group d.settings) ⟨consumer.topic d.settings, partition⟩) :
    ¬ Waiting d pool consumer event := by
  rintro ⟨partition, offset, entry, found, _, waits⟩
  rcases logs_home reached _ entry (List.mem_of_getElem? found) with home | outside
  · obtain ⟨short, _⟩ := List.getElem?_eq_some_iff.mp found
    have := below partition home
    omega
  · rw [inside] at outside
    cases outside

theorem not_lettered {value : Json} (reached : Reachable (system d) allows World.empty pool)
    (elsewhere : ∀ tp ∈ produced pool.trace, tp.topic ≠ d.settings.topicDlq)
    (empty : (pool.world.logs ⟨d.settings.topicDlq, 0⟩).length = 0) :
    ¬ DeadLettered d pool value := by
  rintro ⟨partition, entry, member, _⟩
  rcases logs_home reached _ entry member with home | outside
  · obtain rfl : partition = 0 := by simpa [Settings.partitions] using home
    rw [List.length_eq_zero_iff.mp empty] at member
    cases member
  · exact elsewhere _ outside rfl

/-- What the look-up makes of a stored record is what a consumer is handed. -/
theorem handed_of_recall {events : List OrderEvent} (consumer : Consumer) {partition offset : Nat}
    {entry : LogEntry} {record : ConsumerRecord} {settings : Settings}
    {mayFulfil : OrderEvent → Except Exn Unit → Bool}
    (stored : (pool.world.logs ⟨consumer.topic settings, partition⟩)[offset]? = some entry)
    (recalled : recallRecord events ⟨consumer.topic settings, partition⟩ offset entry.record =
      some record) :
    Handed (deployment settings mayFulfil) pool consumer record ∧
      record.tp = ⟨consumer.topic settings, partition⟩ ∧ record.offset = offset := by
  have place : record.tp = ⟨consumer.topic settings, partition⟩ ∧ record.offset = offset := by
    simp only [recallRecord, Option.bind_eq_bind, Option.bind_eq_some_iff, Option.pure_def,
      Option.some.injEq] at recalled
    obtain ⟨_, _, _, _, rfl⟩ := recalled
    exact ⟨rfl, rfl⟩
  rw [recallRecord_eq] at recalled
  refine ⟨⟨⟨entry, ?_, ?_⟩, congrArg TopicPartition.topic place.1⟩, place⟩
  · rw [place.1, place.2]
    exact stored
  · rw [place.1, place.2]
    exact recalled

end OrderFlow.Sample
