import OrderFlow.Python

/-!
`uuid.UUID`: the two texts of a UUID and the parser, which takes back either.
-/
namespace OrderFlow

instance uuidRange : NeZero (2 ^ 128) := ⟨by decide⟩

structure Uuid where
  int : Fin (2 ^ 128)
  deriving DecidableEq, Repr

def nibbles : Nat → Nat → List Nat
  | 0, _ => []
  | width + 1, n => nibbles width (n / 16) ++ [n % 16]

def hexDigits (width n : Nat) : List Char := (nibbles width n).map Nat.digitChar

def Uuid.hex (u : Uuid) : String := String.ofList (hexDigits 32 u.int.val)

/-- 8-4-4-4-12. -/
def dashed (digits : List Char) : List Char :=
  digits.take 8 ++ '-' :: (digits.drop 8).take 4 ++ '-' :: (digits.drop 12).take 4 ++
    '-' :: (digits.drop 16).take 4 ++ '-' :: digits.drop 20

/-- `str(u)`. -/
def Uuid.str (u : Uuid) : String := String.ofList (dashed (hexDigits 32 u.int.val))

/-- `text.replace(pattern, "")` for a non-empty pattern. -/
def removeAll (pattern : List Char) : Nat → List Char → List Char
  | _, [] => []
  | 0, text => text
  | fuel + 1, c :: rest =>
      if pattern.isPrefixOf (c :: rest) then removeAll pattern fuel ((c :: rest).drop pattern.length)
      else c :: removeAll pattern fuel rest

def brace (c : Char) : Bool := c == '\x7b' || c == '\x7d'

def stripBraces (text : List Char) : List Char :=
  ((text.dropWhile brace).reverse.dropWhile brace).reverse

/-- `uuid.UUID(text)`; `none` is ValueError. -/
def Uuid.parse (text : String) : Option Uuid :=
  let chars := removeAll ['u', 'r', 'n', ':'] text.toList.length text.toList
  let chars := removeAll ['u', 'u', 'i', 'd', ':'] chars.length chars
  let chars := (stripBraces chars).filter (· != '-')
  if chars.length ≠ 32 then none
  else match pyInt 16 (String.ofList chars) with
    | some n => if h : 0 ≤ n ∧ n.toNat < 2 ^ 128 then some ⟨⟨n.toNat, h.2⟩⟩ else none
    | none => none

theorem nibbles_length (width n : Nat) : (nibbles width n).length = width := by
  induction width generalizing n with
  | zero => rfl
  | succ width ih => simp [nibbles, ih]

theorem nibbles_lt (width n : Nat) : ∀ d ∈ nibbles width n, d < 16 := by
  induction width generalizing n with
  | zero => simp [nibbles]
  | succ width ih =>
    intro d member
    simp only [nibbles, List.mem_append, List.mem_singleton] at member
    rcases member with earlier | last
    · exact ih _ d earlier
    · subst last
      exact Nat.mod_lt _ (by decide)

theorem foldl_nibbles (width n : Nat) :
    (nibbles width n).foldl (fun acc d => acc * 16 + d) 0 = n % 16 ^ width := by
  induction width generalizing n with
  | zero => simp [nibbles, Nat.mod_one]
  | succ width ih =>
    rw [nibbles, List.foldl_append, ih]
    simp only [List.foldl_cons, List.foldl_nil]
    rw [Nat.pow_succ', Nat.mod_mul]
    omega

theorem hexDigits_length (width n : Nat) : (hexDigits width n).length = width := by
  simp [hexDigits, nibbles_length]

/-- What holds of the sixteen hex digits holds of every character of the text. -/
theorem hexDigits_forall {holds : Char → Prop} (each : ∀ d < 16, holds (Nat.digitChar d))
    (width n : Nat) : ∀ c ∈ hexDigits width n, holds c := by
  intro c member
  obtain ⟨d, small, rfl⟩ := List.mem_map.mp member
  exact each d (nibbles_lt width n d small)

theorem digitsOf_map {base : Nat} (ds : List Nat)
    (digit : ∀ d ∈ ds, digitOf base (Nat.digitChar d) = some d ∧ Nat.digitChar d ≠ '_')
    (nonempty : ds ≠ []) : digitsOf base (ds.map Nat.digitChar) = some ds := by
  induction ds with
  | nil => exact absurd rfl nonempty
  | cons d rest ih =>
    have hd := (digit d (by simp)).1
    cases rest with
    | nil => simp [digitsOf, hd]
    | cons e more =>
      have tail := ih (fun x hx => digit x (by simp [hx])) (by simp)
      have he := (digit e (by simp)).2
      simp only [List.map_cons] at tail ⊢
      rw [digitsOf]
      · simp [hd, tail]

/-- Text without a sign, a blank or a character outside ASCII is read as it stands. -/
theorem pyInt_plain {base : Nat} {text : List Char}
    (plain : ∀ c ∈ text, c ≠ '-' ∧ c ≠ '+' ∧ asciiSpace c = false ∧ c.toNat < 0x80) :
    pyInt base (String.ofList text) = (unsigned base text).map Int.ofNat := by
  have keep : ∀ text : List Char, (∀ c ∈ text, asciiSpace c = false) →
      text.dropWhile asciiSpace = text := by
    intro text none
    cases text with
    | nil => rfl
    | cons c rest => simp [none c (by simp)]
  have spaces : ∀ c ∈ text, asciiSpace c = false := fun c member => (plain c member).2.2.1
  have stripped : strip text = text := by
    rw [strip, keep _ spaces, keep _ (by simpa using spaces), List.reverse_reverse]
  have ascii : toAscii text = text := by
    rw [toAscii, if_pos]
    simpa using fun c member => (plain c member).2.2.2
  simp only [pyInt, String.toList_ofList, ascii, stripped]
  split
  · exact absurd rfl (plain '-' (by simp)).1
  · exact absurd rfl (plain '+' (by simp)).2.1
  · rfl

theorem unsigned_hexDigits (n : Nat) (small : n < 16 ^ 32) :
    unsigned 16 (hexDigits 32 n) = some n := by
  have marker : ∀ c ∈ hexDigits 32 n, c ≠ 'x' ∧ c ≠ 'X' :=
    hexDigits_forall (by decide) 32 n
  have digits : digitsOf 16 (hexDigits 32 n) = some (nibbles 32 n) := by
    have digit : ∀ d < 16, digitOf 16 (Nat.digitChar d) = some d ∧ Nat.digitChar d ≠ '_' := by
      decide
    refine digitsOf_map _ (fun d member => digit d (nibbles_lt 32 n d member)) fun empty => ?_
    have := nibbles_length 32 n
    simp [empty] at this
  simp only [unsigned]
  split
  · rename_i rest text
    exact absurd rfl (marker 'x' (by simp [text])).1
  · rename_i rest text
    exact absurd rfl (marker 'X' (by simp [text])).2
  · rename_i rest text
    exact absurd rfl (marker 'x' (by simp [text])).1
  · rename_i rest text
    exact absurd rfl (marker 'X' (by simp [text])).2
  · simp only [digits, Option.bind_eq_bind, Option.bind_some, foldl_nibbles,
      Nat.mod_eq_of_lt small]
    rfl

theorem pyInt_hexDigits (n : Nat) (small : n < 16 ^ 32) :
    pyInt 16 (String.ofList (hexDigits 32 n)) = some (n : Int) := by
  rw [pyInt_plain (hexDigits_forall (by decide) 32 n), unsigned_hexDigits n small]
  rfl

/-- Removing a pattern that has a character the text lacks changes nothing. -/
theorem removeAll_absent (pattern : List Char) (mark : Char) (inPattern : mark ∈ pattern)
    (fuel : Nat) (text : List Char) (absent : mark ∉ text) :
    removeAll pattern fuel text = text := by
  induction fuel generalizing text with
  | zero => cases text <;> rfl
  | succ fuel ih =>
    cases text with
    | nil => rfl
    | cons c rest =>
      have noPrefix : pattern.isPrefixOf (c :: rest) = false := by
        rw [Bool.eq_false_iff]
        intro starts
        exact absent ((List.isPrefixOf_iff_prefix.mp starts).subset inPattern)
      simp only [removeAll, noPrefix, Bool.false_eq_true, ↓reduceIte]
      rw [ih rest fun member => absent (List.mem_cons_of_mem c member)]

theorem stripBraces_plain (text : List Char) (plain : ∀ c ∈ text, brace c = false) :
    stripBraces text = text := by
  have keep : ∀ part : List Char, (∀ c ∈ part, brace c = false) → part.dropWhile brace = part := by
    intro part none
    cases part with
    | nil => rfl
    | cons c rest => simp [none c (by simp)]
  rw [stripBraces, keep _ plain, keep _ (by simpa using plain), List.reverse_reverse]

theorem dashed_subset (digits : List Char) : ∀ c ∈ dashed digits, c = '-' ∨ c ∈ digits := by
  intro c member
  simp only [dashed, List.mem_append, List.mem_cons] at member
  have drops : ∀ k, c ∈ digits.drop k → c ∈ digits := fun k h => List.mem_of_mem_drop h
  have pieces : ∀ k, c ∈ (digits.drop k).take 4 → c ∈ digits :=
    fun k h => drops k (List.mem_of_mem_take h)
  rcases member with (((h | h | h) | h | h) | h | h) | h | h
  · exact Or.inr (List.mem_of_mem_take h)
  · exact Or.inl h
  · exact Or.inr (pieces _ h)
  · exact Or.inl h
  · exact Or.inr (pieces _ h)
  · exact Or.inl h
  · exact Or.inr (pieces _ h)
  · exact Or.inl h
  · exact Or.inr (drops _ h)

theorem filter_dashed (digits : List Char) (plain : ∀ c ∈ digits, c ≠ '-') :
    (dashed digits).filter (· != '-') = digits := by
  have keep : ∀ part : List Char, (∀ c ∈ part, c ∈ digits) → part.filter (· != '-') = part := by
    intro part inside
    rw [List.filter_eq_self]
    intro c member
    simpa using plain c (inside c member)
  have piece : ∀ k, ((digits.drop k).take 4).filter (· != '-') = (digits.drop k).take 4 :=
    fun k => keep _ fun c h => List.mem_of_mem_drop (List.mem_of_mem_take h)
  have tail : (digits.drop 20).filter (· != '-') = digits.drop 20 :=
    keep _ fun c h => List.mem_of_mem_drop h
  have head : (digits.take 8).filter (· != '-') = digits.take 8 :=
    keep _ fun c h => List.mem_of_mem_take h
  have dash : ∀ rest : List Char, ('-' :: rest).filter (· != '-') = rest.filter (· != '-') :=
    fun rest => by simp
  simp only [dashed, List.filter_append, dash, head, piece, tail]
  have join : ∀ k, (digits.drop k).take 4 ++ digits.drop (k + 4) = digits.drop k := by
    intro k
    rw [← List.drop_drop]
    exact List.take_append_drop 4 (digits.drop k)
  rw [List.append_assoc, join 16, List.append_assoc, join 12, List.append_assoc, join 8]
  exact List.take_append_drop 8 digits

theorem uuid_parse_str (u : Uuid) : Uuid.parse u.str = some u := by
  have plain : ∀ c ∈ hexDigits 32 u.int.val, c ≠ '-' ∧ c ≠ ':' ∧ brace c = false :=
    hexDigits_forall (by decide) 32 u.int.val
  have dashedPlain : ∀ c ∈ dashed (hexDigits 32 u.int.val), c ≠ ':' ∧ brace c = false := by
    intro c member
    rcases dashed_subset _ c member with dash | digit
    · subst dash
      decide
    · exact (plain c digit).2
  have colon : ':' ∉ dashed (hexDigits 32 u.int.val) :=
    fun member => (dashedPlain ':' member).1 rfl
  have small : u.int.val < 16 ^ 32 := by
    have := u.int.isLt
    norm_num at this ⊢
    exact this
  simp only [Uuid.parse, Uuid.str, String.toList_ofList]
  rw [removeAll_absent _ ':' (by decide) _ _ colon, removeAll_absent _ ':' (by decide) _ _ colon,
    stripBraces_plain _ fun c member => (dashedPlain c member).2,
    filter_dashed _ fun c member => (plain c member).1]
  simp only [hexDigits_length, ne_eq, not_true_eq_false, ↓reduceIte, pyInt_hexDigits _ small]
  simp

theorem uuid_str_injective {u v : Uuid} (same : u.str = v.str) : u = v := by
  have := uuid_parse_str u
  rw [same, uuid_parse_str v] at this
  exact (Option.some.inj this).symm

theorem uuid_str_ne_empty (u : Uuid) : u.str ≠ "" := by
  intro empty
  have none : Uuid.parse "" = none := by decide
  have same := uuid_parse_str u
  rw [empty, none] at same
  cases same

theorem uuid_hex_injective {u v : Uuid} (same : u.hex = v.hex) : u = v := by
  have lists : hexDigits 32 u.int.val = hexDigits 32 v.int.val := by
    simpa [Uuid.hex] using congrArg String.toList same
  have texts : u.str = v.str := by rw [Uuid.str, Uuid.str, lists]
  exact uuid_str_injective texts

theorem uuid_hex_length (u : Uuid) : u.hex.length = 32 := by
  simp [Uuid.hex, hexDigits_length]

end OrderFlow
