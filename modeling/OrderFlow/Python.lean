import Mathlib.Data.Rat.Floor
import Mathlib.Algebra.Order.Floor.Ring

/-!
The Python values the program handles. A `str` is a list of code points, lone
surrogates included; JSON floats are carried as their bits because nothing reads
them; times and delays are exact rationals, with the infinities and NaN that
`float` accepts.
-/
namespace OrderFlow

structure CodePoint where
  val : Nat
  isLt : val < 0x110000
  deriving DecidableEq, Repr

abbrev PyStr := List CodePoint

def CodePoint.ofChar (c : Char) : CodePoint :=
  ⟨c.toNat, by
    have := c.valid
    simp only [UInt32.isValidChar, Nat.isValidChar] at this
    simp only [Char.toNat, UInt32.toNat] at *
    omega⟩

def CodePoint.surrogate (c : CodePoint) : Bool := 0xD800 ≤ c.val && c.val ≤ 0xDFFF

def py (text : String) : PyStr := text.toList.map CodePoint.ofChar

/-- `text.encode().decode()`. -/
theorem decode_encode (text : String) : String.fromUTF8? text.toUTF8 = some text := by
  have valid : text.toUTF8.IsValidUTF8 := text.isValidUTF8
  simp only [String.fromUTF8?, valid, ↓reduceDIte]
  rfl

/-- `text.encode("utf-8", "replace")`: what UTF-8 cannot carry becomes `?`. -/
def encodeReplace (text : PyStr) : ByteArray :=
  (String.ofList (text.map fun c => if c.surrogate then '?' else Char.ofNat c.val)).toUTF8

/-! `bytes.decode("utf-8", "replace")`: each maximal subpart that cannot be
    continued becomes one U+FFFD. -/

/-- Lead byte to its number of continuation bytes and the range of the first one. -/
def leadByte (b : UInt8) : Option (Nat × Nat × Nat) :=
  let n := b.toNat
  if 0xC2 ≤ n ∧ n ≤ 0xDF then some (1, 0x80, 0xBF)
  else if n = 0xE0 then some (2, 0xA0, 0xBF)
  else if n = 0xED then some (2, 0x80, 0x9F)
  else if 0xE1 ≤ n ∧ n ≤ 0xEF then some (2, 0x80, 0xBF)
  else if n = 0xF0 then some (3, 0x90, 0xBF)
  else if 0xF1 ≤ n ∧ n ≤ 0xF3 then some (3, 0x80, 0xBF)
  else if n = 0xF4 then some (3, 0x80, 0x8F)
  else none

/-- How many of the next bytes continue the sequence, at most `need`. -/
def continued (low high : Nat) : Nat → List UInt8 → Nat
  | 0, _ => 0
  | _, [] => 0
  | need + 1, b :: rest =>
      if low ≤ b.toNat ∧ b.toNat ≤ high then continued 0x80 0xBF need rest + 1 else 0

def decodeStep (b : UInt8) (rest : List UInt8) : Char × Nat :=
  if b.toNat < 0x80 then (Char.ofNat b.toNat, 0)
  else match leadByte b with
    | none => ('\uFFFD', 0)
    | some (need, low, high) =>
        let taken := continued low high need rest
        if taken < need then ('\uFFFD', taken)
        else
          let lead := b.toNat % 2 ^ (6 - need)
          (Char.ofNat ((rest.take need).foldl (fun acc c => acc * 64 + c.toNat % 64) lead), need)

def decodeBytes : Nat → List UInt8 → List Char
  | _, [] => []
  | 0, _ => []
  | fuel + 1, b :: rest =>
      let (c, taken) := decodeStep b rest
      c :: decodeBytes fuel (rest.drop taken)

def decodeReplace (bytes : ByteArray) : String :=
  match String.fromUTF8? bytes with
  | some text => text
  | none => String.ofList (decodeBytes bytes.size bytes.toList)

/-! `int(text, base)`. Text that is not all ASCII is first brought to ASCII
    digits and spaces; single underscores may stand between digits. -/

/-- The zeros of the Unicode decimal digit blocks. -/
def decimalZeros : List Nat :=
  [0x660, 0x6F0, 0x7C0, 0x966, 0x9E6, 0xA66, 0xAE6, 0xB66, 0xBE6, 0xC66, 0xCE6, 0xD66, 0xDE6,
   0xE50, 0xED0, 0xF20, 0x1040, 0x1090, 0x17E0, 0x1810, 0x1946, 0x19D0, 0x1A80, 0x1A90, 0x1B50,
   0x1BB0, 0x1C40, 0x1C50, 0xA620, 0xA8D0, 0xA900, 0xA9D0, 0xA9F0, 0xAA50, 0xABF0, 0xFF10,
   0x104A0, 0x10D30, 0x11066, 0x110F0, 0x11136, 0x111D0, 0x112F0, 0x11450, 0x114D0, 0x11650,
   0x116C0, 0x11730, 0x118E0, 0x11950, 0x11C50, 0x11D50, 0x11DA0, 0x11F50, 0x16A60, 0x16AC0,
   0x16B50, 0x1D7CE, 0x1D7D8, 0x1D7E2, 0x1D7EC, 0x1D7F6, 0x1E140, 0x1E2F0, 0x1E4F0, 0x1E950,
   0x1FBF0]

def unicodeSpaces : List Nat :=
  [0x1C, 0x1D, 0x1E, 0x1F, 0x85, 0xA0, 0x1680, 0x2000, 0x2001, 0x2002, 0x2003, 0x2004, 0x2005,
   0x2006, 0x2007, 0x2008, 0x2009, 0x200A, 0x2028, 0x2029, 0x202F, 0x205F, 0x3000]

def asciiSpace (c : Char) : Bool :=
  c.toNat == 0x20 || (0x09 ≤ c.toNat && c.toNat ≤ 0x0D)

def toAsciiDigit (c : Char) : Char :=
  if unicodeSpaces.contains c.toNat then ' '
  else if c.toNat < 0x80 then c
  else match decimalZeros.find? (fun low => low ≤ c.toNat && c.toNat < low + 10) with
    | some low => Char.ofNat (0x30 + (c.toNat - low))
    | none => '?'

def toAscii (text : List Char) : List Char :=
  if text.all (fun c => c.toNat < 0x80) then text else text.map toAsciiDigit

def digitOf (base : Nat) (c : Char) : Option Nat :=
  let n := c.toNat
  let value :=
    if 0x30 ≤ n ∧ n ≤ 0x39 then n - 0x30
    else if 0x61 ≤ n ∧ n ≤ 0x7A then n - 0x61 + 10
    else if 0x41 ≤ n ∧ n ≤ 0x5A then n - 0x41 + 10
    else 36
  if value < base then some value else none

def digitsOf (base : Nat) : List Char → Option (List Nat)
  | [] => none
  | c :: rest => do
      let d ← digitOf base c
      match rest with
      | [] => some [d]
      | '_' :: more => (digitsOf base more).map (d :: ·)
      | more => (digitsOf base more).map (d :: ·)

def strip (text : List Char) : List Char :=
  ((text.dropWhile asciiSpace).reverse.dropWhile asciiSpace).reverse

def unsigned (base : Nat) (text : List Char) : Option Nat := do
  let body := match base, text with
    | 16, '0' :: 'x' :: '_' :: rest => rest
    | 16, '0' :: 'X' :: '_' :: rest => rest
    | 16, '0' :: 'x' :: rest => rest
    | 16, '0' :: 'X' :: rest => rest
    | _, _ => text
  let digits ← digitsOf base body
  if base = 10 ∧ 4300 < digits.length then none
  else some (digits.foldl (fun acc d => acc * base + d) 0)

/-- `int(text, base)`; `none` is ValueError. -/
def pyInt (base : Nat) (text : String) : Option Int :=
  match strip (toAscii text.toList) with
  | '-' :: rest => (unsigned base rest).map fun n => -(n : Int)
  | '+' :: rest => (unsigned base rest).map Int.ofNat
  | body => (unsigned base body).map Int.ofNat

/-! JSON values as `json.loads` builds them. -/

inductive Json where
  | null
  | bool (value : Bool)
  | int (value : Int)
  | float (bits : BitVec 64)
  | str (text : PyStr)
  | arr (items : List Json)
  | obj (fields : List (PyStr × Json))

def Json.isDict : Json → Bool
  | .obj _ => true
  | _ => false

/-- `payload.get(name)` on a dict. -/
def Json.get (payload : Json) (name : String) : Json :=
  match payload with
  | .obj fields => ((fields.find? fun field => field.1 = py name).map Prod.snd).getD .null
  | _ => .null

/-! Floats that stand for times. -/

inductive PyFloat where
  | num (value : ℚ)
  | posInf
  | negInf
  | nan
  deriving DecidableEq

/-- `round(value, 3)` on an exact value: half to even. -/
def round3 (value : ℚ) : ℚ :=
  let scaled := value * 1000
  let low := ⌊scaled⌋
  let part := scaled - low
  let rounded := if part < 1 / 2 then low else if 1 / 2 < part then low + 1
    else if low % 2 = 0 then low else low + 1
  rounded / 1000

end OrderFlow
