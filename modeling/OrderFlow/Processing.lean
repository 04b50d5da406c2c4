import OrderFlow.World

/-!
The order-processing work and the backoff policy (processing.py).
-/
namespace OrderFlow.Processing

def unknownSkuPrefix : String := "BAD-"
def maxOrderValueCents : Int := 100000000

def hexText (width n : Nat) : List Char := hexDigits width n

/-- One character of `repr(text)` between quotes `quote`. -/
def reprChar (isPrintable : Char → Bool) (quote c : Char) : List Char :=
  if c = quote ∨ c = '\\' then ['\\', c]
  else if c = '\t' then ['\\', 't']
  else if c = '\n' then ['\\', 'n']
  else if c = '\r' then ['\\', 'r']
  else if c.toNat < 0x20 ∨ c.toNat = 0x7F then '\\' :: 'x' :: hexText 2 c.toNat
  else if c.toNat < 0x7F ∨ isPrintable c then [c]
  else if c.toNat ≤ 0xFF then '\\' :: 'x' :: hexText 2 c.toNat
  else if c.toNat ≤ 0xFFFF then '\\' :: 'u' :: hexText 4 c.toNat
  else '\\' :: 'U' :: hexText 8 c.toNat

/-- `repr(text)`. -/
def reprStr (isPrintable : Char → Bool) (text : String) : String :=
  let quote := if text.toList.contains '\'' && !text.toList.contains '"' then '"' else '\''
  String.ofList (quote :: text.toList.flatMap (reprChar isPrintable quote) ++ [quote])

/-- `sku.upper().startswith("BAD-")`. No character outside ASCII has an upper case
    that begins with a prefix of `BAD-` and goes on with it. -/
def hasUnknownSku (sku : String) : Bool :=
  unknownSkuPrefix.toList.isPrefixOf (sku.toList.map Char.toUpper)

def validate (isPrintable : Char → Bool) (event : OrderEvent) : Except Exn Unit :=
  if event.quantity ≤ 0 then
    .error (.permanent (py s!"quantity must be positive, got {event.quantity}"))
  else if event.amountCents < 0 then
    .error (.permanent (py s!"amount cannot be negative, got {event.amountCents}"))
  else if event.amountCents > maxOrderValueCents then
    .error (.permanent (py "order exceeds the maximum permitted value"))
  else if hasUnknownSku event.sku then
    .error (.permanent (py s!"unknown SKU {reprStr isPrintable event.sku}"))
  else if event.failMode = some .permanent then
    .error (.permanent (py "simulated permanent failure (fail_mode=permanent)"))
  else .ok ()

/-- The result of `fulfil`; its only await is a sleep. -/
def fulfil (isPrintable : Char → Bool) (event : OrderEvent) : Except Exn Unit :=
  match validate isPrintable event with
  | .error error => .error error
  | .ok () =>
      if event.failMode = some .transient then
        .error (.transient (py "simulated downstream timeout (fail_mode=transient)"))
      else .ok ()

/-- `base * 2 ** max(0, attempt - 1)`: the integer is first made a float. -/
def scaledDelay (settings : Settings) (attempt : Nat) : Except Exn ℚ :=
  if 1024 ≤ attempt - 1 then .error .overflow
  else .ok (settings.retryBaseDelaySeconds * 2 ^ (attempt - 1))

theorem scaledDelay_fits (settings : Settings) {attempt : Nat} (fits : attempt ≤ 1024) (positive : 1 ≤ attempt) :
    scaledDelay settings attempt =
      .ok (settings.retryBaseDelaySeconds * 2 ^ (attempt - 1)) := by
  unfold scaledDelay
  rw [if_neg (by omega)]

theorem scaledDelay_overflows (settings : Settings) {attempt : Nat} (large : 1024 < attempt) :
    scaledDelay settings attempt = .error .overflow := by
  unfold scaledDelay
  rw [if_pos (by omega)]

def backoffDelay (settings : Settings) (attempt : Nat) : Prog ℚ := do
  match scaledDelay settings attempt with
  | .error error => throw error
  | .ok scaled =>
      let ceiling := min settings.retryMaxDelaySeconds scaled
      return round3 (← await (.uniform (settings.retryBaseDelaySeconds / 2) ceiling))

end OrderFlow.Processing
