import OrderFlow.Models

/-!
Retry metadata in record headers (kafka/headers.py). A received header value may
be null; of two headers with one name the later wins, as in the dictionary.
-/
namespace OrderFlow.Headers

def attemptName : String := "x-attempt"
def notBeforeName : String := "x-not-before"
def errorName : String := "x-error"
def originTopicName : String := "x-origin-topic"
def failedAtName : String := "x-failed-at"

end Headers

abbrev Headers := List (String × Option ByteArray)

namespace Headers
variable (platform : Platform)

/-- `failedAt` is the clock read when an origin topic is given. -/
def build (attempt : Nat) (notBefore : Option PyFloat) (error : Option PyStr)
    (originTopic : Option String) (failedAt : String) : Headers :=
  [(attemptName, some (toString attempt).toUTF8)] ++
  (match notBefore with
    | some t => [(notBeforeName, some (platform.reprFloat t).toUTF8)]
    | none => []) ++
  (match error with
    | some text => [(errorName, some (encodeReplace (text.take 500)))]
    | none => []) ++
  (match originTopic with
    | some topic => [(originTopicName, some topic.toUTF8),
        (failedAtName, some failedAt.toUTF8)]
    | none => [])

def toDict (headers : Headers) : List (String × String) :=
  headers.map fun (name, value) =>
    (name, match value with | some bytes => decodeReplace bytes | none => "")

def get (headers : Headers) (name : String) : Option String :=
  ((toDict headers).reverse.find? fun entry => entry.1 == name).map Prod.snd

def getAttempt (headers : Headers) : Nat :=
  match headers.get attemptName with
  | none => 1
  | some raw =>
      if raw = "" then 1
      else match pyInt 10 raw with
        | some n => (max 1 n).toNat
        | none => 1

def getNotBefore (headers : Headers) : PyFloat :=
  match headers.get notBeforeName with
  | none => .num 0
  | some raw => if raw = "" then .num 0 else (platform.floatOf raw).getD (.num 0)

def getError (headers : Headers) : Option String := headers.get errorName

def getOriginTopic (headers : Headers) : Option String := headers.get originTopicName

theorem one_le_getAttempt (headers : Headers) : 1 ≤ headers.getAttempt := by
  unfold getAttempt
  split
  · exact Nat.le_refl 1
  · split
    · exact Nat.le_refl 1
    · split
      · rename_i n _
        have := Int.le_max_left 1 n
        omega
      · exact Nat.le_refl 1

end Headers
end OrderFlow
