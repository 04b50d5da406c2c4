/-!
Coroutines as finite command trees. A coroutine is suspended at an awaited
operation and resumes with a value or an exception. An exception may reach the
caller although the operation took effect, so the outcome of an operation and
the reply the program sees are kept apart. Nothing here names a store.
-/
namespace AsyncCoroutine

/-- What an awaited operation did: it answered, it raised without having taken
    effect, or it took effect and then raised. -/
inductive Outcome (Exn Value : Type) where
  | ok (value : Value)
  | lost (error : Exn)
  | late (error : Exn)

def Outcome.reply {Exn Value : Type} : Outcome Exn Value → Except Exn Value
  | .ok value => .ok value
  | .lost error => .error error
  | .late error => .error error

/-- The operation took effect with this answer, whether or not it was heard. -/
def Outcome.Took {Exn Value : Type} (outcome : Outcome Exn Value) (value : Value) : Prop :=
  outcome = .ok value ∨ ∃ error, outcome = .late error

inductive Coroutine (Op : Type) (Reply : Op → Type) (Exn Value : Type) where
  | ret (value : Value)
  | raise (error : Exn)
  | await (op : Op) (resume : Except Exn (Reply op) → Coroutine Op Reply Exn Value)

variable {Op : Type} {Reply : Op → Type} {Exn Value Next : Type}

namespace Coroutine

def bind : Coroutine Op Reply Exn Value → (Value → Coroutine Op Reply Exn Next) →
    Coroutine Op Reply Exn Next
  | .ret value, next => next value
  | .raise error, _ => .raise error
  | .await op resume, next => .await op (fun reply => (resume reply).bind next)

def tryCatch : Coroutine Op Reply Exn Value → (Exn → Coroutine Op Reply Exn Value) →
    Coroutine Op Reply Exn Value
  | .ret value, _ => .ret value
  | .raise error, handler => handler error
  | .await op resume, handler => .await op (fun reply => (resume reply).tryCatch handler)

instance : Monad (Coroutine Op Reply Exn) where
  pure := .ret
  bind := bind

instance : MonadExcept Exn (Coroutine Op Reply Exn) where
  throw := .raise
  tryCatch := tryCatch

/-- Await one operation and pass its reply on. -/
def perform (op : Op) : Coroutine Op Reply Exn (Reply op) :=
  .await op fun
    | .ok value => .ret value
    | .error error => .raise error

/-- Suspended coroutines are the ones still in flight. -/
def Suspended : Coroutine Op Reply Exn Value → Prop
  | .await _ _ => True
  | _ => False

@[simp] theorem pure_eq (value : Value) :
    (pure value : Coroutine Op Reply Exn Value) = .ret value := rfl

@[simp] theorem throw_eq (error : Exn) :
    (throw error : Coroutine Op Reply Exn Value) = .raise error := rfl

@[simp] theorem ret_bind (value : Value) (next : Value → Coroutine Op Reply Exn Next) :
    ((.ret value : Coroutine Op Reply Exn Value) >>= next) = next value := rfl

@[simp] theorem raise_bind (error : Exn) (next : Value → Coroutine Op Reply Exn Next) :
    ((.raise error : Coroutine Op Reply Exn Value) >>= next) = .raise error := rfl

@[simp] theorem await_bind (op : Op) (resume : Except Exn (Reply op) → Coroutine Op Reply Exn Value)
    (next : Value → Coroutine Op Reply Exn Next) :
    (.await op resume >>= next) = .await op (fun reply => resume reply >>= next) := rfl

@[simp] theorem ret_tryCatch (value : Value) (handler : Exn → Coroutine Op Reply Exn Value) :
    MonadExcept.tryCatch (.ret value) handler = .ret value := rfl

@[simp] theorem raise_tryCatch (error : Exn) (handler : Exn → Coroutine Op Reply Exn Value) :
    MonadExcept.tryCatch (.raise error) handler = handler error := rfl

@[simp] theorem await_tryCatch (op : Op)
    (resume : Except Exn (Reply op) → Coroutine Op Reply Exn Value)
    (handler : Exn → Coroutine Op Reply Exn Value) :
    MonadExcept.tryCatch (.await op resume) handler =
      .await op (fun reply => MonadExcept.tryCatch (resume reply) handler) := rfl

theorem bind_assoc {Last : Type} (program : Coroutine Op Reply Exn Value)
    (first : Value → Coroutine Op Reply Exn Next) (second : Next → Coroutine Op Reply Exn Last) :
    (program >>= first) >>= second = program >>= fun value => first value >>= second := by
  induction program with
  | ret value => rfl
  | raise error => rfl
  | await op resume ih =>
    simp only [await_bind]
    congr 1
    funext reply
    exact ih reply

/-- Every operation the coroutine can come to await is one of these. -/
def Uses (permits : Op → Prop) : Coroutine Op Reply Exn Value → Prop
  | .ret _ => True
  | .raise _ => True
  | .await op resume => permits op ∧ ∀ reply, Uses permits (resume reply)

variable {permits : Op → Prop}

theorem uses_perform {op : Op} (permitted : permits op) :
    (perform op : Coroutine Op Reply Exn (Reply op)).Uses permits := by
  refine ⟨permitted, fun reply => ?_⟩
  cases reply <;> trivial

theorem Uses.bind {program : Coroutine Op Reply Exn Value}
    {next : Value → Coroutine Op Reply Exn Next} (first : program.Uses permits)
    (rest : ∀ value, (next value).Uses permits) : (program >>= next).Uses permits := by
  induction program with
  | ret value => exact rest value
  | raise error => trivial
  | await op resume ih => exact ⟨first.1, fun reply => ih reply (first.2 reply)⟩

theorem Uses.tryCatch {program : Coroutine Op Reply Exn Value}
    {handler : Exn → Coroutine Op Reply Exn Value} (body : program.Uses permits)
    (handles : ∀ error, (handler error).Uses permits) :
    (MonadExcept.tryCatch program handler).Uses permits := by
  induction program with
  | ret value => trivial
  | raise error => exact handles error
  | await op resume ih => exact ⟨body.1, fun reply => ih reply (body.2 reply)⟩

theorem uses_all (program : Coroutine Op Reply Exn Value) : program.Uses fun _ => True := by
  induction program with
  | ret value => trivial
  | raise error => trivial
  | await op resume ih => exact ⟨trivial, fun reply => ih reply⟩

theorem Uses.mono {program : Coroutine Op Reply Exn Value} {wider : Op → Prop}
    (uses : program.Uses permits) (implies : ∀ op, permits op → wider op) : program.Uses wider := by
  induction program with
  | ret value => trivial
  | raise error => trivial
  | await op resume ih => exact ⟨implies op uses.1, fun reply => ih reply (uses.2 reply)⟩

end Coroutine

/-- A protocol: what a coroutine may await next, and what its own record of the
    call becomes. The record is a function of the operations alone. -/
structure Protocol (Op : Type) (Reply : Op → Type) (Exn Record : Type) where
  allowed : Record → Op → Prop
  next : Record → (op : Op) → Outcome Exn (Reply op) → Record

namespace Protocol
open Coroutine
variable {Record : Type} (protocol : Protocol Op Reply Exn Record)

/-- The coroutine keeps to the protocol from a given record, whatever the
    outcomes of its operations, and leaves with a record the goal accepts. -/
def Follows : Coroutine Op Reply Exn Value → (Except Exn Value → Record → Prop) → Record → Prop
  | .ret value, goal, record => goal (.ok value) record
  | .raise error, goal, record => goal (.error error) record
  | .await op resume, goal, record =>
      protocol.allowed record op ∧
        ∀ outcome, Follows (resume outcome.reply) goal (protocol.next record op outcome)

variable {protocol}

theorem Follows.mono {program : Coroutine Op Reply Exn Value}
    {goal weaker : Except Exn Value → Record → Prop} {record : Record}
    (follows : protocol.Follows program goal record)
    (implies : ∀ result left, goal result left → weaker result left) :
    protocol.Follows program weaker record := by
  induction program generalizing record with
  | ret value => exact implies _ _ follows
  | raise error => exact implies _ _ follows
  | await op resume ih => exact ⟨follows.1, fun outcome => ih _ (follows.2 outcome)⟩

theorem Follows.bind {program : Coroutine Op Reply Exn Value}
    {next : Value → Coroutine Op Reply Exn Next} {record : Record}
    {Q : Except Exn Value → Record → Prop} {goal : Except Exn Next → Record → Prop}
    (first : protocol.Follows program Q record)
    (rest : ∀ value left, Q (.ok value) left → protocol.Follows (next value) goal left)
    (fails : ∀ error left, Q (.error error) left → goal (.error error) left) :
    protocol.Follows (program >>= next) goal record := by
  induction program generalizing record with
  | ret value => exact rest value record first
  | raise error => exact fails error record first
  | await op resume ih => exact ⟨first.1, fun outcome => ih _ (first.2 outcome)⟩

theorem Follows.tryCatch {program : Coroutine Op Reply Exn Value}
    {handler : Exn → Coroutine Op Reply Exn Value} {record : Record}
    {Q goal : Except Exn Value → Record → Prop}
    (body : protocol.Follows program Q record)
    (returns : ∀ value left, Q (.ok value) left → goal (.ok value) left)
    (handles : ∀ error left, Q (.error error) left →
      protocol.Follows (handler error) goal left) :
    protocol.Follows (MonadExcept.tryCatch program handler) goal record := by
  induction program generalizing record with
  | ret value => exact returns value record body
  | raise error => exact handles error record body
  | await op resume ih => exact ⟨body.1, fun outcome => ih _ (body.2 outcome)⟩

/-- An operation that is allowed and leaves the record as it is. -/
def Quiet (protocol : Protocol Op Reply Exn Record) (record : Record) (op : Op) : Prop :=
  protocol.allowed record op ∧ ∀ outcome, protocol.next record op outcome = record

/-- A coroutine of quiet operations keeps to the protocol and its record. -/
theorem Follows.of_uses {program : Coroutine Op Reply Exn Value} {record : Record}
    {permits : Op → Prop} (uses : program.Uses permits)
    (quiet : ∀ op, permits op → protocol.Quiet record op) :
    protocol.Follows program (fun _ left => left = record) record := by
  induction program with
  | ret value => rfl
  | raise error => rfl
  | await op resume ih =>
    obtain ⟨permitted, same⟩ := quiet op uses.1
    refine ⟨permitted, fun outcome => ?_⟩
    rw [same outcome]
    exact ih _ (uses.2 _)

theorem follows_perform {op : Op} {goal : Except Exn (Reply op) → Record → Prop} {record : Record} :
    protocol.Follows (perform op) goal record ↔
      protocol.allowed record op ∧ ∀ outcome, goal outcome.reply (protocol.next record op outcome) := by
  constructor
  · intro ⟨permitted, rest⟩
    refine ⟨permitted, fun outcome => ?_⟩
    have result := rest outcome
    cases outcome <;> exact result
  · intro ⟨permitted, rest⟩
    refine ⟨permitted, fun outcome => ?_⟩
    have result := rest outcome
    cases outcome <;> exact result

/-- One awaited operation followed by the rest of the program. -/
theorem Follows.perform_bind {op : Op} {next : Reply op → Coroutine Op Reply Exn Value}
    {goal : Except Exn Value → Record → Prop} {record : Record}
    (permitted : protocol.allowed record op)
    (answered : ∀ value, protocol.Follows (next value) goal (protocol.next record op (.ok value)))
    (lost : ∀ error, goal (.error error) (protocol.next record op (.lost error)))
    (late : ∀ error, goal (.error error) (protocol.next record op (.late error))) :
    protocol.Follows (perform op >>= next) goal record := by
  refine ⟨permitted, fun outcome => ?_⟩
  cases outcome with
  | ok value => exact answered value
  | lost error => exact lost error
  | late error => exact late error

/-! ### Invariants of the record -/

/-- The operation is allowed wherever the invariant holds, and keeps it. -/
def Keeps (protocol : Protocol Op Reply Exn Record) (I : Record → Prop) (op : Op) : Prop :=
  ∀ record, I record →
    protocol.allowed record op ∧ ∀ outcome, I (protocol.next record op outcome)

/-- From a record with the invariant on the coroutine keeps to the protocol, and however
    it ends leaves a record with the invariant. -/
def Maintains (protocol : Protocol Op Reply Exn Record) (I : Record → Prop)
    (program : Coroutine Op Reply Exn Value) : Prop :=
  ∀ record, I record → protocol.Follows program (fun _ left => I left) record

variable {I : Record → Prop}

theorem maintains_ret (value : Value) :
    protocol.Maintains I (.ret value : Coroutine Op Reply Exn Value) :=
  fun _ holds => holds

theorem maintains_raise (error : Exn) :
    protocol.Maintains I (.raise error : Coroutine Op Reply Exn Value) :=
  fun _ holds => holds

theorem Keeps.maintains {op : Op} (keeps : protocol.Keeps I op) :
    protocol.Maintains I (perform op) := by
  intro record holds
  obtain ⟨permitted, kept⟩ := keeps record holds
  exact follows_perform.mpr ⟨permitted, kept⟩

theorem Maintains.bind {program : Coroutine Op Reply Exn Value}
    {next : Value → Coroutine Op Reply Exn Next} (first : protocol.Maintains I program)
    (rest : ∀ value, protocol.Maintains I (next value)) : protocol.Maintains I (program >>= next) :=
  fun record holds => (first record holds).bind (fun value left kept => rest value left kept)
    fun _ _ kept => kept

theorem Maintains.tryCatch {program : Coroutine Op Reply Exn Value}
    {handler : Exn → Coroutine Op Reply Exn Value} (body : protocol.Maintains I program)
    (handles : ∀ error, protocol.Maintains I (handler error)) :
    protocol.Maintains I (MonadExcept.tryCatch program handler) :=
  fun record holds => Follows.tryCatch (body record holds) (fun _ _ kept => kept)
    fun error left kept => handles error left kept

theorem maintains_of_uses {program : Coroutine Op Reply Exn Value} {permits : Op → Prop}
    (uses : program.Uses permits) (keeps : ∀ op, permits op → protocol.Keeps I op) :
    protocol.Maintains I program := by
  induction program with
  | ret value => exact maintains_ret value
  | raise error => exact maintains_raise error
  | await op resume ih =>
    intro record holds
    obtain ⟨permitted, kept⟩ := keeps op uses.1 record holds
    exact ⟨permitted, fun outcome => ih _ (uses.2 _) _ (kept outcome)⟩

/-! ### What a coroutine returns -/

/-- The coroutine keeps to the protocol, and what it returns and leaves meets the
    postcondition; if it raises nothing is claimed. -/
def Returns (protocol : Protocol Op Reply Exn Record) (program : Coroutine Op Reply Exn Value)
    (Q : Value → Record → Prop) (record : Record) : Prop :=
  protocol.Follows program (fun result left => ∀ value, result = .ok value → Q value left) record

section
variable {Q R : Value → Record → Prop} {S : Next → Record → Prop} {record : Record}

theorem returns_ret {value : Value} (holds : Q value record) :
    protocol.Returns (.ret value) Q record := by
  rintro _ ⟨⟩
  exact holds

theorem returns_raise (error : Exn) : protocol.Returns (.raise error) Q record := by
  rintro _ ⟨⟩

theorem Returns.bind {program : Coroutine Op Reply Exn Value}
    {rest : Value → Coroutine Op Reply Exn Next} (first : protocol.Returns program Q record)
    (second : ∀ value left, Q value left → protocol.Returns (rest value) S left) :
    protocol.Returns (program >>= rest) S record :=
  Follows.bind first (fun value left holds => second value left (holds value rfl))
    (by rintro _ _ _ _ ⟨⟩)

theorem Returns.weaken {program : Coroutine Op Reply Exn Value}
    (returns : protocol.Returns program Q record)
    (implies : ∀ value left, Q value left → R value left) : protocol.Returns program R record :=
  returns.mono fun _ _ holds value same => implies value _ (holds value same)

theorem Returns.tryCatch {program : Coroutine Op Reply Exn Value}
    {handler : Exn → Coroutine Op Reply Exn Value} (body : protocol.Returns program Q record)
    (handles : ∀ error left, protocol.Returns (handler error) Q left) :
    protocol.Returns (MonadExcept.tryCatch program handler) Q record :=
  Follows.tryCatch body (fun _ _ holds => holds) fun error left _ => handles error left

/-- An operation returns what it answers. -/
theorem returns_perform {op : Op} {Q : Reply op → Record → Prop} (permitted : protocol.allowed record op)
    (answers : ∀ value, Q value (protocol.next record op (.ok value))) :
    protocol.Returns (perform op) Q record := by
  refine follows_perform.mpr ⟨permitted, fun outcome value same => ?_⟩
  cases outcome with
  | ok answer =>
    cases same
    exact answers _
  | _ => cases same

theorem Maintains.returns {I : Record → Prop} {program : Coroutine Op Reply Exn Value}
    (maintains : protocol.Maintains I program) (holds : I record) :
    protocol.Returns program (fun _ left => I left) record :=
  (maintains record holds).mono fun _ _ kept _ _ => kept

end

end Protocol
end AsyncCoroutine
