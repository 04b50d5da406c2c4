import OrderFlow.World

/-!
The consumers' idempotency guard (idempotency.py): one key per event id, absent,
held by a token, or the tombstone `done`.
-/
namespace OrderFlow

inductive ClaimStatus where
  | acquired | alreadyDone | inProgress
  deriving DecidableEq

structure Claim where
  status : ClaimStatus
  key : Key
  token : String
  deriving DecidableEq

namespace IdempotencyGuard
variable (settings : Settings)

def verdict (key : Key) (token : String) (current : Option String) : Claim :=
  if current = some done then ⟨.alreadyDone, key, token⟩ else ⟨.inProgress, key, token⟩

def claim (eventId : String) : Prog Claim := do
  let key := Key.eventGuard eventId
  let token := (← await .uuid4).hex
  if ← await (.setNx key token settings.idempotencyLockTtlSeconds) then
    return ⟨.acquired, key, token⟩
  let current ← await (.get key)
  if current.isSome then
    return verdict key token current
  -- the key expired between SET and GET
  if ← await (.setNx key token settings.idempotencyLockTtlSeconds) then
    return ⟨.acquired, key, token⟩
  return verdict key token (← await (.get key))

def complete (claim : Claim) : Prog Bool :=
  await (.evalComplete claim.key claim.token settings.idempotencyDoneTtlSeconds)

def release (claim : Claim) : Prog Bool :=
  await (.evalRelease claim.key claim.token)

end IdempotencyGuard
end OrderFlow
