import OrderFlow.Calls
import OrderFlow.Kafka.Loop

/-!
One delivery of a record, alone and with every store reachable: which calls of the
order consumer's `handle` return COMMIT and which raise.
-/
namespace OrderFlow
open AsyncCoroutine AsyncPool

variable {deployment : Deployment} {world : World} {record : ConsumerRecord} {event : OrderEvent}
  {attempt : Nat} {claim : Claim} {row : OrderRow}

theorem toDlq_appends (deployment : Deployment) (record : ConsumerRecord) (attempt : Nat)
    (error : PyStr) (start : World) :
    Returns (perform deployment 0) Responsive
      (OrderConsumer.toDlq deployment record attempt error) start fun _ after =>
        ∃ failedAt, after = start.append ⟨deployment.settings.topicDlq, 0⟩
          (wireRecord deployment.platform record.key (OrderConsumer.wrapRaw record.value)
            (Headers.build deployment.platform attempt none (some error) (some record.topic)
              failedAt)) := by
  have single : deployment.settings.partitions deployment.settings.topicDlq = 1 := by
    simp [Settings.partitions]
  unfold OrderConsumer.toDlq publishRaw
  apply buildHeaders_stamps.bind
  intro headers middle built
  obtain ⟨rfl, failedAt, rfl⟩ := built
  apply (send_appends (by omega)).mono
  intro _ after sent
  obtain ⟨partition, home, appended⟩ := sent
  obtain rfl : partition = 0 := by omega
  exact ⟨failedAt, appended⟩

/-- The order's row stands, with this attempt number in it. -/
def Standing (world : World) (id : Uuid) (attempt : Nat) : Prop :=
  ∃ row, world.orders id = some row ∧ row.id = id ∧ row.attempts = attempt

theorem Standing.kept {last : World} {id : Uuid} (stands : Standing world id attempt)
    (orders : last.orders = world.orders) : Standing last id attempt := by
  unfold Standing
  rw [orders]
  exact stands

/-- What a session that moves this row on has written when it commits. -/
def Moved (row : OrderRow) (attempt : Nat) (writes : List Write) (last : World) : Prop :=
  last.orders row.id = some row ∧ ∃ status reason note hop, writes =
    Repository.transitionWrites row (Repository.transitionRow row status attempt reason) note hop

theorem uuid4_fresh (fresh : ∃ uuid, uuid ∉ world.issued) :
    Returns (perform deployment 0) Responsive (await .uuid4) world
      fun _ last => ∃ issued, last = { world with issued } := by
  obtain ⟨uuid, unused⟩ := fresh
  apply settles
  · refine ⟨{ uuid }, uuid, { world with issued := uuid :: world.issued }, ?_⟩
    simp only [answer]
    rw [if_neg unused]
  · intro oracle reply last answered
    simp only [answer] at answered
    split at answered
    · cases answered
    · cases answered
      exact ⟨_, rfl, _, rfl⟩

/-- A claim of a finished event is told so, and leaves everything as it is. -/
theorem claim_skips {eventId : String} (fresh : ∃ uuid, uuid ∉ world.issued)
    (finished : world.redis (.eventGuard eventId) = some done) :
    Returns (perform deployment 0) Responsive
      (IdempotencyGuard.claim deployment.settings eventId) world fun claim last =>
        claim.status = .alreadyDone ∧ ∃ issued, last = { world with issued } := by
  unfold IdempotencyGuard.claim
  apply (uuid4_fresh fresh).bind
  intro uuid first issued
  obtain ⟨issued, rfl⟩ := issued
  have refused : ∀ oracle, answer deployment 0 (.setNx (.eventGuard eventId) uuid.hex
      deployment.settings.idempotencyLockTtlSeconds) { world with issued } oracle =
        some (.ok false, { world with issued }) := by
    intro oracle
    simp only [answer, finished, Option.isNone_some, Bool.false_eq_true, ↓reduceIte]
  apply (responds refused).bind
  intro wins last answered
  obtain ⟨rfl, rfl⟩ := answered
  simp only [Bool.false_eq_true, ↓reduceIte]
  refine Returns.bind (responds fun oracle => rfl) ?_
  intro current final read
  obtain ⟨rfl, rfl⟩ := read
  simp only [finished, Option.isSome_some, ↓reduceIte, IdempotencyGuard.verdict]
  exact Returns.ret ⟨rfl, issued, rfl⟩

/-- The delivery of a finished event counts itself and is committed. -/
theorem handle_skips (fresh : ∃ uuid, uuid ∉ world.issued)
    (finished : world.redis (.eventGuard event.eventId) = some done)
    (valid : deployment.platform.modelValidate record.value = .ok event) :
    Returns (perform deployment 0) Responsive (OrderConsumer.handle deployment record) world
      fun ack last => ack = .commit ∧ ∃ stats issued, last = { world with stats, issued } := by
  unfold OrderConsumer.handle
  rw [valid]
  apply (incrStat_counts "consumed").bind
  intro _ first counted
  obtain ⟨stats, rfl⟩ := counted
  refine Returns.bind (claim_skips ?_ ?_) ?_
  · exact fresh
  · exact finished
  intro claim second skipped
  obtain ⟨status, issued, rfl⟩ := skipped
  simp only [status]
  apply (incrStat_counts "duplicates_skipped").bind
  intro _ last counted
  obtain ⟨more, rfl⟩ := counted
  exact Returns.ret ⟨rfl, more, issued, rfl⟩

end OrderFlow
