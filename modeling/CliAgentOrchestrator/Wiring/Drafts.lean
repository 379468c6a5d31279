import CliAgentOrchestrator.Queue.Operation
import CliAgentOrchestrator.Queue.Reads

/-!
# The drafts the wiring hands the queue

`app/delivery/wiring.py` and `app/delivery/tick.py` are the three producers of queue rows:
new traffic written through, an inbox row adopted, and the notice of a death. They differ in
the idempotency key and in `legacy_message_id`.
-/

set_option autoImplicit false

namespace CliAgentOrchestrator.Wiring

open CliAgentOrchestrator.Core Queue

/-- One inbox row, as the hooks hand it to the queue.
SOURCE: app/delivery/facts.py:26-60 -/
structure LegacyEnqueue where
  legacyMessageId : Int := 0
  receiverId : String
  senderId : String
  message : String
  isCallback : Bool := false
  expireAfterS : Option Int := none
  supersedeKey : Option String := none
  contentHash : Option String := none
  parkWarm : Bool := false
  barrierId : Option Int := none
  barrierMemberKey : Option String := none
  enqueueGeneration : Option Int := none

/-- The draft of a fact under a key and a surrogate; none where its validators reject it. -/
def factDraft (key : String) (fact : LegacyEnqueue) (legacyMessageId : Int) :
    Option EnqueueDraft :=
  if h : key ≠ "" ∧ fact.receiverId ≠ "" then
    some
      { idempotencyKey := key
        receiverId := fact.receiverId
        senderId := fact.senderId
        kind := if fact.isCallback then .callback else .note
        payload := fact.message
        expireAfterS := fact.expireAfterS
        supersedeKey := fact.supersedeKey
        contentHash := fact.contentHash
        parkWarm := fact.parkWarm
        barrierId := fact.barrierId
        barrierMemberKey := fact.barrierMemberKey
        enqueueGeneration := fact.enqueueGeneration
        legacyMessageId := some legacyMessageId
        idempotencyKey_ne := h.1
        receiverId_ne := h.2 }
  else none

/-- SOURCE: app/delivery/wiring.py:190-191 -/
def liveKey (surrogate : Int) : String := "live-inbox:" ++ toString surrogate

/-- SOURCE: app/delivery/wiring.py:247 -/
def adoptedKey (legacyMessageId : Int) : String := "adopted-inbox:" ++ toString legacyMessageId

/-- SOURCE: app/delivery/tick.py:466 -/
def noticeKey (msgId : String) : String := "delivery-notice:" ++ msgId

/-- The values of the enumeration, as they are written into a notice.
SOURCE: core/delivery.py:139-157 -/
def reasonValue : DeadReason → String
  | .maxAttempts => "max_attempts"
  | .vetoCeiling => "veto_ceiling"
  | .maxLifetime => "max_lifetime"
  | .expired => "expired"

/-- SOURCE: app/delivery/tick.py:470-474 -/
def noticePayload (row : DeadRow) : String :=
  "[cao] undelivered: message " ++ row.msgId ++ " to " ++ row.receiverId ++ " ended " ++
    reasonValue row.reason ++ " after " ++ toString row.attempts ++ " attempts. Detail: cao diag " ++
    row.msgId

theorem append_ne_empty {a b : String} (ha : a ≠ "") : a ++ b ≠ "" := by
  intro h
  have hlen := congrArg String.length h
  rw [String.length_append] at hlen
  have hzero : a.length = 0 := by
    have : ("" : String).length = 0 := rfl
    omega
  exact ha (String.length_eq_zero_iff.mp hzero)

theorem liveKey_ne_empty (surrogate : Int) : liveKey surrogate ≠ "" :=
  append_ne_empty (by decide)

theorem noticeKey_ne_empty (msgId : String) : noticeKey msgId ≠ "" :=
  append_ne_empty (by decide)

theorem isServiceSender_empty : isServiceSender "" = true := by decide

/-- The notice of a death, for the sender of the message that died; a notice's own death and
a service's message get none. It carries no surrogate.
SOURCE: app/delivery/tick.py:445-477 -/
def noticeDraft (row : DeadRow) : Option EnqueueDraft :=
  if h : row.isNotice = true ∨ isServiceSender row.senderId = true then none
  else
    some
      { idempotencyKey := noticeKey row.msgId
        receiverId := row.senderId
        senderId := ""
        kind := .note
        payload := noticePayload row
        isNotice := true
        idempotencyKey_ne := noticeKey_ne_empty row.msgId
        receiverId_ne := by
          intro he
          exact h (.inr (by rw [he]; exact isServiceSender_empty)) }

/-- A notice is marked as one, without surrogate, supersede key or barrier. -/
theorem noticeDraft_eq_some {row : DeadRow} {draft : EnqueueDraft}
    (h : noticeDraft row = some draft) :
    draft.isNotice = true ∧ draft.legacyMessageId = none ∧ draft.supersedeKey = none ∧
      draft.barrierId = none := by
  unfold noticeDraft at h
  split at h
  · cases h
  · cases h
    exact ⟨rfl, rfl, rfl, rfl⟩

/-- What a draft takes over from its fact. -/
theorem factDraft_eq_some {key : String} {fact : LegacyEnqueue} {legacyMessageId : Int}
    {draft : EnqueueDraft} (h : factDraft key fact legacyMessageId = some draft) :
    draft.idempotencyKey = key ∧ draft.receiverId = fact.receiverId ∧
      draft.senderId = fact.senderId ∧ draft.payload = fact.message ∧
      draft.legacyMessageId = some legacyMessageId ∧ draft.isNotice = false ∧
      draft.supersedeKey = fact.supersedeKey ∧ draft.barrierId = fact.barrierId := by
  unfold factDraft at h
  split at h
  · cases h
    exact ⟨rfl, rfl, rfl, rfl, rfl, rfl, rfl, rfl⟩
  · cases h

end CliAgentOrchestrator.Wiring
