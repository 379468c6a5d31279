import Mathlib.Algebra.Order.Ring.Int

/-!
# The queue's pure domain

`core/delivery.py`: the vocabularies (`MsgState`, `DeadReason`, `AttemptOutcome`), the
once-only deadline `computeDeadBy`, the accounting rule `spendsAttempt`, and the rows of the
four delivery tables as values.

A timestamp is an `Int`, an exact count of microseconds since the epoch. The store keeps timestamps
as fixed-width UTC strings, so the string comparisons of its statements are comparisons of these
counts. A draft carries the validators of its pydantic model as fields, so an invalid one cannot be
built.
-/

set_option autoImplicit false

namespace CliAgentOrchestrator.Core

/-- A duration given in seconds.
SOURCE: core/timing.py -/
def seconds (n : Int) : Int := n * 1000000

/-! ## Tunables (core/timing.py:209-255) -/

def deliveryLeaseS : Int := 60
def deliveryMaxAttempts : Int := 5
def deliveryBackoffS : Int := 5
def deliveryVetoCeilingS : Int := 1500
def deliveryDedupWindowS : Int := 60
def deliveryMaxLifetimeS : Int := 1700
def deliveryRetentionDays : Int := 30

theorem one_le_deliveryMaxAttempts : 1 ≤ deliveryMaxAttempts := by decide

/-! ## Vocabularies -/

/-- The row's mode column; one value is left.
SOURCE: core/delivery.py:98-110 -/
inductive QueueMode
  | live
deriving DecidableEq

/-- The state column of `delivery_msg`.
SOURCE: core/delivery.py:112-129 -/
inductive MsgState
  | ready
  | leased
  | delivered
  | superseded
  | dead
deriving DecidableEq

/-- The states a message ends in.
SOURCE: core/delivery.py:136 -/
def terminalStates : List MsgState := [.delivered, .superseded, .dead]

/-- Why a row reached `delivery_dead`.
SOURCE: core/delivery.py:139-157 -/
inductive DeadReason
  | maxAttempts
  | vetoCeiling
  | maxLifetime
  | expired
deriving DecidableEq

/-- What one delivery attempt did.
SOURCE: core/delivery.py:160-253 -/
inductive AttemptOutcome
  | delivered
  | vetoDialog
  | vetoUnverified
  | paneAbsent
  | legacyOther
  | emittedUnverified
  | wakeUnreachable
  | wakeUnresolvable
  | pasteAttempted
  | submissionUncertain
deriving DecidableEq

/-- The outcomes that spend an attempt.
SOURCE: core/delivery.py:323-330 -/
def attemptBudgetOutcomes : List AttemptOutcome :=
  [.vetoUnverified, .paneAbsent, .wakeUnresolvable, .pasteAttempted]

/-- Does an expired lease that ended this way cost the row an attempt? A lease with nothing
recorded does.
SOURCE: core/delivery.py:333-342 -/
def spendsAttempt : Option AttemptOutcome → Bool
  | none => true
  | some outcome => decide (outcome ∈ attemptBudgetOutcomes)

/-- What sort of message a row carries.
SOURCE: core/delivery.py:838-852 -/
inductive MsgKind
  | assign
  | callback
  | handoff
  | note
deriving DecidableEq

/-! ## The deadline -/

/-- The deadline stamped once at enqueue: the lifetime from the later of creation and
availability, or the caller's own expiry when that comes first.
SOURCE: core/delivery.py:766-818 -/
def computeDeadBy (createdAt availableAt : Int) (expireAfterS : Option Int) : Int :=
  let origin := max createdAt availableAt
  let deadline := origin + seconds deliveryMaxLifetimeS
  match expireAfterS with
  | some s => if s > 0 then min deadline (createdAt + seconds s) else deadline
  | none => deadline

/-! ## The rows -/

/-- What a caller hands the queue; the store mints the id and the times.
SOURCE: core/delivery.py:855-893 -/
structure EnqueueDraft where
  idempotencyKey : String
  receiverId : String
  senderId : String := ""
  kind : MsgKind := .note
  payload : String := ""
  mode : QueueMode := .live
  maxAttempts : Int := deliveryMaxAttempts
  expireAfterS : Option Int := none
  supersedeKey : Option String := none
  contentHash : Option String := none
  parkWarm : Bool := false
  barrierId : Option Int := none
  barrierMemberKey : Option String := none
  enqueueGeneration : Option Int := none
  cancelOnComplete : Bool := false
  isNotice : Bool := false
  legacyMessageId : Option Int := none
  idempotencyKey_ne : idempotencyKey ≠ "" := by decide
  receiverId_ne : receiverId ≠ "" := by decide
  one_le_maxAttempts : 1 ≤ maxAttempts := by
    first | exact one_le_deliveryMaxAttempts | decide

/-- One stored `delivery_msg` row.
SOURCE: core/delivery.py:896-948 -/
structure QueueMessage where
  msgId : String
  idempotencyKey : String
  payloadDigest : String
  receiverId : String
  senderId : String
  kind : MsgKind
  payload : String
  state : MsgState
  mode : QueueMode
  claimId : Int
  leaseOwner : Option String
  leaseExpiresAt : Option Int
  attempts : Int
  maxAttempts : Int
  availableAt : Int
  deadBy : Int
  heldSince : Option Int
  expireAfterS : Option Int
  supersedeKey : Option String
  contentHash : Option String
  parkWarm : Bool
  barrierId : Option Int
  barrierMemberKey : Option String
  enqueueGeneration : Option Int
  cancelOnComplete : Bool
  isNotice : Bool
  legacyMessageId : Option Int
  createdAt : Int
  terminatedAt : Option Int
deriving DecidableEq

/-- Has the row ended?
SOURCE: core/delivery.py:946-948 -/
def QueueMessage.terminal (message : QueueMessage) : Bool :=
  decide (message.state ∈ terminalStates)

/-- A row is terminal exactly when it is neither ready nor leased. -/
theorem QueueMessage.terminal_eq_false_iff (message : QueueMessage) :
    message.terminal = false ↔ message.state = .ready ∨ message.state = .leased := by
  unfold terminal terminalStates
  cases message.state <;> simp

theorem QueueMessage.terminal_iff (message : QueueMessage) :
    message.terminal = true ↔
      message.state = .delivered ∨ message.state = .superseded ∨ message.state = .dead := by
  unfold terminal terminalStates
  cases message.state <;> simp

/-- One row of `delivery_attempt`.
SOURCE: core/delivery.py:951-971 -/
structure DeliveryAttempt where
  msgId : String
  claimId : Int
  carrier : String
  startedAt : Int
  outcome : AttemptOutcome
  detail : String := ""

/-- The primary key of `delivery_attempt`.
SOURCE: adapters/store/migrator.py:227-236 -/
def DeliveryAttempt.key (attempt : DeliveryAttempt) : String × Int × String :=
  (attempt.msgId, attempt.claimId, attempt.carrier)

/-- One row of `delivery_dead`.
SOURCE: core/delivery.py:974-998 -/
structure DeadLetter where
  msgId : String
  idempotencyKey : String
  receiverId : String
  payload : String
  attempts : Int
  reason : DeadReason
  mode : QueueMode
  diedAt : Int

/-- One `seat_digest` row: the ids owed to one receiver in one epoch.
SOURCE: core/delivery.py:1001-1055 -/
structure SeatDigest where
  receiverId : String
  epoch : Int
  msgIds : List String
  builtAt : Int
  consumedAt : Option Int
  consumedVia : Option String
  wakeCount : Int

/-- The primary key of `seat_digest`.
SOURCE: adapters/store/migrator.py:258-267 -/
def SeatDigest.key (digest : SeatDigest) : String × Int := (digest.receiverId, digest.epoch)

/-- One row `reclaim` moved to `delivery_dead`.
SOURCE: core/delivery.py:448-469 -/
structure DeadRow where
  msgId : String
  receiverId : String
  senderId : String
  reason : DeadReason
  isNotice : Bool := false
  attempts : Int := 0

/-- What one `reclaim` did.
SOURCE: core/delivery.py:472-496 -/
structure ReclaimResult where
  reoffered : Nat := 0
  incremented : Nat := 0
  quarantined : Nat := 0
  dead : List DeadRow := []

/-- Is this sender a service namespace rather than an addressable party?
SOURCE: core/delivery.py:736-763 -/
def isServiceSender (senderId : String) : Bool :=
  senderId == "" || senderId.toList.contains ':' || "cao-".toList.isPrefixOf senderId.toList

end CliAgentOrchestrator.Core
