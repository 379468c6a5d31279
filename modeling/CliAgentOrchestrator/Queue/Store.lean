import CliAgentOrchestrator.Core.Delivery
import CliAgentOrchestrator.Library.Table

/-!
# The delivery queue over SQLite

`adapters/store/queue.py`, method by method. A `Store` is the four delivery tables; a
method that runs in one `BEGIN IMMEDIATE` is one function on stores, and one that raises
leaves the store as it was.

`sha256` stands for `hashlib.sha256(…).hexdigest()` over the UTF-8 bytes of its argument:
nothing here depends on what it computes. `newUlid` (`core/ids.py`) and the clock are
arguments. The JSON array of a digest row is the list it encodes.
-/

set_option autoImplicit false

namespace CliAgentOrchestrator.Queue

open CliAgentOrchestrator.Core Library

/-- The four delivery tables.
SOURCE: adapters/store/migrator.py:194-267 -/
structure Store where
  deliveryMsg : Table QueueMessage.msgId
  deliveryAttempt : Table DeliveryAttempt.key
  deliveryDead : Table DeadLetter.msgId
  seatDigest : Table SeatDigest.key

namespace Store

/-- The tables as the migrator creates them. -/
def empty : Store := ⟨Table.empty, Table.empty, Table.empty, Table.empty⟩

/-- One UPDATE on `delivery_msg` under one `msg_id`. -/
def updateMsg (s : Store) (msgId : String) (p : QueueMessage → Bool)
    (f : Patch QueueMessage.msgId) : Store :=
  { s with deliveryMsg := s.deliveryMsg.updateKey msgId p f }

/-- One UPDATE on `seat_digest` under one epoch of one receiver. -/
def updateDigest (s : Store) (k : String × Int) (p : SeatDigest → Bool)
    (f : Patch SeatDigest.key) : Store :=
  { s with seatDigest := s.seatDigest.updateKey k p f }

/-- One INSERT into `seat_digest`. -/
def insertDigest (s : Store) (digest : SeatDigest) : Store :=
  { s with seatDigest := s.seatDigest.insert digest }

/-! ## Reads -/

/-- SOURCE: adapters/store/queue.py:452-458 -/
def get (s : Store) (msgId : String) : Option QueueMessage := s.deliveryMsg.get msgId

/-- SOURCE: adapters/store/queue.py:460-466 -/
def getByIdempotencyKey (s : Store) (key : String) : Option QueueMessage :=
  s.deliveryMsg.rows.find? fun r => r.idempotencyKey = key

/-- SOURCE: adapters/store/queue.py:490-511 -/
def deadLetter (s : Store) (msgId : String) : Option DeadLetter := s.deliveryDead.get msgId

/-- The outcome recorded last for this claim of this message.
SOURCE: adapters/store/queue.py:427-448 -/
def lastOutcomeIn (s : Store) (msgId : String) (claimId : Int) : Option AttemptOutcome :=
  ((s.deliveryAttempt.rows.filter fun a => a.msgId == msgId && a.claimId == claimId).getLast?).map
    DeliveryAttempt.outcome

end Store

/-! ## Enqueue -/

/-- Why `enqueue` raised.
SOURCE: adapters/store/queue.py:78-85, core/delivery.py:87-95 -/
inductive EnqueueError
  | persistentEnqueueRejection
  | rowVanished
  | idempotencyConflict

/-- The 29 columns `enqueue` inserts.
SOURCE: adapters/store/queue.py:140-180 -/
def draftRow (sha256 : String → String) (draft : EnqueueDraft) (newUlid : String) (now : Int) :
    QueueMessage where
  msgId := newUlid
  idempotencyKey := draft.idempotencyKey
  payloadDigest := sha256 draft.payload
  receiverId := draft.receiverId
  senderId := draft.senderId
  kind := draft.kind
  payload := draft.payload
  state := .ready
  mode := draft.mode
  claimId := 0
  leaseOwner := none
  leaseExpiresAt := none
  attempts := 0
  maxAttempts := draft.maxAttempts
  availableAt := now
  deadBy := computeDeadBy now now draft.expireAfterS
  heldSince := none
  expireAfterS := draft.expireAfterS
  supersedeKey := draft.supersedeKey
  contentHash := draft.contentHash
  parkWarm := draft.parkWarm
  barrierId := draft.barrierId
  barrierMemberKey := draft.barrierMemberKey
  enqueueGeneration := draft.enqueueGeneration
  cancelOnComplete := draft.cancelOnComplete
  isNotice := draft.isNotice
  legacyMessageId := draft.legacyMessageId
  createdAt := now
  terminatedAt := none

/-- INSERT … ON CONFLICT(idempotency_key) DO NOTHING; a taken primary key is an
`IntegrityError`.
SOURCE: adapters/store/queue.py:140-180 -/
def Store.insertMsg (s : Store) (row : QueueMessage) : Except EnqueueError Store :=
  if (s.getByIdempotencyKey row.idempotencyKey).isSome then .ok s
  else if (s.deliveryMsg.get row.msgId).isSome then .error .persistentEnqueueRejection
  else .ok { s with deliveryMsg := s.deliveryMsg.insert row }

/-- Insert one row, or return the one the key already holds.
SOURCE: adapters/store/queue.py:117-197 -/
def enqueue (sha256 : String → String) (s : Store) (draft : EnqueueDraft) (newUlid : String)
    (now : Int) : Except EnqueueError (QueueMessage × Store) :=
  match s.insertMsg (draftRow sha256 draft newUlid now) with
  | .error e => .error e
  | .ok s' =>
    match s'.getByIdempotencyKey draft.idempotencyKey with
    | none => .error .rowVanished
    | some message =>
      if message.payloadDigest ≠ sha256 draft.payload then .error .idempotencyConflict
      else .ok (message, s')

/-! ## Claim and ack -/

/-- SQL's LIMIT: a negative one takes every row. -/
def sqlLimit {α : Type} (limit : Int) (rows : List α) : List α :=
  if limit < 0 then rows else rows.take limit.toNat

/-- The WHERE clause of `claim`.
SOURCE: adapters/store/queue.py:250-254 -/
def claimable (now : Int) (receiverId : Option String) (r : QueueMessage) : Bool :=
  r.state == .ready && decide (r.availableAt ≤ now) && r.mode == .live && decide (now < r.deadBy)
    && receiverId.all (r.receiverId == ·)

/-- ORDER BY available_at, msg_id. -/
def claimOrder (a b : QueueMessage) : Prop :=
  a.availableAt < b.availableAt ∨ (a.availableAt = b.availableAt ∧ ¬ b.msgId < a.msgId)

instance : DecidableRel claimOrder := fun a b => by unfold claimOrder; infer_instance

/-- The rows one `claim` selects.
SOURCE: adapters/store/queue.py:255-259 -/
def claimRows (s : Store) (now limit : Int) (receiverId : Option String) : List QueueMessage :=
  sqlLimit limit ((s.deliveryMsg.select (claimable now receiverId)).insertionSort claimOrder)

/-- SET state = 'leased', claim_id = claim_id + 1, lease_owner, lease_expires_at.
SOURCE: adapters/store/queue.py:261-266 -/
def leasePatch (leaseOwner : String) (leaseUntil : Int) : Patch QueueMessage.msgId where
  apply r := { r with
    state := .leased, claimId := r.claimId + 1, leaseOwner := some leaseOwner
    leaseExpiresAt := some leaseUntil }
  keeps _ := rfl

/-- The body of `claim`'s loop: lease one row and read it back.
SOURCE: adapters/store/queue.py:260-271 -/
def claimOne (leaseOwner : String) (leaseUntil : Int) (acc : List QueueMessage × Store)
    (row : QueueMessage) : List QueueMessage × Store :=
  let s' := acc.2.updateMsg row.msgId (fun r => r.state == .ready)
    (leasePatch leaseOwner leaseUntil)
  match s'.get row.msgId with
  | some refreshed => (acc.1 ++ [refreshed], s')
  | none => (acc.1, s')

/-- Lease deliverable rows, each with a fresh fencing token.
SOURCE: adapters/store/queue.py:201-272 -/
def claim (s : Store) (leaseOwner : String) (now limit : Int) (receiverId : Option String) :
    List QueueMessage × Store :=
  (claimRows s now limit receiverId).foldl
    (claimOne leaseOwner (now + seconds deliveryLeaseS)) ([], s)

/-- The SET clause of every statement that ends a row other than by death.
SOURCE: adapters/store/queue.py:280-281, 607-608, 990-995, 1121-1122 -/
def endPatch (state : MsgState) (now : Int) : Patch QueueMessage.msgId where
  apply r := { r with
    state := state, terminatedAt := some now, leaseOwner := none, leaseExpiresAt := none
    heldSince := none }
  keeps _ := rfl

/-- The WHERE clause of `ack`: the fencing token must be the current one. -/
def ackable (claimId : Int) (r : QueueMessage) : Bool :=
  decide (r.claimId = claimId) && r.state == .leased

/-- Settle a delivered row; false when the fencing token is stale.
SOURCE: adapters/store/queue.py:274-285 -/
def ack (s : Store) (msgId : String) (claimId now : Int) : Bool × Store :=
  ((s.get msgId).any (ackable claimId),
    s.updateMsg msgId (ackable claimId) (endPatch .delivered now))

/-! ## Reclaim -/

/-- SET state = 'dead', terminated_at; the dialog-hold clock stays.
SOURCE: adapters/store/queue.py:637-638 -/
def killPatch (now : Int) : Patch QueueMessage.msgId where
  apply r := { r with
    state := .dead, terminatedAt := some now, leaseOwner := none, leaseExpiresAt := none }
  keeps _ := rfl

/-- Move one row to `dead` and write its `delivery_dead` row.
SOURCE: adapters/store/queue.py:621-655 -/
def kill (s : Store) (message : QueueMessage) (reason : DeadReason) (now : Int) : Store :=
  { s.updateMsg message.msgId (fun _ => true) (killPatch now) with
    deliveryDead := s.deliveryDead.insert
      { msgId := message.msgId, idempotencyKey := message.idempotencyKey
        receiverId := message.receiverId, payload := message.payload
        attempts := message.attempts, reason := reason, mode := message.mode, diedAt := now } }

/-- The `available_at` that makes a row unclaimable for the rest of its life.
SOURCE: adapters/store/queue.py:1241-1250 -/
def quarantineUntil (message : QueueMessage) : Int := message.deadBy + seconds 1

/-- Which of the reasons ended a row that is out of attempts or past its deadline.
SOURCE: adapters/store/queue.py:1253-1267 -/
def deadReasonFor (message : QueueMessage) : DeadReason :=
  if message.attempts ≥ message.maxAttempts then .maxAttempts
  else match message.expireAfterS with
    | some s => if s ≤ deliveryMaxLifetimeS then .expired else .maxLifetime
    | none => .maxLifetime

/-- SOURCE: adapters/store/queue.py:1270-1278 -/
def deadRow (message : QueueMessage) (reason : DeadReason) : DeadRow where
  msgId := message.msgId
  receiverId := message.receiverId
  senderId := message.senderId
  reason := reason
  isNotice := message.isNotice
  attempts := message.attempts

/-- SET state = 'ready', claim_id = claim_id + 1, attempts, available_at; lease dropped.
SOURCE: adapters/store/queue.py:374-376, 384-387 -/
def reofferPatch (spent : Int) (availableAt : Int) : Patch QueueMessage.msgId where
  apply r := { r with
    state := .ready, claimId := r.claimId + 1, attempts := r.attempts + spent
    availableAt := availableAt, leaseOwner := none, leaseExpiresAt := none }
  keeps _ := rfl

/-- WHERE state = 'leased' AND lease_expires_at < now.
SOURCE: adapters/store/queue.py:365-369 -/
def leaseExpired (now : Int) (r : QueueMessage) : Bool :=
  r.state == .leased && r.leaseExpiresAt.any (· < now)

/-- How an expired lease leaves: quarantined past its deadline after an uncertain
submission, otherwise re-offered after the back-off, an attempt spent or not.
SOURCE: adapters/store/queue.py:371-392 -/
def reofferFor (s : Store) (now : Int) (message : QueueMessage) : Patch QueueMessage.msgId :=
  let outcome := s.lastOutcomeIn message.msgId message.claimId
  if outcome = some .submissionUncertain then reofferPatch 0 (quarantineUntil message)
  else reofferPatch (if spendsAttempt outcome then 1 else 0) (now + seconds deliveryBackoffS)

/-- The counters of one released lease.
SOURCE: adapters/store/queue.py:380-381, 391-392 -/
def countLease (outcome : Option AttemptOutcome) (result : ReclaimResult) : ReclaimResult :=
  if outcome = some .submissionUncertain then
    { result with quarantined := result.quarantined + 1 }
  else
    { result with
      reoffered := result.reoffered + 1
      incremented := result.incremented + if spendsAttempt outcome then 1 else 0 }

/-- The body of the lease sweep.
SOURCE: adapters/store/queue.py:370-392 -/
def reclaimLease (now : Int) (acc : Store × ReclaimResult) (message : QueueMessage) :
    Store × ReclaimResult :=
  (acc.1.updateMsg message.msgId (fun r => r.state == .leased) (reofferFor acc.1 now message),
    countLease (acc.1.lastOutcomeIn message.msgId message.claimId) acc.2)

/-- WHERE state IN ('ready', 'leased') AND held_since <= ceiling.
SOURCE: adapters/store/queue.py:398-403 -/
def heldTooLong (ceilingBefore : Int) (r : QueueMessage) : Bool :=
  (r.state == .ready || r.state == .leased) && r.heldSince.any (· ≤ ceilingBefore)

/-- WHERE state = 'ready' AND (attempts >= max_attempts OR dead_by <= now).
SOURCE: adapters/store/queue.py:409-413 -/
def exhausted (now : Int) (r : QueueMessage) : Bool :=
  r.state == .ready && (decide (r.attempts ≥ r.maxAttempts) || decide (r.deadBy ≤ now))

/-- The lease sweep: every expired lease goes back to `ready`.
SOURCE: adapters/store/queue.py:364-392 -/
def leaseSweep (s : Store) (now : Int) : Store × ReclaimResult :=
  (s.deliveryMsg.select (leaseExpired now)).foldl (reclaimLease now) (s, {})

/-- The body of a death sweep.
SOURCE: adapters/store/queue.py:404-407, 414-418 -/
def reclaimKill (reason : QueueMessage → DeadReason) (now : Int) (acc : Store × ReclaimResult)
    (message : QueueMessage) : Store × ReclaimResult :=
  (kill acc.1 message (reason message) now,
    { acc.2 with dead := acc.2.dead ++ [deadRow message (reason message)] })

/-- A death sweep: kill and report every row `p` selects. -/
def deathSweep (p : QueueMessage → Bool) (reason : QueueMessage → DeadReason) (now : Int)
    (acc : Store × ReclaimResult) : Store × ReclaimResult :=
  (acc.1.deliveryMsg.select p).foldl (reclaimKill reason now) acc

/-- The instant before which a dialog hold has lasted too long.
SOURCE: adapters/store/queue.py:356-358 -/
def ceilingBefore (now : Int) : Int := now - seconds deliveryVetoCeilingS

/-- The dialog-ceiling sweep.
SOURCE: adapters/store/queue.py:394-407 -/
def holdSweep (now : Int) : Store × ReclaimResult → Store × ReclaimResult :=
  deathSweep (heldTooLong (ceilingBefore now)) (fun _ => .vetoCeiling) now

/-- The sweep of the rows out of attempts or past their deadline.
SOURCE: adapters/store/queue.py:409-418 -/
def exhaustionSweep (now : Int) : Store × ReclaimResult → Store × ReclaimResult :=
  deathSweep (exhausted now) deadReasonFor now

/-- The three sweeps, in one transaction.
SOURCE: adapters/store/queue.py:287-425 -/
def reclaim (s : Store) (now : Int) : Store × ReclaimResult :=
  exhaustionSweep now (holdSweep now (leaseSweep s now))

/-! ## Attempts, settlement and the dialog hold -/

/-- INSERT … ON CONFLICT DO NOTHING.
SOURCE: adapters/store/queue.py:542-562 -/
def recordAttempt (s : Store) (attempt : DeliveryAttempt) : Store :=
  { s with deliveryAttempt := s.deliveryAttempt.insert attempt }

/-- SET attempts = ?. -/
def attemptsPatch (attempts : Int) : Patch QueueMessage.msgId where
  apply r := { r with attempts := attempts }
  keeps _ := rfl

/-- Why `settle` raised. -/
inductive SettleError
  | notTerminal
  | deadWithoutReason

/-- The row `settle` goes on with after writing the caller's attempt count.
SOURCE: adapters/store/queue.py:596-602 -/
def withAttempts (attempts : Option Int) (r : QueueMessage) : QueueMessage :=
  match attempts with
  | some n => { r with attempts := n }
  | none => r

/-- The branch of `settle` for a row that has not ended.
SOURCE: adapters/store/queue.py:596-612 -/
def settleLive (s : Store) (message : QueueMessage) (state : MsgState) (now : Int)
    (reason : Option DeadReason) (attempts : Option Int) : Store :=
  let s' := match attempts with
    | some n => s.updateMsg message.msgId (fun _ => true) (attemptsPatch n)
    | none => s
  match state, reason with
  | .dead, some reason => kill s' (withAttempts attempts message) reason now
  | state, _ => s'.updateMsg message.msgId (fun _ => true) (endPatch state now)

/-- Move a row to a terminal state; false when it was already terminal.
SOURCE: adapters/store/queue.py:564-612 -/
def settle (s : Store) (msgId : String) (state : MsgState) (now : Int)
    (reason : Option DeadReason) (attempts : Option Int) : Except SettleError (Bool × Store) :=
  if state ∉ terminalStates then .error .notTerminal
  else if state = .dead ∧ reason = none then .error .deadWithoutReason
  else
    match s.get msgId with
    | none => .ok (false, s)
    | some message =>
      if message.terminal then .ok (false, s)
      else .ok (true, settleLive s message state now reason attempts)

/-- SET held_since = ?. -/
def holdPatch (heldSince : Option Int) : Patch QueueMessage.msgId where
  apply r := { r with heldSince := heldSince }
  keeps _ := rfl

/-- Set or clear the dialog-hold clock.
SOURCE: adapters/store/queue.py:614-619 -/
def markDialogHold (s : Store) (msgId : String) (heldSince : Option Int) : Store :=
  s.updateMsg msgId (fun _ => true) (holdPatch heldSince)

/-! ## Digests -/

/-- The receiver's open epoch with the highest number.
SOURCE: adapters/store/queue.py:1180-1188 -/
def openDigestIn (s : Store) (receiverId : String) : Option SeatDigest :=
  ((s.seatDigest.select fun d => d.receiverId == receiverId && d.consumedAt.isNone).insertionSort
    fun a b => b.epoch ≤ a.epoch).head?

/-- One above the receiver's highest epoch.
SOURCE: adapters/store/queue.py:1190-1204 -/
def nextEpochIn (s : Store) (receiverId : String) : Int :=
  (((s.seatDigest.select fun d => d.receiverId == receiverId).map SeatDigest.epoch).max?).getD 0 + 1

/-- SET msg_ids = ?. -/
def msgIdsPatch (msgIds : List String) : Patch SeatDigest.key where
  apply d := { d with msgIds := msgIds }
  keeps _ := rfl

/-- SET msg_ids = ?, consumed_at = ?, consumed_via = ?. -/
def abandonPatch (now : Int) : Patch SeatDigest.key where
  apply d := { d with msgIds := [], consumedAt := some now, consumedVia := some "abandoned" }
  keeps _ := rfl

/-- The row `build_digest` and `reparent` insert. -/
def newDigest (receiverId : String) (epoch : Int) (msgIds : List String) (now : Int) :
    SeatDigest :=
  { receiverId := receiverId, epoch := epoch, msgIds := msgIds, builtAt := now
    consumedAt := none, consumedVia := none, wakeCount := 0 }

/-- SET receiver_id = ?, payload = ?, payload_digest = ?.
SOURCE: adapters/store/queue.py:712-716 -/
def reparentPatch (newReceiverId payload digest : String) : Patch QueueMessage.msgId where
  apply r := { r with receiverId := newReceiverId, payload := payload, payloadDigest := digest }
  keeps _ := rfl

/-- The id leaves the old receiver's open epoch; an epoch it leaves empty is abandoned.
SOURCE: adapters/store/queue.py:718-732 -/
def leaveDigest (s : Store) (receiverId msgId : String) (now : Int) : Store :=
  match openDigestIn s receiverId with
  | none => s
  | some old =>
    if msgId ∈ old.msgIds then
      let remaining := old.msgIds.filter (· ≠ msgId)
      s.updateDigest old.key (fun _ => true)
        (if remaining = [] then abandonPatch now else msgIdsPatch remaining)
    else s

/-- The id joins the new receiver's open epoch, opened if there is none.
SOURCE: adapters/store/queue.py:734-753 -/
def joinDigest (s : Store) (receiverId msgId : String) (now : Int) : Store :=
  match openDigestIn s receiverId with
  | none =>
    s.insertDigest (newDigest receiverId (nextEpochIn s receiverId) [msgId] now)
  | some new =>
    if msgId ∈ new.msgIds then s
    else s.updateDigest new.key (fun _ => true) (msgIdsPatch (new.msgIds ++ [msgId]))

/-- Move an undelivered row to another mailbox, digests and all.
SOURCE: adapters/store/queue.py:674-754 -/
def reparent (sha256 : String → String) (s : Store) (msgId newReceiverId : String) (now : Int)
    (messagePrefix : String) : Bool × Store :=
  match s.get msgId with
  | none => (false, s)
  | some message =>
    if message.terminal then (false, s)
    else if message.receiverId = newReceiverId then (false, s)
    else
      let payload := messagePrefix ++ message.payload
      let s₁ := s.updateMsg msgId (fun _ => true)
        (reparentPatch newReceiverId payload (sha256 payload))
      (true, joinDigest (leaveDigest s₁ message.receiverId msgId now) newReceiverId msgId now)

/-- Open an epoch holding `msgIds`.
SOURCE: adapters/store/queue.py:756-775 -/
def buildDigest (s : Store) (receiverId : String) (msgIds : List String) (now : Int) :
    Option SeatDigest × Store :=
  let s' := s.insertDigest (newDigest receiverId (nextEpochIn s receiverId) msgIds now)
  (openDigestIn s' receiverId, s')

/-- Add ids to an open epoch, strictly additively.
SOURCE: adapters/store/queue.py:790-826 -/
def extendDigest (s : Store) (receiverId : String) (epoch : Int) (msgIds : List String) :
    Option SeatDigest × Store :=
  match s.seatDigest.get (receiverId, epoch) with
  | none => (none, s)
  | some digest =>
    if digest.consumedAt.isSome then (none, s)
    else
      let fresh := msgIds.filter (· ∉ digest.msgIds)
      if fresh = [] then (some digest, s)
      else
        let merged := digest.msgIds ++ fresh
        (some { digest with msgIds := merged },
          s.updateDigest (receiverId, epoch) (fun _ => true) (msgIdsPatch merged))

/-- SET wake_count = wake_count + 1. -/
def wakePatch : Patch SeatDigest.key where
  apply d := { d with wakeCount := d.wakeCount + 1 }
  keeps _ := rfl

/-- Advance the wake ordinal of one open epoch and return it; 0 for a closed or absent one.
SOURCE: adapters/store/queue.py:828-857 -/
def bumpWakeCount (s : Store) (receiverId : String) (epoch : Int) : Int × Store :=
  let s' := s.updateDigest (receiverId, epoch) (fun d => d.consumedAt.isNone) wakePatch
  if (s.seatDigest.get (receiverId, epoch)).any (fun d => d.consumedAt.isNone) then
    (((s'.seatDigest.get (receiverId, epoch)).map SeatDigest.wakeCount).getD 0, s')
  else (0, s')

/-- SET consumed_at = ?, consumed_via = ?. -/
def consumePatch (via : String) (now : Int) : Patch SeatDigest.key where
  apply d := { d with consumedAt := some now, consumedVia := some via }
  keeps _ := rfl

/-- Close an open epoch; false when it was closed already or does not exist.
SOURCE: adapters/store/queue.py:859-876 -/
def closeDigest (s : Store) (receiverId : String) (epoch : Int) (via : String) (now : Int) :
    Bool × Store :=
  ((s.seatDigest.get (receiverId, epoch)).any (fun d => d.consumedAt.isNone),
    s.updateDigest (receiverId, epoch) (fun d => d.consumedAt.isNone) (consumePatch via now))

/-! ## The receiver's side -/

/-- End the selected rows one by one, with the ids ended. -/
def endSweep (rows : List QueueMessage) (p : QueueMessage → Bool) (state : MsgState) (now : Int)
    (s : Store) : List String × Store :=
  rows.foldl
    (fun acc row => (acc.1 ++ [row.msgId], acc.2.updateMsg row.msgId p (endPatch state now)))
    ([], s)

/-- WHERE receiver_id = ? AND state = 'ready' AND cancel_on_complete = 1 AND mode = 'live'. -/
def cancellable (receiverId : String) (r : QueueMessage) : Bool :=
  r.receiverId == receiverId && r.state == .ready && r.cancelOnComplete && r.mode == .live

/-- The completion-cancel: supersede the receiver's flagged ready rows.
SOURCE: adapters/store/queue.py:971-1003 -/
def cancelOnComplete (s : Store) (receiverId : String) (now : Int) : List String × Store :=
  endSweep (s.deliveryMsg.select (cancellable receiverId)) (fun r => r.state == .ready)
    .superseded now s

/-- WHERE receiver_id = ? AND mode = 'live' AND legacy_message_id <= ? AND not terminal. -/
def settleable (receiverId : String) (upToId : Int) (r : QueueMessage) : Bool :=
  r.receiverId == receiverId && r.mode == .live && r.legacyMessageId.any (· ≤ upToId) && !r.terminal

/-- Mark the receiver's rows delivered up to a surrogate id.
SOURCE: adapters/store/queue.py:1100-1127 -/
def settleThrough (s : Store) (receiverId : String) (upToId now : Int) : List String × Store :=
  endSweep (s.deliveryMsg.select (settleable receiverId upToId)) (fun _ => true) .delivered now s

/-! ## Retention -/

/-- The instant before which an ended row is past retention. -/
def retentionHorizon (now : Int) : Int := now - seconds (deliveryRetentionDays * 86400)

/-- The rows `prune` deletes.
SOURCE: adapters/store/queue.py:1150-1158 -/
def prunable (now : Int) (isProtected : List String) (r : QueueMessage) : Bool :=
  r.terminatedAt.any (· < retentionHorizon now) && !isProtected.contains r.msgId

/-- Delete one row with its attempts and its dead letter.
SOURCE: adapters/store/queue.py:1159-1162 -/
def pruneRow (s : Store) (msgId : String) : Store :=
  { s with
    deliveryAttempt := s.deliveryAttempt.delete fun a => a.msgId == msgId
    deliveryDead := s.deliveryDead.deleteKey msgId
    deliveryMsg := s.deliveryMsg.deleteKey msgId }

/-- The closed digests `prune` deletes.
SOURCE: adapters/store/queue.py:1163-1172 -/
def prunableDigest (now : Int) (isProtected : List String) (d : SeatDigest) : Bool :=
  d.consumedAt.any (· < retentionHorizon now) && !d.msgIds.any isProtected.contains

/-- Retention over the delivery tables, with the number of rows removed.
SOURCE: adapters/store/queue.py:1129-1178 -/
def prune (s : Store) (now : Int) (isProtected : List String) : Nat × Store :=
  let rows := s.deliveryMsg.select (prunable now isProtected)
  let s' := rows.foldl (fun s row => pruneRow s row.msgId) s
  let digests := s'.seatDigest.select (prunableDigest now isProtected)
  (rows.length + digests.length,
    { s' with seatDigest := s'.seatDigest.delete (prunableDigest now isProtected) })

end CliAgentOrchestrator.Queue
