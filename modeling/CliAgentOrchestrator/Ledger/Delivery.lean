import CliAgentOrchestrator.Library.Machine
import CliAgentOrchestrator.Library.Table

/-!
# The delivery ledger

The tables `delivery_ledger` and `delivery_emission` with their operations in
`clients/database.py`, over the vocabulary of `clients/delivery_ledger.py`. UNIQUE(message_id,
carrier) is the key of the second table. What a row says about its routing beyond the receiver and
the carriers, and its `updated_at`, nothing here reads.
-/

set_option autoImplicit false

namespace CliAgentOrchestrator.Ledger

open Library

/-! ## Vocabulary -/

inductive LedgerState
  | pending
  | emitted
  | acked
  | suppressed
  | undeliverable
  | superseded
  | expired
deriving DecidableEq

/-- SOURCE: clients/delivery_ledger.py:49-57 -/
def terminalLedgerStates : List LedgerState :=
  [.acked, .suppressed, .undeliverable, .superseded, .expired]

inductive Carrier
  | native
  | doorbell
  | hook
  | replay
deriving DecidableEq

inductive EmissionOutcome
  | pending
  | succeeded
  | failed
  | carrierUnavailable
  | wakeOnly
deriving DecidableEq

inductive BlockedReason
  | awaitingIdle
deriving DecidableEq

inductive UndeliverableReason
  | carriersExhausted
  | receiverGone
deriving DecidableEq

inductive AckActor
  | explicit
  | hook
deriving DecidableEq

/-! ## Exhaustion -/

structure EmissionView where
  carrier : Carrier
  outcome : EmissionOutcome
  retryable : Bool

/-- SOURCE: clients/delivery_ledger.py:137-139, 153-155 -/
def isCarrierExhausted (view : EmissionView) : Bool :=
  [EmissionOutcome.failed, .carrierUnavailable].contains view.outcome && !view.retryable

/-- Of two views of a carrier the later one counts.
SOURCE: clients/delivery_ledger.py:158-191 -/
def carriersExhausted (applicable : List Carrier) (emissions : List EmissionView) (acked : Bool) :
    Bool :=
  if acked then false
  else
    -- without an applicable carrier the message can never be emitted
    applicable.all fun carrier =>
      ((emissions.filter fun view => decide (view.carrier = carrier)).getLast?).any
        isCarrierExhausted

/-! ## The tables -/

structure LedgerRow where
  messageId : Nat
  receiverId : String
  applicableCarriers : List Carrier
  state : LedgerState
  firstEmittedAt : Option Nat
  firstCarrier : Option Carrier
  ackedAt : Option Nat
  ackedBy : Option AckActor
  emissionCount : Nat
  undeliverableReason : Option UndeliverableReason
  blockedReason : Option BlockedReason
  blockedSince : Option Nat
deriving DecidableEq

structure Emission where
  messageId : Nat
  carrier : Carrier
  emittedAt : Option Nat
  outcome : EmissionOutcome
  attempts : Nat
  claimedAt : Nat

/-- UNIQUE uq_emission_message_carrier. -/
def Emission.claim (e : Emission) : Nat × Carrier := (e.messageId, e.carrier)

/-- The two tables, and the queued replays by their inbox rows. -/
structure DeliveryLedger where
  ledger : Table LedgerRow.messageId
  emissions : Table Emission.claim
  replays : List Nat

namespace LedgerRow

def fresh (messageId : Nat) (receiverId : String) (carriers : List Carrier) : LedgerRow where
  messageId := messageId
  receiverId := receiverId
  applicableCarriers := carriers
  state := .pending
  firstEmittedAt := none
  firstCarrier := none
  ackedAt := none
  ackedBy := none
  emissionCount := 0
  undeliverableReason := none
  blockedReason := none
  blockedSince := none

/-- An emission that succeeded.
SOURCE: clients/database.py:15494-15504 -/
def emit (r : LedgerRow) (carrier : Carrier) (now : Nat) : LedgerRow :=
  let r := { r with emissionCount := r.emissionCount + 1 }
  let r :=
    if r.firstEmittedAt = none then
      { r with firstEmittedAt := some now, firstCarrier := some carrier }
    else r
  if r.state = .pending then
    { r with state := .emitted, blockedReason := none, blockedSince := none }
  else r

/-- SOURCE: clients/database.py:15599-15604 -/
def exhaust (r : LedgerRow) : LedgerRow :=
  { r with
    state := .undeliverable, undeliverableReason := some .carriersExhausted
    blockedReason := none, blockedSince := none }

/-- SOURCE: clients/database.py:15627-15634 -/
def ack (r : LedgerRow) (actor : AckActor) (now : Nat) : LedgerRow :=
  if r.ackedAt = none then
    { r with
      ackedAt := some now, ackedBy := some actor, state := .acked, blockedReason := none
      blockedSince := none }
  else r

/-- SOURCE: clients/database.py:15661-15668 -/
def writeThrough (r : LedgerRow) (state : LedgerState) : LedgerRow :=
  if r.state = .acked then r
  else { r with state := state, blockedReason := none, blockedSince := none }

/-- SOURCE: clients/database.py:15685-15690 -/
def block (r : LedgerRow) (now : Nat) : LedgerRow :=
  if r.state ≠ .pending then r
  else if r.blockedReason = none then
    { r with blockedReason := some .awaitingIdle, blockedSince := some now }
  else r

/-- SOURCE: clients/database.py:15711-15726 -/
def receiverGone (r : LedgerRow) (receiverId : String) : LedgerRow :=
  if r.receiverId = receiverId ∧ (r.state = .pending ∨ r.state = .emitted) then
    { r with
      state := .undeliverable, undeliverableReason := some .receiverGone, blockedReason := none
      blockedSince := none }
  else r

/-- Rows are rewritten under their ids. -/
def patch (f : LedgerRow → LedgerRow) : Patch LedgerRow.messageId :=
  ⟨fun r => { f r with messageId := r.messageId }, fun _ => rfl⟩

end LedgerRow

/-! ## The operations -/

/-- SOURCE: clients/database.py:15398-15432 -/
def createDeliveryLedgerRow (db : DeliveryLedger) (messageId : Nat) (receiverId : String)
    (carriers : List Carrier) : DeliveryLedger :=
  { db with
    ledger := db.ledger.upsert (.fresh messageId receiverId carriers)
      (LedgerRow.patch fun r => { r with applicableCarriers := carriers }) }

/-- SOURCE: clients/database.py:15435-15467 -/
def claimEmission (db : DeliveryLedger) (messageId : Nat) (carrier : Carrier) (now : Nat) :
    Bool × DeliveryLedger :=
  if (db.emissions.get (messageId, carrier)).isSome then (false, db)
  else (true, { db with
    emissions := db.emissions.insert ⟨messageId, carrier, none, .pending, 0, now⟩ })

/-- SOURCE: clients/database.py:15473-15505 -/
def recordEmissionOutcome (db : DeliveryLedger) (messageId : Nat) (carrier : Carrier)
    (outcome : EmissionOutcome) (now : Nat) : DeliveryLedger :=
  if (db.emissions.get (messageId, carrier)).isSome then
    { db with
      emissions := db.emissions.updateKey (messageId, carrier) (fun _ => true)
        ⟨fun e =>
          { e with
            outcome := outcome, attempts := e.attempts + 1
            emittedAt := if outcome = .succeeded then some now else e.emittedAt }, fun _ => rfl⟩
      ledger :=
        if outcome = .succeeded then
          db.ledger.updateKey messageId (fun _ => true) (LedgerRow.patch fun r => r.emit carrier now)
        else db.ledger }
  else db

/-- SOURCE: clients/database.py:15543-15563 -/
def markCarrierUnavailable (db : DeliveryLedger) (messageId : Nat) (carrier : Carrier)
    (now : Nat) : DeliveryLedger :=
  let db := (claimEmission db messageId carrier now).2
  { db with
    emissions := db.emissions.updateKey (messageId, carrier) (fun _ => true)
      ⟨fun e => { e with outcome := .carrierUnavailable }, fun _ => rfl⟩ }

/-- SOURCE: clients/database.py:15588-15595 -/
def emissionViews (db : DeliveryLedger) (messageId maxAttempts : Nat) : List EmissionView :=
  (db.emissions.select fun e => decide (e.messageId = messageId)).map fun e =>
    ⟨e.carrier, e.outcome, decide (e.outcome = .failed ∧ e.attempts < maxAttempts)⟩

/-- The transition is due for the row.
SOURCE: clients/database.py:15579-15598 -/
def exhausts (db : DeliveryLedger) (r : LedgerRow) (maxAttempts : Nat) : Bool :=
  !([LedgerState.acked, .superseded, .expired, .undeliverable].contains r.state) &&
    carriersExhausted r.applicableCarriers (emissionViews db r.messageId maxAttempts)
      r.ackedAt.isSome

/-- SOURCE: clients/database.py:15566-15606 -/
def maybeMarkUndeliverable (db : DeliveryLedger) (messageId maxAttempts : Nat) :
    Bool × DeliveryLedger :=
  ((db.ledger.get messageId).any fun r => exhausts db r maxAttempts,
    { db with
      ledger := db.ledger.updateKey messageId (fun r => exhausts db r maxAttempts)
        (LedgerRow.patch LedgerRow.exhaust) })

/-- SOURCE: clients/database.py:15609-15640 -/
def ackDeliveryLedger (db : DeliveryLedger) (messageIds : List Nat) (actor : AckActor)
    (now : Nat) : DeliveryLedger :=
  { db with
    ledger := db.ledger.update (fun r => decide (r.messageId ∈ messageIds))
      (LedgerRow.patch fun r => r.ack actor now)
    replays := db.replays.filter fun id => decide (id ∉ messageIds) }

/-- The states that a status transition is mirrored as. -/
inductive MirroredState
  | superseded
  | expired

def MirroredState.state : MirroredState → LedgerState
  | superseded => .superseded
  | expired => .expired

/-- SOURCE: clients/database.py:15644-15666 -/
def writeThroughTerminalState (db : DeliveryLedger) (messageIds : List Nat)
    (state : MirroredState) : DeliveryLedger :=
  { db with
    ledger := db.ledger.update (fun r => decide (r.messageId ∈ messageIds))
      (LedgerRow.patch fun r => r.writeThrough state.state) }

/-- SOURCE: clients/database.py:15669-15688 -/
def recordBlockedAwaitingIdle (db : DeliveryLedger) (messageId now : Nat) : DeliveryLedger :=
  { db with
    ledger := db.ledger.updateKey messageId (fun _ => true) (LedgerRow.patch fun r => r.block now) }

/-- SOURCE: clients/database.py:15693-15726 -/
def markReceiverGone (db : DeliveryLedger) (receiverId : String) : DeliveryLedger :=
  { db with
    ledger := db.ledger.update (fun _ => true) (LedgerRow.patch fun r => r.receiverGone receiverId) }

/-- SOURCE: clients/database.py:15887 -/
def nonMuting : List EmissionOutcome := [.failed, .wakeOnly]

/-- The ids that another carrier claims.
SOURCE: clients/database.py:15888-15897 -/
def alreadyClaimed (db : DeliveryLedger) (messageIds : List Nat) : List Nat :=
  (db.emissions.select fun e =>
    decide (e.messageId ∈ messageIds ∧ e.carrier ≠ .hook ∧ e.outcome ∉ nonMuting)).map (·.messageId)

/-- The loop of `hook_claim_ids`. -/
def hookClaimFrom (already : List Nat) (now : Nat) :
    DeliveryLedger → List Nat → List Nat × DeliveryLedger
  | db, [] => ([], db)
  | db, messageId :: rest =>
    if messageId ∈ already then hookClaimFrom already now db rest
    else
      match claimEmission db messageId .hook now with
      | (false, db) => hookClaimFrom already now db rest
      | (true, db) =>
        let tail := hookClaimFrom already now db rest
        (messageId :: tail.1, tail.2)

/-- SOURCE: clients/database.py:15861-15905 -/
def hookClaimIds (db : DeliveryLedger) (messageIds : List Nat) (now : Nat) :
    List Nat × DeliveryLedger :=
  hookClaimFrom (alreadyClaimed db messageIds) now db messageIds

/-! ## Histories -/

/-- A succeeded outcome that was recorded on a claim. -/
structure Success where
  messageId : Nat
  carrier : Carrier
  recordedAt : Nat

/-- A row that became `undeliverable(carriers_exhausted)`: what it was evaluated against. -/
structure Exhaustion where
  applicable : List Carrier
  emissions : List Emission
  maxAttempts : Nat

/-- The tables, and what happened: the successes in order, the terminal states that rows reached,
the exhaustions, and the ids that the hook was given although another carrier had carried them. -/
structure LedgerHistory where
  db : DeliveryLedger
  successes : List Success
  reached : List (Nat × LedgerState)
  exhaustions : List Exhaustion
  reprinted : List Nat

inductive LedgerStep
  | create (messageId : Nat) (receiverId : String) (carriers : List Carrier)
  | claim (messageId : Nat) (carrier : Carrier) (now : Nat)
  | record (messageId : Nat) (carrier : Carrier) (outcome : EmissionOutcome) (now : Nat)
  | unavailable (messageId : Nat) (carrier : Carrier) (now : Nat)
  | maybeUndeliverable (messageId maxAttempts : Nat)
  | ack (messageIds : List Nat) (actor : AckActor) (now : Nat)
  | writeThrough (messageIds : List Nat) (state : MirroredState)
  | receiverGone (receiverId : String)
  | blocked (messageId now : Nat)
  | hookClaim (messageIds : List Nat) (now : Nat)

namespace LedgerHistory

def start : LedgerHistory := ⟨⟨.empty, .empty, []⟩, [], [], [], []⟩

/-- The tables after a step. -/
def dbAfter (db : DeliveryLedger) : LedgerStep → DeliveryLedger
  | .create messageId receiverId carriers => createDeliveryLedgerRow db messageId receiverId carriers
  | .claim messageId carrier now => (claimEmission db messageId carrier now).2
  | .record messageId carrier outcome now => recordEmissionOutcome db messageId carrier outcome now
  | .unavailable messageId carrier now => markCarrierUnavailable db messageId carrier now
  | .maybeUndeliverable messageId maxAttempts => (maybeMarkUndeliverable db messageId maxAttempts).2
  | .ack messageIds actor now => ackDeliveryLedger db messageIds actor now
  | .writeThrough messageIds state => writeThroughTerminalState db messageIds state
  | .receiverGone receiverId => markReceiverGone db receiverId
  | .blocked messageId now => recordBlockedAwaitingIdle db messageId now
  | .hookClaim messageIds now => (hookClaimIds db messageIds now).2

/-- The success that a step records. -/
def success (db : DeliveryLedger) : LedgerStep → List Success
  | .record messageId carrier outcome now =>
    if (db.emissions.get (messageId, carrier)).isSome ∧ outcome = .succeeded then
      [⟨messageId, carrier, now⟩]
    else []
  | _ => []

def exhaustion (db : DeliveryLedger) : LedgerStep → List Exhaustion
  | .maybeUndeliverable messageId maxAttempts =>
    match db.ledger.get messageId with
    | some r =>
      if exhausts db r maxAttempts then
        [⟨r.applicableCarriers, db.emissions.select fun e => decide (e.messageId = messageId),
          maxAttempts⟩]
      else []
    | none => []
  | _ => []

/-- Another carrier recorded a success of the message. -/
def carriedByOther (h : LedgerHistory) (messageId : Nat) : Bool :=
  h.successes.any fun s => decide (s.messageId = messageId ∧ s.carrier ≠ .hook)

def reprint (h : LedgerHistory) : LedgerStep → List Nat
  | .hookClaim messageIds now => (hookClaimIds h.db messageIds now).1.filter h.carriedByOther
  | _ => []

/-- The terminal states that rows are in. -/
def terminals (db : DeliveryLedger) : List (Nat × LedgerState) :=
  (db.ledger.select fun r => terminalLedgerStates.contains r.state).map fun r =>
    (r.messageId, r.state)

def exec (h : LedgerHistory) (a : LedgerStep) : LedgerHistory where
  db := dbAfter h.db a
  successes := h.successes ++ success h.db a
  reached := h.reached ++ terminals (dbAfter h.db a)
  exhaustions := h.exhaustions ++ exhaustion h.db a
  reprinted := h.reprinted ++ h.reprint a

end LedgerHistory

end CliAgentOrchestrator.Ledger
