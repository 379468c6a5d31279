import CliAgentOrchestrator.Inbox.Lifecycle
import CliAgentOrchestrator.Wiring.Adoption

/-!
# One-time notices

The two notices of `clients/database.py` that are meant to be sent once: the one of a pending
digest and the one of a stalled delivery. Both look for an earlier copy in the inbox, by sender,
receiver and first line, and both insert by way of `_insert_routed_inbox_row`, which hands the
row to the queue where it can.
-/

set_option autoImplicit false

namespace CliAgentOrchestrator.Inbox

open CliAgentOrchestrator.Core Library Queue Wiring

/-! ## Senders and headers -/

/-- SOURCE: clients/database.py:10923 -/
def digestSender (base : String) : String := "cao-digest:" ++ base

/-- SOURCE: clients/database.py:10924-10926 -/
def digestHeader (base stateKey : String) (genesis : Bool) : String :=
  "[CAO DIGEST-PENDING" ++ (if genesis then ": genesis" else "") ++ "] base=" ++ base ++ " key=" ++
    stateKey ++ "\n"

/-- `sorted(set(message_ids))`. -/
def batchIds (messageIds : List Int) : List Int := messageIds.dedup.insertionSort (· ≤ ·)

/-- SOURCE: clients/database.py:13141-13142 -/
def wpm1BatchKey (messageIds : List Int) : String :=
  String.intercalate "," ((batchIds messageIds).map toString)

/-- SOURCE: clients/database.py:13200 -/
def stalledSender (receiverTerminalId : String) : String := "message-trace:" ++ receiverTerminalId

/-- SOURCE: clients/database.py:13163 -/
def stalledHeader (messageIds : List Int) : String :=
  "wpm1-notice kind=stalled batch=" ++ wpm1BatchKey messageIds ++ "\n"

/-- SOURCE: clients/database.py:13221-13223 -/
def stalledBody : String :=
  "delivery stalled: receiver shows no progress / payload not yet confirmed; no reinjection " ++
    "will occur while unproven; will confirm if consumed"

/-- `substr(message, 1, n) = header`. -/
def startsWith (message header : String) : Bool := header.toList.isPrefixOf message.toList

/-! ## The pending digest -/

/-- Why a call raised. -/
inductive NoticeError
  | terminalNotFound (receiverId : String)
  | noMessageIds
  | routing (error : RouteError)

/-- The row a notice of a pending digest is inserted as. -/
def digestSend (cache : String) (logicalReceiverId : Option String) (base stateKey body : String)
    (genesis : Bool) : Send where
  senderId := digestSender base
  receiverId := cache
  logicalReceiverId := logicalReceiverId
  message := digestHeader base stateKey genesis ++ body
  parkWarm := true

/-- The WHERE clause of the check.
SOURCE: clients/database.py:10935-10948 -/
def digestKnown (cache : String) (logicalReceiverId : Option String) (base stateKey : String)
    (genesis : Bool) (row : InboxRow) : Bool :=
  row.senderId == digestSender base
    && (match logicalReceiverId with
      | some logical => row.logicalReceiverId == some logical
      | none => row.receiverId == cache)
    && startsWith row.message (digestHeader base stateKey genesis)

/-- An insert inside the caller's transaction, which is rolled back where it raises. -/
def insertNotice (sha256 contentHash : String → String) (env : Env) (db : Database) (send : Send) :
    Except NoticeError Routed × Database :=
  match insertRoutedInboxRow sha256 contentHash env db send with
  | .error raised => (.error (.routing raised.error), db.rollback raised)
  | .ok (routed, db') => (.ok routed, db')

/-- What the call returns or raises, and the tables behind it.
SOURCE: clients/database.py:10908-10969 -/
def createDigestPendingNotice (sha256 contentHash : String → String) (env : Env) (db : Database)
    (receiverId base stateKey body : String) (genesis : Bool) :
    Except NoticeError (Option Routed) × Database :=
  match resolveInboxReceiver env receiverId with
  | .error e => (.error (.routing e), db)
  | .ok (cache, logicalReceiverId) =>
    if logicalReceiverId.isNone && (env.terminal cache).isNone then
      (.error (.terminalNotFound receiverId), db)
    else if db.inbox.rows.any (digestKnown cache logicalReceiverId base stateKey genesis) then
      (.ok none, db)
    else
      let (result, db') := insertNotice sha256 contentHash env db
        (digestSend cache logicalReceiverId base stateKey body genesis)
      (result.map some, db')

/-! ## The stalled delivery -/

/-- A delivery attempt, as far as the notice reads it, with the members of its batch;
`stalledNotifiedAt` is a key of its evidence.
SOURCE: clients/database.py:942-979 -/
structure InboxDeliveryAttempt where
  attemptUuid : String
  outcome : Option String := none
  reason : Option String := none
  members : List Int
  stalledNotifiedAt : Option String := none

/-- SET evidence, with the time of the notice. -/
def notifiedPatch (notifiedAt : String) : Patch InboxDeliveryAttempt.attemptUuid where
  apply attempt := { attempt with stalledNotifiedAt := some notifiedAt }
  keeps _ := rfl

/-- SOURCE: clients/database.py:4833-4838 -/
def receiverIsTerminalOrMailboxAddress (env : Env) (receiverId : Option String) : Bool :=
  match receiverId with
  | none => false
  | some id => id != "" && ((env.terminal id).isSome || (env.mailboxOf id).isSome)

/-- `callerId` is the caller of a terminal.
SOURCE: clients/database.py:13145-13152 -/
def resolveWpm1Recipient (env : Env) (callerId : String → Option String)
    (senderId receiverTerminalId : String) : Option String :=
  if receiverIsTerminalOrMailboxAddress env (some senderId) then some senderId
  else
    let caller := if (env.terminal receiverTerminalId).isSome then callerId receiverTerminalId
      else none
    if receiverIsTerminalOrMailboxAddress env caller then caller else none

/-- The row a notice of a stalled delivery is inserted as. -/
def stalledSend (cache : String) (logicalReceiverId : Option String) (receiverTerminalId : String)
    (messageIds : List Int) : Send where
  senderId := stalledSender receiverTerminalId
  receiverId := cache
  logicalReceiverId := logicalReceiverId
  message := stalledHeader messageIds ++ stalledBody

/-- The WHERE clause of the check.
SOURCE: clients/database.py:13201-13209 -/
def stalledKnown (recipient receiverTerminalId : String) (messageIds : List Int)
    (row : InboxRow) : Bool :=
  row.senderId == stalledSender receiverTerminalId && row.receiverId == recipient
    && startsWith row.message (stalledHeader messageIds)

/-- What the call returns. -/
inductive StalledOutcome
  | stale
  | alreadyRecorded
  | loggedOnly
  | recorded

/-- Are these the members of the attempt's batch, all pending?
SOURCE: clients/database.py:13175-13190 -/
def batchPending (db : Database) (attempt : InboxDeliveryAttempt) (ids : List Int) : Bool :=
  batchIds attempt.members == ids
    && (db.inbox.select fun row => ids.contains row.id && row.status == .pending).length
      == ids.length

/-- The end of the call: the check, and the insert where it finds nothing.
SOURCE: clients/database.py:13200-13226 -/
def notifyStalled (sha256 contentHash : String → String) (env : Env) (db : Database)
    (recipient receiverTerminalId : String) (messageIds : List Int) :
    Except NoticeError StalledOutcome × Database :=
  if db.inbox.rows.any (stalledKnown recipient receiverTerminalId messageIds) then
    (.ok .recorded, db)
  else
    match resolveInboxReceiver env recipient with
    | .error e => (.error (.routing e), db)
    | .ok (cache, logicalReceiverId) =>
      let (result, db') := insertNotice sha256 contentHash env db
        (stalledSend cache logicalReceiverId receiverTerminalId messageIds)
      (result.map fun _ => .recorded, db')

/-- What raises leaves the evidence as it was.
SOURCE: clients/database.py:13155-13226 -/
def recordWpm1StalledNotice (sha256 contentHash : String → String) (env : Env)
    (callerId : String → Option String) (db : Database)
    (attempts : Table InboxDeliveryAttempt.attemptUuid) (attemptUuid : String)
    (messageIds : List Int) (receiverTerminalId notifiedAt : String) :
    Except NoticeError StalledOutcome × Database × Table InboxDeliveryAttempt.attemptUuid :=
  let ids := batchIds messageIds
  match (attempts.get attemptUuid).filter fun attempt =>
      attempt.outcome == some "ambiguous" && attempt.reason == some "confirmation_timeout" with
  | none => (.ok .stale, db, attempts)
  | some attempt =>
    if !batchPending db attempt ids then (.ok .stale, db, attempts)
    else if attempt.stalledNotifiedAt.any (· != "") then (.ok .alreadyRecorded, db, attempts)
    else
      match ids.head?.bind db.inbox.get with
      | none => (.error .noMessageIds, db, attempts)
      | some original =>
        let recorded := attempts.updateKey attemptUuid (fun _ => true) (notifiedPatch notifiedAt)
        match resolveWpm1Recipient env callerId original.senderId receiverTerminalId with
        | none => (.ok .loggedOnly, db, recorded)
        | some recipient =>
          match notifyStalled sha256 contentHash env db recipient receiverTerminalId
              messageIds with
          | (.error e, db') => (.error e, db', attempts)
          | (.ok outcome, db') => (.ok outcome, db', recorded)

/-! ## The system -/

/-- The tables, and the adoption passes over them. -/
structure Notices where
  db : Database
  attempts : Table InboxDeliveryAttempt.attemptUuid
  poisonIds : List Int
  pass : Nat → Pass

def Notices.adoption (n : Notices) : Adoption := ⟨n.db.inbox, n.db.queue, n.poisonIds, n.pass⟩

def Notices.withAdoption (n : Notices) (a : Adoption) : Notices :=
  { n with
    db := { n.db with inbox := a.inbox, queue := a.store }
    poisonIds := a.poisonIds
    pass := a.pass }

/-- A call of the queue that delivers, settles or digests rows: it inserts none, deletes none and
gives none to another receiver. -/
def delivers : Op → Bool
  | .enqueue _ _ _ => false
  | .reparent _ _ _ _ => false
  | .prune _ _ => false
  | _ => true

/-- A call, or one step of another party: an adoption pass, a delivery or an ack that sets the
status of an inbox row, an attempt that is written, or a delivery or an ack of the queue. -/
inductive NoticeStep
  | createDigestPendingNotice (env : Env) (receiverId base stateKey body : String)
      (genesis : Bool)
  | recordWpm1StalledNotice (env : Env) (callerId : String → Option String)
      (attemptUuid : String) (messageIds : List Int) (receiverTerminalId notifiedAt : String)
  | adopt (step : AdoptionStep)
  | setStatus (id : Int) (status : MessageStatus)
  | writeAttempt (attempt : InboxDeliveryAttempt)
  | queue (op : Op)

/-- What adoption is run with: the rows the store rejects, and the size of a pass. -/
structure AdoptionSetup where
  rejects : Int → Bool
  limit : Int

/-- One step. -/
def noticeStep (sha256 contentHash : String → String) (setup : AdoptionSetup) (n : Notices) :
    NoticeStep → Notices
  | .createDigestPendingNotice env receiverId base stateKey body genesis =>
    { n with db := (createDigestPendingNotice sha256 contentHash env n.db receiverId base stateKey
      body genesis).2 }
  | .recordWpm1StalledNotice env callerId attemptUuid messageIds receiverTerminalId notifiedAt =>
    let (_, db, attempts) := recordWpm1StalledNotice sha256 contentHash env callerId n.db
      n.attempts attemptUuid messageIds receiverTerminalId notifiedAt
    { n with db := db, attempts := attempts }
  | .adopt step =>
    n.withAdoption (Adoption.exec sha256 contentHash setup.rejects setup.limit n.adoption step)
  | .setStatus id status =>
    let inbox := n.db.inbox.updateKey id (fun _ => true) (statusPatch status)
    { n with db := n.db.withInbox inbox }
  | .writeAttempt attempt =>
    { n with attempts := (n.attempts.deleteKey attempt.attemptUuid).insert attempt }
  | .queue op =>
    if delivers op then { n with db := { n.db with queue := exec sha256 n.db.queue op } } else n

end CliAgentOrchestrator.Inbox
