import CliAgentOrchestrator.Inbox.Barrier
import CliAgentOrchestrator.Wiring.WriteThrough

/-!
# Routing a message

`_insert_routed_inbox_row`, the one place a message enters by: barrier association, duplicate
window, supersession, then the queue or, where the queue cannot be written, the inbox. A
barrier that becomes complete fires from here, with a combined message rendered out of the
inbox.

What raises is rolled back, but for what the queue took on its own connection.
-/

set_option autoImplicit false

namespace CliAgentOrchestrator.Inbox

open CliAgentOrchestrator.Core Library Queue Wiring

/-! ## Placing a row -/

/-- One write-through that nobody interrupts: the id and the queue row it returned, or none
where the caller has to insert.
SOURCE: app/delivery/wiring.py:144-214 -/
def writeThrough (sha256 : String → String) (s : Store) (inboxMax : Option Int)
    (fact : LegacyEnqueue) (newUlid : Option String) (now : Int) : Option (Int × String) × Store :=
  match newUlid with
  | none => (none, s)
  | some ulid =>
    match windowCheck s fact now with
    | .suppressed id msgId => (some (id, msgId), s)
    | _ =>
      match enqueueFact sha256 s fact (nextSurrogateId s inboxMax) ulid now with
      | (.enqueued id msgId, s') => (some (id, msgId), s')
      | (_, s') => (none, s')

/-- What the choke point returns: the handle, and the queue row behind it if there is one. -/
structure Routed where
  id : Int
  msgId : Option String

/-- The queue first, the inbox where the queue did not take the row.
SOURCE: clients/database.py:10419-10480 -/
def placeRow (sha256 : String → String) (env : Env) (db : Database) (row : InboxRow) :
    Routed × Database :=
  match writeThrough sha256 db.queue (maxId db.inbox) (writeThroughFact row)
      (env.newUlid row.senderId) env.now with
  | (some (id, msgId), queue) => (⟨id, some msgId⟩, { db with queue := queue })
  | (none, queue) =>
    (⟨nextId db.inbox, none⟩, { db with queue := queue, inbox := insertRow db.inbox row })

/-- The generation of the mailbox or of the terminal.
SOURCE: clients/database.py:9512-9525 -/
def receiverGeneration (env : Env) (row : InboxRow) : Option Int :=
  match row.logicalReceiverId with
  | some logical =>
    if logical = "" then (env.terminal row.receiverId).map Terminal.lifecycleGeneration
    else (env.mailbox logical).map Mailbox.generation
  | none => (env.terminal row.receiverId).map Terminal.lifecycleGeneration

/-- SOURCE: clients/database.py:9512-9531 -/
def stampEnqueueGeneration (env : Env) (row : InboxRow) : Except RouteError InboxRow :=
  if row.status = .pending ∧ receiverGeneration env row = none then
    .error .pendingReceiverGenerationUnavailable
  else .ok { row with enqueueGeneration := receiverGeneration env row }

/-- The mailbox where one is named, else the terminal. -/
def sameReceiver (row x : InboxRow) : Bool :=
  match row.logicalReceiverId with
  | some logical => x.logicalReceiverId == some logical
  | none => x.receiverId == row.receiverId

/-- The WHERE clause of the supersession.
SOURCE: clients/database.py:10370-10400 -/
def supersededBy (row x : InboxRow) : Bool :=
  row.supersedeKey.isSome && sameReceiver row x && x.supersedeKey == row.supersedeKey
    && (x.status == .pending || x.status == .held)

/-- SOURCE: clients/database.py:10362-10396 -/
def supersede (db : Database) (row : InboxRow) : Database :=
  db.withInbox (db.inbox.update (supersededBy row) (statusPatch .superseded))

/-- Everything after the barrier association and the duplicate window.
SOURCE: clients/database.py:10339-10480 -/
def insertUnbound (sha256 : String → String) (env : Env) (db : Database) (row : InboxRow) :
    Except Raised (Routed × Database) :=
  match stampEnqueueGeneration env row with
  | .error e => .error (db.raise e)
  | .ok row => .ok (placeRow sha256 env (supersede db row) row)

/-! ## The combined message -/

/-- Whole seconds of a span, none negative. -/
def wholeSeconds (span : Int) : Nat := span.toNat / 1000000

/-- The longest prefix of at most `n` bytes. -/
def takeBytes : Nat → List Char → List Char
  | _, [] => []
  | n, c :: cs => if c.utf8Size ≤ n then c :: takeBytes (n - c.utf8Size) cs else []

def byteLength (s : String) : Nat := (s.toList.map Char.utf8Size).sum

/-- SOURCE: clients/database.py:9769 -/
def barrierMessageLimit : Nat := 16 * 1024

/-- SOURCE: clients/database.py:9769-9783 -/
def truncateBarrierMessage (body : String) (messageIds : List Int) : String :=
  if byteLength body ≤ barrierMessageLimit then body
  else
    let marker := "\n[truncated; full callback bodies remain in DIGESTED message ids " ++
      String.intercalate "," (messageIds.map toString) ++ "; use list_messages/message trace]\n"
    String.ofList (takeBytes (barrierMessageLimit - byteLength marker) body.toList) ++ marker

/-- The inbox rows bound to one member, in order of arrival. -/
def memberRows (inbox : Table InboxRow.id) (barrierId : Int) (memberKey : String) :
    List InboxRow :=
  (inbox.select fun row => row.barrierId == some barrierId
    && row.barrierMemberKey == some memberKey).insertionSort
      fun a b => a.createdAt < b.createdAt ∨ (a.createdAt = b.createdAt ∧ a.id ≤ b.id)

/-- The lines of one member: its callbacks, or why there are none.
SOURCE: clients/database.py:9814-9821 -/
def memberBody (rows : List InboxRow) (member : CallbackBarrierMember) : List String :=
  if rows ≠ [] then rows.map InboxRow.message
  else
    match member.state with
    | .failed => ["[FAILED: " ++ failureText member.failureClass ++ "]"]
    | .gone => ["[GONE: terminal unavailable]"]
    | _ => ["[MISSING: no callback before barrier close]"]
where
  failureText : Option String → String
    | some text => if text = "" then "unknown" else text
    | none => "unknown"

/-- SOURCE: clients/database.py:9796-9822 -/
def memberSection (inbox : Table InboxRow.id) (barrier : CallbackBarrier) (firedAt : Int)
    (member : CallbackBarrierMember) : List String :=
  let received := wholeSeconds (member.arrivedAt.getD firedAt - barrier.createdAt)
  ["--- BEGIN " ++ member.memberKey ++ " (terminal " ++ member.terminalId ++ ", received +" ++
    toString received ++ "s) ---"] ++
  memberBody (memberRows inbox barrier.id member.memberKey) member ++
  ["--- END " ++ member.memberKey ++ " ---"]

/-- SOURCE: clients/database.py:9787-9793 -/
def barrierHeader (barrier : CallbackBarrier) (members : List CallbackBarrierMember)
    (firedAt : Int) : String :=
  let arrived := members.countP fun m => m.state == .arrived
  "[callback barrier " ++ (if members.all (fun m => m.state == .arrived) then "COMPLETE"
    else "PARTIAL") ++ "] " ++ barrier.label ++ " — " ++ toString arrived ++ "/" ++
    toString members.length ++ " in " ++ toString (wholeSeconds (firedAt - barrier.createdAt)) ++ "s"

/-- The lines before they are joined and cut. -/
def barrierLines (inbox : Table InboxRow.id) (barrier : CallbackBarrier)
    (members : List CallbackBarrierMember) (firedAt : Int) : List String :=
  barrierHeader barrier members firedAt :: members.flatMap (memberSection inbox barrier firedAt)

/-- SOURCE: clients/database.py:9786-9823 -/
def renderCallbackBarrier (inbox : Table InboxRow.id) (barrier : CallbackBarrier)
    (members : List CallbackBarrierMember) (firedAt : Int) : String :=
  truncateBarrierMessage (String.intercalate "\n" (barrierLines inbox barrier members firedAt))
    (members.flatMap fun m => (memberRows inbox barrier.id m.memberKey).map InboxRow.id)

/-! ## Closing a barrier -/

/-- SET state, close_reason, fired_at. -/
def closePatch (state : BarrierState) (reason : String) (now : Int) : Patch CallbackBarrier.id where
  apply b := { b with state := state, closeReason := some reason, firedAt := some now }
  keeps _ := rfl

/-- SET combined_message_id = ?. -/
def combinedPatch (id : Int) : Patch CallbackBarrier.id where
  apply b := { b with combinedMessageId := some id }
  keeps _ := rfl

/-- SET state = 'FAILED', failure_class = ?. -/
def failPatch (failureClass : String) : Patch CallbackBarrierMember.id where
  apply m := { m with state := .failed, failureClass := some failureClass }
  keeps _ := rfl

/-- UPDATE … WHERE id = ? AND state = 'OPEN'. -/
def Database.closeBarrier (db : Database) (id : Int) (state : BarrierState) (reason : String)
    (now : Int) : Database :=
  db.withBarriers (db.barriers.updateKey id (fun b => b.state == .open)
    (closePatch state reason now))

/-- A closed barrier waits for nobody: UPDATE … WHERE barrier_id = ? AND state = 'AWAITING'. -/
def Database.failAwaiting (db : Database) (barrierId : Int) (failureClass : String) : Database :=
  db.withMembers (db.members.update (fun m => m.barrierId == barrierId && m.state == .awaiting)
    (failPatch failureClass))

/-- UPDATE inbox … WHERE barrier_id = ? AND status = 'held'. -/
def Database.releaseHeld (db : Database) (barrierId : Int) (f : Patch InboxRow.id) : Database :=
  db.withInbox (db.inbox.update (fun row => row.barrierId == some barrierId && row.status == .held)
    f)

/-- Is the barrier open, in the table? -/
def Database.isOpen (db : Database) (barrierId : Int) : Bool :=
  (db.barriers.get barrierId).any fun b => b.state == .open

/-- SOURCE: clients/database.py:9856-9904 -/
def closeBarrierOwnerGone (db : Database) (barrier : CallbackBarrier) (now : Int) : Database :=
  if db.isOpen barrier.id then
    ((db.closeBarrier barrier.id .cancelled "owner_gone" now).releaseHeld barrier.id
      (statusPatch .cancelled)).failAwaiting barrier.id "barrier_owner_gone"
  else db

/-- SOURCE: clients/database.py:9827-9853 -/
def resolveBarrierOwner (env : Env) (barrier : CallbackBarrier) :
    Option (String × Option String) :=
  match barrier.owner with
  | .mailbox id =>
    match env.mailbox id with
    | none => none
    | some mailbox =>
      match mailbox.currentTerminalId with
      | none => none
      | some terminalId =>
        if (env.terminal terminalId).isSome then some (terminalId, some id) else none
  | .terminal id => if (env.terminal id).isSome then some (id, none) else none

/-- SET status = 'digested', digested_into = ?. -/
def digestPatch (into : Int) : Patch InboxRow.id where
  apply row := { row with status := .digested, digestedInto := some into }
  keeps _ := rfl

/-- The members of a barrier by position. -/
def membersOf (db : Database) (barrierId : Int) : List CallbackBarrierMember :=
  (db.members.select fun m => m.barrierId == barrierId).insertionSort
    fun a b => a.position ≤ b.position

/-- SOURCE: clients/database.py:9973-9980 -/
def combinedSender (barrierId : Int) : String := "barrier:" ++ toString barrierId

/-- What a combined message is rendered from. -/
def Database.firing (db : Database) (barrier : CallbackBarrier) (now : Int) : Firing where
  barrier := barrier
  members := membersOf db barrier.id
  inbox := db.inbox
  callbacks := db.callbacks
  firedAt := now

/-- The combined message, as a row.
SOURCE: clients/database.py:9972-9980 -/
def combinedRow (env : Env) (db : Database) (barrier : CallbackBarrier) (now : Int)
    (owner : String × Option String) : InboxRow where
  senderId := combinedSender barrier.id
  receiverId := owner.1
  logicalReceiverId := owner.2
  message := renderCallbackBarrier db.inbox barrier (membersOf db barrier.id) now
  createdAt := env.now

/-- The held callbacks and the barrier point at the combined message; its id is unique among
the barriers.
SOURCE: clients/database.py:9981-10009, 899-905 -/
def digestInto (db : Database) (barrierId id : Int) : Except Raised Database :=
  if db.barriers.rows.any (fun b => b.id != barrierId && b.combinedMessageId == some id) then
    .error (db.raise .integrity)
  else
    .ok ((db.releaseHeld barrierId (digestPatch id)).withBarriers
      (db.barriers.updateKey barrierId (fun _ => true) (combinedPatch id)))

/-- CAS one OPEN barrier to a single combined message.
SOURCE: clients/database.py:9926-10010 -/
def fireOpenBarrier (sha256 : String → String) (env : Env) (db : Database)
    (barrier : CallbackBarrier) (state : BarrierState) (closeReason : String) (now : Int) :
    Except Raised (Option Int × Database) :=
  match resolveBarrierOwner env barrier with
  | none => .ok (none, closeBarrierOwnerGone db barrier now)
  | some owner =>
    if db.isOpen barrier.id then
      let db₁ := (db.closeBarrier barrier.id state closeReason now).failAwaiting barrier.id
        ("barrier_closed_" ++ closeReason)
      match insertUnbound sha256 env db₁ (combinedRow env db₁ barrier now owner) with
      | .error e => .error e
      | .ok (routed, db₂) =>
        match digestInto (db₂.record (db₁.firing barrier now) routed.msgId.isSome) barrier.id
            routed.id with
        | .error e => .error e
        | .ok db₃ => .ok (some routed.id, db₃)
    else .ok (none, db)

/-- Have all members of the barrier arrived or gone? A barrier without members is not
complete. -/
def barrierComplete (db : Database) (barrierId : Int) : Bool :=
  let states := (db.members.select fun m => m.barrierId == barrierId).map
    CallbackBarrierMember.state
  !states.isEmpty && states.all fun state => state == .arrived || state == .gone

/-- SOURCE: clients/database.py:10012-10027 -/
def maybeFireCompletedBarrier (sha256 : String → String) (env : Env) (db : Database)
    (barrier : CallbackBarrier) : Except Raised (Option Int × Database) :=
  if barrierComplete db barrier.id then
    fireOpenBarrier sha256 env db barrier .firedComplete "complete" env.now
  else .ok (none, db)

/-! ## The choke point -/

/-- The arguments of one insert. -/
structure Send where
  senderId : String
  receiverId : String
  logicalReceiverId : Option String := none
  message : String
  isCallback : Bool := true
  parkWarm : Bool := false
  dispatchBarrier : Option DispatchBarrier := none
  profileName : Option String := none
  createdAt : Option Int := none
  expireAfterS : Option Int := none
  supersedeKey : Option String := none

/-- SET state = 'ARRIVED', message_id, arrived_at, for a member that is waited for.
SOURCE: clients/database.py:10458-10462, 10489-10493 -/
def arrivePatch (messageId now : Int) : Patch CallbackBarrierMember.id where
  apply m := { m with
    state := .arrived, failureClass := none, messageId := some messageId, arrivedAt := some now }
  keeps _ := rfl

/-- The open barrier a message is a callback to.
SOURCE: clients/database.py:10244-10251 -/
def openMatch (env : Env) (db : Database) (send : Send) :
    Option (CallbackBarrier × CallbackBarrierMember) :=
  if send.dispatchBarrier.isNone && !isBarrierInternal send.senderId then
    barrierMemberForCallback env db send.senderId send.receiverId send.logicalReceiverId true
  else none

/-- A callback that comes after its barrier closed says so.
SOURCE: clients/database.py:10258-10266 -/
def routedMessage (env : Env) (db : Database) (send : Send) : String :=
  if send.dispatchBarrier.isNone && !isBarrierInternal send.senderId then
    match barrierMemberForCallback env db send.senderId send.receiverId send.logicalReceiverId
        false with
    | some (barrier, _) =>
      "[late callback after barrier " ++ barrier.label ++ "]\n" ++ send.message
    | none => send.message
  else send.message

/-- The hash of a message that is subject to the duplicate window: a worker's message to its
caller, outside any barrier.
SOURCE: clients/database.py:10273-10289, 10847-10878 -/
def dedupHash (contentHash : String → String) (env : Env) (send : Send) : Option String :=
  if send.isCallback && !send.parkWarm && send.dispatchBarrier.isNone
      && !isBarrierInternal send.senderId
      && (env.callerTargets send.senderId).contains send.receiverId then
    some (contentHash send.message)
  else none

/-- The duplicate window over the inbox.
SOURCE: clients/database.py:10296-10313 -/
def inboxDuplicate (env : Env) (db : Database) (send : Send) (hash : String) : Option InboxRow :=
  db.inbox.rows.find? fun row =>
    row.senderId == send.senderId && row.receiverId == send.receiverId
      && row.callbackDedupKey == some hash
      && decide (env.now - seconds deliveryDedupWindowS ≤ row.createdAt)
      && !row.parkWarm && row.barrierId.isNone

/-- The columns every row of a send has. -/
def sendRow (env : Env) (send : Send) : InboxRow where
  senderId := send.senderId
  receiverId := send.receiverId
  logicalReceiverId := send.logicalReceiverId
  message := send.message
  isCallback := send.isCallback
  parkWarm := send.parkWarm
  expireAfterS := send.expireAfterS
  supersedeKey := send.supersedeKey
  createdAt := send.createdAt.getD env.now

/-- The row of a callback to an open barrier. -/
def boundRow (env : Env) (send : Send) (barrier : CallbackBarrier)
    (member : CallbackBarrierMember) : InboxRow :=
  { sendRow env send with
    status := .held, barrierId := some barrier.id, barrierMemberKey := some member.memberKey }

/-- A callback to an open barrier: held, and the member has arrived.
SOURCE: clients/database.py:10252-10256, 10456-10463, 10487-10494 -/
def insertBound (sha256 : String → String) (env : Env) (db : Database) (send : Send)
    (barrier : CallbackBarrier) (member : CallbackBarrierMember) :
    Except Raised (Routed × Database) :=
  match insertUnbound sha256 env db (boundRow env send barrier member) with
  | .error e => .error e
  | .ok (routed, db₁) =>
    let db₂ := (db₁.bind barrier.id member.memberKey send.message).withMembers
      (db₁.members.updateKey member.id (fun m => m.state == .awaiting)
        (arrivePatch routed.id env.now))
    match maybeFireCompletedBarrier sha256 env db₂ barrier with
    | .error e => .error e
    | .ok (_, db₃) => .ok (routed, db₃)

/-- The row of any other message. -/
def freeRow (env : Env) (db : Database) (send : Send) (hash : Option String) : InboxRow :=
  { sendRow env send with message := routedMessage env db send, callbackDedupKey := hash }

/-- A message that is no callback to an open barrier: the duplicate window, then the insert.
SOURCE: clients/database.py:10271-10480 -/
def insertFree (sha256 contentHash : String → String) (env : Env) (db : Database) (send : Send) :
    Except Raised (Routed × Database) :=
  let hash := dedupHash contentHash env send
  match hash.bind (inboxDuplicate env db send) with
  | some row => .ok (⟨row.id, none⟩, db)
  | none => insertUnbound sha256 env db (freeRow env db send hash)

/-- The single insert choke point.
SOURCE: clients/database.py:10209-10496 -/
def insertRoutedInboxRow (sha256 contentHash : String → String) (env : Env) (db : Database)
    (send : Send) : Except Raised (Routed × Database) :=
  let attached := match send.dispatchBarrier with
    | none => Except.ok db
    | some spec =>
      attachDispatchBarrier env db send.senderId send.receiverId spec send.profileName
  match attached with
  | .error e => .error (db.raise e)
  | .ok db =>
    match openMatch env db send with
    | some (barrier, member) => insertBound sha256 env db send barrier member
    | none => insertFree sha256 contentHash env db send

end CliAgentOrchestrator.Inbox
