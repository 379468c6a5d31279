import CliAgentOrchestrator.Inbox.Row

/-!
# Callback barriers

A supervisor that dispatches several workers under one label waits for all of them: each
callback is held, and the barrier fires one combined message. A `Database` is the inbox, the
two barrier tables and the delivery queue beside them; `Env` is what an operation reads of the
other tables, of the clock and of the queue's connection.
-/

set_option autoImplicit false

namespace CliAgentOrchestrator.Inbox

open CliAgentOrchestrator.Core Library Queue Wiring

/-- SOURCE: clients/database.py:879-882 -/
inductive BarrierState
  | open
  | firedComplete
  | firedTimeout
  | cancelled
  | digestedRebind
deriving DecidableEq

/-- Exactly one of the two owner columns is set.
SOURCE: clients/database.py:873-878 -/
inductive BarrierOwner
  | mailbox (id : String)
  | terminal (id : String)
deriving DecidableEq

/-- SOURCE: clients/database.py:856-906 -/
structure CallbackBarrier where
  id : Int
  owner : BarrierOwner
  ownerGeneration : Int
  label : String
  state : BarrierState := .open
  closeReason : Option String := none
  timeoutAt : Int
  createdAt : Int
  firedAt : Option Int := none
  combinedMessageId : Option Int := none

/-- SOURCE: clients/database.py:928-931 -/
inductive MemberState
  | awaiting
  | arrived
  | failed
  | gone
deriving DecidableEq

/-- SOURCE: clients/database.py:908-939 -/
structure CallbackBarrierMember where
  id : Int
  barrierId : Int
  memberKey : String
  position : Int
  terminalId : String
  lifecycleGeneration : Int
  state : MemberState := .awaiting
  failureClass : Option String := none
  messageId : Option Int := none
  arrivedAt : Option Int := none

/-- A ghost: one combined message, by the rows it was rendered from and the callbacks bound so
far. -/
structure Firing where
  barrier : CallbackBarrier
  members : List CallbackBarrierMember
  inbox : Table InboxRow.id
  callbacks : List (Int × String × String)
  firedAt : Int

/-- The tables a routed message goes through. The last three are ghosts: the callbacks that were
bound, each by barrier, member key and text, and the combined messages that were inserted into
the inbox and into the queue. -/
structure Database where
  inbox : Table InboxRow.id
  barriers : Table CallbackBarrier.id
  members : Table CallbackBarrierMember.id
  queue : Store
  callbacks : List (Int × String × String)
  combined : List Firing
  sent : List Firing

/-- The database after a statement on the member table. -/
def Database.withMembers (db : Database) (members : Table CallbackBarrierMember.id) : Database :=
  { db with members := members }

/-- The database after a statement on the barrier table. -/
def Database.withBarriers (db : Database) (barriers : Table CallbackBarrier.id) : Database :=
  { db with barriers := barriers }

/-- The database after a statement on the inbox. -/
def Database.withInbox (db : Database) (inbox : Table InboxRow.id) : Database :=
  { db with inbox := inbox }

/-- One `terminals` row, as far as routing reads it. -/
structure Terminal where
  lifecycleGeneration : Int
  agentProfile : Option String := none

/-- One `mailboxes` row, as far as routing reads it. -/
structure Mailbox where
  generation : Int
  currentTerminalId : Option String := none

/-- What an operation finds outside these tables. `newUlid` is what the queue's own connection
does for a sender's message: it raises, or mints this id. -/
structure Env where
  terminal : String → Option Terminal
  mailbox : String → Option Mailbox
  mailboxOf : String → Option String
  latestIncarnation : String → Option String
  callerTargets : String → List String
  newUlid : String → Option String
  now : Int

/-- Why routing raised.
SOURCE: clients/database.py:4728-4731, 9512-9531, 9578-9683, 10516-10553 -/
inductive RouteError
  | invalidBarrierLabel
  | invalidBarrierTimeout
  | invalidBarrierMemberKey
  | barrierOwnerNotFound
  | barrierMemberTerminalNotFound
  | barrierMemberKeyInUse
  | ambiguousBarrierMember
  | pendingReceiverGenerationUnavailable
  | unknownMailbox
  | barrierSelectorRequiresExactlyOne
  | barrierOwnerRequired
  | barrierNotFound
  | integrity

/-- An operation that raised, and the queue as it left it. -/
structure Raised where
  error : RouteError
  queue : Store
  sent : List Firing

def Database.raise (db : Database) (error : RouteError) : Raised := ⟨error, db.queue, db.sent⟩

/-- The queue's own connection is not rolled back. -/
def Database.rollback (db : Database) (raised : Raised) : Database :=
  { db with queue := raised.queue, sent := raised.sent }

/-- A combined message was inserted. -/
def Database.record (db : Database) (firing : Firing) (inQueue : Bool) : Database :=
  if inQueue then { db with sent := db.sent ++ [firing] }
  else { db with combined := db.combined ++ [firing] }

/-- A callback was bound to a barrier. -/
def Database.bind (db : Database) (barrierId : Int) (memberKey body : String) : Database :=
  { db with callbacks := db.callbacks ++ [(barrierId, memberKey, body)] }

/-- How many combined messages a barrier has had. -/
def Database.combinedCount (db : Database) (barrierId : Int) : Nat :=
  (db.combined ++ db.sent).countP fun f => f.barrier.id == barrierId

/-! ## Attaching a member -/

/-- SOURCE: clients/database.py:9578-9600 -/
structure DispatchBarrier where
  label : String
  timeoutSeconds : Option Int := none
  memberKey : Option String := none

def callbackBarrierTimeoutSeconds : Int := 1800
def callbackBarrierTimeoutMaxSeconds : Int := 86400

/-- What `str.strip` removes. -/
def isSpace (c : Char) : Bool :=
  let n := c.toNat
  (9 ≤ n && n ≤ 13) || (28 ≤ n && n ≤ 32) || n == 133 || n == 160 || n == 5760
    || (8192 ≤ n && n ≤ 8202) || n == 8232 || n == 8233 || n == 8239 || n == 8287 || n == 12288

def strip (s : String) : String :=
  String.ofList ((s.toList.dropWhile isSpace).reverse.dropWhile isSpace).reverse

/-- SOURCE: clients/database.py:9578-9600 -/
def validateDispatchBarrier (spec : DispatchBarrier) :
    Except RouteError (String × Int × Option String) :=
  let timeout := spec.timeoutSeconds.getD callbackBarrierTimeoutSeconds
  if strip spec.label = "" then .error .invalidBarrierLabel
  else if timeout ≤ 0 ∨ callbackBarrierTimeoutMaxSeconds < timeout then
    .error .invalidBarrierTimeout
  else if spec.memberKey.any (strip · == "") then .error .invalidBarrierMemberKey
  else .ok (spec.label, timeout, spec.memberKey)

/-- The mailbox a terminal publishes for owns its barriers, else the terminal does.
SOURCE: clients/database.py:9607-9623 -/
def barrierOwnerValues (env : Env) (senderId : String) : Except RouteError (BarrierOwner × Int) :=
  match env.terminal senderId with
  | none => .error .barrierOwnerNotFound
  | some terminal =>
    match env.mailboxOf senderId with
    | none => .ok (.terminal senderId, terminal.lifecycleGeneration)
    | some mailboxId =>
      match env.mailbox mailboxId with
      | none => .error .integrity
      | some mailbox => .ok (.mailbox mailboxId, mailbox.generation)

/-- SOURCE: clients/database.py:9626-9634 -/
def openBarrierFor (db : Database) (owner : BarrierOwner) (generation : Int) (label : String) :
    Option CallbackBarrier :=
  db.barriers.rows.find? fun b =>
    b.state == .open && b.ownerGeneration == generation && b.label == label && b.owner == owner

/-- The open barrier of this owner and label, inserted if there is none.
SOURCE: clients/database.py:9649-9663 -/
def ensureBarrier (env : Env) (db : Database) (owner : BarrierOwner) (generation : Int)
    (label : String) (timeout : Int) : CallbackBarrier × Database :=
  match openBarrierFor db owner generation label with
  | some barrier => (barrier, db)
  | none =>
    let barrier : CallbackBarrier :=
      { id := db.barriers.nextKey, owner := owner, ownerGeneration := generation, label := label
        timeoutAt := env.now + seconds timeout, createdAt := env.now }
    (barrier, db.withBarriers (db.barriers.insert barrier))

/-- The failed member a dispatch takes over, if any.
SOURCE: clients/database.py:9668-9684 -/
def memberToRearm (db : Database) (barrierId : Int) (memberKey : Option String) :
    Except RouteError (Option CallbackBarrierMember) :=
  let failed := db.members.select fun m => m.barrierId == barrierId && m.state == .failed
  match memberKey with
  | some key =>
    match failed.find? (fun m => m.memberKey == key) with
    | some member => .ok (some member)
    | none =>
      if db.members.rows.any (fun m => m.barrierId == barrierId && m.memberKey == key) then
        .error .barrierMemberKeyInUse
      else .ok none
  | none =>
    match failed with
    | [] => .ok none
    | [member] => .ok (some member)
    | _ => .error .ambiguousBarrierMember

/-- SET terminal_id, lifecycle_generation, state = 'AWAITING', the rest cleared.
SOURCE: clients/database.py:9685-9692 -/
def rearmPatch (terminalId : String) (generation : Int) : Patch CallbackBarrierMember.id where
  apply m := { m with
    terminalId := terminalId, lifecycleGeneration := generation, state := .awaiting
    failureClass := none, messageId := none, arrivedAt := none }
  keeps _ := rfl

/-- The name itself, then `name-2`, `name-3`, and so on, until one is free.
SOURCE: clients/database.py:9694-9706 -/
def freshMemberKey (taken : List String) (base : String) : String :=
  let names := base :: (List.range taken.length).map fun i => base ++ "-" ++ toString (i + 2)
  (names.find? fun name => !taken.contains name).getD base

/-- The first of the three that is not empty, stripped.
SOURCE: clients/database.py:9695 -/
def memberKeyBase (profileName agentProfile : Option String) (terminalId : String) : String :=
  let name := ([profileName.getD "", agentProfile.getD ""].find? (· != "")).getD terminalId
  if strip name = "" then terminalId else strip name

/-- One new member, behind the others. The two unique constraints are the table's.
SOURCE: clients/database.py:9694-9722 -/
def addMember (db : Database) (barrierId : Int) (memberKey : String) (terminalId : String)
    (generation : Int) : Except RouteError Database :=
  let mine := db.members.select fun m => m.barrierId == barrierId
  if mine.any (fun m => m.memberKey == memberKey
      || (m.terminalId == terminalId && m.lifecycleGeneration == generation)) then
    .error .integrity
  else
    let member : CallbackBarrierMember :=
      { id := db.members.nextKey, barrierId := barrierId, memberKey := memberKey
        position := ((mine.map CallbackBarrierMember.position).max?).getD (-1) + 1
        terminalId := terminalId, lifecycleGeneration := generation }
    .ok (db.withMembers (db.members.insert member))

/-- Create or reuse a barrier and attach or re-arm one terminal incarnation.
SOURCE: clients/database.py:9637-9722 -/
def attachDispatchBarrier (env : Env) (db : Database) (senderId terminalId : String)
    (spec : DispatchBarrier) (profileName : Option String) : Except RouteError Database :=
  match validateDispatchBarrier spec with
  | .error e => .error e
  | .ok (label, timeout, memberKey) =>
    match barrierOwnerValues env senderId with
    | .error e => .error e
    | .ok (owner, generation) =>
      let (barrier, db) := ensureBarrier env db owner generation label timeout
      match env.terminal terminalId with
      | none => .error .barrierMemberTerminalNotFound
      | some terminal =>
        match memberToRearm db barrier.id memberKey with
        | .error e => .error e
        | .ok (some member) =>
          .ok (db.withMembers (db.members.updateKey member.id (fun _ => true)
            (rearmPatch terminalId terminal.lifecycleGeneration)))
        | .ok none =>
          let taken := (db.members.select fun m => m.barrierId == barrier.id).map
            CallbackBarrierMember.memberKey
          addMember db barrier.id
            (memberKey.getD
              (freshMemberKey taken (memberKeyBase profileName terminal.agentProfile terminalId)))
            terminalId terminal.lifecycleGeneration

/-! ## Whose callback a message is -/

/-- SOURCE: clients/database.py:9501-9509 -/
def barrierInternalPrefixes : List String :=
  ["watchdog:", "message-trace:", "mailbox-digest", "compact-digest", "cao-digest:", "barrier:",
    "barrier-alert:"]

def isBarrierInternal (senderId : String) : Bool :=
  barrierInternalPrefixes.any fun p => p.toList.isPrefixOf senderId.toList

/-- SOURCE: clients/database.py:9725-9730 -/
def ownerMatchesReceiver (barrier : CallbackBarrier) (receiverId : String)
    (logicalReceiverId : Option String) : Bool :=
  match barrier.owner with
  | .mailbox id => logicalReceiverId == some id
  | .terminal id => id == receiverId && logicalReceiverId.isNone

/-- The newest barrier, open or closed as asked, that the sender's incarnation is a member of
and the receiver owns.
SOURCE: clients/database.py:9733-9766 -/
def barrierMemberForCallback (env : Env) (db : Database) (senderId receiverId : String)
    (logicalReceiverId : Option String) (openOnly : Bool) :
    Option (CallbackBarrier × CallbackBarrierMember) :=
  match env.terminal senderId with
  | none => none
  | some terminal =>
    (db.barriers.rows.insertionSort fun a b => b.createdAt ≤ a.createdAt).findSome? fun barrier =>
      if (barrier.state == .open) == openOnly
          && ownerMatchesReceiver barrier receiverId logicalReceiverId then
        (db.members.rows.find? fun m => m.barrierId == barrier.id && m.terminalId == senderId
          && m.lifecycleGeneration == terminal.lifecycleGeneration).map fun m => (barrier, m)
      else none

/-- The match is a barrier of the table in the state asked for, and a member of it. -/
theorem barrierMemberForCallback_spec {env : Env} {db : Database} {senderId receiverId : String}
    {logicalReceiverId : Option String} {openOnly : Bool} {barrier : CallbackBarrier}
    {member : CallbackBarrierMember}
    (h : barrierMemberForCallback env db senderId receiverId logicalReceiverId openOnly =
      some (barrier, member)) :
    db.barriers.get barrier.id = some barrier ∧ db.members.get member.id = some member ∧
      member.barrierId = barrier.id ∧ (barrier.state == .open) = openOnly ∧
      ownerMatchesReceiver barrier receiverId logicalReceiverId = true := by
  unfold barrierMemberForCallback at h
  split at h
  · cases h
  · next terminal _ =>
    obtain ⟨b, hb, hfound⟩ := List.exists_of_findSome?_eq_some h
    rw [List.mem_insertionSort] at hb
    split at hfound
    · next hcond =>
      rw [Bool.and_eq_true] at hcond
      obtain ⟨m, hm, hpair⟩ := Option.map_eq_some_iff.mp hfound
      cases hpair
      have hmem := List.mem_of_find?_eq_some hm
      have hprop := List.find?_some hm
      simp only [Bool.and_eq_true, beq_iff_eq] at hprop
      exact ⟨(db.barriers.mem_rows_iff barrier).mp hb, (db.members.mem_rows_iff member).mp hmem,
        hprop.1.1, eq_of_beq hcond.1, hcond.2⟩
    · cases hfound

end CliAgentOrchestrator.Inbox
