import CliAgentOrchestrator.Inbox.Route
import CliAgentOrchestrator.Wiring.Mailroom

/-!
# The operations on barriers

Beside the callbacks themselves, a barrier is closed or its members are moved by a timeout
sweep, a cancel, a terminal that goes away, a quota escalation, the reaping of a terminal and
the publication of a supervisor. Each is one transaction; `step` takes them, the adoption of
inbox rows and the queue's own operations in any order.
-/

set_option autoImplicit false

namespace CliAgentOrchestrator.Inbox

open CliAgentOrchestrator.Core Library Queue Wiring

/-! ## Timeout and cancel -/

/-- The body of the sweep: completion outranks the timeout.
SOURCE: clients/database.py:10721-10748 -/
def fireDueBarrier (sha256 : String → String) (env : Env) (now : Int) (db : Database)
    (barrier : CallbackBarrier) : Except Raised Database :=
  match maybeFireCompletedBarrier sha256 env db barrier with
  | .error raised => .error raised
  | .ok (some _, db₁) => .ok db₁
  | .ok (none, db₁) =>
    if barrier.timeoutAt ≤ now then
      (fireOpenBarrier sha256 env db₁ barrier .firedTimeout "timeout" now).map Prod.snd
    else .ok db₁

/-- What raises is rolled back to the savepoint.
SOURCE: clients/database.py:10721-10748 -/
def sweepBarrier (sha256 : String → String) (env : Env) (now : Int) (db : Database)
    (barrier : CallbackBarrier) : Database :=
  match fireDueBarrier sha256 env now db barrier with
  | .error raised => db.rollback raised
  | .ok db' => db'

/-- The open barriers, the most overdue first. -/
def openBarriers (db : Database) : List CallbackBarrier :=
  (db.barriers.select fun b => b.state == .open).insertionSort
    fun a b => a.timeoutAt < b.timeoutAt ∨ (a.timeoutAt = b.timeoutAt ∧ a.id ≤ b.id)

/-- SOURCE: clients/database.py:10709-10749 -/
def fireDueBarriers (sha256 : String → String) (env : Env) (now : Int) (db : Database) :
    Database :=
  (openBarriers db).foldl (sweepBarrier sha256 env now) db

/-- SOURCE: clients/database.py:10516-10553 -/
def selectCallbackBarrier (env : Env) (db : Database) (barrierId : Option Int)
    (barrierLabel ownerId : Option String) : Except RouteError CallbackBarrier :=
  match barrierId, barrierLabel with
  | some id, none =>
    match db.barriers.get id, ownerId with
    | none, _ => .error .barrierNotFound
    | some barrier, none => .ok barrier
    | some barrier, some owner =>
      match barrierOwnerValues env owner with
      | .error e => .error e
      | .ok (owner, generation) =>
        if barrier.ownerGeneration = generation ∧ barrier.owner = owner then .ok barrier
        else .error .barrierNotFound
  | none, some label =>
    match ownerId with
    | none => .error .barrierOwnerRequired
    | some owner =>
      match barrierOwnerValues env owner with
      | .error e => .error e
      | .ok (owner, generation) =>
        match ((db.barriers.select fun b => b.label == label && b.ownerGeneration == generation
            && b.owner == owner).insertionSort fun a b => b.createdAt ≤ a.createdAt).head? with
        | none => .error .barrierNotFound
        | some barrier => .ok barrier
  | _, _ => .error .barrierSelectorRequiresExactlyOne

/-- A selected barrier is one of the table. -/
theorem selectCallbackBarrier_spec {env : Env} {db : Database} {barrierId : Option Int}
    {barrierLabel ownerId : Option String} {barrier : CallbackBarrier}
    (h : selectCallbackBarrier env db barrierId barrierLabel ownerId = .ok barrier) :
    db.barriers.get barrier.id = some barrier := by
  unfold selectCallbackBarrier at h
  split at h
  · split at h
    · cases h
    · next found hget =>
      cases h
      rw [Table.key_of_get hget]
      exact hget
    · next found owner hget =>
      split at h
      · cases h
      · split at h
        · cases h
          rw [Table.key_of_get hget]
          exact hget
        · cases h
  · split at h
    · cases h
    · split at h
      · cases h
      · split at h
        · cases h
        · next found hhead =>
          cases h
          have hmem := List.mem_of_mem_head? hhead
          rw [List.mem_insertionSort, Table.mem_select_iff] at hmem
          exact hmem.1
  · cases h

/-- The held callbacks are released one by one.
SOURCE: clients/database.py:10613-10706 -/
def cancelCallbackBarrier (env : Env) (db : Database) (barrierId : Option Int)
    (barrierLabel ownerId : Option String) : Except Raised Database :=
  match selectCallbackBarrier env db barrierId barrierLabel ownerId with
  | .error e => .error (db.raise e)
  | .ok barrier =>
    if barrier.state = .open then
      .ok (((db.releaseHeld barrier.id (statusPatch .pending)).closeBarrier barrier.id .cancelled
        "cancelled" env.now).failAwaiting barrier.id "barrier_closed_cancel")
    else .ok db

/-- SOURCE: clients/database.py:9907-9923 -/
def closeOwnedBarriers (env : Env) (db : Database) (terminalId : String) : Database :=
  (db.barriers.select fun b => b.state == .open && b.owner == .terminal terminalId).foldl
    (fun db barrier => closeBarrierOwnerGone db barrier env.now) db

/-! ## A member that goes away -/

/-- SET state = 'GONE', failure_class = 'terminal_gone'. -/
def gonePatch : Patch CallbackBarrierMember.id where
  apply m := { m with state := .gone, failureClass := some "terminal_gone" }
  keeps _ := rfl

/-- The members of open barriers that wait for the terminal, or have failed.
SOURCE: clients/database.py:10754-10766 -/
def goneRows (db : Database) (terminalId : String) :
    List (CallbackBarrier × CallbackBarrierMember) :=
  (db.members.select fun m => m.terminalId == terminalId
    && (m.state == .awaiting || m.state == .failed)).filterMap fun m =>
      ((db.barriers.get m.barrierId).filter fun b => b.state == .open).map fun b => (b, m)

/-- SOURCE: clients/database.py:10767-10773 -/
def markMembersGone (sha256 : String → String) (env : Env) :
    List (CallbackBarrier × CallbackBarrierMember) → Database → Except Raised Database
  | [], db => .ok db
  | (barrier, member) :: rest, db =>
    let db₁ := db.withMembers (db.members.updateKey member.id (fun _ => true) gonePatch)
    match maybeFireCompletedBarrier sha256 env db₁ barrier with
    | .error raised => .error raised
    | .ok (_, db₂) => markMembersGone sha256 env rest db₂

/-- SOURCE: clients/database.py:10752-10773 -/
def markBarrierMemberGone (sha256 : String → String) (env : Env) (db : Database)
    (terminalId : String) : Except Raised Database :=
  markMembersGone sha256 env (goneRows db terminalId) db

/-! ## Escalation -/

/-- SOURCE: clients/database.py:4724-4746 -/
def resolveInboxReceiver (env : Env) (receiverId : String) :
    Except RouteError (String × Option String) :=
  if "mb_".toList.isPrefixOf receiverId.toList then
    match env.mailbox receiverId with
    | none => .error .unknownMailbox
    | some mailbox =>
      match mailbox.currentTerminalId with
      | some cache => .ok (cache, some receiverId)
      | none => .ok ((env.latestIncarnation receiverId).getD receiverId, some receiverId)
  else .ok (receiverId, env.mailboxOf receiverId)

/-- SET failure_class = ?, and state = 'FAILED' for a quota.
SOURCE: clients/database.py:10798-10800 -/
def escalatePatch (idleReason : Option String) : Patch CallbackBarrierMember.id where
  apply m := { m with
    failureClass := idleReason
    state := if idleReason = some "quota_or_auth" then .failed else m.state }
  keeps _ := rfl

/-- The notice of a member that needs recovery or is idle.
SOURCE: clients/database.py:10801-10816 -/
def escalationSend (barrier : CallbackBarrier) (member : CallbackBarrierMember)
    (terminalId receiverId : String) (logicalReceiverId : Option String) (message : String)
    (idleReason : Option String) : Send :=
  if idleReason = some "quota_or_auth" then
    { senderId := "barrier-alert:" ++ toString barrier.id
      receiverId := receiverId
      logicalReceiverId := logicalReceiverId
      message := "[callback barrier " ++ barrier.label ++ "] member " ++ member.memberKey ++ " (" ++
        terminalId ++ ") requires recovery: quota_or_auth" }
  else
    { senderId := "watchdog:" ++ terminalId
      receiverId := receiverId
      logicalReceiverId := logicalReceiverId
      message := message }

/-- SOURCE: clients/database.py:10776-10817 -/
def insertBarrierEscalationMessage (sha256 contentHash : String → String) (env : Env)
    (db : Database) (terminalId callerId message : String) (idleReason : Option String) :
    Except Raised Database :=
  match resolveInboxReceiver env callerId with
  | .error e => .error (db.raise e)
  | .ok (receiverId, logicalReceiverId) =>
    match barrierMemberForCallback env db terminalId receiverId logicalReceiverId true with
    | none => .ok db
    | some (barrier, member) =>
      if idleReason = some "quota_or_auth" ∧ member.state = .failed
          ∧ member.failureClass = idleReason then .ok db
      else
        let db₁ := db.withMembers (db.members.updateKey member.id (fun _ => true)
          (escalatePatch idleReason))
        match insertRoutedInboxRow sha256 contentHash env db₁
            (escalationSend barrier member terminalId receiverId logicalReceiverId message
              idleReason) with
        | .error raised => .error raised
        | .ok (_, db₂) => .ok db₂

/-! ## Reaping a terminal, publishing a supervisor -/

/-- Where the held messages of a reaped terminal go. -/
structure ReapTarget where
  receiverId : String
  logicalReceiverId : Option String
  generation : Int

/-- SOURCE: clients/database.py:8056-8076 -/
def reapPatch (releasedFrom : String) (target : Option ReapTarget) : Patch InboxRow.id where
  apply row :=
    match target with
    | none => { row with message := releasedFrom ++ row.message, status := .cancelled }
    | some t => { row with
        message := releasedFrom ++ row.message, receiverId := t.receiverId
        logicalReceiverId := t.logicalReceiverId, enqueueGeneration := some t.generation
        status := .pending }
  keeps row := by cases target <;> rfl

/-- Close one owned barrier by hand: its held callbacks are released.
SOURCE: clients/database.py:8091-8115 -/
def closeOwnedBarrier (now : Int) (db : Database) (barrier : CallbackBarrier) : Database :=
  (db.releaseHeld barrier.id (statusPatch .pending)).closeBarrier barrier.id .cancelled
    "owner_gone" now

/-- No mailbox has the terminal as its current one any more.
SOURCE: clients/database.py:8117-8121 -/
def Env.withoutAuthority (env : Env) (terminalId : String) : Env :=
  { env with
    mailbox := fun id => (env.mailbox id).map fun m =>
      if m.currentTerminalId = some terminalId then { m with currentTerminalId := none } else m }

/-- The barrier part of reaping. The member sweep reads the barrier table before the closings
above it are flushed, so it still finds the owned barriers open.
SOURCE: clients/database.py:8018-8123 -/
def deleteTerminalAndWarmIntent (sha256 : String → String) (env : Env) (db : Database)
    (terminalId : String) (target : Option ReapTarget) : Except Raised Database :=
  let profile := ((env.terminal terminalId).bind Terminal.agentProfile).getD ""
  let releasedFrom := "[released from " ++ terminalId ++ " (" ++
    (if profile = "" then "unknown" else profile) ++ ") — terminal reaped]\n"
  let db₁ := db.withInbox (db.inbox.update
    (fun row => row.receiverId == terminalId && row.status == .held) (reapPatch releasedFrom target))
  let db₂ := (db.barriers.select fun b => b.state == .open
    && b.owner == .terminal terminalId).foldl (closeOwnedBarrier env.now) db₁
  markMembersGone sha256 (env.withoutAuthority terminalId) (goneRows db terminalId) db₂

/-- The mailbox's barriers of earlier generations.
SOURCE: services/mailbox_service.py:444-452 -/
def historicalBarriers (db : Database) (mailboxId : String) (generation : Int) :
    List CallbackBarrier :=
  db.barriers.select fun b => b.owner == .mailbox mailboxId && b.ownerGeneration != generation
    && b.state == .open

/-- The rows a publication parks: the mailbox's pending ones and what its earlier barriers hold.
SOURCE: services/mailbox_service.py:415-427, 453-468 -/
def parkedBy (db : Database) (mailboxId : String) (generation : Int) (addresses : List String)
    (row : InboxRow) : Bool :=
  (row.status == .pending && (row.logicalReceiverId == some mailboxId
    || (row.logicalReceiverId.isNone && addresses.contains row.receiverId)))
  || (row.status == .held && (historicalBarriers db mailboxId generation).any
    fun b => row.barrierId == some b.id)

/-- SET status = 'parked', digested_into = NULL.
SOURCE: services/mailbox_service.py:235-252 -/
def parkPatch : Patch InboxRow.id where
  apply row := { row with status := .parked, digestedInto := none }
  keeps _ := rfl

/-- The barrier and inbox part of a publication.
SOURCE: services/mailbox_service.py:415-468 -/
def publishSupervisorIncarnation (env : Env) (db : Database) (mailboxId : String)
    (generation : Int) (addresses : List String) : Database :=
  let db₁ := (historicalBarriers db mailboxId generation).foldl
    (fun db b => db.closeBarrier b.id .digestedRebind "supervisor_rebind" env.now) db
  db₁.withInbox (db₁.inbox.update (parkedBy db mailboxId generation addresses) parkPatch)

/-! ## The machine -/

/-- The tables and the adoption scans in flight. -/
structure Office where
  db : Database
  scanned : List Int

/-- One transaction of one party. What the queue's own operations enqueue is a notice. -/
inductive Event
  | send (env : Env) (send : Send)
  | attach (env : Env) (senderId terminalId : String) (spec : DispatchBarrier)
      (profileName : Option String)
  | memberGone (env : Env) (terminalId : String)
  | escalate (env : Env) (terminalId callerId message : String) (idleReason : Option String)
  | fireDue (env : Env) (now : Int)
  | cancel (env : Env) (barrierId : Option Int) (barrierLabel ownerId : Option String)
  | closeOwned (env : Env) (terminalId : String)
  | reap (env : Env) (terminalId : String) (target : Option ReapTarget)
  | publish (env : Env) (mailboxId : String) (generation : Int) (addresses : List String)
  | scan (id : Int)
  | adopt (id : Int) (newUlid : String) (now : Int)
  | retire (id : Int)
  | notice (row : DeadRow) (newUlid : String) (now : Int)
  | queue (op : Op)

/-- No two members of a barrier are the same terminal incarnation.
SOURCE: clients/database.py:933-938 -/
def bindingsUnique (members : Table CallbackBarrierMember.id) : Bool :=
  decide (members.rows.map fun m => (m.barrierId, m.terminalId, m.lifecycleGeneration)).Nodup

/-- What comes of a transaction once the constraint on the bindings is checked. -/
def checked (result : Except Raised Database) : Except Raised Database :=
  match result with
  | .error raised => .error raised
  | .ok db' => if bindingsUnique db'.members then .ok db' else .error (db'.raise .integrity)

/-- The end of a transaction: a commit or a rollback. -/
def transact (db : Database) (result : Except Raised Database) : Database :=
  match checked result with
  | .error raised => db.rollback raised
  | .ok db' => db'

/-- The draft an adoption of a scanned row hands the queue. -/
def adoptedDraft (contentHash : String → String) (inbox : Table InboxRow.id) (scanned : List Int)
    (id : Int) : Option EnqueueDraft :=
  ((inbox.get id).filter fun _ => scanned.contains id).bind fun row =>
    factDraft (adoptedKey id) (adoptionFact contentHash row) id

/-- The operations that are one transaction. -/
def outcome (sha256 contentHash : String → String) (db : Database) :
    Event → Option (Except Raised Database)
  | .send env send => some ((insertRoutedInboxRow sha256 contentHash env db send).map Prod.snd)
  | .attach env senderId terminalId spec profileName =>
    some ((attachDispatchBarrier env db senderId terminalId spec profileName).mapError db.raise)
  | .memberGone env terminalId => some (markBarrierMemberGone sha256 env db terminalId)
  | .escalate env terminalId callerId message idleReason =>
    some (insertBarrierEscalationMessage sha256 contentHash env db terminalId callerId message
      idleReason)
  | .cancel env barrierId barrierLabel ownerId =>
    some (cancelCallbackBarrier env db barrierId barrierLabel ownerId)
  | .reap env terminalId target =>
    some (deleteTerminalAndWarmIntent sha256 env db terminalId target)
  | .closeOwned env terminalId => some (.ok (closeOwnedBarriers env db terminalId))
  | .publish env mailboxId generation addresses =>
    some (.ok (publishSupervisorIncarnation env db mailboxId generation addresses))
  | _ => none

/-- The tables an event leaves behind. -/
def apply (sha256 contentHash : String → String) (scanned : List Int) (db : Database)
    (event : Event) : Database :=
  match outcome sha256 contentHash db event with
  | some result => transact db result
  | none =>
    match event with
    | .fireDue env now => fireDueBarriers sha256 env now db
    | .adopt id newUlid now =>
      match adoptedDraft contentHash db.inbox scanned id with
      | none => db
      | some draft => { db with queue := exec sha256 db.queue (.enqueue draft newUlid now) }
    | .retire id =>
      if (db.queue.getByIdempotencyKey (adoptedKey id)).isSome then
        db.withInbox (retireRow db.inbox id)
      else db
    | .notice row newUlid now =>
      match noticeDraft row with
      | none => db
      | some draft => { db with queue := exec sha256 db.queue (.enqueue draft newUlid now) }
    | .queue op =>
      if op.minted = none then { db with queue := exec sha256 db.queue op } else db
    | _ => db

/-- An adoption enqueues the draft of its row, or does nothing. -/
theorem apply_adopt (sha256 contentHash : String → String) (scanned : List Int) (db : Database)
    (id : Int) (newUlid : String) (now : Int) :
    apply sha256 contentHash scanned db (.adopt id newUlid now) = db ∨
      ∃ draft, adoptedDraft contentHash db.inbox scanned id = some draft ∧
        apply sha256 contentHash scanned db (.adopt id newUlid now) =
          { db with queue := exec sha256 db.queue (.enqueue draft newUlid now) } := by
  simp only [apply, outcome]
  split
  · exact .inl rfl
  · next draft hdraft => exact .inr ⟨draft, hdraft, rfl⟩

/-- A notice is enqueued, or nothing is. -/
theorem apply_notice (sha256 contentHash : String → String) (scanned : List Int) (db : Database)
    (row : DeadRow) (newUlid : String) (now : Int) :
    apply sha256 contentHash scanned db (.notice row newUlid now) = db ∨
      ∃ draft, noticeDraft row = some draft ∧
        apply sha256 contentHash scanned db (.notice row newUlid now) =
          { db with queue := exec sha256 db.queue (.enqueue draft newUlid now) } := by
  simp only [apply, outcome]
  split
  · exact .inl rfl
  · next draft hdraft => exact .inr ⟨draft, hdraft, rfl⟩

/-- One event. A scan picks up a pending row.
SOURCE: clients/database.py:11167-11360 -/
def step (sha256 contentHash : String → String) (o : Office) (event : Event) : Office where
  db := apply sha256 contentHash o.scanned o.db event
  scanned := match event with
    | .scan id =>
      if (o.db.inbox.get id).any (fun row => row.status == .pending) then id :: o.scanned
      else o.scanned
    | _ => o.scanned

/-- Nothing sent, no barrier. -/
def Office.start : Office :=
  ⟨⟨Table.empty, Table.empty, Table.empty, Store.empty, [], [], []⟩, []⟩

end CliAgentOrchestrator.Inbox
