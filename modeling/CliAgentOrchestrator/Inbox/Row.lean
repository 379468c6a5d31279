import CliAgentOrchestrator.Wiring.Drafts

/-!
# The legacy inbox

The `inbox` table of `clients/database.py`. Its integer id is a plain INTEGER PRIMARY KEY, one
above the largest id in the table; nothing here looks at the queue's surrogates.
-/

set_option autoImplicit false

namespace CliAgentOrchestrator.Inbox

open CliAgentOrchestrator.Core Library Wiring

/-- SOURCE: models/inbox.py:18-42 -/
inductive MessageStatus
  | pending
  | held
  | delivering
  | delivered
  | deliveryFailed
  | failed
  | digested
  | parked
  | cancelled
  | expired
  | superseded
  | adopted
deriving DecidableEq

/-- One `inbox` row; `isCallback` is `orchestration_type == SEND_MESSAGE`. A row not inserted
yet has id 0.
SOURCE: clients/database.py:735-769 -/
structure InboxRow where
  id : Int := 0
  senderId : String
  receiverId : String
  logicalReceiverId : Option String := none
  message : String
  isCallback : Bool := true
  status : MessageStatus := .pending
  parkWarm : Bool := false
  callbackDedupKey : Option String := none
  digestedInto : Option Int := none
  enqueueGeneration : Option Int := none
  barrierId : Option Int := none
  barrierMemberKey : Option String := none
  expireAfterS : Option Int := none
  supersedeKey : Option String := none
  createdAt : Int := 0

/-- The mailbox where there is one, the terminal otherwise. -/
def InboxRow.effectiveReceiver (row : InboxRow) : String :=
  match row.logicalReceiverId with
  | some logical => if logical = "" then row.receiverId else logical
  | none => row.receiverId

/-- MAX(id). -/
def maxId (t : Table InboxRow.id) : Option Int := t.maxKey

/-- The id the next INSERT gets. -/
def nextId (t : Table InboxRow.id) : Int := t.nextKey

/-- INSERT of one row, under the id SQLite gives it. -/
def insertRow (t : Table InboxRow.id) (row : InboxRow) : Table InboxRow.id :=
  t.insert { row with id := nextId t }

/-- SET status = ?. -/
def statusPatch (status : MessageStatus) : Patch InboxRow.id where
  apply row := { row with status := status }
  keeps _ := rfl

/-- The fact `_queue_write_through` hands the queue.
SOURCE: clients/database.py:10152-10206 -/
def writeThroughFact (row : InboxRow) : LegacyEnqueue where
  legacyMessageId := 0
  receiverId := row.effectiveReceiver
  senderId := row.senderId
  message := row.message
  isCallback := row.isCallback
  expireAfterS := row.expireAfterS
  supersedeKey := row.supersedeKey
  contentHash := row.callbackDedupKey
  parkWarm := row.parkWarm
  barrierId := row.barrierId
  barrierMemberKey := row.barrierMemberKey
  enqueueGeneration := row.enqueueGeneration

/-- The fact adoption hands the queue; the content hash is computed again.
SOURCE: clients/database.py:11233-11296 -/
def adoptionFact (contentHash : String → String) (row : InboxRow) : LegacyEnqueue :=
  { writeThroughFact row with
    legacyMessageId := row.id, contentHash := some (contentHash row.message) }

/-- An insert adds the row under the next id. -/
theorem mem_insertRow {t : Table InboxRow.id} {row x : InboxRow} :
    x ∈ (insertRow t row).rows ↔ x ∈ t.rows ∨ x = { row with id := nextId t } := by
  have hfree : (t.get ({ row with id := nextId t } : InboxRow).id).isSome = false := by
    show (t.get t.nextKey).isSome = false
    rw [Table.get_nextKey]
    rfl
  unfold insertRow Table.insert
  rw [dif_neg (by rw [hfree]; decide)]
  simp

end CliAgentOrchestrator.Inbox
