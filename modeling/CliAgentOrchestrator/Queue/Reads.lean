import CliAgentOrchestrator.Queue.RowEffect

/-!
# Reads of the queue store

The queries the tick, the mailbox service and the write-through decide on.
-/

set_option autoImplicit false

namespace CliAgentOrchestrator.Queue

open CliAgentOrchestrator.Core Library

variable {s : Store} {r : QueueMessage}

/-- WHERE receiver_id = ? AND mode = 'live' AND state IN ('ready', 'leased'). -/
def undelivered (receiverId : String) (r : QueueMessage) : Bool :=
  r.receiverId == receiverId && r.mode == .live && (r.state == .ready || r.state == .leased)

/-- ORDER BY created_at, msg_id. -/
def arrivalOrder (a b : QueueMessage) : Prop :=
  a.createdAt < b.createdAt ∨ (a.createdAt = b.createdAt ∧ ¬ b.msgId < a.msgId)

instance : DecidableRel arrivalOrder := fun a b => by unfold arrivalOrder; infer_instance

/-- SOURCE: adapters/store/queue.py:911-928 -/
def undeliveredIds (s : Store) (receiverId : String) : List String :=
  ((s.deliveryMsg.select (undelivered receiverId)).insertionSort arrivalOrder).map
    QueueMessage.msgId

/-- ORDER BY legacy_message_id; the rows listed all have one. -/
def surrogateOrder (a b : QueueMessage) : Prop :=
  a.legacyMessageId.getD 0 ≤ b.legacyMessageId.getD 0

instance : DecidableRel surrogateOrder := fun a b => by unfold surrogateOrder; infer_instance

/-- The receiver's undelivered rows after a cursor, in surrogate order.
SOURCE: adapters/store/queue.py:1078-1098 -/
def pendingForReceiver (s : Store) (receiverId : String) (afterId limit : Int) :
    List QueueMessage :=
  sqlLimit limit ((s.deliveryMsg.select fun r =>
    undelivered receiverId r && r.legacyMessageId.any (afterId < ·)).insertionSort surrogateOrder)

/-- SOURCE: adapters/store/queue.py:951-969 -/
def allTerminal (s : Store) (msgIds : List String) : Bool :=
  !s.deliveryMsg.rows.any fun r => msgIds.contains r.msgId && !r.terminal

/-- MAX(legacy_message_id). -/
def maxLegacyId (s : Store) : Option Int := (s.deliveryMsg.rows.filterMap (·.legacyMessageId)).max?

/-- One above the high-water of both tables; `inboxMax` is MAX(id) over `inbox`.
SOURCE: adapters/store/queue.py:1005-1036 -/
def nextSurrogateId (s : Store) (inboxMax : Option Int) : Int :=
  let high := (maxLegacyId s).getD 0
  (inboxMax.elim high (max high)) + 1

/-- WHERE sender, receiver and content hash match, inside the window, not parked warm and
outside any barrier. -/
def recentDuplicate (senderId receiverId contentHash : String) (cutoff : Int)
    (r : QueueMessage) : Bool :=
  r.senderId == senderId && r.receiverId == receiverId && r.contentHash == some contentHash
    && decide (cutoff ≤ r.createdAt) && !r.parkWarm && r.barrierId.isNone

/-- The newest row inside the F475 window.
SOURCE: adapters/store/queue.py:1038-1076 -/
def findRecentDuplicate (s : Store) (senderId receiverId contentHash : String) (windowS now : Int)
    (parkWarm : Bool) (barrierId : Option Int) : Option QueueMessage :=
  if parkWarm || barrierId.isSome || contentHash == "" then none
  else
    ((s.deliveryMsg.select
      (recentDuplicate senderId receiverId contentHash (now - seconds windowS))).insertionSort
      fun a b => b.createdAt ≤ a.createdAt).head?

/-! ## What the reads answer -/

theorem undelivered_iff (receiverId : String) (r : QueueMessage) :
    undelivered receiverId r = true ↔ r.receiverId = receiverId ∧ r.terminal = false := by
  have hmode : r.mode = .live := by cases r.mode; rfl
  rw [r.terminal_eq_false_iff]
  simp [undelivered, hmode]

theorem mem_undeliveredIds (s : Store) (receiverId m : String) :
    m ∈ undeliveredIds s receiverId ↔
      ∃ r, s.get m = some r ∧ r.receiverId = receiverId ∧ r.terminal = false := by
  unfold undeliveredIds
  rw [List.mem_map]
  constructor
  · rintro ⟨r, hr, rfl⟩
    rw [List.mem_insertionSort, mem_select_msg, undelivered_iff] at hr
    exact ⟨r, hr⟩
  · rintro ⟨r, hget, hrow⟩
    have hm := msgId_of_get hget
    refine ⟨r, ?_, hm⟩
    rw [List.mem_insertionSort, mem_select_msg, undelivered_iff, hm]
    exact ⟨hget, hrow⟩

/-- A listing holds undelivered rows of the receiver after the cursor, and without a limit, or
with one as long as the table, all of them. -/
theorem mem_pendingForReceiver {receiverId : String} {afterId limit : Int}
    (h : r ∈ pendingForReceiver s receiverId afterId limit) :
    s.get r.msgId = some r ∧ r.receiverId = receiverId ∧ r.terminal = false ∧
      ∃ n, r.legacyMessageId = some n ∧ afterId < n := by
  have hsort := mem_sqlLimit h
  rw [List.mem_insertionSort, mem_select_msg, Bool.and_eq_true, undelivered_iff,
    Option.any_eq_true] at hsort
  obtain ⟨hget, ⟨hrecv, hlive⟩, n, hn, hlt⟩ := hsort
  exact ⟨hget, hrecv, hlive, n, hn, of_decide_eq_true hlt⟩

theorem mem_pendingForReceiver_of_limit {receiverId : String} {afterId limit n : Int}
    (hlimit : limit < 0 ∨ (s.deliveryMsg.rows.length : Int) ≤ limit) (hget : s.get r.msgId = some r)
    (hrecv : r.receiverId = receiverId) (hlive : r.terminal = false)
    (hn : r.legacyMessageId = some n) (hlt : afterId < n) :
    r ∈ pendingForReceiver s receiverId afterId limit := by
  unfold pendingForReceiver
  rw [sqlLimit_eq_self]
  · rw [List.mem_insertionSort, mem_select_msg, Bool.and_eq_true, undelivered_iff,
      Option.any_eq_true]
    exact ⟨hget, ⟨hrecv, hlive⟩, n, hn, decide_eq_true hlt⟩
  · obtain hneg | hlong := hlimit
    · exact .inl hneg
    · right
      rw [List.length_insertionSort]
      have hle : (s.deliveryMsg.select fun r =>
          undelivered receiverId r && r.legacyMessageId.any (afterId < ·)).length ≤
          s.deliveryMsg.rows.length := List.length_filter_le _ _
      omega

/-- A listing is in surrogate order. -/
theorem pairwise_pendingForReceiver (s : Store) (receiverId : String) (afterId : Int) :
    (pendingForReceiver s receiverId afterId (-1)).Pairwise surrogateOrder := by
  have htotal : Std.Total surrogateOrder := ⟨fun a b => le_total _ _⟩
  have htrans : IsTrans QueueMessage surrogateOrder := ⟨fun _ _ _ h₁ h₂ => le_trans h₁ h₂⟩
  exact List.pairwise_insertionSort surrogateOrder _

/-- A limit cuts a listing and changes nothing else. -/
theorem pendingForReceiver_limit (s : Store) (receiverId : String) (afterId : Int) (limit : Nat) :
    pendingForReceiver s receiverId afterId limit =
      (pendingForReceiver s receiverId afterId (-1)).take limit := by
  unfold pendingForReceiver sqlLimit
  rw [if_neg (by omega), if_pos (by omega), Int.toNat_natCast]

/-- Every surrogate is below the next one, and so is every inbox id. -/
theorem lt_nextSurrogateId (s : Store) (inboxMax : Option Int) :
    (∀ m r n, s.get m = some r → r.legacyMessageId = some n → n < nextSurrogateId s inboxMax) ∧
      ∀ v, inboxMax = some v → v < nextSurrogateId s inboxMax := by
  have hhigh : (maxLegacyId s).getD 0 < nextSurrogateId s inboxMax := by
    unfold nextSurrogateId
    cases inboxMax with
    | none => exact Int.lt_succ _
    | some v => exact Int.lt_add_one_of_le (le_max_left _ v)
  refine ⟨?_, ?_⟩
  · intro m r n hget hn
    have hmem : n ∈ s.deliveryMsg.rows.filterMap (·.legacyMessageId) :=
      List.mem_filterMap.mpr ⟨r, Table.mem_of_get hget, hn⟩
    cases hmax : maxLegacyId s with
    | none =>
      unfold maxLegacyId at hmax
      rw [List.max?_eq_none_iff] at hmax
      rw [hmax] at hmem
      cases hmem
    | some v =>
      have hle := (List.max?_eq_some_iff.mp hmax).2 n hmem
      rw [hmax] at hhigh
      exact lt_of_le_of_lt hle hhigh
  · intro v hv
    subst hv
    exact Int.lt_add_one_of_le (le_max_right _ v)

end CliAgentOrchestrator.Queue
