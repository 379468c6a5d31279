import CliAgentOrchestrator.Inbox.Row
import CliAgentOrchestrator.Queue.RowInvariant
import CliAgentOrchestrator.Wiring.WriteThrough

/-!
# Sends, adoption and the seat

The system around the queue: sends that write through or fall back to the inbox, the adoption
of inbox rows, the notices of the tick, and the seats that list and ack. An event is one atomic
step of one party; a list of events is an interleaving.

`shown` is a ghost: what the listings have returned so far, and to whom.
-/

set_option autoImplicit false

namespace CliAgentOrchestrator.Wiring

open CliAgentOrchestrator.Core Library Queue Inbox

/-- An item a listing returned. An item from the queue carries its `msg_id`, one from the inbox
has none.
SOURCE: services/mailbox_service.py:992-1012, 1158-1173 -/
structure Shown where
  receiverId : String
  id : Int
  msgId : Option String

/-- Every party's state. -/
structure Mailroom where
  sends : Sends
  inbox : Table InboxRow.id
  /-- The inbox ids adoption scans have picked up. -/
  scanned : List Int
  shown : List Shown

/-- One step of one party. -/
inductive Event
  | findRecentDuplicate (call : Nat) (now : Int)
  | nextSurrogateId (call : Nat)
  | enqueue (call : Nat) (newUlid : String) (now : Int)
  /-- The write-through raises: a locked database, or no runtime. -/
  | fail (call : Nat)
  | insert (call : Nat)
  | scan (id : Int)
  | adopt (id : Int) (newUlid : String) (now : Int)
  | retire (id : Int)
  | announceDeath (row : DeadRow) (newUlid : String) (now : Int)
  /-- `addresses` are the receiver's terminals, `consumedThrough` its mailbox's cursor. -/
  | listMessages (receiverId : String) (addresses : List String) (afterId : Option Int)
      (consumedThrough : Int) (limit : Nat)
  | ackMessages (receiverId : String) (now : Int)
  | queue (op : Op)

namespace Mailroom

/-- Nothing sent, nothing shown. -/
def start : Mailroom := ⟨Sends.start Store.empty, Table.empty, [], []⟩

/-- The queue's store. -/
def store (c : Mailroom) : Store := c.sends.store

/-- The store after a transaction of another party's. -/
def withStore (c : Mailroom) (s : Store) : Mailroom :=
  { c with sends := { c.sends with store := s } }

def withSends (c : Mailroom) (sends : Sends) : Mailroom := { c with sends := sends }

@[simp] theorem withStore_store (c : Mailroom) (s : Store) : (c.withStore s).store = s := rfl

/-- The ids a receiver has been shown. -/
def shownIds (c : Mailroom) (receiverId : String) : List Int :=
  (c.shown.filter fun x => x.receiverId == receiverId).map Shown.id

/-- The largest of them. -/
def largestShown (c : Mailroom) (receiverId : String) : Option Int := (c.shownIds receiverId).max?

end Mailroom

/-- The queue's rows for one listing, none where it holds nothing. One more than the limit is
fetched, to know whether there are more.
SOURCE: services/mailbox_service.py:966-1016 -/
def listFromQueue (s : Store) (receiverId : String) (afterId : Int) (limit : Nat) :
    Option (List QueueMessage) :=
  let rows := pendingForReceiver s receiverId afterId (limit + 1)
  if rows = [] then none else some (rows.take limit)

/-- WHERE (logical_receiver_id = ? OR receiver_id IN addresses) AND id > ? AND not parked. -/
def inboxListed (receiverId : String) (addresses : List String) (afterId : Int)
    (row : InboxRow) : Bool :=
  (row.logicalReceiverId == some receiverId || addresses.contains row.receiverId)
    && decide (afterId < row.id) && row.status != .parked

/-- SOURCE: services/mailbox_service.py:1119-1157 -/
def listFromInbox (t : Table InboxRow.id) (receiverId : String) (addresses : List String)
    (afterId : Int) (limit : Nat) : List InboxRow :=
  ((t.select (inboxListed receiverId addresses afterId)).insertionSort
    fun a b => a.id ≤ b.id).take limit

/-- The item of a queue row. -/
def queueItem (receiverId : String) (r : QueueMessage) : Shown :=
  ⟨receiverId, r.legacyMessageId.getD 0, some r.msgId⟩

/-- The item of an inbox row. -/
def inboxItem (receiverId : String) (row : InboxRow) : Shown := ⟨receiverId, row.id, none⟩

/-- The ordinary pull: the queue's rows, the inbox's where the queue has none.
SOURCE: services/mailbox_service.py:1072-1200 -/
def listMessages (s : Store) (inbox : Table InboxRow.id) (receiverId : String)
    (addresses : List String) (afterId : Option Int) (consumedThrough : Int) (limit : Nat) :
    List Shown :=
  match listFromQueue s receiverId (afterId.getD 0) limit with
  | some rows => rows.map (queueItem receiverId)
  | none =>
    (listFromInbox inbox receiverId addresses (afterId.getD consumedThrough) limit).map
      (inboxItem receiverId)

/-- UPDATE inbox SET status = 'adopted' WHERE id = ? AND status = 'pending'. -/
def retireRow (t : Table InboxRow.id) (id : Int) : Table InboxRow.id :=
  t.updateKey id (fun row => row.status == .pending) (statusPatch .adopted)

/-- The items are shown. -/
def Mailroom.show (c : Mailroom) (items : List Shown) : Mailroom :=
  { c with shown := c.shown ++ items }

/-- One event. A listing starts anew or after an id an earlier one returned; an ack names the
largest id shown.
SOURCE: app/delivery/wiring.py:144-276, clients/database.py:10419-10480, 11167-11360,
services/mailbox_service.py:1018-1200 -/
def step (sha256 contentHash : String → String) (calls : Nat → InboxRow) (c : Mailroom) :
    Event → Mailroom
  | .findRecentDuplicate call now =>
    c.withSends (advance sha256 (fun i => writeThroughFact (calls i)) c.sends
      (.findRecentDuplicate call now))
  | .nextSurrogateId call =>
    c.withSends (advance sha256 (fun i => writeThroughFact (calls i)) c.sends
      (.nextSurrogateId call (maxId c.inbox)))
  | .enqueue call newUlid now =>
    c.withSends (advance sha256 (fun i => writeThroughFact (calls i)) c.sends
      (.enqueue call newUlid now))
  | .fail call =>
    match c.sends.progress call with
    | .called | .windowClear | .allocated _ =>
      c.withSends (c.sends.put call .fellBack c.store)
    | _ => c
  | .insert call =>
    match c.sends.progress call with
    | .fellBack =>
      { c.withSends (c.sends.put call (.inserted (nextId c.inbox)) c.store) with
        inbox := insertRow c.inbox (calls call) }
    | _ => c
  | .scan id =>
    if (c.inbox.get id).any (fun row => row.status == .pending) then
      { c with scanned := id :: c.scanned }
    else c
  | .adopt id newUlid now =>
    match (c.inbox.get id).filter (fun _ => c.scanned.contains id) with
    | none => c
    | some row =>
      match factDraft (adoptedKey id) (adoptionFact contentHash row) id with
      | none => c
      | some draft => c.withStore (exec sha256 c.store (.enqueue draft newUlid now))
  | .retire id =>
    if (c.store.getByIdempotencyKey (adoptedKey id)).isSome then
      { c with inbox := retireRow c.inbox id }
    else c
  | .announceDeath row newUlid now =>
    match noticeDraft row with
    | none => c
    | some draft => c.withStore (exec sha256 c.store (.enqueue draft newUlid now))
  | .listMessages receiverId addresses afterId consumedThrough limit =>
    if ∀ a ∈ afterId, a = 0 ∨ a ∈ c.shownIds receiverId then
      c.show (listMessages c.store c.inbox receiverId addresses afterId consumedThrough limit)
    else c
  | .ackMessages receiverId now =>
    match c.largestShown receiverId with
    | none => c
    | some upToId => c.withStore (settleThrough c.store receiverId upToId now).2
  | .queue op =>
    if op.minted = none then c.withStore (exec sha256 c.store op) else c

/-! ## The room and the queue -/

/-- The store operation an event runs. -/
def storeOp (contentHash : String → String) (calls : Nat → InboxRow) (c : Mailroom) :
    Event → Option Op
  | .enqueue call newUlid now =>
    match c.sends.progress call with
    | .allocated surrogate =>
      (factDraft (liveKey surrogate) (writeThroughFact (calls call)) surrogate).map
        fun draft => .enqueue draft newUlid now
    | _ => none
  | .adopt id newUlid now =>
    match (c.inbox.get id).filter (fun _ => c.scanned.contains id) with
    | none => none
    | some row =>
      (factDraft (adoptedKey id) (adoptionFact contentHash row) id).map
        fun draft => .enqueue draft newUlid now
  | .announceDeath row newUlid now =>
    (noticeDraft row).map fun draft => .enqueue draft newUlid now
  | .ackMessages receiverId now =>
    (c.largestShown receiverId).map fun upToId => .settleThrough receiverId upToId now
  | .queue op => if op.minted = none then some op else none
  | _ => none

variable {sha256 contentHash : String → String} {calls : Nat → InboxRow} {c : Mailroom}

/-- The room's store goes through the operations of the queue and nothing else. -/
theorem step_store (sha256 : String → String) (event : Event) :
    (step sha256 contentHash calls c event).store =
      (storeOp contentHash calls c event).elim c.store (exec sha256 c.store) := by
  cases event with
  | findRecentDuplicate | nextSurrogateId =>
    simp only [step, advance, storeOp]
    split <;> rfl
  | enqueue call newUlid now =>
    simp only [step, advance, storeOp]
    cases hat : c.sends.progress call with
    | allocated surrogate =>
      simp only
      show (enqueueFact sha256 c.sends.store (writeThroughFact (calls call)) surrogate newUlid
        now).2 = _
      rw [enqueueFact_store]
      cases factDraft (liveKey surrogate) (writeThroughFact (calls call)) surrogate <;> rfl
    | _ => rfl
  | adopt id newUlid now =>
    simp only [step, storeOp]
    cases (c.inbox.get id).filter (fun _ => c.scanned.contains id) with
    | none => rfl
    | some row =>
      simp only
      cases factDraft (adoptedKey id) (adoptionFact contentHash row) id <;> rfl
  | announceDeath row newUlid now =>
    simp only [step, storeOp]
    cases noticeDraft row <;> rfl
  | ackMessages receiverId now =>
    simp only [step, storeOp]
    cases c.largestShown receiverId <;> rfl
  | _ =>
    simp only [step, storeOp]
    split <;> rfl

/-- What the producers enqueue: facts under a live or an adopted key, and notices. -/
theorem storeOp_enqueue {event : Event} {draft : EnqueueDraft} {newUlid : String} {now : Int}
    (h : storeOp contentHash calls c event = some (.enqueue draft newUlid now)) :
    (∃ call n, event = .enqueue call newUlid now ∧ c.sends.progress call = .allocated n ∧
      factDraft (liveKey n) (writeThroughFact (calls call)) n = some draft) ∨
    (∃ id row, event = .adopt id newUlid now ∧ c.inbox.get id = some row ∧ id ∈ c.scanned ∧
      factDraft (adoptedKey id) (adoptionFact contentHash row) id = some draft) ∨
    ∃ row, event = .announceDeath row newUlid now ∧ noticeDraft row = some draft := by
  cases event with
  | enqueue call newUlid' now' =>
    simp only [storeOp] at h
    split at h
    · next n hat =>
      obtain ⟨draft', hdraft, he⟩ := Option.map_eq_some_iff.mp h
      cases he
      exact .inl ⟨call, n, rfl, hat, hdraft⟩
    · cases h
  | adopt id newUlid' now' =>
    simp only [storeOp] at h
    split at h
    · cases h
    · next row hrow =>
      obtain ⟨draft', hdraft, he⟩ := Option.map_eq_some_iff.mp h
      cases he
      obtain ⟨hget, hin⟩ := Option.filter_eq_some_iff.mp hrow
      exact .inr (.inl ⟨id, row, rfl, hget, List.contains_iff_mem.mp hin, hdraft⟩)
  | announceDeath row newUlid' now' =>
    obtain ⟨draft', hdraft, he⟩ := Option.map_eq_some_iff.mp h
    cases he
    exact .inr (.inr ⟨row, rfl, hdraft⟩)
  | ackMessages receiverId now' =>
    obtain ⟨upToId, -, he⟩ := Option.map_eq_some_iff.mp h
    cases he
  | queue op =>
    simp only [storeOp] at h
    split at h
    · next hop =>
      cases h
      cases hop
    · cases h
  | _ => cases h

/-- Whatever else the room runs is the seat's ack or an operation of another party. -/
theorem storeOp_other {event : Event} {op : Op} (h : storeOp contentHash calls c event = some op)
    (hne : ∀ draft newUlid now, op ≠ .enqueue draft newUlid now) :
    (∃ receiverId now upToId, op = .settleThrough receiverId upToId now ∧
      event = .ackMessages receiverId now) ∨ (event = .queue op ∧ op.minted = none) := by
  cases event with
  | enqueue call newUlid now =>
    simp only [storeOp] at h
    split at h
    · obtain ⟨draft, -, rfl⟩ := Option.map_eq_some_iff.mp h
      exact absurd rfl (hne draft newUlid now)
    · cases h
  | adopt id newUlid now =>
    simp only [storeOp] at h
    split at h
    · cases h
    · obtain ⟨draft, -, rfl⟩ := Option.map_eq_some_iff.mp h
      exact absurd rfl (hne draft newUlid now)
  | announceDeath row newUlid now =>
    obtain ⟨draft, -, rfl⟩ := Option.map_eq_some_iff.mp h
    exact absurd rfl (hne draft newUlid now)
  | ackMessages receiverId now =>
    obtain ⟨upToId, -, rfl⟩ := Option.map_eq_some_iff.mp h
    exact .inl ⟨receiverId, now, upToId, rfl, rfl⟩
  | queue op' =>
    simp only [storeOp] at h
    split at h
    · next hop =>
      cases h
      exact .inr ⟨rfl, hop⟩
    · cases h
  | _ => cases h

/-- Only `insert` and `retire` write the inbox. -/
theorem step_inbox (sha256 contentHash : String → String) (calls : Nat → InboxRow) (c : Mailroom)
    {event : Event} (hins : ∀ call, event ≠ .insert call)
    (hret : ∀ id, event ≠ .retire id) :
    (step sha256 contentHash calls c event).inbox = c.inbox := by
  cases event with
  | findRecentDuplicate | nextSurrogateId | enqueue =>
    simp only [step, advance]
    split <;> rfl
  | insert call =>
    exact absurd rfl (hins call)
  | adopt id newUlid now =>
    simp only [step]
    split
    · rfl
    · split <;> rfl
  | retire id =>
    exact absurd rfl (hret id)
  | _ =>
    simp only [step]
    split <;> rfl

/-- Only a listing shows anything. -/
theorem step_shown (sha256 contentHash : String → String) (calls : Nat → InboxRow) (c : Mailroom)
    {event : Event} (hlist : ∀ receiverId addresses afterId consumedThrough limit,
      event ≠ .listMessages receiverId addresses afterId consumedThrough limit) :
    (step sha256 contentHash calls c event).shown = c.shown := by
  cases event with
  | findRecentDuplicate | nextSurrogateId | enqueue =>
    simp only [step, advance]
    split <;> rfl
  | adopt id newUlid now =>
    simp only [step]
    split
    · rfl
    · split <;> rfl
  | listMessages receiverId addresses afterId consumedThrough limit =>
    exact absurd rfl (hlist receiverId addresses afterId consumedThrough limit)
  | _ =>
    simp only [step]
    split <;> rfl

/-! ## What the producers make -/

/-- A notice carries no surrogate; every other row carries a positive one. -/
def Shaped (isNotice : Bool) (legacyMessageId : Option Int) : Prop :=
  (isNotice = true ∧ legacyMessageId = none) ∨
    (isNotice = false ∧ ∃ n, legacyMessageId = some n ∧ 0 < n)

/-- What the producers keep of the room. -/
structure Mailroom.Wf (c : Mailroom) : Prop where
  allocated_pos : ∀ call n, c.sends.progress call = .allocated n → 0 < n
  inbox_pos : ∀ row ∈ c.inbox.rows, 0 < row.id
  shaped : ∀ m r, c.store.get m = some r → Shaped r.isNotice r.legacyMessageId

/-- A store operation that inserts only shaped drafts keeps every row shaped. -/
theorem shaped_exec {s : Store} {op : Op}
    (hs : ∀ m r, s.get m = some r → Shaped r.isNotice r.legacyMessageId)
    (hop : ∀ draft newUlid now, op = .enqueue draft newUlid now →
      Shaped draft.isNotice draft.legacyMessageId) :
    ∀ m r, (exec sha256 s op).get m = some r → Shaped r.isNotice r.legacyMessageId := by
  intro m r' hget'
  cases hget : s.get m with
  | none =>
    obtain ⟨draft, now, rfl, rfl, -⟩ := inserted_of_exec hget hget'
    exact hop draft m now rfl
  | some r =>
    obtain ⟨l, hstep, -⟩ := rowStep_of_exec hget hget'
    have hfixed := hstep.fixedColumns
    have hnotice : r'.isNotice = r.isNotice := congrArg FixedColumns.isNotice hfixed
    have hlegacy : r'.legacyMessageId = r.legacyMessageId :=
      congrArg FixedColumns.legacyMessageId hfixed
    rw [hnotice, hlegacy]
    exact hs m r hget

theorem nextSurrogateId_pos {s : Store} (inboxMax : Option Int)
    (hs : ∀ m r, s.get m = some r → Shaped r.isNotice r.legacyMessageId) :
    0 < nextSurrogateId s inboxMax := by
  have hhigh : 0 ≤ (maxLegacyId s).getD 0 := by
    cases hmax : maxLegacyId s with
    | none => exact le_rfl
    | some v =>
      obtain ⟨r, hr, hv⟩ := List.mem_filterMap.mp (List.max?_eq_some_iff.mp hmax).1
      obtain ⟨-, hnone⟩ | ⟨-, n, hn, hpos⟩ := hs r.msgId r ((s.deliveryMsg.mem_rows_iff r).mp hr)
      · rw [hnone] at hv
        cases hv
      · rw [hn] at hv
        have hnv : n = v := Option.some.inj hv
        show 0 ≤ v
        omega
  unfold nextSurrogateId
  cases inboxMax with
  | none => exact Int.lt_add_one_of_le hhigh
  | some v => exact Int.lt_add_one_of_le (le_trans hhigh (le_max_left _ v))

theorem factDraft_shaped {key : String} {fact : LegacyEnqueue} {n : Int} {draft : EnqueueDraft}
    (h : factDraft key fact n = some draft) (hpos : 0 < n) :
    Shaped draft.isNotice draft.legacyMessageId := by
  obtain ⟨-, -, -, -, hlegacy, hnotice, -, -⟩ := factDraft_eq_some h
  exact .inr ⟨hnotice, n, hlegacy, hpos⟩

theorem mem_retireRow {t : Table InboxRow.id} {id : Int} {x : InboxRow}
    (hx : x ∈ (retireRow t id).rows) : ∃ row ∈ t.rows, x.id = row.id := by
  obtain ⟨row, hrow, rfl⟩ := List.mem_map.mp hx
  refine ⟨row, hrow, ?_⟩
  split
  · exact (statusPatch .adopted).keeps row
  · rfl

/-- Whatever a producer enqueues is shaped. -/
theorem Mailroom.Wf.draft (h : c.Wf) {event : Event} {draft : EnqueueDraft} {newUlid : String}
    {now : Int} (hop : storeOp contentHash calls c event = some (.enqueue draft newUlid now)) :
    Shaped draft.isNotice draft.legacyMessageId := by
  obtain ⟨call, n, -, hat, hdraft⟩ | ⟨id, row, -, hget, -, hdraft⟩ | ⟨row, -, hdraft⟩ :=
    storeOp_enqueue hop
  · exact factDraft_shaped hdraft (h.allocated_pos call n hat)
  · have hrow := (c.inbox.get_eq_some_iff id row).mp hget
    have hpos := h.inbox_pos row hrow.1
    rw [hrow.2] at hpos
    exact factDraft_shaped hdraft hpos
  · obtain ⟨hnotice, hlegacy, -⟩ := noticeDraft_eq_some hdraft
    exact .inl ⟨hnotice, hlegacy⟩

/-- A call that came to an `allocated` in this step read its surrogate just now. -/
theorem allocated_of_step {event : Event} {call : Nat} {n : Int}
    (hat : (step sha256 contentHash calls c event).sends.progress call = .allocated n) :
    c.sends.progress call = .allocated n ∨ n = nextSurrogateId c.store (maxId c.inbox) := by
  have hput : ∀ (moved : Nat) (progress : Progress) (store : Store),
      (c.sends.put moved progress store).progress call = .allocated n →
      c.sends.progress call = .allocated n ∨ progress = .allocated n := by
    intro moved progress store h
    rw [Sends.put_progress] at h
    split at h
    · exact .inr h
    · exact .inl h
  cases event with
  | findRecentDuplicate moved now =>
    simp only [step, advance] at hat
    split at hat
    · obtain hold | hnew := hput _ _ _ hat
      · exact .inl hold
      · exact absurd hnew ((windowCheck_ne _ _ _).2 n)
    · exact .inl hat
  | nextSurrogateId moved =>
    simp only [step, advance] at hat
    split at hat
    · obtain hold | hnew := hput _ _ _ hat
      · exact .inl hold
      · cases hnew
        exact .inr rfl
    · exact .inl hat
  | enqueue moved newUlid now =>
    simp only [step, advance] at hat
    split at hat
    · next surrogate _ =>
      obtain hold | hnew := hput _ _ _ hat
      · exact .inl hold
      · obtain ⟨hres, -⟩ | ⟨message, hres, -⟩ | ⟨draft, -, hres, -⟩ :=
          enqueueFact_spec sha256 c.sends.store (writeThroughFact (calls moved)) surrogate newUlid
            now
        all_goals
          rw [hres] at hnew
          cases hnew
    · exact .inl hat
  | fail moved =>
    simp only [step] at hat
    split at hat
    · obtain hold | hnew := hput _ _ _ hat
      · exact .inl hold
      · cases hnew
    · obtain hold | hnew := hput _ _ _ hat
      · exact .inl hold
      · cases hnew
    · obtain hold | hnew := hput _ _ _ hat
      · exact .inl hold
      · cases hnew
    · exact .inl hat
  | insert moved =>
    simp only [step] at hat
    split at hat
    · obtain hold | hnew := hput _ _ _ hat
      · exact .inl hold
      · cases hnew
    · exact .inl hat
  | adopt id newUlid now =>
    simp only [step] at hat
    split at hat
    · exact .inl hat
    · split at hat <;> exact .inl hat
  | _ =>
    simp only [step] at hat
    split at hat <;> exact .inl hat

/-- An inbox row's id was there before or is the next one. -/
theorem inbox_of_step {event : Event} {x : InboxRow}
    (hx : x ∈ (step sha256 contentHash calls c event).inbox.rows) :
    (∃ row ∈ c.inbox.rows, x.id = row.id) ∨ x.id = nextId c.inbox := by
  by_cases hins : ∃ call, event = .insert call
  · obtain ⟨call, rfl⟩ := hins
    simp only [step] at hx
    split at hx
    · obtain hold | rfl := mem_insertRow.mp hx
      · exact .inl ⟨x, hold, rfl⟩
      · exact .inr rfl
    · exact .inl ⟨x, hx, rfl⟩
  · by_cases hret : ∃ id, event = .retire id
    · obtain ⟨id, rfl⟩ := hret
      simp only [step] at hx
      split at hx
      · exact .inl (mem_retireRow hx)
      · exact .inl ⟨x, hx, rfl⟩
    · rw [step_inbox sha256 contentHash calls c (fun call h => hins ⟨call, h⟩)
        (fun id h => hret ⟨id, h⟩)] at hx
      exact .inl ⟨x, hx, rfl⟩

/-- Every event keeps the room well-formed. -/
theorem Mailroom.Wf.step (h : c.Wf) (event : Event) :
    (step sha256 contentHash calls c event).Wf := by
  refine ⟨?_, ?_, ?_⟩
  · intro call n hat
    obtain hold | rfl := allocated_of_step hat
    · exact h.allocated_pos call n hold
    · exact nextSurrogateId_pos (maxId c.inbox) h.shaped
  · intro x hx
    obtain ⟨row, hrow, hid⟩ | hid := inbox_of_step hx
    · rw [hid]
      exact h.inbox_pos row hrow
    · rw [hid]
      exact Table.nextKey_pos h.inbox_pos
  · rw [step_store]
    cases hop : storeOp contentHash calls c event with
    | none => exact h.shaped
    | some op =>
      refine shaped_exec h.shaped ?_
      rintro draft newUlid now rfl
      exact h.draft hop

theorem wf_start : Mailroom.start.Wf := by
  refine ⟨fun _ _ h => (nomatch h), fun _ h => (nomatch h), ?_⟩
  intro m r h
  have hnone : Mailroom.start.store.get m = none := Table.get_empty m
  rw [hnone] at h
  cases h

theorem wf_run (sha256 contentHash : String → String) (calls : Nat → InboxRow)
    (events : List Event) :
    (run (step sha256 contentHash calls) Mailroom.start events).Wf :=
  run_invariant Mailroom.Wf (fun _ event h => h.step event) Mailroom.start wf_start events

end CliAgentOrchestrator.Wiring
