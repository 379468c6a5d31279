import CliAgentOrchestrator.Queue.Finality
import CliAgentOrchestrator.Wiring.Mailroom

/-!
# The ack cursor

An ack names an integer and settles every row at or below it. It consumes nothing unseen as
long as ids arrive in the order they are listed. Surrogates are minted above both tables, but
before the row is there; an inbox row keeps the id the inbox gave it, which looks at no
surrogate, however late it is adopted. So what is on its way has its id already: nothing may be
listed that has overtaken it, and the inbox may not fall behind the surrogates
(`ackSafe_of_staysAhead`).
-/

set_option autoImplicit false

namespace CliAgentOrchestrator.Wiring

open CliAgentOrchestrator.Core Library Queue Inbox

/-- A listing returned the inbox row that a queue row under `key` was adopted from. -/
def ShownInInbox (c : Mailroom) (receiverId key : String) (legacyMessageId : Option Int) : Prop :=
  ∃ x ∈ c.shown, x.receiverId = receiverId ∧ x.msgId = none ∧ key = adoptedKey x.id ∧
    legacyMessageId = some x.id

/-- A listing returned the row to the receiver, from the queue or while it was in the inbox. -/
def Seen (c : Mailroom) (receiverId : String) (r : QueueMessage) : Prop :=
  (∃ x ∈ c.shown, x.receiverId = receiverId ∧ x.msgId = some r.msgId) ∨
    ShownInInbox c receiverId r.idempotencyKey r.legacyMessageId

/-- An ack of the largest id a receiver was shown settles rows it has seen and no others. -/
def AckSafe (c : Mailroom) : Prop :=
  ∀ receiverId upToId now, c.largestShown receiverId = some upToId →
    ∀ m ∈ (settleThrough c.store receiverId upToId now).1,
      ∃ r, c.store.get m = some r ∧ Seen c receiverId r

/-! ## The condition -/

/-- A send to the receiver has read this surrogate and not enqueued yet. -/
def Sending (calls : Nat → InboxRow) (c : Mailroom) (receiverId : String) (n : Int) : Prop :=
  ∃ call, c.sends.progress call = .allocated n ∧ (calls call).effectiveReceiver = receiverId

/-- An inbox row for the receiver waits to be adopted. -/
def Waiting (c : Mailroom) (receiverId : String) (row : InboxRow) : Prop :=
  c.inbox.get row.id = some row ∧ row.effectiveReceiver = receiverId ∧
    c.store.getByIdempotencyKey (adoptedKey row.id) = none ∧
    (row.status = .pending ∨ row.id ∈ c.scanned)

/-- Every row of the receiver's that the queue holds behind the cursor is below this id. -/
def QueueBelow (c : Mailroom) (receiverId : String) (afterId n : Int) : Prop :=
  ∀ r ∈ pendingForReceiver c.store receiverId afterId (-1), ∀ k ∈ r.legacyMessageId, k < n

/-- A listing does not come while a message on its way to the receiver has been overtaken: a row
behind the cursor stands at or above it. The inbox is listed where the queue has nothing, and
there an inbox row that waits is listed with those above it. -/
def NotOvertaken (calls : Nat → InboxRow) (c : Mailroom) : Event → Prop
  | .listMessages receiverId addresses afterId consumedThrough _ =>
    let listed := inboxListed receiverId addresses (afterId.getD consumedThrough)
    let drained := pendingForReceiver c.store receiverId (afterId.getD 0) (-1) = []
    (∀ n, Sending calls c receiverId n → QueueBelow c receiverId (afterId.getD 0) n ∧
      (drained → ∀ x ∈ c.inbox.rows, listed x = true → x.id < n)) ∧
    ∀ row, Waiting c receiverId row → QueueBelow c receiverId (afterId.getD 0) row.id ∧
      (drained → listed row = true ∨ ∀ x ∈ c.inbox.rows, listed x = true → x.id < row.id)
  | _ => True

/-- A send falls back to an inbox that is ahead of the surrogates of its receiver, or nothing has
been listed to the receiver. -/
def FallsBackAhead (calls : Nat → InboxRow) (c : Mailroom) : Event → Prop
  | .insert call => c.sends.progress call = .fellBack →
    c.shownIds (calls call).effectiveReceiver = [] ∨
      ∀ r ∈ c.store.deliveryMsg.rows, r.receiverId = (calls call).effectiveReceiver →
        ∀ k ∈ r.legacyMessageId, k < nextId c.inbox
  | _ => True

/-- The limit of a listing does not fall between two rows of one id. -/
def ListsWhole (c : Mailroom) : Event → Prop
  | .listMessages receiverId _ afterId _ limit =>
    (∀ a ∈ afterId, a = 0 ∨ a ∈ c.shownIds receiverId) →
    ∀ rows, listFromQueue c.store receiverId (afterId.getD 0) limit = some rows →
    ∀ a ∈ rows, ∀ r ∈ pendingForReceiver c.store receiverId (afterId.getD 0) (-1),
      r.legacyMessageId = a.legacyMessageId → r ∈ rows ∨ Seen c receiverId r
  | _ => True

/-- What every step needs for the cursor to stay ahead of nothing. -/
structure StaysAhead (calls : Nat → InboxRow) (c : Mailroom) (event : Event) : Prop where
  fallsBack : FallsBackAhead calls c event
  overtakes : NotOvertaken calls c event
  listsWhole : ListsWhole c event

/-- Sends, adoptions, listings, acks and the tick; no row changes hands and none is deleted. -/
def Ordinary : Event → Prop
  | .queue (.reparent _ _ _ _) => False
  | .queue (.prune _ _) => False
  | _ => True

/-! ## The cursor, row by row -/

/-- Every live row at or below an id its receiver was shown has been seen. -/
def CursorSafe (c : Mailroom) : Prop :=
  ∀ m r n, c.store.get m = some r → r.terminal = false → r.legacyMessageId = some n →
    (∃ x ∈ c.shownIds r.receiverId, n ≤ x) → Seen c r.receiverId r

variable {sha256 contentHash : String → String} {calls : Nat → InboxRow} {c c' : Mailroom}
  {m : String} {r r' : QueueMessage}

theorem largestShown_isSome {receiverId : String} {x : Int} (hx : x ∈ c.shownIds receiverId) :
    ∃ upToId, c.largestShown receiverId = some upToId ∧ x ≤ upToId := by
  unfold Mailroom.largestShown
  cases hmax : (c.shownIds receiverId).max? with
  | none =>
    rw [List.max?_eq_none_iff] at hmax
    rw [hmax] at hx
    cases hx
  | some upToId => exact ⟨upToId, rfl, (List.max?_eq_some_iff.mp hmax).2 x hx⟩

theorem settleable_iff {receiverId : String} {upToId : Int} :
    settleable receiverId upToId r = true ↔
      r.receiverId = receiverId ∧ r.terminal = false ∧
        ∃ n, r.legacyMessageId = some n ∧ n ≤ upToId := by
  have hmode : r.mode = .live := by cases r.mode; rfl
  unfold settleable
  rw [hmode]
  cases hn : r.legacyMessageId with
  | none => simp
  | some n => simp [and_comm, and_assoc]

/-- What an ack settles is what the cursor has passed. -/
theorem ackSafe_iff : AckSafe c ↔ CursorSafe c := by
  constructor
  · intro h m r n hget hlive hn hpassed
    obtain ⟨x, hx, hle⟩ := hpassed
    obtain ⟨upToId, hmax, hxle⟩ := largestShown_isSome hx
    have hsettle : settleable r.receiverId upToId r = true :=
      settleable_iff.mpr ⟨rfl, hlive, n, hn, le_trans hle hxle⟩
    obtain ⟨r₁, hr₁, hseen⟩ := h r.receiverId upToId 0 hmax m
      ((mem_settleThrough _ _ _ _ _).mpr ⟨r, hget, hsettle⟩)
    rw [hget] at hr₁
    cases hr₁
    exact hseen
  · intro h receiverId upToId now hmax m hm
    obtain ⟨r, hget, hsettle⟩ := (mem_settleThrough _ _ _ _ _).mp hm
    obtain ⟨rfl, hlive, n, hn, hle⟩ := settleable_iff.mp hsettle
    have htop : upToId ∈ c.shownIds r.receiverId := (List.max?_eq_some_iff.mp hmax).1
    exact ⟨r, hget, h m r n hget hlive hn ⟨upToId, htop, hle⟩⟩

theorem mem_shownIds {receiverId : String} {id : Int} :
    id ∈ c.shownIds receiverId ↔ ∃ x ∈ c.shown, x.receiverId = receiverId ∧ x.id = id := by
  unfold Mailroom.shownIds
  simp [and_assoc]

/-- What was seen stays seen. -/
theorem Seen.mono {receiverId : String} (h : Seen c receiverId r)
    (hshown : ∀ x ∈ c.shown, x ∈ c'.shown) : Seen c' receiverId r := by
  obtain ⟨x, hx, hrest⟩ | ⟨x, hx, hrest⟩ := h
  · exact .inl ⟨x, hshown x hx, hrest⟩
  · exact .inr ⟨x, hshown x hx, hrest⟩

/-! ## The store operations -/

/-- Neither a `prune` nor a `reparent`. -/
def Stationary (op : Op) : Prop :=
  op.prunes = false ∧ ∀ msgId newReceiverId now messagePrefix,
    op ≠ .reparent msgId newReceiverId now messagePrefix

theorem stationary_of_storeOp {event : Event} {op : Op} (hord : Ordinary event)
    (hop : storeOp contentHash calls c event = some op) : Stationary op := by
  by_cases henq : ∃ draft newUlid now, op = .enqueue draft newUlid now
  · obtain ⟨draft, newUlid, now, rfl⟩ := henq
    exact ⟨rfl, by simp⟩
  · obtain ⟨receiverId, now, upToId, rfl, -⟩ | ⟨rfl, -⟩ := storeOp_other hop
      (fun draft newUlid now h => henq ⟨draft, newUlid, now, h⟩)
    · exact ⟨rfl, by simp⟩
    · cases op with
      | reparent msgId newReceiverId now messagePrefix => cases hord
      | prune now isProtected => cases hord
      | _ => exact ⟨rfl, by simp⟩

/-- Such an operation keeps every row, its receiver and its fixed columns. -/
theorem Stationary.kept {op : Op} (hst : Stationary op) (hget : c.store.get m = some r) :
    ∃ r', (exec sha256 c.store op).get m = some r' ∧ r'.receiverId = r.receiverId ∧
      fixedColumns r' = fixedColumns r := by
  cases hget' : (exec sha256 c.store op).get m with
  | none =>
    have hprunes := (prunes_of_exec hget hget').1
    rw [hst.1] at hprunes
    cases hprunes
  | some r' =>
    obtain ⟨l, hstep, -⟩ := rowStep_of_exec hget hget'
    exact ⟨r', rfl, hstep.receiverId hst.2, hstep.fixedColumns⟩

/-- The cursor looks at the store and at what was shown. -/
theorem CursorSafe.congr (h : CursorSafe c) (hstore : c'.store = c.store)
    (hshown : c'.shown = c.shown) : CursorSafe c' := by
  intro m r n hget hlive hn hpassed
  rw [hstore] at hget
  unfold Mailroom.shownIds at hpassed
  rw [hshown] at hpassed
  refine (h m r n hget hlive hn hpassed).mono ?_
  intro x hx
  rw [hshown]
  exact hx

/-- A store operation whose insert, if it makes one, comes in above keeps the cursor safe. -/
theorem CursorSafe.exec (h : CursorSafe c) {op : Op} (hst : Stationary op)
    (hstore : c'.store = exec sha256 c.store op) (hshown : c'.shown = c.shown)
    (habove : ∀ draft newUlid now n, op = .enqueue draft newUlid now →
      c.store.getByIdempotencyKey draft.idempotencyKey = none → c.store.get newUlid = none →
      draft.legacyMessageId = some n →
      ShownInInbox c draft.receiverId draft.idempotencyKey (some n) ∨
        ∀ x ∈ c.shownIds draft.receiverId, x < n) :
    CursorSafe c' := by
  intro m r' n hget' hlive' hn hpassed
  have hids : ∀ receiverId, c'.shownIds receiverId = c.shownIds receiverId := by
    intro receiverId
    unfold Mailroom.shownIds
    rw [hshown]
  rw [hids] at hpassed
  have hmono : ∀ x ∈ c.shown, x ∈ c'.shown := by
    intro x hx
    rw [hshown]
    exact hx
  rw [hstore] at hget'
  cases hget : c.store.get m with
  | none =>
    obtain ⟨draft, now, rfl, rfl, -⟩ := inserted_of_exec hget hget'
    have hkey := keyFree_of_inserted hget hget'
    obtain hseen | hlt := habove draft m now n rfl hkey hget hn
    · refine Seen.mono (.inr ?_) hmono
      show ShownInInbox c draft.receiverId draft.idempotencyKey draft.legacyMessageId
      rw [show draft.legacyMessageId = some n from hn]
      exact hseen
    · obtain ⟨x, hx, hle⟩ := hpassed
      have := hlt x hx
      omega
  | some r =>
    obtain ⟨l, hstep, -⟩ := rowStep_of_exec hget hget'
    have hfixed := hstep.fixedColumns
    have hid : r'.msgId = r.msgId := congrArg FixedColumns.msgId hfixed
    have hkey : r'.idempotencyKey = r.idempotencyKey :=
      congrArg FixedColumns.idempotencyKey hfixed
    have hlegacy : r'.legacyMessageId = r.legacyMessageId :=
      congrArg FixedColumns.legacyMessageId hfixed
    have hrecv := hstep.receiverId hst.2
    rw [hrecv] at hpassed ⊢
    rw [hlegacy] at hn
    have hseen := (h m r n hget (hstep.live_before hlive') hn hpassed).mono hmono
    unfold Seen at hseen ⊢
    rw [hid, hkey, hlegacy]
    exact hseen

/-- The queue serves a prefix of what it holds after the cursor, and nothing where it holds
nothing. -/
theorem listFromQueue_spec (s : Store) (receiverId : String) (afterId : Int) (limit : Nat) :
    (pendingForReceiver s receiverId afterId (-1) = [] ∧
      listFromQueue s receiverId afterId limit = none) ∨
    listFromQueue s receiverId afterId limit =
      some ((pendingForReceiver s receiverId afterId (-1)).take limit) := by
  have hcut := pendingForReceiver_limit s receiverId afterId (limit + 1)
  push_cast at hcut
  unfold listFromQueue
  simp only
  rw [hcut]
  by_cases hnil : (pendingForReceiver s receiverId afterId (-1)).take (limit + 1) = []
  · rw [if_pos hnil]
    left
    refine ⟨?_, rfl⟩
    rw [List.take_eq_nil_iff] at hnil
    exact hnil.resolve_left (Nat.succ_ne_zero limit)
  · rw [if_neg hnil, List.take_take, Nat.min_eq_left (Nat.le_succ limit)]
    exact .inr rfl

theorem mem_of_listFromQueue {s : Store} {receiverId : String} {afterId : Int} {limit : Nat}
    {rows : List QueueMessage} (hrows : listFromQueue s receiverId afterId limit = some rows)
    (hr : r ∈ rows) : r ∈ pendingForReceiver s receiverId afterId (-1) := by
  obtain ⟨-, hnone⟩ | hsome := listFromQueue_spec s receiverId afterId limit
  · rw [hnone] at hrows
    cases hrows
  · rw [hsome] at hrows
    rw [← Option.some.inj hrows] at hr
    exact List.mem_of_mem_take hr

/-- Every item of a listing is shown to the receiver that asked. -/
theorem receiverId_of_mem_listMessages {s : Store} {inbox : Table InboxRow.id}
    {receiverId : String} {addresses : List String} {afterId : Option Int}
    {consumedThrough : Int} {limit : Nat} {x : Shown}
    (hx : x ∈ listMessages s inbox receiverId addresses afterId consumedThrough limit) :
    x.receiverId = receiverId := by
  unfold listMessages at hx
  split at hx
  · obtain ⟨a, -, rfl⟩ := List.mem_map.mp hx
    rfl
  · obtain ⟨row, -, rfl⟩ := List.mem_map.mp hx
    rfl

/-- A row after the cursor that an item of the page has reached is on the page, or has the id of
a row that is. -/
theorem reached_of_mem_listMessages {s : Store} {inbox : Table InboxRow.id}
    {receiverId : String} {addresses : List String} {afterId : Option Int}
    {consumedThrough : Int} {limit : Nat} {x : Shown} {n : Int}
    (hx : x ∈ listMessages s inbox receiverId addresses afterId consumedThrough limit)
    (hr : r ∈ pendingForReceiver s receiverId (afterId.getD 0) (-1))
    (hn : r.legacyMessageId = some n) (hle : n ≤ x.id) :
    ∃ rows, listFromQueue s receiverId (afterId.getD 0) limit = some rows ∧
      (r ∈ rows ∨ ∃ a ∈ rows, r.legacyMessageId = a.legacyMessageId) := by
  have hsorted := pairwise_pendingForReceiver s receiverId (afterId.getD 0)
  obtain ⟨hnil, -⟩ | hrows := listFromQueue_spec s receiverId (afterId.getD 0) limit
  · rw [hnil] at hr
    cases hr
  · refine ⟨_, hrows, ?_⟩
    unfold listMessages at hx
    rw [hrows] at hx
    obtain ⟨a, ha, rfl⟩ := List.mem_map.mp hx
    rw [← List.take_append_drop limit (pendingForReceiver s receiverId (afterId.getD 0) (-1)),
      List.mem_append] at hr
    obtain hin | hout := hr
    · exact .inl hin
    · -- the rows left out come after those on the page
      have hge : a.legacyMessageId.getD 0 ≤ r.legacyMessageId.getD 0 :=
        hsorted.rel_of_mem_take_of_mem_drop ha hout
      obtain ⟨-, -, -, k, hk, -⟩ := mem_pendingForReceiver (List.mem_of_mem_take ha)
      have hid : n ≤ a.legacyMessageId.getD 0 := hle
      rw [hk] at hid
      rw [hk, hn] at hge
      have heq : n = k := le_antisymm hid hge
      right
      refine ⟨a, ha, ?_⟩
      rw [hk, hn, heq]

/-- A listing that cuts no id in two keeps the cursor safe. -/
theorem CursorSafe.list (h : CursorSafe c) (hwf : c.Wf) {receiverId : String}
    {addresses : List String} {afterId : Option Int} {consumedThrough : Int} {limit : Nat}
    (hafter : ∀ a ∈ afterId, a = 0 ∨ a ∈ c.shownIds receiverId)
    (hwhole : ListsWhole c (.listMessages receiverId addresses afterId consumedThrough limit)) :
    CursorSafe (c.show (listMessages c.store c.inbox receiverId addresses afterId consumedThrough
      limit)) := by
  intro m r n hget hlive hn hpassed
  have hmono : ∀ x ∈ c.shown, x ∈ (c.show (listMessages c.store c.inbox receiverId addresses
      afterId consumedThrough limit)).shown := fun x hx => List.mem_append_left _ hx
  obtain ⟨id, hid, hle⟩ := hpassed
  obtain ⟨x, hx, hxr, rfl⟩ := mem_shownIds.mp hid
  obtain hold | hnew := List.mem_append.mp hx
  · -- an id shown before this listing
    exact (h m r n hget hlive hn ⟨x.id, mem_shownIds.mpr ⟨x, hold, hxr, rfl⟩, hle⟩).mono hmono
  have hrecv : r.receiverId = receiverId := by
    rw [← hxr]
    exact receiverId_of_mem_listMessages hnew
  by_cases hbefore : n ≤ afterId.getD 0
  · -- the row stands before the page: the page started at an id shown earlier
    have hpos : 0 < n := by
      obtain ⟨-, hnone⟩ | ⟨-, k, hk, hpos⟩ := hwf.shaped m r hget
      · rw [hn] at hnone
        cases hnone
      · rw [hn] at hk
        cases hk
        exact hpos
    cases hat : afterId with
    | none =>
      rw [hat] at hbefore
      exact absurd hbefore (not_le.mpr hpos)
    | some a =>
      rw [hat] at hbefore hafter
      obtain rfl | hshown := hafter a rfl
      · exact absurd hbefore (not_le.mpr hpos)
      · rw [← hrecv] at hshown
        rw [hat] at hmono
        exact (h m r n hget hlive hn ⟨a, hshown, hbefore⟩).mono hmono
  · have hmem : r ∈ pendingForReceiver c.store receiverId (afterId.getD 0) (-1) := by
      rw [← msgId_of_get hget] at hget
      exact mem_pendingForReceiver_of_limit (.inl (by omega)) hget hrecv hlive hn
        (not_le.mp hbefore)
    obtain ⟨rows, hrows, hon⟩ := reached_of_mem_listMessages hnew hmem hn hle
    rw [hrecv]
    obtain hin | hseen : r ∈ rows ∨ Seen c receiverId r := by
      obtain hin | ⟨a, ha, heq⟩ := hon
      · exact .inl hin
      · exact hwhole hafter rows hrows a ha r hmem heq
    · refine .inl ⟨queueItem receiverId r, List.mem_append_right _ ?_, rfl, rfl⟩
      unfold listMessages
      rw [hrows]
      exact List.mem_map_of_mem hin
    · exact hseen.mono hmono

/-! ## What is on its way stays ahead -/

/-- A row of the receiver's in the queue, or a row of the inbox, has this id. -/
def Held (c : Mailroom) (receiverId : String) (id : Int) : Prop :=
  (∃ r ∈ c.store.deliveryMsg.rows, r.receiverId = receiverId ∧ r.legacyMessageId = some id) ∨
    ∃ row ∈ c.inbox.rows, row.id = id

/-- What is on its way comes in above all that its receiver was shown, or was shown itself while
it waited in the inbox; and what was shown is held. -/
structure Ahead (calls : Nat → InboxRow) (c : Mailroom) : Prop where
  sending : ∀ receiverId n, Sending calls c receiverId n → ∀ x ∈ c.shownIds receiverId, x < n
  waiting : ∀ receiverId row, Waiting c receiverId row →
    ShownInInbox c receiverId (adoptedKey row.id) (some row.id) ∨
      ∀ x ∈ c.shownIds receiverId, x < row.id
  held : ∀ receiverId, ∀ x ∈ c.shownIds receiverId, Held c receiverId x

theorem ahead_start : Ahead calls Mailroom.start where
  sending receiverId n _ x hx := by cases hx
  waiting receiverId row h := by cases h.1
  held receiverId x hx := by cases hx

/-- A row that is enqueued comes in above what its receiver was shown. -/
theorem Ahead.inserted (h : Ahead calls c) {event : Event} {draft : EnqueueDraft}
    {newUlid : String} {now n : Int}
    (hop : storeOp contentHash calls c event = some (.enqueue draft newUlid now))
    (hkey : c.store.getByIdempotencyKey draft.idempotencyKey = none)
    (hn : draft.legacyMessageId = some n) :
    ShownInInbox c draft.receiverId draft.idempotencyKey (some n) ∨
      ∀ x ∈ c.shownIds draft.receiverId, x < n := by
  obtain ⟨call, k, -, hat, hdraft⟩ | ⟨id, row, -, hget, hin, hdraft⟩ | ⟨row, -, hdraft⟩ :=
    storeOp_enqueue hop
  · obtain ⟨-, hrecv, -, -, hlegacy, -⟩ := factDraft_eq_some hdraft
    cases hn.symm.trans hlegacy
    exact .inr (h.sending _ n ⟨call, hat, hrecv.symm⟩)
  · obtain ⟨hdkey, hrecv, -, -, hlegacy, -⟩ := factDraft_eq_some hdraft
    cases hn.symm.trans hlegacy
    obtain rfl := Table.key_of_get hget
    rw [hdkey] at hkey ⊢
    exact h.waiting _ row ⟨hget, hrecv.symm, hkey, .inr hin⟩
  · rw [(noticeDraft_eq_some hdraft).2.1] at hn
    cases hn

theorem keyFree_of_exec {op : Op} (hst : Stationary op) {key : String}
    (h : (exec sha256 c.store op).getByIdempotencyKey key = none) :
    c.store.getByIdempotencyKey key = none := by
  by_contra hsome
  obtain ⟨r, hr⟩ := Option.ne_none_iff_exists'.mp hsome
  obtain ⟨hget, hidem⟩ := getByIdempotencyKey_of_mem hr
  obtain ⟨r', hget', -, hfixed⟩ := hst.kept hget
  have hkey : r'.idempotencyKey = r.idempotencyKey := congrArg FixedColumns.idempotencyKey hfixed
  have hne := List.find?_eq_none.mp h r' (Table.mem_of_get hget')
  rw [hkey, hidem] at hne
  exact hne (decide_eq_true rfl)

/-- A row that was picked up was so before, or is pending. -/
theorem scanned_of_step {event : Event} {id : Int}
    (h : id ∈ (step sha256 contentHash calls c event).scanned) :
    id ∈ c.scanned ∨ ∃ row, c.inbox.get id = some row ∧ row.status = .pending := by
  cases event with
  | findRecentDuplicate | nextSurrogateId | enqueue => exact .inl h
  | scan picked =>
    simp only [step] at h
    split at h
    · next hpending =>
      obtain rfl | hold := List.mem_cons.mp h
      · obtain ⟨row, hrow, hstatus⟩ := (Option.any_eq_true _ _).mp hpending
        exact .inr ⟨row, hrow, eq_of_beq hstatus⟩
      · exact .inl hold
    · exact .inl h
  | adopt adopted newUlid now =>
    simp only [step] at h
    split at h
    · exact .inl h
    · split at h <;> exact .inl h
  | _ =>
    simp only [step] at h
    split at h <;> exact .inl h

/-- A row that waits did so before, or a fall-back has just inserted it. -/
theorem waiting_of_step {event : Event} (hord : Ordinary event) {receiverId : String}
    {row : InboxRow} (h : Waiting (step sha256 contentHash calls c event) receiverId row) :
    Waiting c receiverId row ∨ ∃ call, event = .insert call ∧
      c.sends.progress call = .fellBack ∧ (calls call).effectiveReceiver = receiverId ∧
        row.id = nextId c.inbox := by
  obtain ⟨hget, hrecv, hkey, hopen⟩ := h
  have hfree : c.store.getByIdempotencyKey (adoptedKey row.id) = none := by
    have hstore : (step sha256 contentHash calls c event).store =
        (storeOp contentHash calls c event).elim c.store (exec sha256 c.store) :=
      step_store sha256 event
    rw [hstore] at hkey
    cases hop : storeOp contentHash calls c event with
    | none =>
      rw [hop] at hkey
      exact hkey
    | some op =>
      rw [hop] at hkey
      exact keyFree_of_exec (stationary_of_storeOp hord hop) hkey
  have hold : c.inbox.get row.id = some row → Waiting c receiverId row := by
    refine fun hget' => ⟨hget', hrecv, hfree, ?_⟩
    obtain hpending | hin := hopen
    · exact .inl hpending
    · obtain hin | ⟨other, hother, hpending⟩ := scanned_of_step hin
      · exact .inr hin
      · rw [hget'] at hother
        cases hother
        exact .inl hpending
  by_cases hins : ∃ call, event = .insert call
  · obtain ⟨call, rfl⟩ := hins
    simp only [step] at hget
    split at hget
    · next hat =>
      change (c.inbox.insert { calls call with id := nextId c.inbox }).get row.id = some row at hget
      rw [Table.get_insert_nextKey c.inbox rfl] at hget
      split at hget
      · next hid =>
        cases hget
        exact .inr ⟨call, rfl, hat, hrecv, hid⟩
      · exact .inl (hold hget)
    · exact .inl (hold hget)
  · by_cases hret : ∃ id, event = .retire id
    · obtain ⟨id, rfl⟩ := hret
      simp only [step] at hget
      split at hget
      · next hheld =>
        change (retireRow c.inbox id).get row.id = some row at hget
        unfold retireRow at hget
        have hid : row.id ≠ id := by
          rintro rfl
          rw [hfree] at hheld
          cases hheld
        rw [Table.get_updateKey] at hget
        simp only [hid, false_and, if_false, Option.map_id'] at hget
        exact .inl (hold hget)
      · exact .inl (hold hget)
    · rw [step_inbox sha256 contentHash calls c (fun call h => hins ⟨call, h⟩)
        (fun id h => hret ⟨id, h⟩)] at hget
      exact .inl (hold hget)

/-- What is held stays. -/
theorem Held.step {event : Event} (hord : Ordinary event) {receiverId : String} {id : Int}
    (h : Held c receiverId id) : Held (step sha256 contentHash calls c event) receiverId id := by
  obtain ⟨r, hr, hrecv, hlegacy⟩ | ⟨row, hrow, rfl⟩ := h
  · have hstore : (Wiring.step sha256 contentHash calls c event).store =
        (storeOp contentHash calls c event).elim c.store (exec sha256 c.store) :=
      step_store sha256 event
    refine .inl ?_
    rw [hstore]
    cases hop : storeOp contentHash calls c event with
    | none => exact ⟨r, hr, hrecv, hlegacy⟩
    | some op =>
      obtain ⟨r', hget', hrecv', hfixed⟩ :=
        (stationary_of_storeOp hord hop).kept ((Table.mem_rows_iff _ _).mp hr)
      have hsame : r'.legacyMessageId = r.legacyMessageId :=
        congrArg FixedColumns.legacyMessageId hfixed
      exact ⟨r', Table.mem_of_get hget', hrecv'.trans hrecv,
        hsame.trans hlegacy⟩
  · refine .inr ?_
    by_cases hins : ∃ call, event = .insert call
    · obtain ⟨call, rfl⟩ := hins
      simp only [Wiring.step]
      split
      · exact ⟨row, mem_insertRow.mpr (.inl hrow), rfl⟩
      · exact ⟨row, hrow, rfl⟩
    · by_cases hret : ∃ id, event = .retire id
      · obtain ⟨id, rfl⟩ := hret
        simp only [Wiring.step]
        split
        · refine ⟨_, List.mem_map_of_mem hrow, ?_⟩
          split
          · exact (statusPatch .adopted).keeps row
          · rfl
        · exact ⟨row, hrow, rfl⟩
      · rw [step_inbox sha256 contentHash calls c (fun call h => hins ⟨call, h⟩)
          (fun id h => hret ⟨id, h⟩)]
        exact ⟨row, hrow, rfl⟩

/-- What was shown is below the surrogate that is read now. -/
theorem Held.lt_nextSurrogateId {receiverId : String} {x : Int} (h : Held c receiverId x) :
    x < nextSurrogateId c.store (maxId c.inbox) := by
  obtain ⟨r, hr, -, hlegacy⟩ | ⟨row, hrow, rfl⟩ := h
  · exact (Queue.lt_nextSurrogateId c.store (maxId c.inbox)).1 r.msgId r x
      ((Table.mem_rows_iff _ _).mp hr) hlegacy
  · have hmem : row.id ∈ c.inbox.rows.map InboxRow.id := List.mem_map_of_mem hrow
    cases hmax : maxId c.inbox with
    | none =>
      rw [List.max?_eq_none_iff.mp hmax] at hmem
      cases hmem
    | some v =>
      have hle := (List.max?_eq_some_iff.mp hmax).2 _ hmem
      exact lt_of_le_of_lt hle ((Queue.lt_nextSurrogateId c.store (some v)).2 v rfl)

/-- A row that a listing could return is on its page if one at or above it is. -/
theorem mem_listFromInbox {t : Table InboxRow.id} {receiverId : String} {addresses : List String}
    {afterId : Int} {limit : Nat} {row x : InboxRow}
    (hx : x ∈ listFromInbox t receiverId addresses afterId limit) (hrow : row ∈ t.rows)
    (hlisted : inboxListed receiverId addresses afterId row = true) (hle : row.id ≤ x.id) :
    row ∈ listFromInbox t receiverId addresses afterId limit := by
  unfold listFromInbox at hx ⊢
  have hsorted := List.pairwise_insertionSort (fun a b : InboxRow => a.id ≤ b.id)
    (t.select (inboxListed receiverId addresses afterId))
  have hin : row ∈ (t.select (inboxListed receiverId addresses afterId)).insertionSort
      fun a b => a.id ≤ b.id := by
    rw [List.mem_insertionSort]
    exact List.mem_filter.mpr ⟨hrow, hlisted⟩
  rw [← List.take_append_drop limit ((t.select _).insertionSort _), List.mem_append] at hin
  obtain hin | hout := hin
  · exact hin
  · -- a row behind the page is not below one of the page, so it is that one
    have hge := hsorted.rel_of_mem_take_of_mem_drop hx hout
    have hxrow := (List.mem_filter.mp ((List.mem_insertionSort _).mp (List.mem_of_mem_take hx))).1
    rwa [List.inj_on_of_nodup_map t.unique hrow hxrow (le_antisymm hle hge)]

/-- A listing that overtakes nothing keeps what is on its way ahead. -/
theorem Ahead.list (h : Ahead calls c) {receiverId : String} {addresses : List String}
    {afterId : Option Int} {consumedThrough : Int} {limit : Nat}
    (hover : NotOvertaken calls c
      (.listMessages receiverId addresses afterId consumedThrough limit)) :
    Ahead calls (c.show (listMessages c.store c.inbox receiverId addresses afterId consumedThrough
      limit)) := by
  obtain ⟨hsending, hwaiting⟩ := hover
  generalize hitems : listMessages c.store c.inbox receiverId addresses afterId consumedThrough
    limit = items
  -- an id shown now comes from the queue, or from the inbox where the queue has nothing
  have hnew : ∀ other, ∀ x ∈ (c.show items).shownIds other, x ∈ c.shownIds other ∨
      other = receiverId ∧
        ((∃ r ∈ pendingForReceiver c.store receiverId (afterId.getD 0) (-1),
            r.legacyMessageId = some x) ∨
          pendingForReceiver c.store receiverId (afterId.getD 0) (-1) = [] ∧
          items = (listFromInbox c.inbox receiverId addresses (afterId.getD consumedThrough)
            limit).map (inboxItem receiverId) ∧
          ∃ row ∈ listFromInbox c.inbox receiverId addresses (afterId.getD consumedThrough) limit,
            row.id = x) := by
    intro other x hx
    obtain ⟨item, hitem, rfl, rfl⟩ := mem_shownIds.mp hx
    obtain hold | hin := List.mem_append.mp hitem
    · exact .inl (mem_shownIds.mpr ⟨item, hold, rfl, rfl⟩)
    · rw [← hitems] at hin
      refine .inr ⟨receiverId_of_mem_listMessages hin, ?_⟩
      unfold listMessages at hin hitems
      split at hin
      · next rows hrows =>
        obtain ⟨r, hr, rfl⟩ := List.mem_map.mp hin
        have hpending := mem_of_listFromQueue hrows hr
        obtain ⟨-, -, -, k, hk, -⟩ := mem_pendingForReceiver hpending
        refine .inl ⟨r, hpending, ?_⟩
        rw [hk]
        show some k = some (r.legacyMessageId.getD 0)
        rw [hk]
        rfl
      · next hnone =>
        rw [hnone] at hitems
        obtain ⟨hnil, -⟩ | hsome := listFromQueue_spec c.store receiverId (afterId.getD 0) limit
        · obtain ⟨row, hrow, rfl⟩ := List.mem_map.mp hin
          exact .inr ⟨hnil, hitems.symm, row, hrow, rfl⟩
        · rw [hnone] at hsome
          cases hsome
  have hlisted : ∀ row ∈ listFromInbox c.inbox receiverId addresses
      (afterId.getD consumedThrough) limit, row ∈ c.inbox.rows ∧
        inboxListed receiverId addresses (afterId.getD consumedThrough) row = true := fun row hrow =>
    List.mem_filter.mp ((List.mem_insertionSort _).mp (List.mem_of_mem_take hrow))
  refine ⟨fun other n hsend x hx => ?_, fun other row hwait => ?_, fun other x hx => ?_⟩
  · obtain hold | ⟨rfl, ⟨r, hr, hk⟩ | ⟨hnil, -, row, hrow, rfl⟩⟩ := hnew other x hx
    · exact h.sending other n hsend x hold
    · exact (hsending n hsend).1 r hr x hk
    · exact (hsending n hsend).2 hnil row (hlisted row hrow).1 (hlisted row hrow).2
  · by_cases hshown : ShownInInbox (c.show items) other (adoptedKey row.id) (some row.id)
    · exact .inl hshown
    refine .inr fun x hx => ?_
    obtain hold | ⟨rfl, ⟨r, hr, hk⟩ | ⟨hnil, heq, row', hrow', rfl⟩⟩ := hnew other x hx
    · obtain ⟨y, hy, hrest⟩ | hbelow := h.waiting other row hwait
      · exact absurd ⟨y, List.mem_append_left _ hy, hrest⟩ hshown
      · exact hbelow x hold
    · exact (hwaiting row hwait).1 r hr x hk
    · obtain hself | hbelow := (hwaiting row hwait).2 hnil
      · by_contra hge
        refine hshown ⟨inboxItem other row, List.mem_append_right _ ?_, rfl, rfl, rfl, rfl⟩
        rw [heq]
        exact List.mem_map_of_mem (mem_listFromInbox hrow'
          (Table.mem_of_get hwait.1) hself (not_lt.mp hge))
      · exact hbelow row' (hlisted row' hrow').1 (hlisted row' hrow').2
  · obtain hold | ⟨rfl, ⟨r, hr, hk⟩ | ⟨-, -, row, hrow, rfl⟩⟩ := hnew other x hx
    · exact h.held other x hold
    · obtain ⟨hget, hrecv, -⟩ := mem_pendingForReceiver hr
      exact .inl ⟨r, (Table.mem_rows_iff _ _).mpr hget, hrecv, hk⟩
    · exact .inr ⟨row, (hlisted row hrow).1, rfl⟩

/-- Each step keeps what is on its way ahead. -/
theorem Ahead.step (h : Ahead calls c) {event : Event} (hord : Ordinary event)
    (hstays : StaysAhead calls c event) : Ahead calls (step sha256 contentHash calls c event) := by
  by_cases hlist : ∃ receiverId addresses afterId consumedThrough limit,
      event = .listMessages receiverId addresses afterId consumedThrough limit
  · obtain ⟨receiverId, addresses, afterId, consumedThrough, limit, rfl⟩ := hlist
    simp only [Wiring.step]
    split
    · exact h.list hstays.overtakes
    · exact h
  · have hshown := step_shown sha256 contentHash calls c
      fun receiverId addresses afterId consumedThrough limit he =>
        hlist ⟨receiverId, addresses, afterId, consumedThrough, limit, he⟩
    have hids : ∀ receiverId, (Wiring.step sha256 contentHash calls c event).shownIds receiverId =
        c.shownIds receiverId := by
      intro receiverId
      unfold Mailroom.shownIds
      rw [hshown]
    refine ⟨?_, ?_, ?_⟩
    · rintro receiverId n ⟨call, hat, hrecv⟩ x hx
      rw [hids] at hx
      obtain hold | rfl := allocated_of_step hat
      · exact h.sending receiverId n ⟨call, hold, hrecv⟩ x hx
      · exact (h.held receiverId x hx).lt_nextSurrogateId
    · intro receiverId row hwait
      unfold ShownInInbox
      rw [hids, hshown]
      obtain hold | ⟨call, rfl, hat, rfl, hid⟩ := waiting_of_step hord hwait
      · exact h.waiting receiverId row hold
      · refine .inr fun x hx => ?_
        rw [hid]
        obtain ⟨r, hr, hrecv, hlegacy⟩ | ⟨other, hother, rfl⟩ := h.held _ x hx
        · obtain hnothing | habove := hstays.fallsBack hat
          · rw [hnothing] at hx
            cases hx
          · exact habove r hr hrecv x hlegacy
        · exact Table.lt_nextKey hother
    · intro receiverId x hx
      rw [hids] at hx
      exact (h.held receiverId x hx).step hord

/-- Every step that meets its condition keeps the cursor safe. -/
theorem CursorSafe.step (h : CursorSafe c) (hwf : c.Wf) (hahead : Ahead calls c) {event : Event}
    (hord : Ordinary event) (hstays : StaysAhead calls c event) :
    CursorSafe (step sha256 contentHash calls c event) := by
  by_cases hlist : ∃ receiverId addresses afterId consumedThrough limit,
      event = .listMessages receiverId addresses afterId consumedThrough limit
  · obtain ⟨receiverId, addresses, afterId, consumedThrough, limit, rfl⟩ := hlist
    simp only [Wiring.step]
    split
    · next hafter => exact h.list hwf hafter hstays.listsWhole
    · exact h
  · have hshown := step_shown sha256 contentHash calls c
      fun receiverId addresses afterId consumedThrough limit he =>
        hlist ⟨receiverId, addresses, afterId, consumedThrough, limit, he⟩
    have hstore : (Wiring.step sha256 contentHash calls c event).store =
        (storeOp contentHash calls c event).elim c.store (Queue.exec sha256 c.store) :=
      step_store sha256 event
    cases hop : storeOp contentHash calls c event with
    | none =>
      rw [hop] at hstore
      exact h.congr hstore hshown
    | some op =>
      rw [hop] at hstore
      refine h.exec (stationary_of_storeOp hord hop) hstore hshown ?_
      rintro draft newUlid now n rfl hkey -
      exact hahead.inserted hop hkey

/-! ## Runs -/

theorem cursorSafe_start : CursorSafe Mailroom.start := by
  intro m r n hget
  have hnone : Mailroom.start.store.get m = none := Table.get_empty m
  rw [hnone] at hget
  cases hget

/-- In every state an interleaving of sends, fall-backs, adoptions, listings and acks passes
through, an ack of the largest id shown consumes nothing unseen, if no listing overtakes what is
on its way, no send falls back behind the surrogates, and every listing takes the rows of an id
whole. -/
theorem ackSafe_of_staysAhead (sha256 contentHash : String → String) (calls : Nat → InboxRow)
    (events : List Event) (hord : ∀ event ∈ events, Ordinary event)
    (hstays : StepsSatisfy (step sha256 contentHash calls) (StaysAhead calls) Mailroom.start
      events) :
    ∀ before after, events = before ++ after →
      AckSafe (run (step sha256 contentHash calls) Mailroom.start before) := by
  rintro before after rfl
  rw [stepsSatisfy_append] at hstays
  have hboth : StepsSatisfy (step sha256 contentHash calls)
      (fun c event => StaysAhead calls c event ∧ Ordinary event) Mailroom.start before := by
    rw [stepsSatisfy_iff]
    rintro xs event ys rfl
    exact ⟨(stepsSatisfy_iff _ _ _).mp hstays.1 xs event ys rfl, hord event (by simp)⟩
  have hinv := run_invariant_of (fun c event => StaysAhead calls c event ∧ Ordinary event)
    (fun c => CursorSafe c ∧ c.Wf ∧ Ahead calls c)
    (fun c event hev h => ⟨h.1.step h.2.1 h.2.2 hev.2 hev.1, h.2.1.step event,
      h.2.2.step hev.2 hev.1⟩)
    Mailroom.start ⟨cursorSafe_start, wf_start, ahead_start⟩ before hboth
  exact ackSafe_iff.mpr hinv.1

/-- Three reports to one seat. -/
def threeReports : Nat → InboxRow
  | 0 => { senderId := "worker", receiverId := "mb_seat", message := "one" }
  | 1 => { senderId := "worker", receiverId := "mb_seat", message := "two" }
  | _ => { senderId := "worker", receiverId := "mb_seat", message := "three" }

/-- The first falls back, is adopted and listed. The second has read its surrogate when the seat
lists again and the third falls back and is adopted under the same id; then it is enqueued. The
seat lists all and acks. -/
def overlapping : List Event :=
  [.findRecentDuplicate 0 0, .fail 0, .insert 0, .scan 1, .adopt 1 "01" 1, .retire 1,
    .listMessages "mb_seat" [] none 0 25, .findRecentDuplicate 1 2, .nextSurrogateId 1,
    .listMessages "mb_seat" [] none 0 25, .findRecentDuplicate 2 3, .fail 2, .insert 2, .scan 2,
    .adopt 2 "02" 4, .enqueue 1 "03" 5, .retire 2, .listMessages "mb_seat" [] none 0 25,
    .ackMessages "mb_seat" 6]

/-- A listing that has room for all overtakes only sends, where every inbox row is adopted. -/
theorem staysAhead_of_adopted {receiverId : String} {addresses : List String}
    {afterId : Option Int} {consumedThrough : Int} {limit : Nat}
    (hadopted : ∀ row ∈ c.inbox.rows,
      (c.store.getByIdempotencyKey (adoptedKey row.id)).isSome = true)
    (hsending : ∀ n, Sending calls c receiverId n → QueueBelow c receiverId (afterId.getD 0) n ∧
      pendingForReceiver c.store receiverId (afterId.getD 0) (-1) ≠ [])
    (hroom : (pendingForReceiver c.store receiverId (afterId.getD 0) (-1)).length ≤ limit) :
    StaysAhead calls c (.listMessages receiverId addresses afterId consumedThrough limit) := by
  refine ⟨trivial, ⟨fun n h => ⟨(hsending n h).1, fun hnil => absurd hnil (hsending n h).2⟩, ?_⟩,
    ?_⟩
  · rintro row ⟨hget, -, hfree, -⟩
    have hsome := hadopted row (Table.mem_of_get hget)
    rw [hfree] at hsome
    cases hsome
  · intro _ rows hrows a _ r hr _
    obtain ⟨hnil, -⟩ | hall := listFromQueue_spec c.store receiverId (afterId.getD 0) limit
    · rw [hnil] at hr
      cases hr
    · rw [hrows, List.take_of_length_le hroom] at hall
      cases hall
      exact .inl hr

instance (c : Mailroom) (receiverId : String) (afterId n : Int) :
    Decidable (QueueBelow c receiverId afterId n) :=
  inferInstanceAs (Decidable (∀ r ∈ pendingForReceiver c.store receiverId afterId (-1),
    ∀ k ∈ r.legacyMessageId, k < n))

theorem staysAhead_overlapping :
    StepsSatisfy (step id id threeReports) (StaysAhead threeReports) Mailroom.start
      overlapping := by
  refine ⟨⟨trivial, trivial, trivial⟩, ⟨trivial, trivial, trivial⟩,
    ⟨fun _ => .inl rfl, trivial, trivial⟩, ⟨trivial, trivial, trivial⟩,
    ⟨trivial, trivial, trivial⟩, ⟨trivial, trivial, trivial⟩, ?_, ⟨trivial, trivial, trivial⟩,
    ⟨trivial, trivial, trivial⟩, ?_, ⟨trivial, trivial, trivial⟩, ⟨trivial, trivial, trivial⟩,
    ⟨fun _ => .inr (by decide +kernel), trivial, trivial⟩, ⟨trivial, trivial, trivial⟩,
    ⟨trivial, trivial, trivial⟩, ⟨trivial, trivial, trivial⟩, ⟨trivial, trivial, trivial⟩, ?_,
    ⟨trivial, trivial, trivial⟩, trivial⟩
  · refine staysAhead_of_adopted (by decide +kernel) ?_ (by decide +kernel)
    rintro n ⟨_ | call, hat, -⟩ <;> cases hat
  · refine staysAhead_of_adopted (by decide +kernel) ?_ (by decide +kernel)
    rintro n ⟨_ | _ | call, hat, -⟩ <;> cases hat
    exact ⟨by decide +kernel, by decide +kernel⟩
  · refine staysAhead_of_adopted (by decide +kernel) ?_ (by decide +kernel)
    rintro n ⟨_ | _ | _ | call, hat, -⟩ <;> cases hat

/-- The run above acks what it was shown. -/
theorem ackSafe_overlapping :
    AckSafe (run (step id id threeReports) Mailroom.start overlapping) ∧
      (run (step id id threeReports) Mailroom.start (overlapping.take 18)).largestShown "mb_seat" =
        some 2 :=
  ⟨ackSafe_of_staysAhead id id threeReports overlapping (by simp [overlapping, Ordinary])
    staysAhead_overlapping overlapping [] (List.append_nil _).symm, by decide +kernel⟩

/-- The second write-through fails after the seat has listed the first; the inbox row it leaves
is its row 1, and so is the surrogate already listed. -/
def lateAdoption : List Event :=
  [.findRecentDuplicate 0 0, .nextSurrogateId 0, .enqueue 0 "01" 0,
    .listMessages "mb_seat" [] none 0 25, .findRecentDuplicate 1 0, .fail 1, .insert 1, .scan 1]

/-- The ack of 1 settles a report that no listing returned. -/
theorem lateAdoption_not_ackSafe :
    ¬ ∃ sha256 contentHash, AckSafe (run (step sha256 contentHash threeReports) Mailroom.start
      (lateAdoption ++ [.adopt 1 "02" 1])) := by
  rintro ⟨sha256, contentHash, h⟩
  rw [run_concat, ackSafe_iff] at h
  obtain ⟨first, hfirst⟩ : ∃ first,
      factDraft (liveKey 1) (writeThroughFact (threeReports 0)) 1 = some first := ⟨_, rfl⟩
  obtain ⟨late, hlate⟩ : ∃ late, factDraft (adoptedKey 1)
      (adoptionFact contentHash { threeReports 1 with id := 1 }) 1 = some late := ⟨_, rfl⟩
  -- the first report is in the queue
  have hsent : run (step sha256 contentHash threeReports) Mailroom.start (lateAdoption.take 3) =
      ⟨(((Sends.start Store.empty).put 0 .windowClear Store.empty).put 0 (.allocated 1)
        Store.empty).put 0 (enqueueFact sha256 Store.empty (writeThroughFact (threeReports 0)) 1
        "01" 0).1 (enqueueFact sha256 Store.empty (writeThroughFact (threeReports 0)) 1 "01" 0).2,
        Table.empty, [], []⟩ := rfl
  rw [enqueueFact_fresh hfirst rfl rfl] at hsent
  -- it was listed as 1, and the second report waits in the inbox as 1
  obtain ⟨c, hc, hop, hkey, hid, hshown⟩ : ∃ c,
      run (step sha256 contentHash threeReports) Mailroom.start lateAdoption = c ∧
      storeOp contentHash threeReports c (.adopt 1 "02" 1) = some (.enqueue late "02" 1) ∧
      c.store.getByIdempotencyKey (adoptedKey 1) = none ∧ c.store.get "02" = none ∧
      c.shown = [⟨"mb_seat", 1, some "01"⟩] := by
    rw [← List.take_append_drop 3 lateAdoption, run_append, hsent]
    cases hfirst
    cases hlate
    exact ⟨_, rfl, rfl, rfl, rfl, rfl⟩
  obtain ⟨hlkey, hlrecv, -, -, hlegacy, -⟩ := factDraft_eq_some hlate
  rw [← hlkey] at hkey
  have hget : (step sha256 contentHash threeReports c (.adopt 1 "02" 1)).store.get "02" =
      some (draftRow sha256 late "02" 1) := by
    rw [step_store, hop]
    show (exec sha256 c.store (.enqueue late "02" 1)).get "02" = _
    rw [exec_enqueue_fresh hkey hid, get_insert_row c.store _ hid]
    exact if_pos rfl
  have hshown' : (step sha256 contentHash threeReports c (.adopt 1 "02" 1)).shown =
      [⟨"mb_seat", 1, some "01"⟩] := by
    rw [step_shown sha256 contentHash threeReports c (by simp), hshown]
  rw [hc] at h
  have hpassed : ∃ x ∈ (step sha256 contentHash threeReports c (.adopt 1 "02" 1)).shownIds
      late.receiverId, (1 : Int) ≤ x := by
    refine ⟨1, mem_shownIds.mpr ⟨⟨"mb_seat", 1, some "01"⟩, ?_, hlrecv.symm, rfl⟩, le_rfl⟩
    rw [hshown']
    exact List.mem_singleton_self _
  obtain ⟨x, hx, -, hxm⟩ | ⟨x, hx, -, hxm, -⟩ := h "02" _ 1 hget rfl hlegacy hpassed
  · rw [hshown', List.mem_singleton] at hx
    rw [hx] at hxm
    have heq : "01" = "02" := Option.some.inj hxm
    exact absurd heq (by decide)
  · rw [hshown', List.mem_singleton] at hx
    rw [hx] at hxm
    cases hxm
end CliAgentOrchestrator.Wiring
