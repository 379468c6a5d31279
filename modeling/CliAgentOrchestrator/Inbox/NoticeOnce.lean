import CliAgentOrchestrator.Inbox.Effect
import CliAgentOrchestrator.Inbox.Notice
import CliAgentOrchestrator.Wiring.AdoptedOnce

/-!
# A notice is sent once where the inbox has it

The two calls look for an earlier copy in the inbox. A notice that the queue has taken is not
there, and the check of a stalled delivery misses one that lies with another incarnation of its
receiver. A queue in the same database file takes none, since the call holds the write lock; the
runs let it take one or not. A `Carrier` is a row of either table that counts as a message of its
own, which the copy that adoption made of an inbox row does not. What one step can do to the
carriers is a `Change`: nothing, or one new carrier.
-/

set_option autoImplicit false

namespace CliAgentOrchestrator.Inbox

open CliAgentOrchestrator.Core Library Queue Wiring

/-! ## Messages -/

/-- What a row of either table says. -/
structure Content where
  senderId : String
  receiverId : String
  message : String
deriving DecidableEq

def InboxRow.content (row : InboxRow) : Content :=
  ⟨row.senderId, row.effectiveReceiver, row.message⟩

/-- What a row of the queue says. -/
def queueContent (r : QueueMessage) : Content := ⟨r.senderId, r.receiverId, r.payload⟩

/-- The queue row is the adopted copy of a row of the inbox. -/
def Copied (inbox : Table InboxRow.id) (r : QueueMessage) : Prop :=
  ∃ id row, inbox.get id = some row ∧ r.idempotencyKey = adoptedKey id ∧
    row.content = queueContent r

/-- A row of one of the two tables. -/
inductive Carrier
  | inbox (id : Int)
  | queue (msgId : String)
deriving DecidableEq

/-- The row is there, counts as a message, and says `x`. -/
def Says (db : Database) : Carrier → Content → Prop
  | .inbox id, x => ∃ row, db.inbox.get id = some row ∧ row.content = x
  | .queue m, x => ∃ r, db.queue.get m = some r ∧ ¬ Copied db.inbox r ∧ queueContent r = x

/-- The senders and headers of one-time notices. -/
inductive IsNotice : String → String → Prop
  | digest (base stateKey : String) (genesis : Bool) :
      IsNotice (digestSender base) (digestHeader base stateKey genesis)
  | stalled (receiverTerminalId : String) (messageIds : List Int) :
      IsNotice (stalledSender receiverTerminalId) (stalledHeader messageIds)

/-- The row is a message with this sender, receiver and header. -/
def Holds (db : Database) (c : Carrier) (senderId receiverId header : String) : Prop :=
  ∃ x, Says db c x ∧ x.senderId = senderId ∧ x.receiverId = receiverId ∧
    startsWith x.message header = true

/-- At most one message for each sender, receiver and notice header. -/
def OneTime (db : Database) : Prop :=
  ∀ senderId receiverId header, IsNotice senderId header →
    ∀ c c', Holds db c senderId receiverId header → Holds db c' senderId receiverId header → c = c'

/-- What a step does to the messages: at most one is new. -/
structure Change (new : Option (Carrier × Content)) (db db' : Database) : Prop where
  kept : ∀ id row, db.inbox.get id = some row →
    ∃ row', db'.inbox.get id = some row' ∧ row'.content = row.content
  inbox : ∀ id row', db'.inbox.get id = some row' →
    (∃ row, db.inbox.get id = some row ∧ row.content = row'.content) ∨
      new = some (.inbox id, row'.content)
  queue : ∀ m r', db'.queue.get m = some r' →
    (∃ r, db.queue.get m = some r ∧ r.idempotencyKey = r'.idempotencyKey ∧
      queueContent r = queueContent r') ∨
      Copied db'.inbox r' ∨ new = some (.queue m, queueContent r')

variable {new : Option (Carrier × Content)} {db db' db'' : Database}

theorem Copied.keeps {inbox inbox' : Table InboxRow.id} {r r' : QueueMessage}
    (h : Copied inbox r)
    (hkept : ∀ id row, inbox.get id = some row →
      ∃ row', inbox'.get id = some row' ∧ row'.content = row.content)
    (hkey : r.idempotencyKey = r'.idempotencyKey) (hsame : queueContent r = queueContent r') :
    Copied inbox' r' := by
  obtain ⟨id, row, hget, hidem, hcontent⟩ := h
  obtain ⟨row', hget', hcontent'⟩ := hkept id row hget
  exact ⟨id, row', hget', hkey.symm.trans hidem, (hcontent'.trans hcontent).trans hsame⟩

theorem Change.refl (new : Option (Carrier × Content)) (db : Database) : Change new db db where
  kept := fun _ row h => ⟨row, h, rfl⟩
  inbox := fun _ row h => .inl ⟨row, h, rfl⟩
  queue := fun _ r h => .inl ⟨r, h, rfl, rfl⟩

/-- A message behind the step was there before it, or is the new one. -/
theorem Change.says (h : Change new db db') {c : Carrier} {x : Content} (htold : Says db' c x) :
    Says db c x ∨ new = some (c, x) := by
  cases c with
  | inbox id =>
    obtain ⟨row', hget', rfl⟩ := htold
    obtain ⟨row, hget, hsame⟩ | hnew := h.inbox id row' hget'
    · exact .inl ⟨row, hget, hsame⟩
    · exact .inr hnew
  | queue m =>
    obtain ⟨r', hget', hcopied, rfl⟩ := htold
    obtain ⟨r, hget, hkey, hsame⟩ | hcopy | hnew := h.queue m r' hget'
    · exact .inl ⟨r, hget, fun hold => hcopied (hold.keeps h.kept hkey hsame), hsame⟩
    · exact absurd hcopy hcopied
    · exact .inr hnew

/-- Some row that counts has a notice header in common with the message. -/
def AlreadySent (db : Database) (x : Content) : Prop :=
  ∃ header c, IsNotice x.senderId header ∧ startsWith x.message header = true ∧
    Holds db c x.senderId x.receiverId header

theorem Change.oneTime (h : Change new db db') (hone : OneTime db)
    (hnew : ∀ c x, new = some (c, x) → ¬ AlreadySent db x) : OneTime db' := by
  intro senderId receiverId header hnotice c c' hc hc'
  obtain ⟨x, htold, hsender, hreceiver, hheader⟩ := hc
  obtain ⟨x', htold', hsender', hreceiver', hheader'⟩ := hc'
  have hold : ∀ d y, Says db d y → y.senderId = senderId → y.receiverId = receiverId →
      startsWith y.message header = true → Holds db d senderId receiverId header :=
    fun d y hy hs hr hh => ⟨y, hy, hs, hr, hh⟩
  -- a message that is new has its header to itself
  have hclash : ∀ d d' y y', new = some (d, y) → Says db d' y' → y.senderId = senderId →
      y.receiverId = receiverId → startsWith y.message header = true → y'.senderId = senderId →
        y'.receiverId = receiverId → startsWith y'.message header = true → False := by
    rintro d d' y y' hd hy' rfl rfl hh hs' hr' hh'
    exact hnew d y hd ⟨header, d', hnotice, hh, y', hy', hs', hr', hh'⟩
  obtain hbefore | hfresh := h.says htold
  · obtain hbefore' | hfresh' := h.says htold'
    · exact hone senderId receiverId header hnotice c c'
        (hold c x hbefore hsender hreceiver hheader)
        (hold c' x' hbefore' hsender' hreceiver' hheader')
    · exact (hclash c' c x' x hfresh' hbefore hsender' hreceiver' hheader' hsender hreceiver
        hheader).elim
  · obtain hbefore' | hfresh' := h.says htold'
    · exact (hclash c c' x x' hfresh hbefore' hsender hreceiver hheader hsender' hreceiver'
        hheader').elim
    · rw [hfresh] at hfresh'
      cases hfresh'
      rfl

/-- A step that adds nothing, then one that may. -/
theorem Change.trans (h : Change none db db') (h' : Change new db' db'') : Change new db db'' where
  kept := by
    intro id row hget
    obtain ⟨row', hget', hsame⟩ := h.kept id row hget
    obtain ⟨row'', hget'', hsame'⟩ := h'.kept id row' hget'
    exact ⟨row'', hget'', hsame'.trans hsame⟩
  inbox := by
    intro id row'' hget''
    obtain ⟨row', hget', hsame'⟩ | hnew := h'.inbox id row'' hget''
    · obtain ⟨row, hget, hsame⟩ | hnone := h.inbox id row' hget'
      · exact .inl ⟨row, hget, hsame.trans hsame'⟩
      · cases hnone
    · exact .inr hnew
  queue := by
    intro m r'' hget''
    obtain ⟨r', hget', hkey', hsame'⟩ | hcopy | hnew := h'.queue m r'' hget''
    · obtain ⟨r, hget, hkey, hsame⟩ | hcopy | hnone := h.queue m r' hget'
      · exact .inl ⟨r, hget, hkey.trans hkey', hsame.trans hsame'⟩
      · exact .inr (.inl (hcopy.keeps h'.kept hkey' hsame'))
      · cases hnone
    · exact .inr (.inl hcopy)
    · exact .inr (.inr hnew)

/-! ## What inserts and updates change -/

/-- An update of columns that are not content. -/
theorem change_updateInbox (db : Database) (p : InboxRow → Bool) {f : Patch InboxRow.id}
    (hf : ∀ row, (f.apply row).content = row.content) :
    Change none db (db.withInbox (db.inbox.update p f)) where
  kept := by
    intro id row hget
    refine ⟨if p row then f.apply row else row, ?_, ?_⟩
    · show (db.inbox.update p f).get id = _
      rw [Table.get_update, hget]
      rfl
    · split
      · exact hf row
      · rfl
  inbox := by
    intro id row' hget'
    change (db.inbox.update p f).get id = some row' at hget'
    rw [Table.get_update] at hget'
    obtain ⟨row, hget, rfl⟩ := Option.map_eq_some_iff.mp hget'
    refine .inl ⟨row, hget, ?_⟩
    split
    · exact (hf row).symm
    · rfl
  queue := fun _ r hget => .inl ⟨r, hget, rfl, rfl⟩

/-- The step brings one new message at most, and it says `x`. -/
def Brings (x : Content) (db db' : Database) : Prop :=
  ∃ new, Change new db db' ∧ ∀ c y, new = some (c, y) → y = x

theorem brings_refl (x : Content) (db : Database) : Brings x db db :=
  ⟨none, Change.refl none db, by simp⟩

variable {sha256 contentHash : String → String} {env : Env}

/-- A placed row is one carrier. -/
theorem brings_placement {row : InboxRow} {routed : Routed}
    (h : Placement sha256 db row routed db') : Brings row.content db db' := by
  cases h with
  | inbox =>
    refine ⟨some (.inbox (nextId db.inbox), row.content), ⟨?_, ?_, ?_⟩, ?_⟩
    · intro id x hx
      refine ⟨x, ?_, rfl⟩
      show (insertRow db.inbox row).get id = some x
      rw [get_insertRow, if_neg]
      · exact hx
      · rintro rfl
        rw [show db.inbox.get (nextId db.inbox) = none from Table.get_nextKey db.inbox] at hx
        cases hx
    · intro id x hx
      change (insertRow db.inbox row).get id = some x at hx
      rw [get_insertRow] at hx
      split at hx
      · next hid =>
        cases hx
        subst hid
        exact .inr rfl
      · exact .inl ⟨x, hx, rfl⟩
    · exact fun _ r hget => .inl ⟨r, hget, rfl, rfl⟩
    · intro c y heq
      cases heq
      rfl
  | known hget => exact brings_refl row.content db
  | @queue id m draft now queue hdraft hfree hget =>
    obtain ⟨-, hreceiver, hsender, hpayload, -⟩ := factDraft_eq_some hdraft
    refine ⟨some (.queue m, row.content), ⟨fun _ x hx => ⟨x, hx, rfl⟩,
      fun _ x hx => .inl ⟨x, hx, rfl⟩, ?_⟩, ?_⟩
    · intro m' r hr
      change queue.get m' = some r at hr
      rw [hget] at hr
      split at hr
      · next hm =>
        cases hr
        subst hm
        refine .inr (.inr ?_)
        show _ = some (Carrier.queue m, Content.mk draft.senderId draft.receiverId draft.payload)
        rw [hsender, hreceiver, hpayload]
        rfl
      · exact .inl ⟨r, hr, rfl, rfl⟩
    · intro c y heq
      cases heq
      rfl

theorem brings_insertUnbound {row : InboxRow} {routed : Routed}
    (h : insertUnbound sha256 env db row = .ok (routed, db')) : Brings row.content db db' := by
  obtain ⟨generation, hplacement⟩ := placement_insertUnbound h
  obtain ⟨new, hchange, hnew⟩ := brings_placement hplacement
  refine ⟨new, Change.trans ?_ hchange, hnew⟩
  exact change_updateInbox db _ fun _ => rfl

/-- A notice is nobody's callback and has no content hash. -/
theorem insertRoutedInboxRow_internal {send : Send} (hdispatch : send.dispatchBarrier = none)
    (hinternal : isBarrierInternal send.senderId = true) :
    insertRoutedInboxRow sha256 contentHash env db send =
      insertUnbound sha256 env db (sendRow env send) := by
  have hmatch : openMatch env db send = none := by
    unfold openMatch
    simp [hinternal]
  have hhash : dedupHash contentHash env send = none := by
    unfold dedupHash
    simp [hinternal]
  have hrow : freeRow env db send none = sendRow env send := by
    unfold freeRow routedMessage
    simp [hinternal, sendRow]
  simp only [insertRoutedInboxRow, hdispatch, hmatch, insertFree, hhash, Option.bind_none, hrow]

theorem brings_insertNotice {send : Send} (hdispatch : send.dispatchBarrier = none)
    (hinternal : isBarrierInternal send.senderId = true) :
    Brings (sendRow env send).content db (insertNotice sha256 contentHash env db send).2 := by
  unfold insertNotice
  rw [insertRoutedInboxRow_internal hdispatch hinternal]
  cases hresult : insertUnbound sha256 env db (sendRow env send) with
  | error raised =>
    obtain ⟨error, rfl⟩ := raise_of_insertUnbound hresult
    exact brings_refl _ db
  | ok placed =>
    obtain ⟨routed, db'⟩ := placed
    exact brings_insertUnbound hresult

/-! ## The other parties -/

/-- What a pass has picked up is in the inbox. -/
def Picked (inbox : Table InboxRow.id) (pass : Pass) : Prop :=
  ∀ row ∈ pass.rows, ∃ r, inbox.get row.id = some r ∧ r.content = row.content

theorem Picked.keeps {inbox inbox' : Table InboxRow.id} {pass : Pass} (h : Picked inbox pass)
    (hkept : ∀ id row, inbox.get id = some row →
      ∃ row', inbox'.get id = some row' ∧ row'.content = row.content) : Picked inbox' pass := by
  intro row hrow
  obtain ⟨r, hget, hsame⟩ := h row hrow
  obtain ⟨r', hget', hsame'⟩ := hkept row.id r hget
  exact ⟨r', hget', hsame'.trans hsame⟩

theorem picked_kill {inbox : Table InboxRow.id} {pass : Pass} (h : Picked inbox pass) :
    Picked inbox pass.kill := by
  obtain hnil | hsame := rows_kill pass
  · intro row hrow
    rw [hnil] at hrow
    cases hrow
  · rw [hsame]
    exact h

/-- The rows of a pass that moved on. -/
theorem picked_setPass {a : Adoption} {inbox : Table InboxRow.id} {pass : Pass}
    (h : ∀ call, Picked inbox (a.pass call)) (hpass : Picked inbox pass) (call call' : Nat) :
    Picked inbox ((a.setPass call pass).pass call') := by
  by_cases hcall : call' = call
  · subst hcall
    rw [Adoption.setPass_self]
    exact hpass
  · rw [Adoption.setPass_of_ne hcall]
    exact h call'

theorem content_statusPatch (status : MessageStatus) (row : InboxRow) :
    ((statusPatch status).apply row).content = row.content := rfl

variable {rejects : Int → Bool} {limit : Int} {n : Notices}

/-- What is known of the state behind a step of adoption: no message is new, and the passes hold
rows of the inbox. -/
structure Adopts (n : Notices) (a : Adoption) : Prop where
  change : Change none n.db (n.withAdoption a).db
  picked : ∀ call, Picked a.inbox (a.pass call)

/-- A step that writes neither table. -/
theorem adopts_of_tables {a : Adoption} (hinbox : a.inbox = n.db.inbox)
    (hstore : a.store = n.db.queue) (hpicked : ∀ call, Picked n.db.inbox (a.pass call)) :
    Adopts n a := by
  have hdb : (n.withAdoption a).db = n.db := by
    show { n.db with inbox := a.inbox, queue := a.store } = n.db
    rw [hinbox, hstore]
  refine ⟨?_, ?_⟩
  · rw [hdb]
    exact Change.refl none n.db
  · rw [hinbox]
    exact hpicked

theorem picked_goOn {inbox : Table InboxRow.id} {rest : List InboxRow} (adopted : List Adopted)
    (h : ∀ row ∈ rest, ∃ r, inbox.get row.id = some r ∧ r.content = row.content) :
    Picked inbox (.goOn rest adopted) := by
  intro row hrow
  rw [rows_goOn] at hrow
  exact h row hrow

/-- The copy that an adoption makes of a row says what the row says. -/
theorem adopts_enqueued (hpicked : ∀ call, Picked n.db.inbox (n.pass call)) {call : Nat}
    {newUlid msgId : String} {now : Int} {row : InboxRow} {rest : List InboxRow}
    {adopted : List Adopted} {store : Store} (hat : n.pass call = .adopting (row :: rest) adopted)
    (hok : adoptEnqueue sha256 rejects true n.db.queue (adoptionFact contentHash row) newUlid now =
      .ok (some (msgId, store))) :
    Adopts n ({ n.adoption with store := store }.setPass call
      (.retiring row msgId rest adopted)) := by
  obtain ⟨draft, message, hdraft, hrun, -, -⟩ := adoptEnqueue_eq_ok hok
  obtain ⟨hkey, hreceiver, hsender, hpayload, -⟩ := factDraft_eq_some hdraft
  have hrows := hpicked call
  rw [hat] at hrows
  refine ⟨⟨fun _ x hx => ⟨x, hx, rfl⟩, fun _ x hx => .inl ⟨x, hx, rfl⟩, ?_⟩, ?_⟩
  · intro m r hr
    change store.get m = some r at hr
    obtain hsame | ⟨-, -, hnew⟩ := get_enqueue hrun m
    · exact .inl ⟨r, hsame ▸ hr, rfl, rfl⟩
    · cases hnew.symm.trans hr
      obtain ⟨r₀, hget, hcontent⟩ := hrows row List.mem_cons_self
      refine .inr (.inl ⟨row.id, r₀, hget, hkey, hcontent.trans ?_⟩)
      show row.content = Content.mk draft.senderId draft.receiverId draft.payload
      rw [hsender, hreceiver, hpayload]
      rfl
  · have hretiring : Picked n.db.inbox (.retiring row msgId rest adopted) := hrows
    exact picked_setPass (a := { n.adoption with store := store }) hpicked hretiring call

theorem adopts_retired (hpicked : ∀ call, Picked n.db.inbox (n.pass call)) {call : Nat}
    {row : InboxRow} {msgId : String} {rest : List InboxRow} {adopted : List Adopted}
    (adopted' : List Adopted) (hat : n.pass call = .retiring row msgId rest adopted) :
    Adopts n ({ n.adoption with inbox := retireRow n.db.inbox row.id }.setPass call
      (.goOn rest adopted')) := by
  have hchange : Change none n.db (n.db.withInbox (retireRow n.db.inbox row.id)) :=
    change_updateInbox n.db _ (content_statusPatch .adopted)
  refine ⟨hchange, ?_⟩
  have hrest : Picked n.db.inbox (.goOn rest adopted') := by
    refine picked_goOn adopted' fun x hx => hpicked call x ?_
    rw [hat]
    exact List.mem_cons_of_mem row hx
  exact picked_setPass (fun call' => (hpicked call').keeps hchange.kept)
    (hrest.keeps hchange.kept) call

variable (sha256 contentHash rejects limit) in
theorem adopts_exec (hpicked : ∀ call, Picked n.db.inbox (n.pass call)) (step : AdoptionStep) :
    Adopts n (Adoption.exec sha256 contentHash rejects limit n.adoption step) := by
  have hmoved : Adoption.Moved sha256 contentHash rejects limit n.adoption step _ :=
    Adoption.moved step
  generalize Adoption.exec sha256 contentHash rejects limit n.adoption step = a at hmoved
  have hrest : ∀ call row rest adopted, n.pass call = .adopting (row :: rest) adopted →
      ∀ adopted', Picked n.db.inbox (.goOn rest adopted') := by
    intro call row rest adopted hat adopted'
    refine picked_goOn adopted' fun x hx => hpicked call x ?_
    rw [hat]
    exact List.mem_cons_of_mem row hx
  cases hmoved with
  | kept => exact adopts_of_tables rfl rfl hpicked
  | scanned call hready =>
    refine adopts_of_tables rfl rfl (picked_setPass hpicked (picked_goOn [] fun x hx => ?_) call)
    exact ⟨x, (Adoption.mem_candidates hx).1, rfl⟩
  | unscanned call hready =>
    exact adopts_of_tables rfl rfl (picked_setPass hpicked (fun _ hx => by cases hx) call)
  | enqueued call newUlid now row rest adopted msgId store hat hreceiver hok =>
    exact adopts_enqueued hpicked hat hok
  | failed call _ _ _ row rest adopted hat | poisoned call _ _ _ row rest adopted hat =>
    exact adopts_of_tables rfl rfl
      (picked_setPass hpicked (hrest call row rest adopted hat adopted) call)
  | retired call row msgId rest adopted adopted' hat => exact adopts_retired hpicked adopted' hat
  | unretired call row msgId rest adopted hat =>
    refine adopts_of_tables rfl rfl (picked_setPass hpicked (picked_goOn adopted fun x hx => ?_) call)
    have hat' : n.pass call = .retiring row msgId rest adopted := hat
    refine hpicked call x ?_
    rw [hat']
    exact List.mem_cons_of_mem row hx
  | crashed call =>
    exact adopts_of_tables rfl rfl (picked_setPass hpicked (picked_kill (hpicked call)) call)
  | restarted => exact adopts_of_tables rfl rfl fun call => picked_kill (hpicked call)

variable (sha256) in
/-- A call that delivers or settles keeps what the rows of the queue say. -/
theorem change_queue {op : Op} (hop : delivers op = true) (db : Database) :
    Change none db { db with queue := exec sha256 db.queue op } where
  kept := fun _ row h => ⟨row, h, rfl⟩
  inbox := fun _ row h => .inl ⟨row, h, rfl⟩
  queue := by
    intro m r' hget'
    change (exec sha256 db.queue op).get m = some r' at hget'
    have hparent : ∀ msgId newReceiverId now messagePrefix,
        op ≠ .reparent msgId newReceiverId now messagePrefix := by
      rintro msgId newReceiverId now messagePrefix rfl
      cases hop
    cases hget : db.queue.get m with
    | none =>
      obtain ⟨draft, now, rfl, -⟩ := inserted_of_exec hget hget'
      cases hop
    | some r =>
      obtain ⟨l, hstep, -⟩ := rowStep_of_exec hget hget'
      have hfixed := hstep.fixedColumns
      refine .inl ⟨r, rfl, (congrArg FixedColumns.idempotencyKey hfixed).symm, ?_⟩
      have hsender : r'.senderId = r.senderId := congrArg FixedColumns.senderId hfixed
      have hreceiver : r'.receiverId = r.receiverId := hstep.receiverId hparent
      have hpayload : r'.payload = r.payload := (hstep.body hparent).1
      show Content.mk _ _ _ = Content.mk _ _ _
      rw [hsender, hreceiver, hpayload]

/-! ## One step -/

/-- The attempt is one to give notice of.
SOURCE: clients/database.py:13165-13193 -/
def stalledDue (n : Notices) (attemptUuid : String) (messageIds : List Int) : Bool :=
  (n.attempts.get attemptUuid).any fun attempt =>
    attempt.outcome == some "ambiguous" && attempt.reason == some "confirmation_timeout"
      && batchPending n.db attempt (batchIds messageIds)
      && !attempt.stalledNotifiedAt.any (· != "")

/-- The message that a call is about to send, and the rows that its check looks for. -/
def noticeOf (n : Notices) : NoticeStep → Option (Content × (InboxRow → Bool))
  | .createDigestPendingNotice env receiverId base stateKey body genesis =>
    match resolveInboxReceiver env receiverId with
    | .error _ => none
    | .ok (cache, logicalReceiverId) =>
      some ((sendRow env (digestSend cache logicalReceiverId base stateKey body genesis)).content,
        digestKnown cache logicalReceiverId base stateKey genesis)
  | .recordWpm1StalledNotice env callerId attemptUuid messageIds receiverTerminalId _ =>
    if stalledDue n attemptUuid messageIds then
      match (batchIds messageIds).head?.bind n.db.inbox.get with
      | none => none
      | some original =>
        match resolveWpm1Recipient env callerId original.senderId receiverTerminalId with
        | none => none
        | some recipient =>
          match resolveInboxReceiver env recipient with
          | .error _ => none
          | .ok (cache, logicalReceiverId) =>
            some ((sendRow env (stalledSend cache logicalReceiverId receiverTerminalId
                messageIds)).content,
              stalledKnown recipient receiverTerminalId messageIds)
    else none
  | _ => none

/-- A message that one of the tables already holds is one that the check finds in the inbox. -/
def InInbox (n : Notices) (step : NoticeStep) : Prop :=
  ∀ x known, noticeOf n step = some (x, known) → AlreadySent n.db x →
    n.db.inbox.rows.any known = true

/-- What the run keeps. -/
structure Delivered (n : Notices) : Prop where
  once : OneTime n.db
  picked : ∀ call, Picked n.db.inbox (n.pass call)

/-- The call brings the notice it is about where the check finds none, and nothing otherwise. -/
theorem oneTime_of_brings {x : Content} (hone : OneTime db) (hbrings : Brings x db db')
    (hnew : ¬ AlreadySent db x) : OneTime db' ∧ ∀ pass, Picked db.inbox pass →
      Picked db'.inbox pass := by
  obtain ⟨new, hchange, htold⟩ := hbrings
  refine ⟨hchange.oneTime hone ?_, fun pass h => h.keeps hchange.kept⟩
  intro c y heq hsent
  rw [htold c y heq] at hsent
  exact hnew hsent

theorem internal_digestSender (base : String) : isBarrierInternal (digestSender base) = true :=
  isBarrierInternal_append (by simp [barrierInternalPrefixes]) base

theorem internal_stalledSender (receiverTerminalId : String) :
    isBarrierInternal (stalledSender receiverTerminalId) = true :=
  isBarrierInternal_append (by simp [barrierInternalPrefixes]) receiverTerminalId

variable (sha256 contentHash env db) in
/-- What a digest call does to the tables. -/
theorem createDigestPendingNotice_cases (receiverId base stateKey body : String)
    (genesis : Bool) :
    (createDigestPendingNotice sha256 contentHash env db receiverId base stateKey body
        genesis).2 = db ∨
      ∃ cache logicalReceiverId,
        resolveInboxReceiver env receiverId = .ok (cache, logicalReceiverId) ∧
        db.inbox.rows.any (digestKnown cache logicalReceiverId base stateKey genesis) = false ∧
        Brings (sendRow env (digestSend cache logicalReceiverId base stateKey body
          genesis)).content db (createDigestPendingNotice sha256 contentHash env db receiverId base
            stateKey body genesis).2 := by
  unfold createDigestPendingNotice
  cases hresolve : resolveInboxReceiver env receiverId with
  | error e => exact .inl rfl
  | ok resolved =>
    obtain ⟨cache, logicalReceiverId⟩ := resolved
    simp only
    split
    · exact .inl rfl
    · split
      · exact .inl rfl
      · next hknown =>
        refine .inr ⟨cache, logicalReceiverId, rfl, by simpa using hknown, ?_⟩
        exact brings_insertNotice rfl (internal_digestSender base)

variable (sha256 contentHash env db) in
/-- The end of a stalled call. -/
theorem notifyStalled_cases (recipient receiverTerminalId : String) (messageIds : List Int) :
    (notifyStalled sha256 contentHash env db recipient receiverTerminalId messageIds).2 = db ∨
      ∃ cache logicalReceiverId,
        resolveInboxReceiver env recipient = .ok (cache, logicalReceiverId) ∧
        db.inbox.rows.any (stalledKnown recipient receiverTerminalId messageIds) = false ∧
        Brings (sendRow env (stalledSend cache logicalReceiverId receiverTerminalId
          messageIds)).content db (notifyStalled sha256 contentHash env db recipient
            receiverTerminalId messageIds).2 := by
  unfold notifyStalled
  split
  · exact .inl rfl
  · next hknown =>
    cases hresolve : resolveInboxReceiver env recipient with
    | error e => exact .inl rfl
    | ok resolved =>
      obtain ⟨cache, logicalReceiverId⟩ := resolved
      refine .inr ⟨cache, logicalReceiverId, rfl, by simpa using hknown, ?_⟩
      exact brings_insertNotice rfl (internal_stalledSender receiverTerminalId)

variable (sha256 contentHash env n) in
/-- What a stalled call does to the tables. -/
theorem recordWpm1StalledNotice_cases (callerId : String → Option String)
    (attemptUuid : String) (messageIds : List Int) (receiverTerminalId notifiedAt : String) :
    (recordWpm1StalledNotice sha256 contentHash env callerId n.db n.attempts attemptUuid messageIds
        receiverTerminalId notifiedAt).2.1 = n.db ∨
      ∃ x known, noticeOf n (.recordWpm1StalledNotice env callerId attemptUuid messageIds
          receiverTerminalId notifiedAt) = some (x, known) ∧
        n.db.inbox.rows.any known = false ∧
        Brings x n.db (recordWpm1StalledNotice sha256 contentHash env callerId n.db n.attempts
          attemptUuid messageIds receiverTerminalId notifiedAt).2.1 := by
  unfold recordWpm1StalledNotice
  simp only
  split
  · exact .inl rfl
  next attempt hattempt =>
  split
  · exact .inl rfl
  next hpending =>
  split
  · exact .inl rfl
  next hunnotified =>
  have hdue : stalledDue n attemptUuid messageIds = true := by
    obtain ⟨hget, hreason⟩ := Option.filter_eq_some_iff.mp hattempt
    unfold stalledDue
    rw [hget, Option.any_some, hreason]
    simp only [Bool.not_eq_true', Bool.not_eq_false, Bool.not_eq_true] at hpending hunnotified
    rw [hpending, hunnotified]
    rfl
  split
  · exact .inl rfl
  next original horiginal =>
  split
  · exact .inl rfl
  next recipient hrecipient =>
  have hcases : (notifyStalled sha256 contentHash env n.db recipient receiverTerminalId
      messageIds).2 = n.db ∨ ∃ x known, noticeOf n (.recordWpm1StalledNotice env callerId
        attemptUuid messageIds receiverTerminalId notifiedAt) = some (x, known) ∧
      n.db.inbox.rows.any known = false ∧ Brings x n.db (notifyStalled sha256 contentHash env n.db
        recipient receiverTerminalId messageIds).2 := by
    obtain hquiet | ⟨cache, logicalReceiverId, hresolve, hknown, hbrings⟩ :=
      notifyStalled_cases n.db sha256 contentHash env recipient receiverTerminalId messageIds
    · exact .inl hquiet
    · refine .inr ⟨_, _, ?_, hknown, hbrings⟩
      simp only [noticeOf, hdue, if_true, horiginal, hrecipient, hresolve]
  generalize notifyStalled sha256 contentHash env n.db recipient receiverTerminalId messageIds =
    result at hcases
  obtain ⟨result, db'⟩ := result
  cases result with
  | _ => exact hcases

/-- A call that finds the notice it is about where it is keeps the notices one-time. -/
theorem Delivered.step (h : Delivered n) (setup : AdoptionSetup) {step : NoticeStep}
    (hfound : InInbox n step) :
    Delivered (noticeStep sha256 contentHash setup n step) := by
  have hcall : ∀ x known db', noticeOf n step = some (x, known) →
      n.db.inbox.rows.any known = false → Brings x n.db db' → OneTime db' ∧
        ∀ pass, Picked n.db.inbox pass → Picked db'.inbox pass := by
    intro x known db' hnotice hnone hbrings
    refine oneTime_of_brings h.once hbrings fun hsent => ?_
    rw [hfound x known hnotice hsent] at hnone
    cases hnone
  cases step with
  | createDigestPendingNotice env receiverId base stateKey body genesis =>
    obtain hquiet | ⟨cache, logicalReceiverId, hresolve, hknown, hbrings⟩ :=
      createDigestPendingNotice_cases n.db sha256 contentHash env receiverId base stateKey body
        genesis
    · show Delivered { n with db := _ }
      rw [hquiet]
      exact h
    · obtain ⟨honce, hpicked⟩ := hcall _ _ _ (by simp only [noticeOf, hresolve]) hknown hbrings
      exact ⟨honce, fun call => hpicked _ (h.picked call)⟩
  | recordWpm1StalledNotice env callerId attemptUuid messageIds receiverTerminalId notifiedAt =>
    obtain hquiet | ⟨x, known, hnotice, hknown, hbrings⟩ :=
      recordWpm1StalledNotice_cases sha256 contentHash env n callerId attemptUuid messageIds
        receiverTerminalId notifiedAt
    · refine ⟨?_, ?_⟩
      · show OneTime (recordWpm1StalledNotice _ _ _ _ _ _ _ _ _ _).2.1
        rw [hquiet]
        exact h.once
      · show ∀ call, Picked (recordWpm1StalledNotice _ _ _ _ _ _ _ _ _ _).2.1.inbox (n.pass call)
        rw [hquiet]
        exact h.picked
    · obtain ⟨honce, hpicked⟩ := hcall x known _ hnotice hknown hbrings
      exact ⟨honce, fun call => hpicked _ (h.picked call)⟩
  | adopt step =>
    obtain ⟨hchange, hpicked⟩ :=
      adopts_exec sha256 contentHash setup.rejects setup.limit h.picked step
    exact ⟨hchange.oneTime h.once (by simp), hpicked⟩
  | setStatus id status =>
    have hchange := change_updateInbox n.db (fun row => decide (row.id = id) && true)
      (content_statusPatch status)
    exact ⟨hchange.oneTime h.once (by simp), fun call => (h.picked call).keeps hchange.kept⟩
  | writeAttempt attempt => exact ⟨h.once, h.picked⟩
  | queue op =>
    unfold noticeStep
    simp only
    split
    · next hop =>
      have hchange := change_queue sha256 hop n.db
      exact ⟨hchange.oneTime h.once (by simp), h.picked⟩
    · exact h

/-! ## Whole runs -/

section Runs

variable (sha256 contentHash : String → String) (setup : AdoptionSetup)

theorem Delivered.run (h : Delivered n) (steps : List NoticeStep)
    (hfound : StepsSatisfy (noticeStep sha256 contentHash setup) InInbox n steps) :
    Delivered (run (noticeStep sha256 contentHash setup) n steps) :=
  run_invariant_of InInbox Delivered (fun _ _ hstep hn => hn.step setup hstep) n h steps hfound

end Runs

/-! ## Two calls -/

end CliAgentOrchestrator.Inbox
