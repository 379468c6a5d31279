import CliAgentOrchestrator.Inbox.Effect

/-!
# Callbacks in the combined message

A callback that is bound to an open barrier is meant to wait in the inbox and to be shown in the
barrier's combined message. Both rest on the row being in the inbox: the hold is an inbox status,
and the renderer reads the inbox.
-/

set_option autoImplicit false

namespace CliAgentOrchestrator.Inbox

open CliAgentOrchestrator.Core Library Queue Wiring

/-! ## What is promised -/

/-- No row of an open barrier is offered to the tick. -/
def Unclaimable (db : Database) : Prop :=
  ∀ now limit receiverId r, r ∈ claimRows db.queue now limit receiverId → ∀ b,
    r.barrierId = some b → db.isOpen b = false

/-- A combined message shows the callbacks of every member that has arrived, and misses none. -/
def Complete (f : Firing) : Prop :=
  ∀ m ∈ f.members, m.state = .arrived → memberRows f.inbox f.barrier.id m.memberKey ≠ [] ∧
    ∀ body, (f.barrier.id, m.memberKey, body) ∈ f.callbacks →
      body ∈ memberSection f.inbox f.barrier f.firedAt m

/-- The queue does not take the row: `write_through` returns None. -/
def FallsBack (sha256 : String → String) (env : Env) (db : Database) (row : InboxRow) : Prop :=
  ∀ row', stampEnqueueGeneration env row = .ok row' →
    (writeThrough sha256 db.queue (maxId (supersede db row').inbox) (writeThroughFact row')
      (env.newUlid row'.senderId) env.now).1 = none

/-- Every callback to an open barrier falls back to the inbox, and no reaping re-addresses one
that is held for a barrier of somebody else. -/
def HoldsBack (sha256 : String → String) (o : Office) : Event → Prop
  | .send env send => ∀ barrier member, openMatch env o.db send = some (barrier, member) →
    FallsBack sha256 env o.db (boundRow env send barrier member)
  | .reap _ terminalId _ => ∀ id row b, o.db.inbox.get id = some row →
    row.receiverId = terminalId → row.status = .held → row.barrierId = some b →
    o.db.isClosed b = true ∨
      ∃ barrier, o.db.barriers.get b = some barrier ∧ barrier.owner = .terminal terminalId
  | _ => True

/-! ## The invariant -/

/-- Callbacks of a barrier that is not closed are in the inbox, and not pending. -/
structure Gathered (db : Database) : Prop where
  queue : ∀ m r, db.queue.get m = some r → ∀ b, r.barrierId = some b → db.isClosed b = true
  pending : ∀ id row, db.inbox.get id = some row → row.status = .pending → ∀ b,
    row.barrierId = some b → db.isClosed b = true
  arrived : ∀ k m, db.members.get k = some m → m.state = .arrived →
    db.isClosed m.barrierId = false → ∃ id row, db.inbox.get id = some row ∧
      row.barrierId = some m.barrierId ∧ row.barrierMemberKey = some m.memberKey
  callbacks : ∀ i key body, (i, key, body) ∈ db.callbacks → db.isClosed i = false →
    ∃ id row, db.inbox.get id = some row ∧ row.barrierId = some i ∧
      row.barrierMemberKey = some key ∧ row.message = body
  firings : ∀ f ∈ db.firings, Complete f

/-- What an adoption scan has picked up belongs to no open barrier. -/
def ScannedClosed (scanned : List Int) (db : Database) : Prop :=
  ∀ id ∈ scanned, ∃ row, db.inbox.get id = some row ∧
    ∀ b, row.barrierId = some b → db.isClosed b = true

variable {db db' db'' : Database} {sha256 contentHash : String → String} {env : Env}

theorem not_isOpen_of_isClosed {i : Int} (h : db.isClosed i = true) : db.isOpen i = false := by
  by_contra hopen
  rw [Bool.not_eq_false] at hopen
  rw [not_isClosed_of_isOpen hopen] at h
  cases h

theorem Gathered.unclaimable (h : Gathered db) : Unclaimable db := by
  intro now limit receiverId r hr b hb
  exact not_isOpen_of_isClosed (h.queue r.msgId r (mem_claimRows hr).1 b hb)

theorem mem_memberRows {inbox : Table InboxRow.id} {i : Int} {key : String} {row : InboxRow} :
    row ∈ memberRows inbox i key ↔ inbox.get row.id = some row ∧ row.barrierId = some i ∧
      row.barrierMemberKey = some key := by
  unfold memberRows
  rw [List.mem_insertionSort, Table.mem_select_iff, Bool.and_eq_true, beq_iff_eq, beq_iff_eq]

/-- A member with rows has their texts in its section. -/
theorem message_mem_memberSection {inbox : Table InboxRow.id} {barrier : CallbackBarrier}
    {firedAt : Int} {m : CallbackBarrierMember} {row : InboxRow}
    (h : row ∈ memberRows inbox barrier.id m.memberKey) :
    row.message ∈ memberSection inbox barrier firedAt m := by
  have hne : memberRows inbox barrier.id m.memberKey ≠ [] := by
    intro hnil
    rw [hnil] at h
    cases h
  unfold memberSection memberBody
  rw [if_pos hne]
  exact List.mem_append_left _ (List.mem_append_right _ (List.mem_map_of_mem h))

/-- What is rendered from gathered tables is complete. -/
theorem Gathered.complete (h : Gathered db) {f : Firing} (hf : RenderedFrom db f) :
    Complete f := by
  intro m hm harr
  obtain ⟨k, m₀, hm₀, harr₀, hid₀, hkey₀⟩ := hf.members m hm harr
  have hopen := hf.open_before
  rw [← hid₀] at hopen
  refine ⟨?_, ?_⟩
  · obtain ⟨id, row, hrow, hbarrier, hkey⟩ := h.arrived k m₀ hm₀ harr₀ hopen
    obtain ⟨row', hrow', -, hbarrier', hkey'⟩ := hf.inbox id row hrow
    have hmem : row' ∈ memberRows f.inbox f.barrier.id m.memberKey := by
      rw [mem_memberRows, Table.key_of_get hrow', hbarrier', hkey', hbarrier, hkey, hid₀, hkey₀]
      exact ⟨hrow', rfl, rfl⟩
    intro hnil
    rw [hnil] at hmem
    cases hmem
  · intro body hbody
    rw [hf.callbacks] at hbody
    obtain ⟨id, row, hrow, hbarrier, hkey, hmessage⟩ :=
      h.callbacks _ _ body hbody hf.open_before
    obtain ⟨row', hrow', hmessage', hbarrier', hkey'⟩ := hf.inbox id row hrow
    have hmem : row' ∈ memberRows f.inbox f.barrier.id m.memberKey := by
      rw [mem_memberRows, Table.key_of_get hrow', hbarrier', hkey', hbarrier, hkey]
      exact ⟨hrow', rfl, rfl⟩
    rw [← hmessage, ← hmessage']
    exact message_mem_memberSection hmem

/-! ## Effects keep it -/

theorem Effect.closed_before {new : Option String → Option Int → Prop}
    (h : Effect new db db') {i : Int} (hi : db'.isClosed i = false) : db.isClosed i = false := by
  by_contra hclosed
  rw [Bool.not_eq_false] at hclosed
  rw [h.closed i hclosed] at hi
  cases hi

/-- Rows of the queue keep to closed barriers when the new ones belong to none. -/
theorem QueueEffect.barrier_closed {s s' : Store} {isClosed isClosed' : Int → Bool}
    (h : QueueEffect (fun _ b => b = none) s s')
    (hold : ∀ m r, s.get m = some r → ∀ b, r.barrierId = some b → isClosed b = true)
    (hmono : ∀ i, isClosed i = true → isClosed' i = true) :
    ∀ m r, s'.get m = some r → ∀ b, r.barrierId = some b → isClosed' b = true := by
  intro m r hr b hb
  cases hbefore : s.get m with
  | none =>
    have hnone := h.fresh m r hr hbefore
    rw [hb] at hnone
    cases hnone
  | some r₀ =>
    have hkept := h.kept m r₀ hbefore
    rw [hr] at hkept
    cases hkept
    exact hmono b (hold m r hbefore b hb)

theorem Effect.gathered (h : Effect (fun _ b => b = none) db db') (hg : Gathered db) :
    Gathered db' := by
  refine ⟨h.queue.barrier_closed hg.queue h.closed, ?_, ?_, ?_, ?_⟩
  · intro id row' hrow' hpending b hb
    cases hbefore : db.inbox.get id with
    | none =>
      have hnone := h.fresh id row' hrow' hbefore
      rw [hb] at hnone
      cases hnone
    | some row =>
      obtain ⟨row'', hrow'', hsettles⟩ := h.inbox id row hbefore
      rw [hrow'] at hrow''
      cases hrow''
      have hsame : row'.barrierId = row.barrierId := by rw [hsettles.same]
      rw [hsame] at hb
      obtain hwas | hreleased := hsettles.released hpending
      · exact h.closed b (hg.pending id row hbefore hwas b hb)
      · exact hreleased b hb
  · intro k m' hm' harr' hopen'
    obtain ⟨m, hm, harr, hid, hkey⟩ := h.members k m' hm' harr'
    rw [← hid] at hopen'
    obtain ⟨id, row, hrow, hbarrier, hrkey⟩ := hg.arrived k m hm harr (h.closed_before hopen')
    obtain ⟨row', hrow', hsettles⟩ := h.inbox id row hrow
    refine ⟨id, row', hrow', ?_, ?_⟩
    · rw [hsettles.same, ← hid]
      exact hbarrier
    · rw [hsettles.same, ← hkey]
      exact hrkey
  · intro i key body hbody hopen'
    rw [h.callbacks] at hbody
    obtain ⟨id, row, hrow, hbarrier, hkey, hmessage⟩ :=
      hg.callbacks i key body hbody (h.closed_before hopen')
    obtain ⟨row', hrow', hsettles⟩ := h.inbox id row hrow
    refine ⟨id, row', hrow', ?_⟩
    rw [hsettles.same]
    exact ⟨hbarrier, hkey, hmessage⟩
  · intro f hf
    obtain hold | hrendered := h.firings f hf
    · exact hg.firings f hold
    · exact hg.complete hrendered

theorem Effect.scannedClosed {new : Option String → Option Int → Prop} {scanned : List Int}
    (h : Effect new db db') (hs : ScannedClosed scanned db) : ScannedClosed scanned db' := by
  intro id hid
  obtain ⟨row, hrow, hclosed⟩ := hs id hid
  obtain ⟨row', hrow', hsettles⟩ := h.inbox id row hrow
  refine ⟨row', hrow', ?_⟩
  rw [hsettles.same]
  exact fun b hb => h.closed b (hclosed b hb)

/-- What a rollback leaves is gathered when the queue took nothing of a barrier. -/
theorem Gathered.rollback (h : Gathered db) {raised : Raised}
    (hqueue : QueueEffect (fun _ b => b = none) db.queue raised.queue)
    (hsent : ∀ f ∈ raised.sent, Complete f) : Gathered (db.rollback raised) := by
  refine ⟨hqueue.barrier_closed h.queue fun _ hi => hi, h.pending, h.arrived, h.callbacks, ?_⟩
  intro f hf
  obtain hold | hnew := List.mem_append.mp hf
  · exact h.firings f (List.mem_append_left _ hold)
  · exact hsent f hnew

/-! ## A callback that falls back -/

/-- A row that falls back is inserted into the inbox, and the queue is as it was. -/
theorem insertUnbound_of_fallsBack {row : InboxRow} {routed : Routed}
    (h : insertUnbound sha256 env db row = .ok (routed, db'))
    (hfalls : FallsBack sha256 env db row) :
    ∃ generation, db' = (supersede db { row with enqueueGeneration := generation }).withInbox
      (insertRow (supersede db { row with enqueueGeneration := generation }).inbox
        { row with enqueueGeneration := generation }) := by
  unfold insertUnbound at h
  split at h
  · cases h
  next row' hstamp =>
  have hplace : placeRow sha256 env (supersede db row') row' = (routed, db') := Except.ok.inj h
  have hnone := hfalls row' hstamp
  have hspec := writeThrough_spec sha256 db.queue (maxId (supersede db row').inbox)
    (writeThroughFact row') (env.newUlid row'.senderId) env.now
  unfold placeRow at hplace
  rw [show (supersede db row').queue = db.queue from rfl] at hplace
  generalize writeThrough sha256 db.queue (maxId (supersede db row').inbox) (writeThroughFact row')
    (env.newUlid row'.senderId) env.now = result at hplace hnone hspec
  obtain ⟨placed, queue⟩ := result
  cases hnone
  obtain ⟨-, hqueue⟩ | ⟨id, m, hplaced, -⟩ | ⟨id, m, draft, hplaced, -⟩ := hspec
  · cases hqueue
    unfold stampEnqueueGeneration at hstamp
    split at hstamp
    · cases hstamp
    · cases hstamp
      cases hplace
      exact ⟨_, rfl⟩
  · cases hplaced
  · cases hplaced

theorem get_insertRow_of_some {t : Table InboxRow.id} {i : Int} {x : InboxRow}
    (hx : t.get i = some x) (row : InboxRow) : (insertRow t row).get i = some x := by
  rw [get_insertRow, if_neg]
  · exact hx
  · rintro rfl
    rw [show t.get (nextId t) = none from Table.get_nextKey t] at hx
    cases hx

/-- The tables once the callback is in and its member has arrived. -/
theorem gathered_bound (row : InboxRow) {barrier : CallbackBarrier}
    {member : CallbackBarrierMember} (body : String) (id now : Int) (hg : Gathered db)
    (hm : db.members.get member.id = some member) (hid : member.barrierId = barrier.id)
    (hheld : row.status = .held) (hbarrier : row.barrierId = some barrier.id)
    (hkey : row.barrierMemberKey = some member.memberKey) (hmessage : row.message = body) :
    Gathered (((db.withInbox (insertRow db.inbox row)).bind barrier.id member.memberKey
      body).withMembers (db.members.updateKey member.id (fun m => m.state == .awaiting)
        (arrivePatch id now))) := by
  have hget : ∀ i, (insertRow db.inbox row).get i =
      if i = nextId db.inbox then some { row with id := nextId db.inbox } else db.inbox.get i :=
    get_insertRow db.inbox row
  have hold : ∀ {i x}, db.inbox.get i = some x → (insertRow db.inbox row).get i = some x :=
    fun hx => get_insertRow_of_some hx row
  have hnew : (insertRow db.inbox row).get (nextId db.inbox) =
      some { row with id := nextId db.inbox } := by
    rw [hget, if_pos rfl]
  refine ⟨hg.queue, ?_, ?_, ?_, hg.firings⟩
  · intro i x hx hpending b hb
    change (insertRow db.inbox row).get i = some x at hx
    rw [hget] at hx
    split at hx
    · cases hx
      rw [hheld] at hpending
      cases hpending
    · exact hg.pending i x hx hpending b hb
  · intro k m' hm' harr' hopen'
    change (db.members.updateKey member.id _ _).get k = some m' at hm'
    rw [Table.get_updateKey, Option.map_eq_some_iff] at hm'
    obtain ⟨m, hmk, hchange⟩ := hm'
    split at hchange
    · next hcond =>
      subst hchange
      obtain ⟨rfl, -⟩ := hcond
      rw [hm] at hmk
      cases hmk
      refine ⟨nextId db.inbox, _, hnew, ?_, hkey⟩
      rw [show ((arrivePatch id now).apply member).barrierId = barrier.id from hid]
      exact hbarrier
    · subst hchange
      obtain ⟨i, x, hx, hxb, hxk⟩ := hg.arrived k m hmk harr' hopen'
      exact ⟨i, x, hold hx, hxb, hxk⟩
  · intro i key text htext hopen'
    obtain hbefore | hlast := List.mem_append.mp htext
    · obtain ⟨j, x, hx, hrest⟩ := hg.callbacks i key text hbefore hopen'
      exact ⟨j, x, hold hx, hrest⟩
    · rw [List.mem_singleton] at hlast
      cases hlast
      exact ⟨nextId db.inbox, _, hnew, hbarrier, hkey, hmessage⟩

/-- The tables from which the completion of a callback's barrier is checked. -/
theorem gathered_of_fallsBack {send : Send} {barrier : CallbackBarrier}
    {member : CallbackBarrierMember} {routed : Routed} {db₁ : Database}
    (hinsert : insertUnbound sha256 env db (boundRow env send barrier member) = .ok (routed, db₁))
    (hfalls : FallsBack sha256 env db (boundRow env send barrier member)) (hg : Gathered db)
    (hm : db.members.get member.id = some member) (hid : member.barrierId = barrier.id) :
    Gathered ((db₁.bind barrier.id member.memberKey send.message).withMembers
      (db₁.members.updateKey member.id (fun m => m.state == .awaiting)
        (arrivePatch routed.id env.now))) ∧
    db₁.queue = db.queue ∧
    ∀ scanned, ScannedClosed scanned db → ScannedClosed scanned
      ((db₁.bind barrier.id member.memberKey send.message).withMembers
        (db₁.members.updateKey member.id (fun m => m.state == .awaiting)
          (arrivePatch routed.id env.now))) := by
  obtain ⟨generation, rfl⟩ := insertUnbound_of_fallsBack hinsert hfalls
  generalize hrow : { boundRow env send barrier member with
    enqueueGeneration := generation } = row
  have hsupersede : Effect (fun _ b => b = none) db (supersede db row) := effect_supersede db row
  refine ⟨?_, rfl, ?_⟩
  · exact gathered_bound row send.message routed.id env.now (hsupersede.gathered hg)
      (show (supersede db row).members.get member.id = some member from hm) hid
      (by rw [← hrow]; rfl) (by rw [← hrow]; rfl) (by rw [← hrow]; rfl) (by rw [← hrow]; rfl)
  · intro scanned hs j hj
    obtain ⟨x, hx, hclosed⟩ := hsupersede.scannedClosed hs j hj
    exact ⟨x, get_insertRow_of_some hx row, hclosed⟩

/-- A callback that falls back keeps the tables gathered, also where its constraint check comes
to a rollback. -/
theorem gathered_insertBound {send : Send} {barrier : CallbackBarrier}
    {member : CallbackBarrierMember} {routed : Routed} (hg : Gathered db)
    (hm : db.members.get member.id = some member) (hid : member.barrierId = barrier.id)
    (hfalls : FallsBack sha256 env db (boundRow env send barrier member))
    (h : insertBound sha256 env db send barrier member = .ok (routed, db')) :
    Gathered db' ∧ Gathered (db.rollback (db'.raise .integrity)) ∧
      ∀ scanned, ScannedClosed scanned db → ScannedClosed scanned db' := by
  unfold insertBound at h
  split at h
  · cases h
  next routed' db₁ hinsert =>
  obtain ⟨hgathered, hqueue, hscanned⟩ := gathered_of_fallsBack hinsert hfalls hg hm hid
  simp only at h
  split at h
  · cases h
  next fired db₃ hfire =>
  cases h
  have heffect : Effect (fun _ b => b = none) _ _ := effect_of_maybeFire rfl hfire
  have hdone := heffect.gathered hgathered
  refine ⟨hdone, hg.rollback (hqueue ▸ heffect.queue) ?_, ?_⟩
  · exact fun f hf => hdone.firings f (List.mem_append_right _ hf)
  · exact fun scanned hs => heffect.scannedClosed (hscanned scanned hs)

theorem gathered_insertBound_error {send : Send} {barrier : CallbackBarrier}
    {member : CallbackBarrierMember} {raised : Raised} (hg : Gathered db)
    (hm : db.members.get member.id = some member) (hid : member.barrierId = barrier.id)
    (hfalls : FallsBack sha256 env db (boundRow env send barrier member))
    (h : insertBound sha256 env db send barrier member = .error raised) :
    Gathered (db.rollback raised) := by
  unfold insertBound at h
  split at h
  · next hinsert =>
    cases h
    obtain ⟨error, rfl⟩ := raise_of_insertUnbound hinsert
    exact hg
  next routed' db₁ hinsert =>
  obtain ⟨hgathered, hqueue, -⟩ := gathered_of_fallsBack hinsert hfalls hg hm hid
  simp only at h
  split at h
  · next hfire =>
    cases h
    have heffect : Effect (fun _ b => b = none) _ _ := effect_of_maybeFire_error rfl hfire
    exact hg.rollback (hqueue ▸ heffect.queue) fun f hf =>
      (heffect.gathered hgathered).firings f (List.mem_append_right _ hf)
  · cases h

/-! ## Reaping -/

/-- The barriers a fold closes are closed by it. -/
theorem isClosed_closeAll {bs : List CallbackBarrier} {state : BarrierState} (reason : String)
    (now : Int) (hstate : state ≠ .open) (hsome : ∀ b ∈ bs, (db.barriers.get b.id).isSome) :
    ∀ b ∈ bs, (bs.foldl (fun db b => db.closeBarrier b.id state reason now) db).isClosed b.id =
      true := by
  induction bs generalizing db with
  | nil =>
    intro b hb
    cases hb
  | cons first rest ih =>
    intro b hb
    obtain rfl | hrest := List.mem_cons.mp hb
    · have heffect : Effect (fun _ _ => True) (db.closeBarrier b.id state reason now) _ :=
        effect_closeAll rest reason now hstate (db.closeBarrier b.id state reason now)
      exact heffect.closed b.id (isClosed_closeBarrier reason now hstate (hsome b hb))
    · refine ih ?_ b hrest
      intro c hc
      show ((db.barriers.updateKey first.id _ _).get c.id).isSome
      rw [Table.get_updateKey, Option.isSome_map]
      exact hsome c (List.mem_cons_of_mem _ hc)

theorem inbox_closeAll (bs : List CallbackBarrier) (state : BarrierState) (reason : String)
    (now : Int) (db : Database) :
    (bs.foldl (fun db b => db.closeBarrier b.id state reason now) db).inbox = db.inbox := by
  induction bs generalizing db with
  | nil => rfl
  | cons b rest ih => exact ih _

/-- Closing each barrier after its release comes to closing all of them first: the statements
are on two tables. -/
theorem foldl_closeOwnedBarrier (now : Int) (bs : List CallbackBarrier) (db : Database)
    (inbox : Table InboxRow.id) :
    bs.foldl (closeOwnedBarrier now) (db.withInbox inbox) =
      bs.foldl (fun db b => db.releaseHeld b.id (statusPatch .pending))
        ((bs.foldl (fun db b => db.closeBarrier b.id .cancelled "owner_gone" now) db).withInbox
          inbox) := by
  induction bs generalizing db inbox with
  | nil => rfl
  | cons b rest ih => exact ih (db.closeBarrier b.id .cancelled "owner_gone" now) _

/-- Held callbacks of closed barriers are released. -/
theorem effect_releaseAll {new : Option String → Option Int → Prop} {bs : List CallbackBarrier}
    (h : ∀ b ∈ bs, db.isClosed b.id = true) :
    Effect new db (bs.foldl (fun db b => db.releaseHeld b.id (statusPatch .pending)) db) := by
  induction bs generalizing db with
  | nil => exact Effect.refl db
  | cons b rest ih =>
    exact (effect_releaseHeld (h b (by simp))).trans
      (ih fun c hc => h c (List.mem_cons_of_mem _ hc))

theorem barrierId_reapPatch (releasedFrom : String) (target : Option ReapTarget)
    (row : InboxRow) : ((reapPatch releasedFrom target).apply row).barrierId = row.barrierId := by
  cases target <;> rfl

/-- A statement on rows that belong to no open barrier. -/
theorem gathered_updateInbox {p : InboxRow → Bool} {f : Patch InboxRow.id} (hg : Gathered db)
    (hsame : ∀ row, (f.apply row).barrierId = row.barrierId)
    (hclosed : ∀ id row, db.inbox.get id = some row → p row = true → ∀ b,
      row.barrierId = some b → db.isClosed b = true) :
    Gathered (db.withInbox (db.inbox.update p f)) := by
  have hkept : ∀ {id row b}, db.inbox.get id = some row → row.barrierId = some b →
      db.isClosed b = false → (db.inbox.update p f).get id = some row := by
    intro id row b hrow hb hopen
    rw [Table.get_update, hrow, Option.map_some, if_neg]
    intro hp
    rw [hclosed id row hrow hp b hb] at hopen
    cases hopen
  refine ⟨hg.queue, ?_, ?_, ?_, hg.firings⟩
  · intro id row' hrow' hpending b hb
    change (db.inbox.update p f).get id = some row' at hrow'
    rw [Table.get_update, Option.map_eq_some_iff] at hrow'
    obtain ⟨row, hrow, hchange⟩ := hrow'
    split at hchange
    · next hp =>
      subst hchange
      rw [hsame] at hb
      exact hclosed id row hrow hp b hb
    · subst hchange
      exact hg.pending id row hrow hpending b hb
  · intro k m hm harr hopen
    obtain ⟨id, row, hrow, hbarrier, hkey⟩ := hg.arrived k m hm harr hopen
    exact ⟨id, row, hkept hrow hbarrier hopen, hbarrier, hkey⟩
  · intro i key body hbody hopen
    obtain ⟨id, row, hrow, hbarrier, hrest⟩ := hg.callbacks i key body hbody hopen
    exact ⟨id, row, hkept hrow hbarrier hopen, hbarrier, hrest⟩

theorem scannedClosed_updateInbox {scanned : List Int} {p : InboxRow → Bool}
    {f : Patch InboxRow.id} (hs : ScannedClosed scanned db)
    (hsame : ∀ row, (f.apply row).barrierId = row.barrierId) :
    ScannedClosed scanned (db.withInbox (db.inbox.update p f)) := by
  intro id hid
  obtain ⟨row, hrow, hclosed⟩ := hs id hid
  refine ⟨_, by
    show (db.inbox.update p f).get id = _
    rw [Table.get_update, hrow, Option.map_some], ?_⟩
  split
  · rw [hsame]
    exact hclosed
  · exact hclosed

/-- What a transaction leaves that has come from `db` to `db'` without taking a callback of a
barrier into the queue, and goes on from there. -/
theorem Effects.gathered {scanned : List Int} {result : Except Raised Database}
    (h : Effects (fun _ b => b = none) db' result) (hg : Gathered db)
    (hs : ScannedClosed scanned db) (hg' : Gathered db') (hs' : ScannedClosed scanned db')
    (hqueue : QueueEffect (fun _ b => b = none) db.queue db'.queue) :
    Gathered (transact db result) ∧ ScannedClosed scanned (transact db result) := by
  unfold transact
  cases result with
  | error raised =>
    have herror : Effect (fun _ b => b = none) db' (db'.rollback raised) := h
    refine ⟨hg.rollback (hqueue.trans herror.queue) ?_, hs⟩
    exact fun f hf => (herror.gathered hg').firings f (List.mem_append_right _ hf)
  | ok db'' =>
    have hok : Effect (fun _ b => b = none) db' db'' := h
    unfold checked
    by_cases hunique : bindingsUnique db''.members = true
    · simp only [hunique, if_true]
      exact ⟨hok.gathered hg', hok.scannedClosed hs'⟩
    · simp only [hunique]
      refine ⟨hg.rollback (hqueue.trans hok.queue) ?_, hs⟩
      exact fun f hf => (hok.gathered hg').firings f (List.mem_append_right _ hf)

/-- A reaping that re-addresses no callback of a barrier it leaves open. -/
theorem gathered_reap {scanned : List Int} {terminalId : String} {target : Option ReapTarget}
    (hg : Gathered db) (hs : ScannedClosed scanned db)
    (hrows : ∀ id row b, db.inbox.get id = some row → row.receiverId = terminalId →
      row.status = .held → row.barrierId = some b → db.isClosed b = true ∨
        ∃ barrier, db.barriers.get b = some barrier ∧ barrier.owner = .terminal terminalId) :
    Gathered (transact db (deleteTerminalAndWarmIntent sha256 env db terminalId target)) ∧
      ScannedClosed scanned
        (transact db (deleteTerminalAndWarmIntent sha256 env db terminalId target)) := by
  unfold deleteTerminalAndWarmIntent
  simp only [foldl_closeOwnedBarrier]
  generalize howned : (db.barriers.select fun b => b.state == .open
    && b.owner == .terminal terminalId) = owned
  have hmem : ∀ b ∈ owned, db.barriers.get b.id = some b := by
    intro b hb
    rw [← howned, Table.mem_select_iff] at hb
    exact hb.1
  generalize hclosing : (owned.foldl (fun db b => db.closeBarrier b.id .cancelled "owner_gone"
    env.now) db) = dbc
  have hclose : Effect (fun _ b => b = none) db dbc := by
    rw [← hclosing]
    exact effect_closeAll owned "owner_gone" env.now (by simp) db
  have hclosed : ∀ b ∈ owned, dbc.isClosed b.id = true := by
    rw [← hclosing]
    refine isClosed_closeAll "owner_gone" env.now (by simp) ?_
    intro b hb
    rw [hmem b hb]
    rfl
  have hinbox : dbc.inbox = db.inbox := by
    rw [← hclosing]
    exact inbox_closeAll owned .cancelled "owner_gone" env.now db
  generalize hpatch : reapPatch _ target = patch
  have hsame : ∀ row, (patch.apply row).barrierId = row.barrierId := by
    rw [← hpatch]
    exact barrierId_reapPatch _ target
  rw [← hinbox]
  have hreaddressed : Gathered (dbc.withInbox (dbc.inbox.update
      (fun row => row.receiverId == terminalId && row.status == .held) patch)) := by
    refine gathered_updateInbox (hclose.gathered hg) hsame ?_
    intro id row hrow hp b hb
    rw [hinbox] at hrow
    rw [Bool.and_eq_true, beq_iff_eq, beq_iff_eq] at hp
    obtain hdone | ⟨barrier, hget, howner⟩ := hrows id row b hrow hp.1 hp.2 hb
    · exact hclose.closed b hdone
    by_cases hstate : barrier.state = .open
    · have hown : barrier ∈ owned := by
        rw [← howned, Table.mem_select_iff, Table.key_of_get hget, hstate, howner]
        exact ⟨hget, by simp⟩
      rw [← Table.key_of_get hget]
      exact hclosed barrier hown
    · refine hclose.closed b ?_
      rw [isClosed_of_get hget, bne_iff_ne]
      exact hstate
  have hscanned := scannedClosed_updateInbox
    (p := fun row => row.receiverId == terminalId && row.status == .held)
    (hclose.scannedClosed hs) hsame
  generalize hdb₁ : dbc.withInbox (dbc.inbox.update
    (fun row => row.receiverId == terminalId && row.status == .held) patch) = db₁
    at hreaddressed hscanned
  have hrelease : Effect (fun _ b => b = none) db₁ (owned.foldl
      (fun db b => db.releaseHeld b.id (statusPatch .pending)) db₁) := by
    refine effect_releaseAll ?_
    intro b hb
    rw [← hdb₁]
    exact hclosed b hb
  generalize owned.foldl (fun db b => db.releaseHeld b.id (statusPatch .pending)) db₁ = db₂
    at hrelease
  have hqueue : QueueEffect (fun _ b => b = none) db.queue db₂.queue := by
    refine hclose.queue.trans ?_
    rw [show dbc.queue = db₁.queue from by rw [← hdb₁]; rfl]
    exact hrelease.queue
  exact (effects_markMembersGone rfl _ db₂).gathered hg hs (hrelease.gathered hreaddressed)
    (hrelease.scannedClosed hscanned) hqueue

/-! ## The queue's own operations -/

/-- The queue is written, and takes in only what belongs to no open barrier. -/
theorem gathered_exec {op : Op} (hg : Gathered db)
    (hnew : ∀ draft newUlid now, op = .enqueue draft newUlid now → ∀ b, draft.barrierId = some b →
      db.isClosed b = true) : Gathered { db with queue := exec sha256 db.queue op } := by
  refine ⟨?_, hg.pending, hg.arrived, hg.callbacks, hg.firings⟩
  intro m r hget b hb
  change (exec sha256 db.queue op).get m = some r at hget
  cases hold : db.queue.get m with
  | none =>
    obtain ⟨draft, now, rfl, rfl, -⟩ := inserted_of_exec hold hget
    exact hnew draft m now rfl b hb
  | some r₀ =>
    obtain ⟨l, hstep, -⟩ := rowStep_of_exec hold hget
    exact hg.queue m r₀ hold b (hstep.barrierId.symm.trans hb)

/-! ## Events -/

/-- A send holds back, or is no callback to an open barrier. -/
theorem gathered_send {scanned : List Int} {send : Send} (hg : Gathered db)
    (hs : ScannedClosed scanned db) (hholds : ∀ barrier member,
      openMatch env db send = some (barrier, member) →
      FallsBack sha256 env db (boundRow env send barrier member)) :
    Gathered (transact db ((insertRoutedInboxRow sha256 contentHash env db send).map Prod.snd)) ∧
      ScannedClosed scanned (transact db
        ((insertRoutedInboxRow sha256 contentHash env db send).map Prod.snd)) := by
  obtain ⟨error, herror⟩ | ⟨db₁, hattaches, hsame, ⟨barrier, member, hmatch, hinsert⟩ |
    ⟨-, hinsert⟩⟩ := insertRoutedInboxRow_cases sha256 contentHash env db send
  · rw [herror]
    exact (Effects.raise db error).gathered hg hs hg hs (QueueEffect.refl _)
  · -- a callback carries no dispatch, so nothing was attached before it
    have hdispatch : send.dispatchBarrier = none := by
      unfold openMatch at hmatch
      split at hmatch
      · next hcond =>
        rw [Bool.and_eq_true, Option.isNone_iff_eq_none] at hcond
        exact hcond.1
      · cases hmatch
    obtain rfl := hsame hdispatch
    have hfalls := hholds barrier member hmatch
    unfold openMatch at hmatch
    split at hmatch
    · obtain ⟨-, hmember, hid, -, -⟩ := barrierMemberForCallback_spec hmatch
      rw [hinsert]
      unfold transact
      cases hresult : insertBound sha256 env db₁ send barrier member with
      | error raised => exact ⟨gathered_insertBound_error hg hmember hid hfalls hresult, hs⟩
      | ok result =>
        obtain ⟨routed, db'⟩ := result
        obtain ⟨hdone, hback, hscanned⟩ := gathered_insertBound hg hmember hid hfalls hresult
        simp only [Except.map, checked]
        by_cases hunique : bindingsUnique db'.members = true
        · simp only [hunique, if_true]
          exact ⟨hdone, hscanned scanned hs⟩
        · simp only [hunique]
          exact ⟨hback, hs⟩
    · cases hmatch
  · rw [hinsert]
    have hattach : Effect (fun _ b => b = none) db db₁ := hattaches.effect _
    exact (effects_insertFree sha256 contentHash env db₁ rfl).gathered hg hs
      (hattach.gathered hg) (hattach.scannedClosed hs) hattach.queue

theorem gathered_adopt {scanned : List Int} {id : Int} {newUlid : String} {now : Int}
    (hg : Gathered db) (hs : ScannedClosed scanned db) :
    Gathered (apply sha256 contentHash scanned db (.adopt id newUlid now)) ∧
      ScannedClosed scanned (apply sha256 contentHash scanned db (.adopt id newUlid now)) := by
  obtain hsame | ⟨draft, hdraft, hnew⟩ :=
    apply_adopt sha256 contentHash scanned db id newUlid now
  · rw [hsame]
    exact ⟨hg, hs⟩
  rw [hnew]
  refine ⟨gathered_exec hg ?_, hs⟩
  rintro draft' newUlid' now' hop b hb
  cases hop
  unfold adoptedDraft at hdraft
  rw [Option.bind_eq_some_iff] at hdraft
  obtain ⟨row, hrow, hfact⟩ := hdraft
  rw [Option.filter_eq_some_iff] at hrow
  obtain ⟨hget, hscanned⟩ := hrow
  obtain ⟨-, -, -, -, -, -, -, hbarrier⟩ := factDraft_eq_some hfact
  obtain ⟨row', hget', hclosed⟩ := hs id (List.contains_iff_mem.mp hscanned)
  rw [hget] at hget'
  cases hget'
  exact hclosed b (hbarrier.symm.trans hb)

/-- One event of the office. -/
theorem gathered_apply {o : Office} {event : Event} (hg : Gathered o.db)
    (hs : ScannedClosed o.scanned o.db) (hholds : HoldsBack sha256 o event) :
    Gathered (apply sha256 contentHash o.scanned o.db event) ∧
      ScannedClosed o.scanned (apply sha256 contentHash o.scanned o.db event) := by
  have htransact : ∀ {result}, Effects (fun _ b => b = none) o.db result →
      Gathered (transact o.db result) ∧ ScannedClosed o.scanned (transact o.db result) :=
    fun h => h.gathered hg hs hg hs (QueueEffect.refl _)
  have heffect : ∀ {db'}, Effect (fun _ b => b = none) o.db db' →
      Gathered db' ∧ ScannedClosed o.scanned db' := fun h => ⟨h.gathered hg, h.scannedClosed hs⟩
  cases event with
  | send env send => exact gathered_send hg hs hholds
  | adopt id newUlid now => exact gathered_adopt hg hs
  | reap env terminalId target => exact gathered_reap hg hs hholds
  | attach env senderId terminalId spec profileName =>
    refine htransact ?_
    cases hattach : attachDispatchBarrier env o.db senderId terminalId spec profileName with
    | error e => exact Effects.raise o.db e
    | ok db' => exact (attaches_attachDispatchBarrier hattach).effect _
  | memberGone env terminalId => exact htransact (effects_markMembersGone rfl _ o.db)
  | escalate env terminalId callerId message idleReason =>
    exact htransact (effects_insertBarrierEscalationMessage rfl o.db terminalId callerId message
      idleReason)
  | fireDue env now => exact heffect (effect_fireDueBarriers rfl now o.db)
  | cancel env barrierId barrierLabel ownerId =>
    exact htransact (effects_cancelCallbackBarrier o.db barrierId barrierLabel ownerId)
  | closeOwned env terminalId => exact htransact (effect_closeOwnedBarriers env o.db terminalId)
  | publish env mailboxId generation addresses =>
    exact htransact (effect_publish env o.db mailboxId generation addresses)
  | scan id => exact ⟨hg, hs⟩
  | retire id =>
    refine heffect ?_
    show Effect _ o.db (if _ then o.db.withInbox (retireRow o.db.inbox id) else o.db)
    split
    · exact effect_updateInbox _ _ fun row _ =>
        settles_status row.digestedInto (by simp) (by simp) row
    · exact Effect.refl o.db
  | notice row newUlid now =>
    obtain hsame | ⟨draft, hdraft, hnew⟩ :=
      apply_notice sha256 contentHash o.scanned o.db row newUlid now
    · rw [hsame]
      exact ⟨hg, hs⟩
    · rw [hnew]
      refine ⟨gathered_exec hg ?_, hs⟩
      rintro draft' newUlid' now' hop b hb
      cases hop
      rw [(noticeDraft_eq_some hdraft).2.2.2] at hb
      cases hb
  | queue op =>
    show Gathered (if op.minted = none then _ else o.db) ∧
      ScannedClosed o.scanned (if op.minted = none then _ else o.db)
    split
    · next hminted =>
      refine ⟨gathered_exec hg ?_, hs⟩
      rintro draft newUlid now rfl
      cases hminted
    · exact ⟨hg, hs⟩

/-- One event that holds callbacks back keeps the tables gathered. -/
theorem gathered_step {o : Office} {event : Event}
    (h : Gathered o.db ∧ ScannedClosed o.scanned o.db) (hholds : HoldsBack sha256 o event) :
    Gathered (step sha256 contentHash o event).db ∧
      ScannedClosed (step sha256 contentHash o event).scanned
        (step sha256 contentHash o event).db := by
  obtain ⟨hg, hs⟩ := h
  obtain ⟨hg', hs'⟩ := gathered_apply hg hs hholds
  refine ⟨hg', ?_⟩
  cases event with
  | scan id =>
    show ScannedClosed (if (o.db.inbox.get id).any (fun row => row.status == .pending) then
      id :: o.scanned else o.scanned) o.db
    split
    · next hpending =>
      intro i hi
      obtain rfl | hold := List.mem_cons.mp hi
      · rw [Option.any_eq_true] at hpending
        obtain ⟨row, hget, hstatus⟩ := hpending
        exact ⟨row, hget, hg.pending i row hget (beq_iff_eq.mp hstatus)⟩
      · exact hs i hold
    · exact hs
  | _ => exact hs'

/-! ## Runs -/

/-- At every moment of a run no row of an open barrier is offered to the tick, and every combined
message so far shows all the callbacks it was to show. -/
def DeliversInCombined (sha256 contentHash : String → String) (events : List Event) : Prop :=
  ∀ before, before <+: events →
    Unclaimable (run (step sha256 contentHash) Office.start before).db ∧
    ∀ f ∈ (run (step sha256 contentHash) Office.start before).db.firings, Complete f

theorem gathered_start : Gathered Office.start.db := by
  refine ⟨?_, ?_, ?_, ?_, ?_⟩
  · intro m r hget
    cases hget
  · intro id row hget
    cases hget
  · intro k m hget
    cases hget
  · intro i key body hbody
    cases hbody
  · intro f hf
    cases hf

/-- In a run that holds callbacks back, they are delivered inside the combined message. -/
theorem deliversInCombined_of_holdsBack (sha256 contentHash : String → String)
    (events : List Event)
    (h : StepsSatisfy (step sha256 contentHash) (HoldsBack sha256) Office.start events) :
    DeliversInCombined sha256 contentHash events := by
  rintro before ⟨after, rfl⟩
  rw [stepsSatisfy_append] at h
  have hkept : Gathered (run (step sha256 contentHash) Office.start before).db ∧
      ScannedClosed (run (step sha256 contentHash) Office.start before).scanned
        (run (step sha256 contentHash) Office.start before).db := by
    refine run_invariant_of (HoldsBack sha256)
      (fun o : Office => Gathered o.db ∧ ScannedClosed o.scanned o.db)
      (fun _ _ hholds hone => gathered_step hone hholds) Office.start ?_ before h.1
    refine ⟨gathered_start, ?_⟩
    intro id hid
    cases hid
  exact ⟨hkept.1.unclaimable, hkept.1.firings⟩

/-- A supervisor and two workers; `newUlid` is what the queue's connection does. -/
def crewEnv (newUlid : String → Option String) : Env where
  terminal id := if id = "sup" ∨ id = "one" ∨ id = "two" then some ⟨1, none⟩ else none
  mailbox _ := none
  mailboxOf _ := none
  latestIncarnation _ := none
  callerTargets _ := []
  newUlid := newUlid
  now := 0

/-- Both workers are awaited under one label. -/
def crewDispatch (newUlid : String → Option String) : List Event :=
  [.attach (crewEnv newUlid) "sup" "one" { label := "build" } none,
    .attach (crewEnv newUlid) "sup" "two" { label := "build" } none]

def crewCallback (senderId message : String) : Send where
  senderId := senderId
  receiverId := "sup"
  message := message

/-- Both workers call back, and the queue cannot be written. -/
def crewHeld : List Event :=
  crewDispatch (fun _ => none) ++
    [.send (crewEnv fun _ => none) (crewCallback "one" "done"),
      .send (crewEnv fun _ => none) (crewCallback "two" "done")]

example : (run (step id id) Office.start crewHeld).db.combinedCount 1 = 1 := by decide

/-- Neither callback reaches the queue on its own. -/
theorem deliversInCombined_of_holdsBack_crew : DeliversInCombined id id crewHeld := by
  refine deliversInCombined_of_holdsBack id id crewHeld ⟨trivial, trivial, ?_, ?_, trivial⟩
  · intro barrier member _ row' _
    rfl
  · intro barrier member _ row' _
    rfl

/-- The first worker calls back while the queue can be written. -/
def crewQueued : List Event :=
  crewDispatch (fun _ => some "01") ++
    [.send (crewEnv fun _ => some "01") (crewCallback "one" "done")]

/-- An empty queue takes the row. -/
theorem writeThrough_empty {inboxMax : Option Int} {fact : LegacyEnqueue} {draft : EnqueueDraft}
    {ulid : String} {now : Int}
    (hdraft : factDraft (liveKey (nextSurrogateId Store.empty inboxMax)) fact
      (nextSurrogateId Store.empty inboxMax) = some draft) :
    writeThrough sha256 Store.empty inboxMax fact (some ulid) now =
      (some (nextSurrogateId Store.empty inboxMax, ulid), { Store.empty with
        deliveryMsg := Store.empty.deliveryMsg.insert (draftRow sha256 draft ulid now) }) := by
  have hclear : windowCheck Store.empty fact now = .windowClear := by
    unfold windowCheck findRecentDuplicate
    split
    · rfl
    · next found =>
      split at found
      · cases found
      · cases found
  unfold writeThrough
  simp only
  rw [hclear, enqueueFact_fresh hdraft rfl rfl]

/-- A callback the queue takes is ready there, whatever its barrier waits for. -/
theorem insertBound_queued {send : Send} {barrier : CallbackBarrier}
    {member : CallbackBarrierMember} {ulid : String} (hempty : db.queue = Store.empty)
    (hulid : env.newUlid send.senderId = some ulid)
    (hrecv : (sendRow env send).effectiveReceiver ≠ "")
    (hwaits : ∀ id, barrierComplete (db.withMembers (db.members.updateKey member.id
      (fun m => m.state == .awaiting) (arrivePatch id env.now))) barrier.id = false) :
    ∃ routed db' r, insertBound sha256 env db send barrier member = .ok (routed, db') ∧
      db'.barriers = db.barriers ∧
      db'.members = db.members.updateKey member.id (fun m => m.state == .awaiting)
        (arrivePatch routed.id env.now) ∧
      db'.queue = { Store.empty with deliveryMsg := Store.empty.deliveryMsg.insert r } ∧
      r.state = .ready ∧ r.mode = .live ∧ r.availableAt = env.now ∧
      r.deadBy = computeDeadBy env.now env.now send.expireAfterS ∧
      r.barrierId = some barrier.id := by
  generalize hrow : { boundRow env send barrier member with
    enqueueGeneration := receiverGeneration env (boundRow env send barrier member) } = row
  have hstamp : stampEnqueueGeneration env (boundRow env send barrier member) = .ok row := by
    unfold stampEnqueueGeneration
    rw [if_neg, hrow]
    rintro ⟨hpending, -⟩
    cases hpending
  generalize hn : nextSurrogateId Store.empty (maxId (supersede db row).inbox) = n
  have hfact : (writeThroughFact row).receiverId ≠ "" := by
    rw [← hrow]
    exact hrecv
  obtain ⟨draft, hdraft⟩ := factDraft_isSome n hfact
  have hplace : placeRow sha256 env (supersede db row) row = (⟨n, some ulid⟩,
      { supersede db row with queue := { Store.empty with
        deliveryMsg := Store.empty.deliveryMsg.insert (draftRow sha256 draft ulid env.now) } }) := by
    have hsender : env.newUlid row.senderId = some ulid := by
      rw [← hrow]
      exact hulid
    unfold placeRow
    rw [show (supersede db row).queue = Store.empty from hempty, hsender,
      writeThrough_empty (hn ▸ hdraft), hn]
  have hinsert : insertUnbound sha256 env db (boundRow env send barrier member) =
      .ok (⟨n, some ulid⟩, { supersede db row with queue := { Store.empty with
        deliveryMsg := Store.empty.deliveryMsg.insert (draftRow sha256 draft ulid env.now) } }) := by
    unfold insertUnbound
    rw [hstamp]
    simp only [hplace]
  have hfields : draft.mode = .live ∧ draft.expireAfterS = (writeThroughFact row).expireAfterS := by
    unfold factDraft at hdraft
    split at hdraft
    · cases hdraft
      exact ⟨rfl, rfl⟩
    · cases hdraft
  obtain ⟨-, -, -, -, -, -, -, hbarrier⟩ := factDraft_eq_some hdraft
  have hbound : ∃ db', insertBound sha256 env db send barrier member =
        .ok (⟨n, some ulid⟩, db') ∧ db'.barriers = db.barriers ∧
      db'.members = db.members.updateKey member.id (fun m => m.state == .awaiting)
        (arrivePatch n env.now) ∧
      db'.queue = { Store.empty with
        deliveryMsg := Store.empty.deliveryMsg.insert (draftRow sha256 draft ulid env.now) } := by
    unfold insertBound maybeFireCompletedBarrier
    rw [hinsert]
    simp only
    rw [if_neg]
    · exact ⟨_, rfl, rfl, rfl, rfl⟩
    · rw [Bool.not_eq_true]
      exact hwaits n
  obtain ⟨db', hdone, hbarriers, hmembers, hqueue⟩ := hbound
  refine ⟨_, db', _, hdone, hbarriers, hmembers, hqueue, rfl, ?_, rfl, ?_, ?_⟩
  · exact hfields.1
  · show computeDeadBy env.now env.now draft.expireAfterS = _
    rw [hfields.2, ← hrow]
    rfl
  · show draft.barrierId = some barrier.id
    rw [hbarrier, ← hrow]
    rfl

/-- The first callback can be claimed while its barrier waits for the second. -/
theorem crewQueued_not_deliversInCombined :
    ¬ ∃ sha256 contentHash, DeliversInCombined sha256 contentHash crewQueued := by
  rintro ⟨sha256, contentHash, h⟩
  obtain ⟨db, hrun, hempty, barrier, member, hmatch, hid, hwaits⟩ : ∃ db,
      run (step sha256 contentHash) Office.start (crewDispatch fun _ => some "01") = ⟨db, []⟩ ∧
      db.queue = Store.empty ∧ ∃ barrier member,
      openMatch (crewEnv fun _ => some "01") db (crewCallback "one" "done") =
        some (barrier, member) ∧ barrier.id = 1 ∧ db.isOpen 1 = true ∧
      ∀ id, barrierComplete (db.withMembers (db.members.updateKey member.id
        (fun m => m.state == .awaiting) (arrivePatch id 0))) barrier.id = false ∧
        bindingsUnique (db.members.updateKey member.id
        (fun m => m.state == .awaiting) (arrivePatch id 0)) = true :=
    ⟨_, rfl, rfl, _, _, rfl, rfl, rfl, fun _ => ⟨rfl, rfl⟩⟩
  obtain ⟨hopen, hwaits⟩ := hwaits
  obtain ⟨routed, db', r, hinsert, hbarriers, hmembers, hqueue, hready, hlive, havailable, hdeadBy,
    hbarrier⟩ := @insertBound_queued db sha256 (crewEnv fun _ => some "01")
      (crewCallback "one" "done") barrier member "01" hempty rfl (by decide)
      (fun id => (hwaits id).1)
  have hlast : (run (step sha256 contentHash) Office.start crewQueued).db = db' := by
    unfold crewQueued
    rw [run_append, hrun, run_singleton]
    show transact db ((insertRoutedInboxRow sha256 contentHash (crewEnv fun _ => some "01") db
      (crewCallback "one" "done")).map Prod.snd) = db'
    have hroute : insertRoutedInboxRow sha256 contentHash (crewEnv fun _ => some "01") db
        (crewCallback "one" "done") = .ok (routed, db') := by
      unfold insertRoutedInboxRow
      simp only [crewCallback] at hmatch hinsert ⊢
      rw [hmatch]
      exact hinsert
    rw [hroute]
    unfold transact checked
    simp only [Except.map]
    rw [if_pos]
    rw [hmembers]
    exact (hwaits routed.id).2
  have hclaim : r ∈ claimRows db'.queue 0 1 none := by
    have hclaimable : claimable 0 none r = true := by
      unfold claimable
      rw [hready, hlive, havailable, hdeadBy]
      rfl
    have honly : (Store.empty.deliveryMsg.insert r).select (claimable 0 none) = [r] := by
      show [r].filter (claimable 0 none) = [r]
      rw [List.filter_cons_of_pos hclaimable, List.filter_nil]
    rw [hqueue]
    unfold claimRows
    simp only
    rw [honly]
    exact List.mem_singleton_self r
  have hclosed := (h crewQueued (List.prefix_refl _)).1 0 1 none r
  rw [hlast] at hclosed
  have hisOpen : db'.isOpen 1 = true := by
    unfold Database.isOpen at hopen ⊢
    rw [hbarriers]
    exact hopen
  have hnot := hclosed hclaim 1 (hid ▸ hbarrier)
  rw [hisOpen] at hnot
  cases hnot

end CliAgentOrchestrator.Inbox
