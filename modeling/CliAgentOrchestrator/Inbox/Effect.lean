import CliAgentOrchestrator.Inbox.Lifecycle

/-!
# What an operation does to the two stores

Every operation on barriers writes rows of the inbox and of the queue beside its own tables.
`Effect` says what becomes of the rows that are there, which rows are new and what a combined
message was rendered from; effects compose, and one that is rolled back leaves what the queue
took.
-/

set_option autoImplicit false

namespace CliAgentOrchestrator.Inbox

open CliAgentOrchestrator.Core Library Queue Wiring

/-! ## Effects -/

/-- Is the row still to be delivered? -/
def InboxRow.waits (row : InboxRow) : Bool := row.status == .pending || row.status == .held

/-- Is there such a barrier, and is it closed? -/
def Database.isClosed (db : Database) (barrierId : Int) : Bool :=
  (db.barriers.get barrierId).any fun b => b.state != .open

/-- The combined messages inserted so far. -/
def Database.firings (db : Database) : List Firing := db.combined ++ db.sent

/-- Only the status of a row moves; a row is released by closing its barrier. -/
structure Settles (isClosed : Int → Bool) (row row' : InboxRow) : Prop where
  same : row' = { row with status := row'.status, digestedInto := row'.digestedInto }
  waits : row'.waits = true → row.waits = true
  released : row'.status = .pending → row.status = .pending ∨
    ∀ b, row.barrierId = some b → isClosed b = true

/-- A combined message shows who had arrived, and every row that was there. -/
structure RenderedFrom (db : Database) (firing : Firing) : Prop where
  open_before : db.isClosed firing.barrier.id = false
  members : ∀ m ∈ firing.members, m.state = .arrived → ∃ k m₀, db.members.get k = some m₀ ∧
    m₀.state = .arrived ∧ m₀.barrierId = firing.barrier.id ∧ m₀.memberKey = m.memberKey
  inbox : ∀ id row, db.inbox.get id = some row → ∃ row', firing.inbox.get id = some row' ∧
    row'.message = row.message ∧ row'.barrierId = row.barrierId ∧
    row'.barrierMemberKey = row.barrierMemberKey
  callbacks : firing.callbacks = db.callbacks

/-- New rows of the queue have a key and a barrier as `new` admits, and no other row changes. -/
structure QueueEffect (new : Option String → Option Int → Prop) (s s' : Store) : Prop where
  kept : ∀ m r, s.get m = some r → s'.get m = some r
  fresh : ∀ m r, s'.get m = some r → s.get m = none → new r.supersedeKey r.barrierId

/-- The effect of an operation that brings rows with a key and a barrier as `new` admits. -/
structure Effect (new : Option String → Option Int → Prop) (db db' : Database) : Prop where
  closed : ∀ i, db.isClosed i = true → db'.isClosed i = true
  inbox : ∀ id row, db.inbox.get id = some row →
    ∃ row', db'.inbox.get id = some row' ∧ Settles db'.isClosed row row'
  fresh : ∀ id row, db'.inbox.get id = some row → db.inbox.get id = none →
    new row.supersedeKey row.barrierId
  queue : QueueEffect new db.queue db'.queue
  members : ∀ k m', db'.members.get k = some m' → m'.state = .arrived → ∃ m,
    db.members.get k = some m ∧ m.state = .arrived ∧ m.barrierId = m'.barrierId ∧
    m.memberKey = m'.memberKey
  callbacks : db'.callbacks = db.callbacks
  firings : ∀ f ∈ db'.firings, f ∈ db.firings ∨ RenderedFrom db f

/-- The effect of a transaction, or of what its rollback leaves. -/
def Effects (new : Option String → Option Int → Prop) (db : Database) :
    Except Raised Database → Prop
  | .error raised => Effect new db (db.rollback raised)
  | .ok db' => Effect new db db'

variable {new : Option String → Option Int → Prop} {db db' db'' : Database}
  {sha256 contentHash : String → String} {env : Env}

/-! ## Composition -/

theorem Settles.refl (isClosed : Int → Bool) (row : InboxRow) : Settles isClosed row row :=
  ⟨rfl, id, .inl⟩

theorem Settles.trans {isClosed isClosed' : Int → Bool} {row row' row'' : InboxRow}
    (h : Settles isClosed row row') (h' : Settles isClosed' row' row'')
    (hclosed : ∀ i, isClosed i = true → isClosed' i = true) : Settles isClosed' row row'' := by
  refine ⟨?_, fun hw => h.waits (h'.waits hw), ?_⟩
  · rw [h'.same, h.same]
  · intro hstatus
    have hbarrier : row'.barrierId = row.barrierId := by rw [h.same]
    obtain hpending | hreleased := h'.released hstatus
    · obtain hpending | hreleased := h.released hpending
      · exact .inl hpending
      · exact .inr fun b hb => hclosed b (hreleased b hb)
    · exact .inr fun b hb => hreleased b (hbarrier.trans hb)

theorem QueueEffect.refl (s : Store) : QueueEffect new s s := by
  refine ⟨fun _ _ h => h, ?_⟩
  intro m r h hnone
  rw [h] at hnone
  cases hnone

theorem QueueEffect.trans {s s' s'' : Store} (h : QueueEffect new s s')
    (h' : QueueEffect new s' s'') : QueueEffect new s s'' := by
  refine ⟨fun m r hm => h'.kept m r (h.kept m r hm), ?_⟩
  intro m r hm hnone
  cases hmid : s'.get m with
  | none => exact h'.fresh m r hm hmid
  | some r' =>
    have hsame := h'.kept m r' hmid
    rw [hm] at hsame
    cases hsame
    exact h.fresh m r hmid hnone

theorem Effect.refl (db : Database) : Effect new db db := by
  refine ⟨fun _ h => h, fun _ row h => ⟨row, h, Settles.refl _ row⟩, ?_, QueueEffect.refl _,
    fun _ m h harr => ⟨m, h, harr, rfl, rfl⟩, rfl, fun _ h => .inl h⟩
  intro id row h hnone
  rw [h] at hnone
  cases hnone

/-- What was rendered after an effect was rendered from what was there before it. -/
theorem RenderedFrom.before {firing : Firing} (h : RenderedFrom db' firing)
    (heffect : Effect new db db') : RenderedFrom db firing := by
  refine ⟨?_, ?_, ?_, h.callbacks.trans heffect.callbacks⟩
  · by_contra hclosed
    rw [Bool.not_eq_false] at hclosed
    have := heffect.closed _ hclosed
    rw [h.open_before] at this
    cases this
  · intro m hm harr
    obtain ⟨k, m', hm', harr', hid', hkey'⟩ := h.members m hm harr
    obtain ⟨m₀, hm₀, harr₀, hid₀, hkey₀⟩ := heffect.members k m' hm' harr'
    exact ⟨k, m₀, hm₀, harr₀, hid₀.trans hid', hkey₀.trans hkey'⟩
  · intro id row hrow
    obtain ⟨row', hrow', hsettles⟩ := heffect.inbox id row hrow
    obtain ⟨row'', hrow'', hmessage, hbarrier, hkey⟩ := h.inbox id row' hrow'
    rw [hsettles.same] at hmessage hbarrier hkey
    exact ⟨row'', hrow'', hmessage, hbarrier, hkey⟩

theorem Effect.trans (h : Effect new db db') (h' : Effect new db' db'') :
    Effect new db db'' := by
  refine ⟨fun i hi => h'.closed i (h.closed i hi), ?_, ?_, h.queue.trans h'.queue, ?_,
    h'.callbacks.trans h.callbacks, ?_⟩
  · intro id row hrow
    obtain ⟨row', hrow', hsettles⟩ := h.inbox id row hrow
    obtain ⟨row'', hrow'', hsettles'⟩ := h'.inbox id row' hrow'
    exact ⟨row'', hrow'', hsettles.trans hsettles' h'.closed⟩
  · intro id row hrow hnone
    cases hmid : db'.inbox.get id with
    | none => exact h'.fresh id row hrow hmid
    | some row' =>
      obtain ⟨row'', hrow'', hsettles⟩ := h'.inbox id row' hmid
      rw [hrow] at hrow''
      cases hrow''
      rw [hsettles.same]
      exact h.fresh id row' hmid hnone
  · intro k m'' hm'' harr''
    obtain ⟨m', hm', harr', hid', hkey'⟩ := h'.members k m'' hm'' harr''
    obtain ⟨m, hm, harr, hid, hkey⟩ := h.members k m' hm' harr'
    exact ⟨m, hm, harr, hid.trans hid', hkey.trans hkey'⟩
  · intro f hf
    obtain hf' | hrendered := h'.firings f hf
    · exact h.firings f hf'
    · exact .inr (hrendered.before h)

/-- A rollback keeps what the queue took. -/
theorem Effect.raise (h : Effect new db db') (error : RouteError) :
    Effect new db (db.rollback (db'.raise error)) := by
  have hrefl : Effect new db db := Effect.refl db
  refine ⟨hrefl.closed, hrefl.inbox, hrefl.fresh, h.queue,
    hrefl.members, rfl, ?_⟩
  intro f hf
  obtain hold | hnew := List.mem_append.mp hf
  · exact .inl (List.mem_append_left _ hold)
  · exact h.firings f (List.mem_append_right _ hnew)

theorem Effect.rollback {raised : Raised} (h : Effect new db db')
    (h' : Effect new db' (db'.rollback raised)) : Effect new db (db.rollback raised) :=
  (h.trans h').raise raised.error

theorem Effects.after {result : Except Raised Database} (h : Effect new db db')
    (h' : Effects new db' result) : Effects new db result := by
  cases result with
  | error raised => exact h.rollback h'
  | ok db'' => exact h.trans h'

theorem Effects.raise (db : Database) (error : RouteError) :
    Effects new db (.error (db.raise error)) := (Effect.refl db).raise error

/-- The effect of a transaction is that of its commit or of its rollback. -/
theorem effect_transact {result : Except Raised Database} (h : Effects new db result) :
    Effect new db (transact db result) := by
  unfold transact
  cases result with
  | error raised => exact h
  | ok db' =>
    have hok : Effect new db db' := h
    unfold checked
    simp only
    split
    · next raised hraised =>
      split at hraised
      · cases hraised
      · cases hraised
        exact hok.raise .integrity
    · next db'' hdone =>
      split at hdone
      · cases hdone
        exact hok
      · cases hdone

/-! ## Statements -/

theorem isClosed_of_get {i : Int} {b : CallbackBarrier} (h : db.barriers.get i = some b) :
    db.isClosed i = (b.state != .open) := by
  unfold Database.isClosed
  rw [h]
  rfl

theorem isClosed_eq_true_iff {i : Int} : db.isClosed i = true ↔
    ∃ b, db.barriers.get i = some b ∧ b.state ≠ .open := by
  unfold Database.isClosed
  rw [Option.any_eq_true]
  simp only [bne_iff_ne]

theorem not_isClosed_of_isOpen {i : Int} (h : db.isOpen i = true) : db.isClosed i = false := by
  unfold Database.isOpen at h
  unfold Database.isClosed
  cases hb : db.barriers.get i with
  | none => rfl
  | some b =>
    rw [hb] at h
    rw [Option.any_some, beq_iff_eq] at h
    simp [h]

/-- A statement on the member table by which nobody arrives. -/
theorem effect_withMembers {members : Table CallbackBarrierMember.id}
    (h : ∀ k m', members.get k = some m' → m'.state = .arrived → ∃ m,
      db.members.get k = some m ∧ m.state = .arrived ∧ m.barrierId = m'.barrierId ∧
      m.memberKey = m'.memberKey) : Effect new db (db.withMembers members) := by
  have hrefl : Effect new db db := Effect.refl db
  exact ⟨hrefl.closed, hrefl.inbox, hrefl.fresh,
    hrefl.queue, h, rfl, hrefl.firings⟩

/-- One of the patches by which nobody arrives. -/
theorem effect_updateMembers (p : CallbackBarrierMember → Bool)
    {f : Patch CallbackBarrierMember.id} (h : ∀ m, (f.apply m).state = .arrived →
      m.state = .arrived ∧ m.barrierId = (f.apply m).barrierId ∧
      m.memberKey = (f.apply m).memberKey) :
    Effect new db (db.withMembers (db.members.update p f)) := by
  refine effect_withMembers ?_
  intro k m' hm' harr
  rw [Table.get_update, Option.map_eq_some_iff] at hm'
  obtain ⟨m, hm, hchange⟩ := hm'
  refine ⟨m, hm, ?_⟩
  split at hchange
  · subst hchange
    exact h m harr
  · subst hchange
    exact ⟨harr, rfl, rfl⟩

/-- A statement on the barrier table that opens nothing again. -/
theorem effect_withBarriers {barriers : Table CallbackBarrier.id}
    (h : ∀ i b, db.barriers.get i = some b → b.state ≠ .open →
      ∃ b', barriers.get i = some b' ∧ b'.state ≠ .open) :
    Effect new db (db.withBarriers barriers) := by
  have hrefl : Effect new db db := Effect.refl db
  refine ⟨?_, fun _ row hrow => ⟨row, hrow, Settles.refl _ row⟩, hrefl.fresh, hrefl.queue,
    hrefl.members, rfl, hrefl.firings⟩
  intro i hi
  obtain ⟨b, hb, hstate⟩ := isClosed_eq_true_iff.mp hi
  exact isClosed_eq_true_iff.mpr (h i b hb hstate)

/-- A statement on the inbox that settles the rows it addresses. -/
theorem effect_updateInbox (p : InboxRow → Bool) (f : Patch InboxRow.id)
    (h : ∀ row, p row = true → Settles db.isClosed row (f.apply row)) :
    Effect new db (db.withInbox (db.inbox.update p f)) := by
  have hrefl : Effect new db db := Effect.refl db
  refine ⟨hrefl.closed, ?_, ?_, hrefl.queue, hrefl.members, rfl, hrefl.firings⟩
  · intro id row hrow
    refine ⟨_, by
      show (db.inbox.update p f).get id = _
      rw [Table.get_update, hrow, Option.map_some], ?_⟩
    split
    · next hp => exact h row hp
    · exact Settles.refl _ row
  · intro id row hrow hnone
    change (db.inbox.update p f).get id = some row at hrow
    rw [Table.get_update, hnone] at hrow
    cases hrow

/-- An ending of the row. -/
theorem settles_status {isClosed : Int → Bool} {status : MessageStatus}
    (digestedInto : Option Int) (hpending : status ≠ .pending) (hheld : status ≠ .held)
    (row : InboxRow) :
    Settles isClosed row { row with status := status, digestedInto := digestedInto } := by
  refine ⟨rfl, ?_, ?_⟩
  · intro hw
    simp [InboxRow.waits, hpending, hheld] at hw
  · intro hstatus
    exact absurd hstatus hpending

theorem effect_closeBarrier (db : Database) (i : Int) {state : BarrierState} (reason : String)
    (now : Int) (hstate : state ≠ .open) : Effect new db (db.closeBarrier i state reason now) := by
  refine effect_withBarriers ?_
  intro k b hb hclosed
  rw [Table.get_updateKey, hb, Option.map_some]
  refine ⟨_, rfl, ?_⟩
  split
  · exact hstate
  · exact hclosed

/-- An open barrier is closed by closing it. -/
theorem isClosed_closeBarrier {i : Int} {state : BarrierState} (reason : String) (now : Int)
    (hstate : state ≠ .open) (hsome : (db.barriers.get i).isSome) :
    (db.closeBarrier i state reason now).isClosed i = true := by
  obtain ⟨b, hb⟩ := Option.isSome_iff_exists.mp hsome
  refine isClosed_eq_true_iff.mpr ⟨_, by
    show (db.barriers.updateKey i _ _).get i = _
    rw [Table.get_updateKey, hb, Option.map_some], ?_⟩
  split
  · exact hstate
  · next hcond =>
    intro hopen
    exact hcond ⟨rfl, beq_iff_eq.mpr hopen⟩

theorem effect_failAwaiting (db : Database) (i : Int) (failureClass : String) :
    Effect new db (db.failAwaiting i failureClass) :=
  effect_updateMembers _ fun _ harr => by cases harr

/-- Held callbacks end. -/
theorem effect_endHeld (db : Database) (i : Int) {f : Patch InboxRow.id}
    (h : ∀ row, Settles db.isClosed row (f.apply row)) : Effect new db (db.releaseHeld i f) :=
  effect_updateInbox _ f fun row _ => h row

/-- Held callbacks of a closed barrier are released. -/
theorem effect_releaseHeld {i : Int} (hclosed : db.isClosed i = true) :
    Effect new db (db.releaseHeld i (statusPatch .pending)) := by
  refine effect_updateInbox _ _ ?_
  intro row hp
  rw [Bool.and_eq_true, beq_iff_eq, beq_iff_eq] at hp
  refine ⟨rfl, ?_, ?_⟩
  · intro _
    simp [InboxRow.waits, hp.2]
  · intro _
    refine .inr ?_
    intro b hb
    rw [hp.1] at hb
    cases hb
    exact hclosed

/-! ## Placing a row -/

theorem mem_of_findRecentDuplicate {s : Store} {senderId receiverId contentHash : String}
    {windowS now : Int} {parkWarm : Bool} {barrierId : Option Int} {r : QueueMessage}
    (h : findRecentDuplicate s senderId receiverId contentHash windowS now parkWarm barrierId =
      some r) : s.get r.msgId = some r := by
  unfold findRecentDuplicate at h
  split at h
  · cases h
  · have hmem := List.mem_of_mem_head? h
    rw [List.mem_insertionSort, Table.mem_select_iff] at hmem
    exact hmem.1

/-- A write-through that returns a row either found it or inserted it. -/
theorem writeThrough_spec (sha256 : String → String) (s : Store) (inboxMax : Option Int)
    (fact : LegacyEnqueue) (newUlid : Option String) (now : Int) :
    ((writeThrough sha256 s inboxMax fact newUlid now).1 = none ∧
      (writeThrough sha256 s inboxMax fact newUlid now).2 = s) ∨
    (∃ id m, (writeThrough sha256 s inboxMax fact newUlid now).1 = some (id, m) ∧
      (s.get m).isSome ∧ (writeThrough sha256 s inboxMax fact newUlid now).2 = s) ∨
    (∃ id m draft, (writeThrough sha256 s inboxMax fact newUlid now).1 = some (id, m) ∧
      factDraft (liveKey id) fact id = some draft ∧ s.get m = none ∧
      ∀ m', (writeThrough sha256 s inboxMax fact newUlid now).2.get m' =
        if m = m' then some (draftRow sha256 draft m now) else s.get m') := by
  unfold writeThrough
  cases newUlid with
  | none => exact .inl ⟨rfl, rfl⟩
  | some ulid =>
    simp only
    split
    · next id m hwindow =>
      refine .inr (.inl ⟨id, m, rfl, ?_, rfl⟩)
      unfold windowCheck at hwindow
      split at hwindow
      · cases hwindow
      · next duplicate hfound =>
        split at hwindow
        · cases hwindow
          rw [mem_of_findRecentDuplicate hfound]
          rfl
        · cases hwindow
    · generalize hn : nextSurrogateId s inboxMax = n
      obtain ⟨hfell, hstore⟩ | ⟨message, hfound, hkey, -, -, hstore⟩ |
          ⟨draft, hdraft, hnew, hfree, hget⟩ := enqueueFact_spec sha256 s fact n ulid now
      · generalize enqueueFact sha256 s fact n ulid now = result at hfell hstore
        obtain ⟨progress, s'⟩ := result
        cases hfell
        cases hstore
        exact .inl ⟨rfl, rfl⟩
      · generalize enqueueFact sha256 s fact n ulid now = result at hfound hstore
        obtain ⟨progress, s'⟩ := result
        cases hfound
        cases hstore
        refine .inr (.inl ⟨n, message.msgId, rfl, ?_, rfl⟩)
        rw [(getByIdempotencyKey_of_mem hkey).1]
        rfl
      · generalize enqueueFact sha256 s fact n ulid now = result at hnew hget
        obtain ⟨progress, s'⟩ := result
        cases hnew
        exact .inr (.inr ⟨n, ulid, draft, rfl, hdraft, hfree, hget⟩)

theorem get_insertRow (t : Table InboxRow.id) (row : InboxRow) (id : Int) :
    (insertRow t row).get id =
      if id = nextId t then some { row with id := nextId t } else t.get id :=
  Table.get_insert_nextKey t rfl id

/-- Where a row goes: to the inbox, to a row of the queue that was there, or to a new one. -/
inductive Placement (sha256 : String → String) (db : Database) (row : InboxRow) :
    Routed → Database → Prop
  | inbox : Placement sha256 db row ⟨nextId db.inbox, none⟩
      (db.withInbox (insertRow db.inbox row))
  | known {id : Int} {m : String} (hget : (db.queue.get m).isSome) :
      Placement sha256 db row ⟨id, some m⟩ db
  | queue {id : Int} {m : String} {draft : EnqueueDraft} {now : Int} {queue : Store}
      (hdraft : factDraft (liveKey id) (writeThroughFact row) id = some draft)
      (hfree : db.queue.get m = none)
      (hget : ∀ m', queue.get m' =
        if m = m' then some (draftRow sha256 draft m now) else db.queue.get m') :
      Placement sha256 db row ⟨id, some m⟩ { db with queue := queue }

theorem placement_placeRow (sha256 : String → String) (env : Env) (db : Database)
    (row : InboxRow) :
    Placement sha256 db row (placeRow sha256 env db row).1 (placeRow sha256 env db row).2 := by
  unfold placeRow
  have hspec := writeThrough_spec sha256 db.queue (maxId db.inbox) (writeThroughFact row)
    (env.newUlid row.senderId) env.now
  generalize writeThrough sha256 db.queue (maxId db.inbox) (writeThroughFact row)
    (env.newUlid row.senderId) env.now = result at hspec
  obtain ⟨placed, queue⟩ := result
  obtain ⟨hplaced, hqueue⟩ | ⟨id, m, hplaced, hsome, hqueue⟩ |
    ⟨id, m, draft, hplaced, hdraft, hfree, hget⟩ := hspec
  · cases hplaced
    cases hqueue
    exact .inbox
  · cases hplaced
    cases hqueue
    exact .known hsome
  · cases hplaced
    exact .queue hdraft hfree hget

/-- A new row brings its own key and barrier. -/
theorem Placement.effect {row : InboxRow} {routed : Routed}
    (h : Placement sha256 db row routed db') (hnew : new row.supersedeKey row.barrierId) :
    Effect new db db' := by
  have hrefl : Effect new db db := Effect.refl db
  cases h with
  | inbox =>
    refine ⟨hrefl.closed, ?_, ?_, hrefl.queue, hrefl.members, rfl, hrefl.firings⟩
    · intro id x hx
      refine ⟨x, ?_, Settles.refl _ x⟩
      show (insertRow db.inbox row).get id = some x
      rw [get_insertRow, if_neg]
      · exact hx
      · rintro rfl
        rw [show db.inbox.get (nextId db.inbox) = none from Table.get_nextKey db.inbox] at hx
        cases hx
    · intro id x hx hnone
      change (insertRow db.inbox row).get id = some x at hx
      rw [get_insertRow] at hx
      split at hx
      · cases hx
        exact hnew
      · rw [hnone] at hx
        cases hx
  | known hget => exact hrefl
  | @queue id m draft now queue hdraft hfree hget =>
    refine ⟨hrefl.closed, hrefl.inbox, hrefl.fresh, ⟨?_, ?_⟩,
      hrefl.members, rfl, hrefl.firings⟩
    · intro m' r hr
      show queue.get m' = some r
      rw [hget, if_neg]
      · exact hr
      · rintro rfl
        rw [hfree] at hr
        cases hr
    · intro m' r hr hnone
      change queue.get m' = some r at hr
      rw [hget] at hr
      split at hr
      · cases hr
        obtain ⟨-, -, -, -, -, -, hkey, hbarrier⟩ := factDraft_eq_some hdraft
        show new draft.supersedeKey draft.barrierId
        rw [hkey, hbarrier]
        exact hnew
      · rw [hnone] at hr
        cases hr

theorem effect_supersede (db : Database) (row : InboxRow) : Effect new db (supersede db row) :=
  effect_updateInbox _ _ fun x _ => settles_status x.digestedInto (by simp) (by simp) x

/-- A row that is inserted is stamped, and takes its predecessors' place. -/
theorem placement_insertUnbound {row : InboxRow} {routed : Routed}
    (h : insertUnbound sha256 env db row = .ok (routed, db')) :
    ∃ generation, Placement sha256
      (supersede db { row with enqueueGeneration := generation })
      { row with enqueueGeneration := generation } routed db' := by
  unfold insertUnbound at h
  split at h
  · cases h
  next row' hstamp =>
  have hplace : placeRow sha256 env (supersede db row') row' = (routed, db') := Except.ok.inj h
  have hspec := placement_placeRow sha256 env (supersede db row') row'
  rw [hplace] at hspec
  unfold stampEnqueueGeneration at hstamp
  split at hstamp
  · cases hstamp
  · cases hstamp
    exact ⟨_, hspec⟩

theorem effect_insertUnbound {row : InboxRow} {routed : Routed}
    (h : insertUnbound sha256 env db row = .ok (routed, db'))
    (hnew : new row.supersedeKey row.barrierId) : Effect new db db' := by
  obtain ⟨generation, hplacement⟩ := placement_insertUnbound h
  exact (effect_supersede db _).trans (hplacement.effect hnew)

theorem raise_of_insertUnbound {row : InboxRow} {raised : Raised}
    (h : insertUnbound sha256 env db row = .error raised) :
    ∃ error, raised = db.raise error := by
  unfold insertUnbound at h
  split at h
  · next error _ =>
    cases h
    exact ⟨error, rfl⟩
  · cases h

/-! ## Closing and firing -/

theorem renderedFrom_firing {barrier : CallbackBarrier} (now : Int)
    (hopen : db.isClosed barrier.id = false) (h : Effect new db db') :
    RenderedFrom db (db'.firing barrier now) := by
  refine ⟨hopen, ?_, ?_, h.callbacks⟩
  · intro m hm harr
    change m ∈ membersOf db' barrier.id at hm
    unfold membersOf at hm
    rw [List.mem_insertionSort, Table.mem_select_iff, beq_iff_eq] at hm
    obtain ⟨hget, hid⟩ := hm
    obtain ⟨m₀, hm₀, harr₀, hid₀, hkey₀⟩ := h.members m.id m hget harr
    exact ⟨m.id, m₀, hm₀, harr₀, hid₀.trans hid, hkey₀⟩
  · intro id row hrow
    obtain ⟨row', hrow', hsettles⟩ := h.inbox id row hrow
    refine ⟨row', hrow', ?_⟩
    rw [hsettles.same]
    exact ⟨rfl, rfl, rfl⟩

theorem Effect.record (h : Effect new db db') {firing : Firing} (hf : RenderedFrom db firing)
    (inQueue : Bool) : Effect new db (db'.record firing inQueue) := by
  have hfirings : ∀ f ∈ (db'.record firing inQueue).firings, f ∈ db.firings ∨ RenderedFrom db f := by
    intro f hf'
    have hor : f ∈ db'.firings ∨ f = firing := by
      unfold Database.record at hf'
      unfold Database.firings at hf' ⊢
      split at hf'
      · simp only [List.mem_append, List.mem_singleton] at hf' ⊢
        tauto
      · simp only [List.mem_append, List.mem_singleton] at hf' ⊢
        tauto
    obtain hold | rfl := hor
    · exact h.firings f hold
    · exact .inr hf
  cases inQueue with
  | _ =>
    exact ⟨h.closed, h.inbox, h.fresh, h.queue, h.members,
      h.callbacks, hfirings⟩

theorem effects_digestInto (db : Database) (i id : Int) : Effects new db (digestInto db i id) := by
  unfold digestInto
  split
  · exact Effects.raise db .integrity
  · have hrelease : Effect new db (db.releaseHeld i (digestPatch id)) :=
      effect_endHeld db i fun row => settles_status (some id) (by simp) (by simp) row
    refine hrelease.trans (effect_withBarriers ?_)
    intro k b hb hclosed
    change db.barriers.get k = some b at hb
    rw [Table.get_updateKey, hb, Option.map_some]
    refine ⟨_, rfl, ?_⟩
    split <;> exact hclosed

theorem effect_closeBarrierOwnerGone (db : Database) (barrier : CallbackBarrier) (now : Int) :
    Effect new db (closeBarrierOwnerGone db barrier now) := by
  unfold closeBarrierOwnerGone
  split
  · exact ((effect_closeBarrier db barrier.id "owner_gone" now (by simp)).trans
      (effect_endHeld _ barrier.id fun row =>
        settles_status row.digestedInto (by simp) (by simp) row)).trans
      (effect_failAwaiting _ barrier.id _)
  · exact Effect.refl db

theorem effects_fireOpenBarrier (hplain : new none none) {barrier : CallbackBarrier}
    {state : BarrierState} {closeReason : String} {now : Int} (hstate : state ≠ .open) :
    Effects new db ((fireOpenBarrier sha256 env db barrier state closeReason now).map Prod.snd) := by
  unfold fireOpenBarrier
  split
  · exact effect_closeBarrierOwnerGone db barrier now
  split
  · next owner _ hopen =>
    have hclose : Effect new db ((db.closeBarrier barrier.id state closeReason now).failAwaiting
        barrier.id ("barrier_closed_" ++ closeReason)) :=
      (effect_closeBarrier db barrier.id closeReason now hstate).trans
        (effect_failAwaiting _ barrier.id _)
    simp only
    generalize (db.closeBarrier barrier.id state closeReason now).failAwaiting barrier.id
      ("barrier_closed_" ++ closeReason) = db₁ at hclose
    split
    · next raised hinsert =>
      obtain ⟨error, rfl⟩ := raise_of_insertUnbound hinsert
      exact hclose.raise error
    · next routed db₂ hinsert =>
      have hrecord := (hclose.trans (effect_insertUnbound hinsert hplain)).record
        (renderedFrom_firing now (not_isClosed_of_isOpen hopen) hclose) routed.msgId.isSome
      have hdigest := (effects_digestInto (db₂.record (db₁.firing barrier now)
        routed.msgId.isSome) barrier.id routed.id).after hrecord
      cases hd : digestInto (db₂.record (db₁.firing barrier now) routed.msgId.isSome) barrier.id
          routed.id with
      | error raised =>
        rw [hd] at hdigest
        exact hdigest
      | ok db₃ =>
        rw [hd] at hdigest
        exact hdigest
  · exact Effect.refl db

theorem effects_maybeFire (hplain : new none none) (sha256 : String → String) (env : Env)
    (db : Database) (barrier : CallbackBarrier) :
    Effects new db ((maybeFireCompletedBarrier sha256 env db barrier).map Prod.snd) := by
  unfold maybeFireCompletedBarrier
  split
  · exact effects_fireOpenBarrier hplain (by simp)
  · exact Effect.refl db

theorem effect_of_maybeFire (hplain : new none none) {barrier : CallbackBarrier}
    {fired : Option Int}
    (h : maybeFireCompletedBarrier sha256 env db barrier = .ok (fired, db')) :
    Effect new db db' := by
  have hfire := effects_maybeFire hplain sha256 env db barrier
  rw [h] at hfire
  exact hfire

theorem effect_of_maybeFire_error (hplain : new none none) {barrier : CallbackBarrier}
    {raised : Raised} (h : maybeFireCompletedBarrier sha256 env db barrier = .error raised) :
    Effect new db (db.rollback raised) := by
  have hfire := effects_maybeFire hplain sha256 env db barrier
  rw [h] at hfire
  exact hfire

/-! ## The operations -/

theorem effects_markMembersGone (hplain : new none none)
    (rows : List (CallbackBarrier × CallbackBarrierMember)) (db : Database) :
    Effects new db (markMembersGone sha256 env rows db) := by
  induction rows generalizing db with
  | nil => exact Effect.refl db
  | cons p rest ih =>
    obtain ⟨barrier, member⟩ := p
    simp only [markMembersGone]
    have hgone : Effect new db (db.withMembers
        (db.members.updateKey member.id (fun _ => true) gonePatch)) :=
      effect_updateMembers _ fun _ harr => by cases harr
    have hfire := (effects_maybeFire hplain sha256 env (db.withMembers
      (db.members.updateKey member.id (fun _ => true) gonePatch)) barrier).after hgone
    split
    · next raised herror =>
      rw [herror] at hfire
      exact hfire
    · next fired db₂ hok =>
      rw [hok] at hfire
      exact (ih db₂).after hfire

theorem effects_fireDueBarrier (hplain : new none none) (sha256 : String → String) (env : Env)
    (now : Int) (db : Database) (barrier : CallbackBarrier) :
    Effects new db (fireDueBarrier sha256 env now db barrier) := by
  unfold fireDueBarrier
  have hfire := effects_maybeFire hplain sha256 env db barrier
  split
  · next raised herror =>
    rw [herror] at hfire
    exact hfire
  · next fired db₁ hok =>
    rw [hok] at hfire
    exact hfire
  · next db₁ hok =>
    rw [hok] at hfire
    split
    · exact (effects_fireOpenBarrier hplain (by simp)).after hfire
    · exact hfire

theorem effect_fireDueBarriers (hplain : new none none) (now : Int) (db : Database) :
    Effect new db (fireDueBarriers sha256 env now db) := by
  unfold fireDueBarriers
  generalize openBarriers db = due
  induction due generalizing db with
  | nil => exact Effect.refl db
  | cons barrier rest ih =>
    refine Effect.trans ?_ (ih (sweepBarrier sha256 env now db barrier))
    have hone := effects_fireDueBarrier hplain sha256 env now db barrier
    unfold sweepBarrier
    split
    · next raised herror =>
      rw [herror] at hone
      exact hone
    · next db₁ hok =>
      rw [hok] at hone
      exact hone

theorem effects_cancelCallbackBarrier (db : Database) (barrierId : Option Int)
    (barrierLabel ownerId : Option String) :
    Effects new db (cancelCallbackBarrier env db barrierId barrierLabel ownerId) := by
  unfold cancelCallbackBarrier
  split
  · exact Effects.raise db _
  next barrier hselect =>
  split
  · -- the statements on the two tables commute
    have hclose : Effect new db (db.closeBarrier barrier.id .cancelled "cancelled" env.now) :=
      effect_closeBarrier db barrier.id "cancelled" env.now (by simp)
    have hclosed : (db.closeBarrier barrier.id .cancelled "cancelled" env.now).isClosed
        barrier.id = true :=
      isClosed_closeBarrier "cancelled" env.now (by simp) (by
        rw [selectCallbackBarrier_spec hselect]
        rfl)
    exact (hclose.trans (effect_releaseHeld hclosed)).trans (effect_failAwaiting _ barrier.id _)
  · exact Effect.refl db

theorem effect_closeOwnedBarriers (env : Env) (db : Database) (terminalId : String) :
    Effect new db (closeOwnedBarriers env db terminalId) := by
  unfold closeOwnedBarriers
  generalize db.barriers.select _ = owned
  induction owned generalizing db with
  | nil => exact Effect.refl db
  | cons barrier rest ih => exact (effect_closeBarrierOwnerGone db barrier env.now).trans (ih _)

/-- Barriers are closed one after the other. -/
theorem effect_closeAll (bs : List CallbackBarrier) {state : BarrierState} (reason : String)
    (now : Int) (hstate : state ≠ .open) (db : Database) :
    Effect new db (bs.foldl (fun db b => db.closeBarrier b.id state reason now) db) := by
  induction bs generalizing db with
  | nil => exact Effect.refl db
  | cons b rest ih => exact (effect_closeBarrier db b.id reason now hstate).trans (ih _)

theorem effect_publish (env : Env) (db : Database) (mailboxId : String) (generation : Int)
    (addresses : List String) :
    Effect new db (publishSupervisorIncarnation env db mailboxId generation addresses) := by
  unfold publishSupervisorIncarnation
  exact (effect_closeAll _ "supervisor_rebind" env.now (by simp) db).trans
    (effect_updateInbox _ _ fun row _ => settles_status none (by simp) (by simp) row)

/-- An attachment touches neither store, and its new member has not arrived. -/
structure Attaches (db db' : Database) : Prop where
  inbox : db'.inbox = db.inbox
  queue : db'.queue = db.queue
  effect : ∀ new, Effect new db db'

theorem attaches_attachDispatchBarrier {senderId terminalId : String} {spec : DispatchBarrier}
    {profileName : Option String}
    (h : attachDispatchBarrier env db senderId terminalId spec profileName = .ok db') :
    Attaches db db' := by
  unfold attachDispatchBarrier at h
  split at h
  · cases h
  split at h
  · cases h
  generalize hensure : ensureBarrier env db _ _ _ _ = ensured at h
  obtain ⟨barrier, db₁⟩ := ensured
  simp only at h
  have hfirst : Attaches db db₁ := by
    unfold ensureBarrier at hensure
    split at hensure
    · cases hensure
      exact ⟨rfl, rfl, fun _ => Effect.refl db⟩
    · cases hensure
      refine ⟨rfl, rfl, fun _ => effect_withBarriers ?_⟩
      intro i b hb hstate
      refine ⟨b, ?_, hstate⟩
      rw [Table.get_insert_nextKey db.barriers rfl, if_neg]
      · exact hb
      · rintro rfl
        rw [Table.get_nextKey] at hb
        cases hb
  split at h
  · cases h
  split at h
  · cases h
  · cases h
    exact ⟨hfirst.inbox, hfirst.queue, fun new => (hfirst.effect new).trans
      (effect_updateMembers _ fun _ harr => by cases harr)⟩
  · unfold addMember at h
    simp only at h
    split at h
    · cases h
    · cases h
      refine ⟨hfirst.inbox, hfirst.queue, fun new => (hfirst.effect new).trans
        (effect_withMembers ?_)⟩
      intro k m hm harr
      rw [Table.get_insert_nextKey db₁.members rfl] at hm
      split at hm
      · cases hm
        cases harr
      · exact ⟨m, hm, harr, rfl, rfl⟩

theorem effects_insertUnbound {row : InboxRow} (hnew : new row.supersedeKey row.barrierId) :
    Effects new db ((insertUnbound sha256 env db row).map Prod.snd) := by
  cases hinsert : insertUnbound sha256 env db row with
  | error raised =>
    obtain ⟨error, rfl⟩ := raise_of_insertUnbound hinsert
    exact Effects.raise db error
  | ok result =>
    obtain ⟨routed, db'⟩ := result
    exact effect_insertUnbound hinsert hnew

theorem effects_insertFree (sha256 contentHash : String → String) (env : Env) (db : Database)
    {send : Send} (hnew : new send.supersedeKey none) :
    Effects new db ((insertFree sha256 contentHash env db send).map Prod.snd) := by
  unfold insertFree
  simp only
  split
  · exact Effect.refl db
  · exact effects_insertUnbound hnew

/-- How a send goes on once its own dispatch is attached. -/
theorem insertRoutedInboxRow_cases (sha256 contentHash : String → String) (env : Env)
    (db : Database) (send : Send) :
    (∃ error, insertRoutedInboxRow sha256 contentHash env db send = .error (db.raise error)) ∨
    ∃ db₁, Attaches db db₁ ∧ (send.dispatchBarrier = none → db₁ = db) ∧
      ((∃ barrier member, openMatch env db₁ send = some (barrier, member) ∧
        insertRoutedInboxRow sha256 contentHash env db send =
          insertBound sha256 env db₁ send barrier member) ∨
      (openMatch env db₁ send = none ∧ insertRoutedInboxRow sha256 contentHash env db send =
        insertFree sha256 contentHash env db₁ send)) := by
  unfold insertRoutedInboxRow
  have hgo : ∀ db₁ result,
      (∀ barrier member, openMatch env db₁ send = some (barrier, member) →
        result = insertBound sha256 env db₁ send barrier member) →
      (openMatch env db₁ send = none → result = insertFree sha256 contentHash env db₁ send) →
      (∃ barrier member, openMatch env db₁ send = some (barrier, member) ∧
        result = insertBound sha256 env db₁ send barrier member) ∨
      (openMatch env db₁ send = none ∧
        result = insertFree sha256 contentHash env db₁ send) := by
    intro db₁ result hbound hfree
    cases hmatch : openMatch env db₁ send with
    | none => exact .inr ⟨rfl, hfree hmatch⟩
    | some pair => exact .inl ⟨pair.1, pair.2, rfl, hbound pair.1 pair.2 hmatch⟩
  cases hspec : send.dispatchBarrier with
  | none =>
    refine .inr ⟨db, ⟨rfl, rfl, fun _ => Effect.refl db⟩, fun _ => rfl, hgo db _ ?_ ?_⟩
    · intro barrier member hmatch
      simp only [hmatch]
    · intro hmatch
      simp only [hmatch]
  | some spec =>
    simp only
    cases hattach : attachDispatchBarrier env db send.senderId send.receiverId spec
        send.profileName with
    | error e => exact .inl ⟨e, rfl⟩
    | ok db₁ =>
      refine .inr ⟨db₁, attaches_attachDispatchBarrier hattach, ?_, hgo db₁ _ ?_ ?_⟩
      · intro hnone
        cases hnone
      · intro barrier member hmatch
        simp only [hmatch]
      · intro hmatch
        simp only [hmatch]

theorem isBarrierInternal_append {p : String} (hp : p ∈ barrierInternalPrefixes) (rest : String) :
    isBarrierInternal (p ++ rest) = true := by
  unfold isBarrierInternal
  rw [List.any_eq_true]
  refine ⟨p, hp, ?_⟩
  rw [String.toList_append, List.isPrefixOf_iff_prefix]
  exact List.prefix_append _ _

/-- An escalation is one of the effects. -/
theorem effects_insertBarrierEscalationMessage (hplain : new none none) (db : Database)
    (terminalId callerId message : String) (idleReason : Option String) :
    Effects new db (insertBarrierEscalationMessage sha256 contentHash env db terminalId callerId
      message idleReason) := by
  unfold insertBarrierEscalationMessage
  split
  · exact Effects.raise db _
  next receiverId logicalReceiverId _ =>
  split
  · exact Effect.refl db
  next barrier member _ =>
  split
  · exact Effect.refl db
  have hpatch : Effect new db (db.withMembers (db.members.updateKey member.id (fun _ => true)
      (escalatePatch idleReason))) := by
    refine effect_updateMembers _ ?_
    intro m harr
    by_cases hquota : idleReason = some "quota_or_auth"
    · simp [escalatePatch, hquota] at harr
    · refine ⟨?_, rfl, rfl⟩
      simpa [escalatePatch, hquota] using harr
  simp only
  generalize db.withMembers (db.members.updateKey member.id (fun _ => true)
    (escalatePatch idleReason)) = db₁ at hpatch
  obtain ⟨send, hsend, hkey, hdispatch, hinternal⟩ : ∃ send, escalationSend barrier member
      terminalId receiverId logicalReceiverId message idleReason = send ∧
      send.supersedeKey = none ∧ send.dispatchBarrier = none ∧
      isBarrierInternal send.senderId = true := by
    refine ⟨_, rfl, ?_⟩
    unfold escalationSend
    by_cases hquota : idleReason = some "quota_or_auth"
    · rw [if_pos hquota]
      exact ⟨rfl, rfl, isBarrierInternal_append (by simp [barrierInternalPrefixes]) _⟩
    · rw [if_neg hquota]
      exact ⟨rfl, rfl, isBarrierInternal_append (by simp [barrierInternalPrefixes]) _⟩
  rw [hsend]
  -- the notice is nobody's callback
  have hmatch : ∀ db₂, openMatch env db₂ send = none := by
    intro db₂
    unfold openMatch
    rw [hinternal]
    simp
  have hnew : new send.supersedeKey none := by
    rw [hkey]
    exact hplain
  have hfree := effects_insertFree sha256 contentHash env db₁ hnew
  obtain ⟨error, herror⟩ | ⟨db₂, -, hsame, ⟨b, m, hsome, -⟩ | ⟨-, hinsert⟩⟩ :=
    insertRoutedInboxRow_cases sha256 contentHash env db₁ send
  · rw [herror]
    exact hpatch.raise error
  · rw [hmatch] at hsome
    cases hsome
  · rw [hsame hdispatch] at hinsert
    rw [hinsert]
    cases hresult : insertFree sha256 contentHash env db₁ send with
    | error raised =>
      rw [hresult] at hfree
      exact hpatch.rollback hfree
    | ok result =>
      rw [hresult] at hfree
      exact hpatch.trans hfree

end CliAgentOrchestrator.Inbox
