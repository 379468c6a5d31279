import CliAgentOrchestrator.Inbox.Effect
import CliAgentOrchestrator.Queue.Finality

/-!
# Supersession

A send with a key takes the place of every undelivered message of its receiver and key. The
UPDATE that does so writes the inbox; what has gone to the queue, written through or adopted, it
does not reach. A `Ledger` keeps the newest message of every pair beside the tables.
-/

set_option autoImplicit false

namespace CliAgentOrchestrator.Inbox

open CliAgentOrchestrator.Core Library Queue Wiring

/-! ## Messages and the rows that carry them -/

/-- A message, by the place it was inserted at. -/
inductive Place
  | inbox (id : Int)
  | queue (msgId : String)

/-- The message of a queue row: the inbox row it was adopted from, or its own. -/
def queuePlace (r : QueueMessage) : Place :=
  match r.legacyMessageId with
  | some id => if r.idempotencyKey = adoptedKey id then .inbox id else .queue r.msgId
  | none => .queue r.msgId

/-- The rows of a receiver and key that are still to be delivered, each with its message. -/
inductive Carries (db : Database) (receiver key : String) : Place → Place → Prop
  | inbox {id : Int} {row : InboxRow} (hget : db.inbox.get id = some row)
      (hwaits : row.waits = true) (hreceiver : row.effectiveReceiver = receiver)
      (hkey : row.supersedeKey = some key) : Carries db receiver key (.inbox id) (.inbox id)
  | queue {m : String} {r : QueueMessage} (hget : db.queue.get m = some r)
      (hlive : r.terminal = false) (hreceiver : r.receiverId = receiver)
      (hkey : r.supersedeKey = some key) : Carries db receiver key (.queue m) (queuePlace r)

/-- At most one message of each receiver and key is undelivered, the newest one, and at most one
row of the queue carries it. -/
structure OneUndelivered (newest : String → String → Option Place) (db : Database) : Prop where
  newest : ∀ receiver key row message, Carries db receiver key row message →
    newest receiver key = some message
  once : ∀ receiver key m m' message, Carries db receiver key (.queue m) message →
    Carries db receiver key (.queue m') message → m = m'

/-- Where a routed row was inserted, if it is a new one. -/
def placed (db : Database) (routed : Routed) : Option Place :=
  match routed.msgId with
  | some m => if (db.queue.get m).isNone then some (.queue m) else none
  | none => if (db.inbox.get routed.id).isNone then some (.inbox routed.id) else none

/-- The message a send inserts, if it does and commits. -/
def inserted (sha256 contentHash : String → String) (env : Env) (db : Database) (send : Send) :
    Option Place :=
  match insertRoutedInboxRow sha256 contentHash env db send with
  | .error _ => none
  | .ok (routed, db') => if bindingsUnique db'.members then placed db routed else none

/-- The tables, and the newest message of every receiver and key. -/
structure Ledger where
  office : Office
  newest : String → String → Option Place

def Ledger.start : Ledger := ⟨Office.start, fun _ _ => none⟩

/-- Does the event insert this message of this receiver and key? -/
def insertedFor (sha256 contentHash : String → String) (db : Database) (event : Event)
    (receiver key : String) : Option Place :=
  match event with
  | .send env send =>
    if (sendRow env send).effectiveReceiver = receiver ∧ send.supersedeKey = some key then
      inserted sha256 contentHash env db send
    else none
  | _ => none

def Ledger.step (sha256 contentHash : String → String) (l : Ledger) (event : Event) : Ledger where
  office := Inbox.step sha256 contentHash l.office event
  newest receiver key :=
    (insertedFor sha256 contentHash l.office.db event receiver key).or (l.newest receiver key)

/-- Nothing undelivered of the receiver and key is out of the UPDATE's reach. -/
structure Clear (db : Database) (row : InboxRow) (key : String) : Prop where
  queue : ∀ m r, db.queue.get m = some r → r.terminal = false →
    r.receiverId = row.effectiveReceiver → r.supersedeKey ≠ some key
  inbox : ∀ id x, db.inbox.get id = some x → x.waits = true →
    x.effectiveReceiver = row.effectiveReceiver → x.supersedeKey = some key →
    sameReceiver row x = true

/-- No undelivered row appears. -/
def Quiet (db db' : Database) : Prop :=
  ∀ receiver key row message, Carries db' receiver key row message →
    Carries db receiver key row message

/-- A keyed send that inserts finds nothing out of its reach, one that is rolled back leaves
nothing behind, and what is adopted is still the newest of its key. -/
def Reaches (sha256 contentHash : String → String) (l : Ledger) : Event → Prop
  | .send env send => ∀ key, send.supersedeKey = some key →
    (∀ raised, checked ((insertRoutedInboxRow sha256 contentHash env l.office.db send).map
      Prod.snd) = .error raised → Quiet l.office.db (l.office.db.rollback raised)) ∧
    ((inserted sha256 contentHash env l.office.db send).isSome →
      Clear l.office.db (sendRow env send) key)
  | .adopt id _ _ => ∀ row key, l.office.db.inbox.get id = some row → row.supersedeKey = some key →
    id ∈ l.office.scanned → l.office.db.queue.getByIdempotencyKey (adoptedKey id) = none →
    l.newest row.effectiveReceiver key = some (.inbox id)
  | _ => True

/-- Does the event write a receiver column? A reaped terminal's held messages and re-parented
rows go to somebody else. -/
def readdresses : Event → Bool
  | .reap _ _ _ => true
  | .queue (.reparent _ _ _ _) => true
  | _ => false

variable {db db' db'' : Database} {sha256 contentHash : String → String} {env : Env}
  {receiver key : String} {at_ message : Place}

/-! ## What keeps the rows -/

theorem Quiet.refl (db : Database) : Quiet db db := fun _ _ _ _ h => h

theorem Quiet.trans (h : Quiet db db') (h' : Quiet db' db'') : Quiet db db'' :=
  fun receiver key row message hc => h receiver key row message (h' receiver key row message hc)

/-- Nothing but the two stores counts. -/
theorem Carries.congr (h : Carries db receiver key at_ message) (hinbox : db'.inbox = db.inbox)
    (hqueue : db'.queue = db.queue) : Carries db' receiver key at_ message := by
  cases h with
  | inbox hget hwaits hreceiver hkey => exact .inbox (hinbox ▸ hget) hwaits hreceiver hkey
  | queue hget hlive hreceiver hkey => exact .queue (hqueue ▸ hget) hlive hreceiver hkey

theorem quiet_of_eq (hinbox : db'.inbox = db.inbox) (hqueue : db'.queue = db.queue) :
    Quiet db db' :=
  fun _ _ _ _ hc => hc.congr hinbox.symm hqueue.symm

theorem Quiet.congr (h : Quiet db' db'') (hinbox : db'.inbox = db.inbox)
    (hqueue : db'.queue = db.queue) : Quiet db db'' :=
  (quiet_of_eq hinbox hqueue).trans h

/-- An effect that brings no key brings no undelivered row. -/
theorem Effect.quiet (h : Effect (fun key _ => key = none) db db') : Quiet db db' := by
  intro receiver key at_ message hc
  cases hc with
  | @inbox id row' hget hwaits hreceiver hkey =>
    cases hold : db.inbox.get id with
    | none =>
      have hnone := h.fresh id row' hget hold
      rw [hkey] at hnone
      cases hnone
    | some row =>
      obtain ⟨row'', hrow'', hsettles⟩ := h.inbox id row hold
      rw [hget] at hrow''
      cases hrow''
      have hwaits₀ := hsettles.waits hwaits
      rw [hsettles.same] at hreceiver hkey
      exact .inbox hold hwaits₀ hreceiver hkey
  | @queue m r hget hlive hreceiver hkey =>
    cases hold : db.queue.get m with
    | none =>
      have hnone := h.queue.fresh m r hget hold
      rw [hkey] at hnone
      cases hnone
    | some r₀ =>
      have hkept := h.queue.kept m r₀ hold
      rw [hget] at hkept
      cases hkept
      exact .queue hold hlive hreceiver hkey

/-- What a rollback leaves of a row is what the queue has. -/
theorem Carries.of_rollback {raised : Raised}
    (h : Carries (db.rollback raised) receiver key at_ message) (db' : Database)
    (hqueue : db'.queue = raised.queue) :
    Carries db receiver key at_ message ∨ Carries db' receiver key at_ message := by
  cases h with
  | inbox hget hwaits hreceiver hkey => exact .inl (.inbox hget hwaits hreceiver hkey)
  | queue hget hlive hreceiver hkey =>
    exact .inr (.queue (by rw [hqueue]; exact hget) hlive hreceiver hkey)

theorem liveKey_ne_adoptedKey (n id : Int) : liveKey n ≠ adoptedKey id := by
  intro h
  have hlist := congrArg String.toList h
  unfold liveKey adoptedKey at hlist
  rw [String.toList_append, String.toList_append] at hlist
  have hhead := congrArg List.head? hlist
  simp at hhead

/-- A queue row whose message is its own has that id. -/
theorem Carries.own {m m' : String} (h : Carries db receiver key (.queue m) (.queue m')) :
    m = m' := by
  generalize hrow : Place.queue m = row at h
  generalize hmessage : Place.queue m' = message at h
  cases h with
  | inbox _ _ _ _ => cases hrow
  | @queue n r hget _ _ _ =>
    cases hrow
    have hid : r.msgId = m := Table.key_of_get hget
    unfold queuePlace at hmessage
    split at hmessage
    · split at hmessage
      · cases hmessage
      · cases hmessage
        exact hid.symm
    · cases hmessage
      exact hid.symm

/-- A queue row that carries an inbox row holds its key. -/
theorem Carries.adopted {m : String} {id : Int}
    (h : Carries db receiver key (.queue m) (.inbox id)) :
    db.queue.getByIdempotencyKey (adoptedKey id) ≠ none := by
  generalize hrow : Place.queue m = row at h
  generalize hmessage : Place.inbox id = message at h
  cases h with
  | inbox _ _ _ _ => cases hrow
  | @queue n r hget _ _ _ =>
    unfold queuePlace at hmessage
    split at hmessage
    · split at hmessage
      · next hkey =>
        cases hmessage
        intro hnone
        have hmem := (db.queue.deliveryMsg.get_eq_some_iff n r).mp hget
        exact absurd (decide_eq_true hkey) (List.find?_eq_none.mp hnone r hmem.1)
      · cases hmessage
    · cases hmessage

/-! ## Sends -/

/-- A placed row is the one row more. -/
theorem Placement.carries {row : InboxRow} {routed : Routed}
    (h : Placement sha256 db row routed db') (hc : Carries db' receiver key at_ message) :
    Carries db receiver key at_ message ∨
      (receiver = row.effectiveReceiver ∧ row.supersedeKey = some key ∧ message = at_ ∧
        placed db routed = some at_) := by
  cases h with
  | known _ => exact .inl hc
  | inbox =>
    cases hc with
    | queue hget hlive hreceiver hkey => exact .inl (.queue hget hlive hreceiver hkey)
    | @inbox id x hget hwaits hreceiver hkey =>
      change (insertRow db.inbox row).get id = some x at hget
      rw [get_insertRow] at hget
      split at hget
      · next hid =>
        cases hget
        refine .inr ⟨hreceiver.symm, hkey, rfl, ?_⟩
        have hfree : db.inbox.get (nextId db.inbox) = none := Table.get_nextKey db.inbox
        unfold placed
        simp [hfree, hid]
      · exact .inl (.inbox hget hwaits hreceiver hkey)
  | @queue id m draft now queue hdraft hfree hget' =>
    cases hc with
    | inbox hget hwaits hreceiver hkey => exact .inl (.inbox hget hwaits hreceiver hkey)
    | @queue m' r hget hlive hreceiver hkey =>
      change queue.get m' = some r at hget
      rw [hget'] at hget
      split at hget
      · next hm =>
        subst hm
        cases hget
        obtain ⟨hidem, hrecv, -, -, hlegacy, -, hskey, -⟩ := factDraft_eq_some hdraft
        refine .inr ⟨?_, ?_, ?_, ?_⟩
        · rw [← hreceiver]
          exact hrecv
        · rw [← hkey]
          exact hskey.symm
        · show queuePlace (draftRow sha256 draft m now) = .queue m
          have hlegacy' : (draftRow sha256 draft m now).legacyMessageId = some id := hlegacy
          have hne : (draftRow sha256 draft m now).idempotencyKey ≠ adoptedKey id := by
            rw [show (draftRow sha256 draft m now).idempotencyKey = liveKey id from hidem]
            exact liveKey_ne_adoptedKey id id
          unfold queuePlace
          rw [hlegacy']
          simp only
          rw [if_neg hne]
          rfl
        · unfold placed
          simp [hfree]
      · exact .inl (.queue hget hlive hreceiver hkey)

theorem quiet_supersede (db : Database) (row : InboxRow) : Quiet db (supersede db row) :=
  (effect_supersede db row).quiet

/-- What the UPDATE reaches is superseded. -/
theorem not_carries_supersede {row : InboxRow} (hclear : Clear db row key)
    (hkey : row.supersedeKey = some key) :
    ¬ Carries (supersede db row) row.effectiveReceiver key at_ message := by
  intro hc
  cases hc with
  | queue hget hlive hreceiver hkey' => exact hclear.queue _ _ hget hlive hreceiver hkey'
  | @inbox id x hget hwaits hreceiver hkey' =>
    change (db.inbox.update (supersededBy row) (statusPatch .superseded)).get id = some x at hget
    rw [Table.get_update, Option.map_eq_some_iff] at hget
    obtain ⟨x₀, hold, hchange⟩ := hget
    split at hchange
    · subst hchange
      cases hwaits
    · next hreach =>
      subst hchange
      refine hreach ?_
      unfold supersededBy
      rw [hclear.inbox id x₀ hold hwaits hreceiver hkey', hkey, hkey']
      unfold InboxRow.waits at hwaits
      simp [hwaits]

theorem placed_supersede (db : Database) (row : InboxRow) (routed : Routed) :
    placed (supersede db row) routed = placed db routed := by
  have hinbox : ((supersede db row).inbox.get routed.id).isNone =
      (db.inbox.get routed.id).isNone := by
    show ((db.inbox.update _ _).get routed.id).isNone = _
    rw [Table.get_update, Option.isNone_map]
  unfold placed
  rw [hinbox]
  rfl

/-- The key and the receiver of a send are those of its row. -/
structure RowOf (env : Env) (send : Send) (row : InboxRow) : Prop where
  receiver : row.effectiveReceiver = (sendRow env send).effectiveReceiver
  key : row.supersedeKey = send.supersedeKey
  clear : ∀ db key, Clear db (sendRow env send) key → Clear db row key

theorem rowOf {send : Send} {row : InboxRow} (hreceiver : row.receiverId = send.receiverId)
    (hlogical : row.logicalReceiverId = send.logicalReceiverId)
    (hkey : row.supersedeKey = send.supersedeKey) : RowOf env send row := by
  have heffective : row.effectiveReceiver = (sendRow env send).effectiveReceiver := by
    unfold InboxRow.effectiveReceiver
    rw [hlogical, hreceiver]
    rfl
  refine ⟨heffective, hkey, ?_⟩
  intro db key hclear
  refine ⟨?_, ?_⟩
  · rw [heffective]
    exact hclear.queue
  · rw [heffective]
    intro id x hget hwaits hrecv hskey
    have hsame := hclear.inbox id x hget hwaits hrecv hskey
    unfold sameReceiver at hsame ⊢
    rw [hlogical, hreceiver]
    exact hsame

/-- What an insert adds to what its supersession leaves. -/
def Adds (db : Database) (row : InboxRow) (new : Option Place) (db' : Database) : Prop :=
  ∀ receiver key at_ message, Carries db' receiver key at_ message →
    Carries (supersede db row) receiver key at_ message ∨
      (receiver = row.effectiveReceiver ∧ row.supersedeKey = some key ∧ message = at_ ∧
        new = some at_)

theorem adds_insertUnbound {row : InboxRow} {routed : Routed}
    (h : insertUnbound sha256 env db row = .ok (routed, db')) :
    Adds db row (placed db routed) db' := by
  obtain ⟨generation, hplacement⟩ := placement_insertUnbound h
  intro receiver key at_ message hc
  rw [← placed_supersede db row]
  exact hplacement.carries hc

theorem Adds.quiet {row : InboxRow} {new : Option Place} (h : Adds db row new db')
    (hquiet : Quiet db' db'') : Adds db row new db'' :=
  fun receiver key at_ message hc => h receiver key at_ message (hquiet receiver key at_ message hc)

/-- The attachment before it does not count. -/
theorem Adds.attached {db₁ : Database} {row : InboxRow} {routed : Routed}
    (h : Adds db₁ row (placed db₁ routed) db') (hattach : Attaches db db₁) :
    Adds db row (placed db routed) db' := by
  have hplaced : placed db routed = placed db₁ routed := by
    unfold placed
    rw [hattach.inbox, hattach.queue]
  intro receiver key at_ message hc
  rw [hplaced]
  obtain hold | hnew := h receiver key at_ message hc
  · refine .inl (hold.congr ?_ ?_)
    · show db.inbox.update _ _ = db₁.inbox.update _ _
      rw [hattach.inbox]
    · show db.queue = db₁.queue
      rw [hattach.queue]
  · exact .inr hnew

theorem adds_insertBound {send : Send} {barrier : CallbackBarrier}
    {member : CallbackBarrierMember} {routed : Routed}
    (h : insertBound sha256 env db send barrier member = .ok (routed, db')) :
    Adds db (boundRow env send barrier member) (placed db routed) db' := by
  unfold insertBound at h
  split at h
  · cases h
  next routed' db₁ hinsert =>
  simp only at h
  split at h
  · cases h
  next fired db₂ hfire =>
  cases h
  have hmaybe := (effect_of_maybeFire rfl hfire).quiet
  exact (adds_insertUnbound hinsert).quiet (hmaybe.congr rfl rfl)

/-- A send that returns either found a duplicate or inserted its row. -/
theorem adds_insertRoutedInboxRow {send : Send} {routed : Routed}
    (h : insertRoutedInboxRow sha256 contentHash env db send = .ok (routed, db')) :
    (Quiet db db' ∧ placed db routed = none) ∨
      ∃ row, RowOf env send row ∧ Adds db row (placed db routed) db' := by
  obtain ⟨error, herror⟩ | ⟨db₁, hattach, -, ⟨barrier, member, -, hbound⟩ | ⟨-, hfree⟩⟩ :=
    insertRoutedInboxRow_cases sha256 contentHash env db send
  · rw [herror] at h
    cases h
  · rw [hbound] at h
    exact .inr ⟨boundRow env send barrier member, rowOf rfl rfl rfl,
      (adds_insertBound h).attached hattach⟩
  · rw [hfree] at h
    unfold insertFree at h
    simp only at h
    split at h
    · next row hduplicate =>
      cases h
      refine .inl ⟨quiet_of_eq hattach.inbox hattach.queue, ?_⟩
      obtain ⟨hash, -, hfound⟩ := Option.bind_eq_some_iff.mp hduplicate
      have hmem := List.mem_of_find?_eq_some hfound
      rw [hattach.inbox, Table.mem_rows_iff] at hmem
      unfold placed
      simp [hmem]
    · exact .inr ⟨freeRow env db₁ send (dedupHash contentHash env send), rowOf rfl rfl rfl,
        (adds_insertUnbound h).attached hattach⟩

/-- A send that raises may have left its own row in the queue, and no other. -/
theorem carries_of_raised {send : Send} {raised : Raised}
    (h : insertRoutedInboxRow sha256 contentHash env db send = .error raised)
    (hc : Carries (db.rollback raised) receiver key at_ message) :
    Carries db receiver key at_ message ∨ send.supersedeKey = some key := by
  obtain ⟨error, herror⟩ | ⟨db₁, hattach, -, ⟨barrier, member, -, hbound⟩ | ⟨-, hfree⟩⟩ :=
    insertRoutedInboxRow_cases sha256 contentHash env db send
  · rw [herror] at h
    cases h
    exact .inl (hc.congr rfl rfl)
  · rw [hbound] at h
    unfold insertBound at h
    split at h
    · next hinsert =>
      cases h
      obtain ⟨error, rfl⟩ := raise_of_insertUnbound hinsert
      exact .inl (hc.congr rfl hattach.queue.symm)
    next routed db₂ hinsert =>
    simp only at h
    split at h
    · next hfire =>
      cases h
      have hmaybe := (effect_of_maybeFire_error rfl hfire).quiet
      obtain hold | hqueue := hc.of_rollback (((db₂.bind barrier.id
        member.memberKey send.message).withMembers (db₂.members.updateKey member.id
          (fun m => m.state == .awaiting) (arrivePatch routed.id env.now))).rollback raised) rfl
      · exact .inl hold
      · obtain hadded | ⟨-, hkey, -⟩ := ((adds_insertUnbound hinsert).quiet
          (hmaybe.congr rfl rfl)).attached hattach _ _ _ _ hqueue
        · exact .inl (quiet_supersede db _ _ _ _ _ hadded)
        · exact .inr hkey
    · cases h
  · rw [hfree] at h
    unfold insertFree at h
    simp only at h
    split at h
    · cases h
    · obtain ⟨error, rfl⟩ := raise_of_insertUnbound h
      exact .inl (hc.congr rfl hattach.queue.symm)

/-- An unkeyed send brings no undelivered row of any key. -/
theorem quiet_send {send : Send} (hnone : send.supersedeKey = none) :
    Quiet db (transact db ((insertRoutedInboxRow sha256 contentHash env db send).map Prod.snd)) := by
  have hok : ∀ {routed db'}, insertRoutedInboxRow sha256 contentHash env db send =
      .ok (routed, db') → Quiet db db' := by
    intro routed db' h receiver key at_ message hc
    obtain ⟨hquiet, -⟩ | ⟨row, hrow, hadds⟩ := adds_insertRoutedInboxRow h
    · exact hquiet receiver key at_ message hc
    · obtain hold | ⟨-, hkey, -⟩ := hadds receiver key at_ message hc
      · exact quiet_supersede db row _ _ _ _ hold
      · rw [hrow.key, hnone] at hkey
        cases hkey
  cases hinsert : insertRoutedInboxRow sha256 contentHash env db send with
  | error raised =>
    intro receiver key at_ message hc
    obtain hold | hkey := carries_of_raised hinsert hc
    · exact hold
    · rw [hnone] at hkey
      cases hkey
  | ok result =>
    obtain ⟨routed, db'⟩ := result
    show Quiet db (transact db (.ok db'))
    unfold transact checked
    simp only
    split
    · next raised hraised =>
      split at hraised
      · cases hraised
      · cases hraised
        intro receiver key at_ message hc
        obtain hold | hqueue := hc.of_rollback db' rfl
        · exact hold
        · exact hok hinsert _ _ _ _ hqueue
    · next db'' hdone =>
      split at hdone
      · cases hdone
        exact hok hinsert
      · cases hdone

/-! ## The other events -/

/-- An operation of the queue that enqueues nothing and re-addresses nothing. -/
theorem quiet_exec {op : Op} (hminted : op.minted = none)
    (hop : ∀ msgId newReceiverId now messagePrefix,
      op ≠ .reparent msgId newReceiverId now messagePrefix) :
    Quiet db { db with queue := exec sha256 db.queue op } := by
  intro receiver key at_ message hc
  cases hc with
  | inbox hget hwaits hreceiver hkey => exact .inbox hget hwaits hreceiver hkey
  | @queue m r hget hlive hreceiver hkey =>
    change (exec sha256 db.queue op).get m = some r at hget
    cases hold : db.queue.get m with
    | none =>
      obtain ⟨draft, now, rfl, -⟩ := inserted_of_exec hold hget
      cases hminted
    | some r₀ =>
      obtain ⟨l, hstep, -⟩ := rowStep_of_exec hold hget
      have hfixed := hstep.fixedColumns
      have hskey : r.supersedeKey = r₀.supersedeKey := congrArg FixedColumns.supersedeKey hfixed
      have hplace : queuePlace r = queuePlace r₀ := by
        have hid : r.msgId = r₀.msgId := congrArg FixedColumns.msgId hfixed
        have hidem : r.idempotencyKey = r₀.idempotencyKey :=
          congrArg FixedColumns.idempotencyKey hfixed
        have hlegacy : r.legacyMessageId = r₀.legacyMessageId :=
          congrArg FixedColumns.legacyMessageId hfixed
        unfold queuePlace
        rw [hid, hidem, hlegacy]
      rw [hplace]
      exact .queue hold (hstep.live_before hlive) ((hstep.receiverId hop).symm.trans hreceiver)
        (hskey.symm.trans hkey)

/-- An enqueue adds its draft's row at most. -/
theorem carries_enqueue {draft : EnqueueDraft} {newUlid : String} {now : Int}
    (hc : Carries { db with queue := exec sha256 db.queue (.enqueue draft newUlid now) } receiver
      key at_ message) :
    Carries db receiver key at_ message ∨
      (receiver = draft.receiverId ∧ draft.supersedeKey = some key ∧ at_ = .queue newUlid ∧
        message = queuePlace (draftRow sha256 draft newUlid now) ∧
        db.queue.getByIdempotencyKey draft.idempotencyKey = none) := by
  cases hc with
  | inbox hget hwaits hreceiver hkey => exact .inl (.inbox hget hwaits hreceiver hkey)
  | @queue m r hget hlive hreceiver hkey =>
    change (exec sha256 db.queue (.enqueue draft newUlid now)).get m = some r at hget
    cases hold : db.queue.get m with
    | none =>
      obtain ⟨draft', now', hop, rfl, -⟩ := inserted_of_exec hold hget
      cases hop
      exact .inr ⟨hreceiver.symm, hkey, rfl, rfl, keyFree_of_inserted hold hget⟩
    | some r₀ =>
      obtain ⟨l, hstep, -⟩ := rowStep_of_exec hold hget
      cases hstep with
      | kept _ => exact .inl (.queue hold hlive hreceiver hkey)
      | ended hcall => cases hcall

theorem quiet_retireRow (db : Database) (id : Int) :
    Quiet db (db.withInbox (retireRow db.inbox id)) :=
  (effect_updateInbox _ _ fun row _ =>
    settles_status row.digestedInto (by simp) (by simp) row).quiet

/-- The events that are no send, no adoption, no reaping and no re-parenting. -/
theorem quiet_apply (scanned : List Int) {event : Event}
    (hsend : ∀ env send, event ≠ .send env send) (hadopt : ∀ id newUlid now,
      event ≠ .adopt id newUlid now) (hscope : readdresses event = false) :
    Quiet db (apply sha256 contentHash scanned db event) := by
  have htransact : ∀ {result}, Effects (fun key _ => key = none) db result →
      Quiet db (transact db result) := fun h => (effect_transact h).quiet
  cases event with
  | send env send => exact absurd rfl (hsend env send)
  | adopt id newUlid now => exact absurd rfl (hadopt id newUlid now)
  | reap env terminalId target => cases hscope
  | attach env senderId terminalId spec profileName =>
    refine htransact ?_
    cases hattach : attachDispatchBarrier env db senderId terminalId spec profileName with
    | error e => exact Effects.raise db e
    | ok db' => exact (attaches_attachDispatchBarrier hattach).effect _
  | memberGone env terminalId => exact htransact (effects_markMembersGone rfl _ db)
  | escalate env terminalId callerId message idleReason =>
    exact htransact (effects_insertBarrierEscalationMessage rfl db terminalId callerId message
      idleReason)
  | fireDue env now => exact (effect_fireDueBarriers rfl now db).quiet
  | cancel env barrierId barrierLabel ownerId =>
    exact htransact (effects_cancelCallbackBarrier db barrierId barrierLabel ownerId)
  | closeOwned env terminalId => exact htransact (effect_closeOwnedBarriers env db terminalId)
  | publish env mailboxId generation addresses =>
    exact htransact (effect_publish env db mailboxId generation addresses)
  | scan id => exact Quiet.refl db
  | retire id =>
    show Quiet db (if _ then _ else db)
    split
    · exact quiet_retireRow db id
    · exact Quiet.refl db
  | notice row newUlid now =>
    obtain hsame | ⟨draft, hdraft, hnew⟩ :=
      apply_notice sha256 contentHash scanned db row newUlid now
    · rw [hsame]
      exact Quiet.refl db
    · rw [hnew]
      intro receiver key at_ message hc
      obtain hold | ⟨-, hkey, -⟩ := carries_enqueue hc
      · exact hold
      · rw [(noticeDraft_eq_some hdraft).2.2.1] at hkey
        cases hkey
  | queue op =>
    show Quiet db (if op.minted = none then _ else db)
    split
    · next hminted =>
      refine quiet_exec hminted ?_
      rintro msgId newReceiverId now messagePrefix rfl
      cases hscope
    · exact Quiet.refl db

/-! ## Runs -/

theorem OneUndelivered.quiet {newest : String → String → Option Place}
    (h : OneUndelivered newest db) (hquiet : Quiet db db') : OneUndelivered newest db' :=
  ⟨fun receiver key row message hc => h.newest receiver key row message (hquiet _ _ _ _ hc),
    fun receiver key m m' message hc hc' =>
      h.once receiver key m m' message (hquiet _ _ _ _ hc) (hquiet _ _ _ _ hc')⟩

/-- The insert of a keyed send that reaches its predecessors. -/
theorem OneUndelivered.insert {l : Ledger} {row : InboxRow} {new : Option Place}
    (h : OneUndelivered l.newest db) (hadds : Adds db row new db')
    (hkey : row.supersedeKey = some key) (hclear : new.isSome → Clear db row key)
    (hfree : ∀ m, new = some (.queue m) → db.queue.get m = none) :
    OneUndelivered (fun receiver k =>
      (if row.effectiveReceiver = receiver ∧ some key = some k then new else none).or
        (l.newest receiver k)) db' := by
  have hold : ∀ {receiver k at_ message}, Carries (supersede db row) receiver k at_ message →
      Carries db receiver k at_ message ∧
        (if row.effectiveReceiver = receiver ∧ some key = some k then new else none) = none := by
    intro receiver k at_ message hc
    refine ⟨quiet_supersede db row _ _ _ _ hc, ?_⟩
    split
    · next hpair =>
      obtain ⟨rfl, hk⟩ := hpair
      cases hk
      by_contra hne
      exact not_carries_supersede (hclear (Option.isSome_iff_ne_none.mpr hne)) hkey hc
    · rfl
  refine ⟨?_, ?_⟩
  · intro receiver k at_ message hc
    obtain hbefore | ⟨rfl, hk, rfl, rfl⟩ := hadds receiver k at_ message hc
    · obtain ⟨hcarries, hnone⟩ := hold hbefore
      rw [hnone, Option.none_or]
      exact h.newest receiver k at_ message hcarries
    · rw [hkey] at hk
      rw [if_pos ⟨rfl, hk⟩]
      rfl
  · intro receiver k m m' message hc hc'
    obtain hbefore | ⟨-, -, rfl, hnew⟩ := hadds receiver k _ message hc
    · obtain hbefore' | ⟨-, -, rfl, hnew'⟩ := hadds receiver k _ message hc'
      · exact h.once receiver k m m' message (hold hbefore).1 (hold hbefore').1
      · exact (hold hbefore).1.own
    · obtain hbefore' | ⟨-, -, hsame, -⟩ := hadds receiver k _ (.queue m) hc'
      · exact (hold hbefore').1.own.symm
      · cases hsame
        rfl

theorem insertedFor_send {send : Send} (receiver k : String) :
    insertedFor sha256 contentHash db (.send env send) receiver k =
      if (sendRow env send).effectiveReceiver = receiver ∧ send.supersedeKey = some k then
        inserted sha256 contentHash env db send
      else none := rfl

/-- A send keeps the newest message of every key, if it reaches its predecessors. -/
theorem oneUndelivered_send {l : Ledger} {send : Send}
    (h : OneUndelivered l.newest l.office.db)
    (hreaches : Reaches sha256 contentHash l (.send env send)) :
    OneUndelivered (l.step sha256 contentHash (.send env send)).newest
      (l.step sha256 contentHash (.send env send)).office.db := by
  show OneUndelivered (fun receiver k => (insertedFor sha256 contentHash l.office.db
      (.send env send) receiver k).or (l.newest receiver k)) (transact l.office.db
    ((insertRoutedInboxRow sha256 contentHash env l.office.db send).map Prod.snd))
  simp only [insertedFor_send]
  cases hkey : send.supersedeKey with
  | none =>
    have hsame : ∀ receiver k, ((if (sendRow env send).effectiveReceiver = receiver ∧
        (none : Option String) = some k then inserted sha256 contentHash env l.office.db send
        else none).or (l.newest receiver k)) = l.newest receiver k := by
      intro receiver k
      simp
    simp only [hsame]
    exact h.quiet (quiet_send hkey)
  | some key =>
    obtain ⟨hrollback, hclear⟩ := hreaches key hkey
    unfold transact
    have hquiet : ∀ {raised}, checked ((insertRoutedInboxRow sha256 contentHash env l.office.db
        send).map Prod.snd) = .error raised →
        inserted sha256 contentHash env l.office.db send = none := by
      intro raised hraised
      unfold inserted
      unfold checked at hraised
      cases hinsert : insertRoutedInboxRow sha256 contentHash env l.office.db send with
      | error raised' => rfl
      | ok result =>
        rw [hinsert] at hraised
        simp only [Except.map] at hraised
        split at hraised
        · cases hraised
        · next hunique => simp [hunique]
    split
    · next raised hraised =>
      rw [hquiet hraised]
      simp only [ite_self, Option.none_or]
      exact h.quiet (hrollback raised hraised)
    · next db' hdone =>
      unfold checked at hdone
      cases hinsert : insertRoutedInboxRow sha256 contentHash env l.office.db send with
      | error raised =>
        rw [hinsert] at hdone
        cases hdone
      | ok result =>
        obtain ⟨routed, db₁⟩ := result
        rw [hinsert] at hdone
        simp only [Except.map] at hdone
        split at hdone
        · next hunique =>
          cases hdone
          have hinserted : inserted sha256 contentHash env l.office.db send =
              placed l.office.db routed := by
            unfold inserted
            rw [hinsert]
            simp [hunique]
          rw [hinserted] at hclear ⊢
          obtain ⟨hsame, hnone⟩ | ⟨row, hrow, hadds⟩ := adds_insertRoutedInboxRow hinsert
          · rw [hnone]
            simp only [ite_self, Option.none_or]
            exact h.quiet hsame
          · rw [← hrow.receiver]
            refine h.insert hadds (hrow.key.trans hkey)
              (fun hsome => hrow.clear _ key (hclear hsome)) ?_
            intro m hm
            unfold placed at hm
            split at hm
            · split at hm
              · next hfree =>
                cases hm
                exact Option.isNone_iff_eq_none.mp hfree
              · cases hm
            · split at hm <;> cases hm
        · cases hdone

/-- An adoption of a row that is still the newest adds a row for the message it was. -/
theorem oneUndelivered_adopt {l : Ledger} {id : Int} {newUlid : String} {now : Int}
    (h : OneUndelivered l.newest l.office.db)
    (hreaches : Reaches sha256 contentHash l (.adopt id newUlid now)) :
    OneUndelivered l.newest
      (apply sha256 contentHash l.office.scanned l.office.db (.adopt id newUlid now)) := by
  obtain hsame | ⟨draft, hdraft, hnew⟩ :=
    apply_adopt sha256 contentHash l.office.scanned l.office.db id newUlid now
  · rw [hsame]
    exact h
  rw [hnew]
  unfold adoptedDraft at hdraft
  rw [Option.bind_eq_some_iff] at hdraft
  obtain ⟨row, hrow, hfact⟩ := hdraft
  rw [Option.filter_eq_some_iff] at hrow
  obtain ⟨hget, hscanned⟩ := hrow
  obtain ⟨hidem, hrecv, -, -, hlegacy, -, hskey, -⟩ := factDraft_eq_some hfact
  have hplace : queuePlace (draftRow sha256 draft newUlid now) = .inbox id := by
    unfold queuePlace
    rw [show (draftRow sha256 draft newUlid now).legacyMessageId = some id from hlegacy]
    simp only
    rw [if_pos (show (draftRow sha256 draft newUlid now).idempotencyKey = adoptedKey id from hidem)]
  refine ⟨?_, ?_⟩
  · intro receiver key at_ message hc
    obtain hold | ⟨rfl, hkey, -, rfl, hfree⟩ := carries_enqueue hc
    · exact h.newest receiver key at_ message hold
    · rw [hplace, hrecv]
      refine hreaches row key hget (hskey.symm.trans hkey) ?_ (hidem ▸ hfree)
      exact List.contains_iff_mem.mp hscanned
  · intro receiver key m m' message hc hc'
    obtain hold | ⟨-, -, hm, hmessage, hfree⟩ := carries_enqueue hc
    · obtain hold' | ⟨-, -, hm', hmessage', hfree'⟩ := carries_enqueue hc'
      · exact h.once receiver key m m' message hold hold'
      · rw [hmessage', hplace] at hold
        exact absurd (hidem ▸ hfree') hold.adopted
    · obtain hold' | ⟨-, -, hm', -, -⟩ := carries_enqueue hc'
      · rw [hmessage, hplace] at hold'
        exact absurd (hidem ▸ hfree) hold'.adopted
      · cases hm
        cases hm'
        rfl

theorem oneUndelivered_step {l : Ledger} {event : Event} (hscope : readdresses event = false)
    (h : OneUndelivered l.newest l.office.db) (hreaches : Reaches sha256 contentHash l event) :
    OneUndelivered (l.step sha256 contentHash event).newest
      (l.step sha256 contentHash event).office.db := by
  by_cases hsend : ∃ env send, event = .send env send
  · obtain ⟨env, send, rfl⟩ := hsend
    exact oneUndelivered_send h hreaches
  have hnewest : (l.step sha256 contentHash event).newest = l.newest := by
    funext receiver key
    show (insertedFor sha256 contentHash l.office.db event receiver key).or _ = _
    unfold insertedFor
    split
    · next env send => exact absurd ⟨env, send, rfl⟩ hsend
    · exact Option.none_or
  rw [hnewest]
  by_cases hadopt : ∃ id newUlid now, event = .adopt id newUlid now
  · obtain ⟨id, newUlid, now, rfl⟩ := hadopt
    exact oneUndelivered_adopt h hreaches
  · exact h.quiet (quiet_apply l.office.scanned (fun env send he => hsend ⟨env, send, he⟩)
      (fun id newUlid now he => hadopt ⟨id, newUlid, now, he⟩) hscope)

/-- At every moment of a run one message of each key is undelivered at most, the newest. -/
def KeepsNewest (sha256 contentHash : String → String) (events : List Event) : Prop :=
  ∀ before, before <+: events →
    OneUndelivered (run (Ledger.step sha256 contentHash) Ledger.start before).newest
      (run (Ledger.step sha256 contentHash) Ledger.start before).office.db

theorem oneUndelivered_start : OneUndelivered Ledger.start.newest Ledger.start.office.db := by
  have hnone : ∀ {receiver key row message}, ¬ Carries Office.start.db receiver key row message := by
    intro receiver key row message hc
    cases hc with
    | inbox hget _ _ _ => cases hget
    | queue hget _ _ _ => cases hget
  exact ⟨fun _ _ _ _ hc => absurd hc hnone, fun _ _ _ _ _ hc => absurd hc hnone⟩

/-- Runs whose sends reach their predecessors keep the newest message of every key. -/
theorem keepsNewest_of_reaches (sha256 contentHash : String → String) (events : List Event)
    (hscope : ∀ event ∈ events, readdresses event = false)
    (h : StepsSatisfy (Ledger.step sha256 contentHash) (Reaches sha256 contentHash) Ledger.start
      events) : KeepsNewest sha256 contentHash events := by
  rintro before ⟨after, rfl⟩
  rw [stepsSatisfy_append] at h
  have hstart := oneUndelivered_start
  generalize Ledger.start = l at h hstart
  replace h := h.1
  replace hscope : ∀ event ∈ before, readdresses event = false :=
    fun event hevent => hscope event (List.mem_append_left _ hevent)
  induction before generalizing l with
  | nil => exact hstart
  | cons event rest ih =>
    obtain ⟨hone, hrest⟩ := h
    rw [run_cons]
    exact ih _ (oneUndelivered_step (hscope event (by simp)) hstart hone) hrest
      (fun e he => hscope e (List.mem_cons_of_mem _ he))

/-- One seat, and a queue that cannot be written. -/
def seatEnv : Env where
  terminal id := if id = "seat" then some ⟨1, none⟩ else none
  mailbox _ := none
  mailboxOf _ := none
  latestIncarnation _ := none
  callerTargets _ := []
  newUlid _ := none
  now := 0

/-- A status report; the next one replaces it. -/
def statusReport (message : String) : Send where
  senderId := "worker"
  receiverId := "seat"
  message := message
  supersedeKey := some "status"

def twoStatuses : List Event := [.send seatEnv (statusReport "one"), .send seatEnv (statusReport "two")]

/-- Two statuses of one key, the second over the first. -/
theorem keepsNewest_of_reaches_twoStatuses : KeepsNewest id id twoStatuses := by
  refine keepsNewest_of_reaches id id twoStatuses ?_ ⟨?_, ?_, trivial⟩
  · intro event hevent
    simp only [twoStatuses, List.mem_cons, List.not_mem_nil, or_false] at hevent
    obtain rfl | rfl := hevent <;> rfl
  · intro key hkey
    refine ⟨fun raised hraised => (by cases hraised), fun _ => ⟨?_, ?_⟩⟩
    · intro m r hget
      cases hget
    · intro id x hget
      cases hget
  · intro key hkey
    refine ⟨fun raised hraised => (by cases hraised), fun _ => ⟨?_, ?_⟩⟩
    · intro m r hget
      cases hget
    · intro id x hget _ _ _
      have hmem := ((Table.get_eq_some_iff _ id x).mp hget).1
      change x ∈ [_] at hmem
      rw [List.mem_singleton] at hmem
      rw [hmem]
      rfl

/-- The first report is adopted before the second is sent. -/
def reportAfterAdoption : List Event :=
  [.send seatEnv (statusReport "one"), .scan 1, .adopt 1 "01" 0, .retire 1,
    .send seatEnv (statusReport "two")]

/-- The adopted report stays ready behind the newer one. -/
theorem reportAfterAdoption_not_keepsNewest :
    ¬ ∃ sha256 contentHash, KeepsNewest sha256 contentHash reportAfterAdoption := by
  rintro ⟨sha256, contentHash, h⟩
  obtain ⟨draft, hdraft⟩ : ∃ draft, adoptedDraft contentHash (insertRow Table.empty
      { sendRow seatEnv (statusReport "one") with enqueueGeneration := some 1 }) [1] 1 =
      some draft := ⟨_, rfl⟩
  -- the first report has been adopted
  have hadopted : run (Ledger.step sha256 contentHash) Ledger.start (reportAfterAdoption.take 3) =
      ⟨⟨{ Office.start.db with
        inbox := insertRow Table.empty
          { sendRow seatEnv (statusReport "one") with enqueueGeneration := some 1 }
        queue := exec sha256 Store.empty (.enqueue draft "01" 0) }, [1]⟩,
        (run (Ledger.step sha256 contentHash) Ledger.start (reportAfterAdoption.take 3)).newest⟩ := by
    cases hdraft
    rfl
  rw [exec_enqueue_fresh rfl rfl] at hadopted
  -- and the second one is newer
  obtain ⟨l, hl, hnewest, r, hget, hlive, hreceiver, hkey, hplace⟩ : ∃ l,
      run (Ledger.step sha256 contentHash) Ledger.start reportAfterAdoption = l ∧
      l.newest "seat" "status" = some (.inbox 2) ∧ ∃ r, l.office.db.queue.get "01" = some r ∧
      r.terminal = false ∧ r.receiverId = "seat" ∧ r.supersedeKey = some "status" ∧
      queuePlace r = .inbox 1 := by
    rw [← List.take_append_drop 3 reportAfterAdoption, run_append, hadopted]
    cases hdraft
    exact ⟨_, rfl, rfl, _, rfl, rfl, rfl, rfl, rfl⟩
  have hlast := (h reportAfterAdoption (List.prefix_refl _)).newest "seat" "status" (.queue "01")
    (queuePlace r)
  rw [hl, hnewest] at hlast
  have hsame := hlast (.queue hget hlive hreceiver hkey)
  rw [hplace] at hsame
  cases hsame

end CliAgentOrchestrator.Inbox
