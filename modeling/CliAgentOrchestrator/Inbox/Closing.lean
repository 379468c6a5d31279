import CliAgentOrchestrator.Inbox.Lifecycle

/-!
# Closing a barrier

What holds of the barrier tables between two operations (`Sound`), what one operation leaves as
it is (`Advances`), and one notion of closing, `Closes`, that says what closing does to the two
tables, with or without the members still awaited.
-/

set_option autoImplicit false

namespace CliAgentOrchestrator.Inbox

open CliAgentOrchestrator.Core Library Queue Wiring

/-! ## What is promised -/

/-- What holds of the tables between two operations. -/
structure Sound (db : Database) : Prop where
  /-- A barrier has at most one combined message, and only once it is closed. -/
  combined_once : ∀ i, db.combinedCount i ≤ 1
  combined_closed : ∀ i, 0 < db.combinedCount i →
    (db.barriers.get i).isSome ∧ db.isOpen i = false
  /-- A barrier that is not open waits for nobody. -/
  awaiting_open : ∀ k m, db.members.get k = some m → m.state = .awaiting →
    db.isOpen m.barrierId = true
  /-- An open barrier waits for somebody. -/
  outstanding : ∀ i, db.isOpen i = true → ∃ k m, db.members.get k = some m ∧ m.barrierId = i ∧
    m.state ≠ .arrived ∧ m.state ≠ .gone

/-- What one operation leaves as it is. -/
structure Advances (db db' : Database) : Prop where
  /-- A closed barrier stays as it was closed. -/
  closed_kept : ∀ i b, db.barriers.get i = some b → b.state ≠ .open →
    db'.barriers.get i = some b
  /-- While its barrier is open a member that has arrived stays arrived. -/
  arrived_kept : ∀ k m, db.members.get k = some m → m.state = .arrived →
    db'.isOpen m.barrierId = true →
    ∃ m', db'.members.get k = some m' ∧ m'.barrierId = m.barrierId ∧ m'.state = .arrived

/-! ## In the middle of an operation -/

/-- `Sound`, but for the barriers in `busy`, which may have nobody left to wait for, and the
members in `excused`, which may be awaited by a closed barrier. -/
structure SoundBut (busy excused : Int → Prop) (db : Database) : Prop where
  combined_once : ∀ i, db.combinedCount i ≤ 1
  combined_closed : ∀ i, 0 < db.combinedCount i →
    (db.barriers.get i).isSome ∧ db.isOpen i = false
  awaiting_open : ∀ k m, db.members.get k = some m → m.state = .awaiting → ¬ excused k →
    db.isOpen m.barrierId = true
  outstanding : ∀ i, db.isOpen i = true → ¬ busy i → ∃ k m, db.members.get k = some m ∧
    m.barrierId = i ∧ m.state ≠ .arrived ∧ m.state ≠ .gone

/-- `Advances`, without the proviso: what has arrived stays so. -/
structure Keeps (db db' : Database) : Prop where
  closed_kept : ∀ i b, db.barriers.get i = some b → b.state ≠ .open →
    db'.barriers.get i = some b
  arrived_kept : ∀ k m, db.members.get k = some m → m.state = .arrived →
    ∃ m', db'.members.get k = some m' ∧ m'.barrierId = m.barrierId ∧ m'.state = .arrived

variable {db db' db'' : Database} {busy excused : Int → Prop} {i : Int}

theorem soundBut_none_iff :
    SoundBut (fun _ => False) (fun _ => False) db ↔ Sound db := by
  constructor
  · intro h
    exact ⟨h.combined_once, h.combined_closed, fun k m hk hm => h.awaiting_open k m hk hm id,
      fun i hi => h.outstanding i hi id⟩
  · intro h
    exact ⟨h.combined_once, h.combined_closed, fun k m hk hm _ => h.awaiting_open k m hk hm,
      fun i hi _ => h.outstanding i hi⟩

theorem SoundBut.mono {busy' excused' : Int → Prop} (h : SoundBut busy excused db)
    (hb : ∀ i, busy i → busy' i) (he : ∀ k, excused k → excused' k) :
    SoundBut busy' excused' db :=
  ⟨h.combined_once, h.combined_closed,
    fun k m hk hm hne => h.awaiting_open k m hk hm fun hx => hne (he k hx),
    fun i hi hne => h.outstanding i hi fun hx => hne (hb i hx)⟩

theorem Keeps.refl (db : Database) : Keeps db db :=
  ⟨fun _ _ h _ => h, fun _ m h ha => ⟨m, h, rfl, ha⟩⟩

theorem Keeps.trans (h : Keeps db db') (h' : Keeps db' db'') : Keeps db db'' := by
  refine ⟨?_, ?_⟩
  · intro i b hb hstate
    exact h'.closed_kept i b (h.closed_kept i b hb hstate) hstate
  · intro k m hm harr
    obtain ⟨m', hm', hid, harr'⟩ := h.arrived_kept k m hm harr
    obtain ⟨m'', hm'', hid', harr''⟩ := h'.arrived_kept k m' hm' harr'
    exact ⟨m'', hm'', hid'.trans hid, harr''⟩

theorem Keeps.advances (h : Keeps db db') : Advances db db' :=
  ⟨h.closed_kept, fun k m hm harr _ => h.arrived_kept k m hm harr⟩

/-- Two databases that differ in the inbox and the queue only. -/
structure SameLife (db db' : Database) : Prop where
  barriers : db'.barriers = db.barriers
  members : db'.members = db.members
  count : ∀ i, db'.combinedCount i = db.combinedCount i

theorem SameLife.refl (db : Database) : SameLife db db := ⟨rfl, rfl, fun _ => rfl⟩

theorem SameLife.isOpen (h : SameLife db db') (i : Int) : db'.isOpen i = db.isOpen i := by
  unfold Database.isOpen
  rw [h.barriers]

theorem SameLife.sound (h : SameLife db db') (hs : SoundBut busy excused db) :
    SoundBut busy excused db' := by
  refine ⟨?_, ?_, ?_, ?_⟩
  · intro i
    rw [h.count]
    exact hs.combined_once i
  · intro i hi
    rw [h.count] at hi
    rw [h.barriers, h.isOpen]
    exact hs.combined_closed i hi
  · rw [h.members]
    intro k m hk hm hne
    rw [h.isOpen]
    exact hs.awaiting_open k m hk hm hne
  · intro i hi
    rw [h.isOpen] at hi
    rw [h.members]
    exact hs.outstanding i hi

theorem SameLife.keeps (h : SameLife db db') : Keeps db db' := by
  refine ⟨?_, ?_⟩
  · rw [h.barriers]
    exact fun _ _ hb _ => hb
  · rw [h.members]
    exact fun _ m hm harr => ⟨m, hm, rfl, harr⟩

theorem isOpen_eq_true_iff : db.isOpen i = true ↔
    ∃ b, db.barriers.get i = some b ∧ b.state = .open := by
  unfold Database.isOpen
  rw [Option.any_eq_true]
  simp only [beq_iff_eq]

theorem isOpen_of_get {b : CallbackBarrier} (h : db.barriers.get i = some b) :
    db.isOpen i = (b.state == .open) := by
  unfold Database.isOpen
  rw [h]
  rfl

/-! ## Closing -/

/-- What closing barrier `i` does, to the members awaited by it too if `sweep`. -/
structure Closes (sweep : Bool) (db : Database) (i : Int) (db' : Database) : Prop where
  others : ∀ k, k ≠ i → db'.barriers.get k = db.barriers.get k
  kept : ∀ b, db.barriers.get i = some b → b.state ≠ .open → db'.barriers.get i = some b
  closed : db'.isOpen i = false
  isSome : (db'.barriers.get i).isSome = (db.barriers.get i).isSome
  members : ∀ k, ∃ failureClass, db'.members.get k = (db.members.get k).map fun m =>
    if sweep = true ∧ db.isOpen i = true ∧ m.barrierId = i ∧ m.state = .awaiting then
      (failPatch failureClass).apply m
    else m
  count : (∀ k, db'.combinedCount k = db.combinedCount k) ∨
    (db.isOpen i = true ∧
      ∀ k, db'.combinedCount k = db.combinedCount k + if k = i then 1 else 0)

theorem Closes.isOpen_other {sweep : Bool} (h : Closes sweep db i db') {k : Int} (hk : k ≠ i) :
    db'.isOpen k = db.isOpen k := by
  unfold Database.isOpen
  rw [h.others k hk]

/-- What a closing makes of one member. -/
theorem Closes.member {sweep : Bool} (h : Closes sweep db i db') {k : Int}
    {m' : CallbackBarrierMember} (hm' : db'.members.get k = some m') :
    ∃ m, db.members.get k = some m ∧ m'.barrierId = m.barrierId ∧
      (m'.state = m.state ∨ (m.state = .awaiting ∧ m'.state = .failed)) ∧
      (sweep = true → db.isOpen i = true → m.barrierId = i → m'.state ≠ .awaiting) := by
  obtain ⟨failureClass, hmap⟩ := h.members k
  rw [hmap, Option.map_eq_some_iff] at hm'
  obtain ⟨m, hm, hchange⟩ := hm'
  refine ⟨m, hm, ?_⟩
  split at hchange
  · next hcond =>
    subst hchange
    exact ⟨rfl, .inr ⟨hcond.2.2.2, rfl⟩, fun _ _ _ => by simp [failPatch]⟩
  · next hcond =>
    subst hchange
    exact ⟨rfl, .inl rfl, fun hs hi hb ha => hcond ⟨hs, hi, hb, ha⟩⟩

theorem Closes.keeps {sweep : Bool} (h : Closes sweep db i db') : Keeps db db' := by
  refine ⟨?_, ?_⟩
  · intro k b hb hstate
    by_cases hk : k = i
    · subst hk
      exact h.kept b hb hstate
    · rw [h.others k hk]
      exact hb
  · intro k m hm harr
    obtain ⟨failureClass, hmap⟩ := h.members k
    refine ⟨m, ?_, rfl, harr⟩
    rw [hmap, hm, Option.map_some, if_neg]
    rintro ⟨-, -, -, hawait⟩
    rw [harr] at hawait
    cases hawait

/-- Closing a barrier leaves the tables sound when it takes the awaited members along, or when
there are none but excused ones. -/
theorem Closes.sound {sweep : Bool} (h : Closes sweep db i db') (hs : SoundBut busy excused db)
    (hleft : sweep = false → ∀ k m, db.members.get k = some m → m.state = .awaiting →
      m.barrierId = i → excused k) :
    SoundBut (fun k => busy k ∧ k ≠ i) excused db' := by
  have hnone : db.isOpen i = true → db.combinedCount i = 0 := by
    intro hopen
    by_contra hne
    obtain ⟨-, hclosed⟩ := hs.combined_closed i (by omega)
    rw [hopen] at hclosed
    cases hclosed
  refine ⟨?_, ?_, ?_, ?_⟩
  · intro k
    have honce := hs.combined_once k
    obtain hcount | ⟨hopen, hcount⟩ := h.count
    · rw [hcount]
      exact honce
    · rw [hcount]
      by_cases hki : k = i
      · subst hki
        rw [hnone hopen, if_pos rfl]
      · rw [if_neg hki]
        exact honce
  · intro k hk
    by_cases hki : k = i
    · subst hki
      refine ⟨?_, h.closed⟩
      rw [h.isSome]
      obtain hcount | ⟨hopen, -⟩ := h.count
      · rw [hcount] at hk
        exact (hs.combined_closed k hk).1
      · obtain ⟨b, hb, -⟩ := isOpen_eq_true_iff.mp hopen
        rw [hb]
        rfl
    · rw [h.others k hki, h.isOpen_other hki]
      refine hs.combined_closed k ?_
      obtain hcount | ⟨-, hcount⟩ := h.count
      · rw [hcount] at hk
        exact hk
      · rw [hcount, if_neg hki] at hk
        exact hk
  · intro k m' hm' hawait hne
    obtain ⟨m, hm, hid, hstate, hswept⟩ := h.member hm'
    have hawait₀ : m.state = .awaiting := by
      obtain heq | ⟨-, hfailed⟩ := hstate
      · rw [← heq]
        exact hawait
      · rw [hfailed] at hawait
        cases hawait
    have hopen := hs.awaiting_open k m hm hawait₀ hne
    rw [hid]
    by_cases hki : m.barrierId = i
    · cases sweep with
      | true =>
        rw [hki] at hopen
        exact absurd hawait (hswept rfl hopen hki)
      | false => exact absurd (hleft rfl k m hm hawait₀ hki) hne
    · rw [h.isOpen_other hki]
      exact hopen
  · intro k hopen hfree
    have hki : k ≠ i := by
      rintro rfl
      rw [h.closed] at hopen
      cases hopen
    rw [h.isOpen_other hki] at hopen
    obtain ⟨j, m, hm, hid, harr, hgone⟩ := hs.outstanding k hopen fun hb => hfree ⟨hb, hki⟩
    obtain ⟨failureClass, hmap⟩ := h.members j
    refine ⟨j, m, ?_, hid, harr, hgone⟩
    rw [hmap, hm, Option.map_some, if_neg]
    rintro ⟨-, -, hmi, -⟩
    exact hki (hid.symm.trans hmi)

/-! ## What closes a barrier -/

variable {sha256 contentHash : String → String} {env : Env}

theorem SameLife.trans (h : SameLife db db') (h' : SameLife db' db'') : SameLife db db'' :=
  ⟨h'.barriers.trans h.barriers, h'.members.trans h.members,
    fun i => (h'.count i).trans (h.count i)⟩

theorem sameLife_withInbox (db : Database) (inbox : Table InboxRow.id) :
    SameLife db (db.withInbox inbox) := ⟨rfl, rfl, fun _ => rfl⟩

theorem sameLife_releaseHeld (db : Database) (barrierId : Int) (f : Patch InboxRow.id) :
    SameLife db (db.releaseHeld barrierId f) := ⟨rfl, rfl, fun _ => rfl⟩

theorem sameLife_queue (db : Database) (queue : Store) :
    SameLife db { db with queue := queue } := ⟨rfl, rfl, fun _ => rfl⟩

theorem sameLife_placeRow (sha256 : String → String) (env : Env) (db : Database)
    (row : InboxRow) : SameLife db (placeRow sha256 env db row).2 := by
  unfold placeRow
  split <;> exact ⟨rfl, rfl, fun _ => rfl⟩

theorem sameLife_insertUnbound {row : InboxRow} {routed : Routed}
    (h : insertUnbound sha256 env db row = .ok (routed, db')) : SameLife db db' := by
  unfold insertUnbound at h
  split at h
  · cases h
  · next row' _ =>
    have hplace : placeRow sha256 env (supersede db row') row' = (routed, db') := Except.ok.inj h
    have hsame := sameLife_placeRow sha256 env (supersede db row') row'
    rw [hplace] at hsame
    exact (sameLife_withInbox db _).trans hsame

/-- An UPDATE on the open barrier alone closes it, and whoever it awaits is still awaited. -/
theorem closes_closeBarrier (db : Database) (i : Int) {state : BarrierState} (reason : String)
    (now : Int) (hstate : state ≠ .open) :
    Closes false db i (db.closeBarrier i state reason now) := by
  have hget : ∀ k, (db.closeBarrier i state reason now).barriers.get k =
      (db.barriers.get k).map fun b =>
        if k = i ∧ (b.state == .open) = true then (closePatch state reason now).apply b else b :=
    fun k => Table.get_updateKey _ _ _ _ _
  refine ⟨?_, ?_, ?_, ?_, ?_, .inl fun _ => rfl⟩
  · intro k hk
    rw [hget]
    simp [hk]
  · intro b hb hclosed
    rw [hget, hb, Option.map_some, if_neg]
    rintro ⟨-, hopen⟩
    exact hclosed (eq_of_beq hopen)
  · unfold Database.isOpen
    rw [hget]
    cases hb : db.barriers.get i with
    | none => rfl
    | some b =>
      rw [Option.map_some, Option.any_some, beq_eq_false_iff_ne]
      split
      · exact hstate
      · next hcond =>
        intro hopen
        exact hcond ⟨rfl, beq_iff_eq.mpr hopen⟩
  · rw [hget]
    simp
  · intro k
    refine ⟨"", ?_⟩
    show db.members.get k = _
    simp

/-- The awaited members of a closed barrier fail with it. -/
theorem Closes.failAwaiting (h : Closes false db i db') (hopen : db.isOpen i = true)
    (failureClass : String) : Closes true db i (db'.failAwaiting i failureClass) := by
  refine ⟨h.others, h.kept, h.closed, h.isSome, ?_, h.count⟩
  intro k
  refine ⟨failureClass, ?_⟩
  obtain ⟨_, hmap⟩ := h.members k
  show (db'.members.update _ _).get k = _
  rw [Table.get_update, hmap]
  simp [hopen]

theorem Closes.sameLife {sweep : Bool} (h : Closes sweep db i db') (hsame : SameLife db' db'') :
    Closes sweep db i db'' := by
  refine ⟨?_, ?_, ?_, ?_, ?_, ?_⟩
  · rw [hsame.barriers]
    exact h.others
  · rw [hsame.barriers]
    exact h.kept
  · rw [hsame.isOpen]
    exact h.closed
  · rw [hsame.barriers]
    exact h.isSome
  · rw [hsame.members]
    exact h.members
  · obtain hcount | ⟨hopen, hcount⟩ := h.count
    · exact .inl fun k => (hsame.count k).trans (hcount k)
    · exact .inr ⟨hopen, fun k => (hsame.count k).trans (hcount k)⟩

/-- A barrier that is not open any more is closed by doing nothing. -/
theorem closes_of_closed (hclosed : db.isOpen i = false) : Closes true db i db := by
  refine ⟨fun _ _ => rfl, fun _ hb _ => hb, hclosed, rfl, ?_, .inl fun _ => rfl⟩
  intro k
  refine ⟨"", ?_⟩
  simp [hclosed]

theorem combinedCount_record (db : Database) (firing : Firing) (k : Int) (inQueue : Bool) :
    (db.record firing inQueue).combinedCount k =
      db.combinedCount k + if k = firing.barrier.id then 1 else 0 := by
  have hone : [firing].countP (fun f => f.barrier.id == k) =
      if k = firing.barrier.id then 1 else 0 := by
    by_cases hk : k = firing.barrier.id
    · subst hk
      simp
    · simp [hk, Ne.symm hk]
  unfold Database.record Database.combinedCount
  split
  · show (db.combined ++ (db.sent ++ [firing])).countP _ = _
    rw [← List.append_assoc, List.countP_append, hone]
  · show ((db.combined ++ [firing]) ++ db.sent).countP _ = _
    simp only [List.countP_append]
    rw [hone]
    omega

/-- The barrier that is closed has its combined message. -/
theorem Closes.record {sweep : Bool} (h : Closes sweep db i db') (hopen : db.isOpen i = true)
    (hnone : ∀ k, db'.combinedCount k = db.combinedCount k) {firing : Firing}
    (hfiring : firing.barrier.id = i) (inQueue : Bool) :
    Closes sweep db i (db'.record firing inQueue) := by
  have hbarriers : (db'.record firing inQueue).barriers = db'.barriers := by
    unfold Database.record
    split <;> rfl
  have hmembers : (db'.record firing inQueue).members = db'.members := by
    unfold Database.record
    split <;> rfl
  refine ⟨?_, ?_, ?_, ?_, ?_, .inr ⟨hopen, ?_⟩⟩
  · rw [hbarriers]
    exact h.others
  · rw [hbarriers]
    exact h.kept
  · unfold Database.isOpen
    rw [hbarriers]
    exact h.closed
  · rw [hbarriers]
    exact h.isSome
  · rw [hmembers]
    exact h.members
  · intro k
    rw [combinedCount_record, hnone, hfiring]

/-- The held callbacks are digested and the barrier points at the combined message. -/
theorem Closes.digestInto {sweep : Bool} (h : Closes sweep db i db') (hopen : db.isOpen i = true)
    {id : Int} (hd : digestInto db' i id = .ok db'') : Closes sweep db i db'' := by
  unfold Inbox.digestInto at hd
  split at hd
  · cases hd
  · cases hd
    have hget : ∀ k, (db'.barriers.updateKey i (fun _ => true) (combinedPatch id)).get k =
        (db'.barriers.get k).map fun b => if k = i then (combinedPatch id).apply b else b := by
      intro k
      rw [Table.get_updateKey]
      simp
    refine ⟨?_, ?_, ?_, ?_, h.members, h.count⟩
    · intro k hk
      show (db'.barriers.updateKey i (fun _ => true) (combinedPatch id)).get k = _
      rw [hget, ← h.others k hk]
      simp [hk]
    · intro b hb hstate
      rw [isOpen_of_get hb, beq_iff_eq] at hopen
      exact absurd hopen hstate
    · show ((db'.barriers.updateKey i (fun _ => true) (combinedPatch id)).get i).any _ = false
      rw [hget]
      have hclosed := h.closed
      unfold Database.isOpen at hclosed
      cases hb : db'.barriers.get i with
      | none => rfl
      | some b =>
        rw [hb] at hclosed
        simpa [combinedPatch] using hclosed
    · show ((db'.barriers.updateKey i (fun _ => true) (combinedPatch id)).get i).isSome = _
      rw [hget, ← h.isSome]
      simp

theorem closes_closeBarrierOwnerGone (db : Database) (barrier : CallbackBarrier) (now : Int) :
    Closes true db barrier.id (closeBarrierOwnerGone db barrier now) := by
  unfold closeBarrierOwnerGone
  split
  · next hopen =>
    have hclose := (closes_closeBarrier db barrier.id "owner_gone" now
      (by simp : BarrierState.cancelled ≠ .open)).sameLife (sameLife_releaseHeld _ barrier.id
        (statusPatch .cancelled))
    exact hclose.failAwaiting hopen _
  · next hclosed => exact closes_of_closed (by simpa using hclosed)

/-- Firing closes the barrier whatever comes of it. -/
theorem closes_fireOpenBarrier {barrier : CallbackBarrier} {state : BarrierState}
    {closeReason : String} {now : Int} {fired : Option Int} (hstate : state ≠ .open)
    (h : fireOpenBarrier sha256 env db barrier state closeReason now = .ok (fired, db')) :
    Closes true db barrier.id db' := by
  unfold fireOpenBarrier at h
  split at h
  · cases h
    exact closes_closeBarrierOwnerGone db barrier now
  · split at h
    · next hopen =>
      have hclose := (closes_closeBarrier db barrier.id closeReason now hstate).failAwaiting hopen
        ("barrier_closed_" ++ closeReason)
      simp only at h
      split at h
      · cases h
      · next routed db₂ hinsert =>
        split at h
        · cases h
        · next db₃ hdigest =>
          cases h
          have hsame := sameLife_insertUnbound hinsert
          exact ((hclose.sameLife hsame).record hopen hsame.count rfl _).digestInto hopen
            hdigest
    · next hclosed =>
      cases h
      exact closes_of_closed (by simpa using hclosed)

/-! ## One member -/

/-- The members are the same ones, of the same barriers, and nobody arrives. -/
structure NoArrival (db db' : Database) : Prop where
  isSome : ∀ k, (db'.members.get k).isSome = (db.members.get k).isSome
  member : ∀ k m', db'.members.get k = some m' → ∃ m, db.members.get k = some m ∧
    m'.barrierId = m.barrierId ∧ (m'.state = .arrived → m.state = .arrived)

theorem NoArrival.refl (db : Database) : NoArrival db db :=
  ⟨fun _ => rfl, fun _ m h => ⟨m, h, rfl, id⟩⟩

theorem Closes.noArrival {sweep : Bool} (h : Closes sweep db i db') : NoArrival db db' := by
  refine ⟨?_, ?_⟩
  · intro k
    obtain ⟨_, hmap⟩ := h.members k
    rw [hmap, Option.isSome_map]
  · intro k m' hm'
    obtain ⟨m, hm, hid, hstate, -⟩ := h.member hm'
    refine ⟨m, hm, hid, ?_⟩
    intro harr
    obtain heq | ⟨-, hfailed⟩ := hstate
    · exact heq.symm.trans harr
    · rw [hfailed] at harr
      cases harr

theorem get_patchMember (db : Database) (k : Int) (p : CallbackBarrierMember → Bool)
    (f : Patch CallbackBarrierMember.id) (j : Int) :
    (db.withMembers (db.members.updateKey k p f)).members.get j =
      (db.members.get j).map fun m => if j = k ∧ p m = true then f.apply m else m :=
  Table.get_updateKey _ _ _ _ _

/-- A change of one member that makes nobody awaited concerns its barrier alone. -/
theorem SoundBut.patchMember (hs : SoundBut busy excused db) {k : Int}
    {p : CallbackBarrierMember → Bool} {f : Patch CallbackBarrierMember.id}
    (hi : ∀ m, db.members.get k = some m → m.barrierId = i)
    (hid : ∀ m, (f.apply m).barrierId = m.barrierId)
    (hawait : ∀ m, (f.apply m).state = .awaiting → m.state = .awaiting) :
    SoundBut (fun j => busy j ∨ j = i) excused
      (db.withMembers (db.members.updateKey k p f)) := by
  refine ⟨hs.combined_once, hs.combined_closed, ?_, ?_⟩
  · intro j m' hm' hstate hne
    rw [get_patchMember, Option.map_eq_some_iff] at hm'
    obtain ⟨m, hm, hchange⟩ := hm'
    show db.isOpen m'.barrierId = true
    split at hchange
    · subst hchange
      rw [hid]
      exact hs.awaiting_open j m hm (hawait m hstate) hne
    · subst hchange
      exact hs.awaiting_open j m hm hstate hne
  · intro j hopen hfree
    obtain ⟨l, m, hm, hmj, hstate⟩ := hs.outstanding j hopen fun hb => hfree (.inl hb)
    refine ⟨l, m, ?_, hmj, hstate⟩
    rw [get_patchMember, hm, Option.map_some, if_neg]
    rintro ⟨rfl, -⟩
    exact hfree (.inr (hmj.symm.trans (hi m hm)))

/-- A change of one member keeps what has arrived, if it does not touch an arrived one. -/
theorem keeps_patchMember {k : Int} {p : CallbackBarrierMember → Bool}
    {f : Patch CallbackBarrierMember.id}
    (harr : ∀ m, db.members.get k = some m → p m = true → m.state = .arrived →
      (f.apply m).barrierId = m.barrierId ∧ (f.apply m).state = .arrived) :
    Keeps db (db.withMembers (db.members.updateKey k p f)) := by
  refine ⟨fun _ _ h _ => h, ?_⟩
  intro j m hm hstate
  by_cases hcond : j = k ∧ p m = true
  · obtain ⟨rfl, hp⟩ := hcond
    obtain ⟨hid, hstate'⟩ := harr m hm hp hstate
    refine ⟨f.apply m, ?_, hid, hstate'⟩
    rw [get_patchMember, hm, Option.map_some, if_pos ⟨rfl, hp⟩]
  · refine ⟨m, ?_, rfl, hstate⟩
    rw [get_patchMember, hm, Option.map_some, if_neg hcond]

/-- Nobody needs an excuse who is not awaited. -/
theorem SoundBut.drop (hs : SoundBut busy excused db) {k : Int}
    (hk : ∀ m, db.members.get k = some m → m.state ≠ .awaiting) :
    SoundBut busy (fun j => excused j ∧ j ≠ k) db := by
  refine ⟨hs.combined_once, hs.combined_closed, ?_, hs.outstanding⟩
  intro j m hm hstate hne
  refine hs.awaiting_open j m hm hstate fun hex => hne ⟨hex, ?_⟩
  rintro rfl
  exact hk m hm hstate

/-- After the completion check nobody needs to wait for the barrier any more, or somebody has
to. -/
theorem sound_maybeFire {barrier : CallbackBarrier} {fired : Option Int}
    (h : maybeFireCompletedBarrier sha256 env db barrier = .ok (fired, db'))
    (hs : SoundBut busy excused db)
    (hmember : busy barrier.id → ∃ k m, db.members.get k = some m ∧ m.barrierId = barrier.id) :
    SoundBut (fun j => busy j ∧ j ≠ barrier.id) excused db' ∧ Keeps db db' ∧
      NoArrival db db' := by
  unfold maybeFireCompletedBarrier at h
  split at h
  · have hclose := closes_fireOpenBarrier (by simp) h
    exact ⟨hclose.sound hs (by simp), hclose.keeps, hclose.noArrival⟩
  · next hcomplete =>
    cases h
    refine ⟨⟨hs.combined_once, hs.combined_closed, hs.awaiting_open, ?_⟩, Keeps.refl db,
      NoArrival.refl db⟩
    intro j hopen hfree
    by_cases hj : j = barrier.id ∧ busy j
    · -- the barrier has members and not all of them are in
      obtain ⟨rfl, hbusy⟩ := hj
      obtain ⟨k₀, m₀, hm₀, hid₀⟩ := hmember hbusy
      have hrows : m₀ ∈ db.members.select fun m => m.barrierId == barrier.id := by
        rw [Table.mem_select_iff, Table.key_of_get hm₀, beq_iff_eq]
        exact ⟨hm₀, hid₀⟩
      unfold barrierComplete at hcomplete
      simp only [Bool.and_eq_true, Bool.not_eq_true', List.all_map, List.all_eq_true,
        List.isEmpty_eq_false_iff, not_and, not_forall] at hcomplete
      obtain ⟨m, hm, hstate⟩ := hcomplete (by
        intro hnil
        rw [List.map_eq_nil_iff] at hnil
        rw [hnil] at hrows
        cases hrows)
      rw [Table.mem_select_iff, beq_iff_eq] at hm
      simp only [Function.comp_apply, Bool.or_eq_true, beq_iff_eq, not_or] at hstate
      exact ⟨m.id, m, hm.1, hm.2, hstate.1, hstate.2⟩
    · refine hs.outstanding j hopen fun hb => ?_
      exact hfree ⟨hb, fun heq => hj ⟨heq, hb⟩⟩

/-- A change of one member that makes nobody awaited, and nobody in who was not. -/
theorem Sound.patchMember (hs : Sound db) (k : Int) (p : CallbackBarrierMember → Bool)
    {f : Patch CallbackBarrierMember.id} (hid : ∀ m, (f.apply m).barrierId = m.barrierId)
    (hawait : ∀ m, (f.apply m).state = .awaiting → m.state = .awaiting)
    (hout : ∀ m, m.state ≠ .arrived → m.state ≠ .gone →
      (f.apply m).state ≠ .arrived ∧ (f.apply m).state ≠ .gone) :
    Sound (db.withMembers (db.members.updateKey k p f)) := by
  refine ⟨hs.combined_once, hs.combined_closed, ?_, ?_⟩
  · intro j m' hm' hstate
    rw [get_patchMember, Option.map_eq_some_iff] at hm'
    obtain ⟨m, hm, hchange⟩ := hm'
    show db.isOpen m'.barrierId = true
    split at hchange
    · subst hchange
      rw [hid]
      exact hs.awaiting_open j m hm (hawait m hstate)
    · subst hchange
      exact hs.awaiting_open j m hm hstate
  · intro j hopen
    obtain ⟨l, m, hm, hmj, harr, hgone⟩ := hs.outstanding j hopen
    by_cases hcond : l = k ∧ p m = true
    · refine ⟨l, f.apply m, ?_, (hid m).trans hmj, (hout m harr hgone).1, (hout m harr hgone).2⟩
      rw [get_patchMember, hm, Option.map_some, if_pos hcond]
    · refine ⟨l, m, ?_, hmj, harr, hgone⟩
      rw [get_patchMember, hm, Option.map_some, if_neg hcond]

end CliAgentOrchestrator.Inbox
