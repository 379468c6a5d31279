import CliAgentOrchestrator.Inbox.Closing

/-!
# The life of a barrier

A barrier is opened, waits for its members, and closes once. Every operation that closes one
has to see to the members still awaited; two of them leave that to nobody, and one escalation
takes back what has arrived. Runs without these steps keep the life cycle.
-/

set_option autoImplicit false

namespace CliAgentOrchestrator.Inbox

open CliAgentOrchestrator.Core Library Queue Wiring

/-- What is rolled back has put no combined message into the queue. -/
def Clean (db : Database) (result : Except Raised Database) : Prop :=
  ∀ raised, result = .error raised → raised.sent = db.sent

/-- Nor has any barrier of a sweep. -/
def CleanSweep (sha256 : String → String) (env : Env) (now : Int) :
    List CallbackBarrier → Database → Prop
  | [], _ => True
  | b :: rest, db => Clean db (fireDueBarrier sha256 env now db b) ∧
    CleanSweep sha256 env now rest (sweepBarrier sha256 env now db b)

/-- No publication closes a barrier that awaits a member, no reaping one that awaits another
terminal than the reaped one, and no quota escalation hits a member that has arrived. -/
def Tidy (sha256 contentHash : String → String) (o : Office) (event : Event) : Prop :=
  (∀ result, outcome sha256 contentHash o.db event = some result →
    Clean o.db (checked result)) ∧
  match event with
  | .publish _ mailboxId generation _ =>
    ∀ b ∈ historicalBarriers o.db mailboxId generation, ∀ k m, o.db.members.get k = some m →
      m.state = .awaiting → m.barrierId ≠ b.id
  | .reap _ terminalId _ =>
    ∀ i b, o.db.barriers.get i = some b → b.state = .open → b.owner = .terminal terminalId →
      ∀ k m, o.db.members.get k = some m → m.state = .awaiting → m.barrierId = i →
        m.terminalId = terminalId
  | .escalate env terminalId callerId _ idleReason =>
    idleReason = some "quota_or_auth" → ∀ receiverId logicalReceiverId barrier member,
      resolveInboxReceiver env callerId = .ok (receiverId, logicalReceiverId) →
      barrierMemberForCallback env o.db terminalId receiverId logicalReceiverId true =
        some (barrier, member) → member.state ≠ .arrived
  | .fireDue env now => CleanSweep sha256 env now (openBarriers o.db) o.db
  | _ => True

variable {db db' db'' : Database} {busy excused : Int → Prop} {i : Int}
  {sha256 contentHash : String → String} {env : Env}

/-! ## The operations -/

theorem sound_insertFree {send : Send} {routed : Routed}
    (h : insertFree sha256 contentHash env db send = .ok (routed, db')) : SameLife db db' := by
  unfold insertFree at h
  simp only at h
  split at h
  · cases h
    exact SameLife.refl db
  · exact sameLife_insertUnbound h

/-- A callback to an open barrier leaves the barrier waiting for somebody else, or closed. -/
theorem sound_insertBound {send : Send} {barrier : CallbackBarrier}
    {member : CallbackBarrierMember} {routed : Routed}
    (h : insertBound sha256 env db send barrier member = .ok (routed, db')) (hs : Sound db)
    (hm : db.members.get member.id = some member) (hid : member.barrierId = barrier.id) :
    Sound db' ∧ Keeps db db' := by
  unfold insertBound at h
  split at h
  · cases h
  next routed' db₁ hinsert =>
  simp only at h
  split at h
  · cases h
  next fired db₃ hfire =>
  cases h
  have hsame : SameLife db (db₁.bind barrier.id member.memberKey send.message) :=
    (sameLife_insertUnbound hinsert).trans ⟨rfl, rfl, fun _ => rfl⟩
  rw [show db₁.members = (db₁.bind barrier.id member.memberKey send.message).members from rfl]
    at hfire
  generalize db₁.bind barrier.id member.memberKey send.message = db₂ at hsame hfire
  have hs₂ := hsame.sound (soundBut_none_iff.mpr hs)
  have hm₂ : db₂.members.get member.id = some member := by
    rw [hsame.members]
    exact hm
  have hs₃ := hs₂.patchMember (i := barrier.id) (p := fun m => m.state == .awaiting)
    (f := arrivePatch routed.id env.now) (k := member.id) (by
      intro m hget
      rw [hm₂] at hget
      cases hget
      exact hid) (fun _ => rfl) (by simp [arrivePatch])
  have hkeeps₃ : Keeps db₂ (db₂.withMembers (db₂.members.updateKey member.id
      (fun m => m.state == .awaiting) (arrivePatch routed.id env.now))) := by
    refine keeps_patchMember ?_
    intro m _ hp harr
    rw [harr] at hp
    cases hp
  have hmember : ∃ k m, (db₂.withMembers (db₂.members.updateKey member.id
      (fun m => m.state == .awaiting) (arrivePatch routed.id env.now))).members.get k = some m ∧
      m.barrierId = barrier.id := by
    refine ⟨member.id, _, by rw [get_patchMember, hm₂, Option.map_some], ?_⟩
    split <;> exact hid
  obtain ⟨hs₄, hkeeps₄, -⟩ := sound_maybeFire hfire hs₃ fun _ => hmember
  refine ⟨soundBut_none_iff.mp (hs₄.mono ?_ (fun _ h => h)),
    (hsame.keeps.trans hkeeps₃).trans hkeeps₄⟩
  rintro j ⟨hfalse | hj, hne⟩
  · exact hfalse
  · exact hne hj

/-- A new barrier is open, and the only one without members. -/
theorem sound_newBarrier {b : CallbackBarrier} (hid : b.id = db.barriers.nextKey)
    (hstate : b.state = .open) (hs : Sound db) :
    SoundBut (fun j => j = b.id) (fun _ => False) (db.withBarriers (db.barriers.insert b)) ∧
      Keeps db (db.withBarriers (db.barriers.insert b)) ∧
      (db.withBarriers (db.barriers.insert b)).isOpen b.id = true := by
  have hget : ∀ k, (db.withBarriers (db.barriers.insert b)).barriers.get k =
      if k = b.id then some b else db.barriers.get k := by
    intro k
    rw [hid]
    exact Table.get_insert_nextKey db.barriers hid k
  have hold : ∀ k, (db.barriers.get k).isSome → k ≠ b.id := by
    rintro k hk rfl
    rw [hid, Table.get_nextKey] at hk
    cases hk
  have hopen : ∀ k, k ≠ b.id → (db.withBarriers (db.barriers.insert b)).isOpen k =
      db.isOpen k := by
    intro k hk
    unfold Database.isOpen
    rw [hget, if_neg hk]
  refine ⟨⟨hs.combined_once, ?_, ?_, ?_⟩, ⟨?_, ?_⟩, ?_⟩
  · intro j hj
    obtain ⟨hsome, hclosed⟩ := hs.combined_closed j hj
    have hne := hold j hsome
    rw [hget, if_neg hne, hopen j hne]
    exact ⟨hsome, hclosed⟩
  · intro k m hm hawait _
    have hbar := hs.awaiting_open k m hm hawait
    obtain ⟨b', hb', -⟩ := isOpen_eq_true_iff.mp hbar
    rw [hopen _ (hold _ (by rw [hb']; rfl))]
    exact hbar
  · intro j hj hne
    rw [hopen j hne] at hj
    exact hs.outstanding j hj
  · intro j b' hb' _
    rw [hget, if_neg (hold j (by rw [hb']; rfl))]
    exact hb'
  · intro k m hm harr
    exact ⟨m, hm, rfl, harr⟩
  · refine isOpen_eq_true_iff.mpr ⟨b, ?_, hstate⟩
    rw [hget, if_pos rfl]

/-- The barrier a dispatch goes to is open, and no other lacks members. -/
theorem sound_ensureBarrier {owner : BarrierOwner} {generation timeout : Int} {label : String}
    {barrier : CallbackBarrier}
    (h : ensureBarrier env db owner generation label timeout = (barrier, db')) (hs : Sound db) :
    SoundBut (fun j => j = barrier.id) (fun _ => False) db' ∧ Keeps db db' ∧
      db'.isOpen barrier.id = true := by
  unfold ensureBarrier at h
  split at h
  · next found hfound =>
    cases h
    have hmem := List.mem_of_find?_eq_some hfound
    have hprop := List.find?_some hfound
    simp only [Bool.and_eq_true, beq_iff_eq] at hprop
    refine ⟨(soundBut_none_iff.mpr hs).mono (fun _ h => h.elim) (fun _ h => h),
      Keeps.refl db, ?_⟩
    exact isOpen_eq_true_iff.mpr ⟨barrier, (db.barriers.mem_rows_iff barrier).mp hmem,
      hprop.1.1.1⟩
  · simp only [Prod.mk.injEq] at h
    obtain ⟨rfl, rfl⟩ := h
    exact sound_newBarrier rfl rfl hs

/-- A re-armed member was a failed one of the barrier. -/
theorem memberToRearm_spec {barrierId : Int} {memberKey : Option String}
    {member : CallbackBarrierMember}
    (h : memberToRearm db barrierId memberKey = .ok (some member)) :
    db.members.get member.id = some member ∧ member.barrierId = barrierId ∧
      member.state = .failed := by
  have hmem : member ∈ db.members.select fun m => m.barrierId == barrierId && m.state == .failed := by
    unfold memberToRearm at h
    simp only at h
    split at h
    · split at h
      · next found hfound =>
        cases h
        exact List.mem_of_find?_eq_some hfound
      · split at h <;> cases h
    · split at h
      · cases h
      · next found hone =>
        cases h
        rw [hone]
        exact List.mem_singleton_self _
      · cases h
  rw [Table.mem_select_iff, Bool.and_eq_true, beq_iff_eq, beq_iff_eq] at hmem
  exact ⟨hmem.1, hmem.2.1, hmem.2.2⟩

/-- The barrier waits for the member it takes back. -/
theorem sound_rearm {member : CallbackBarrierMember} {terminalId : String} {generation : Int}
    (hs : SoundBut (fun j => j = i) (fun _ => False) db) (hopen : db.isOpen i = true)
    (hm : db.members.get member.id = some member) (hid : member.barrierId = i)
    (hfailed : member.state = .failed) :
    Sound (db.withMembers (db.members.updateKey member.id (fun _ => true)
      (rearmPatch terminalId generation))) ∧
    Keeps db (db.withMembers (db.members.updateKey member.id (fun _ => true)
      (rearmPatch terminalId generation))) := by
  refine ⟨⟨hs.combined_once, hs.combined_closed, ?_, ?_⟩, keeps_patchMember ?_⟩
  · intro j m' hm' hawait
    rw [get_patchMember, Option.map_eq_some_iff] at hm'
    obtain ⟨m, hget, hchange⟩ := hm'
    show db.isOpen m'.barrierId = true
    split at hchange
    · next hcond =>
      subst hchange
      obtain ⟨rfl, -⟩ := hcond
      rw [hm] at hget
      cases hget
      show db.isOpen member.barrierId = true
      rw [hid]
      exact hopen
    · subst hchange
      exact hs.awaiting_open j m hget hawait id
  · intro j hj
    by_cases hji : j = i
    · refine ⟨member.id, (rearmPatch terminalId generation).apply member, ?_, hid.trans hji.symm,
        by simp [rearmPatch], by simp [rearmPatch]⟩
      rw [get_patchMember, hm, Option.map_some, if_pos ⟨rfl, rfl⟩]
    · obtain ⟨l, m, hget, hmj, hstate⟩ := hs.outstanding j hj hji
      refine ⟨l, m, ?_, hmj, hstate⟩
      rw [get_patchMember, hget, Option.map_some, if_neg]
      rintro ⟨rfl, -⟩
      rw [hm] at hget
      cases hget
      exact hji (hmj.symm.trans hid)
  · intro m hget _ harr
    rw [hm] at hget
    cases hget
    rw [hfailed] at harr
    cases harr

/-- The barrier waits for its new member. -/
theorem sound_newMember {m : CallbackBarrierMember} (hid : m.id = db.members.nextKey)
    (hbarrier : m.barrierId = i) (hstate : m.state = .awaiting)
    (hs : SoundBut (fun j => j = i) (fun _ => False) db) (hopen : db.isOpen i = true) :
    Sound (db.withMembers (db.members.insert m)) ∧
      Keeps db (db.withMembers (db.members.insert m)) := by
  have hget : ∀ k, (db.withMembers (db.members.insert m)).members.get k =
      if k = db.members.nextKey then some m else db.members.get k :=
    fun k => Table.get_insert_nextKey db.members hid k
  have hold : ∀ k x, db.members.get k = some x → k ≠ db.members.nextKey := by
    rintro k x hx rfl
    rw [Table.get_nextKey] at hx
    cases hx
  refine ⟨⟨hs.combined_once, hs.combined_closed, ?_, ?_⟩, ⟨fun _ _ hb _ => hb, ?_⟩⟩
  · intro k x hx hawait
    rw [hget] at hx
    show db.isOpen x.barrierId = true
    split at hx
    · cases hx
      rw [hbarrier]
      exact hopen
    · exact hs.awaiting_open k x hx hawait id
  · intro j hj
    by_cases hji : j = i
    · refine ⟨db.members.nextKey, m, ?_, hbarrier.trans hji.symm, by simp [hstate],
        by simp [hstate]⟩
      rw [hget, if_pos rfl]
    · obtain ⟨l, x, hx, hrest⟩ := hs.outstanding j hj hji
      refine ⟨l, x, ?_, hrest⟩
      rw [hget, if_neg (hold l x hx)]
      exact hx
  · intro k x hx harr
    refine ⟨x, ?_, rfl, harr⟩
    rw [hget, if_neg (hold k x hx)]
    exact hx

theorem sound_addMember {memberKey terminalId : String} {generation : Int}
    (h : addMember db i memberKey terminalId generation = .ok db')
    (hs : SoundBut (fun j => j = i) (fun _ => False) db) (hopen : db.isOpen i = true) :
    Sound db' ∧ Keeps db db' := by
  unfold addMember at h
  simp only at h
  split at h
  · cases h
  · cases h
    exact sound_newMember rfl rfl rfl hs hopen

theorem sound_attach {senderId terminalId : String} {spec : DispatchBarrier}
    {profileName : Option String}
    (h : attachDispatchBarrier env db senderId terminalId spec profileName = .ok db')
    (hs : Sound db) : Sound db' ∧ Keeps db db' := by
  unfold attachDispatchBarrier at h
  split at h
  · cases h
  split at h
  · cases h
  generalize hensure : ensureBarrier env db _ _ _ _ = ensured at h
  obtain ⟨barrier, db₁⟩ := ensured
  simp only at h
  obtain ⟨hs₁, hkeeps₁, hopen⟩ := sound_ensureBarrier hensure hs
  split at h
  · cases h
  split at h
  · cases h
  · next member hrearm =>
    cases h
    obtain ⟨hm, hid, hfailed⟩ := memberToRearm_spec hrearm
    obtain ⟨hsound, hkeeps⟩ := sound_rearm hs₁ hopen hm hid hfailed
    exact ⟨hsound, hkeeps₁.trans hkeeps⟩
  · obtain ⟨hsound, hkeeps⟩ := sound_addMember h hs₁ hopen
    exact ⟨hsound, hkeeps₁.trans hkeeps⟩

theorem sound_insertRoutedInboxRow {send : Send} {routed : Routed}
    (h : insertRoutedInboxRow sha256 contentHash env db send = .ok (routed, db'))
    (hs : Sound db) : Sound db' ∧ Keeps db db' := by
  unfold insertRoutedInboxRow at h
  simp only at h
  split at h
  · cases h
  next db₁ hattach =>
  have hfirst : Sound db₁ ∧ Keeps db db₁ := by
    split at hattach
    · cases hattach
      exact ⟨hs, Keeps.refl db⟩
    · exact sound_attach hattach hs
  split at h
  · next barrier member hmatch =>
    unfold openMatch at hmatch
    split at hmatch
    · obtain ⟨-, hm, hid, -⟩ := barrierMemberForCallback_spec hmatch
      obtain ⟨hsound, hkeeps⟩ := sound_insertBound h hfirst.1 hm hid
      exact ⟨hsound, hfirst.2.trans hkeeps⟩
    · cases hmatch
  · have hsame := sound_insertFree h
    exact ⟨soundBut_none_iff.mp (hsame.sound (soundBut_none_iff.mpr hfirst.1)),
      hfirst.2.trans hsame.keeps⟩

/-! ### Members that go away -/

theorem mem_goneRows {terminalId : String} {p : CallbackBarrier × CallbackBarrierMember} :
    p ∈ goneRows db terminalId ↔ db.members.get p.2.id = some p.2 ∧ p.2.terminalId = terminalId ∧
      (p.2.state = .awaiting ∨ p.2.state = .failed) ∧
      db.barriers.get p.2.barrierId = some p.1 ∧ p.1.state = .open := by
  unfold goneRows
  rw [List.mem_filterMap]
  constructor
  · rintro ⟨m, hm, hpair⟩
    obtain ⟨b, hb, rfl⟩ := Option.map_eq_some_iff.mp hpair
    rw [Table.mem_select_iff] at hm
    simp only [Bool.and_eq_true, Bool.or_eq_true, beq_iff_eq] at hm
    rw [Option.filter_eq_some_iff, beq_iff_eq] at hb
    exact ⟨hm.1, hm.2.1, hm.2.2, hb.1, hb.2⟩
  · rintro ⟨hget, hterm, hstate, hb, hopen⟩
    refine ⟨p.2, ?_, ?_⟩
    · rw [Table.mem_select_iff]
      simp only [Bool.and_eq_true, Bool.or_eq_true, beq_iff_eq]
      exact ⟨hget, hterm, hstate⟩
    · rw [hb, Option.filter_some, if_pos (by rw [hopen]; rfl)]
      rfl

/-- The sweep over members that go away, from tables in which they alone may be awaited by a
closed barrier. -/
theorem sound_markMembersGone {rows : List (CallbackBarrier × CallbackBarrierMember)}
    (h : markMembersGone sha256 env rows db = .ok db')
    (hs : SoundBut (fun _ => False) (fun k => ∃ p ∈ rows, p.2.id = k) db)
    (hrows : ∀ p ∈ rows, ∃ m, db.members.get p.2.id = some m ∧ m.barrierId = p.1.id ∧
      m.state ≠ .arrived) : Sound db' ∧ Keeps db db' := by
  induction rows generalizing db with
  | nil =>
    cases h
    refine ⟨soundBut_none_iff.mp (hs.mono (fun _ h => h) ?_), Keeps.refl _⟩
    rintro k ⟨p, hp, -⟩
    cases hp
  | cons p rest ih =>
    obtain ⟨barrier, member⟩ := p
    simp only [markMembersGone] at h
    split at h
    · cases h
    next fired db₂ hfire =>
    obtain ⟨m₀, hm₀, hid₀, harr₀⟩ := hrows (barrier, member) (by simp)
    have hget₁ := get_patchMember db member.id (fun _ => true) gonePatch
    have hs₁ := hs.patchMember (i := barrier.id) (k := member.id) (p := fun _ => true)
      (f := gonePatch) (by
        intro m hm
        rw [hm₀] at hm
        cases hm
        exact hid₀) (fun _ => rfl) (by simp [gonePatch])
    have hdrop := hs₁.drop (k := member.id) (by
      intro m hm
      rw [hget₁, hm₀, Option.map_some, if_pos ⟨rfl, rfl⟩] at hm
      cases hm
      simp [gonePatch])
    have hkeeps₁ : Keeps db (db.withMembers (db.members.updateKey member.id (fun _ => true)
        gonePatch)) := by
      refine keeps_patchMember ?_
      intro m hm _ harr
      rw [hm₀] at hm
      cases hm
      exact absurd harr harr₀
    obtain ⟨hs₂, hkeeps₂, hno₂⟩ := sound_maybeFire hfire hdrop (by
      intro _
      refine ⟨member.id, gonePatch.apply m₀, ?_, hid₀⟩
      rw [hget₁, hm₀, Option.map_some, if_pos ⟨rfl, rfl⟩])
    have hrest : SoundBut (fun _ => False) (fun k => ∃ p ∈ rest, p.2.id = k) db₂ := by
      refine hs₂.mono ?_ ?_
      · rintro j ⟨hfalse | hj, hne⟩
        · exact hfalse
        · exact hne hj
      · rintro k ⟨⟨q, hq, hqk⟩, hne⟩
        obtain rfl | hq := List.mem_cons.mp hq
        · exact absurd hqk.symm hne
        · exact ⟨q, hq, hqk⟩
    have hrows₂ : ∀ q ∈ rest, ∃ m, db₂.members.get q.2.id = some m ∧ m.barrierId = q.1.id ∧
        m.state ≠ .arrived := by
      intro q hq
      obtain ⟨m, hm, hid, harr⟩ := hrows q (List.mem_cons_of_mem _ hq)
      have hsome : (db₂.members.get q.2.id).isSome = true := by
        rw [hno₂.isSome, hget₁, hm]
        rfl
      obtain ⟨m₂, hm₂⟩ := Option.isSome_iff_exists.mp hsome
      obtain ⟨m₁, hm₁, hid₁, harr₁⟩ := hno₂.member _ _ hm₂
      rw [hget₁, hm, Option.map_some] at hm₁
      refine ⟨m₂, hm₂, ?_, ?_⟩
      · rw [hid₁, ← hid]
        split at hm₁ <;> cases hm₁ <;> rfl
      · intro hcontra
        have := harr₁ hcontra
        split at hm₁
        · cases hm₁
          cases this
        · cases hm₁
          exact harr this
    obtain ⟨hsound, hkeeps⟩ := ih h hrest hrows₂
    exact ⟨hsound, (hkeeps₁.trans hkeeps₂).trans hkeeps⟩

/-- The rows to be marked are members of barriers that were open, and have not arrived. -/
theorem goneRows_spec (terminalId : String) :
    ∀ p ∈ goneRows db terminalId, ∃ m, db.members.get p.2.id = some m ∧ m.barrierId = p.1.id ∧
      m.state ≠ .arrived := by
  intro p hp
  obtain ⟨hget, -, hstate, hb, -⟩ := mem_goneRows.mp hp
  refine ⟨p.2, hget, (Table.key_of_get hb).symm, ?_⟩
  intro harr
  rw [harr] at hstate
  obtain h | h := hstate <;> cases h

theorem sound_markBarrierMemberGone {terminalId : String}
    (h : markBarrierMemberGone sha256 env db terminalId = .ok db') (hs : Sound db) :
    Sound db' ∧ Keeps db db' :=
  sound_markMembersGone h ((soundBut_none_iff.mpr hs).mono (fun _ h => h) (fun _ h => h.elim))
    (goneRows_spec terminalId)

/-- Closing barriers one by one, members untouched: whoever they await needs an excuse. -/
theorem sound_foldClose (close : Database → CallbackBarrier → Database)
    (hclose : ∀ db b, Closes false db b.id (close db b) ∧ (close db b).members = db.members)
    (bs : List CallbackBarrier) (hs : SoundBut busy excused db)
    (hleft : ∀ b ∈ bs, ∀ k m, db.members.get k = some m → m.state = .awaiting →
      m.barrierId = b.id → excused k) :
    SoundBut busy excused (bs.foldl close db) ∧ Keeps db (bs.foldl close db) ∧
      (bs.foldl close db).members = db.members := by
  induction bs generalizing db with
  | nil => exact ⟨hs, Keeps.refl db, rfl⟩
  | cons b bs ih =>
    obtain ⟨hone, hmembers⟩ := hclose db b
    have hs₁ := (hone.sound hs fun _ => hleft b (by simp)).mono (fun _ h => h.1) (fun _ h => h)
    obtain ⟨hs₂, hkeeps₂, hmembers₂⟩ := ih hs₁ (by
      rw [hmembers]
      exact fun b' hb' => hleft b' (List.mem_cons_of_mem _ hb'))
    exact ⟨hs₂, hone.keeps.trans hkeeps₂, hmembers₂.trans hmembers⟩

theorem closes_closeOwnedBarrier (now : Int) (db : Database) (b : CallbackBarrier) :
    Closes false db b.id (closeOwnedBarrier now db b) :=
  (closes_closeBarrier db b.id "owner_gone" now
    (by simp : BarrierState.cancelled ≠ .open)).sameLife ⟨rfl, rfl, fun _ => rfl⟩

/-! ### The operations that close barriers -/

/-- A closing that takes the awaited members along needs nothing else. -/
theorem Closes.done (h : Closes true db i db') (hs : Sound db) : Sound db' ∧ Keeps db db' := by
  have hs' := (h.sound (soundBut_none_iff.mpr hs) (by simp)).mono (fun _ h => h.1) (fun _ h => h)
  exact ⟨soundBut_none_iff.mp hs', h.keeps⟩

theorem SameLife.done (h : SameLife db db') (hs : Sound db) : Sound db' ∧ Keeps db db' :=
  ⟨soundBut_none_iff.mp (h.sound (soundBut_none_iff.mpr hs)), h.keeps⟩

theorem sound_cancelCallbackBarrier {barrierId : Option Int}
    {barrierLabel ownerId : Option String}
    (h : cancelCallbackBarrier env db barrierId barrierLabel ownerId = .ok db') (hs : Sound db) :
    Sound db' ∧ Keeps db db' := by
  unfold cancelCallbackBarrier at h
  split at h
  · cases h
  next barrier hselect =>
  split at h
  · next hstate =>
    cases h
    have hopen : db.isOpen barrier.id = true :=
      isOpen_eq_true_iff.mpr ⟨barrier, selectCallbackBarrier_spec hselect, hstate⟩
    have hclose : Closes false db barrier.id ((db.releaseHeld barrier.id
        (statusPatch .pending)).closeBarrier barrier.id .cancelled "cancelled" env.now) :=
      (closes_closeBarrier db barrier.id "cancelled" env.now
        (by simp : BarrierState.cancelled ≠ .open)).sameLife ⟨rfl, rfl, fun _ => rfl⟩
    exact (hclose.failAwaiting hopen _).done hs
  · cases h
    exact (SameLife.refl _).done hs

theorem sound_fireDueBarrier {now : Int} {barrier : CallbackBarrier}
    (h : fireDueBarrier sha256 env now db barrier = .ok db') (hs : Sound db) :
    Sound db' ∧ Keeps db db' := by
  have hfirst : ∀ {fired db₁}, maybeFireCompletedBarrier sha256 env db barrier = .ok (fired, db₁) →
      Sound db₁ ∧ Keeps db db₁ := by
    intro fired db₁ hfire
    obtain ⟨hs₁, hkeeps₁, -⟩ := sound_maybeFire hfire (soundBut_none_iff.mpr hs) (by simp)
    exact ⟨soundBut_none_iff.mp (hs₁.mono (fun _ h => h.1) (fun _ h => h)), hkeeps₁⟩
  unfold fireDueBarrier at h
  split at h
  · cases h
  · next fired db₁ hfire =>
    cases h
    exact hfirst hfire
  · next db₁ hfire =>
    obtain ⟨hs₁, hkeeps₁⟩ := hfirst hfire
    split at h
    · cases htimeout : fireOpenBarrier sha256 env db₁ barrier .firedTimeout "timeout" now with
      | error raised =>
        rw [htimeout] at h
        cases h
      | ok result =>
        obtain ⟨fired, db₂⟩ := result
        rw [htimeout] at h
        cases h
        obtain ⟨hs₂, hkeeps₂⟩ := (closes_fireOpenBarrier (by simp) htimeout).done hs₁
        exact ⟨hs₂, hkeeps₁.trans hkeeps₂⟩
    · cases h
      exact ⟨hs₁, hkeeps₁⟩

/-- A rollback that leaves no combined message behind changes nothing here. -/
theorem sameLife_rollback {raised : Raised} (h : raised.sent = db.sent) :
    SameLife db (db.rollback raised) := by
  refine ⟨rfl, rfl, ?_⟩
  intro i
  unfold Database.combinedCount Database.rollback
  rw [h]

theorem sound_sweepBarrier {now : Int} {barrier : CallbackBarrier}
    (hclean : Clean db (fireDueBarrier sha256 env now db barrier)) (hs : Sound db) :
    Sound (sweepBarrier sha256 env now db barrier) ∧
      Keeps db (sweepBarrier sha256 env now db barrier) := by
  unfold sweepBarrier
  split
  · next raised hraise => exact (sameLife_rollback (hclean raised hraise)).done hs
  · next db₁ hfire => exact sound_fireDueBarrier hfire hs

theorem sound_sweep {now : Int} (bs : List CallbackBarrier)
    (hclean : CleanSweep sha256 env now bs db) (hs : Sound db) :
    Sound (bs.foldl (sweepBarrier sha256 env now) db) ∧
      Keeps db (bs.foldl (sweepBarrier sha256 env now) db) := by
  induction bs generalizing db with
  | nil => exact ⟨hs, Keeps.refl db⟩
  | cons b bs ih =>
    obtain ⟨hone, hrest⟩ := hclean
    obtain ⟨hs₁, hkeeps₁⟩ := sound_sweepBarrier hone hs
    obtain ⟨hs₂, hkeeps₂⟩ := ih hrest hs₁
    exact ⟨hs₂, hkeeps₁.trans hkeeps₂⟩

theorem sound_closeOwnedBarriers (terminalId : String) (hs : Sound db) :
    Sound (closeOwnedBarriers env db terminalId) ∧
      Keeps db (closeOwnedBarriers env db terminalId) := by
  unfold closeOwnedBarriers
  generalize db.barriers.select _ = bs
  induction bs generalizing db with
  | nil => exact ⟨hs, Keeps.refl db⟩
  | cons b bs ih =>
    obtain ⟨hs₁, hkeeps₁⟩ := (closes_closeBarrierOwnerGone db b env.now).done hs
    obtain ⟨hs₂, hkeeps₂⟩ := ih hs₁
    exact ⟨hs₂, hkeeps₁.trans hkeeps₂⟩

/-! ### Escalation, reaping, publication -/

theorem sound_escalate {terminalId callerId message : String} {idleReason : Option String}
    (h : insertBarrierEscalationMessage sha256 contentHash env db terminalId callerId message
      idleReason = .ok db') (hs : Sound db)
    (hquota : idleReason = some "quota_or_auth" → ∀ receiverId logicalReceiverId barrier member,
      resolveInboxReceiver env callerId = .ok (receiverId, logicalReceiverId) →
      barrierMemberForCallback env db terminalId receiverId logicalReceiverId true =
        some (barrier, member) → member.state ≠ .arrived) :
    Sound db' ∧ Keeps db db' := by
  unfold insertBarrierEscalationMessage at h
  split at h
  · cases h
  next receiverId logicalReceiverId hresolve =>
  split at h
  · cases h
    exact (SameLife.refl _).done hs
  next barrier member hmatch =>
  split at h
  · cases h
    exact (SameLife.refl _).done hs
  simp only at h
  split at h
  · cases h
  next routed db₂ hinsert =>
  cases h
  obtain ⟨-, hm, -⟩ := barrierMemberForCallback_spec hmatch
  have hs₁ := hs.patchMember member.id (fun _ => true) (f := escalatePatch idleReason)
    (fun _ => rfl) (by
      intro m hawait
      by_cases hreason : idleReason = some "quota_or_auth"
      · simp [escalatePatch, hreason] at hawait
      · simpa [escalatePatch, hreason] using hawait) (by
      intro m harr hgone
      by_cases hreason : idleReason = some "quota_or_auth"
      · simp [escalatePatch, hreason]
      · simp [escalatePatch, hreason, harr, hgone])
  have hkeeps₁ : Keeps db (db.withMembers (db.members.updateKey member.id (fun _ => true)
      (escalatePatch idleReason))) := by
    refine keeps_patchMember ?_
    intro m hget _ harr
    rw [hm] at hget
    cases hget
    by_cases hreason : idleReason = some "quota_or_auth"
    · exact absurd harr (hquota hreason _ _ _ _ hresolve hmatch)
    · simp [escalatePatch, hreason, harr]
  obtain ⟨hs₂, hkeeps₂⟩ := sound_insertRoutedInboxRow hinsert hs₁
  exact ⟨hs₂, hkeeps₁.trans hkeeps₂⟩

/-- Whoever the reaped terminal's barriers await is the terminal itself, and is marked. -/
theorem sound_reap {terminalId : String} {target : Option ReapTarget}
    (h : deleteTerminalAndWarmIntent sha256 env db terminalId target = .ok db') (hs : Sound db)
    (hown : ∀ i b, db.barriers.get i = some b → b.state = .open →
      b.owner = .terminal terminalId → ∀ k m, db.members.get k = some m → m.state = .awaiting →
        m.barrierId = i → m.terminalId = terminalId) :
    Sound db' ∧ Keeps db db' := by
  unfold deleteTerminalAndWarmIntent at h
  simp only at h
  set db₁ := db.withInbox _ with hdb₁
  set owned := db.barriers.select _ with howned
  have hsame : SameLife db db₁ := sameLife_withInbox db _
  have hexcused : SoundBut (fun _ => False)
      (fun k => ∃ p ∈ goneRows db terminalId, p.2.id = k) db₁ :=
    hsame.sound ((soundBut_none_iff.mpr hs).mono (fun _ h => h) (fun _ h => h.elim))
  obtain ⟨hs₂, hkeeps₂, hmembers₂⟩ := sound_foldClose (closeOwnedBarrier env.now)
    (fun db b => ⟨closes_closeOwnedBarrier env.now db b, rfl⟩) owned hexcused (by
      intro b hb k m hm hawait hid
      rw [howned, Table.mem_select_iff, Bool.and_eq_true, beq_iff_eq, beq_iff_eq] at hb
      obtain ⟨hget, hstate, howner⟩ := hb
      have hterm := hown b.id b hget hstate howner k m hm hawait hid
      refine ⟨(b, m), mem_goneRows.mpr ⟨?_, hterm, .inl hawait, ?_, hstate⟩, Table.key_of_get hm⟩
      · rw [Table.key_of_get hm]
        exact hm
      · rw [hid]
        exact hget)
  obtain ⟨hs₃, hkeeps₃⟩ := sound_markMembersGone h hs₂ (by
    rw [hmembers₂]
    exact goneRows_spec terminalId)
  exact ⟨hs₃, (hsame.keeps.trans hkeeps₂).trans hkeeps₃⟩

theorem sound_publish {mailboxId : String} {generation : Int} {addresses : List String}
    (hs : Sound db) (hnobody : ∀ b ∈ historicalBarriers db mailboxId generation, ∀ k m,
      db.members.get k = some m → m.state = .awaiting → m.barrierId ≠ b.id) :
    Sound (publishSupervisorIncarnation env db mailboxId generation addresses) ∧
      Keeps db (publishSupervisorIncarnation env db mailboxId generation addresses) := by
  unfold publishSupervisorIncarnation
  have hnone : SoundBut (fun _ => False) (fun _ => False) db := soundBut_none_iff.mpr hs
  obtain ⟨hs₁, hkeeps₁, -⟩ := sound_foldClose
    (fun db b => db.closeBarrier b.id .digestedRebind "supervisor_rebind" env.now)
    (fun db b => ⟨closes_closeBarrier db b.id _ env.now (by simp), rfl⟩)
    (historicalBarriers db mailboxId generation) hnone
    (fun b hb k m hm hawait hid => hnobody b hb k m hm hawait hid)
  obtain ⟨hs₂, hkeeps₂⟩ := (sameLife_withInbox _ _).done (soundBut_none_iff.mp hs₁)
  exact ⟨hs₂, hkeeps₁.trans hkeeps₂⟩

/-! ## Runs -/

/-- What a transaction commits. -/
theorem sound_outcome {o : Office} {event : Event} {result : Except Raised Database}
    (h : outcome sha256 contentHash o.db event = some result) (hresult : result = .ok db')
    (hs : Sound o.db) (htidy : Tidy sha256 contentHash o event) :
    Sound db' ∧ Keeps o.db db' := by
  subst hresult
  obtain ⟨-, htidy⟩ := htidy
  cases event with
  | send env send =>
    have hsend := Option.some.inj h
    cases hinsert : insertRoutedInboxRow sha256 contentHash env o.db send with
    | error raised =>
      rw [hinsert] at hsend
      cases hsend
    | ok routed =>
      rw [hinsert] at hsend
      cases hsend
      exact sound_insertRoutedInboxRow hinsert hs
  | attach env senderId terminalId spec profileName =>
    have hsend := Option.some.inj h
    cases hattach : attachDispatchBarrier env o.db senderId terminalId spec profileName with
    | error e =>
      rw [hattach] at hsend
      cases hsend
    | ok db₁ =>
      rw [hattach] at hsend
      cases hsend
      exact sound_attach hattach hs
  | memberGone env terminalId => exact sound_markBarrierMemberGone (Option.some.inj h) hs
  | escalate env terminalId callerId message idleReason =>
    exact sound_escalate (Option.some.inj h) hs htidy
  | cancel env barrierId barrierLabel ownerId =>
    exact sound_cancelCallbackBarrier (Option.some.inj h) hs
  | closeOwned env terminalId =>
    cases h
    exact sound_closeOwnedBarriers terminalId hs
  | reap env terminalId target => exact sound_reap (Option.some.inj h) hs htidy
  | publish env mailboxId generation addresses =>
    cases h
    exact sound_publish hs htidy
  | _ => cases h

/-- One step. -/
theorem sound_step {o : Office} {event : Event} (hs : Sound o.db)
    (htidy : Tidy sha256 contentHash o event) :
    Sound (step sha256 contentHash o event).db ∧
      Keeps o.db (step sha256 contentHash o event).db := by
  show Sound (apply sha256 contentHash o.scanned o.db event) ∧
    Keeps o.db (apply sha256 contentHash o.scanned o.db event)
  unfold apply
  split
  · next result hresult =>
    have hclean := htidy.1 result hresult
    unfold transact
    split
    · next raised hraise => exact (sameLife_rollback (hclean raised hraise)).done hs
    · next db' hok =>
      refine sound_outcome hresult ?_ hs htidy
      unfold checked at hok
      split at hok
      · cases hok
      · split at hok
        · exact hok
        · cases hok
  · split
    · next env now _ => exact sound_sweep _ htidy.2 hs
    · split
      · exact (SameLife.refl _).done hs
      · exact (sameLife_queue _ _).done hs
    · split
      · exact (sameLife_withInbox _ _).done hs
      · exact (SameLife.refl _).done hs
    · split
      · exact (SameLife.refl _).done hs
      · exact (sameLife_queue _ _).done hs
    · split
      · exact (sameLife_queue _ _).done hs
      · exact (SameLife.refl _).done hs
    · exact (SameLife.refl _).done hs

theorem sound_start : Sound Office.start.db := by
  refine ⟨?_, ?_, ?_, ?_⟩
  · intro i
    exact Nat.zero_le 1
  · intro i hi
    cases hi
  · intro k m hm
    cases hm
  · intro i hi
    cases hi

/-- At every moment of a run the tables are sound, and from any moment to any later one nothing
closed is opened again and nothing arrived is lost. -/
def LifeCycle (sha256 contentHash : String → String) (events : List Event) : Prop :=
  ∀ before after, before <+: events → after <+: events → before <+: after →
    Sound (run (step sha256 contentHash) Office.start before).db ∧
    Advances (run (step sha256 contentHash) Office.start before).db
      (run (step sha256 contentHash) Office.start after).db

theorem keeps_run {o : Office} (events : List Event) (hs : Sound o.db)
    (h : StepsSatisfy (step sha256 contentHash) (Tidy sha256 contentHash) o events) :
    Sound (run (step sha256 contentHash) o events).db ∧
      Keeps o.db (run (step sha256 contentHash) o events).db := by
  induction events generalizing o with
  | nil => exact ⟨hs, Keeps.refl o.db⟩
  | cons event rest ih =>
    obtain ⟨hone, hrest⟩ := h
    obtain ⟨hs₁, hkeeps₁⟩ := sound_step hs hone
    obtain ⟨hs₂, hkeeps₂⟩ := ih hs₁ hrest
    rw [run_cons]
    exact ⟨hs₂, hkeeps₁.trans hkeeps₂⟩

/-- Runs of tidy steps keep the life cycle of their barriers. -/
theorem lifeCycle_of_tidy (sha256 contentHash : String → String) (events : List Event)
    (h : StepsSatisfy (step sha256 contentHash) (Tidy sha256 contentHash) Office.start events) :
    LifeCycle sha256 contentHash events := by
  rintro before after - ⟨rest, rfl⟩ ⟨between, rfl⟩
  rw [List.append_assoc, stepsSatisfy_append, stepsSatisfy_append] at h
  obtain ⟨hbefore, hbetween, -⟩ := h
  have hs := (keeps_run before sound_start hbefore).1
  refine ⟨hs, ?_⟩
  rw [run_append]
  exact (keeps_run between hs hbetween).2.advances

/-- One supervisor, one worker, a mailbox of generation 1, and no queue. -/
def smallEnv : Env where
  terminal id := if id = "sup" ∨ id = "worker" then some ⟨1, none⟩ else none
  mailbox id := if id = "mb_s" then some ⟨1, some "sup"⟩ else none
  mailboxOf id := if id = "sup" then some "mb_s" else none
  latestIncarnation _ := none
  callerTargets _ := []
  newUlid _ := none
  now := 0

/-- The worker is awaited, and calls back. -/
def smallRun : List Event :=
  [.attach smallEnv "sup" "worker" { label := "build" } none,
    .send smallEnv
      { senderId := "worker", receiverId := "sup", logicalReceiverId := some "mb_s"
        message := "done" }]

example : (run (step id id) Office.start smallRun).db.combinedCount 1 = 1 := by decide

/-- One awaited worker that calls back. -/
theorem lifeCycle_of_tidy_small : LifeCycle id id smallRun := by
  refine lifeCycle_of_tidy id id smallRun ⟨⟨?_, trivial⟩, ⟨?_, trivial⟩, trivial⟩
  · intro result hresult raised hraised
    cases hresult
    cases hraised
  · intro result hresult raised hraised
    cases hresult
    cases hraised

/-- A supervisor is published again while its worker is still awaited. -/
def rebindRun : List Event :=
  [.attach smallEnv "sup" "worker" { label := "build" } none,
    .publish smallEnv "mb_s" 2 []]

/-- The barrier is closed, and still awaits the worker. -/
theorem rebind_not_lifeCycle : ¬ ∃ sha256 contentHash, LifeCycle sha256 contentHash rebindRun := by
  rintro ⟨sha256, contentHash, h⟩
  have hsound := (h rebindRun rebindRun (List.prefix_refl _) (List.prefix_refl _)
    (List.prefix_refl _)).1
  have hopen := hsound.awaiting_open 1 _ rfl rfl
  cases hopen

end CliAgentOrchestrator.Inbox
