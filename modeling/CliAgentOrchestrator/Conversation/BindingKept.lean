import CliAgentOrchestrator.Conversation.Binding

/-!
# Which runs keep the bindings

`Sought` names what an attach or a verification writes on a root. `verify_cases` says which of
three things a verification does to the roots, each of the three has its lemma (`kept_cleared`,
`kept_published_iff`, `kept_rebound_iff`), and `binding_kept_iff` puts them together.
-/

set_option autoImplicit false

namespace CliAgentOrchestrator.Conversation

open Library

/-! ## The calls -/

/-- A call, with all it is given; `sameFile` is the file system at that time. -/
inductive Call
  | registerTerminal (terminal : TerminalIdentity)
  | mintSpawnIdentity (spawn : Spawn) (callerPrincipal : Option (Option String))
  | bindProviderSessionId (key providerSessionId : String)
      (providerNamespace artifactLocator : Option String)
  | claimResume (key : String) (expectedGeneration : Int) (claimant : String)
  | clearResumeClaim (key : String)
  | setConversationLifecycle (key : String) (lifecycle : Lifecycle)
      (artifactLocator : Option String)
  | attachCapturedUuid (sameFile : String → String → Bool) (report : Report)
  | verifyAndPublishResume (sameFile : String → String → Bool) (admission : ResumeAdmission)
      (terminalId : String) (reportedSessionId reportedArtifactLocator provider : Option String)

/-- The database behind the call. -/
def exec (db : Conversations) : Call → Conversations
  | .registerTerminal terminal => { db with terminals := db.terminals.insert terminal }
  | .mintSpawnIdentity spawn callerPrincipal =>
    match mintSpawnIdentity spawn callerPrincipal db with
    | .ok db' => db'
    | .error _ => db
  | .bindProviderSessionId key uuid ns locator => (bindProviderSessionId key uuid ns locator db).2
  | .claimResume key generation claimant => (claimResume key generation claimant db).2
  | .clearResumeClaim key => clearResumeClaim key db
  | .setConversationLifecycle key lifecycle locator =>
    setConversationLifecycle key lifecycle locator db
  | .attachCapturedUuid sameFile report => ((attachCapturedUuid sameFile report).alone db).2
  | .verifyAndPublishResume sameFile admission terminalId reported locator provider =>
    ((verifyAndPublishResume sameFile admission terminalId reported locator provider).alone db).2

/-- The ids that a call writes on a root: one that is bound first, one that is published
unchecked. -/
structure Sought where
  root : Root
  providerNamespace : Option String
  checked : Option String := none
  unchecked : Option String := none

/-- The root a terminal reports for. -/
def reportedRoot (terminalId : String) (db : Conversations) : Option Root :=
  (((db.terminals.get terminalId).bind (·.identityKey)).filter (· != "")).bind db.roots.get

def soughtByVerify (sameFile : String → String → Bool) (admission : ResumeAdmission)
    (reported locator provider : Option String) (root : Root) : Sought :=
  let none : Sought := ⟨root, root.providerNamespace, .none, .none⟩
  match admission.providerSessionId with
  | some expected =>
    if reported = some expected then { none with unchecked := expected }
    else if orText provider admission.provider = some "claude_code" then
      if isSameFile sameFile locator root.artifactLocator then
        { none with
          checked := (orText reported (some expected)).getD expected
          unchecked := reported.filter (· == "") }
      else none
    else none
  | .none => { none with unchecked := reported.filter (· != "") }

def soughtByAttach (sameFile : String → String → Bool) (report : Report) (root : Root) :
    Sought :=
  if root.resumeClaim.isSome then
    soughtByVerify sameFile (attachAdmission report root) (some report.providerSessionId)
      report.artifactLocator (orText report.provider (some root.provider)) root
  else
    { root := root
      providerNamespace := report.providerNamespace.or root.providerNamespace
      checked := report.providerSessionId }

/-- What an attach or a verification writes; the other calls are none of these. -/
def Call.sought (db : Conversations) : Call → Option Sought
  | .attachCapturedUuid sameFile report =>
    (reportedRoot report.terminalId db).map (soughtByAttach sameFile report)
  | .verifyAndPublishResume sameFile admission _ reported locator provider =>
    (db.roots.get admission.identityKey).map
      (soughtByVerify sameFile admission reported locator provider)
  | _ => none

/-- No other root has the id. -/
def Sought.Alone (s : Sought) (roots : Table Root.identityKey) (id : Option String) : Prop :=
  ∀ uuid ∈ id, Free roots s.root.provider s.providerNamespace uuid s.root.identityKey

instance (s : Sought) (roots : Table Root.identityKey) (id : Option String) :
    Decidable (s.Alone roots id) :=
  inferInstanceAs (Decidable (∀ _ ∈ id, _))

/-- Every root keeps its binding, its terminal and its lifecycle, and the one that is refused has
no claim. -/
structure Refused (roots roots' : Table Root.identityKey) (key : String) : Prop where
  kept : ∀ k r, roots.get k = some r → ∃ r', roots'.get k = some r' ∧
    r'.provider = r.provider ∧ r'.providerNamespace = r.providerNamespace ∧
    r'.providerSessionId = r.providerSessionId ∧ r'.currentTerminalId = r.currentTerminalId ∧
    r'.lifecycle = r.lifecycle
  unclaimed : ∀ r', roots'.get key = some r' → r'.resumeClaim = none

/-- What no root may have twice, some root would have, so the call is refused. -/
def Sought.Refuses (s : Sought) (roots roots' : Table Root.identityKey) : Prop :=
  ¬ (s.Alone roots s.checked ∧ s.Alone roots s.unchecked) → Refused roots roots' s.root.identityKey

/-- The check refuses the call, or no other root has the id that is published unchecked, or the
index rejects it, on a root that has no claim to leave behind and keeps its id. -/
def Sought.Clear (s : Sought) (roots : Table Root.identityKey) : Prop :=
  s.Alone roots s.checked →
    s.Alone roots s.unchecked ∨
      s.root.providerNamespace.isSome ∧ s.root.resumeClaim = none ∧
        ∀ uuid ∈ s.checked, s.root.providerSessionId = some uuid

instance (s : Sought) (roots : Table Root.identityKey) : Decidable (s.Clear roots) :=
  inferInstanceAs (Decidable (_ → _))

/-- One conversation for each session behind the call, and an attach or a publish that would
break it is refused. -/
def Kept (db : Conversations) (call : Call) : Prop :=
  OneConversation (exec db call).roots ∧
    ∀ s ∈ call.sought db, s.Refuses db.roots (exec db call).roots

def Clear (db : Conversations) (call : Call) : Prop := ∀ s ∈ call.sought db, s.Clear db.roots

instance (db : Conversations) (call : Call) : Decidable (Clear db call) :=
  inferInstanceAs (Decidable (∀ _ ∈ call.sought db, _))

/-! ## What a verification does to the roots -/

@[simp] theorem roots_recordConversationEvent (key : String) (event : EventKind)
    (terminalId : Option String) (db : Conversations) :
    (recordConversationEvent key event terminalId db).roots = db.roots := rfl

@[simp] theorem terminals_recordConversationEvent (key : String) (event : EventKind)
    (terminalId : Option String) (db : Conversations) :
    (recordConversationEvent key event terminalId db).terminals = db.terminals := rfl

/-- What follows the publish writes events only. -/
theorem roots_publishResume (admission : ResumeAdmission) (terminalId : String)
    (published locator : Option String) (db : Conversations) :
    ((publishResume admission terminalId published locator).alone db).2.roots =
      (publishCurrentTerminal admission.identityKey terminalId published none locator .live
        db).2.roots := by
  unfold publishResume
  simp only [Db.alone_bind, Db.alone_publishCurrentTerminal]
  split
  · rfl
  · simp only [Db.alone_bind, Db.alone_recordConversationEvent, Db.alone_getConversationEvents]
    split
    · rfl
    · split <;> simp

/-- A publish reads the roots only. -/
theorem roots_publish_congr {db db' : Conversations} {key terminalId : String}
    {published ns locator : Option String} {lifecycle : Lifecycle} (h : db.roots = db'.roots) :
    (publishCurrentTerminal key terminalId published ns locator lifecycle db).2.roots =
      (publishCurrentTerminal key terminalId published ns locator lifecycle db').2.roots := by
  unfold publishCurrentTerminal Conversations.updateRoot
  rw [h]
  split
  · exact h
  · dsimp only
    split
    · exact h
    · rfl

theorem roots_failResume (key terminalId : String) (error : ResumeError) (db : Conversations) :
    ((failResume key terminalId error).alone db).2.roots = (clearResumeClaim key db).roots := by
  simp [failResume]

section Verify

variable {db : Conversations} {admission : ResumeAdmission} {root : Root}

/-- A verification clears the claim, or publishes an id that it has not bound, or binds an id and
publishes. -/
theorem verify_cases (sameFile : String → String → Bool) (terminalId : String)
    (reported locator provider : Option String)
    (hget : db.roots.get admission.identityKey = some root) :
    let key := admission.identityKey
    let s := soughtByVerify sameFile admission reported locator provider root
    let roots' := ((verifyAndPublishResume sameFile admission terminalId reported locator
      provider).alone db).2.roots
    (roots' = (clearResumeClaim key db).roots ∧
        (s.checked = none ∧ s.unchecked = none ∨ ¬ s.Alone db.roots s.checked)) ∨
      (s.checked = none ∧ roots' =
        (publishCurrentTerminal key terminalId s.unchecked none locator .live db).2.roots) ∨
      ∃ uuid published, s.checked = some uuid ∧ s.Alone db.roots s.checked ∧
        (s.unchecked = published ∨ s.unchecked = none ∧ published = some uuid) ∧
        roots' = (publishCurrentTerminal key terminalId published none locator .live
          (db.updateRoot key (bindPatch uuid none locator))).2.roots := by
  have hkey : root.identityKey = admission.identityKey := Table.key_of_get hget
  intro key s roots'
  unfold s roots' soughtByVerify verifyAndPublishResume Sought.Alone
  cases hexpected : admission.providerSessionId with
  | none =>
    refine .inr (.inl ⟨rfl, ?_⟩)
    dsimp only
    rw [roots_publishResume]
    congr 4
    cases reported with
    | none => rfl
    | some r => by_cases hr : r = "" <;> simp [Option.filter, hr]
  | some expected =>
    dsimp only
    by_cases hreported : reported = some expected
    · rw [if_pos hreported, if_pos hreported]
      exact .inr (.inl ⟨rfl, roots_publishResume ..⟩)
    rw [if_neg hreported, if_neg hreported]
    by_cases hclaude : orText provider admission.provider = some "claude_code"
    swap
    · rw [if_neg hclaude, if_neg hclaude]
      exact .inl ⟨roots_failResume .., .inl ⟨rfl, rfl⟩⟩
    rw [if_pos hclaude, if_pos hclaude]
    simp only [Db.alone_bind, Db.alone_getConversationIdentity, hget, Option.bind_some]
    by_cases hfile : isSameFile sameFile locator root.artifactLocator
    swap
    · rw [if_neg hfile, if_neg hfile]
      exact .inl ⟨roots_failResume .., .inl ⟨rfl, rfl⟩⟩
    rw [if_pos hfile, if_pos hfile]
    -- the divergence binds, and publishes what it was reported
    have hbind := bind_true_iff hget ((orText reported (some expected)).getD expected) none locator
    rw [Option.none_or] at hbind
    simp only [Db.alone_bind, Db.alone_bindProviderSessionId]
    obtain hrefused | hbound := bind_cases admission.identityKey
      ((orText reported (some expected)).getD expected) none locator db
    · refine .inl ⟨?_, .inr ?_⟩
      · simp only [hrefused]
        rfl
      · intro hfree
        rw [hrefused] at hbind
        have := hbind.mpr (hkey ▸ hfree _ rfl)
        cases this
    · refine .inr (.inr ⟨_, reported, rfl, ?_, ?_, ?_⟩)
      · rintro uuid ⟨⟩
        rw [hkey]
        exact hbind.mp (by rw [hbound])
      · cases reported with
        | none => exact .inl rfl
        | some r => by_cases hr : r = "" <;> simp [Option.filter, hr, orText]
      · simp only [hbound, if_true, Db.alone_bind, Db.alone_recordConversationEvent]
        rw [roots_publishResume]
        exact roots_publish_congr rfl

@[simp] theorem soughtByVerify_root (sameFile : String → String → Bool)
    (admission : ResumeAdmission) (reported locator provider : Option String) (root : Root) :
    (soughtByVerify sameFile admission reported locator provider root).root = root := by
  unfold soughtByVerify
  split
  · split
    · rfl
    · split
      · split <;> rfl
      · rfl
  · rfl

@[simp] theorem soughtByVerify_providerNamespace (sameFile : String → String → Bool)
    (admission : ResumeAdmission) (reported locator provider : Option String) (root : Root) :
    (soughtByVerify sameFile admission reported locator provider root).providerNamespace =
      root.providerNamespace := by
  unfold soughtByVerify
  split
  · split
    · rfl
    · split
      · split <;> rfl
      · rfl
  · rfl

/-- A root that is patched in none of the five columns, and has no claim then. -/
theorem refused_updateRoot {db : Conversations} {key : String} {f : Patch Root.identityKey}
    (hkept : ∀ root, db.roots.get key = some root →
      (f.apply root).provider = root.provider ∧
        (f.apply root).providerNamespace = root.providerNamespace ∧
        (f.apply root).providerSessionId = root.providerSessionId ∧
        (f.apply root).currentTerminalId = root.currentTerminalId ∧
        (f.apply root).lifecycle = root.lifecycle ∧ (f.apply root).resumeClaim = none) :
    Refused db.roots (db.updateRoot key f).roots key where
  kept k r hget := by
    unfold Conversations.updateRoot
    rw [Table.get_updateKey, hget]
    by_cases hk : k = key
    · subst hk
      obtain ⟨hprovider, hns, hid, hterminal, hlifecycle, -⟩ := hkept r hget
      exact ⟨_, rfl, by simpa using ⟨hprovider, hns, hid, hterminal, hlifecycle⟩⟩
    · exact ⟨r, by simp [hk], rfl, rfl, rfl, rfl, rfl⟩
  unclaimed r' hget' := by
    unfold Conversations.updateRoot at hget'
    rw [Table.get_updateKey] at hget'
    obtain ⟨r, hr, rfl⟩ := Option.map_eq_some_iff.mp hget'
    simpa using (hkept r hr).2.2.2.2.2

theorem refused_clear (db : Conversations) (key : String) :
    Refused db.roots (clearResumeClaim key db).roots key :=
  refused_updateRoot fun _ _ => ⟨rfl, rfl, rfl, rfl, rfl, rfl⟩

/-- Nothing is written, on a root without a claim. -/
theorem refused_self {db : Conversations} {key : String} {root : Root}
    (hget : db.roots.get key = some root) (hclaim : root.resumeClaim = none) :
    Refused db.roots db.roots key where
  kept k r h := ⟨r, h, rfl, rfl, rfl, rfl, rfl⟩
  unclaimed r' h := by
    rw [hget] at h
    cases h
    exact hclaim

/-- No root, nothing to write but events. -/
theorem verify_missing (sameFile : String → String → Bool) (terminalId : String)
    (reported locator provider : Option String)
    (hget : db.roots.get admission.identityKey = none) :
    let roots' := ((verifyAndPublishResume sameFile admission terminalId reported locator
      provider).alone db).2.roots
    roots' = db.roots ∨ roots' = (clearResumeClaim admission.identityKey db).roots := by
  have hpublish : ∀ published, ((publishResume admission terminalId published locator).alone
      db).2.roots = db.roots := by
    intro published
    rw [roots_publishResume]
    unfold publishCurrentTerminal
    rw [hget]
  have hfile : isSameFile sameFile locator none = false := by cases locator <;> rfl
  unfold verifyAndPublishResume
  dsimp only
  split
  · split
    · exact .inl (hpublish _)
    split
    · simp only [Db.alone_bind, Db.alone_getConversationIdentity, hget, Option.bind_none, hfile,
        Bool.false_eq_true, if_false]
      exact .inr (roots_failResume ..)
    · exact .inr (roots_failResume ..)
  · exact .inl (hpublish _)

end Verify

/-! ## Exactly the clear calls keep the bindings -/

section Sought

variable {db : Conversations} {s : Sought}

/-- Nothing is written but the claim. -/
theorem kept_cleared (hone : OneConversation db.roots) :
    OneConversation (clearResumeClaim s.root.identityKey db).roots ∧
      s.Refuses db.roots (clearResumeClaim s.root.identityKey db).roots :=
  ⟨hone.clear _, fun _ => refused_clear db _⟩

/-- An id is published that has not been bound. -/
theorem kept_published_iff (hone : OneConversation db.roots)
    (hget : db.roots.get s.root.identityKey = some s.root)
    (hns : s.providerNamespace = s.root.providerNamespace) (hchecked : s.checked = none)
    (terminalId : String) (locator : Option String) :
    let roots' := (publishCurrentTerminal s.root.identityKey terminalId s.unchecked none locator
      .live db).2.roots
    OneConversation roots' ∧ s.Refuses db.roots roots' ↔ s.Clear db.roots := by
  have hfree : s.Alone db.roots s.checked := by
    rw [hchecked]
    rintro uuid ⟨⟩
  by_cases hunchecked : s.Alone db.roots s.unchecked
  · refine iff_of_true ⟨?_, fun h => absurd ⟨hfree, hunchecked⟩ h⟩ fun _ => .inl hunchecked
    refine hone.publish _ _ _ _ fun uuid root huuid hget' => ?_
    cases hget.symm.trans hget'
    rw [← hns]
    exact hunchecked uuid huuid
  · obtain ⟨uuid, huuid, htaken⟩ : ∃ uuid, s.unchecked = some uuid ∧
        ¬ Free db.roots s.root.provider s.root.providerNamespace uuid s.root.identityKey := by
      simpa [Sought.Alone, hns] using hunchecked
    rw [huuid]
    constructor
    · rintro ⟨hone', hrefuses⟩ -
      obtain ⟨hsame, hsome⟩ := publish_taken hget terminalId locator .live htaken hone'
      refine .inr ⟨hsome, (hrefuses fun h => hunchecked h.2).unclaimed s.root ?_, ?_⟩
      · rw [hsame]
        exact hget
      · rw [hchecked]
        rintro uuid ⟨⟩
    · intro hclear
      obtain hfree' | ⟨hsome, hclaim, -⟩ := hclear hfree
      · exact absurd hfree' hunchecked
      · have hsame := publish_rejected hget terminalId locator .live htaken hsome
        rw [hsame]
        exact ⟨hone, fun _ => refused_self hget hclaim⟩

/-- An id is bound, and then it is published, or one that has not been bound. -/
theorem kept_rebound_iff (hone : OneConversation db.roots)
    (hget : db.roots.get s.root.identityKey = some s.root)
    (hns : s.providerNamespace = s.root.providerNamespace) {uuid : String}
    (hchecked : s.checked = some uuid) (hfree : s.Alone db.roots s.checked)
    {published : Option String}
    (hpub : s.unchecked = published ∨ s.unchecked = none ∧ published = some uuid)
    (terminalId : String) (locator : Option String) :
    let roots' := (publishCurrentTerminal s.root.identityKey terminalId published none locator
      .live (db.updateRoot s.root.identityKey (bindPatch uuid none locator))).2.roots
    OneConversation roots' ∧ s.Refuses db.roots roots' ↔ s.Clear db.roots := by
  -- the table behind the bind, and the row in it
  obtain ⟨bound, hbound⟩ : ∃ bound,
      bound = db.updateRoot s.root.identityKey (bindPatch uuid none locator) := ⟨_, rfl⟩
  obtain ⟨root, hroot⟩ : ∃ root, root = (bindPatch uuid none locator).apply s.root := ⟨_, rfl⟩
  have hprovider : root.provider = s.root.provider := by rw [hroot]; rfl
  have hnamespace : root.providerNamespace = s.root.providerNamespace := by rw [hroot]; rfl
  have hone' : OneConversation bound.roots := by
    rw [hbound]
    refine hone.updateKey _ fun root hget' _ => ⟨rfl, .inr ?_⟩
    cases hget.symm.trans hget'
    rintro uuid' ⟨⟩
    show Free _ _ s.root.providerNamespace uuid _
    rw [← hns]
    exact hfree uuid hchecked
  have hget' : bound.roots.get s.root.identityKey = some root := by
    simp [hbound, hroot, Conversations.updateRoot, Table.get_updateKey, hget]
  have hfree' : ∀ id, Free bound.roots root.provider root.providerNamespace id
      s.root.identityKey ↔ Free db.roots s.root.provider s.providerNamespace id
        s.root.identityKey := by
    intro id
    rw [hbound, hprovider, hnamespace, hns]
    exact free_updateKey _ _
  rw [← hbound]
  by_cases hunchecked : s.Alone db.roots s.unchecked
  · refine iff_of_true ⟨?_, fun h => absurd ⟨hfree, hunchecked⟩ h⟩ fun _ => .inl hunchecked
    refine hone'.publish _ _ _ _ fun id root' hid hget'' => ?_
    cases hget'.symm.trans hget''
    rw [hfree']
    obtain hsame | ⟨-, hsame⟩ := hpub
    · exact hunchecked id (hsame.trans hid)
    · exact hfree id (hchecked.trans (hsame.symm.trans hid))
  · have hsame : s.unchecked = published := by
      refine hpub.resolve_right ?_
      rintro ⟨hnone, -⟩
      apply hunchecked
      rw [hnone]
      rintro id ⟨⟩
    obtain ⟨id, hid, htaken⟩ : ∃ id, s.unchecked = some id ∧
        ¬ Free db.roots s.root.provider s.providerNamespace id s.root.identityKey := by
      simpa [Sought.Alone] using hunchecked
    rw [← hfree'] at htaken
    obtain rfl : published = some id := hsame.symm.trans hid
    constructor
    · rintro ⟨hone'', hrefuses⟩ -
      obtain ⟨hdb, hsome⟩ := publish_taken hget' terminalId locator .live htaken hone''
      have hrefused := hrefuses fun h => hunchecked h.2
      rw [hdb] at hrefused
      -- the binding of the refused root was kept, so the bind wrote what it had
      obtain ⟨root', hroot', -, -, hkept, -, -⟩ := hrefused.kept _ _ hget
      cases hget'.symm.trans hroot'
      have hclaim := hrefused.unclaimed root hget'
      rw [hroot] at hkept hclaim
      refine .inr ⟨hnamespace ▸ hsome, hclaim, ?_⟩
      intro uuid' huuid'
      cases hchecked.symm.trans huuid'
      exact hkept.symm
    · intro hclear
      obtain hfree'' | ⟨hsome, hclaim, hsid⟩ := hclear hfree
      · exact absurd hfree'' hunchecked
      · have hdb := publish_rejected hget' terminalId locator .live htaken (hnamespace ▸ hsome)
        rw [hdb]
        refine ⟨hone', fun _ => ?_⟩
        rw [hbound]
        refine refused_updateRoot fun root' hget'' => ?_
        cases hget.symm.trans hget''
        exact ⟨rfl, rfl, (hsid uuid hchecked).symm, rfl, rfl, hclaim⟩

/-- A verification. -/
theorem verify_kept_iff (hone : OneConversation db.roots) (sameFile : String → String → Bool)
    (admission : ResumeAdmission) {root : Root} (terminalId : String)
    (reported locator provider : Option String)
    (hget : db.roots.get admission.identityKey = some root) :
    let s := soughtByVerify sameFile admission reported locator provider root
    let roots' := ((verifyAndPublishResume sameFile admission terminalId reported locator
      provider).alone db).2.roots
    OneConversation roots' ∧ s.Refuses db.roots roots' ↔ s.Clear db.roots := by
  intro s roots'
  have hroot : s.root = root := soughtByVerify_root ..
  have hkey : admission.identityKey = s.root.identityKey := by
    rw [hroot]
    exact (Table.key_of_get hget).symm
  have hns : s.providerNamespace = s.root.providerNamespace := by
    rw [hroot]
    exact soughtByVerify_providerNamespace ..
  have hget' : db.roots.get s.root.identityKey = some s.root := by
    rw [← hkey, hroot]
    exact hget
  obtain ⟨hroots, hnone⟩ | ⟨hchecked, hroots⟩ | ⟨uuid, published, hchecked, hfree, hpub, hroots⟩ :=
    verify_cases sameFile terminalId reported locator provider hget
  · have hclear : s.Clear db.roots := by
      intro hfree
      obtain ⟨-, hunchecked⟩ | hrefused := hnone
      · left
        change s.unchecked = none at hunchecked
        rw [hunchecked]
        rintro uuid ⟨⟩
      · exact absurd hfree hrefused
    refine iff_of_true ?_ hclear
    change roots' = _ at hroots
    rw [hroots, hkey]
    exact kept_cleared hone
  · change roots' = _ at hroots
    rw [hroots, hkey]
    exact kept_published_iff hone hget' hns hchecked terminalId locator
  · change roots' = _ at hroots
    rw [hroots, hkey]
    exact kept_rebound_iff hone hget' hns hchecked hfree hpub terminalId locator

/-- The capture of an id on a root without a claim, which is bound or refused. -/
theorem kept_captured (report : Report) {root : Root} (hone : OneConversation db.roots)
    (hget : db.roots.get root.identityKey = some root) (hclaim : root.resumeClaim = none) :
    let s : Sought := ⟨root, report.providerNamespace.or root.providerNamespace,
      report.providerSessionId, none⟩
    let roots' := ((captureUuid report root).alone db).2.roots
    OneConversation roots' ∧ s.Refuses db.roots roots' := by
  intro s roots'
  unfold roots' captureUuid
  simp only [Db.alone_bind, Db.alone_bindProviderSessionId]
  have hbind := bind_true_iff hget report.providerSessionId report.providerNamespace
    report.artifactLocator
  have hone' := hone.bind root.identityKey report.providerSessionId report.providerNamespace
    report.artifactLocator
  obtain hrefused | hbound := bind_cases root.identityKey report.providerSessionId
    report.providerNamespace report.artifactLocator db
  · simp only [hrefused, Bool.false_eq_true, if_false, Db.alone_bind,
      Db.alone_conflictingIdentity, Db.alone_recordConversationEvent, Db.alone_pure]
    exact ⟨hone, fun _ => refused_self hget hclaim⟩
  · rw [hbound] at hone' hbind
    refine ⟨?_, fun h => absurd ⟨?_, ?_⟩ h⟩
    · simp only [hbound, if_true, Db.alone_bind, Db.alone_recordConversationEvent,
        Db.alone_getConversationIdentity, Db.alone_ite, Db.alone_setConversationLifecycle]
      split
      · exact hone'.updateKey _ fun _ _ _ => ⟨rfl, .inl ⟨rfl, rfl⟩⟩
      · exact hone'
    · rintro uuid ⟨⟩
      exact hbind.mp rfl
    · rintro uuid ⟨⟩

end Sought

/-! ## Every call -/

theorem alone_rootForTerminal (terminalId : String) (db : Conversations) :
    (rootForTerminal terminalId).alone db = (reportedRoot terminalId db, db) := by
  unfold rootForTerminal reportedRoot
  simp only [Db.alone_bind, Db.alone_getTerminalIdentity]
  cases (db.terminals.get terminalId).bind (·.identityKey) with
  | none => rfl
  | some key =>
    by_cases hkey : key = ""
    · simp [hkey, Option.filter]
    · simp [hkey, Option.filter]

theorem get_of_reportedRoot {terminalId : String} {db : Conversations} {root : Root}
    (h : reportedRoot terminalId db = some root) :
    db.roots.get root.identityKey = some root := by
  obtain ⟨key, -, hget⟩ := Option.bind_eq_some_iff.mp h
  rw [Table.key_of_get hget]
  exact hget

theorem attach_kept_iff {db : Conversations} (hone : OneConversation db.roots)
    (sameFile : String → String → Bool) (report : Report) :
    Kept db (.attachCapturedUuid sameFile report) ↔
      Clear db (.attachCapturedUuid sameFile report) := by
  unfold Kept Clear exec Call.sought attachCapturedUuid
  simp only [Db.alone_bind, alone_rootForTerminal]
  cases hroot : reportedRoot report.terminalId db with
  | none => simpa using hone
  | some root =>
    have hget := get_of_reportedRoot hroot
    simp only [Option.map_some, Option.mem_some_iff, forall_eq', soughtByAttach]
    by_cases hclaim : root.resumeClaim.isSome
    · simp only [hclaim, if_true]
      have hverify := verify_kept_iff hone sameFile (attachAdmission report root)
        report.terminalId (some report.providerSessionId) report.artifactLocator
        (orText report.provider (some root.provider)) hget
      simp only [Db.alone_bind]
      split <;> exact hverify
    · simp only [hclaim]
      have hnone : root.resumeClaim = none := by simpa using hclaim
      refine iff_of_true (kept_captured report hone hget hnone) fun _ => .inl ?_
      rintro uuid ⟨⟩

/-- A call keeps one conversation for each session, and refuses what would break it, exactly when
it is clear. -/
theorem kept_iff {db : Conversations} (hone : OneConversation db.roots) (call : Call) :
    Kept db call ↔ Clear db call := by
  cases call with
  | registerTerminal terminal => exact iff_of_true ⟨hone, by rintro s ⟨⟩⟩ (by rintro s ⟨⟩)
  | mintSpawnIdentity spawn callerPrincipal =>
    refine iff_of_true ⟨?_, by rintro s ⟨⟩⟩ (by rintro s ⟨⟩)
    unfold exec
    dsimp only
    split
    · next hmint => exact hone.mint spawn callerPrincipal hmint
    · exact hone
  | bindProviderSessionId key uuid ns locator =>
    exact iff_of_true ⟨hone.bind key uuid ns locator, by rintro s ⟨⟩⟩ (by rintro s ⟨⟩)
  | clearResumeClaim key => exact iff_of_true ⟨hone.clear key, by rintro s ⟨⟩⟩ (by rintro s ⟨⟩)
  | attachCapturedUuid sameFile report => exact attach_kept_iff hone sameFile report
  | verifyAndPublishResume sameFile admission terminalId reported locator provider =>
    unfold Kept Clear exec Call.sought
    dsimp only
    cases hget : db.roots.get admission.identityKey with
    | none =>
      refine iff_of_true ⟨?_, by rintro s ⟨⟩⟩ (by rintro s ⟨⟩)
      obtain hsame | hcleared :=
        verify_missing sameFile terminalId reported locator provider hget
      · rw [hsame]
        exact hone
      · rw [hcleared]
        exact hone.clear _
    | some root =>
      simp only [Option.map_some, Option.mem_some_iff, forall_eq']
      exact verify_kept_iff hone sameFile admission terminalId reported locator provider hget
  | _ =>
    refine iff_of_true ⟨?_, by rintro s ⟨⟩⟩ (by rintro s ⟨⟩)
    exact hone.updateKey _ fun _ _ _ => ⟨rfl, .inl ⟨rfl, rfl⟩⟩

/-- A provider session belongs to one conversation, and what would break it is refused, in exactly
the runs of clear calls. -/
theorem binding_kept_iff (db : Conversations) (hone : OneConversation db.roots)
    (calls : List Call) :
    StepsSatisfy exec Kept db calls ↔ StepsSatisfy exec Clear db calls := by
  induction calls generalizing db with
  | nil => exact Iff.rfl
  | cons call rest ih =>
    constructor
    · rintro ⟨hkept, hrest⟩
      exact ⟨(kept_iff hone call).mp hkept, (ih _ hkept.1).mp hrest⟩
    · rintro ⟨hclear, hrest⟩
      have hkept := (kept_iff hone call).mpr hclear
      exact ⟨hkept, (ih _ hkept.1).mpr hrest⟩

/-! ## Two conversations of one session -/

/-- No conversation, and two terminals. -/
def twoTerminals : Conversations where
  roots := Table.empty
  terminals := (Table.empty.insert ⟨"t1", none⟩).insert ⟨"t2", none⟩
  events := []

/-- A spawn, with a namespace or without, seeded with an id or not. -/
def spawnOf (key terminalId : String) (ns uuid : Option String) : Call :=
  .mintSpawnIdentity ⟨key, "codex", ns, uuid, some "owner", terminalId⟩ none

/-- What the second terminal reports. -/
def reportOf (uuid : String) : Call :=
  .attachCapturedUuid (fun _ _ => false) ⟨"t2", uuid, none, none, none⟩

/-- The second conversation is resumed, and its terminal reports the session of the first. -/
def takenOver (ns : Option String) : Conversations :=
  run exec twoTerminals [spawnOf "R1" "t1" ns (some "u"), spawnOf "R2" "t2" ns none,
    .claimResume "R2" 0 "owner", reportOf "u"]

theorem oneConversation_twoTerminals : OneConversation twoTerminals.roots := by
  rintro k k' a b ⟨⟩

/-- A capture of a taken id is refused, and a resume publishes an id of its own. -/
theorem binding_kept_two :
    StepsSatisfy exec Kept twoTerminals [spawnOf "R1" "t1" none (some "u"),
      spawnOf "R2" "t2" none none, reportOf "u", .claimResume "R2" 0 "owner",
      reportOf "v"] :=
  (binding_kept_iff twoTerminals oneConversation_twoTerminals _).mpr (by decide +kernel)

/-- Without a namespace both conversations have the session; with one the claim stays behind. -/
theorem published_unchecked :
    ¬ OneConversation (takenOver none).roots ∧
      ((takenOver (some "ns")).roots.get "R2").any (·.resumeClaim.isSome) = true := by
  constructor
  · intro hone
    have hrow : ∀ k ∈ ["R1", "R2"], ((takenOver none).roots.get k).map (fun r =>
        (r.provider, r.providerNamespace, r.providerSessionId)) =
          some ("codex", none, some "u") := by decide +kernel
    obtain ⟨a, ha, hfirst⟩ := Option.map_eq_some_iff.mp (hrow "R1" (by simp))
    obtain ⟨b, hb, hsecond⟩ := Option.map_eq_some_iff.mp (hrow "R2" (by simp))
    simp only [Prod.mk.injEq] at hfirst hsecond
    obtain ⟨hprovider, hns, huuid⟩ := hfirst
    obtain ⟨hprovider', hns', huuid'⟩ := hsecond
    exact absurd (hone "R1" "R2" a b ha hb ⟨hprovider.trans hprovider'.symm, hns.trans hns'.symm,
      by simp [huuid], huuid.trans huuid'.symm⟩) (by decide)
  · decide +kernel

end CliAgentOrchestrator.Conversation
