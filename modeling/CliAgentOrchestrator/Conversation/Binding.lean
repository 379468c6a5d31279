import CliAgentOrchestrator.Conversation.Transition

/-!
# One conversation for each provider session

The mint and the bind look for another root with the session before they write it, null
namespaces included, which the unique index cannot tell apart. The publish looks for none. What
it writes is either the id that a divergence has just bound, or an id that nobody has checked
(`Sought.unchecked`). Where another root has that id, a null namespace lets the second root have
it as well; any other namespace makes the unique index reject the write, and the claim of the
resume stays behind.

`binding_kept_iff` says exactly which runs keep one conversation for each session and refuse what
would break it: those whose steps are all `Clear`.
-/

set_option autoImplicit false

namespace CliAgentOrchestrator.Conversation

open Library

/-! ## Bindings -/

/-- The two roots carry one provider session. -/
def SameSession (a b : Root) : Prop :=
  a.provider = b.provider ∧ a.providerNamespace = b.providerNamespace ∧
    a.providerSessionId.isSome ∧ a.providerSessionId = b.providerSessionId

/-- No two roots carry one provider session. -/
def OneConversation (roots : Table Root.identityKey) : Prop :=
  ∀ k k' a b, roots.get k = some a → roots.get k' = some b → SameSession a b → k = k'

/-- No root but the one under `key` has the session. -/
def Free (roots : Table Root.identityKey) (provider : String) (providerNamespace : Option String)
    (providerSessionId key : String) : Prop :=
  boundElsewhere roots provider providerNamespace providerSessionId key = none

instance (roots : Table Root.identityKey) (provider : String) (providerNamespace : Option String)
    (providerSessionId key : String) :
    Decidable (Free roots provider providerNamespace providerSessionId key) :=
  inferInstanceAs (Decidable (_ = none))

section Bindings

variable {roots : Table Root.identityKey} {provider uuid key : String}
  {providerNamespace : Option String}

theorem free_iff : Free roots provider providerNamespace uuid key ↔
    ∀ k r, roots.get k = some r → r.provider = provider → r.providerNamespace = providerNamespace →
      r.providerSessionId = some uuid → k = key := by
  unfold Free boundElsewhere
  rw [List.find?_eq_none]
  simp only [Bool.and_eq_true, beq_iff_eq, bne_iff_ne, ne_eq, not_and, not_not, and_imp]
  constructor
  · intro h k r hget hprovider hnamespace huuid
    obtain rfl := Table.key_of_get hget
    exact h r ((roots.mem_rows_iff r).mpr hget) hprovider hnamespace huuid
  · intro h r hr hprovider hnamespace huuid
    exact h r.identityKey r ((roots.mem_rows_iff r).mp hr) hprovider hnamespace huuid

/-- Whether a session is free for a root does not depend on that root. -/
theorem free_updateKey (p : Root → Bool) (f : Patch Root.identityKey) :
    Free (roots.updateKey key p f) provider providerNamespace uuid key ↔
      Free roots provider providerNamespace uuid key := by
  have hother : ∀ k, k ≠ key → (roots.updateKey key p f).get k = roots.get k := by
    intro k hk
    rw [Table.get_updateKey]
    simp [hk]
  rw [free_iff, free_iff]
  constructor
  · intro h k r hget hprovider hnamespace huuid
    by_contra hk
    exact hk (h k r ((hother k hk).trans hget) hprovider hnamespace huuid)
  · intro h k r hget hprovider hnamespace huuid
    by_contra hk
    exact hk (h k r ((hother k hk).symm.trans hget) hprovider hnamespace huuid)

/-- The update of one root, which keeps its session or takes one that is free. -/
theorem OneConversation.updateKey (h : OneConversation roots) (p : Root → Bool)
    {f : Patch Root.identityKey}
    (hf : ∀ root, roots.get key = some root → p root = true →
      (f.apply root).provider = root.provider ∧
        ((f.apply root).providerNamespace = root.providerNamespace ∧
            (f.apply root).providerSessionId = root.providerSessionId ∨
          ∀ uuid, (f.apply root).providerSessionId = some uuid →
            Free roots root.provider (f.apply root).providerNamespace uuid key)) :
    OneConversation (roots.updateKey key p f) := by
  -- a row behind the update: an old one with its session, or the new one
  have hrow : ∀ k r', (roots.updateKey key p f).get k = some r' →
      (∃ r, roots.get k = some r ∧ r.provider = r'.provider ∧
        r.providerNamespace = r'.providerNamespace ∧ r.providerSessionId = r'.providerSessionId) ∨
      (k = key ∧ ∀ uuid, r'.providerSessionId = some uuid →
        Free roots r'.provider r'.providerNamespace uuid key) := by
    intro k r' hget
    rw [Table.get_updateKey] at hget
    obtain ⟨r, hr, rfl⟩ := Option.map_eq_some_iff.mp hget
    split
    · next hp =>
      obtain ⟨rfl, hp⟩ := hp
      obtain ⟨hprovider, ⟨hnamespace, huuid⟩ | hfree⟩ := hf r hr hp
      · exact .inl ⟨r, hr, hprovider.symm, hnamespace.symm, huuid.symm⟩
      · refine .inr ⟨rfl, ?_⟩
        rw [hprovider]
        exact hfree
    · exact .inl ⟨r, hr, rfl, rfl, rfl⟩
  rintro k k' a b ha hb ⟨hprovider, hnamespace, hsome, huuid⟩
  obtain ⟨uuid, hu⟩ := Option.isSome_iff_exists.mp hsome
  have hu' : b.providerSessionId = some uuid := huuid.symm.trans hu
  obtain ⟨a₀, ha₀, hp, hn, hs⟩ | ⟨rfl, hfree⟩ := hrow k a ha
  · obtain ⟨b₀, hb₀, hp', hn', hs'⟩ | ⟨rfl, hfree'⟩ := hrow k' b hb
    · refine h k k' a₀ b₀ ha₀ hb₀ ⟨hp.trans (hprovider.trans hp'.symm),
        hn.trans (hnamespace.trans hn'.symm), ?_, hs.trans (huuid.trans hs'.symm)⟩
      rw [hs]
      exact hsome
    · exact free_iff.mp (hfree' uuid hu') k a₀ ha₀ (hp.trans hprovider) (hn.trans hnamespace)
        (hs.trans hu)
  · obtain ⟨b₀, hb₀, hp', hn', hs'⟩ | ⟨rfl, -⟩ := hrow k' b hb
    · exact (free_iff.mp (hfree uuid hu) k' b₀ hb₀ (hp'.trans hprovider.symm)
        (hn'.trans hnamespace.symm) (hs'.trans hu')).symm
    · rfl

/-- A new root, whose session nobody has. -/
theorem OneConversation.insert (h : OneConversation roots) {row : Root}
    (hfree : ∀ uuid, row.providerSessionId = some uuid →
      Free roots row.provider row.providerNamespace uuid row.identityKey) :
    OneConversation (roots.insert row) := by
  have hrow : ∀ k r, (roots.insert row).get k = some r →
      roots.get k = some r ∨ k = row.identityKey ∧ r = row := by
    intro k r hget
    rw [Table.get_insert, Option.or_eq_some_iff] at hget
    obtain hold | ⟨-, hnew⟩ := hget
    · exact .inl hold
    · split at hnew
      · next hk => exact .inr ⟨hk.symm, (Option.some.inj hnew).symm⟩
      · cases hnew
  intro k k' a b ha hb ⟨hprovider, hnamespace, hsome, huuid⟩
  obtain ⟨uuid, hu⟩ := Option.isSome_iff_exists.mp hsome
  obtain ha' | ⟨rfl, rfl⟩ := hrow k a ha
  · obtain hb' | ⟨rfl, rfl⟩ := hrow k' b hb
    · exact h k k' a b ha' hb' ⟨hprovider, hnamespace, hsome, huuid⟩
    · exact free_iff.mp (hfree uuid (huuid.symm.trans hu)) k a ha' hprovider hnamespace hu
  · obtain hb' | ⟨rfl, -⟩ := hrow k' b hb
    · exact (free_iff.mp (hfree uuid hu) k' b hb' hprovider.symm hnamespace.symm
        (huuid.symm.trans hu)).symm
    · rfl

end Bindings

/-! ## What the three writers do to the roots -/

section Writers

variable {db : Conversations} {key : String} {root : Root}

theorem bind_true_iff (hget : db.roots.get key = some root) (uuid : String)
    (ns locator : Option String) :
    (bindProviderSessionId key uuid ns locator db).1 = true ↔
      Free db.roots root.provider (ns.or root.providerNamespace) uuid key := by
  unfold bindProviderSessionId Free
  rw [hget]
  dsimp only
  split
  · next hbound => simpa [Option.isSome_iff_ne_none] using hbound
  · next hfree => simpa using hfree

/-- A bind writes the id of a root that has it alone, or nothing. -/
theorem bind_cases (key uuid : String) (ns locator : Option String) (db : Conversations) :
    (bindProviderSessionId key uuid ns locator db = (false, db)) ∨
      bindProviderSessionId key uuid ns locator db =
        (true, db.updateRoot key (bindPatch uuid ns locator)) := by
  unfold bindProviderSessionId
  split
  · exact .inl rfl
  · split
    · exact .inl rfl
    · exact .inr rfl

theorem OneConversation.bind (h : OneConversation db.roots) (key uuid : String)
    (ns locator : Option String) :
    OneConversation (bindProviderSessionId key uuid ns locator db).2.roots := by
  obtain hbind | hbind := bind_cases key uuid ns locator db
  · rw [hbind]
    exact h
  · have htrue : (bindProviderSessionId key uuid ns locator db).1 = true := by rw [hbind]
    rw [hbind]
    refine h.updateKey _ fun root hget _ => ⟨rfl, .inr ?_⟩
    rintro uuid' ⟨⟩
    exact (bind_true_iff hget uuid ns locator).mp htrue

/-- A clearing keeps every session. -/
theorem OneConversation.clear (h : OneConversation db.roots) (key : String) :
    OneConversation (clearResumeClaim key db).roots :=
  h.updateKey _ fun _ _ _ => ⟨rfl, .inl ⟨rfl, rfl⟩⟩

/-- A mint looks for the session it is seeded with. -/
theorem OneConversation.mint (h : OneConversation db.roots) (spawn : Spawn)
    (callerPrincipal : Option (Option String)) {db' : Conversations}
    (hmint : mintSpawnIdentity spawn callerPrincipal db = .ok db') :
    OneConversation db'.roots := by
  unfold mintSpawnIdentity at hmint
  split at hmint
  · cases hmint
    exact h
  · dsimp only at hmint
    split at hmint
    · cases hmint
    · unfold mintConversationIdentity at hmint
      dsimp only at hmint
      split at hmint
      · cases hmint
      · next hconflict =>
        cases hmint
        refine h.insert fun uuid huuid => ?_
        change spawn.providerSessionId = some uuid at huuid
        rw [huuid] at hconflict
        exact hconflict

theorem uqConversationIdentityBound_iff {roots : Table Root.identityKey} {row : Root} :
    uqConversationIdentityBound roots row = true ↔
      row.providerNamespace.isSome ∧ ∃ uuid, row.providerSessionId = some uuid ∧
        ¬ Free roots row.provider row.providerNamespace uuid row.identityKey := by
  unfold uqConversationIdentityBound Free
  cases row.providerSessionId with
  | none => simp
  | some uuid =>
    cases row.providerNamespace with
    | none => simp
    | some ns => simp [Option.isSome_iff_ne_none]

/-- The publish as every caller makes it, without a namespace. -/
theorem publish_cases (key terminalId : String) (published locator : Option String)
    (lifecycle : Lifecycle) (db : Conversations) :
    (publishCurrentTerminal key terminalId published none locator lifecycle db).2 = db ∧
        (∀ root, db.roots.get key = some root → root.providerNamespace.isSome) ∨
      (publishCurrentTerminal key terminalId published none locator lifecycle db).2 =
        db.updateRoot key (publishPatch terminalId published none locator lifecycle) := by
  unfold publishCurrentTerminal
  cases hget : db.roots.get key with
  | none => exact .inl ⟨rfl, by simp⟩
  | some root =>
    dsimp only
    split
    · next huq =>
      refine .inl ⟨rfl, ?_⟩
      rintro root' ⟨⟩
      simpa [publishPatch] using (uqConversationIdentityBound_iff.mp huq).1
    · exact .inr rfl

theorem OneConversation.publish (h : OneConversation db.roots) (key terminalId : String)
    {published : Option String} (locator : Option String) (lifecycle : Lifecycle)
    (hfree : ∀ uuid root, published = some uuid → db.roots.get key = some root →
      Free db.roots root.provider root.providerNamespace uuid key) :
    OneConversation
      (publishCurrentTerminal key terminalId published none locator lifecycle db).2.roots := by
  obtain ⟨hdb, -⟩ | hdb :=
    publish_cases key terminalId published locator lifecycle db
  · rw [hdb]
    exact h
  · rw [hdb]
    refine h.updateKey _ fun root hget _ => ⟨rfl, ?_⟩
    cases published with
    | none => exact .inl ⟨by simp [publishPatch], by simp [publishPatch]⟩
    | some uuid =>
      refine .inr ?_
      rintro uuid' ⟨⟩
      exact hfree uuid root rfl hget

/-- The index rejects an id that another root has, where there is a namespace. -/
theorem publish_rejected (hget : db.roots.get key = some root) (terminalId : String)
    {uuid : String} (locator : Option String) (lifecycle : Lifecycle)
    (htaken : ¬ Free db.roots root.provider root.providerNamespace uuid key)
    (hns : root.providerNamespace.isSome) :
    (publishCurrentTerminal key terminalId (some uuid) none locator lifecycle db).2 = db := by
  have hkey : root.identityKey = key := Table.key_of_get hget
  unfold publishCurrentTerminal
  rw [hget]
  dsimp only
  rw [if_pos]
  rw [uqConversationIdentityBound_iff]
  exact ⟨by simpa [publishPatch] using hns, uuid, rfl, by simpa [publishPatch, hkey] using htaken⟩

/-- A publish of an id that another root has is rejected by the index, or gives the session to a
second root. -/
theorem publish_taken (hget : db.roots.get key = some root) (terminalId : String) {uuid : String}
    (locator : Option String) (lifecycle : Lifecycle)
    (htaken : ¬ Free db.roots root.provider root.providerNamespace uuid key)
    (hone : OneConversation
      (publishCurrentTerminal key terminalId (some uuid) none locator lifecycle db).2.roots) :
    (publishCurrentTerminal key terminalId (some uuid) none locator lifecycle db).2 = db ∧
      root.providerNamespace.isSome := by
  obtain ⟨hdb, hns⟩ | hdb :=
    publish_cases key terminalId (some uuid) locator lifecycle db
  · exact ⟨hdb, hns root hget⟩
  · refine absurd (free_iff.mpr ?_) htaken
    intro k other hother hprovider hnamespace huuid
    by_contra hk
    rw [hdb] at hone
    -- the row of the other root, and the row that has just been published
    have hkept : (db.updateRoot key (publishPatch terminalId (some uuid) none locator
        lifecycle)).roots.get k = some other := by
      simp [Conversations.updateRoot, Table.get_updateKey, hother, hk]
    have hwritten : (db.updateRoot key (publishPatch terminalId (some uuid) none locator
        lifecycle)).roots.get key =
          some ((publishPatch terminalId (some uuid) none locator lifecycle).apply root) := by
      simp [Conversations.updateRoot, Table.get_updateKey, hget]
    exact hk (hone k key _ _ hkept hwritten ⟨hprovider, by simp [publishPatch, hnamespace],
      by simp [huuid], by simp [publishPatch, huuid]⟩)

end Writers

end CliAgentOrchestrator.Conversation
