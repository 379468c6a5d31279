import CliAgentOrchestrator.Teardown.Intents

/-!
# A teardown in progress is marked, a dead one not for ever

The mark and the row of a scope belong to the scope and not to a bracket. A bracket stays marked by
the mark it set where the brackets of a scope are nested (`Nested`): the one that found no mark
when it came, and takes it back, leaves last. A scope is forgotten when its TTL has passed as long
as no row is written by the UPDATE, whose text outlasts the whole day (`OpensAnew`).
-/

set_option autoImplicit false

namespace CliAgentOrchestrator.Teardown

open Library

variable {epoch : Date} {h : Teardowns epoch} {s : Intents} {key : String}

/-! ## The properties -/

/-- While a bracket is inside its block and younger than its TTL, its key is active. -/
def MarkedWhileInside (h : Teardowns epoch) (now : Moment epoch) : Prop :=
  ∀ caller b id, h.brackets.find caller = some b → b.stage = .inside id → now.1 < b.deadline →
    b.scopeKey ∈ h.store.activeTeardownScopeKeys now true

/-- Once the TTL of every opening of a key has passed, the key is not active. Where there is one
TTL, that is the TTL of the latest opening. -/
def ForgottenAfterTtl (h : Teardowns epoch) (now : Moment epoch) : Prop :=
  ∀ key, (∀ o ∈ h.openings, o.scopeKey = key → o.deadline ≤ now.1) →
    key ∉ h.store.activeTeardownScopeKeys now true

/-! ## The conditions -/

/-- The bracket has set its mark, and its block has not ended. -/
def Stage.isOpen : Stage → Bool
  | .marked | .inside _ => true
  | .entered | .closed => false

/-- The bracket is open for `key` and younger than its TTL. -/
def Bracket.YoungFor (b : Bracket) (key : String) (now : Nat) : Prop :=
  b.scopeKey = key ∧ b.stage.isOpen = true ∧ now < b.deadline

instance (b : Bracket) (key : String) (now : Nat) : Decidable (b.YoungFor key now) :=
  inferInstanceAs (Decidable (_ ∧ _ ∧ _))

/-- The brackets of a key are nested. One that found no mark when it came takes the mark back when
no other young one is open, and no mark is set over one that lasts longer for a young one. -/
def Nested (h : Teardowns epoch) : Step → Prop
  | .mark caller => ∀ b ∈ h.brackets.find caller, b.stage = .entered → ∀ e ∈ h.brackets.rows,
      e.2.YoungFor b.scopeKey h.now.1 → e.2.deadline ≤ h.now.1 + b.resolvedTtl
  | .unmark caller => ∀ b ∈ h.brackets.find caller, b.stage = .closed → b.alreadyMarked = false →
      ∀ e ∈ h.brackets.rows, ¬ e.2.YoungFor b.scopeKey h.now.1
  | _ => True

instance (h : Teardowns epoch) : ∀ step, Decidable (Nested h step)
  | .mark caller => inferInstanceAs (Decidable (∀ b ∈ h.brackets.find caller, _))
  | .unmark caller => inferInstanceAs (Decidable (∀ b ∈ h.brackets.find caller, _))
  | .elapse _ | .enter .. | .openBracket .. | .openIntent .. | .extend _ | .returned _ | .raised _
  | .closeBracket .. | .closeIntent _ | .cleanup | .restart => .isTrue trivial

/-- The end of the day that a time is on. -/
def dayEnd (t : Moment epoch) : Nat := (t.1 / dayLength + 1) * dayLength

/-- No row is written by the UPDATE, unless another opening of the key lasts to the end of the
day on which the row is to expire. -/
def OpensAnew (h : Teardowns epoch) : Step → Prop
  | .extend caller => ∀ o ∈ h.reopenings.find caller, o.extended = false →
      h.store.rows.get (o.scopeKind, o.scopeKey) = none ∨
        ∃ other ∈ h.openings, other.scopeKey = o.scopeKey ∧ dayEnd o.expires ≤ other.deadline
  | _ => True

instance (h : Teardowns epoch) : ∀ step, Decidable (OpensAnew h step)
  | .extend caller => inferInstanceAs (Decidable (∀ o ∈ h.reopenings.find caller, _))
  | .elapse _ | .enter .. | .mark _ | .openBracket .. | .openIntent .. | .returned _ | .raised _
  | .closeBracket .. | .closeIntent _ | .unmark _ | .cleanup | .restart => .isTrue trivial

/-! ## What is active -/

/-- A key is active by a mark that has not expired or by a row whose text is above the clock's. -/
theorem mem_activeTeardownScopeKeys {now : Moment epoch} :
    key ∈ s.activeTeardownScopeKeys now true ↔
      (∃ deadline, s.marks.find key = some deadline ∧ now.1 < deadline) ∨
        ∃ r ∈ s.rows.rows, r.scopeKey = key ∧ stored now < r.expiresAt := by
  unfold Intents.activeTeardownScopeKeys Intents.activeMemoryMarks Table.delete Table.select
  rw [if_pos rfl, List.mem_append, List.mem_map, List.mem_map]
  constructor
  · rintro (⟨⟨k, deadline⟩, hmem, rfl⟩ | ⟨r, hmem, rfl⟩)
    · rw [List.mem_filter] at hmem
      exact .inl ⟨deadline, Dict.find_eq_some_iff.mpr hmem.1, by simpa using hmem.2⟩
    · rw [List.mem_filter] at hmem
      exact .inr ⟨r, hmem.1, rfl, by simpa using hmem.2⟩
  · rintro (⟨deadline, hfind, hnow⟩ | ⟨r, hr, rfl, hnow⟩)
    · refine .inl ⟨(key, deadline), ?_, rfl⟩
      rw [List.mem_filter]
      exact ⟨Dict.find_eq_some_iff.mp hfind, by simpa using hnow⟩
    · refine .inr ⟨r, ?_, rfl⟩
      rw [List.mem_filter]
      exact ⟨hr, by simpa using hnow⟩

/-! ## The transactions -/

theorem insertIntent_eq_some {id : Nat} {kind : ScopeKind} {expires : Moment epoch} {s' : Intents}
    (hinsert : s.insertIntent id kind key expires = some s') :
    s'.marks = s.marks ∧ s'.rows.rows = s.rows.rows ++ [⟨id, kind, key, stored expires⟩] := by
  unfold Intents.insertIntent at hinsert
  split at hinsert
  · cases hinsert
  · next hfree =>
    cases hinsert
    rw [Option.not_isSome_iff_eq_none] at hfree
    exact ⟨rfl, Table.rows_insert hfree⟩

theorem mem_extendIntent {kind : ScopeKind} {expires : Moment epoch} {r : TeardownIntent} :
    r ∈ (s.extendIntent kind key expires).rows.rows ↔
      (∃ r₀ ∈ s.rows.rows, r₀.scope = (kind, key) ∧ r = { r₀ with expiresAt := iso expires }) ∨
        r ∈ s.rows.rows ∧ r.scope ≠ (kind, key) := by
  simp only [Intents.extendIntent, Table.updateKey, Table.update, List.mem_map, Bool.and_true,
    decide_eq_true_eq]
  constructor
  · rintro ⟨r₀, hr₀, rfl⟩
    by_cases hscope : r₀.scope = (kind, key)
    · exact .inl ⟨r₀, hr₀, hscope, if_pos hscope⟩
    · rw [if_neg hscope]
      exact .inr ⟨hr₀, hscope⟩
  · rintro (⟨r₀, hr₀, hscope, rfl⟩ | ⟨hr, hscope⟩)
    · exact ⟨r₀, hr₀, if_pos hscope⟩
    · exact ⟨r, hr, if_neg hscope⟩

@[simp] theorem find_activeMemoryMarks (s : Intents) (now : Nat) (key : String) :
    (s.activeMemoryMarks now).marks.find key =
      (s.marks.find key).filter fun deadline => decide (now < deadline) := by
  rw [Intents.activeMemoryMarks, Dict.find, Dict.find, Table.get_delete]
  cases s.marks.get key with
  | none => rfl
  | some mark => by_cases hmark : now < mark.2 <;> simp [Option.filter, hmark]

/-! ## Brackets and their marks -/

/-- Every young bracket that is open has a mark to its end, and whoever waits for its UPDATE has not
entered its block. -/
structure Marked (h : Teardowns epoch) : Prop where
  lasts : ∀ c b, h.brackets.find c = some b → b.stage.isOpen = true → h.now.1 < b.deadline →
    ∃ deadline, h.store.marks.find b.scopeKey = some deadline ∧ b.deadline ≤ deadline
  waits : ∀ c b o, h.brackets.find c = some b → h.reopenings.find c = some o → b.stage = .marked

/-- What is marked up to its end is active until then. -/
theorem Marked.markedWhileInside (hm : Marked h) {now : Moment epoch} (hnow : h.now.1 ≤ now.1) :
    MarkedWhileInside h now := by
  intro caller b id hfound hinside hyoung
  rw [mem_activeTeardownScopeKeys]
  obtain ⟨deadline, hfind, hlast⟩ :=
    hm.lasts caller b hfound (by rw [hinside]; rfl) (hnow.trans_lt hyoung)
  exact .inl ⟨deadline, hfind, hyoung.trans_le hlast⟩

/-- Nothing but the clock, the marks, the brackets and the calls under way counts. -/
theorem Marked.congr {h' : Teardowns epoch} (hm : Marked h) (hnow : h'.now = h.now)
    (hmarks : h'.store.marks = h.store.marks) (hbrackets : h'.brackets = h.brackets)
    (hreopenings : h'.reopenings = h.reopenings) : Marked h' where
  lasts := by
    rw [hnow, hmarks, hbrackets]
    exact hm.lasts
  waits := by
    rw [hbrackets, hreopenings]
    exact hm.waits

/-- Where a bracket of a caller goes on to a stage. -/
theorem find_advance (h : Teardowns epoch) (caller c : Nat) (stage : Stage) :
    (h.advance caller stage).brackets.find c =
      if c = caller then (h.brackets.find caller).map fun b => { b with stage := stage }
      else h.brackets.find c := by
  unfold Teardowns.advance
  split
  · next hnone =>
    split
    · next hc => rw [hc, hnone]; rfl
    · rfl
  · next b hb => simp [hb]

@[simp] theorem advance_now (h : Teardowns epoch) (caller : Nat) (stage : Stage) :
    (h.advance caller stage).now = h.now := by
  unfold Teardowns.advance
  split <;> rfl

@[simp] theorem advance_store (h : Teardowns epoch) (caller : Nat) (stage : Stage) :
    (h.advance caller stage).store = h.store := by
  unfold Teardowns.advance
  split <;> rfl

@[simp] theorem advance_reopenings (h : Teardowns epoch) (caller : Nat) (stage : Stage) :
    (h.advance caller stage).reopenings = h.reopenings := by
  unfold Teardowns.advance
  split <;> rfl

@[simp] theorem advance_openings (h : Teardowns epoch) (caller : Nat) (stage : Stage) :
    (h.advance caller stage).openings = h.openings := by
  unfold Teardowns.advance
  split <;> rfl

/-- A bracket that goes on was open before, or is not open any more. -/
theorem Marked.advance (hm : Marked h) {caller : Nat} {stage : Stage}
    (hopen : ∀ b, h.brackets.find caller = some b → b.stage.isOpen = true ∨ stage.isOpen = false)
    (hfree : h.reopenings.find caller = none) : Marked (h.advance caller stage) where
  lasts := by
    intro c b hfound hstage hyoung
    rw [find_advance] at hfound
    rw [advance_now] at hyoung
    rw [advance_store]
    split at hfound
    · obtain ⟨b₀, hb₀, rfl⟩ := Option.map_eq_some_iff.mp hfound
      obtain hwas | hnot := hopen b₀ hb₀
      · exact hm.lasts caller b₀ hb₀ hwas hyoung
      · rw [show stage.isOpen = true from hstage] at hnot
        cases hnot
    · exact hm.lasts c b hfound hstage hyoung
  waits := by
    intro c b o hfound hwait
    rw [find_advance] at hfound
    rw [advance_reopenings] at hwait
    split at hfound
    · next hc =>
      rw [hc, hfree] at hwait
      cases hwait
    · exact hm.waits c b o hfound hwait

/-- A bracket comes, and expired marks are dropped. -/
theorem Marked.enter (hm : Marked h) {caller : Nat} {b : Bracket} (hentered : b.stage = .entered)
    (hfree : h.reopenings.find caller = none) :
    Marked { h with
      store := h.store.activeMemoryMarks h.now.1, brackets := h.brackets.assign caller b } where
  lasts := by
    intro c b' hfound hstage hyoung
    rw [Dict.find_assign] at hfound
    split at hfound
    · cases hfound
      rw [hentered] at hstage
      cases hstage
    · obtain ⟨deadline, hfind, hlast⟩ := hm.lasts c b' hfound hstage hyoung
      have hactive : h.now.1 < deadline := hyoung.trans_le hlast
      exact ⟨deadline, by simp [hfind, Option.filter, hactive], hlast⟩
  waits := by
    intro c b' o hfound hwait
    rw [Dict.find_assign] at hfound
    split at hfound
    · next hc =>
      rw [hc, hfree] at hwait
      cases hwait
    · exact hm.waits c b' o hfound hwait

/-- A bracket sets its mark, which the others of its key can go on with. -/
theorem Marked.mark (hm : Marked h) {caller : Nat} {b : Bracket}
    (hfound : h.brackets.find caller = some b) (hentered : b.stage = .entered)
    (hnested : Nested h (.mark caller)) : Marked (h.exec (.mark caller)) := by
  simp only [Teardowns.exec, hfound, hentered, if_true]
  refine ⟨fun c b' hfound' hstage hyoung => ?_, fun c b' o hfound' hwait => ?_⟩
  · rw [Dict.find_assign] at hfound'
    simp only [Intents.markTeardown, Dict.find_assign]
    split at hfound'
    · cases hfound'
      exact ⟨_, if_pos rfl, le_rfl⟩
    · by_cases hkey : b'.scopeKey = b.scopeKey
      · refine ⟨_, if_pos hkey, ?_⟩
        exact hnested b hfound hentered (c, b') (Dict.find_eq_some_iff.mp hfound')
          ⟨hkey, hstage, hyoung⟩
      · rw [if_neg hkey]
        exact hm.lasts c b' hfound' hstage hyoung
  · rw [Dict.find_assign] at hfound'
    split at hfound'
    · cases hfound'
      rfl
    · exact hm.waits c b' o hfound' hwait

/-- The first transaction of `open_intent` writes no mark, and the caller goes on as it was. -/
theorem Marked.beginOpen (hm : Marked h) {caller id expires : Nat} {kind : ScopeKind}
    (hmarked : ∀ b, h.brackets.find caller = some b → b.stage = .marked)
    (hfree : h.reopenings.find caller = none) :
    Marked (h.beginOpen caller id kind key expires) := by
  have hopen (stage : Stage) : ∀ b, h.brackets.find caller = some b →
      b.stage.isOpen = true ∨ stage.isOpen = false := by
    intro b hfound
    rw [hmarked b hfound]
    exact .inl rfl
  unfold Teardowns.beginOpen
  split
  · split
    · next s' hinsert =>
      have hinserted : Marked { h with store := s', openings := ⟨key, expires⟩ :: h.openings } :=
        hm.congr rfl (insertIntent_eq_some hinsert).1 rfl rfl
      exact hinserted.advance (hopen _) hfree
    · refine ⟨hm.lasts, fun c b o hfound hwait => ?_⟩
      rw [Dict.find_assign] at hwait
      split at hwait
      · next hc => exact hmarked b (hc ▸ hfound)
      · exact hm.waits c b o hfound hwait
  · exact hm.advance (hopen _) hfree

/-- A call that ran into a row is over. -/
theorem Marked.popReopening (hm : Marked h) (caller : Nat) :
    Marked { h with reopenings := h.reopenings.pop caller } := by
  refine ⟨hm.lasts, fun c b o hfound hwait => ?_⟩
  rw [Dict.find_pop] at hwait
  split at hwait
  · cases hwait
  · exact hm.waits c b o hfound hwait

/-- A bracket leaves, and takes back a mark that no other young one lives on. -/
theorem Marked.unmark (hm : Marked h) {caller : Nat} {b : Bracket}
    (hfound : h.brackets.find caller = some b) (hclosed : b.stage = .closed)
    (hnested : Nested h (.unmark caller)) : Marked (h.exec (.unmark caller)) := by
  simp only [Teardowns.exec, hfound, hclosed, if_true]
  have hbefore {c : Nat} {b' : Bracket} (h' : (h.brackets.pop caller).find c = some b') :
      h.brackets.find c = some b' := by
    rw [Dict.find_pop] at h'
    split at h'
    · cases h'
    · exact h'
  refine ⟨fun c b' hfound' hstage hyoung => ?_, fun c b' o hfound' hwait =>
    hm.waits c b' o (hbefore hfound') hwait⟩
  have hlasts := hm.lasts c b' (hbefore hfound') hstage hyoung
  cases halready : b.alreadyMarked with
  | true => exact hlasts
  | false =>
    have hkey : b'.scopeKey ≠ b.scopeKey := fun hkey =>
      hnested b hfound hclosed halready (c, b') (Dict.find_eq_some_iff.mp (hbefore hfound'))
        ⟨hkey, hstage, hyoung⟩
    simpa [Intents.unmarkTeardown, hkey] using hlasts

/-- Where brackets are nested, a step keeps every young one marked. -/
theorem Marked.exec (hm : Marked h) {step : Step} (hnested : Nested h step) :
    Marked (h.exec step) := by
  cases step with
  | elapse dt =>
    simp only [Teardowns.exec]
    split
    · exact ⟨fun c b hfound hstage hyoung =>
        hm.lasts c b hfound hstage (lt_of_le_of_lt (Nat.le_add_right _ _) hyoung), hm.waits⟩
    · exact hm
  | enter caller kind key ttl =>
    simp only [Teardowns.exec]
    split
    · next hnew =>
      rw [Bool.and_eq_true, Option.isNone_iff_eq_none, Option.isNone_iff_eq_none] at hnew
      exact hm.enter rfl hnew.2
    · exact hm
  | mark caller =>
    cases hfound : h.brackets.find caller with
    | none => simpa only [Teardowns.exec, hfound] using hm
    | some b =>
      by_cases hentered : b.stage = .entered
      · exact hm.mark hfound hentered hnested
      · simpa only [Teardowns.exec, hfound, hentered, if_false] using hm
  | openBracket caller id readAt =>
    simp only [Teardowns.exec]
    split
    · next b hfound =>
      split
      · next hcan =>
        obtain ⟨hmarked, hcan⟩ := hcan
        simp only [Teardowns.mayOpen, Bool.and_eq_true, Option.isNone_iff_eq_none] at hcan
        refine hm.beginOpen (fun b' hfound' => ?_) hcan.1
        cases hfound.symm.trans hfound'
        exact hmarked
      · exact hm
    · exact hm
  | openIntent caller kind key ttl id readAt =>
    simp only [Teardowns.exec]
    split
    · next hcan =>
      simp only [Teardowns.mayOpen, Bool.and_eq_true, Option.isNone_iff_eq_none] at hcan
      refine hm.beginOpen (fun b hfound => ?_) hcan.2.1
      rw [hcan.1] at hfound
      cases hfound
    · exact hm
  | extend caller =>
    simp only [Teardowns.exec]
    split
    · next o hfind =>
      split
      · exact hm
      · refine ⟨hm.lasts, fun c b o' hfound hwait => ?_⟩
        rw [Dict.find_assign] at hwait
        split at hwait
        · next hc => exact hm.waits c b o hfound (hc ▸ hfind)
        · exact hm.waits c b o' hfound hwait
    · exact hm
  | returned caller =>
    simp only [Teardowns.exec]
    split
    · next o hfind =>
      split
      · refine (hm.popReopening caller).advance (fun b hfound => .inl ?_) (by simp)
        rw [hm.waits caller b o hfound hfind]
        rfl
      · exact hm
    · exact hm
  | raised caller =>
    simp only [Teardowns.exec]
    split
    · next b hfound =>
      split
      · next hmarked =>
        refine (hm.popReopening caller).advance (fun b' hfound' => .inl ?_) (by simp)
        cases hfound.symm.trans hfound'
        rw [hmarked]
        rfl
      · exact hm
    · exact hm.popReopening caller
  | closeBracket caller ok =>
    simp only [Teardowns.exec]
    split
    · next b hfound =>
      have hfree : b.stage ≠ .marked → h.reopenings.find caller = none := by
        intro hstage
        cases hwait : h.reopenings.find caller with
        | none => rfl
        | some o => exact absurd (hm.waits caller b o hfound hwait) hstage
      split
      · next hinside => exact hm.advance (fun _ _ => .inr rfl) (hfree (by simp [hinside]))
      · next id hinside =>
        have hclosed : Marked (h.advance caller .closed) :=
          hm.advance (fun _ _ => .inr rfl) (hfree (by simp [hinside]))
        exact hclosed.congr rfl (by cases ok <;> rfl) rfl rfl
      · exact hm
    · exact hm
  | unmark caller =>
    cases hfound : h.brackets.find caller with
    | none => simpa only [Teardowns.exec, hfound] using hm
    | some b =>
      by_cases hclosed : b.stage = .closed
      · exact hm.unmark hfound hclosed hnested
      · simpa only [Teardowns.exec, hfound, hclosed, if_false] using hm
  | restart =>
    constructor
    · intro c b hfound
      cases hfound
    · intro c b o hfound
      cases hfound
  | _ => exact hm.congr rfl rfl rfl rfl

/-! ## What is active was opened -/

/-- Every mark and every row that is active has an opening whose TTL has not passed. -/
structure Opened (h : Teardowns epoch) : Prop where
  marks : ∀ key deadline, h.store.marks.find key = some deadline →
    ∃ o ∈ h.openings, o.scopeKey = key ∧ deadline ≤ o.deadline
  rows : ∀ r ∈ h.store.rows.rows, ∀ t : Moment epoch, stored t < r.expiresAt →
    ∃ o ∈ h.openings, o.scopeKey = r.scopeKey ∧ t.1 < o.deadline

/-- What is active is forgotten with its last opening. -/
theorem Opened.forgottenAfterTtl (ho : Opened h) (now : Moment epoch) :
    ForgottenAfterTtl h now := by
  intro key hpassed hactive
  rw [mem_activeTeardownScopeKeys] at hactive
  obtain ⟨deadline, hfind, hnow⟩ | ⟨r, hr, rfl, hnow⟩ := hactive
  · obtain ⟨o, hmem, hkey, hle⟩ := ho.marks key deadline hfind
    have hover := hpassed o hmem hkey
    omega
  · obtain ⟨o, hmem, hkey, hlt⟩ := ho.rows r hr now hnow
    have hover := hpassed o hmem hkey
    omega

/-- Marks and rows may go, and openings may come. -/
theorem Opened.mono {h' : Teardowns epoch} (ho : Opened h)
    (hmarks : ∀ key deadline, h'.store.marks.find key = some deadline →
      h.store.marks.find key = some deadline)
    (hrows : ∀ r ∈ h'.store.rows.rows, r ∈ h.store.rows.rows)
    (hopenings : ∀ o ∈ h.openings, o ∈ h'.openings) : Opened h' := by
  constructor
  · intro key deadline hfind
    obtain ⟨o, hmem, hrest⟩ := ho.marks key deadline (hmarks key deadline hfind)
    exact ⟨o, hopenings o hmem, hrest⟩
  · intro r hr t ht
    obtain ⟨o, hmem, hrest⟩ := ho.rows r (hrows r hr) t ht
    exact ⟨o, hopenings o hmem, hrest⟩

theorem Opened.congr {h' : Teardowns epoch} (ho : Opened h) (hstore : h'.store = h.store)
    (hopenings : h'.openings = h.openings) : Opened h' := by
  refine ho.mono (fun key deadline hfind => ?_) (fun r hr => ?_) fun o hmem => ?_
  · rwa [hstore] at hfind
  · rwa [hstore] at hr
  · rwa [hopenings]

/-- A mark lasts as long as the TTL of its opening. -/
theorem Opened.mark (ho : Opened h) {deadline : Nat} :
    Opened { h with
      store := h.store.markTeardown key deadline, openings := ⟨key, deadline⟩ :: h.openings } := by
  constructor
  · intro key' d hfind
    simp only [Intents.markTeardown, Dict.find_assign] at hfind
    split at hfind
    · next hkey =>
      cases hfind
      exact ⟨_, List.mem_cons_self, hkey.symm, le_rfl⟩
    · obtain ⟨o, hmem, hrest⟩ := ho.marks key' d hfind
      exact ⟨o, List.mem_cons_of_mem _ hmem, hrest⟩
  · intro r hr t ht
    obtain ⟨o, hmem, hrest⟩ := ho.rows r hr t ht
    exact ⟨o, List.mem_cons_of_mem _ hmem, hrest⟩

/-- The row of an INSERT is active exactly while its TTL runs. -/
theorem Opened.insert (ho : Opened h) {id : Nat} {kind : ScopeKind} {expires : Moment epoch}
    {s' : Intents} (hinsert : h.store.insertIntent id kind key expires = some s') :
    Opened { h with store := s', openings := ⟨key, expires.1⟩ :: h.openings } := by
  obtain ⟨hmarks, hrows⟩ := insertIntent_eq_some hinsert
  constructor
  · intro key' deadline hfind
    rw [hmarks] at hfind
    obtain ⟨o, hmem, hrest⟩ := ho.marks key' deadline hfind
    exact ⟨o, List.mem_cons_of_mem _ hmem, hrest⟩
  · intro r hr t ht
    rw [hrows, List.mem_append, List.mem_singleton] at hr
    obtain hold | rfl := hr
    · obtain ⟨o, hmem, hrest⟩ := ho.rows r hold t ht
      exact ⟨o, List.mem_cons_of_mem _ hmem, hrest⟩
    · exact ⟨_, List.mem_cons_self, rfl, (stored_lt_stored_iff t expires).mp ht⟩

theorem Opened.beginOpen (ho : Opened h) {caller id expires : Nat} {kind : ScopeKind} :
    Opened (h.beginOpen caller id kind key expires) := by
  unfold Teardowns.beginOpen
  split
  · split
    · next s' hinsert => exact (ho.insert hinsert).congr (advance_store ..) (advance_openings ..)
    · exact ho.congr rfl rfl
  · exact ho.congr (advance_store ..) (advance_openings ..)

/-- What the UPDATE writes is active up to the end of the day. -/
theorem lt_dayEnd {t u : Moment epoch} (ht : stored t < iso u) : t.1 < dayEnd u := by
  rw [stored_lt_iso_iff] at ht
  unfold dayEnd
  unfold dayLength at ht ⊢
  omega

/-- The UPDATE writes no row, or one that another opening outlasts. -/
theorem Opened.extend (ho : Opened h) {caller : Nat} {o : Reopening epoch}
    (hfind : h.reopenings.find caller = some o) (hfirst : o.extended = false)
    (hanew : OpensAnew h (.extend caller)) {openings : List Opening}
    (hopenings : ∀ x ∈ h.openings, x ∈ openings) {reopenings : Dict Nat (Reopening epoch)} :
    Opened { h with
      store := h.store.extendIntent o.scopeKind o.scopeKey o.expires
      reopenings := reopenings
      openings := openings } := by
  constructor
  · intro key deadline hmark
    obtain ⟨x, hx, hrest⟩ := ho.marks key deadline hmark
    exact ⟨x, hopenings x hx, hrest⟩
  · intro r hr t ht
    obtain ⟨r₀, hr₀, hscope, rfl⟩ | ⟨hr, -⟩ := mem_extendIntent.mp hr
    · obtain hnone | ⟨other, hother, hkey, hle⟩ := hanew o hfind hfirst
      · exact ((Table.get_eq_none_iff _ _).mp hnone r₀ hr₀ hscope).elim
      · refine ⟨other, hopenings other hother, ?_, (lt_dayEnd ht).trans_le hle⟩
        rw [hkey]
        exact (congrArg Prod.snd hscope).symm
    · obtain ⟨x, hx, hrest⟩ := ho.rows r hr t ht
      exact ⟨x, hopenings x hx, hrest⟩

/-- Where the UPDATE opens nothing, a step keeps what is active opened. -/
theorem Opened.exec (ho : Opened h) {step : Step} (hanew : OpensAnew h step) :
    Opened (h.exec step) := by
  have hclose (id : Nat) {h' : Teardowns epoch} (hstore : h'.store = h.store.closeIntent id)
      (hopenings : h'.openings = h.openings) : Opened h' := by
    refine ho.mono (fun key deadline hfind => ?_) (fun r hr => ?_) fun o hmem => ?_
    · rwa [hstore] at hfind
    · rw [hstore] at hr
      exact (List.mem_filter.mp hr).1
    · rwa [hopenings]
  cases step with
  | elapse dt =>
    simp only [Teardowns.exec]
    split <;> exact ho.congr rfl rfl
  | enter caller kind key ttl =>
    simp only [Teardowns.exec]
    split
    · refine ho.mono (fun key deadline hfind => ?_) (fun _ hr => hr) fun _ hmem => hmem
      simp only [find_activeMemoryMarks] at hfind
      exact (Option.filter_eq_some_iff.mp hfind).1
    · exact ho
  | mark caller =>
    simp only [Teardowns.exec]
    split
    · split
      · exact ho.mark.congr rfl rfl
      · exact ho
    · exact ho
  | openBracket caller id readAt =>
    simp only [Teardowns.exec]
    split
    · split
      · exact ho.beginOpen
      · exact ho
    · exact ho
  | openIntent caller kind key ttl id readAt =>
    simp only [Teardowns.exec]
    split
    · exact ho.beginOpen
    · exact ho
  | extend caller =>
    simp only [Teardowns.exec]
    split
    · next o hfind =>
      split
      · exact ho
      · next hfirst =>
        refine ho.extend hfind (Bool.not_eq_true _ ▸ hfirst) hanew fun x hx => ?_
        split
        · exact List.mem_cons_of_mem _ hx
        · exact hx
    · exact ho
  | returned caller =>
    simp only [Teardowns.exec]
    split
    · split
      · exact ho.congr (advance_store ..) (advance_openings ..)
      · exact ho
    · exact ho
  | raised caller =>
    simp only [Teardowns.exec]
    split
    · split
      · exact ho.congr (advance_store ..) (advance_openings ..)
      · exact ho
    · exact ho.congr rfl rfl
  | closeBracket caller ok =>
    simp only [Teardowns.exec]
    split
    · split
      · exact ho.congr (advance_store ..) (advance_openings ..)
      · next id _ =>
        cases ok with
        | false => exact ho.congr (advance_store ..) (advance_openings ..)
        | true =>
          refine hclose id ?_ (advance_openings ..)
          rw [← advance_store h caller .closed]
          rfl
      · exact ho
    · exact ho
  | closeIntent id => exact hclose id rfl rfl
  | unmark caller =>
    simp only [Teardowns.exec]
    split
    · split
      · refine ho.mono (fun key deadline hfind => ?_) (fun r hr => ?_) fun _ hmem => hmem
        · split at hfind
          · exact hfind
          · simp only [Intents.unmarkTeardown, Dict.find_pop] at hfind
            split at hfind
            · cases hfind
            · exact hfind
        · split at hr <;> exact hr
      · exact ho
    · exact ho
  | cleanup =>
    refine ho.mono (fun _ _ hfind => hfind) (fun r hr => ?_) fun _ hmem => hmem
    simp only [Teardowns.exec, Intents.deleteExpired, Table.delete] at hr
    exact (List.mem_filter.mp hr).1
  | restart =>
    refine ho.mono (fun key deadline hfind => ?_) (fun _ hr => hr) fun _ hmem => hmem
    cases hfind

/-! ## Runs -/

/-- In a run whose brackets are nested and whose calls open anew, every bracket inside its block is
marked while it is younger than its TTL, and every key is forgotten when its TTL has passed: in
each state reached, and at each later time. -/
theorem teardowns_marked (start : Moment epoch) (steps : List Step)
    (hsteps : StepsSatisfy Teardowns.exec (fun h step => Nested h step ∧ OpensAnew h step)
      (Teardowns.start start) steps) :
    ∀ before after, steps = before ++ after → ∀ now : Moment epoch,
      (run Teardowns.exec (Teardowns.start start) before).now.1 ≤ now.1 →
        MarkedWhileInside (run Teardowns.exec (Teardowns.start start) before) now ∧
          ForgottenAfterTtl (run Teardowns.exec (Teardowns.start start) before) now := by
  rintro before after rfl now hnow
  rw [stepsSatisfy_append] at hsteps
  have hstart : Marked (Teardowns.start start) ∧ Opened (Teardowns.start start) := by
    refine ⟨⟨fun c b hfound => ?_, fun c b o hfound => ?_⟩, fun key deadline hfind => ?_,
      fun r hr => ?_⟩
    · cases hfound
    · cases hfound
    · cases hfind
    · cases hr
  have hboth := run_invariant_of _ (fun h => Marked h ∧ Opened h)
    (fun h step hstep hs => ⟨hs.1.exec hstep.1, hs.2.exec hstep.2⟩) _ hstart before hsteps.1
  exact ⟨hboth.1.markedWhileInside hnow, hboth.2.forgottenAfterTtl now⟩

def october : Date := ⟨2026, 10, 1, by decide, by decide⟩

/-- Noon of the first day. -/
def noon : Moment october := ⟨43200000000, by decide⟩

/-- A bracket comes while another one of its session is inside, runs into the row of both, which
somebody closes before the UPDATE, and leaves before it. -/
def nestedTwice : List Step :=
  [.enter 1 .session "cao-dev" 300000000, .mark 1, .openBracket 1 71 43200000000,
    .elapse 1000000, .enter 2 .session "cao-dev" 300000000, .mark 2,
    .openBracket 2 72 43201000000, .closeIntent 71, .extend 2, .returned 2, .elapse 1000000,
    .closeBracket 2 true, .unmark 2, .elapse 1000000, .closeBracket 1 true, .unmark 1]

/-- The first bracket of `nestedTwice` is inside its block without a row when the second has left,
and the session is marked. -/
theorem teardowns_marked_nested :
    (run Teardowns.exec (Teardowns.start noon) (nestedTwice.take 14)).store.rows.rows = [] ∧
      "cao-dev" ∈ (run Teardowns.exec (Teardowns.start noon)
        (nestedTwice.take 14)).store.activeTeardownScopeKeys
          (run Teardowns.exec (Teardowns.start noon) (nestedTwice.take 14)).now true := by
  refine ⟨by decide +kernel, ?_⟩
  have hmarked := (teardowns_marked noon nestedTwice (by decide +kernel) (nestedTwice.take 14)
    (nestedTwice.drop 14) (List.take_append_drop 14 _).symm _ le_rfl).1
  exact hmarked 1 ⟨.session, "cao-dev", 300000000, 43200000000, false, .inside (some 71)⟩ _
    (by decide +kernel) rfl (by decide +kernel)

/-- A session is torn down twice at once: the first bracket closes the row that both share, and
takes back the mark that it had set before the second came. -/
def overlapping : List Step :=
  [.enter 1 .session "cao-dev" 300000000, .mark 1, .openBracket 1 71 43200000000,
    .elapse 1000000, .enter 2 .session "cao-dev" 300000000, .mark 2,
    .openBracket 2 72 43201000000, .extend 2, .returned 2, .closeBracket 1 true, .unmark 1]

/-- A teardown dies with its process, and so does the next one; ten hours pass. -/
def dyingTwice : List Step :=
  [.enter 1 .session "cao-dev" 300000000, .mark 1, .openBracket 1 71 43200000000, .restart,
    .enter 2 .session "cao-dev" 300000000, .mark 2, .openBracket 2 72 43200000000, .extend 2,
    .returned 2, .restart, .elapse 36000000000]

/-- The second bracket of `overlapping` is inside its block, one second old, and not marked; the
session of `dyingTwice` is marked ten hours later. -/
theorem teardowns_unmarked_and_stuck :
    (¬ ∀ (epoch : Date) (start : Moment epoch) (steps : List Step),
      MarkedWhileInside (run Teardowns.exec (Teardowns.start start) steps)
        (run Teardowns.exec (Teardowns.start start) steps).now) ∧
    ¬ ∀ (epoch : Date) (start : Moment epoch) (steps : List Step),
      ForgottenAfterTtl (run Teardowns.exec (Teardowns.start start) steps)
        (run Teardowns.exec (Teardowns.start start) steps).now := by
  constructor
  · intro h
    have hfound : (run Teardowns.exec (Teardowns.start noon) overlapping).brackets.find 2 =
        some ⟨.session, "cao-dev", 300000000, 43201000000, true, .inside (some 71)⟩ := by
      decide +kernel
    have hgone : "cao-dev" ∉ (run Teardowns.exec (Teardowns.start noon)
        overlapping).store.activeTeardownScopeKeys
          (run Teardowns.exec (Teardowns.start noon) overlapping).now true := by
      decide +kernel
    exact hgone (h october noon overlapping 2 _ _ hfound rfl (by decide +kernel))
  · intro h
    have hover : ∀ o ∈ (run Teardowns.exec (Teardowns.start noon) dyingTwice).openings,
        o.scopeKey = "cao-dev" →
          o.deadline ≤ (run Teardowns.exec (Teardowns.start noon) dyingTwice).now.1 := by
      decide +kernel
    have hactive : "cao-dev" ∈ (run Teardowns.exec (Teardowns.start noon)
        dyingTwice).store.activeTeardownScopeKeys
          (run Teardowns.exec (Teardowns.start noon) dyingTwice).now true := by
      decide +kernel
    exact h october noon dyingTwice "cao-dev" hover hactive

end CliAgentOrchestrator.Teardown
