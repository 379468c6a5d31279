import CliAgentOrchestrator.Archive.Bundle

/-!
# Real runs and dry runs

What a real import does with a file and what a dry run says of it, from the same base. The two part
where `store` refuses a file at the end of the pipeline: a topic to be replaced is forgotten by
then, and the dry run has not called `store`.
-/

set_option autoImplicit false

namespace CliAgentOrchestrator.Archive

open Library Memory

/-! ## What a file comes to -/

/-- The call of `store` a file leads to and the topic it is for, where it gets so far. -/
def Setting.coming (g : Setting) (f : BundleFile) : Option (StoreArgs × TopicId) :=
  if f.reserved || f.outside || f.rel.contains 47 then none
  else
    f.post.bind fun post => (handed f.stem post).bind fun h =>
      let a := g.storeArgs f.stem h
      if a.screened then none else a.named.map fun t => (a, t)

/-- The path of the topic is refused, which no run catches. -/
def Setting.unnamed (g : Setting) (f : BundleFile) : Bool :=
  !(f.reserved || f.outside || f.rel.contains 47)
    && (f.post.bind fun post => (handed f.stem post).map fun h =>
      let a := g.storeArgs f.stem h
      !a.screened && a.named.isNone).getD false

/-- Why `store` will not take the file: the caller may not write the scope, the time has no UTC
form, the topic's section times are no dates, the tags are no template, or the text has no UTF-8
form. None where it will, or where the file is not written. -/
def Setting.refusal (g : Setting) (f : BundleFile) (b : Base) : Option Refusal :=
  (g.coming f).bind fun (a, t) =>
    if (b.files t).isSome ∧ g.policy = .skip then none
    else if scopeWriteAllowed (resolveCallerScope g.callerScope) g.scope then
      match storeText t.key a.fresh a.entry a.now (g.addedTo (b.files t)) with
      | .error fault => some (refusalOf fault)
      | .ok _ => none
    else some .other

/-- A real run ends at the file. -/
def Setting.raises (g : Setting) (f : BundleFile) (b : Base) : Prop :=
  g.unnamed f = true ∨ g.refusal f b = some .other

/-- The file is to take the place of a topic that is there. -/
def Setting.replaces (g : Setting) (f : BundleFile) (b : Base) : Prop :=
  g.policy = .replace ∧ ∃ a t, g.coming f = some (a, t) ∧ (b.files t).isSome

/-! ## The property -/

/-- The topic's file, the index of its container and its metadata row. -/
def Untouched (b b' : Base) (t : TopicId) : Prop :=
  b'.files t = b.files t ∧ b'.index t.container = b.index t.container
    ∧ b'.metadata (t.scope, t.scopeId, t.key) = b.metadata (t.scope, t.scopeId, t.key)

/-- A file that is rejected or at which the import raises leaves the topic of its key as it was. -/
def Setting.Atomic (g : Setting) (files : List BundleFile) (b : Base) : Prop :=
  ∀ before f after, files = before ++ f :: after →
    (g.importFiles false before b).raised = false →
      ∀ t, TopicId.ofNames g.scope g.scopeId f.stem = some t →
        (g.importFile false f (g.importFiles false before b).base).raised = true
          ∨ (g.importFile false f (g.importFiles false before b).base).report.rejected ≠ 0 →
        Untouched (g.importFiles false before b).base
          (g.importFile false f (g.importFiles false before b).base).base t

/-- The dry run raises only where the real run does, and their reports are the same. -/
def Setting.Foretold (g : Setting) (files : List BundleFile) (b : Base) : Prop :=
  ((g.importFiles true files b).raised = true → (g.importFiles false files b).raised = true)
    ∧ ((g.importFiles true files b).raised = false → (g.importFiles false files b).raised = false →
      (g.importFiles true files b).report = (g.importFiles false files b).report)

/-- No file that replaces a topic is refused, up to the first that makes the import raise; and if
none makes it raise, none is refused. -/
def Setting.Acceptable (g : Setting) (files : List BundleFile) (b : Base) : Prop :=
  (∀ before f after, files = before ++ f :: after → (∀ e ∈ before, ¬ g.raises e b) →
      g.replaces f b → g.refusal f b = none)
    ∧ ((∀ f ∈ files, ¬ g.raises f b) → ∀ f ∈ files, g.refusal f b = none)

/-! ## The topic of a file -/

theorem Setting.scopeId_of (g : Setting) : (if g.scope.hasId then g.scopeId else none) = g.scopeId := by
  split_ifs with hid
  · rfl
  · have hnone := g.id_isSome
    rw [Bool.eq_false_iff.mpr hid, Option.isSome_eq_false_iff, Option.isNone_iff_eq_none] at hnone
    exact hnone.symm

theorem ofNames_eq_some {scope : Scope} {scopeId : Option Text} {key : Text} {t : TopicId}
    (h : TopicId.ofNames scope scopeId key = some t) :
    t.scope = scope ∧ t.scopeId = scopeId ∧ t.key = key := by
  unfold TopicId.ofNames at h
  split_ifs at h with hnames
  cases h
  exact ⟨rfl, rfl, rfl⟩

/-- What comes to the write is a `store` of the file's stem, past the credential gate. -/
theorem coming_eq_some {g : Setting} {f : BundleFile} {a : StoreArgs} {t : TopicId}
    (h : g.coming f = some (a, t)) :
    f.reserved = false ∧ f.outside = false ∧ f.rel.contains 47 = false
      ∧ sanitizeKey f.stem = some f.stem
      ∧ TopicId.ofNames g.scope g.scopeId f.stem = some t
      ∧ ∃ post h, f.post = some post ∧ handed f.stem post = some h ∧ a = g.storeArgs f.stem h
        ∧ a.screened = false ∧ a.named = some t := by
  unfold Setting.coming at h
  split_ifs at h with hpassed
  obtain ⟨post, hpost, h⟩ := Option.bind_eq_some_iff.mp h
  obtain ⟨hand, hhanded, h⟩ := Option.bind_eq_some_iff.mp h
  simp only at h
  split_ifs at h with hscreened
  obtain ⟨t', hnamed, heq⟩ := Option.map_eq_some_iff.mp h
  obtain ⟨rfl, rfl⟩ := Prod.mk.inj heq
  rw [Bool.not_eq_true, Bool.or_eq_false_iff, Bool.or_eq_false_iff] at hpassed
  have hkey : sanitizeKey f.stem = some f.stem := by
    unfold handed at hhanded
    split_ifs at hhanded with hkey
    exact hkey
  refine ⟨hpassed.1.1, hpassed.1.2, hpassed.2, hkey, ?_, post, hand, hpost, hhanded, rfl,
    Bool.eq_false_iff.mpr hscreened, hnamed⟩
  simp only [StoreArgs.named, Setting.storeArgs, hkey, Option.bind_some] at hnamed
  have hnames : TopicId.ofNames g.scope (if g.scope.hasId then g.scopeId else none) f.stem
      = some t' := hnamed
  rw [g.scopeId_of] at hnames
  exact hnames

/-- Two files of a bundle with one stem are one. -/
theorem rel_eq_of_stem {f e : BundleFile} (hf : text ".md" <:+ f.rel) (he : text ".md" <:+ e.rel)
    (hkey : sanitizeKey f.stem = some f.stem) (h : f.stem = e.stem) : f.rel = e.rel := by
  have hdot : sanitizeKey (text ".md") ≠ some (text ".md") := by decide
  have hstem : ∀ {x : BundleFile}, text ".md" <:+ x.rel → x.stem ≠ text ".md" →
      x.rel = x.stem ++ text ".md" := by
    intro x hx hne
    obtain ⟨front, hfront⟩ := hx
    unfold BundleFile.stem at hne ⊢
    split_ifs at hne ⊢ with hrel
    · exact absurd hrel hne
    · have hlength : x.rel.length - 3 = front.length := by
        rw [← hfront, List.length_append]
        rfl
      rw [hlength, ← hfront, List.take_left]
  have hne : f.stem ≠ text ".md" := by
    intro heq
    rw [heq] at hkey
    exact hdot hkey
  rw [hstem hf hne, hstem he (h ▸ hne), h]

/-! ## One file -/

/-- A file is decided before the base is looked at, or it leads to a topic: then it is passed over
where the topic is there, or comes to the write. -/
theorem importFile_cases (g : Setting) (f : BundleFile) :
    (∃ r, g.coming f = none ∧ ∀ dry b, g.importFile dry f b = ⟨b, r, g.unnamed f⟩)
      ∨ ∃ a t r, g.coming f = some (a, t) ∧ g.unnamed f = false ∧ r.rejected = 0
          ∧ ∀ dry b, g.importFile dry f b =
            if (b.files t).isSome ∧ g.policy = .skip then
              ⟨b, { r with skippedConflict := 1 }, false⟩
            else g.write dry f a t b r := by
  unfold Setting.coming Setting.unnamed Setting.importFile
  cases hreserved : f.reserved with
  | true => exact .inl ⟨_, rfl, fun _ _ => rfl⟩
  | false =>
    cases houtside : f.outside with
    | true => exact .inl ⟨_, rfl, fun _ _ => rfl⟩
    | false =>
      cases hnested : f.rel.contains 47 with
      | true => exact .inl ⟨_, rfl, fun _ _ => rfl⟩
      | false =>
        simp only [Bool.or_self, Bool.false_eq_true, if_false, Bool.not_false, Bool.true_and]
        unfold Setting.importOne
        cases hpost : f.post with
        | none => exact .inl ⟨_, rfl, fun _ _ => rfl⟩
        | some post =>
          simp only [Option.bind_some]
          cases hhanded : handed f.stem post with
          | none => exact .inl ⟨_, rfl, fun _ _ => rfl⟩
          | some h =>
            simp only [Option.bind_some, Option.map_some, Option.getD_some]
            cases hscreened : (g.storeArgs f.stem h).screened with
            | true => exact .inl ⟨_, rfl, fun _ _ => rfl⟩
            | false =>
              cases hnamed : (g.storeArgs f.stem h).named with
              | none => exact .inl ⟨_, rfl, fun _ _ => rfl⟩
              | some t => exact .inr ⟨_, t, bodyReport post, rfl, rfl, rfl, fun _ _ => rfl⟩

/-- The file `store` finds is the one that is added to. -/
theorem cleared_files (g : Setting) (key : Text) (t : TopicId) (b : Base) :
    (g.cleared key t b).files t = g.addedTo (b.files t)
      ∧ ∀ u, u ≠ t → (g.cleared key t b).files u = b.files u := by
  unfold Setting.cleared Setting.addedTo
  cases hfile : b.files t with
  | none =>
    rw [if_neg (by simp)]
    refine ⟨?_, fun _ _ => rfl⟩
    rw [hfile]
    split_ifs <;> rfl
  | some raw =>
    by_cases hpolicy : g.policy = .replace
    · rw [if_pos ⟨rfl, hpolicy⟩, if_pos hpolicy]
      simp only [forgetTopic, hfile]
      exact ⟨Function.update_self .., fun u hu => Function.update_of_ne hu ..⟩
    · rw [if_neg fun h => hpolicy h.2, if_neg hpolicy]
      exact ⟨hfile, fun _ _ => rfl⟩

theorem refusal_of_coming {g : Setting} {f : BundleFile} {b : Base} {a : StoreArgs} {t : TopicId}
    (hcoming : g.coming f = some (a, t)) (hskip : ¬((b.files t).isSome ∧ g.policy = .skip)) :
    g.refusal f b =
      if scopeWriteAllowed (resolveCallerScope g.callerScope) g.scope then
        match storeText t.key a.fresh a.entry a.now (g.addedTo (b.files t)) with
        | .error fault => some (refusalOf fault)
        | .ok _ => none
      else some .other := by
  simp only [Setting.refusal, hcoming, Option.bind_some, if_neg hskip]

theorem storeOutcome_of_named {a : StoreArgs} {t : TopicId} {b : Base}
    (hscreened : a.screened = false) (hnamed : a.named = some t) :
    storeOutcome a b =
      if scopeWriteAllowed (resolveCallerScope a.callerScope) a.scope then
        match storeTopic a t b with
        | .error fault => .error (refusalOf fault)
        | .ok r => .ok r
      else .error .other := by
  unfold storeOutcome
  rw [hscreened, hnamed]
  rfl

/-- At the write `store` either refuses the file for the reason that was to be seen, or takes
it. -/
theorem write_outcome {g : Setting} {f : BundleFile} {b : Base} {a : StoreArgs} {t : TopicId}
    (hcoming : g.coming f = some (a, t)) (hskip : ¬((b.files t).isSome ∧ g.policy = .skip)) :
    (∃ kind, g.refusal f b = some kind ∧ storeOutcome a (g.cleared f.stem t b) = .error kind)
      ∨ ∃ b' w, g.refusal f b = none ∧ storeOutcome a (g.cleared f.stem t b) = .ok (b', w)
        ∧ storeText t.key a.fresh a.entry a.now (g.addedTo (b.files t)) = .ok w
        ∧ ∀ u, u ≠ t → b'.files u = b.files u := by
  obtain ⟨-, -, -, -, -, post, h, -, -, rfl, hscreened, hnamed⟩ := coming_eq_some hcoming
  obtain ⟨hown, hothers⟩ := cleared_files g f.stem t b
  rw [refusal_of_coming hcoming hskip, storeOutcome_of_named hscreened hnamed]
  -- the call passes on the scope of the import
  have hscope : scopeWriteAllowed (resolveCallerScope (g.storeArgs f.stem h).callerScope)
      (g.storeArgs f.stem h).scope
        = scopeWriteAllowed (resolveCallerScope g.callerScope) g.scope := rfl
  rw [hscope]
  by_cases hallowed : scopeWriteAllowed (resolveCallerScope g.callerScope) g.scope = true
  · rw [if_pos hallowed, if_pos hallowed]
    simp only [storeTopic, hown]
    cases hstore : storeText t.key (g.storeArgs f.stem h).fresh (g.storeArgs f.stem h).entry
        (g.storeArgs f.stem h).now (g.addedTo (b.files t)) with
    | error fault => exact .inl ⟨refusalOf fault, rfl, rfl⟩
    | ok w =>
      refine .inr ⟨_, w, rfl, rfl, rfl, fun u hu => ?_⟩
      rw [← hothers u hu]
      exact Function.update_of_ne hu ..
  · rw [if_neg hallowed, if_neg hallowed]
    exact .inl ⟨.other, rfl, rfl⟩

/-- The times of an article that are read are those of its first and its last heading. -/
theorem sectionTimes_ok {existing : Text} {times : Option (Stamp × Stamp)}
    (h : sectionTimes existing = .ok times) :
    ((timestamps existing).getLast? = none ∧ times = none)
      ∨ ∃ heading created latest, (timestamps existing).getLast? = some heading
        ∧ strptime heading = some latest ∧ times = some (created, latest) := by
  unfold sectionTimes at h
  cases htimes : timestamps existing with
  | nil =>
    rw [htimes] at h
    exact .inl ⟨rfl, (Except.ok.inj h).symm⟩
  | cons first rest =>
    rw [htimes] at h
    cases hfirst : strptime first with
    | none =>
      simp only [hfirst] at h
      cases h
    | some created =>
      cases hlast : strptime ((first :: rest).getLast (List.cons_ne_nil _ _)) with
      | none =>
        simp only [hfirst, hlast] at h
        cases h
      | some latest =>
        simp only [hfirst, hlast] at h
        exact .inr ⟨_, created, latest, List.getLast?_eq_some_getLast _, hlast,
          (Except.ok.inj h).symm⟩

/-- Where `store` takes the file, the dry run foretells the clamp. -/
theorem wouldClamp_of_stored {key fresh : Text} {e : Entry} {now : Datetime} {file : Option Text}
    {w : Written} (h : storeText key fresh e now file = .ok w) (late : Bool) :
    wouldClamp e.occurredAt late file now = some w.clamped := by
  have hplaced : ∀ {occurredAt : Option Datetime} {latest : Option Stamp},
      (w.time, w.body, w.clamped) = placed occurredAt latest now e.content →
        w.clamped = occurredAtWouldClamp occurredAt latest now := by
    intro occurredAt latest heq
    have hclamped : w.clamped = (placed occurredAt latest now e.content).2.2 := by rw [← heq]
    rw [hclamped]
    unfold placed
    cases occurredAt with
    | none => rfl
    | some time =>
      simp only
      split_ifs with hclamp
      · exact hclamp.symm
      · exact (Bool.eq_false_iff.mpr hclamp).symm
  -- the entry's time has a UTC form, or it has none
  have htime : ∀ {occurredAt : Option Datetime}, e.time = .ok occurredAt →
      (e.occurredAt = none ∧ occurredAt = none)
        ∨ ∃ time, e.occurredAt = some (.utc time) ∧ occurredAt = some time := by
    intro occurredAt heq
    unfold Entry.time at heq
    cases hentry : e.occurredAt with
    | none =>
      rw [hentry] at heq
      exact .inl ⟨rfl, (Except.ok.inj heq).symm⟩
    | some occurred =>
      cases occurred with
      | utc time =>
        rw [hentry] at heq
        exact .inr ⟨time, rfl, (Except.ok.inj heq).symm⟩
      | outOfRange =>
        rw [hentry] at heq
        cases heq
  cases file with
  | none =>
    obtain ⟨occurredAt, hok, -, hplace, -, -⟩ := storeText_fresh h
    rw [hplaced hplace]
    obtain ⟨hentry, rfl⟩ | ⟨time, hentry, rfl⟩ := htime hok
    · rw [hentry]
      rfl
    · simp only [wouldClamp, hentry, wouldClampAt, Option.isNone_some, Bool.false_eq_true, if_false,
        Option.bind_none]
      split_ifs with hclamp
      · rw [hclamp]
      · rfl
  | some raw =>
    obtain ⟨occurredAt, times, rewritten, hok, htimes, -, -, hplace, -, -⟩ := storeText_update h
    rw [hplaced hplace]
    obtain ⟨hentry, rfl⟩ | ⟨time, hentry, rfl⟩ := htime hok
    · rw [hentry]
      rfl
    · simp only [wouldClamp, hentry, wouldClampAt, Option.isNone_some, Bool.false_eq_true, if_false,
        Option.bind_some]
      obtain ⟨hnone, rfl⟩ | ⟨heading, created, latest, hheading, hread, rfl⟩ :=
        sectionTimes_ok htimes
      · simp only [hnone, Option.map_none]
        split_ifs with hclamp
        · rw [hclamp]
        · rfl
      · simp only [hheading, hread, Option.map_some]
        split_ifs with hclamp
        · simp only [occurredAtWouldClamp, Bool.or_false, decide_eq_true_eq] at hclamp ⊢
          rw [decide_eq_true hclamp, Bool.true_or]
        · rfl

@[simp] theorem counted_rejected (g : Setting) (existing : Option Text) (clamped : Bool)
    (r : Report) : (g.counted existing clamped r).rejected = r.rejected := by
  unfold Setting.counted
  cases existing <;> cases g.policy <;> rfl

/-- What is refused depends on the topic's file alone. -/
theorem refusal_congr {g : Setting} {f : BundleFile} {b b' : Base}
    (h : ∀ a t, g.coming f = some (a, t) → b'.files t = b.files t) :
    g.refusal f b' = g.refusal f b := by
  unfold Setting.refusal
  cases hcoming : g.coming f with
  | none => rfl
  | some c => simp only [Option.bind_some, h c.1 c.2 hcoming]

/-- A file in a real run from one base and in a dry run from another with the same topic file. -/
structure FileRuns (g : Setting) (f : BundleFile) (b b' : Base) : Prop where
  raised : (g.importFile false f b').raised = true ↔ g.raises f b
  frame : ∀ u, (∀ a t, g.coming f = some (a, t) → u ≠ t) →
    (g.importFile false f b').base.files u = b'.files u
  dry_base : (g.importFile true f b).base = b
  taken : (g.importFile false f b').raised = false → g.refusal f b = none →
    (g.importFile true f b).raised = false
      ∧ (g.importFile true f b).report = (g.importFile false f b').report
  refused : (g.importFile false f b').raised = false → g.refusal f b ≠ none →
    (g.importFile false f b').report.rejected = (g.importFile true f b).report.rejected + 1

/-- A file runs alike on two bases that have the same topic. -/
theorem fileRuns {g : Setting} {f : BundleFile} {b b' : Base}
    (h : ∀ a t, g.coming f = some (a, t) → b'.files t = b.files t) : FileRuns g f b b' := by
  obtain ⟨r, hcoming, hrun⟩ | ⟨a, t, r, hcoming, hunnamed, hrejected, hrun⟩ := importFile_cases g f
  · -- the base is not looked at
    have hrefusal : g.refusal f b = none := by
      unfold Setting.refusal
      rw [hcoming]
      rfl
    refine ⟨?_, fun u _ => ?_, ?_, fun hraised _ => ?_, fun _ hne => absurd hrefusal hne⟩
    · rw [hrun, Setting.raises, hrefusal]
      simp
    · rw [hrun]
    · rw [hrun]
    · rw [hrun] at hraised
      rw [hrun, hrun]
      exact ⟨hraised, rfl⟩
  · have hfile := h a t hcoming
    have hraises : g.raises f b ↔ g.refusal f b = some .other := by
      rw [Setting.raises, hunnamed]
      simp
    by_cases hskip : (b.files t).isSome ∧ g.policy = .skip
    · have hskip' : (b'.files t).isSome ∧ g.policy = .skip := by rwa [hfile]
      have hrefusal : g.refusal f b = none := by
        simp only [Setting.refusal, hcoming, Option.bind_some, if_pos hskip]
      refine ⟨?_, fun u _ => ?_, ?_, fun _ _ => ?_, fun _ hne => absurd hrefusal hne⟩
      · rw [hrun, if_pos hskip', hraises, hrefusal]
        simp
      · rw [hrun, if_pos hskip']
      · rw [hrun, if_pos hskip]
      · rw [hrun, hrun, if_pos hskip', if_pos hskip]
        exact ⟨rfl, rfl⟩
    · have hskip' : ¬((b'.files t).isSome ∧ g.policy = .skip) := by rwa [hfile]
      have hdryBase : (g.importFile true f b).base = b := by
        rw [hrun, if_neg hskip, Setting.write, if_pos rfl]
        cases wouldClamp a.occurredAt f.late (g.addedTo (b.files t)) g.now <;> rfl
      have hframe : ∀ u, u ≠ t → (g.cleared f.stem t b').files u = b'.files u :=
        (cleared_files g f.stem t b').2
      obtain ⟨kind, hrefusal, houtcome⟩ | ⟨b'', w, hrefusal, houtcome, hstored, hothers⟩ :=
        write_outcome hcoming hskip'
      · rw [refusal_congr h] at hrefusal
        have hdry : (g.importFile true f b).report.rejected = 0 := by
          rw [hrun, if_neg hskip, Setting.write, if_pos rfl]
          cases wouldClamp a.occurredAt f.late (g.addedTo (b.files t)) g.now with
          | none => exact hrejected
          | some clamped => exact (counted_rejected g _ _ _).trans hrejected
        have hnone : ¬ g.refusal f b = none := by
          rw [hrefusal]
          exact Option.some_ne_none kind
        cases kind with
        | valueError =>
          have hreal : g.importFile false f b' = rejecting (g.cleared f.stem t b') r := by
            rw [hrun, if_neg hskip']
            simp only [Setting.write, Bool.false_eq_true, if_false, houtcome]
          refine ⟨?_, fun u hu => ?_, hdryBase, fun _ hno => absurd hno hnone, fun _ _ => ?_⟩
          · rw [hreal, hraises, hrefusal]
            simp [rejecting]
          · rw [hreal]
            exact hframe u (hu a t hcoming)
          · rw [hreal, hdry]
            simp only [rejecting, hrejected]
        | other =>
          have hreal : g.importFile false f b' = ⟨g.cleared f.stem t b', r, true⟩ := by
            rw [hrun, if_neg hskip']
            simp only [Setting.write, Bool.false_eq_true, if_false, houtcome]
          refine ⟨?_, fun u hu => ?_, hdryBase, fun _ hno => absurd hno hnone, fun hraised _ => ?_⟩
          · rw [hreal, hraises, hrefusal]
            simp
          · rw [hreal]
            exact hframe u (hu a t hcoming)
          · rw [hreal] at hraised
            cases hraised
      · rw [refusal_congr h] at hrefusal
        have hreal : g.importFile false f b' = ⟨b'', g.counted (b'.files t) w.clamped r, false⟩ := by
          rw [hrun, if_neg hskip']
          simp only [Setting.write, Bool.false_eq_true, if_false, houtcome]
        obtain ⟨-, -, -, -, -, post, hand, -, -, rfl, -, -⟩ := coming_eq_some hcoming
        have hclamp : wouldClamp hand.occurredAt f.late (g.addedTo (b'.files t)) g.now
            = some w.clamped := wouldClamp_of_stored hstored f.late
        refine ⟨?_, fun u hu => ?_, hdryBase, fun _ _ => ?_, fun _ hne => absurd hrefusal hne⟩
        · rw [hreal, hraises, hrefusal]
          simp
        · rw [hreal]
          exact hothers u (hu _ t hcoming)
        · rw [hreal, hrun, if_neg hskip, Setting.write, if_pos rfl, ← hfile]
          have harg : (g.storeArgs f.stem hand).occurredAt = hand.occurredAt := rfl
          rw [harg, hclamp]
          exact ⟨rfl, rfl⟩

/-! ## A bundle -/

/-- No two files lead to one topic. -/
def Setting.Apart (g : Setting) (files : List BundleFile) : Prop :=
  files.Pairwise fun f e => ∀ a t a' t', g.coming f = some (a, t) → g.coming e = some (a', t') → t ≠ t'

theorem Bundle.apart (bundle : Bundle) (g : Setting) : g.Apart bundle.files := by
  have hrels : bundle.files.Pairwise fun f e => f.rel ≠ e.rel :=
    List.pairwise_map.mp bundle.nodup
  refine hrels.imp_of_mem fun {f e} hf he hrel a t a' t' hcoming hcoming' heq => hrel ?_
  obtain ⟨-, -, -, hkey, hnamed, -⟩ := coming_eq_some hcoming
  obtain ⟨-, -, -, -, hnamed', -⟩ := coming_eq_some hcoming'
  have hstem : f.stem = e.stem := by
    rw [← (ofNames_eq_some hnamed).2.2, ← (ofNames_eq_some hnamed').2.2, heq]
  exact rel_eq_of_stem (bundle.markdown f hf) (bundle.markdown e he) hkey hstem

/-- The topics the files lead to have the same files in both bases. -/
def Setting.Same (g : Setting) (files : List BundleFile) (b b' : Base) : Prop :=
  ∀ f ∈ files, ∀ a t, g.coming f = some (a, t) → b'.files t = b.files t

theorem Setting.Same.importFile {g : Setting} {f : BundleFile} {rest : List BundleFile}
    {b b' : Base} (hapart : g.Apart (f :: rest)) (h : g.Same (f :: rest) b b') :
    g.Same rest b (g.importFile false f b').base := by
  intro e he a t hcoming
  have hruns : FileRuns g f b b' := fileRuns fun a t => h f List.mem_cons_self a t
  rw [hruns.frame t fun a' t' hcoming' heq => ?_]
  · exact h e (List.mem_cons_of_mem _ he) a t hcoming
  · exact (List.pairwise_cons.mp hapart).1 e he a' t' a t hcoming' hcoming heq.symm

theorem Setting.Same.importFiles {g : Setting} {before rest : List BundleFile} {b b' : Base}
    (hapart : g.Apart (before ++ rest)) (h : g.Same (before ++ rest) b b') :
    g.Same rest b (g.importFiles false before b').base := by
  induction before generalizing b' with
  | nil => exact h
  | cons f more ih =>
    have hnext := ih (List.pairwise_cons.mp hapart).2 (h.importFile hapart)
    simp only [Setting.importFiles]
    split_ifs with hraised
    · exact fun e he => h.importFile hapart e (List.mem_append_right _ he)
    · exact hnext

theorem importFiles_raised_iff {g : Setting} {files : List BundleFile} {b b' : Base}
    (hapart : g.Apart files) (h : g.Same files b b') :
    (g.importFiles false files b').raised = true ↔ ∃ f ∈ files, g.raises f b := by
  induction files generalizing b' with
  | nil => simp [Setting.importFiles]
  | cons f rest ih =>
    have hruns : FileRuns g f b b' := fileRuns fun a t => h f List.mem_cons_self a t
    have hrest := ih (List.pairwise_cons.mp hapart).2 (h.importFile hapart)
    simp only [Setting.importFiles, List.exists_mem_cons_iff]
    split_ifs with hraised
    · exact iff_of_true hraised (.inl (hruns.raised.mp hraised))
    · rw [hrest, or_iff_right fun hraises => hraised (hruns.raised.mpr hraises)]

/-- What a real run makes of the first file and the rest, where it does not raise. -/
theorem importFiles_cons {g : Setting} {dry : Bool} {f : BundleFile} {rest : List BundleFile}
    {b : Base} (h : (g.importFiles dry (f :: rest) b).raised = false) :
    (g.importFile dry f b).raised = false
      ∧ (g.importFiles dry rest (g.importFile dry f b).base).raised = false
      ∧ (g.importFiles dry (f :: rest) b).report
        = (g.importFile dry f b).report.add
          (g.importFiles dry rest (g.importFile dry f b).base).report := by
  simp only [Setting.importFiles] at h ⊢
  split_ifs at h ⊢ with hraised
  · rw [h] at hraised
    cases hraised
  · exact ⟨Bool.eq_false_iff.mpr hraised, h, rfl⟩

/-- Where nothing is refused a dry run says what a real run does. -/
theorem importFiles_taken {g : Setting} {files : List BundleFile} {b b' : Base}
    (hapart : g.Apart files) (h : g.Same files b b')
    (hraised : (g.importFiles false files b').raised = false)
    (htaken : ∀ f ∈ files, g.refusal f b = none) :
    (g.importFiles true files b).raised = false
      ∧ (g.importFiles true files b).report = (g.importFiles false files b').report := by
  induction files generalizing b' with
  | nil => exact ⟨rfl, rfl⟩
  | cons f rest ih =>
    have hruns : FileRuns g f b b' := fileRuns fun a t => h f List.mem_cons_self a t
    obtain ⟨hfirst, hmore, hreport⟩ := importFiles_cons hraised
    obtain ⟨hdry, hsame⟩ := hruns.taken hfirst (htaken f List.mem_cons_self)
    obtain ⟨hdryRest, hsameRest⟩ := ih (List.pairwise_cons.mp hapart).2 (h.importFile hapart) hmore
      fun e he => htaken e (List.mem_cons_of_mem _ he)
    rw [hreport]
    simp only [Setting.importFiles, hdry, Bool.false_eq_true, if_false, hruns.dry_base, hdryRest,
      hsame, hsameRest, and_self]

/-- A file that is refused is missing from the rejections of the dry run. -/
theorem importFiles_refused {g : Setting} {files : List BundleFile} {b b' : Base}
    (hapart : g.Apart files) (h : g.Same files b b')
    (hraised : (g.importFiles false files b').raised = false)
    (hdry : (g.importFiles true files b).raised = false) :
    (g.importFiles true files b).report.rejected ≤ (g.importFiles false files b').report.rejected
      ∧ ((∃ f ∈ files, g.refusal f b ≠ none) →
        (g.importFiles true files b).report.rejected
          < (g.importFiles false files b').report.rejected) := by
  induction files generalizing b' with
  | nil => simp [Setting.importFiles]
  | cons f rest ih =>
    have hruns : FileRuns g f b b' := fileRuns fun a t => h f List.mem_cons_self a t
    obtain ⟨hfirst, hmore, hreport⟩ := importFiles_cons hraised
    obtain ⟨hdryFirst, hdryMore, hdryReport⟩ := importFiles_cons hdry
    rw [hruns.dry_base] at hdryMore hdryReport
    obtain ⟨hle, hlt⟩ := ih (List.pairwise_cons.mp hapart).2 (h.importFile hapart) hmore hdryMore
    rw [hreport, hdryReport]
    simp only [Report.add]
    by_cases hrefused : g.refusal f b = none
    · have hsame := congrArg Report.rejected (hruns.taken hfirst hrefused).2
      refine ⟨by omega, ?_⟩
      rintro ⟨e, he, hne⟩
      obtain rfl | he := List.mem_cons.mp he
      · exact absurd hrefused hne
      · have hstrict := hlt ⟨e, he, hne⟩
        omega
    · have hmissing := hruns.refused hfirst hrefused
      exact ⟨by omega, fun _ => by omega⟩

/-! ## Exactly when -/

/-- A file that is refused at the write is rejected or raises, with the topic to be replaced
forgotten. -/
theorem importFile_refused {g : Setting} {f : BundleFile} {b : Base} {a : StoreArgs} {t : TopicId}
    (hcoming : g.coming f = some (a, t)) (h : g.refusal f b ≠ none) :
    (g.importFile false f b).base = g.cleared f.stem t b
      ∧ ((g.importFile false f b).raised = true
        ∨ (g.importFile false f b).report.rejected ≠ 0) := by
  obtain ⟨r, hnone, -⟩ | ⟨a', t', r, hcoming', -, -, hrun⟩ := importFile_cases g f
  · rw [hnone] at hcoming
    cases hcoming
  · rw [hcoming'] at hcoming
    obtain ⟨rfl, rfl⟩ := Prod.mk.inj (Option.some.inj hcoming)
    have hskip : ¬((b.files t').isSome ∧ g.policy = .skip) := by
      intro hskip
      refine h ?_
      simp only [Setting.refusal, hcoming', Option.bind_some, if_pos hskip]
    obtain ⟨kind, -, houtcome⟩ | ⟨b', w, hnone, -⟩ := write_outcome hcoming' hskip
    · rw [hrun, if_neg hskip]
      cases kind with
      | valueError =>
        simp only [Setting.write, Bool.false_eq_true, if_false, houtcome]
        exact ⟨rfl, .inr (Nat.succ_ne_zero _)⟩
      | other =>
        simp only [Setting.write, Bool.false_eq_true, if_false, houtcome]
        exact ⟨trivial, .inl trivial⟩
    · exact absurd hnone h

/-- A file that is rejected or raises leaves the base as it is, unless it was refused at the
write. -/
theorem importFile_failed {g : Setting} {f : BundleFile} {b : Base}
    (h : (g.importFile false f b).raised = true ∨ (g.importFile false f b).report.rejected ≠ 0) :
    (g.importFile false f b).base = b
      ∨ ∃ a t, g.coming f = some (a, t) ∧ g.refusal f b ≠ none := by
  obtain ⟨r, -, hrun⟩ | ⟨a, t, r, hcoming, -, hrejected, hrun⟩ := importFile_cases g f
  · rw [hrun]
    exact .inl rfl
  · by_cases hskip : (b.files t).isSome ∧ g.policy = .skip
    · rw [hrun, if_pos hskip]
      exact .inl rfl
    · obtain ⟨kind, hrefusal, -⟩ | ⟨b', w, -, houtcome, -⟩ := write_outcome hcoming hskip
      · refine .inr ⟨a, t, hcoming, ?_⟩
        rw [hrefusal]
        exact Option.some_ne_none kind
      · rw [hrun, if_neg hskip] at h
        simp only [Setting.write, Bool.false_eq_true, if_false, houtcome, counted_rejected,
          hrejected] at h
        obtain h | h := h
        · cases h
        · exact absurd rfl h

theorem cleared_of_not_replaces {g : Setting} {f : BundleFile} {b : Base} {a : StoreArgs}
    {t : TopicId} (hcoming : g.coming f = some (a, t)) (h : ¬ g.replaces f b) :
    g.cleared f.stem t b = b :=
  if_neg fun hboth => h ⟨hboth.2, a, t, hcoming, hboth.1⟩

/-- A topic that was forgotten is not as it was. -/
theorem not_untouched_cleared {g : Setting} {key : Text} {t : TopicId} {b : Base}
    (hexists : (b.files t).isSome) (hpolicy : g.policy = .replace) :
    ¬ Untouched b (g.cleared key t b) t := by
  rintro ⟨hfiles, -, -⟩
  rw [(cleared_files g key t b).1, Setting.addedTo, if_pos hpolicy] at hfiles
  rw [← hfiles] at hexists
  cases hexists

/-- An import is atomic file by file and foretold by its dry run exactly when no file is refused
where that would show. -/
theorem atomic_foretold_iff (g : Setting) (bundle : Bundle) (b : Base) :
    (g.Atomic bundle.files b ∧ g.Foretold bundle.files b) ↔ g.Acceptable bundle.files b := by
  have hapart := bundle.apart g
  have hsame : g.Same bundle.files b b := fun _ _ _ _ _ => rfl
  -- the file at a place in the bundle finds its topic as the import found it
  have hplace : ∀ {before f after}, bundle.files = before ++ f :: after →
      (((g.importFiles false before b).raised = true ↔ ∃ e ∈ before, g.raises e b)
        ∧ ∀ a t, g.coming f = some (a, t) →
          (g.importFiles false before b).base.files t = b.files t) := by
    intro before f after hfiles
    rw [hfiles] at hapart hsame
    refine ⟨importFiles_raised_iff (List.pairwise_append.mp hapart).1
      fun e he => hsame e (List.mem_append_left _ he), ?_⟩
    exact (Setting.Same.importFiles hapart hsame) f List.mem_cons_self
  constructor
  · rintro ⟨hatomic, hforetold⟩
    refine ⟨fun before f after hfiles hbefore hreplaces => ?_, fun hnone f hf => ?_⟩
    · by_contra hrefusal
      obtain ⟨hpolicy, a, t, hcoming, hexists⟩ := hreplaces
      obtain ⟨hraised, hfile⟩ := hplace hfiles
      have hrunning : (g.importFiles false before b).raised = false := by
        rw [Bool.eq_false_iff, Ne, hraised]
        rintro ⟨e, he, hraises⟩
        exact hbefore e he hraises
      have hrefused : g.refusal f (g.importFiles false before b).base ≠ none := by
        rwa [refusal_congr hfile]
      obtain ⟨hbase, hfailed⟩ := importFile_refused hcoming hrefused
      have hkept := hatomic before f after hfiles hrunning t (coming_eq_some hcoming).2.2.2.2.1
        hfailed
      rw [hbase] at hkept
      exact not_untouched_cleared (by rwa [hfile a t hcoming]) hpolicy hkept
    · by_contra hrefusal
      have hreal : (g.importFiles false bundle.files b).raised = false := by
        rw [Bool.eq_false_iff, Ne, importFiles_raised_iff hapart hsame]
        rintro ⟨e, he, hraises⟩
        exact hnone e he hraises
      have hdry : (g.importFiles true bundle.files b).raised = false := by
        rw [Bool.eq_false_iff]
        intro hdry
        rw [hforetold.1 hdry] at hreal
        cases hreal
      have hreports := congrArg Report.rejected (hforetold.2 hdry hreal)
      have hless := (importFiles_refused hapart hsame hreal hdry).2 ⟨f, hf, hrefusal⟩
      omega
  · rintro ⟨hreplaced, htaken⟩
    have hforetells : (g.importFiles false bundle.files b).raised = false →
        (g.importFiles true bundle.files b).raised = false
          ∧ (g.importFiles true bundle.files b).report
            = (g.importFiles false bundle.files b).report := by
      intro hreal
      refine importFiles_taken hapart hsame hreal (htaken fun f hf hraises => ?_)
      rw [(importFiles_raised_iff hapart hsame).mpr ⟨f, hf, hraises⟩] at hreal
      cases hreal
    refine ⟨fun before f after hfiles hrunning t hname hfailed => ?_, fun hdry => ?_,
      fun _ hreal => (hforetells hreal).2⟩
    · obtain ⟨hraised, hfile⟩ := hplace hfiles
      have hbefore : ∀ e ∈ before, ¬ g.raises e b := by
        intro e he hraises
        rw [hraised.mpr ⟨e, he, hraises⟩] at hrunning
        cases hrunning
      have hsameBase : (g.importFile false f (g.importFiles false before b).base).base
          = (g.importFiles false before b).base := by
        obtain hsame | ⟨a, u, hcoming, hrefused⟩ := importFile_failed hfailed
        · exact hsame
        · rw [(importFile_refused hcoming hrefused).1]
          refine cleared_of_not_replaces hcoming fun hreplaces => ?_
          obtain ⟨hpolicy, a', u', hcoming', hexists⟩ := hreplaces
          rw [hfile a' u' hcoming'] at hexists
          rw [refusal_congr hfile] at hrefused
          exact hrefused (hreplaced before f after hfiles hbefore
            ⟨hpolicy, a', u', hcoming', hexists⟩)
      rw [hsameBase]
      exact ⟨rfl, rfl, rfl⟩
    · by_contra hreal
      rw [(hforetells (Bool.eq_false_iff.mpr hreal)).1] at hdry
      cases hdry

/-- The first moment of 2026. -/
def newYear : Datetime := Stamp.at newYear2026

/-- A base with the global topic `a`. -/
def oneTopic : Base :=
  exec Base.empty (.store
    { scope := .global
      callerScope := none
      scopeId := none
      key := some (text "a")
      type := .project
      tags := []
      content := text "hi"
      occurredAt := none
      now := newYear
      fresh := text "0" })

/-- A session that may not write global memories replaces the topics of a bundle. -/
def replacing : Setting :=
  { scope := .global
    scopeId := none
    policy := .replace
    callerScope := some (text "session")
    now := newYear
    fresh := fun _ => text "0"
    target := .inl rfl
    id_isSome := rfl }

/-- A bundle file `a.md`. -/
def fileA : BundleFile :=
  ⟨text "a.md", false, some ⟨some (text "project"), .other, none, text "hi"⟩, false⟩

/-- The forget comes before `store` refuses the caller: the topic is lost. -/
theorem refused_replace_loses_topic :
    ¬ ∀ (g : Setting) (bundle : Bundle) (b : Base),
      g.Atomic bundle.files b ∧ g.Foretold bundle.files b := by
  intro h
  have hatomic := (h replacing ⟨[fileA], by simp, by simp [fileA, text]⟩ oneTopic).1
  obtain ⟨⟨a, t⟩, hcoming⟩ : ∃ c, replacing.coming fileA = some c :=
    Option.isSome_iff_exists.mp (by decide +kernel)
  have hexists : (replacing.coming fileA).all (fun c => (oneTopic.files c.2).isSome) = true := by
    decide +kernel
  rw [hcoming, Option.all_some] at hexists
  have hrefused : replacing.refusal fileA oneTopic ≠ none := by decide +kernel
  obtain ⟨hbase, hfailed⟩ := importFile_refused hcoming hrefused
  have hkept := hatomic [] fileA [] rfl rfl t (coming_eq_some hcoming).2.2.2.2.1 hfailed
  have hcleared : Untouched oneTopic (replacing.cleared fileA.stem t oneTopic) t := by
    rw [← hbase]
    exact hkept
  exact not_untouched_cleared hexists rfl hcleared

end CliAgentOrchestrator.Archive
