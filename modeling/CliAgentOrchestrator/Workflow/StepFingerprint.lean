import CliAgentOrchestrator.Library.Decimal
import Mathlib.Data.List.Sort

/-!
# The call fingerprint

`services/step_fingerprint.py`: ten components of a call are joined by NUL and hashed. No component
of a plain call holds a NUL, so the text gives each of them back (`joined_eq_iff`). Nine of them
determine their field; the tool list does not: its count is stated, but where one name ends and the
next begins is not, so a name that holds the inner separator can stand for two pieces of other names
(`joined_identifies_iff`).
-/

set_option autoImplicit false

namespace CliAgentOrchestrator.Workflow

open Library

/-! ## The text that is hashed -/

/-- SOURCE: services/step_fingerprint.py:100-164 -/
structure StepCallFields where
  provider : Text
  agent : Text
  prompt : Text
  model : Option Text := none
  engine : Option Text := none
  allowedTools : Option (List Text) := none
  effectiveWorkingDirectory : Option Text := none
  useWorktree : Bool := false
  reusedTerminal : Bool := false
  timeout : PyFloat := .finite ⟨false, 600, 0⟩

/-- SOURCE: services/step_fingerprint.py:42 -/
def creationOnly : Text := 1 :: text "creation-only"

/-- SOURCE: services/step_fingerprint.py:87 -/
def notSupplied : Text := 2 :: text "not-supplied"

/-- `_TOOL_SEP`. -/
def toolSep : Nat := 0x1f

namespace StepCallFields

/-- SOURCE: services/step_fingerprint.py:167-169 -/
def textOf (value : Option Text) : Text := value.getD notSupplied

/-- SOURCE: services/step_fingerprint.py:172-174 -/
def flag (value : Bool) : Text := if value then text "true" else text "false"

/-- `sorted(value)`. -/
def ordered (tools : List Text) : List Text := tools.insertionSort (· ≤ ·)

/-- SOURCE: services/step_fingerprint.py:187-197 -/
def toolsOf : Option (List Text) → Text
  | none => notSupplied
  | some tools => digits tools.length ++ toolSep :: [toolSep].intercalate (ordered tools)

/-- SOURCE: services/step_fingerprint.py:234-262 -/
def components (f : StepCallFields) : List Text :=
  [f.provider, f.agent, f.prompt,
    if f.reusedTerminal then creationOnly else textOf f.model,
    textOf f.engine,
    if f.reusedTerminal then creationOnly else toolsOf f.allowedTools,
    if f.reusedTerminal then creationOnly else textOf f.effectiveWorkingDirectory,
    if f.reusedTerminal then creationOnly else flag f.useWorktree,
    flag f.reusedTerminal, f.timeout.fixed6]

/-- The text that `compute` hashes.

SOURCE: services/step_fingerprint.py:263-264 -/
def joined (f : StepCallFields) : Text := [0].intercalate f.components

/-! ## Calls -/

/-- No component holds a NUL or is one of the two sentinels. -/
def Plain (f : StepCallFields) : Prop :=
  ∀ t ∈ [f.provider, f.agent, f.prompt] ++ f.model.toList ++ f.engine.toList
      ++ f.effectiveWorkingDirectory.toList ++ f.allowedTools.getD [],
    0 ∉ t ∧ t ≠ creationOnly ∧ t ≠ notSupplied

instance (f : StepCallFields) : Decidable f.Plain := inferInstanceAs (Decidable (∀ t ∈ _, _))

/-- The calls agree on everything but the tools. -/
def AgreeButTools (f g : StepCallFields) : Prop :=
  f.provider = g.provider ∧ f.agent = g.agent ∧ f.prompt = g.prompt ∧ f.engine = g.engine
    ∧ f.reusedTerminal = g.reusedTerminal ∧ f.timeout.fixed6 = g.timeout.fixed6
    ∧ (f.reusedTerminal = false → f.model = g.model
      ∧ f.effectiveWorkingDirectory = g.effectiveWorkingDirectory ∧ f.useWorktree = g.useWorktree)

/-- The tool lists are one multiset; none is not the empty one. -/
def SameTools : Option (List Text) → Option (List Text) → Prop
  | none, none => True
  | some ts, some us => ts.Perm us
  | _, _ => False

/-- The same call. -/
def Agree (f g : StepCallFields) : Prop :=
  f.AgreeButTools g ∧ (f.reusedTerminal = false → SameTools f.allowedTools g.allowedTools)

/-- What is left of the names when they are cut at the inner separator. -/
def pieces (tools : List Text) : List Text := (ordered tools).flatMap (List.splitOn toolSep)

/-- Different tools, equally many, that are cut into the same pieces. -/
def Impersonates : Option (List Text) → Option (List Text) → Prop
  | some ts, some us => ts.length = us.length ∧ pieces ts = pieces us ∧ ¬ts.Perm us
  | _, _ => False

/-! ## The components -/

theorem flag_inj {a b : Bool} : flag a = flag b ↔ a = b := by
  cases a <;> cases b <;> decide

theorem textOf_inj {a b : Option Text} (ha : ∀ t ∈ a, t ≠ notSupplied)
    (hb : ∀ t ∈ b, t ≠ notSupplied) : textOf a = textOf b ↔ a = b := by
  refine ⟨fun h => ?_, fun h => congrArg textOf h⟩
  cases a with
  | none =>
    cases b with
    | none => rfl
    | some b => exact absurd h.symm (hb b rfl)
  | some a =>
    cases b with
    | none => exact absurd h (ha a rfl)
    | some b => exact congrArg some h

theorem ordered_eq_iff {ts us : List Text} : ordered ts = ordered us ↔ ts.Perm us := by
  constructor
  · intro h
    calc
      ts.Perm (ordered ts) := (List.perm_insertionSort _ ts).symm
      _ = ordered us := h
      (ordered us).Perm us := List.perm_insertionSort _ us
  · intro h
    have hperm : (ordered ts).Perm (ordered us) :=
      (List.perm_insertionSort _ ts).trans (h.trans (List.perm_insertionSort _ us).symm)
    exact hperm.eq_of_pairwise' (List.pairwise_insertionSort _ ts)
      (List.pairwise_insertionSort _ us)

/-- The joined names, cut at the separator, are the pieces of each name in turn. -/
theorem splitOn_intercalate_ordered {names : List Text} (h : names ≠ []) :
    ([toolSep].intercalate names).splitOn toolSep = names.flatMap (List.splitOn toolSep) := by
  induction names with
  | nil => exact absurd rfl h
  | cons name rest ih =>
    cases rest with
    | nil => simp
    | cons next rest =>
      have hcons : [toolSep].intercalate (name :: next :: rest)
          = name ++ toolSep :: [toolSep].intercalate (next :: rest) := by
        simp
      rw [hcons, List.splitOn_append_cons_self, ih (by simp), List.flatMap_cons (x := name)]

/-- The stated count and the pieces are all that a rendered list of tools shows. -/
theorem toolsOf_some_eq_iff {ts us : List Text} :
    toolsOf (some ts) = toolsOf (some us) ↔ ts.length = us.length ∧ pieces ts = pieces us := by
  have hsep : ∀ n, toolSep ∉ digits n := by
    intro n h
    have := mem_digits h
    unfold toolSep at this
    omega
  have hlength : ∀ tools, (ordered tools).length = tools.length :=
    fun tools => List.length_insertionSort _ tools
  have hne : ∀ tools : List Text, tools ≠ [] → ordered tools ≠ [] := by
    intro tools h heq
    have := hlength tools
    rw [heq] at this
    exact h (List.length_eq_zero_iff.mp this.symm)
  constructor
  · intro h
    obtain ⟨hcount, hjoined⟩ := append_stop_inj (hsep _) (hsep _) h
    have hcount := digits_injective hcount
    refine ⟨hcount, ?_⟩
    by_cases hts : ts = []
    · have hus : us = [] := List.length_eq_zero_iff.mp (by rw [← hcount, hts]; rfl)
      rw [hts, hus]
    · have hus : us ≠ [] := by
        rintro rfl
        exact hts (List.length_eq_zero_iff.mp hcount)
      rw [pieces, pieces, ← splitOn_intercalate_ordered (hne ts hts),
        ← splitOn_intercalate_ordered (hne us hus), hjoined]
  · rintro ⟨hcount, hpieces⟩
    by_cases hts : ts = []
    · have hus : us = [] := List.length_eq_zero_iff.mp (by rw [← hcount, hts]; rfl)
      rw [hts, hus]
    · have hus : us ≠ [] := by
        rintro rfl
        exact hts (List.length_eq_zero_iff.mp hcount)
      have hjoined : [toolSep].intercalate (ordered ts) = [toolSep].intercalate (ordered us) := by
        calc
          [toolSep].intercalate (ordered ts) = [toolSep].intercalate (pieces ts) := by
            rw [pieces, ← splitOn_intercalate_ordered (hne ts hts), List.intercalate_splitOn]
          _ = [toolSep].intercalate (pieces us) := by rw [hpieces]
          _ = [toolSep].intercalate (ordered us) := by
            rw [pieces, ← splitOn_intercalate_ordered (hne us hus), List.intercalate_splitOn]
      rw [toolsOf, toolsOf, hcount, hjoined]

/-- A rendered list begins with a digit, the mark of a missing one does not. -/
theorem toolsOf_some_ne (ts : List Text) : toolsOf (some ts) ≠ notSupplied := by
  intro h
  obtain ⟨d, rest, hd⟩ := List.exists_cons_of_ne_nil (digits_ne_nil ts.length)
  have hmem : d ∈ digits ts.length := by
    rw [hd]
    exact List.mem_cons_self
  rw [toolsOf, hd] at h
  have hfirst : d = 2 := (List.cons.inj h).1
  have := mem_digits hmem
  omega

theorem toolsOf_eq_iff (a b : Option (List Text)) :
    toolsOf a = toolsOf b ↔ SameTools a b ∨ Impersonates a b := by
  cases a with
  | none =>
    cases b with
    | none => exact iff_of_true rfl (.inl trivial)
    | some us =>
      exact iff_of_false (fun h => toolsOf_some_ne us h.symm) (by simp [SameTools, Impersonates])
  | some ts =>
    cases b with
    | none => exact iff_of_false (toolsOf_some_ne ts) (by simp [SameTools, Impersonates])
    | some us =>
      rw [toolsOf_some_eq_iff]
      constructor
      · rintro ⟨hcount, hpieces⟩
        by_cases hperm : ts.Perm us
        · exact .inl hperm
        · exact .inr ⟨hcount, hpieces, hperm⟩
      · rintro (hperm | ⟨hcount, hpieces, -⟩)
        · exact ⟨List.Perm.length_eq hperm, by rw [pieces, pieces, ordered_eq_iff.mpr hperm]⟩
        · exact ⟨hcount, hpieces⟩

/-! ## The whole text -/

variable {f g : StepCallFields}

theorem Plain.model (h : f.Plain) : ∀ t ∈ f.model, 0 ∉ t ∧ t ≠ notSupplied := by
  intro t ht
  obtain ⟨hzero, -, hmark⟩ := h t (by simp [Option.mem_def.mp ht])
  exact ⟨hzero, hmark⟩

theorem Plain.engine (h : f.Plain) : ∀ t ∈ f.engine, 0 ∉ t ∧ t ≠ notSupplied := by
  intro t ht
  obtain ⟨hzero, -, hmark⟩ := h t (by simp [Option.mem_def.mp ht])
  exact ⟨hzero, hmark⟩

theorem Plain.effectiveWorkingDirectory (h : f.Plain) :
    ∀ t ∈ f.effectiveWorkingDirectory, 0 ∉ t ∧ t ≠ notSupplied := by
  intro t ht
  obtain ⟨hzero, -, hmark⟩ := h t (by simp [Option.mem_def.mp ht])
  exact ⟨hzero, hmark⟩

theorem zero_notMem_textOf {a : Option Text} (h : ∀ t ∈ a, 0 ∉ t ∧ t ≠ notSupplied) :
    0 ∉ textOf a := by
  cases a with
  | none => decide
  | some t => exact (h t rfl).1

theorem zero_notMem_flag (b : Bool) : 0 ∉ flag b := by
  cases b <;> decide

theorem Plain.zero_notMem_tools (h : f.Plain) : 0 ∉ toolsOf f.allowedTools := by
  cases htools : f.allowedTools with
  | none => decide
  | some tools =>
    rw [toolsOf, List.mem_append, List.mem_cons]
    rintro (hdigit | hsep | hnames)
    · have := mem_digits hdigit
      omega
    · exact absurd hsep (by decide)
    · refine notMem_intercalate (by decide) (fun name hname => ?_) hnames
      have hmem := (List.mem_insertionSort _).mp hname
      exact (h name (by simp [htools, hmem])).1

theorem Plain.zero_notMem (h : f.Plain) : ∀ t ∈ f.components, 0 ∉ t := by
  have hcreation : 0 ∉ creationOnly := by decide
  have hplain : ∀ t ∈ [f.provider, f.agent, f.prompt], 0 ∉ t :=
    fun t ht => (h t (by simp only [List.append_assoc]; exact List.mem_append_left _ ht)).1
  intro t ht
  simp only [components, List.mem_cons, List.not_mem_nil, or_false] at ht
  obtain rfl | rfl | rfl | rfl | rfl | rfl | rfl | rfl | rfl | rfl := ht
  · exact hplain _ (by simp)
  · exact hplain _ (by simp)
  · exact hplain _ (by simp)
  · split_ifs
    · exact hcreation
    · exact zero_notMem_textOf h.model
  · exact zero_notMem_textOf h.engine
  · split_ifs
    · exact hcreation
    · exact h.zero_notMem_tools
  · split_ifs
    · exact hcreation
    · exact zero_notMem_textOf h.effectiveWorkingDirectory
  · split_ifs
    · exact hcreation
    · exact zero_notMem_flag _
  · exact zero_notMem_flag _
  · exact zero_notMem_fixed6 _

/-- The text gives back every component, and every field but the tools. -/
theorem joined_eq_iff (hf : f.Plain) (hg : g.Plain) :
    f.joined = g.joined ↔ f.AgreeButTools g
      ∧ (f.reusedTerminal = false → toolsOf f.allowedTools = toolsOf g.allowedTools) := by
  have hcomponents : f.joined = g.joined ↔ f.components = g.components := by
    refine ⟨fun h => ?_, fun h => by rw [joined, joined, h]⟩
    exact intercalate_inj hf.zero_notMem hg.zero_notMem (by simp [components])
      (by simp [components]) h
  have hmodel := textOf_inj (fun t ht => (hf.model t ht).2) (fun t ht => (hg.model t ht).2)
  have hengine := textOf_inj (fun t ht => (hf.engine t ht).2) (fun t ht => (hg.engine t ht).2)
  have hdirectory := textOf_inj (fun t ht => (hf.effectiveWorkingDirectory t ht).2)
    (fun t ht => (hg.effectiveWorkingDirectory t ht).2)
  rw [hcomponents]
  simp only [components, List.cons.injEq, and_true, flag_inj, hengine, AgreeButTools]
  by_cases hreused : f.reusedTerminal = g.reusedTerminal
  · rw [← hreused]
    cases f.reusedTerminal with
    | true => simp
    | false =>
      simp only [Bool.false_eq_true, if_false, hmodel, hdirectory, flag_inj]
      tauto
  · exact iff_of_false (fun h => hreused h.2.2.2.2.2.2.2.2.1) (fun h => hreused h.1.2.2.2.2.1)

/-- The text identifies the call exactly where the tools of the two calls are not different lists
that are cut into the same pieces. -/
theorem joined_identifies_iff (f g : StepCallFields) (hf : f.Plain) (hg : g.Plain) :
    (f.joined = g.joined ↔ f.Agree g) ↔
      ¬(f.AgreeButTools g ∧ f.reusedTerminal = false
        ∧ Impersonates f.allowedTools g.allowedTools) := by
  have himp : ∀ {a b : Option (List Text)}, Impersonates a b → ¬SameTools a b := by
    rintro (_ | ts) (_ | us) h
    · exact h.elim
    · exact h.elim
    · exact h.elim
    · exact h.2.2
  rw [joined_eq_iff hf hg, toolsOf_eq_iff, Agree]
  constructor
  · rintro h ⟨hagree, hcreated, hpieces⟩
    have := (h.mp ⟨hagree, fun _ => .inr hpieces⟩).2 hcreated
    exact himp hpieces this
  · intro h
    refine and_congr_right fun hagree => forall_congr' fun hcreated => ?_
    refine ⟨?_, .inl⟩
    rintro (hsame | hpieces)
    · exact hsame
    · exact absurd ⟨hagree, hcreated, hpieces⟩ h

/-- A call with these tools. -/
def toolCall (tools : List Text) : StepCallFields where
  provider := text "claude_code"
  agent := text "developer"
  prompt := text "go"
  allowedTools := some tools

/-- Two tools, in either order. -/
theorem joined_identifies_toolCall :
    ((toolCall [text "Read", text "Write"]).joined = (toolCall [text "Write", text "Read"]).joined
        ↔ (toolCall [text "Read", text "Write"]).Agree (toolCall [text "Write", text "Read"])) ↔
      ¬((toolCall [text "Read", text "Write"]).AgreeButTools (toolCall [text "Write", text "Read"])
        ∧ (toolCall [text "Read", text "Write"]).reusedTerminal = false
        ∧ Impersonates (some [text "Read", text "Write"]) (some [text "Write", text "Read"])) :=
  joined_identifies_iff _ _ (by decide) (by decide)

/-- Two tools `a␟b` and `c` are hashed as `a` and `b␟c` are. -/
theorem toolCall_impersonated :
    ¬∀ f g : StepCallFields, f.Plain → g.Plain → (f.joined = g.joined ↔ f.Agree g) := by
  intro h
  have hsame := (h (toolCall [[97, 31, 98], [99]]) (toolCall [[97], [98, 31, 99]])
    (by decide) (by decide)).mp (by decide +kernel)
  have hperm : [[97, 31, 98], [99]].Perm [[97], [98, 31, 99]] := hsame.2 rfl
  exact absurd hperm (by decide)

end StepCallFields

end CliAgentOrchestrator.Workflow
