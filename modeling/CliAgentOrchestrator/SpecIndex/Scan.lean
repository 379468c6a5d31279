import CliAgentOrchestrator.SpecIndex.Conduct

/-!
# What a scan owes

A call that empties the index has looked at the directory before, so it comes to write the row of
every valid file that stays and that no other file rivals (`promises_program`), and it reads the
index only behind that (`empties_program`).
-/

set_option autoImplicit false

namespace CliAgentOrchestrator.SpecIndex

open Library

variable {grammar : Grammar}

/-- The file stays the one of its name, nothing hides it, and no file stops the scan. -/
def Stays (grammar : Grammar) (path : SpecPath) (spec : Spec) (op : SpecOp) (s : Store) : Prop :=
  Sole grammar s.files spec.name path ∧ specAt grammar s.files path = some spec ∧
    (∀ pattern extension, op = .glob pattern extension →
      Unhidden grammar s.files pattern extension) ∧
    ∀ other, op = .read other → Tame grammar s.files other

/-- Before it reads the index, the call writes the row of the file. -/
def Owes {α : Type} (grammar : Grammar) (path : SpecPath) (spec : Spec) (p : Steps α) : Prop :=
  p.Meets SpecOp.exec (Stays grammar path spec) (fun op => op.isSelect = true)
    fun q => q.head? = some (.upsertRow (indexRow spec path))

/-- Wherever the call empties the index, it owes the row of the file. -/
def Promises {α : Type} (grammar : Grammar) (path : SpecPath) (spec : Spec) (p : Steps α) : Prop :=
  p.Always SpecOp.exec (Stays grammar path spec) fun
    | .deleteRows, next => Owes grammar path spec (next ())
    | _, _ => True

/-- The call empties the index before it reads it. -/
def Empties {α : Type} (p : Steps α) : Prop :=
  p.Meets SpecOp.exec (fun _ _ => True) (fun op => op.isSelect = true)
    fun q => (∃ result, q = .done result) ∨ q.head? = some .deleteRows

/-! ## One file -/

section File

variable {path : SpecPath} {spec : Spec}

theorem Stays.find {op : SpecOp} {s : Store} (h : Stays grammar path spec op s) :
    ∃ raw, s.files.find path = some (.bytes raw) ∧ specOf grammar path (.bytes raw) = .ok spec :=
  bytes_of_specAt h.2.1

/-- The bytes of a file that stays are read. -/
theorem meets_read : (readContainedSpecBytes path).Meets SpecOp.exec (Stays grammar path spec)
    (fun op => op.isSelect = true)
    fun q => ∃ raw, q = .done (.ok raw) ∧ specOf grammar path (.bytes raw) = .ok spec := by
  refine Or.inr ⟨Bool.false_ne_true, fun s₁ h₁ => ?_⟩
  have hsome := isSome_of_defines h₁.1.1
  change Program.Meets _ _ _ _ (if (s₁.files.find path).isSome = true then _ else _)
  rw [if_pos hsome]
  refine Or.inr ⟨Bool.false_ne_true, fun s₂ h₂ => ?_⟩
  obtain ⟨raw', hraw', hof⟩ := h₂.find
  have hread : ((SpecOp.read path).exec s₂).1 = some (.bytes raw') := hraw'
  rw [hread]
  exact ⟨raw', rfl, hof⟩

/-- A loader that reads and parses a file that stays. -/
theorem meets_load {α : Type} (parse : ByteArray → Except SpecError α) {inject : α → Spec}
    (hof : ∀ raw, specOf grammar path (.bytes raw) = (parse raw).map inject)
    {k : Except SpecError ByteArray → Steps (Except SpecError α)}
    (hok : ∀ raw, k (.ok raw) = pure (parse raw)) :
    (readContainedSpecBytes path >>= k).Meets SpecOp.exec (Stays grammar path spec)
      (fun op => op.isSelect = true) fun q => ∃ a, q = .done (.ok a) ∧ inject a = spec := by
  refine Program.Meets.bind (meets_read.imp ?_)
  rintro q ⟨raw, rfl, hraw⟩
  refine ⟨_, rfl, ?_⟩
  rw [hok]
  rw [hof] at hraw
  cases hparse : parse raw with
  | error e =>
    rw [hparse] at hraw
    cases hraw
  | ok a =>
    rw [hparse] at hraw
    cases hraw
    exact ⟨a, rfl, rfl⟩

theorem owes_indexYaml (h : path.extension ≠ .py) :
    Owes grammar path spec (indexYaml grammar path) := by
  refine Program.Meets.bind ((meets_load grammar.parseWorkflow (specOf_workflow h)
    fun _ => rfl).imp ?_)
  rintro q ⟨a, rfl, rfl⟩
  exact ⟨_, rfl, Or.inl rfl⟩

/-- Nothing hides a script that stays. -/
theorem meets_checkTierCollision (h : path.extension = .py) :
    (checkTierCollision path.stem).Meets SpecOp.exec (Stays grammar path spec)
      (fun op => op.isSelect = true) fun q => q = .done (.ok ()) := by
  have hempty : ∀ extension s, extension ≠ .py →
      Stays grammar path spec (.glob path.stem extension) s →
      glob s.files path.stem extension = [] := by
    rintro extension s hother ⟨hsole, hspec, hfree, -⟩
    rw [name_of_script h hspec] at hsole
    obtain hpy | hnone | hnot := hfree _ _ rfl
    · exact absurd hpy hother
    · exact hnone
    · exact absurd hsole (hnot path (mem_keys_of_defines hsole.1) rfl h)
  refine Or.inr ⟨Bool.false_ne_true, fun s₁ h₁ => Or.inr ⟨Bool.false_ne_true, fun s₂ h₂ => ?_⟩⟩
  change Program.Meets _ _ _ _ (if glob s₁.files path.stem .yaml ++
    glob s₂.files path.stem .yml = [] then _ else _)
  rw [hempty .yaml s₁ (by decide) h₁, hempty .yml s₂ (by decide) h₂]
  rfl

theorem owes_indexScript (h : path.extension = .py) :
    Owes grammar path spec (indexScript grammar path) := by
  refine Program.Meets.bind ((meets_checkTierCollision h).imp ?_)
  rintro q rfl
  refine ⟨_, rfl, Program.Meets.bind ((meets_load (grammar.parseScript path path.stem)
    (specOf_script h) fun _ => rfl).imp ?_)⟩
  rintro q ⟨a, rfl, rfl⟩
  exact ⟨_, rfl, Or.inl rfl⟩

end File

/-! ## The other files -/

section Others

variable {path : SpecPath} {spec : Spec} {other : SpecPath}

/-- The scan of other files goes on, whatever they hold. -/
def Ends (grammar : Grammar) (path : SpecPath) (spec : Spec) (p : Steps (Except SpecError Nat)) :
    Prop :=
  p.Meets SpecOp.exec (Stays grammar path spec) (fun op => op.isSelect = true)
    fun q => ∃ rows, q = .done (.ok rows)

/-- Another file is read, or it is one that a scan skips. -/
theorem meets_readOther : (readContainedSpecBytes other).Meets SpecOp.exec
    (Stays grammar path spec) (fun op => op.isSelect = true)
    fun q => ∃ result, q = .done result ∧ Skippable other result ∧
      ∀ raw, result = .ok raw → Skippable other (specOf grammar other (.bytes raw)) := by
  have hmissing : ∃ result, (.done (.error (.fileNotFound other)) : Steps _) = .done result ∧
      Skippable other result ∧
      ∀ raw, result = .ok raw → Skippable other (specOf grammar other (.bytes raw)) := by
    refine ⟨_, rfl, ?_, fun raw h => (by cases h)⟩
    rintro e ⟨⟩
    rfl
  refine Or.inr ⟨Bool.false_ne_true, fun s₁ _ => ?_⟩
  change Program.Meets _ _ _ _ (if (s₁.files.find other).isSome = true then _ else _)
  split
  · refine Or.inr ⟨Bool.false_ne_true, fun s₂ h₂ => ?_⟩
    have htame := h₂.2.2.2 other rfl
    generalize hread : ((SpecOp.read other).exec s₂).1 = answer
    change s₂.files.find other = answer at hread
    cases answer with
    | none => exact hmissing
    | some contents =>
      cases contents with
      | unreadable =>
        refine ⟨_, rfl, ?_, fun raw h => (by cases h)⟩
        rintro e ⟨⟩
        exact htame _ hread _ rfl
      | bytes raw =>
        refine ⟨_, rfl, fun e h => (by cases h), ?_⟩
        rintro raw' ⟨⟩
        exact htame _ hread
  · exact hmissing

theorem meets_loadOther {α : Type} (parse : ByteArray → Except SpecError α) {inject : α → Spec}
    (hof : ∀ raw, specOf grammar other (.bytes raw) = (parse raw).map inject)
    {k : Except SpecError ByteArray → Steps (Except SpecError α)}
    (herror : ∀ e, k (.error e) = pure (.error e)) (hok : ∀ raw, k (.ok raw) = pure (parse raw)) :
    (readContainedSpecBytes other >>= k).Meets SpecOp.exec (Stays grammar path spec)
      (fun op => op.isSelect = true) fun q => ∃ result, q = .done result ∧
        Skippable other result := by
  refine Program.Meets.bind (meets_readOther.imp ?_)
  rintro q ⟨result, rfl, hskip, hparse⟩
  refine ⟨_, rfl, ?_⟩
  cases result with
  | error e =>
    rw [herror]
    refine ⟨_, rfl, fun e' he' => hskip e' ?_⟩
    cases he'
    rfl
  | ok raw =>
    rw [hok]
    refine ⟨_, rfl, fun e he => hparse raw rfl e ?_⟩
    rw [hof, he]
    rfl

theorem ends_indexYaml (h : other.extension ≠ .py) :
    Ends grammar path spec (indexYaml grammar other) := by
  refine Program.Meets.bind ((meets_loadOther grammar.parseWorkflow (specOf_workflow h)
    (fun _ => rfl) fun _ => rfl).imp ?_)
  rintro q ⟨result, rfl, hskip⟩
  refine ⟨_, rfl, ?_⟩
  cases result with
  | error e => exact ⟨0, congrArg _ (skip_yaml h (hskip e rfl))⟩
  | ok a => exact Or.inr ⟨Bool.false_ne_true, fun _ _ => ⟨1, rfl⟩⟩

theorem ends_indexScript (h : other.extension = .py) :
    Ends grammar path spec (indexScript grammar other) := by
  refine Or.inr ⟨Bool.false_ne_true, fun s₁ _ => Or.inr ⟨Bool.false_ne_true, fun s₂ _ => ?_⟩⟩
  change Ends grammar path spec ((if glob s₁.files other.stem .yaml ++
    glob s₂.files other.stem .yml = [] then _ else _ : Steps _) >>= _)
  split
  · change Ends grammar path spec (readScriptSpec grammar other other.stem >>= _)
    refine Program.Meets.bind ((meets_loadOther (grammar.parseScript other other.stem)
      (specOf_script h) (fun _ => rfl) fun _ => rfl).imp ?_)
    rintro q ⟨result, rfl, hskip⟩
    refine ⟨_, rfl, ?_⟩
    cases result with
    | error e => exact ⟨0, congrArg _ (skip_script h (hskip e rfl))⟩
    | ok a => exact Or.inr ⟨Bool.false_ne_true, fun _ _ => ⟨1, rfl⟩⟩
  · exact ⟨0, rfl⟩

/-- What ends well comes to its end, and what is owed behind it is owed. -/
theorem Owes.behind {α : Type} {p : Steps (Except SpecError Nat)}
    {k : Except SpecError Nat → Steps α} (hp : Ends grammar path spec p)
    (hk : ∀ rows, Owes grammar path spec (k (.ok rows))) : Owes grammar path spec (p >>= k) := by
  refine Program.Meets.bind (hp.imp ?_)
  rintro q ⟨rows, rfl⟩
  exact ⟨_, rfl, hk rows⟩

theorem Ends.behind {p : Steps (Except SpecError Nat)}
    {k : Except SpecError Nat → Steps (Except SpecError Nat)} (hp : Ends grammar path spec p)
    (hk : ∀ rows, Ends grammar path spec (k (.ok rows))) : Ends grammar path spec (p >>= k) := by
  refine Program.Meets.bind (hp.imp ?_)
  rintro q ⟨rows, rfl⟩
  exact ⟨_, rfl, hk rows⟩

theorem ends_indexAll {index : SpecPath → Steps (Except SpecError Nat)} {paths : List SpecPath}
    (h : ∀ other ∈ paths, Ends grammar path spec (index other)) :
    Ends grammar path spec (indexAll index paths) := by
  induction paths with
  | nil => exact ⟨0, rfl⟩
  | cons other rest ih =>
    refine Ends.behind (h other (by simp)) fun rows => ?_
    exact Ends.behind (ih fun p hp => h p (by simp [hp])) fun more => ⟨rows + more, rfl⟩

end Others

/-! ## All of them -/

section Scan

variable {path : SpecPath} {spec : Spec}

/-- Neither a read of the index nor its emptying. -/
def Fills (op : SpecOp) : Prop := op.isSelect = false ∧ op ≠ .deleteRows

theorem fills_load {α : Type} (other : SpecPath)
    {k : Except SpecError ByteArray → Steps α} (hk : ∀ result, (k result).All Fills) :
    (readContainedSpecBytes other >>= k).All Fills := by
  refine Program.all_bind (Program.all_step ⟨rfl, nofun⟩ fun there => ?_) hk
  split
  · refine Program.all_step ⟨rfl, nofun⟩ fun raw => ?_
    split <;> exact Program.all_pure _
  · exact Program.all_pure _

theorem fills_loadAndValidate (other : SpecPath) : (loadAndValidate grammar other).All Fills := by
  refine fills_load other fun result => ?_
  split <;> exact Program.all_pure _

theorem fills_readScriptSpec (other : SpecPath) (stem : String) :
    (readScriptSpec grammar other stem).All Fills := by
  refine fills_load other fun result => ?_
  split <;> exact Program.all_pure _

theorem fills_checkTierCollision (stem : String) : (checkTierCollision stem).All Fills := by
  refine Program.all_step ⟨rfl, nofun⟩ fun _ => ?_
  refine Program.all_step ⟨rfl, nofun⟩ fun _ => ?_
  split <;> exact Program.all_pure _

theorem fills_loadByExtension (other : SpecPath) : (loadByExtension grammar other).All Fills := by
  unfold loadByExtension
  split
  · exact Program.all_bind (fills_loadAndValidate other) fun _ => Program.all_pure _
  · exact Program.all_bind (fills_loadAndValidate other) fun _ => Program.all_pure _
  · refine Program.all_bind (fills_checkTierCollision other.stem) fun result => ?_
    split
    · exact Program.all_pure _
    · exact Program.all_bind (fills_readScriptSpec other other.stem) fun _ => Program.all_pure _

theorem fills_indexYaml (other : SpecPath) : (indexYaml grammar other).All Fills := by
  refine Program.all_bind (fills_loadAndValidate other) fun result => ?_
  split
  · exact Program.all_pure _
  · exact Program.all_step ⟨rfl, nofun⟩ fun _ => Program.all_pure _

theorem fills_indexScript (other : SpecPath) : (indexScript grammar other).All Fills := by
  refine Program.all_bind (fills_checkTierCollision other.stem) fun result => ?_
  split
  · exact Program.all_pure _
  · refine Program.all_bind (fills_readScriptSpec other other.stem) fun result => ?_
    split
    · exact Program.all_pure _
    · exact Program.all_step ⟨rfl, nofun⟩ fun _ => Program.all_pure _

theorem fills_indexAll {index : SpecPath → Steps (Except SpecError Nat)}
    (h : ∀ other, (index other).All Fills) (paths : List SpecPath) :
    (indexAll index paths).All Fills := by
  induction paths with
  | nil => exact Program.all_pure _
  | cons other rest ih =>
    refine Program.all_bind (h other) fun result => ?_
    split
    · exact Program.all_pure _
    · exact Program.all_bind ih fun _ => Program.all_pure _

theorem Owes.bind {α β : Type} {p : Steps α} (h : Owes grammar path spec p) (k : α → Steps β) :
    Owes grammar path spec (p >>= k) :=
  Program.Meets.bind_left h

theorem owes_indexAll {index : SpecPath → Steps (Except SpecError Nat)} {paths : List SpecPath}
    (hends : ∀ other ∈ paths, Ends grammar path spec (index other))
    (howes : Owes grammar path spec (index path)) (hmem : path ∈ paths) :
    Owes grammar path spec (indexAll index paths) := by
  induction paths with
  | nil => cases hmem
  | cons other rest ih =>
    by_cases heq : path = other
    · subst heq
      exact howes.bind _
    · have hrest : path ∈ rest := (List.mem_cons.mp hmem).resolve_left heq
      refine Owes.behind (hends other (by simp)) fun rows => ?_
      exact (ih (fun p hp => hends p (by simp [hp])) hrest).bind _

/-- The glob of the file's extension sees it. -/
theorem Stays.mem_glob {op : SpecOp} {s : Store} (h : Stays grammar path spec op s) :
    path ∈ glob s.files "*" path.extension := by
  refine List.mem_filter.mpr ⟨mem_keys_of_defines h.1.1, ?_⟩
  rw [fnmatch_star]
  simp

/-- Behind the emptying the loops come to the file, whose glob saw it. -/
theorem owes_loops {yaml yml py : List SpecPath}
    (hmem : path ∈ yaml ∨ path ∈ yml ∨ path ∈ py) (hyaml : ∀ other ∈ yaml, other.extension ≠ .py)
    (hyml : ∀ other ∈ yml, other.extension ≠ .py) (hpy : ∀ other ∈ py, other.extension = .py) :
    Owes grammar path spec (do
      match ← indexAll (indexYaml grammar) (sortedPaths (yaml ++ yml)) with
      | .error e => pure (.error e)
      | .ok rows => return (← indexAll (indexScript grammar) (sortedPaths py)).map (rows + ·)) := by
  have hends : ∀ other ∈ sortedPaths (yaml ++ yml),
      Ends grammar path spec (indexYaml grammar other) := by
    intro other hother
    obtain hin | hin := List.mem_append.mp (mem_sortedPaths.mp hother)
    · exact ends_indexYaml (hyaml other hin)
    · exact ends_indexYaml (hyml other hin)
  have hscan : (path ∈ yaml ∨ path ∈ yml) → Owes grammar path spec
      (indexAll (indexYaml grammar) (sortedPaths (yaml ++ yml))) := by
    intro hin
    have hother : path.extension ≠ .py := hin.elim (hyaml path) (hyml path)
    exact owes_indexAll hends (owes_indexYaml hother)
      (mem_sortedPaths.mpr (List.mem_append.mpr hin))
  obtain hin | hin | hin := hmem
  · exact (hscan (.inl hin)).bind _
  · exact (hscan (.inr hin)).bind _
  · refine Owes.behind (ends_indexAll hends) fun rows => ?_
    refine (owes_indexAll (fun other hother => ?_) (owes_indexScript (hpy path hin))
      (mem_sortedPaths.mpr hin)).bind _
    exact ends_indexScript (hpy other (mem_sortedPaths.mp hother))

theorem promises_of_fills {α : Type} {p : Steps α} (h : p.All (· ≠ .deleteRows)) :
    Promises grammar path spec p := by
  refine Program.Always.of_all (fun op next hop => ?_) h
  split
  · exact absurd rfl hop
  · trivial

theorem promises_rebuild {α : Type} {k : Except SpecError Nat → Steps α}
    (hk : ∀ rows, (k rows).All (· ≠ .deleteRows)) :
    Promises grammar path spec (rebuildIndexFromFiles grammar >>= k) := by
  refine ⟨trivial, fun s₁ h₁ => ⟨trivial, fun s₂ h₂ => ⟨trivial, fun s₃ h₃ => ⟨?_, fun _ _ => ?_⟩⟩⟩⟩
  · refine Owes.bind (owes_loops ?_ ?_ ?_ ?_) k
    · have hmem₁ := h₁.mem_glob
      have hmem₂ := h₂.mem_glob
      have hmem₃ := h₃.mem_glob
      cases hext : path.extension with
      | yaml =>
        rw [hext] at hmem₁
        exact .inl hmem₁
      | yml =>
        rw [hext] at hmem₂
        exact .inr (.inl hmem₂)
      | py =>
        rw [hext] at hmem₃
        exact .inr (.inr hmem₃)
    · intro other hother
      rw [extension_of_mem_glob hother]
      decide
    · intro other hother
      rw [extension_of_mem_glob hother]
      decide
    · exact fun other hother => extension_of_mem_glob hother
  · change Promises grammar path spec ((indexAll (indexYaml grammar) _ >>= _) >>= k)
    refine promises_of_fills (Program.all_bind ?_ hk)
    refine Program.all_bind ((fills_indexAll fills_indexYaml _).imp fun _ h => h.2) fun result => ?_
    split
    · exact Program.all_pure _
    · refine Program.all_bind ((fills_indexAll fills_indexScript _).imp fun _ h => h.2) fun _ => ?_
      exact Program.all_pure _

theorem empties_rebuild {α : Type} (k : Except SpecError Nat → Steps α) :
    Empties (rebuildIndexFromFiles grammar >>= k) :=
  Or.inr ⟨Bool.false_ne_true, fun _ _ => Or.inr ⟨Bool.false_ne_true, fun _ _ =>
    Or.inr ⟨Bool.false_ne_true, fun _ _ => Or.inl (.inr rfl)⟩⟩⟩

/-- A name fails its check, or the index is rebuilt before it is read. -/
theorem resolveSourcePath_cases (grammar : Grammar) (name : String) :
    (∃ e, resolveSourcePath grammar name = pure (.error e)) ∨
      ∃ k : Except SpecError Nat → Steps (Except SpecError SpecPath),
        resolveSourcePath grammar name = rebuildIndexFromFiles grammar >>= k ∧
          ∀ rows, (k rows).All (· ≠ .deleteRows) := by
  unfold resolveSourcePath
  cases validateName name with
  | error e => exact .inl ⟨e, rfl⟩
  | ok =>
    refine .inr ⟨_, rfl, fun rows => ?_⟩
    split
    · exact Program.all_pure _
    · refine Program.all_step nofun fun path? => ?_
      split <;> exact Program.all_pure _

/-- What goes on from a name fails at once, or rebuilds the index and never empties it again. -/
theorem resolved_cases {name : String} {next : Except SpecError SpecPath → Steps Reply}
    (herror : ∀ e, ∃ reply, next (.error e) = .done reply)
    (hnext : ∀ result, (next result).All (· ≠ .deleteRows)) :
    (∃ reply, resolveSourcePath grammar name >>= next = .done reply) ∨
      ∃ k : Except SpecError Nat → Steps Reply,
        resolveSourcePath grammar name >>= next = rebuildIndexFromFiles grammar >>= k ∧
          ∀ rows, (k rows).All (· ≠ .deleteRows) := by
  obtain ⟨e, he⟩ | ⟨k, heq, hk⟩ := resolveSourcePath_cases grammar name
  · rw [he]
    exact .inl (herror e)
  · rw [heq, Program.bind_assoc]
    exact .inr ⟨_, rfl, fun rows => Program.all_bind (hk rows) hnext⟩

/-- A call fails at once, or it rebuilds the index and never empties it again. -/
theorem program_cases (grammar : Grammar) (call : Call) :
    (∃ reply, call.program grammar = .done reply) ∨
      ∃ k : Except SpecError Nat → Steps Reply,
        call.program grammar = rebuildIndexFromFiles grammar >>= k ∧
          ∀ rows, (k rows).All (· ≠ .deleteRows) := by
  cases call with
  | listWorkflows =>
    refine .inr ⟨_, Program.bind_assoc _ _ _, fun rows => Program.all_bind ?_ fun _ =>
      Program.all_pure _⟩
    split
    · exact Program.all_pure _
    · exact Program.all_step nofun fun _ => Program.all_pure _
  | getWorkflow name bare =>
    unfold Call.program getWorkflow
    dsimp only
    rw [Program.bind_assoc]
    refine resolved_cases (fun e => ⟨_, rfl⟩) fun result => Program.all_bind ?_ fun _ =>
      Program.all_pure _
    split
    · exact Program.all_pure _
    · exact (fills_loadByExtension _).imp fun _ h => h.2
  | deleteWorkflow name =>
    unfold Call.program deleteWorkflow
    dsimp only
    rw [Program.bind_assoc]
    refine resolved_cases (fun e => ⟨_, rfl⟩) fun result => Program.all_bind ?_ fun _ =>
      Program.all_pure _
    split
    · exact Program.all_pure _
    · refine Program.all_step nofun fun there => ?_
      split <;> exact Program.all_step nofun fun _ => Program.all_pure _

theorem promises_program (call : Call) : Promises grammar path spec (call.program grammar) := by
  obtain ⟨reply, heq⟩ | ⟨k, heq, hk⟩ := program_cases grammar call
  · rw [heq]
    trivial
  · rw [heq]
    exact promises_rebuild hk

theorem empties_program (call : Call) : Empties (call.program grammar) := by
  obtain ⟨reply, heq⟩ | ⟨k, heq, -⟩ := program_cases grammar call
  · rw [heq]
    exact Or.inl ⟨reply, rfl⟩
  · rw [heq]
    exact empties_rebuild k

end Scan

end CliAgentOrchestrator.SpecIndex
