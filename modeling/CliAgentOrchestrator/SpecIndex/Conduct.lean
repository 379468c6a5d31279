import CliAgentOrchestrator.SpecIndex.Lookup

/-!
# What one call keeps to

While a call is under way the directory only loses files, and with a file the only one of its
name (`Shrunk`). From that, and from what it finds in the index when it reads it, each call gives
a right answer (`conduct`). Its scan owes a row to every valid file that stays (`owes`).
-/

set_option autoImplicit false

namespace CliAgentOrchestrator.SpecIndex

open Library

variable {grammar : Grammar}

/-! ## Directories that lose files -/

/-- Only files were lost, each the only one of its name. -/
structure Shrunk (grammar : Grammar) (d d' : Directory) : Prop where
  kept : ∀ path raw, d'.find path = some raw → d.find path = some raw
  gone : ∀ name path, Defines grammar d name path → d'.find path = none →
    Undefined grammar d' name

theorem specAt_congr {d d' : Directory} {path : SpecPath} (h : d'.find path = d.find path) :
    specAt grammar d' path = specAt grammar d path := by
  rw [specAt, specAt, h]

theorem find_of_specAt {d : Directory} {path : SpecPath} {spec : Spec}
    (h : specAt grammar d path = some spec) :
    ∃ contents, d.find path = some contents ∧ specOf grammar path contents = .ok spec := by
  obtain ⟨contents, hcontents, hspec⟩ := Option.bind_eq_some_iff.mp h
  refine ⟨contents, hcontents, ?_⟩
  cases hof : specOf grammar path contents with
  | error e =>
    rw [hof] at hspec
    cases hspec
  | ok spec' =>
    rw [hof] at hspec
    cases hspec
    rfl

theorem specAt_of_find {d : Directory} {path : SpecPath} {raw : Contents} {spec : Spec}
    (hraw : d.find path = some raw) (hspec : specOf grammar path raw = .ok spec) :
    specAt grammar d path = some spec := by
  rw [specAt, hraw, Option.bind_some, hspec]
  rfl

/-- A file with a valid spec can be read. -/
theorem bytes_of_specAt {d : Directory} {path : SpecPath} {spec : Spec}
    (h : specAt grammar d path = some spec) :
    ∃ raw, d.find path = some (.bytes raw) ∧ specOf grammar path (.bytes raw) = .ok spec := by
  obtain ⟨contents, hcontents, hof⟩ := find_of_specAt h
  cases contents with
  | bytes raw => exact ⟨raw, hcontents, hof⟩
  | unreadable => cases hof

theorem defines_of_specAt {d : Directory} {path : SpecPath} {spec : Spec}
    (h : specAt grammar d path = some spec) : Defines grammar d spec.name path := by
  rw [Defines, h]
  rfl

theorem specAt_of_defines {d : Directory} {path : SpecPath} {name : String}
    (h : Defines grammar d name path) : ∃ spec, specAt grammar d path = some spec ∧
      spec.name = name :=
  Option.map_eq_some_iff.mp h

theorem isSome_of_defines {d : Directory} {path : SpecPath} {name : String}
    (h : Defines grammar d name path) : (d.find path).isSome := by
  obtain ⟨spec, hspec, -⟩ := specAt_of_defines h
  obtain ⟨raw, hraw, -⟩ := find_of_specAt hspec
  rw [hraw]
  rfl

/-- A file has one name. -/
theorem defines_unique {d : Directory} {path : SpecPath} {name name' : String}
    (h : Defines grammar d name path) (h' : Defines grammar d name' path) : name = name' :=
  Option.some.inj (h.symm.trans h')

namespace Shrunk

variable {a b c : Directory} {name : String} {path : SpecPath} {spec : Spec}

theorem refl (d : Directory) : Shrunk grammar d d where
  kept _ _ h := h
  gone name path hdef hnone := by
    have hsome := isSome_of_defines hdef
    rw [hnone] at hsome
    cases hsome

theorem specAt_old (h : Shrunk grammar a b) (hspec : specAt grammar b path = some spec) :
    specAt grammar a path = some spec := by
  obtain ⟨raw, hraw, hof⟩ := find_of_specAt hspec
  exact specAt_of_find (h.kept path raw hraw) hof

theorem defines_old (h : Shrunk grammar a b) (hdef : Defines grammar b name path) :
    Defines grammar a name path := by
  obtain ⟨spec, hspec, rfl⟩ := specAt_of_defines hdef
  exact defines_of_specAt (h.specAt_old hspec)

/-- A file that is still there is what it was. -/
theorem specAt_new (h : Shrunk grammar a b) (hspec : specAt grammar a path = some spec)
    (hsome : (b.find path).isSome) : specAt grammar b path = some spec := by
  obtain ⟨raw, hraw⟩ := Option.isSome_iff_exists.mp hsome
  rw [specAt_congr (hraw.trans (h.kept path raw hraw).symm)]
  exact hspec

theorem defines_new (h : Shrunk grammar a b) (hdef : Defines grammar a name path)
    (hsome : (b.find path).isSome) : Defines grammar b name path := by
  obtain ⟨spec, hspec, rfl⟩ := specAt_of_defines hdef
  exact defines_of_specAt (h.specAt_new hspec hsome)

theorem undefined (h : Shrunk grammar a b) (hundef : Undefined grammar a name) :
    Undefined grammar b name := fun path hdef => hundef path (h.defines_old hdef)

theorem unambiguous (h : Shrunk grammar a b) (hone : Unambiguous grammar a name) :
    Unambiguous grammar b name := fun path other hpath hother =>
  hone path other (h.defines_old hpath) (h.defines_old hother)

theorem trans (h : Shrunk grammar a b) (h' : Shrunk grammar b c) : Shrunk grammar a c where
  kept path raw hraw := h.kept path raw (h'.kept path raw hraw)
  gone name path hdef hnone := by
    cases hb : b.find path with
    | none => exact h'.undefined (h.gone name path hdef hb)
    | some raw =>
      have hsome : (b.find path).isSome := by
        rw [hb]
        rfl
      exact h'.gone name path (h.defines_new hdef hsome) hnone

/-- The one file of a name now was the one file of it before: had there been another, it would
have gone alone. -/
theorem sole (h : Shrunk grammar a b) (hsole : Sole grammar b name path) :
    Sole grammar a name path := by
  obtain ⟨hdef, honly⟩ := hsole
  refine ⟨h.defines_old hdef, fun other hother => ?_⟩
  cases hb : b.find other with
  | none => exact absurd hdef (h.gone name other hother hb path)
  | some raw =>
    refine honly other (h.defines_new hother ?_)
    rw [hb]
    rfl

/-- The file that alone defines a name goes. -/
theorem remove (h : (a.find path).isSome → ∃ name, Sole grammar a name path) :
    Shrunk grammar a (a.pop path) where
  kept other raw hraw := by
    rw [Dict.find_pop] at hraw
    split at hraw
    · cases hraw
    · exact hraw
  gone name other hdef hnone := by
    rw [Dict.find_pop] at hnone
    split at hnone
    · next heq =>
      subst heq
      obtain ⟨name', hsole⟩ := h (isSome_of_defines hdef)
      obtain rfl := defines_unique hdef hsole.1
      intro third hthird
      obtain ⟨spec, hspec, hname⟩ := specAt_of_defines hthird
      obtain ⟨raw, hraw, hof⟩ := find_of_specAt hspec
      rw [Dict.find_pop] at hraw
      split at hraw
      · cases hraw
      · next hne =>
        subst hname
        exact hne (hsole.2 third (defines_of_specAt (specAt_of_find hraw hof)))
    · have hsome := isSome_of_defines hdef
      rw [hnone] at hsome
      cases hsome

end Shrunk

/-! ## What a call finds and what it answers for -/

/-- The one file of each name has its row. -/
def Complete (grammar : Grammar) (s : Store) : Prop :=
  ∀ name path spec, Sole grammar s.files name path → specAt grammar s.files path = some spec →
    s.index.get name = some (indexRow spec path)

/-- A row whose file is there has that file's name. -/
def Current (grammar : Grammar) (s : Store) : Prop :=
  ∀ row ∈ s.index.rows, (s.files.find row.sourcePath).isSome →
    Defines grammar s.files row.name row.sourcePath

/-- Every row is that of a valid file of the directory. -/
def Listed (grammar : Grammar) (files : Directory) (index : Table WorkflowIndexRow.name) : Prop :=
  ∀ row ∈ index.rows, ∃ spec, specAt grammar files row.sourcePath = some spec ∧
    row = indexRow spec row.sourcePath

/-- What the other calls do meanwhile. -/
def Meanwhile (grammar : Grammar) (s s' : Store) : Prop := Shrunk grammar s.files s'.files

/-- What a call that began with the directory finds at an operation. -/
def Finds (grammar : Grammar) (begun : Directory) (call : Call) (op : SpecOp) (s : Store) : Prop :=
  Shrunk grammar begun s.files ∧
    match op with
    | .glob pattern extension => Unhidden grammar s.files pattern extension
    | .read path => Tame grammar s.files path
    | .selectRows => Complete grammar s ∧
      (call = .listWorkflows → Listed grammar begun s.index)
    | .selectSourcePath name =>
      Unambiguous grammar s.files name ∧ Complete grammar s ∧ Current grammar s
    | _ => True

/-- What a call that began with the directory answers for at an operation. -/
def AnswersFor (grammar : Grammar) (begun : Directory) (call : Call) : SpecOp → Store → Prop
  | .upsertRow row, _ => ∃ spec, specAt grammar begun row.sourcePath = some spec ∧
    row = indexRow spec row.sourcePath
  | .remove path, s => (s.files.find path).isSome →
    ∃ name, call = .deleteWorkflow name ∧ Sole grammar s.files name path
  | .deleteRow name, s => Undefined grammar s.files name
  | _, _ => True

/-- The rest of a call that began with the directory, run among others. -/
abbrev Conduct {α : Type} (grammar : Grammar) (begun : Directory) (call : Call)
    (post : α → Store → Prop) (p : Steps α) (s : Store) : Prop :=
  p.Sat SpecOp.exec (Meanwhile grammar) (Finds grammar begun call) (AnswersFor grammar begun call)
    post s

section Conduct

variable {begun : Directory} {call : Call}

theorem Meanwhile.refl (s : Store) : Meanwhile grammar s s := Shrunk.refl s.files

theorem Meanwhile.trans {a b c : Store} (h : Meanwhile grammar a b) (h' : Meanwhile grammar b c) :
    Meanwhile grammar a c := Shrunk.trans h h'

theorem Conduct.bind {α β : Type} {post : β → Store → Prop} {p : Steps α} {k : α → Steps β}
    {s : Store} (h : Conduct grammar begun call
      (fun a s' => Conduct grammar begun call post (k a) s') p s) :
    Conduct grammar begun call post (p >>= k) s :=
  Program.Sat.bind Meanwhile.refl h

theorem AnswersFor.meanwhile (op : SpecOp) (s : Store) (h : AnswersFor grammar begun call op s) :
    Meanwhile grammar s (op.exec s).2 := by
  cases op with
  | remove path =>
    refine Shrunk.remove fun hsome => ?_
    obtain ⟨name, -, hsole⟩ := h hsome
    exact ⟨name, hsole⟩
  | _ => exact Meanwhile.refl s

theorem Conduct.later {α : Type} {post : α → Store → Prop} {p : Steps α} {s s' : Store}
    (h : Conduct grammar begun call post p s) (hlater : Meanwhile grammar s s') :
    Conduct grammar begun call post p s' := by
  refine Program.Sat.mono ?_ h hlater
  exact fun _ _ _ hab hbc => hab.trans hbc

/-- The directory only shrinks under the call itself, too. -/
theorem Conduct.since {α : Type} {post : α → Store → Prop} {p : Steps α} {s : Store}
    (h : Conduct grammar begun call post p s) :
    Conduct grammar begun call (fun result s' => Meanwhile grammar s s' ∧ post result s') p s :=
  Program.Sat.since Meanwhile.refl (fun _ _ _ => Meanwhile.trans)
    (fun op s _ => AnswersFor.meanwhile op s) h

theorem conduct_pure {α : Type} {post : α → Store → Prop} {result : α} {s : Store}
    (h : ∀ s', Meanwhile grammar s s' → post result s') :
    Conduct grammar begun call post (pure result) s := h

/-! ## Loading -/

/-- The bytes are those of the file, or the file is gone or one that a scan skips. -/
theorem conduct_read (path : SpecPath) (s : Store) :
    Conduct grammar begun call (fun result s' =>
      (∀ raw, result = .ok raw → begun.find path = some (.bytes raw) ∧
        s.files.find path = some (.bytes raw) ∧ Skippable path (specOf grammar path (.bytes raw))) ∧
      (∀ raw, s'.files.find path = some (.bytes raw) → result = .ok raw) ∧ Skippable path result)
      (readContainedSpecBytes path) s := by
  refine Conduct.bind (Program.sat_call fun s₁ hfirst _ => ⟨trivial, fun s₂ hrely => ?_⟩)
  change Meanwhile grammar s₁ s₂ at hrely
  change Conduct grammar begun call _ (if (s₁.files.find path).isSome = true then _ else _) s₂
  split
  · refine Conduct.bind (Program.sat_call fun s₃ hsecond hfinds => ⟨trivial, fun s₄ hrely' => ?_⟩)
    change Meanwhile grammar s₃ s₄ at hrely'
    obtain ⟨hshrunk, htame⟩ := hfinds
    generalize hread : ((SpecOp.read path).exec s₃).1 = answer
    change s₃.files.find path = answer at hread
    -- what is there later was read
    have hlast : ∀ s' contents, Meanwhile grammar s₄ s' → s'.files.find path = some contents →
        answer = some contents := fun s' contents hlater h =>
      hread.symm.trans ((hrely'.trans hlater).kept path contents h)
    cases answer with
    | none =>
      refine conduct_pure fun s' hlater => ⟨fun raw h => (by cases h), fun raw hraw => ?_, ?_⟩
      · cases hlast s' _ hlater hraw
      · rintro e ⟨⟩
        rfl
    | some contents =>
      cases contents with
      | unreadable =>
        refine conduct_pure fun s' hlater => ⟨fun raw h => (by cases h), fun raw hraw => ?_, ?_⟩
        · cases hlast s' _ hlater hraw
        · rintro e ⟨⟩
          exact htame _ hread _ rfl
      | bytes raw =>
        refine conduct_pure fun s' hlater => ⟨?_, fun raw' hraw => ?_, fun e h => (by cases h)⟩
        · rintro raw' ⟨⟩
          exact ⟨hshrunk.kept path _ hread,
            (hfirst.trans (hrely.trans hsecond)).kept path _ hread, htame _ hread⟩
        · cases hlast s' _ hlater hraw
          rfl
  · next hnone =>
    refine conduct_pure fun s' hlater => ⟨fun raw h => (by cases h), fun raw hraw => ?_, ?_⟩
    · rw [(hrely.trans hlater).kept path _ hraw] at hnone
      exact absurd rfl hnone
    · rintro e ⟨⟩
      rfl

/-- What a load of the file may answer. -/
def Loaded (grammar : Grammar) (begun : Directory) (path : SpecPath) (s : Store)
    (result : Except SpecError Spec) (s' : Store) : Prop :=
  (∀ spec, result = .ok spec →
    specAt grammar begun path = some spec ∧ specAt grammar s.files path = some spec) ∧
    ∀ name spec, Sole grammar s'.files name path → specAt grammar s'.files path = some spec →
      result = .ok spec

theorem Loaded.later {path : SpecPath} {result : Except SpecError Spec} {s₀ s s' : Store}
    (h : Loaded grammar begun path s₀ result s) (hlater : Meanwhile grammar s s') :
    Loaded grammar begun path s₀ result s' :=
  ⟨h.1, fun name spec hsole hspec =>
    h.2 name spec (Shrunk.sole hlater hsole) (Shrunk.specAt_old hlater hspec)⟩

/-- A loader that reads the file and parses what it read. -/
theorem conduct_load {α : Type} (path : SpecPath) (parse : ByteArray → Except SpecError α)
    (inject : α → Spec) (hof : ∀ raw, specOf grammar path (.bytes raw) = (parse raw).map inject)
    (k : Except SpecError ByteArray → Steps (Except SpecError α))
    (herror : ∀ e, k (.error e) = pure (.error e)) (hok : ∀ raw, k (.ok raw) = pure (parse raw))
    (s : Store) :
    Conduct grammar begun call (fun result s' =>
        Loaded grammar begun path s (result.map inject) s' ∧ Skippable path result)
      (readContainedSpecBytes path >>= k) s := by
  refine Conduct.bind ((conduct_read path s).imp fun result s₁ hread => ?_)
  obtain ⟨hbytes, hthere, hskip⟩ := hread
  cases result with
  | error e =>
    rw [herror]
    refine conduct_pure fun s' hlater => ⟨⟨fun spec h => (by cases h), fun name spec _ hspec => ?_⟩,
      fun e' he' => hskip e' ?_⟩
    · obtain ⟨raw, hraw, -⟩ := bytes_of_specAt (Shrunk.specAt_old hlater hspec)
      cases hthere raw hraw
    · cases he'
      rfl
  | ok raw =>
    rw [hok]
    obtain ⟨hbegun, hnow, hparse⟩ := hbytes raw rfl
    refine conduct_pure fun s' hlater => ⟨⟨fun spec h => ?_, fun name spec _ hspec => ?_⟩,
      fun e he => hparse e ?_⟩
    · rw [← hof] at h
      exact ⟨specAt_of_find hbegun h, specAt_of_find hnow h⟩
    · obtain ⟨raw', hraw', hspec'⟩ := bytes_of_specAt (Shrunk.specAt_old hlater hspec)
      cases hthere raw' hraw'
      rw [← hof]
      exact hspec'
    · rw [hof, he]
      rfl

/-- A script that alone defines its stem passes the check. -/
theorem conduct_checkTierCollision (path : SpecPath) (hpy : path.extension = .py) (s : Store) :
    Conduct grammar begun call (fun result s' =>
      Sole grammar s'.files path.stem path → result = .ok ()) (checkTierCollision path.stem) s := by
  -- the answer of one of the globs is empty where the file is the sole one
  have hempty : ∀ extension s₁ s', extension ≠ .py →
      Finds grammar begun call (.glob path.stem extension) s₁ → Meanwhile grammar s₁ s' →
      Sole grammar s'.files path.stem path → glob s₁.files path.stem extension = [] := by
    rintro extension s₁ s' hother ⟨-, hunhidden⟩ hlater hsole
    have hsole₁ := Shrunk.sole hlater hsole
    obtain hpy' | hnone | hnot := hunhidden
    · exact absurd hpy' hother
    · exact hnone
    · exact absurd hsole₁ (hnot path (mem_keys_of_defines hsole₁.1) rfl hpy)
  refine Conduct.bind (Program.sat_call fun s₁ _ hfinds₁ => ⟨trivial, fun s₂ hrely₁ => ?_⟩)
  refine Conduct.bind (Program.sat_call fun s₃ hrely₂ hfinds₃ => ⟨trivial, fun s₄ hrely₃ => ?_⟩)
  change Meanwhile grammar s₁ s₂ at hrely₁
  change Meanwhile grammar s₃ s₄ at hrely₃
  change Conduct grammar begun call _ (if glob s₁.files path.stem .yaml ++
    glob s₃.files path.stem .yml = [] then _ else _) s₄
  split
  · exact conduct_pure fun _ _ _ => rfl
  · next hfound =>
    refine conduct_pure fun s' hlater hsole => absurd ?_ hfound
    have hyml := hempty .yml s₃ s' (by decide) hfinds₃ (hrely₃.trans hlater) hsole
    have hyaml := hempty .yaml s₁ s' (by decide) hfinds₁
      (hrely₁.trans (hrely₂.trans (hrely₃.trans hlater))) hsole
    rw [hyaml, hyml]
    rfl

theorem specOf_workflow {path : SpecPath} (h : path.extension ≠ .py) (raw : ByteArray) :
    specOf grammar path (.bytes raw) = (grammar.parseWorkflow raw).map Spec.workflow := by
  unfold specOf
  dsimp only
  split <;> first | rfl | contradiction

theorem specOf_script {path : SpecPath} (h : path.extension = .py) (raw : ByteArray) :
    specOf grammar path (.bytes raw) =
      (grammar.parseScript path path.stem raw).map Spec.script := by
  rw [specOf, h]

theorem name_of_parseScript {path : SpecPath} {stem : String} {raw : ByteArray}
    {spec : ScriptSpec} (h : grammar.parseScript path stem raw = .ok spec) : spec.name = stem := by
  unfold Grammar.parseScript at h
  split at h
  · cases h
  · split at h
    · cases h
    · split at h
      · cases h
      · dsimp only at h
        split at h
        · cases h
        · cases h
          rfl

/-- A script is known by its stem. -/
theorem name_of_script {d : Directory} {path : SpecPath} {spec : Spec} (h : path.extension = .py)
    (hspec : specAt grammar d path = some spec) : spec.name = path.stem := by
  obtain ⟨raw, -, hof⟩ := bytes_of_specAt hspec
  rw [specOf_script h] at hof
  cases hparse : grammar.parseScript path path.stem raw with
  | error e =>
    rw [hparse] at hof
    cases hof
  | ok script =>
    rw [hparse] at hof
    cases hof
    exact name_of_parseScript hparse

theorem conduct_loadAndValidate (path : SpecPath) (h : path.extension ≠ .py) (s : Store) :
    Conduct grammar begun call
      (fun result s' => Loaded grammar begun path s (result.map Spec.workflow) s' ∧
        Skippable path result)
      (loadAndValidate grammar path) s :=
  conduct_load path grammar.parseWorkflow Spec.workflow (specOf_workflow h) _ (fun _ => rfl)
    (fun _ => rfl) s

theorem conduct_readScriptSpec (path : SpecPath) (h : path.extension = .py) (s : Store) :
    Conduct grammar begun call
      (fun result s' => Loaded grammar begun path s (result.map Spec.script) s' ∧
        Skippable path result)
      (readScriptSpec grammar path path.stem) s :=
  conduct_load path (grammar.parseScript path path.stem) Spec.script (specOf_script h) _
    (fun _ => rfl) (fun _ => rfl) s

theorem conduct_loadByExtension (path : SpecPath) (s : Store) :
    Conduct grammar begun call (Loaded grammar begun path s) (loadByExtension grammar path) s := by
  unfold loadByExtension
  split
  · next hyaml =>
    refine Conduct.bind ((conduct_loadAndValidate path (by rw [hyaml]; decide) s).imp
      fun result s₁ hload => conduct_pure fun s' hlater => ?_)
    exact hload.1.later hlater
  · next hyml =>
    refine Conduct.bind ((conduct_loadAndValidate path (by rw [hyml]; decide) s).imp
      fun result s₁ hload => conduct_pure fun s' hlater => ?_)
    exact hload.1.later hlater
  · next hpy =>
    refine Conduct.bind ((conduct_checkTierCollision path hpy s).since.imp
      fun result s₁ hcheck => ?_)
    obtain ⟨hsince, hfree⟩ := hcheck
    cases result with
    | error e =>
      refine conduct_pure fun s' hlater => ⟨fun spec h => (by cases h),
        fun name spec hsole hspec => ?_⟩
      have hname : name = path.stem :=
        (defines_unique hsole.1 (defines_of_specAt hspec)).trans (name_of_script hpy hspec)
      rw [hname] at hsole
      cases hfree (Shrunk.sole hlater hsole)
    | ok =>
      refine Conduct.bind ((conduct_readScriptSpec path hpy s₁).imp
        fun result s₂ hload => conduct_pure fun s' hlater => ?_)
      obtain ⟨hread, hthere⟩ := hload.1.later hlater
      exact ⟨fun spec h => ⟨(hread spec h).1, hsince.specAt_old (hread spec h).2⟩, hthere⟩

/-! ## The scan -/

/-- A row that is written is that of a file of the beginning. -/
theorem conduct_upsertIndex {path : SpecPath} {spec : Spec}
    (hspec : specAt grammar begun path = some spec) (s : Store) :
    Conduct grammar begun call (fun _ _ => True) (upsertIndex spec path) s := by
  refine Program.sat_call fun s₁ _ _ => ⟨⟨spec, ?_, ?_⟩, fun _ _ => trivial⟩
  · rw [indexRow_sourcePath]
    exact hspec
  · rw [indexRow_sourcePath]

theorem skip_yaml {path : SpecPath} (h : path.extension ≠ .py) {e : SpecError}
    (he : e.skipped path.extension = true) : skip .yaml e = .ok 0 := by
  refine if_pos ?_
  cases e with
  | osError other => exact absurd (eq_of_beq he) h
  | _ => exact he

theorem skip_script {path : SpecPath} (h : path.extension = .py) {e : SpecError}
    (he : e.skipped path.extension = true) : skip .py e = .ok 0 := by
  rw [h] at he
  exact if_pos he

theorem conduct_indexYaml (path : SpecPath) (h : path.extension ≠ .py) (s : Store) :
    Conduct grammar begun call (fun result _ => ∃ rows, result = .ok rows) (indexYaml grammar path)
      s := by
  refine Conduct.bind ((conduct_loadAndValidate path h s).imp fun result s₁ hload => ?_)
  cases result with
  | error e => exact conduct_pure fun _ _ => ⟨0, skip_yaml h (hload.2 e rfl)⟩
  | ok spec =>
    refine Conduct.bind ((conduct_upsertIndex (hload.1.1 _ rfl).1 s₁).imp fun _ _ _ => ?_)
    exact conduct_pure fun _ _ => ⟨1, rfl⟩

theorem conduct_indexScript (path : SpecPath) (h : path.extension = .py) (s : Store) :
    Conduct grammar begun call (fun result _ => ∃ rows, result = .ok rows)
      (indexScript grammar path) s := by
  refine Conduct.bind ((conduct_checkTierCollision path h s).imp fun result s₁ _ => ?_)
  cases result with
  | error e => exact conduct_pure fun _ _ => ⟨0, rfl⟩
  | ok =>
    refine Conduct.bind ((conduct_readScriptSpec path h s₁).imp fun result s₂ hload => ?_)
    cases result with
    | error e => exact conduct_pure fun _ _ => ⟨0, skip_script h (hload.2 e rfl)⟩
    | ok spec =>
      refine Conduct.bind ((conduct_upsertIndex (hload.1.1 _ rfl).1 s₂).imp fun _ _ _ => ?_)
      exact conduct_pure fun _ _ => ⟨1, rfl⟩

theorem conduct_indexAll {index : SpecPath → Steps (Except SpecError Nat)} {paths : List SpecPath}
    (h : ∀ path ∈ paths, ∀ s,
      Conduct grammar begun call (fun result _ => ∃ rows, result = .ok rows) (index path) s)
    (s : Store) : Conduct grammar begun call (fun result _ => ∃ rows, result = .ok rows)
      (indexAll index paths) s := by
  induction paths generalizing s with
  | nil => exact conduct_pure fun _ _ => ⟨0, rfl⟩
  | cons path rest ih =>
    refine Conduct.bind ((h path (by simp) s).imp fun result s₁ hresult => ?_)
    obtain ⟨rows, rfl⟩ := hresult
    refine Conduct.bind ((ih (fun p hp => h p (by simp [hp])) s₁).imp fun result s₂ hresult => ?_)
    obtain ⟨more, rfl⟩ := hresult
    exact conduct_pure fun _ _ => ⟨rows + more, rfl⟩

theorem mem_sortedPaths {path : SpecPath} {paths : List SpecPath} :
    path ∈ sortedPaths paths ↔ path ∈ paths := List.mem_insertionSort _

theorem extension_of_mem_glob {files : Directory} {pattern : String} {extension : Extension}
    {path : SpecPath} (h : path ∈ glob files pattern extension) : path.extension = extension := by
  have hfilter := (List.mem_filter.mp h).2
  rw [Bool.and_eq_true, decide_eq_true_eq] at hfilter
  exact hfilter.1

theorem conduct_rebuildIndexFromFiles (s : Store) :
    Conduct grammar begun call (fun result _ => ∃ rows, result = .ok rows)
      (rebuildIndexFromFiles grammar) s := by
  refine Conduct.bind (Program.sat_call fun s₁ _ _ => ⟨trivial, fun _ _ => ?_⟩)
  refine Conduct.bind (Program.sat_call fun s₂ _ _ => ⟨trivial, fun _ _ => ?_⟩)
  refine Conduct.bind (Program.sat_call fun s₃ _ _ => ⟨trivial, fun _ _ => ?_⟩)
  refine Conduct.bind (Program.sat_call fun s₄ _ _ => ⟨trivial, fun s₅ _ => ?_⟩)
  refine Conduct.bind ((conduct_indexAll (fun path hpath => ?_) s₅).imp fun result s₆ hresult => ?_)
  · refine conduct_indexYaml path ?_
    obtain hmem | hmem := List.mem_append.mp (mem_sortedPaths.mp hpath)
    · rw [extension_of_mem_glob hmem]
      decide
    · rw [extension_of_mem_glob hmem]
      decide
  · obtain ⟨rows, rfl⟩ := hresult
    refine Conduct.bind
      ((conduct_indexAll (fun path hpath => ?_) s₆).imp fun result s₇ hresult => ?_)
    · exact conduct_indexScript path (extension_of_mem_glob (mem_sortedPaths.mp hpath))
    · obtain ⟨more, rfl⟩ := hresult
      exact conduct_pure fun _ _ => ⟨rows + more, rfl⟩

/-! ## The answers -/

/-- A name that the pattern lets through has only its characters, but for one newline. -/
theorem nameChar_of_mem {name : String} (h : Workflow.Yaml.nameMatches name = true) {c : Char}
    (hc : c ∈ name.toList) : Workflow.Yaml.isNameChar c = true ∨ c = '\n' := by
  unfold Workflow.Yaml.nameMatches at h
  simp only [Bool.and_eq_true, List.all_eq_true] at h
  obtain ⟨-, hall⟩ := h
  split at hall
  · next hlast =>
    obtain ⟨body, hbody⟩ := List.getLast?_eq_some_iff.mp hlast
    rw [hbody, List.dropLast_concat] at hall
    rw [hbody, List.mem_append, List.mem_singleton] at hc
    exact hc.imp_left (hall c)
  · exact .inl (hall c hc)

theorem validateName_ok {name : String} (h : Workflow.Yaml.nameMatches name = true) :
    validateName name = .ok () := by
  have hother : ∀ c ∈ name.toList, c ≠ '.' ∧ c ≠ '/' := by
    intro c hc
    obtain hname | rfl := nameChar_of_mem h hc
    · constructor <;> rintro rfl <;> exact absurd hname (by decide)
    · decide
  have htoken : ¬ (name = "." ∨ name = "..") := by
    rintro (rfl | rfl) <;> exact (hother '.' (by decide)).1 rfl
  rw [validateName, if_neg htoken, if_neg fun hmem => (hother '/' hmem).2 rfl, if_pos h]

/-- What `_resolve_source_path` may answer for a name. -/
def Resolved (grammar : Grammar) (name : String) (result : Except SpecError SpecPath)
    (s' : Store) : Prop :=
  match result with
  | .error _ => Undefined grammar s'.files name
  | .ok path => Unambiguous grammar s'.files name ∧
    (∀ other, Defines grammar s'.files name other → other = path) ∧
    ((s'.files.find path).isSome → Defines grammar s'.files name path)

theorem conduct_resolveSourcePath {name : String} {s : Store}
    (hname : Workflow.Yaml.nameMatches name = true ∨ Undefined grammar s.files name) :
    Conduct grammar begun call (Resolved grammar name) (resolveSourcePath grammar name) s := by
  unfold resolveSourcePath
  split
  · next e herror =>
    refine conduct_pure fun s' hlater => ?_
    obtain hmatch | hundef := hname
    · rw [validateName_ok hmatch] at herror
      cases herror
    · exact Shrunk.undefined hlater hundef
  · refine Conduct.bind ((conduct_rebuildIndexFromFiles s).imp fun result s₁ hresult => ?_)
    obtain ⟨rows, rfl⟩ := hresult
    refine Conduct.bind (Program.sat_call fun s₂ _ hfinds => ⟨trivial, fun s₃ hrely => ?_⟩)
    obtain ⟨-, hone, hcomplete, hcurrent⟩ := hfinds
    change Meanwhile grammar s₂ s₃ at hrely
    have hrow : ∀ s', Meanwhile grammar s₃ s' → ∀ other, Defines grammar s'.files name other →
        ∃ spec, s₂.index.get name = some (indexRow spec other) := by
      intro s' hlater other hother
      have hold := (hrely.trans hlater).defines_old hother
      obtain ⟨spec, hspec, -⟩ := specAt_of_defines hold
      have hsole : Sole grammar s₂.files name other :=
        ⟨hold, fun third hthird => hone third other hthird hold⟩
      exact ⟨spec, hcomplete name other spec hsole hspec⟩
    have hanswer : ((SpecOp.selectSourcePath name).exec s₂).1
        = (s₂.index.get name).map (·.sourcePath) := rfl
    rw [hanswer]
    cases hget : s₂.index.get name with
    | none =>
      refine conduct_pure fun s' hlater other hother => ?_
      obtain ⟨spec, h⟩ := hrow s' hlater other hother
      rw [hget] at h
      cases h
    | some row =>
      refine conduct_pure fun s' hlater =>
        ⟨Shrunk.unambiguous (hrely.trans hlater) hone, fun other hother => ?_, fun hsome => ?_⟩
      · obtain ⟨spec, h⟩ := hrow s' hlater other hother
        rw [hget] at h
        cases h
        exact (indexRow_sourcePath spec other).symm
      · obtain ⟨hmem, rfl⟩ := (Table.get_eq_some_iff _ _ _).mp hget
        obtain ⟨raw, hraw⟩ := Option.isSome_iff_exists.mp hsome
        refine (hrely.trans hlater).defines_new (hcurrent row hmem ?_) hsome
        rw [(hrely.trans hlater).kept _ raw hraw]
        rfl

theorem Resolved.later {name : String} {result : Except SpecError SpecPath} {s s' : Store}
    (h : Resolved grammar name result s) (hlater : Meanwhile grammar s s') :
    Resolved grammar name result s' := by
  cases result with
  | error e => exact Shrunk.undefined hlater h
  | ok path =>
    obtain ⟨hone, honly, hown⟩ := h
    refine ⟨hlater.unambiguous hone, fun other hother => honly other (hlater.defines_old hother),
      fun hsome => ?_⟩
    obtain ⟨raw, hraw⟩ := Option.isSome_iff_exists.mp hsome
    refine hlater.defines_new (hown ?_) hsome
    rw [hlater.kept _ raw hraw]
    rfl

theorem conduct_getWorkflow {name : String} {s : Store}
    (hname : Workflow.Yaml.nameMatches name = true ∨ Undefined grammar s.files name) :
    Conduct grammar begun call (fun result s' => GetRight grammar begun s'.files name result)
      (getWorkflow grammar name) s := by
  refine Conduct.bind ((conduct_resolveSourcePath hname).imp fun result s₁ hresolved => ?_)
  cases result with
  | error e =>
    refine conduct_pure fun s' hlater => ⟨fun path spec hsole _ => ?_, fun spec h => (by cases h),
      fun _ _ _ _ _ => ⟨e, rfl⟩⟩
    exact absurd hsole.1 (hresolved.later hlater path)
  | ok path =>
    obtain ⟨hone, honly, hown⟩ := hresolved
    refine (conduct_loadByExtension path s₁).since.imp fun result s' hload => ?_
    obtain ⟨hlater, hread, hsole⟩ := hload
    refine ⟨fun other spec hother hspec => ?_, fun spec hok => ?_,
      fun other third hother hthird hne => ?_⟩
    · obtain rfl := honly other (Shrunk.defines_old hlater hother.1)
      exact hsole name spec hother hspec
    · obtain ⟨hbegun, hspec⟩ := hread spec hok
      have hdef := hown (isSome_of_defines (defines_of_specAt hspec))
      exact ⟨path, hbegun, defines_unique (defines_of_specAt hspec) hdef⟩
    · exact absurd (hone other third (Shrunk.defines_old hlater hother)
        (Shrunk.defines_old hlater hthird)) hne

theorem conduct_deleteWorkflow {name : String} {s : Store}
    (hname : Workflow.Yaml.nameMatches name = true ∨ Undefined grammar s.files name) :
    Conduct grammar begun (.deleteWorkflow name) (fun _ s' => Undefined grammar s'.files name)
      (deleteWorkflow grammar name) s := by
  refine Conduct.bind ((conduct_resolveSourcePath hname).imp fun result s₁ hresolved => ?_)
  cases result with
  | error e => exact conduct_pure fun s' hlater => hresolved.later hlater
  | ok path =>
    refine Conduct.bind (Program.sat_call fun s₂ hrely _ => ?_)
    obtain ⟨hone, honly, hown⟩ := hresolved.later hrely
    have hsole : (s₂.files.find path).isSome → Sole grammar s₂.files name path :=
      fun hsome => ⟨hown hsome, honly⟩
    have hundef : Undefined grammar (s₂.files.pop path) name := by
      intro other hother
      have hshrunk := Shrunk.remove fun hsome => ⟨name, hsole hsome⟩
      obtain rfl := honly other (hshrunk.defines_old hother)
      have hsome := isSome_of_defines hother
      rw [Dict.find_pop, if_pos rfl] at hsome
      cases hsome
    refine ⟨fun hsome => ⟨name, rfl, hsole hsome⟩, fun s₃ hrely' => ?_⟩
    have hafter : ∀ s', Meanwhile grammar s₃ s' → Undefined grammar s'.files name :=
      fun s' hlater => Shrunk.undefined (Shrunk.trans hrely' hlater) hundef
    change Conduct grammar begun _ _ (if (s₂.files.find path).isSome = true then _ else _) s₃
    split
    · refine Conduct.bind (Program.sat_call fun s₄ hlater _ =>
        ⟨hafter s₄ hlater, fun s₅ hlater' => ?_⟩)
      exact conduct_pure fun s' hend => hafter s' (hlater.trans (Shrunk.trans hlater' hend))
    · refine Conduct.bind (Program.sat_call fun s₄ hlater _ =>
        ⟨hafter s₄ hlater, fun s₅ hlater' => ?_⟩)
      exact conduct_pure fun s' hend => hafter s' (hlater.trans (Shrunk.trans hlater' hend))

/-- The one row of a name, in whatever order the rows come. -/
theorem filter_rows_of_get {index : Table WorkflowIndexRow.name} {name : String}
    {row : WorkflowIndexRow} {rows : List WorkflowIndexRow} (hperm : rows.Perm index.rows)
    (hget : index.get name = some row) : rows.filter (·.name = name) = [row] := by
  have hnodup : rows.Nodup := hperm.nodup_iff.mpr index.unique.of_map
  obtain ⟨hmem, hname⟩ := (Table.get_eq_some_iff _ _ _).mp hget
  refine List.perm_singleton.mp ((List.perm_ext_iff_of_nodup (hnodup.filter _)
    (List.nodup_singleton row)).mpr fun other => ?_)
  rw [List.mem_filter, List.mem_singleton, decide_eq_true_eq, hperm.mem_iff]
  constructor
  · rintro ⟨hother, hsame⟩
    exact List.inj_on_of_nodup_map index.unique hother hmem (hsame.trans hname.symm)
  · rintro rfl
    exact ⟨hmem, hname⟩

theorem conduct_listWorkflows (s : Store) :
    Conduct grammar begun .listWorkflows
      (fun result s' => ∃ rows, result = .ok rows ∧ ListRight grammar begun s'.files rows)
      (listWorkflows grammar) s := by
  refine Conduct.bind ((conduct_rebuildIndexFromFiles s).imp fun result s₁ hresult => ?_)
  obtain ⟨rows, rfl⟩ := hresult
  refine Conduct.bind (Program.sat_call fun s₂ _ hfinds => ⟨trivial, fun s₃ hrely => ?_⟩)
  obtain ⟨-, hcomplete, hlisted⟩ := hfinds
  refine conduct_pure fun s' hend => ⟨_, rfl, fun name path spec hsole hspec => ?_,
    fun row hrow => ?_⟩
  have hlater := Meanwhile.trans hrely hend
  · exact filter_rows_of_get (List.perm_insertionSort _ _)
      (hcomplete name path spec (Shrunk.sole hlater hsole) (Shrunk.specAt_old hlater hspec))
  · exact hlisted rfl row ((List.mem_insertionSort _).mp hrow)

/-- A right answer stays one. -/
theorem Right.later (call : Call) (reply : Reply) {d d' : Directory}
    (h : Right grammar begun d call reply) (hlater : Shrunk grammar d d') :
    Right grammar begun d' call reply := by
  cases call <;> cases reply <;> try exact h.elim
  · next result =>
    obtain ⟨rows, hrows, honce, hown⟩ := h
    exact ⟨rows, hrows, fun name path spec hsole hspec =>
      honce name path spec (hlater.sole hsole) (hlater.specAt_old hspec), hown⟩
  · next name bare result =>
    obtain ⟨hknown, hown, hambiguous⟩ := h
    refine ⟨fun path spec hsole hspec =>
      hknown path spec (hlater.sole hsole) (hlater.specAt_old hspec), hown, ?_⟩
    intro path other hpath hother
    exact hambiguous path other (hlater.defines_old hpath) (hlater.defines_old hother)
  · exact hlater.undefined h

/-- Each call gives a right answer. -/
theorem conduct {s : Store}
    (hname : ∀ name ∈ call.name?, Workflow.Yaml.nameMatches name = true ∨
      Undefined grammar s.files name) :
    Conduct grammar begun call (fun reply s' => Right grammar begun s'.files call reply)
      (call.program grammar) s := by
  cases call with
  | listWorkflows =>
    refine Conduct.bind ((conduct_listWorkflows s).imp fun result s₁ hright => ?_)
    exact conduct_pure fun s' hlater =>
      Right.later .listWorkflows (.rows result) hright hlater
  | getWorkflow name bare =>
    refine Conduct.bind ((conduct_getWorkflow (hname name rfl)).imp fun result s₁ hright => ?_)
    exact conduct_pure fun s' hlater =>
      Right.later (.getWorkflow name bare) (.spec result) hright hlater
  | deleteWorkflow name =>
    refine Conduct.bind ((conduct_deleteWorkflow (hname name rfl)).imp fun result s₁ hright => ?_)
    exact conduct_pure fun s' hlater => Shrunk.undefined hlater hright

end Conduct

end CliAgentOrchestrator.SpecIndex
