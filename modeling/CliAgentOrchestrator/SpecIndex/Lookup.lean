import CliAgentOrchestrator.SpecIndex.Service

/-!
# Calls side by side

Any number of calls run against one directory and one index, one operation of one of them at a
time. `Reflects` says that every answer given so far is the directory's: a name that one file
defines is found, a spec or a row is that of a file with the name, a name with two files is
refused, and a deleted name is gone.

`Orderly` is a condition on the single operations. A call reads the index only while nobody else
has emptied it without having filled it again, and asks only for a name that one file defines at
most; a script that alone defines its stem has no YAML file of that stem; no row is written for a
file that is gone already while somebody is about to list; and no file that is read makes the scan
raise.
-/

set_option autoImplicit false

namespace CliAgentOrchestrator.SpecIndex

open Library

/-! ## What the directory defines -/

section Defines

variable (grammar : Grammar)

/-- What the loader of the file's extension makes of it. -/
def specOf (path : SpecPath) : Contents → Except SpecError Spec
  | .unreadable => .error (.osError path)
  | .bytes raw =>
    match path.extension with
    | .yaml | .yml => (grammar.parseWorkflow raw).map Spec.workflow
    | .py => (grammar.parseScript path path.stem raw).map Spec.script

/-- The spec in a file of the directory, if it is a valid one. -/
def specAt (files : Directory) (path : SpecPath) : Option Spec :=
  (files.find path).bind fun contents => (specOf grammar path contents).toOption

/-- A load ends well, or a scan skips the file. -/
def Skippable {α : Type} (path : SpecPath) (result : Except SpecError α) : Prop :=
  ∀ e, result = .error e → e.skipped path.extension = true

instance {α : Type} (path : SpecPath) : ∀ result : Except SpecError α,
    Decidable (Skippable path result)
  | .error e =>
    decidable_of_iff (e.skipped path.extension = true) ⟨fun h _ heq => (Except.error.inj heq) ▸ h,
      fun h => h e rfl⟩
  | .ok _ => .isTrue fun _ h => by cases h

/-- The file, if it is there, is valid or one that a scan skips. -/
def Tame (files : Directory) (path : SpecPath) : Prop :=
  ∀ contents ∈ files.find path, Skippable path (specOf grammar path contents)

instance (files : Directory) (path : SpecPath) : Decidable (Tame grammar files path) :=
  inferInstanceAs (Decidable (∀ contents ∈ files.find path, Skippable _ _))

/-- The file is a valid spec file and defines the name. -/
def Defines (files : Directory) (name : String) (path : SpecPath) : Prop :=
  (specAt grammar files path).map Spec.name = some name

instance (files : Directory) (name : String) (path : SpecPath) :
    Decidable (Defines grammar files name path) :=
  inferInstanceAs (Decidable (_ = _))

/-- No valid spec file defines the name. -/
def Undefined (files : Directory) (name : String) : Prop :=
  ∀ path, ¬ Defines grammar files name path

/-- One valid spec file defines the name at most. -/
def Unambiguous (files : Directory) (name : String) : Prop :=
  ∀ path other, Defines grammar files name path → Defines grammar files name other → path = other

/-- The file is the one that defines the name. -/
def Sole (files : Directory) (name : String) (path : SpecPath) : Prop :=
  Defines grammar files name path ∧ ∀ other, Defines grammar files name other → other = path

variable {grammar}

/-- A file that defines a name is in the directory. -/
theorem mem_keys_of_defines {files : Directory} {name : String} {path : SpecPath}
    (h : Defines grammar files name path) : path ∈ files.rows.map Prod.fst := by
  obtain ⟨spec, hspec, -⟩ := Option.map_eq_some_iff.mp h
  obtain ⟨contents, hcontents, -⟩ := Option.bind_eq_some_iff.mp hspec
  exact List.mem_map.mpr ⟨(path, contents), Dict.find_eq_some_iff.mp hcontents, rfl⟩

instance (files : Directory) (name : String) : Decidable (Undefined grammar files name) :=
  decidable_of_iff (∀ path ∈ files.rows.map Prod.fst, ¬ Defines grammar files name path)
    ⟨fun h path hdef => h path (mem_keys_of_defines hdef) hdef, fun h path _ => h path⟩

instance (files : Directory) (name : String) : Decidable (Unambiguous grammar files name) :=
  decidable_of_iff (∀ path ∈ files.rows.map Prod.fst, ∀ other ∈ files.rows.map Prod.fst,
      Defines grammar files name path → Defines grammar files name other → path = other)
    ⟨fun h path other hpath hother =>
      h path (mem_keys_of_defines hpath) other (mem_keys_of_defines hother) hpath hother,
      fun h path _ other _ => h path other⟩

instance (files : Directory) (name : String) (path : SpecPath) :
    Decidable (Sole grammar files name path) :=
  decidable_of_iff (Defines grammar files name path ∧
      ∀ other ∈ files.rows.map Prod.fst, Defines grammar files name other → other = path)
    ⟨fun h => ⟨h.1, fun other hother => h.2 other (mem_keys_of_defines hother) hother⟩,
      fun h => ⟨h.1, fun other _ => h.2 other⟩⟩

end Defines

/-! ## Calls -/

/-- A lookup by name: an argument of `get_workflow` with a separator is a path. -/
inductive Call
  | listWorkflows
  | getWorkflow (name : String) (bare : '/' ∉ name.toList)
  | deleteWorkflow (name : String)
deriving DecidableEq

inductive Reply
  | rows (result : Except SpecError (List WorkflowIndexRow))
  | spec (result : Except SpecError Spec)
  | deleted (result : Except SpecError Unit)
deriving DecidableEq

namespace Call

def name? : Call → Option String
  | listWorkflows => none
  | getWorkflow name _ => some name
  | deleteWorkflow name => some name

def program (grammar : Grammar) : Call → Steps Reply
  | listWorkflows => return .rows (← SpecIndex.listWorkflows grammar)
  | getWorkflow name _ => return .spec (← SpecIndex.getWorkflow grammar name)
  | deleteWorkflow name => return .deleted (← SpecIndex.deleteWorkflow grammar name)

end Call

/-- How far a call is: before it empties the index, before it reads it, behind that. -/
inductive Stage
  | scanning
  | rebuilding
  | selected
deriving DecidableEq

def Stage.after (stage : Stage) : SpecOp → Stage
  | .deleteRows => .rebuilding
  | .selectRows => .selected
  | .selectSourcePath _ => .selected
  | _ => stage

/-- A call with the directory as it was when it began, and what it has still to do. -/
structure Request where
  call : Call
  begun : Directory
  stage : Stage
  rest : Steps Reply

structure World where
  store : Store
  requests : List Request

inductive Event
  | begin (call : Call)
  | step (i : Nat)

/-- A call begins, or one of them takes its next operation. -/
def World.exec (grammar : Grammar) (w : World) : Event → World
  | .begin call =>
    { w with requests := w.requests ++ [⟨call, w.store.files, .scanning, call.program grammar⟩] }
  | .step i =>
    match w.requests[i]? with
    | none => w
    | some ⟨call, begun, stage, .step op next⟩ =>
      { store := (op.exec w.store).2
        requests := w.requests.set i ⟨call, begun, stage.after op, next (op.exec w.store).1⟩ }
    | some ⟨_, _, _, .done _⟩ => w

/-! ## Right answers -/

section Right

variable (grammar : Grammar)

/-- What `get_workflow` may answer for a name. -/
structure GetRight (begun now : Directory) (name : String) (result : Except SpecError Spec) :
    Prop where
  known : ∀ path spec, Sole grammar now name path → specAt grammar now path = some spec →
    result = .ok spec
  own : ∀ spec, result = .ok spec →
    ∃ path, specAt grammar begun path = some spec ∧ spec.name = name
  ambiguous : ∀ path other, Defines grammar now name path → Defines grammar now name other →
    path ≠ other → ∃ e, result = .error e

/-- What `list_workflows` may answer. -/
structure ListRight (begun now : Directory) (rows : List WorkflowIndexRow) : Prop where
  once : ∀ name path spec, Sole grammar now name path → specAt grammar now path = some spec →
    rows.filter (·.name = name) = [indexRow spec path]
  own : ∀ row ∈ rows, ∃ spec, specAt grammar begun row.sourcePath = some spec ∧
    row = indexRow spec row.sourcePath

/-- What a call that began with one directory may have answered once it has become the other. -/
def Right (begun now : Directory) : Call → Reply → Prop
  | .listWorkflows, .rows result => ∃ rows, result = .ok rows ∧ ListRight grammar begun now rows
  | .getWorkflow name _, .spec result => GetRight grammar begun now name result
  | .deleteWorkflow name, .deleted _ => Undefined grammar now name
  | _, _ => False

end Right

/-! ## The condition -/

namespace World

variable (grammar : Grammar)

def others (w : World) (i : Nat) : List Request := w.requests.eraseIdx i

end World

def SpecOp.isSelect : SpecOp → Bool
  | selectRows => true
  | selectSourcePath _ => true
  | _ => false

/-- The call has emptied the index and has not come to its read of it. -/
def Request.Refilling (r : Request) : Prop :=
  r.stage = .rebuilding ∧ ∀ op ∈ r.rest.head?, op.isSelect = false

instance (r : Request) : Decidable r.Refilling := inferInstanceAs (Decidable (_ ∧ _))

/-- The call has emptied the index and is going to list it. -/
def Request.Listing (r : Request) : Prop :=
  r.call = .listWorkflows ∧ r.stage ≠ .scanning ∧ r.rest.head?.isSome

instance (r : Request) : Decidable r.Listing := inferInstanceAs (Decidable (_ ∧ _ ∧ _))

/-- No YAML file stands in the way of a script that alone defines its stem. -/
def Unhidden (grammar : Grammar) (files : Directory) (stem : String) (extension : Extension) :
    Prop :=
  extension = .py ∨ glob files stem extension = [] ∨
    ∀ path ∈ files.rows.map Prod.fst, path.stem = stem → path.extension = .py →
      ¬ Sole grammar files stem path

instance (grammar : Grammar) (files : Directory) (stem : String) (extension : Extension) :
    Decidable (Unhidden grammar files stem extension) :=
  inferInstanceAs (Decidable (_ ∨ _ ∨ _))

namespace World

variable (grammar : Grammar)

/-- The operation goes right for the call at that place. -/
def Clear (w : World) (i : Nat) : SpecOp → Prop
  | .glob pattern extension => Unhidden grammar w.store.files pattern extension
  | .read path => Tame grammar w.store.files path
  | .upsertRow row => (w.store.files.find row.sourcePath).isSome ∨
    ∀ r ∈ w.others i, ¬ r.Listing
  | .selectRows => ∀ r ∈ w.others i, ¬ r.Refilling
  | .selectSourcePath name =>
    (∀ r ∈ w.others i, ¬ r.Refilling) ∧ Unambiguous grammar w.store.files name
  | _ => True

instance (w : World) (i : Nat) : ∀ op, Decidable (w.Clear grammar i op)
  | .glob .. => inferInstanceAs (Decidable (Unhidden ..))
  | .read _ => inferInstanceAs (Decidable (Tame ..))
  | .upsertRow _ => inferInstanceAs (Decidable (_ ∨ _))
  | .selectRows => inferInstanceAs (Decidable (∀ r ∈ w.others i, ¬ r.Refilling))
  | .selectSourcePath _ => inferInstanceAs (Decidable (_ ∧ _))
  | .isFile _ | .remove _ | .deleteRows | .deleteRow _ => .isTrue trivial

/-- A name that a file defines passes the name check, and each operation is `Clear`. -/
def Orderly (w : World) : Event → Prop
  | .begin call => ∀ name ∈ call.name?,
    Workflow.Yaml.nameMatches name = true ∨ Undefined grammar w.store.files name
  | .step i => ∀ r ∈ w.requests[i]?, ∀ op ∈ r.rest.head?, w.Clear grammar i op

instance (w : World) : ∀ e, Decidable (w.Orderly grammar e)
  | .begin call => inferInstanceAs (Decidable (∀ name ∈ call.name?, _))
  | .step i => inferInstanceAs (Decidable (∀ r ∈ w.requests[i]?, ∀ op ∈ r.rest.head?, _))

end World

end CliAgentOrchestrator.SpecIndex
