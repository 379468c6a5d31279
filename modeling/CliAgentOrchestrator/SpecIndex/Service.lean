import CliAgentOrchestrator.Library.RelyGuarantee
import CliAgentOrchestrator.SpecIndex.Directory

/-!
# Listing, reading and deleting workflows

Each call empties the index, fills it again file by file and only then reads it. `SpecOp` is what
it does to the directory and to the table, one file operation or one transaction at a time.
-/

set_option autoImplicit false

namespace CliAgentOrchestrator.SpecIndex

open Library

/-! ## Operations -/

inductive SpecOp
  | glob (pattern : String) (extension : Extension)
  | isFile (path : SpecPath)
  | read (path : SpecPath)
  | remove (path : SpecPath)
  | deleteRows
  | upsertRow (row : WorkflowIndexRow)
  | selectRows
  | selectSourcePath (name : String)
  | deleteRow (name : String)
deriving DecidableEq

namespace SpecOp

def Answer : SpecOp → Type
  | glob .. => List SpecPath
  | isFile _ => Bool
  | read _ => Option Contents
  | remove _ => Bool
  | deleteRows => Unit
  | upsertRow _ => Unit
  | selectRows => List WorkflowIndexRow
  | selectSourcePath _ => Option SpecPath
  | deleteRow _ => Unit

/-- `ON CONFLICT(name) DO UPDATE SET …`: every other column. -/
def rowPatch (row : WorkflowIndexRow) : Patch WorkflowIndexRow.name where
  apply old := { row with name := old.name }
  keeps _ := rfl

/-- A removal answers whether the file was there.
SOURCE: services/workflow_spec_service.py:377-391, 411-413, 466-470, 493-496, 747-755 -/
def exec : ∀ op : SpecOp, Store → op.Answer × Store
  | glob pattern extension, s => (SpecIndex.glob s.files pattern extension, s)
  | isFile path, s => ((s.files.find path).isSome, s)
  | read path, s => (s.files.find path, s)
  | remove path, s => ((s.files.find path).isSome, { s with files := s.files.pop path })
  | deleteRows, s => ((), { s with index := Table.empty })
  | upsertRow row, s => ((), { s with index := s.index.upsert row (rowPatch row) })
  | selectRows, s => (s.index.rows.insertionSort (fun a b => a.name ≤ b.name), s)
  | selectSourcePath name, s => ((s.index.get name).map (·.sourcePath), s)
  | deleteRow name, s => ((), { s with index := s.index.deleteKey name })

/-! ### The rows behind an operation -/

/-- A write puts its row under its name and touches no other. -/
theorem get_upsertRow (index : Table WorkflowIndexRow.name) (row : WorkflowIndexRow)
    (name : String) : (index.upsert row (rowPatch row)).get name =
      if name = row.name then some row else index.get name := by
  rw [Table.get_upsert]
  split
  · next hname =>
    subst hname
    cases hget : index.get row.name with
    | none => rfl
    | some old =>
      have hkey : old.name = row.name := Table.key_of_get hget
      show some { row with name := old.name } = some row
      rw [hkey]
  · rfl

/-- A row behind an operation was there before, or the operation wrote it. -/
theorem mem_rows_exec {op : SpecOp} {s : Store} {row : WorkflowIndexRow}
    (h : row ∈ (op.exec s).2.index.rows) :
    op ≠ .deleteRows ∧ row ∈ s.index.rows ∨ op = .upsertRow row := by
  cases op with
  | deleteRows => cases h
  | upsertRow written =>
    change row ∈ (s.index.upsert written (rowPatch written)).rows at h
    rw [Table.mem_rows_iff, get_upsertRow] at h
    split at h
    · rw [Option.some.inj h]
      exact .inr rfl
    · exact .inl ⟨by simp, (Table.mem_rows_iff _ _).mpr h⟩
  | deleteRow name => exact .inl ⟨by simp, (List.mem_filter.mp h).1⟩
  | _ => exact .inl ⟨by simp, h⟩

end SpecOp

/-- What a call does, operation by operation. -/
abbrev Steps := Program SpecOp SpecOp.Answer

namespace Steps

def glob (pattern : String) (extension : Extension) : Steps (List SpecPath) :=
  Program.call (SpecOp.glob pattern extension)

def isFile (path : SpecPath) : Steps Bool := Program.call (SpecOp.isFile path)

def read (path : SpecPath) : Steps (Option Contents) := Program.call (SpecOp.read path)

def remove (path : SpecPath) : Steps Bool := Program.call (SpecOp.remove path)

def deleteRows : Steps Unit := Program.call SpecOp.deleteRows

def upsertRow (row : WorkflowIndexRow) : Steps Unit := Program.call (SpecOp.upsertRow row)

def selectRows : Steps (List WorkflowIndexRow) := Program.call SpecOp.selectRows

def selectSourcePath (name : String) : Steps (Option SpecPath) :=
  Program.call (SpecOp.selectSourcePath name)

def deleteRow (name : String) : Steps Unit := Program.call (SpecOp.deleteRow name)

end Steps

/-! ## Loading -/

section Loading

variable (grammar : Grammar)

/-- SOURCE: services/workflow_spec_service.py:198-223 -/
def readContainedSpecBytes (path : SpecPath) : Steps (Except SpecError ByteArray) := do
  if ← Steps.isFile path then
    match ← Steps.read path with
    | none => pure (.error (.fileNotFound path))
    | some .unreadable => pure (.error (.osError path))
    | some (.bytes raw) => pure (.ok raw)
  else pure (.error (.fileNotFound path))

/-- SOURCE: services/workflow_spec_service.py:251-292 -/
def loadAndValidate (path : SpecPath) : Steps (Except SpecError WorkflowSpec) := do
  match ← readContainedSpecBytes path with
  | .error e => pure (.error e)
  | .ok raw => pure (grammar.parseWorkflow raw)

/-- SOURCE: services/workflow_spec_service.py:623-677 -/
def readScriptSpec (path : SpecPath) (stem : String) : Steps (Except SpecError ScriptSpec) := do
  match ← readContainedSpecBytes path with
  | .error e => pure (.error e)
  | .ok raw => pure (grammar.parseScript path stem raw)

/-- SOURCE: services/workflow_spec_service.py:516-528 -/
def checkTierCollision (stem : String) : Steps (Except SpecError Unit) := do
  let yaml ← Steps.glob stem .yaml
  let yml ← Steps.glob stem .yml
  if yaml ++ yml = [] then pure (.ok ()) else pure (.error (.tierCollision stem))

/-- SOURCE: services/workflow_spec_service.py:710-724 -/
def loadByExtension (path : SpecPath) : Steps (Except SpecError Spec) := do
  match path.extension with
  | .yaml | .yml => return (← loadAndValidate grammar path).map Spec.workflow
  | .py =>
    match ← checkTierCollision path.stem with
    | .error e => pure (.error e)
    | .ok () => return (← readScriptSpec grammar path path.stem).map Spec.script

end Loading

/-! ## The index -/

section Index

variable (grammar : Grammar)

/-- SOURCE: services/workflow_spec_service.py:340-391 -/
def upsertIndex (spec : Spec) (sourcePath : SpecPath) : Steps Unit :=
  Steps.upsertRow (indexRow spec sourcePath)

/-- How many rows were written for a file whose load raised. -/
def skip (extension : Extension) (e : SpecError) : Except SpecError Nat :=
  if e.skipped extension then .ok 0 else .error e

/-- One YAML file of the scan.
SOURCE: services/workflow_spec_service.py:415-428 -/
def indexYaml (path : SpecPath) : Steps (Except SpecError Nat) := do
  match ← loadAndValidate grammar path with
  | .error e => pure (skip .yaml e)
  | .ok spec =>
    upsertIndex (.workflow spec) path
    pure (.ok 1)

/-- One script of the scan; one with a YAML file of its stem is skipped.
SOURCE: services/workflow_spec_service.py:429-448 -/
def indexScript (path : SpecPath) : Steps (Except SpecError Nat) := do
  match ← checkTierCollision path.stem with
  | .error _ => pure (.ok 0)
  | .ok () =>
    match ← readScriptSpec grammar path path.stem with
    | .error e => pure (skip .py e)
    | .ok spec =>
      upsertIndex (.script spec) path
      pure (.ok 1)

/-- Each of the paths in turn, and how many rows were written. -/
def indexAll (index : SpecPath → Steps (Except SpecError Nat)) :
    List SpecPath → Steps (Except SpecError Nat)
  | [] => pure (.ok 0)
  | path :: rest => do
    match ← index path with
    | .error e => pure (.error e)
    | .ok rows => return (← indexAll index rest).map (rows + ·)

/-- `sorted(paths)`: the directory is the same for all of them. -/
def sortedPaths (paths : List SpecPath) : List SpecPath :=
  paths.insertionSort fun a b => a.fileName ≤ b.fileName

/-- SOURCE: services/workflow_spec_service.py:394-449 -/
def rebuildIndexFromFiles : Steps (Except SpecError Nat) := do
  let yaml ← Steps.glob "*" .yaml
  let yml ← Steps.glob "*" .yml
  let py ← Steps.glob "*" .py
  Steps.deleteRows
  match ← indexAll (indexYaml grammar) (sortedPaths (yaml ++ yml)) with
  | .error e => pure (.error e)
  | .ok rows => return (← indexAll (indexScript grammar) (sortedPaths py)).map (rows + ·)

/-- SOURCE: services/workflow_spec_service.py:452-482 -/
def listWorkflows : Steps (Except SpecError (List WorkflowIndexRow)) := do
  match ← rebuildIndexFromFiles grammar with
  | .error e => pure (.error e)
  | .ok _ => return .ok (← Steps.selectRows)

/-- SOURCE: services/workflow_spec_service.py:66-79 -/
def validateName (name : String) : Except SpecError Unit :=
  if name = "." ∨ name = ".." then
    .error (.valueError ("workflow name '" ++ name ++ "' is not allowed (traversal token)"))
  else if '/' ∈ name.toList then
    .error (.valueError ("workflow name '" ++ name ++ "' must not contain path separators"))
  else if Workflow.Yaml.nameMatches name then .ok ()
  else
    .error (.valueError
      ("workflow name '" ++ name ++ "' is invalid (must match ^[A-Za-z0-9_-]\x7b1,64\x7d$)"))

/-- SOURCE: services/workflow_spec_service.py:485-499 -/
def resolveSourcePath (name : String) : Steps (Except SpecError SpecPath) := do
  match validateName name with
  | .error e => pure (.error e)
  | .ok () =>
    match ← rebuildIndexFromFiles grammar with
    | .error e => pure (.error e)
    | .ok _ =>
      match ← Steps.selectSourcePath name with
      | none => pure (.error (.keyError name))
      | some path => pure (.ok path)

/-- The arm for a name; an argument with a separator is a path.
SOURCE: services/workflow_spec_service.py:680-707 -/
def getWorkflow (name : String) : Steps (Except SpecError Spec) := do
  match ← resolveSourcePath grammar name with
  | .error e => pure (.error e)
  | .ok path => loadByExtension grammar path

/-- SOURCE: services/workflow_spec_service.py:727-755 -/
def deleteWorkflow (name : String) : Steps (Except SpecError Unit) := do
  match ← resolveSourcePath grammar name with
  | .error e => pure (.error e)
  | .ok path =>
    if ← Steps.remove path then
      Steps.deleteRow name
      pure (.ok ())
    else
      Steps.deleteRow name
      pure (.error (.keyError name))

end Index

end CliAgentOrchestrator.SpecIndex
