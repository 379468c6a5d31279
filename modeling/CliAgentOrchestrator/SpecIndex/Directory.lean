import CliAgentOrchestrator.Library.Dict
import CliAgentOrchestrator.Workflow.StepOutput
import Mathlib.Data.List.Infix

/-!
# The spec directory

The files that the globs of the index can see, the specs that the two loaders read out of them,
and the table of rows. A YAML file is known by the name it declares, a script by its stem.
-/

set_option autoImplicit false

namespace CliAgentOrchestrator.SpecIndex

open Library

/-! ## Files -/

inductive Extension
  | yaml
  | yml
  | py
deriving DecidableEq

def Extension.text : Extension → String
  | yaml => ".yaml"
  | yml => ".yml"
  | py => ".py"

/-- A file of the directory with one of the three extensions. A glob sees no hidden file. -/
structure SpecPath where
  stem : String
  extension : Extension
  visible : stem.toList ≠ [] ∧ stem.toList.head? ≠ some '.'
deriving DecidableEq

def SpecPath.fileName (path : SpecPath) : String := path.stem ++ path.extension.text

/-- What reading a file gives: its bytes, or another `OSError` than a missing file's. -/
inductive Contents
  | bytes (raw : ByteArray)
  | unreadable

/-- The files of the directory with what they hold. -/
abbrev Directory := Dict SpecPath Contents

/-! ## Globs -/

/-- One place of a pattern. -/
inductive GlobToken
  | star
  | anyOne
  | literal (c : Char)
  | oneOf (negated : Bool) (body : List Char)

/-- Whether the body of a class has the character; a hyphen between two others is a range. -/
def classHas (c : Char) : List Char → Bool
  | lo :: '-' :: hi :: rest => (lo ≤ c && c ≤ hi) || classHas c rest
  | d :: rest => c == d || classHas c rest
  | [] => false

/-- The body of a class and what follows its bracket. A closing bracket in the first place belongs
to the body. -/
def classBody : List Char → Option (List Char × List Char)
  | [] => none
  | first :: rest =>
    let body := rest.takeWhile (· ≠ ']')
    match rest.dropWhile (· ≠ ']') with
    | [] => none
    | _ :: behind => some (first :: body, behind)

/-- `fnmatch.translate`; each place takes one unit of the fuel at most. -/
def globTokens : Nat → List Char → List GlobToken
  | 0, _ => []
  | _ + 1, [] => []
  | fuel + 1, '*' :: rest => .star :: globTokens fuel rest
  | fuel + 1, '?' :: rest => .anyOne :: globTokens fuel rest
  | fuel + 1, '[' :: '!' :: rest =>
    match classBody rest with
    | some (body, behind) => .oneOf true body :: globTokens fuel behind
    | none => .literal '[' :: globTokens fuel ('!' :: rest)
  | fuel + 1, '[' :: rest =>
    match classBody rest with
    | some (body, behind) => .oneOf false body :: globTokens fuel behind
    | none => .literal '[' :: globTokens fuel rest
  | fuel + 1, c :: rest => .literal c :: globTokens fuel rest

def tokensMatch : List GlobToken → List Char → Bool
  | [], t => t.isEmpty
  | .star :: rest, t => t.tails.any (tokensMatch rest)
  | .anyOne :: rest, _ :: t => tokensMatch rest t
  | .literal d :: rest, c :: t => c == d && tokensMatch rest t
  | .oneOf negated body :: rest, c :: t => (classHas c body != negated) && tokensMatch rest t
  | _ :: _, [] => false

def fnmatch (name pattern : String) : Bool :=
  tokensMatch (globTokens (pattern.toList.length + 1) pattern.toList) name.toList

/-- A star takes every name. -/
theorem fnmatch_star (name : String) : fnmatch name "*" = true := by
  show name.toList.tails.any (tokensMatch []) = true
  rw [List.any_eq_true]
  exact ⟨[], (List.mem_tails [] _).mpr (List.nil_suffix), rfl⟩

/-- `glob.glob` of the pattern followed by the extension. The extension holds nothing that closes
a class, so the pattern is matched against the stems. -/
def glob (files : Directory) (pattern : String) (extension : Extension) : List SpecPath :=
  (files.rows.map Prod.fst).filter fun path =>
    path.extension = extension && fnmatch path.stem pattern

/-! ## Specs -/

inductive Mode
  | sequential
  | parallel
  | pipeline
  | loop
deriving DecidableEq

/-- `_NAME_RE.fullmatch`.
SOURCE: models/workflow.py:243-244, constants.py:972 -/
def nameFullMatches (name : String) : Bool :=
  decide (1 ≤ name.toList.length) && decide (name.toList.length ≤ 64) &&
    name.toList.all Workflow.Yaml.isNameChar

/-- What the index keeps of a YAML spec, and that its name passed the grammar. `validate_grammar`
refuses a spec without steps.
SOURCE: models/workflow.py:217-314 -/
structure WorkflowSpec where
  name : String
  description : String := ""
  mode : Mode := .sequential
  steps : List String
  named : nameFullMatches name = true
deriving DecidableEq

/-- SOURCE: models/workflow.py:335-371 -/
structure LintFinding where
  ruleId : String
  isError : Bool
  line : Nat
  message : String
deriving DecidableEq

inductive InputDefault
  | string (value : String)
  | int (value : Int)
  | bool (value : Bool)
deriving DecidableEq

/-- SOURCE: models/workflow.py:167-177 -/
structure InputDecl where
  type : String
  required : Bool := false
  default : Option InputDefault := none
deriving DecidableEq

/-- SOURCE: models/workflow.py:391-411 -/
structure ScriptSpec where
  name : String
  path : SpecPath
  source : String
  contentHash : String
  findings : List LintFinding
  inputs : List (String × InputDecl)
deriving DecidableEq

inductive Spec
  | workflow (spec : WorkflowSpec)
  | script (spec : ScriptSpec)
deriving DecidableEq

def Spec.name : Spec → String
  | workflow spec => spec.name
  | script spec => spec.name

/-- What a call raises; `raised` is any exception but these and the other `OSError`s, such as the
`RecursionError` of a text nested too deep. -/
inductive SpecError
  | valueError (message : String)
  | fileNotFound (path : SpecPath)
  | osError (path : SpecPath)
  | keyError (name : String)
  | tierCollision (stem : String)
  | raised (message : String)
deriving DecidableEq

/-- The scan skips a file whose load raises this; any other exception leaves the scan.
SOURCE: services/workflow_spec_service.py:424-426, 445-447 -/
def SpecError.skipped (extension : Extension) : SpecError → Bool
  | valueError _ | fileNotFound _ => true
  | osError _ => extension == .py
  | keyError _ | tierCollision _ | raised _ => false

/-- What reads a text: the YAML grammar, the linter, the walk over the syntax tree and the hash,
with the text of a decoding error. The first three may raise. -/
structure Grammar where
  workflowSpec : String → Except SpecError WorkflowSpec
  lintScript : String → Except SpecError (List LintFinding)
  extractInputs : String → Except SpecError (List (String × InputDecl))
  sha256 : String → String
  decodeError : ByteArray → String

/-- `WORKFLOW_MAX_SPEC_BYTES`.
SOURCE: constants.py:913 -/
def workflowMaxSpecBytes : Nat := 256 * 1024

namespace Grammar

variable (grammar : Grammar)

/-- What `load_and_validate` makes of the bytes it read.
SOURCE: services/workflow_spec_service.py:276-292 -/
def parseWorkflow (raw : ByteArray) : Except SpecError WorkflowSpec :=
  if workflowMaxSpecBytes < raw.size then
    .error (.valueError ("spec exceeds " ++ toString workflowMaxSpecBytes ++ " bytes (max)"))
  else
    match String.fromUTF8? raw with
    | none => .error (.valueError ("spec is not valid UTF-8: " ++ grammar.decodeError raw))
    | some text => grammar.workflowSpec text

/-- What `_read_script_spec` makes of the bytes it read. A source without a syntax tree keeps its
finding and has no inputs.
SOURCE: services/workflow_spec_service.py:645-677 -/
def parseScript (path : SpecPath) (stem : String) (raw : ByteArray) : Except SpecError ScriptSpec :=
  if workflowMaxSpecBytes < raw.size then
    .error (.valueError
      ("spec exceeds " ++ toString workflowMaxSpecBytes ++ " bytes (short-circuited read)"))
  else
    match String.fromUTF8? raw with
    | none => .error (.valueError ("spec is not valid UTF-8: " ++ grammar.decodeError raw))
    | some source =>
      match grammar.lintScript source with
      | .error e => .error e
      | .ok findings =>
        let inputs :=
          if findings.any (·.ruleId == "syntax") then .ok [] else grammar.extractInputs source
        match inputs with
        | .error e => .error e
        | .ok inputs => .ok ⟨stem, path, source, grammar.sha256 source, findings, inputs⟩

end Grammar

/-! ## Rows -/

inductive IndexMode
  | spec (mode : Mode)
  | script
deriving DecidableEq

/-- `indexed_at`, which no function reads, is left out.
SOURCE: models/workflow_runtime.py:148-162 -/
structure WorkflowIndexRow where
  name : String
  sourcePath : SpecPath
  mode : IndexMode
  stepCount : Option Nat
  description : String
deriving DecidableEq

/-- The row that `upsert_index` writes.
SOURCE: services/workflow_spec_service.py:361-376 -/
def indexRow (spec : Spec) (sourcePath : SpecPath) : WorkflowIndexRow :=
  match spec with
  | .script spec => ⟨spec.name, sourcePath, .script, none, ""⟩
  | .workflow spec =>
    ⟨spec.name, sourcePath, .spec spec.mode, some spec.steps.length, spec.description⟩

@[simp] theorem indexRow_name (spec : Spec) (sourcePath : SpecPath) :
    (indexRow spec sourcePath).name = spec.name := by
  cases spec <;> rfl

@[simp] theorem indexRow_sourcePath (spec : Spec) (sourcePath : SpecPath) :
    (indexRow spec sourcePath).sourcePath = sourcePath := by
  cases spec <;> rfl

/-- The directory, and the one table that every call empties and refills. -/
structure Store where
  files : Directory
  index : Table WorkflowIndexRow.name

end CliAgentOrchestrator.SpecIndex
