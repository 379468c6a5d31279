import CliAgentOrchestrator.Library.Recency
import CliAgentOrchestrator.Workflow.Journal

/-!
# The structured-return store

`services/step_output_store.py`: what workers return is kept under the run and the step they
name, by the process and for all its runs. A key holds its last record; over the cap the record
written longest ago goes.
-/

set_option autoImplicit false

namespace CliAgentOrchestrator.Workflow.Yaml

open Library

/-! ## Records -/

/-- The fields of an output, each with the text a template renders it as. -/
abbrev Output := List (String × String)

/-- SOURCE: models/workflow_runtime.py:165-181 -/
structure StepOutputRecord where
  runId : String
  stepId : String
  output : Output
  validated : Bool
  errors : List String := []
  state : StepState
deriving DecidableEq

/-- A schema, by its text. -/
abbrev Schema := String

/-- How `jsonschema.validate` ends: it returns, or raises one of its two errors, whose text
this is. -/
inductive Validation
  | passes
  | validationError (text : String)
  | schemaError (text : String)

/-- `jsonschema.validate`, which is not the repository's. -/
abbrev Validator := Output → Schema → Validation

/-! ## Keys -/

/-- The characters of `WORKFLOW_NAME_RE`.
SOURCE: constants.py:972 -/
def isNameChar (c : Char) : Bool := c.isAlphanum || c == '_' || c == '-'

/-- `_NAME_RE.match`: the `$` of the pattern lets one newline at the end through.
SOURCE: constants.py:972 -/
def nameMatches (value : String) : Bool :=
  let body := if value.toList.getLast? = some '\n' then value.toList.dropLast else value.toList
  decide (1 ≤ body.length) && decide (body.length ≤ 64) && body.all isNameChar

/-- SOURCE: services/step_output_store.py:40-50 -/
def validateKeyPart (value label : String) : Except String String :=
  if value = "." ∨ value = ".." then
    .error (label ++ " '" ++ value ++ "' is not allowed (traversal token)")
  else if nameMatches value then .ok value
  else
    .error (label ++ " '" ++ value ++ "' is invalid (must match ^[A-Za-z0-9_-]\x7b1,64\x7d$)")

/-! ## The store -/

abbrev StoreKey := String × String

/-- The entries of the `OrderedDict`, the oldest first. -/
abbrev Store := List (StoreKey × StepOutputRecord)

/-- `WORKFLOW_OUTPUT_STORE_MAX_ENTRIES`.
SOURCE: constants.py:988 -/
def outputStoreMaxEntries : Nat := 10000

/-- The entry of the key is deleted, the new one goes last, and `popitem` takes from the front
until the cap holds.
SOURCE: services/step_output_store.py:67-85 -/
def Store.put (store : Store) (runId stepId : String) (record : StepOutputRecord) : Store :=
  Recency.put outputStoreMaxEntries store (runId, stepId) record

/-- SOURCE: services/step_output_store.py:87-89 -/
def Store.get (store : Store) (runId stepId : String) : Option StepOutputRecord :=
  Recency.get store (runId, stepId)

/-- Where `str.splitlines` ends a line. -/
def isLineEnd (c : Char) : Bool :=
  let n := c.toNat
  (10 ≤ n && n ≤ 13) || (28 ≤ n && n ≤ 30) || n == 133 || n == 8232 || n == 8233

/-- SOURCE: services/step_output_store.py:99-102 -/
def collapseSchemaError (text : String) : String :=
  if text = "" then "output failed schema validation"
  else String.ofList (text.toList.takeWhile fun c => !isLineEnd c)

/-- The record a call would store, or the text of the `ValueError` it raises instead.
SOURCE: services/step_output_store.py:105-152 -/
def recordedOutput (validate : Validator) (runId stepId : String) (output : Output)
    (outputSchema : Option Schema) : Except String StepOutputRecord := do
  let runId ← validateKeyPart runId "run_id"
  let stepId ← validateKeyPart stepId "step_id"
  match outputSchema.map (validate output) with
  | none | some .passes =>
    .ok { runId, stepId, output, validated := true, state := .completed }
  | some (.validationError text) =>
    .ok { runId, stepId, output, validated := false, errors := [collapseSchemaError text]
          state := .completedUnvalidated }
  | some (.schemaError text) => .error ("output_schema is not valid JSON-Schema: " ++ text)

/-- SOURCE: services/step_output_store.py:105-154 -/
def recordStepOutput (validate : Validator) (store : Store) (runId stepId : String)
    (output : Output) (outputSchema : Option Schema) : Except String StepOutputRecord × Store :=
  match recordedOutput validate runId stepId output outputSchema with
  | .error text => (.error text, store)
  | .ok record => (.ok record, store.put runId stepId record)

/-! ## What the store answers -/

/-- The records written so far, in order. -/
abbrev Returns := List (StoreKey × StepOutputRecord)

/-- The store is what the writes so far left of it. -/
def Kept (store : Store) (returns : Returns) : Prop :=
  store = Recency.build outputStoreMaxEntries returns

theorem kept_nil : Kept [] [] := rfl

/-- A put is one more return. -/
theorem Kept.put {store : Store} {returns : Returns} (h : Kept store returns)
    (runId stepId : String) (record : StepOutputRecord) :
    Kept (store.put runId stepId record) (returns ++ [((runId, stepId), record)]) := by
  rw [Kept, Recency.build_concat, ← h]
  rfl

/-- The record of a step is still to be read: nothing was recorded under its key after it, and
under fewer other keys than the store has entries. -/
def Standing (returns : Returns) (runId stepId : String) (record : StepOutputRecord) : Prop :=
  Recency.Survives outputStoreMaxEntries returns (runId, stepId) record

/-- What is read is what stands. -/
theorem Kept.get_eq_some_iff {store : Store} {returns : Returns} (h : Kept store returns)
    (runId stepId : String) (record : StepOutputRecord) :
    store.get runId stepId = some record ↔ Standing returns runId stepId record := by
  rw [Store.get, h]
  exact Recency.get_build _ _ _ _

/-- The process's store, with the records written so far beside it. -/
structure OutputStore where
  entries : Store
  returns : Returns
  kept : Kept entries returns

/-- A worker's call. -/
def OutputStore.record (s : OutputStore) (validate : Validator) (runId stepId : String)
    (output : Output) (outputSchema : Option Schema) : OutputStore :=
  match recordedOutput validate runId stepId output outputSchema with
  | .error _ => s
  | .ok record =>
    ⟨s.entries.put runId stepId record, s.returns ++ [((runId, stepId), record)],
      s.kept.put runId stepId record⟩

end CliAgentOrchestrator.Workflow.Yaml
