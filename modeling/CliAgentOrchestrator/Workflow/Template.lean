import CliAgentOrchestrator.Inbox.Barrier
import CliAgentOrchestrator.Workflow.StepOutput

/-!
# The run record and the prompts it fills

`services/workflow_service.py`: what the engine holds of a YAML run in memory, and the two
references a step's prompt may make to it.
-/

set_option autoImplicit false

namespace CliAgentOrchestrator.Workflow.Yaml

/-! ## The spec -/

inductive OnFailure
  | halt
  | continue
deriving DecidableEq

/-- What the engine reads of a step; the rest it hands to the agent.
SOURCE: models/workflow.py:180-207 -/
structure WorkflowStep where
  id : String
  prompt : String
  outputSchema : Option Schema := none
  onFailure : Option OnFailure := none
  retries : Option Nat := none
deriving DecidableEq

/-- A sequential spec. `validate_grammar` refuses two steps of one id.
SOURCE: models/workflow.py:217-314 -/
structure WorkflowSpec where
  steps : List WorkflowStep
  nodup : (steps.map WorkflowStep.id).Nodup

/-! ## The record -/

/-- SOURCE: services/workflow_service.py:148-176 -/
structure StepRunState where
  state : StepState := .pending
  attempts : Nat := 0
  reprompted : Bool := false
  output : Option StepOutputRecord := none
  error : Option String := none

/-- The inputs are the resolved ones, each with its text.
SOURCE: services/workflow_service.py:180-202 -/
structure RunRecord where
  spec : WorkflowSpec
  inputs : List (String × String)
  state : RunState := .running
  currentStepId : Option String := none
  cancelled : Bool := false
  stepStates : String → StepRunState := fun _ => {}

/-! ## Templates -/

def isBrace (c : Char) : Bool := c == '\x7b' || c == '\x7d'

/-- What `_PLACEHOLDER_RE` encloses when it matches at the head of a text: anything but braces,
and something.
SOURCE: services/workflow_service.py:521 -/
def placeholder : List Char → Option (List Char)
  | '\x7b' :: '\x7b' :: rest =>
    let body := rest.takeWhile fun c => !isBrace c
    if body ≠ [] ∧ (rest.drop body.length).take 2 = ['\x7d', '\x7d'] then some body else none
  | _ => none

/-- `[A-Za-z0-9_-]+`. -/
def isName (text : List Char) : Bool := !text.isEmpty && text.all isNameChar

/-- The input `_INPUT_REF_RE` captures.
SOURCE: services/workflow_service.py:522 -/
def inputRef (ref : String) : Option String :=
  match ref.toList.splitOn '.' with
  | [root, kind, name] =>
    if root = "workflow".toList ∧ kind = "inputs".toList ∧ isName name then
      some (String.ofList name)
    else none
  | _ => none

/-- The step and the field `_STEP_REF_RE` captures.
SOURCE: services/workflow_service.py:523 -/
def stepRef (ref : String) : Option (String × String) :=
  match ref.toList.splitOn '.' with
  | [root, stepId, kind, field] =>
    if root = "steps".toList ∧ isName stepId ∧ kind = "output".toList ∧ isName field then
      some (String.ofList stepId, String.ofList field)
    else none
  | _ => none

/-- The reference as its author wrote it, in the errors. -/
def quoted (ref : String) : String := "'\x7b\x7b" ++ ref ++ "\x7d\x7d'"

/-- SOURCE: services/workflow_service.py:536-569 -/
def resolve (record : RunRecord) (ref : String) : Except String String :=
  match inputRef ref with
  | some name =>
    match record.inputs.lookup name with
    | some value => .ok value
    | none =>
      .error ("template references unknown input '" ++ name ++ "' (reference " ++ quoted ref ++ ")")
  | none =>
    match stepRef ref with
    | none =>
      .error ("unsupported template reference " ++ quoted ref ++
        " (only \x7b\x7bworkflow.inputs.<name>\x7d\x7d and " ++
        "\x7b\x7bsteps.<id>.output.<field>\x7d\x7d are supported)")
    | some (stepId, field) =>
      match (record.stepStates stepId).output with
      | none =>
        .error ("template references step '" ++ stepId ++ "' output, but that step " ++
          "has produced no output (reference " ++ quoted ref ++ ")")
      | some output =>
        match output.output.lookup field with
        | some value => .ok value
        | none =>
          .error ("template references field '" ++ field ++ "' not present in step '" ++ stepId ++
            "' output (reference " ++ quoted ref ++ ")")

/-- `_PLACEHOLDER_RE.sub`, from left to right; `skip` counts what a match has consumed. -/
def substituteFrom (record : RunRecord) : Nat → List Char → Except String (List Char)
  | _, [] => .ok []
  | skip + 1, _ :: rest => substituteFrom record skip rest
  | 0, c :: rest =>
    match placeholder (c :: rest) with
    | none => return c :: (← substituteFrom record 0 rest)
    | some body => do
      let value ← resolve record (Inbox.strip (String.ofList body))
      return value.toList ++ (← substituteFrom record (body.length + 3) rest)

/-- SOURCE: services/workflow_service.py:526-571 -/
def substitute (template : String) (record : RunRecord) : Except String String := do
  return String.ofList (← substituteFrom record 0 template.toList)

/-- The prompt of the step's one reprompt.
SOURCE: services/workflow_service.py:574-581 -/
def repromptPrompt (step : WorkflowStep) : String :=
  step.prompt ++ "\n\nYour previous turn did not produce a valid structured output for this " ++
    "workflow step. Call the `workflow_return` tool with output that matches this JSON-Schema:\n" ++
    step.outputSchema.getD "None"

end CliAgentOrchestrator.Workflow.Yaml
