import CliAgentOrchestrator.Workflow.Template

/-!
# A YAML run between two awaits

`services/workflow_service.py`: a run's record and its journal rows, and what may happen while
the drive waits. An await lets any list of moves through: `cancel_run` for this run, a write of
one of the tasks it starts, and a worker of any run recording an output.
-/

set_option autoImplicit false

namespace CliAgentOrchestrator.Workflow.Yaml

/-! ## The journal rows of the run -/

/-- The columns `update_step` writes.
SOURCE: services/workflow_service.py:354-380 -/
structure StepColumns where
  state : StepState := .pending
  attempts : Nat := 0
  output : Option Output := none
  error : Option String := none
  errorKind : Option String := none

/-- The `workflow_run` row with the run's `workflow_run_step` rows. -/
structure RunRow where
  spec : WorkflowSpec
  inputs : List (String × String)
  state : RunState
  currentStepId : Option String := none
  steps : String → StepColumns := fun _ => {}

/-- `cancelling_journal_task`: there is none, its write is still to land, or it is over. -/
inductive CancellingTask
  | absent
  | pending
  | landed
deriving DecidableEq

/-- The writes of `_persist_stranded_cancel`, of a record nothing moves any more.
SOURCE: services/workflow_service.py:261-265 -/
inductive RecoveryWrite
  | step (stepId : String) (st : StepRunState) (cancelled : st.state = .cancelled)
  | currentStep
  | runState

/-! ## Reads of the store -/

/-- What a read of the store decides about its step. -/
inductive Verdict
  | completed (output : StepOutputRecord)
  | reprompt
  | unvalidated
deriving DecidableEq

/-- A read of the store: whose output it looked for, how many records there were when the
attempt began, the store it met and what it decided. -/
structure Collection where
  stepId : String
  since : Nat
  store : OutputStore
  verdict : Verdict

/-! ## The world -/

/-- The process around one run. `cached` and `live` say whether the run is in `run_registry` and
in `_active_drives`; `clock` and `calls` count awaits and agent steps. The last four fields are
a record of the drive that no function reads: the templates it filled, with what it filled them
from, the records there were when its attempt began, what it read of the store, and whether a
`cancel_run` returned without raising. -/
structure World where
  runId : String
  record : RunRecord
  cached : Bool := false
  live : Bool := false
  cancelling : CancellingTask := .absent
  row : Option RunRow := none
  recovery : Option (List RecoveryWrite) := none
  store : OutputStore
  clock : Nat := 0
  calls : Nat := 0
  prompts : List (String × RunRecord) := []
  since : Nat := 0
  collected : List Collection := []
  accepted : Bool := false

namespace World

/-- A process that has not heard of the run. -/
def boot (runId : String) : World where
  runId := runId
  record := { spec := ⟨[], List.nodup_nil⟩, inputs := [] }
  store := ⟨[], [], kept_nil⟩

variable (w : World)

def setState (state : RunState) : World := { w with record := { w.record with state } }

def setCurrentStep (stepId : Option String) : World :=
  { w with record := { w.record with currentStepId := stepId } }

/-- The state of one step of the record. -/
def stepState (stepId : String) : StepRunState := w.record.stepStates stepId

def setStep (stepId : String) (f : StepRunState → StepRunState) : World :=
  let stepStates := Function.update w.record.stepStates stepId (f (w.stepState stepId))
  { w with record := { w.record with stepStates } }

/-- An UPDATE of the run's row, which does nothing before the row is there. -/
def updateRow (f : RunRow → RunRow) : World := { w with row := w.row.map f }

/-! ## The journal helpers -/

/-- The INSERT of the run's row, with its steps PENDING; the primary key lets one in.
SOURCE: services/workflow_journal.py:370-508 -/
def insertRow (record : RunRecord) : World :=
  match w.row with
  | some _ => w
  | none =>
    let row : RunRow := { spec := record.spec, inputs := record.inputs, state := record.state }
    { w with row := some row }

/-- SOURCE: services/workflow_service.py:332-351 -/
def journalInsertRun : World := w.insertRow w.record

/-- What `_journal_step` writes of a step's state.
SOURCE: services/workflow_service.py:354-380 -/
def columns (st : StepRunState) (errorKind : Option String) : StepColumns where
  state := st.state
  attempts := st.attempts
  output := st.output.map StepOutputRecord.output
  error := st.error
  errorKind := errorKind

/-- SOURCE: services/workflow_service.py:354-380 -/
def journalStep (stepId : String) (errorKind : Option String) : World :=
  w.updateRow fun row =>
    { row with
      steps := Function.update row.steps stepId (columns (w.stepState stepId) errorKind) }

/-- SOURCE: services/workflow_service.py:383-390 -/
def journalCurrentStep : World :=
  w.updateRow fun row => { row with currentStepId := w.record.currentStepId }

/-- SOURCE: services/workflow_service.py:237-245 -/
def journalRunStateSnapshot (state : RunState) : World :=
  w.updateRow fun row => { row with state }

/-- SOURCE: services/workflow_service.py:393-404 -/
def journalRunState : World := w.journalRunStateSnapshot w.record.state

/-! ## Cancelling -/

/-- `_record_from_json` of what `_output_json` wrote.
SOURCE: services/workflow_service.py:304-329 -/
def recordFromJson (output : Option Output) : Option StepOutputRecord :=
  output.map fun output =>
    { runId := "", stepId := "", output, validated := true, state := .completed }

/-- SOURCE: services/workflow_service.py:1372-1490 -/
def rebuildRecord (row : RunRow) : RunRecord where
  spec := row.spec
  inputs := row.inputs
  state := row.state
  currentStepId := row.currentStepId
  stepStates := fun stepId =>
    let columns := row.steps stepId
    { state := columns.state, attempts := columns.attempts
      output := recordFromJson columns.output, error := columns.error }

/-- The record of the registry, which a cancel rebuilds from the journal when there is none.
SOURCE: services/workflow_service.py:1271-1276 -/
def lookup : Option World :=
  if w.cached then some w
  else w.row.map fun row => { w with record := rebuildRecord row, cached := true }

/-- A step that was live when its run was settled.
SOURCE: services/workflow_service.py:1305-1308 -/
def strandedStep (st : StepRunState) : StepRunState :=
  { st with state := .cancelled, error := some "step cancelled during stranded-run recovery" }

/-- Nothing drives the run: the record is settled at once and one task is to write it.
SOURCE: services/workflow_service.py:1302-1314 -/
def settleStranded : World :=
  let settled := match w.record.currentStepId with
    | some stepId => w.setStep stepId strandedStep
    | none => w
  let step := w.record.currentStepId.map fun stepId =>
    RecoveryWrite.step stepId (strandedStep (w.stepState stepId)) rfl
  { (settled.setCurrentStep none).setState .cancelled with
    recovery := some (w.recovery.getD (step.toList ++ [.currentStep, .runState])) }

/-- `cancel_run`; a call that raises leaves everything as it was.
SOURCE: services/workflow_service.py:1264-1314 -/
def cancelRun : World :=
  match w.lookup with
  | none => w
  | some w' =>
    if w'.record.state = .cancelling ∧ w'.live then { w' with accepted := true }
    else if w'.record.state.terminal then w'
    else
      let w' : World :=
        { w' with
          record := { w'.record with cancelled := true, state := .cancelling }, accepted := true }
      if w'.live then
        { w' with cancelling := if w'.cancelling = .absent then .pending else w'.cancelling }
      else w'.settleStranded

/-- The write of the CANCELLING task lands. -/
def landCancelling : World :=
  match w.cancelling with
  | .pending => { w.journalRunStateSnapshot .cancelling with cancelling := .landed }
  | _ => w

/-- One write of the recovery task. -/
def recoveryWrite : RecoveryWrite → World
  | .step stepId st _ =>
    w.updateRow fun row => { row with steps := Function.update row.steps stepId (columns st none) }
  | .currentStep => w.updateRow fun row => { row with currentStepId := none }
  | .runState => w.journalRunStateSnapshot .cancelled

/-- The next write of the recovery task lands. -/
def landRecovery : World :=
  match w.recovery with
  | some (write :: rest) => { w.recoveryWrite write with recovery := some rest }
  | _ => w

end World

/-! ## What happens during an await -/

inductive Move
  | cancelRun
  | landCancelling
  | landRecovery
  | recordOutput (runId stepId : String) (output : Output) (outputSchema : Option Schema)

def Move.exec (validate : Validator) (w : World) : Move → World
  | .cancelRun => w.cancelRun
  | .landCancelling => w.landCancelling
  | .landRecovery => w.landRecovery
  | .recordOutput runId stepId output outputSchema =>
    { w with store := w.store.record validate runId stepId output outputSchema }

/-- The kinds `run_agent_step` gives a `StepExecutionError`; a `StepCancelledError` has the kind
`cancelled`, and a handler of its own.
SOURCE: services/agent_step.py:614-764 -/
inductive StepKind
  | timeout
  | error
  | inputBlocked
  | waitingUserInput
  | deliveryDeferred

def StepKind.value : StepKind → String
  | .timeout => "timeout"
  | .error => "error"
  | .inputBlocked => "input_blocked"
  | .waitingUserInput => "waiting_user_input"
  | .deliveryDeferred => "delivery_deferred"

/-- `NON_RETRYABLE_STEP_KINDS`.
SOURCE: services/workflow_service.py:69 -/
def StepKind.nonRetryable : StepKind → Bool
  | .inputBlocked | .waitingUserInput => true
  | .timeout | .error | .deliveryDeferred => false

/-- How an agent step ends. An interruption needs the cancel signal: without it the step runs on
to its end. -/
inductive AgentOutcome
  | returns
  | interrupted
  | fails (kind : StepKind) (text : String)
  | escapes

/-- One order of everything outside the drive: what happens at each await and how the agent
answers each prompt. -/
structure Schedule where
  moves : Nat → List Move
  outcome : Nat → String → AgentOutcome
  validate : Validator

/-- A point where the coroutine may be suspended. -/
def pause (σ : Schedule) (w : World) : World :=
  (σ.moves w.clock).foldl (Move.exec σ.validate) { w with clock := w.clock + 1 }

/-- A journal helper in its thread: it reads and writes at one moment of the await.
SOURCE: services/workflow_service.py:407-420 -/
def ajournal (σ : Schedule) (f : World → World) (w : World) : World := pause σ (f (pause σ w))

/-- An emission: two awaited writes, of the high water and of the event.
SOURCE: services/workflow_service.py:451-508 -/
def journalEvent (σ : Schedule) (w : World) : World := ajournal σ id (ajournal σ id w)

/-- SOURCE: services/workflow_service.py:248-258 -/
def awaitCancellingJournal (σ : Schedule) (w : World) : World :=
  match w.cancelling with
  | .absent => w
  | _ => { (pause σ (pause σ w).landCancelling) with cancelling := .absent }

/-- The task is awaited to its end and taken off the map.
SOURCE: services/workflow_service.py:268-278 -/
def awaitCancelRecovery (σ : Schedule) (w : World) : World :=
  match w.recovery with
  | none => w
  | some _ =>
    let w := pause σ w
    { (pause σ ((w.recovery.getD []).foldl World.recoveryWrite { w with recovery := some [] })) with
      recovery := none }

end CliAgentOrchestrator.Workflow.Yaml
