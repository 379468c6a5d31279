import CliAgentOrchestrator.Workflow.YamlWorld

/-!
# The drive of a YAML run

`services/workflow_service.py`: the steps of a run in order, each with its attempts and its one
reprompt, what a halt or a cancel skips, and the three entries that drive a run. Each function
takes the world at its call to the world at its return, through a schedule of everything else.
-/

set_option autoImplicit false

namespace CliAgentOrchestrator.Workflow.Yaml

variable (σ : Schedule)

/-! ## One agent step -/

/-- What an agent step, or the collection after it, raises. -/
inductive StepFailure
  | cancelled
  | execution (kind : StepKind) (text : String)
  | escaped

/-- `run_agent_step`, as far as the engine can tell.
SOURCE: services/agent_step.py:428-790 -/
def runAgentStep (prompt : String) (w : World) : World × Except StepFailure Unit :=
  let call := w.calls
  let w := pause σ { w with calls := call + 1 }
  match σ.outcome call prompt with
  | .returns => (w, .ok ())
  | .interrupted => if w.record.cancelled then (w, .error .cancelled) else (w, .ok ())
  | .fails kind text => (w, .error (.execution kind text))
  | .escapes => (w, .error .escaped)

/-- A read of the store, with what it decides: a validated record completes the step, and
anything else is `otherwise`. -/
def readOutput (stepId : String) (otherwise : Verdict) (w : World) : World × Verdict :=
  let verdict := match w.store.entries.get w.runId stepId with
    | some rec => if rec.validated then .completed rec else otherwise
    | none => otherwise
  let c : Collection := { stepId, since := w.since, store := w.store, verdict }
  ({ w with collected := w.collected ++ [c] }, verdict)

/-- The step ends with what the store has of it, valid or not.
SOURCE: services/workflow_service.py:753-756 -/
def endUnvalidated (stepId : String) (w : World) : World × Except StepFailure StepState :=
  let output := w.store.entries.get w.runId stepId
  (w.setStep stepId fun st => { st with output }, .ok .completedUnvalidated)

/-- SOURCE: services/workflow_service.py:714-719,746-751 -/
def endCompleted (stepId : String) (rec : StepOutputRecord) (w : World) :
    World × Except StepFailure StepState :=
  (w.setStep stepId fun st => { st with output := some rec }, .ok .completed)

/-- The corrective turn, and the second read.
SOURCE: services/workflow_service.py:719-756 -/
def reprompt (step : WorkflowStep) (w : World) : World × Except StepFailure StepState :=
  let w := journalEvent σ (w.setStep step.id fun st => { st with reprompted := true })
  match runAgentStep σ (repromptPrompt step) w with
  | (w, .error failure) => (w, .error failure)
  | (w, .ok ()) =>
    match readOutput step.id .unvalidated w with
    | (w, .completed rec) => endCompleted step.id rec w
    | (w, _) => endUnvalidated step.id w

/-- SOURCE: services/workflow_service.py:693-756 -/
def collectStructuredOutput (step : WorkflowStep) (w : World) :
    World × Except StepFailure StepState :=
  match step.outputSchema with
  | none => (w, .ok .completed)
  | some _ =>
    let otherwise := if (w.stepState step.id).reprompted then .unvalidated else .reprompt
    match readOutput step.id otherwise w with
    | (w, .completed rec) => endCompleted step.id rec w
    | (w, .reprompt) => reprompt σ step w
    | (w, .unvalidated) => endUnvalidated step.id w

/-! ## The attempts of a step -/

/-- What leaves the engine as an exception. -/
inductive Raised
  | engineError (text : String)
  | escaped

/-- How the attempts of a step end: the step is settled, every attempt failed (with the kind of
the last), or an exception leaves. -/
inductive AttemptsEnd
  | settled
  | exhausted (kind : Option StepKind)
  | raised (r : Raised)

/-- A step that a cancel found, before an attempt or behind a failed one.
SOURCE: services/workflow_service.py:795-799,876-880 -/
def settleCancelled (stepId : String) (f : StepRunState → StepRunState) (w : World) : World :=
  let w := w.setStep stepId fun st => { f st with state := .cancelled }
  ajournal σ (·.journalStep stepId none) (awaitCancellingJournal σ w)

/-- SOURCE: services/workflow_service.py:849-871 -/
def settleInterrupted (stepId : String) (w : World) : World :=
  let w := w.setStep stepId fun st => { st with state := .skipped }
  journalEvent σ (ajournal σ (·.journalStep stepId none) w)

/-- SOURCE: services/workflow_service.py:900-945 -/
def settleCollected (stepId : String) (outcome : StepState) (w : World) : World :=
  let w := w.setStep stepId fun st => { st with state := outcome }
  let w := ajournal σ (·.journalStep stepId none) w
  let w := if (w.stepState stepId).output.isSome then journalEvent σ w else w
  journalEvent σ w

/-- What the record of the drive keeps of an attempt's beginning. -/
def World.beginAttempt (w : World) (template : String) : World :=
  { w with prompts := w.prompts ++ [(template, w.record)], since := w.store.returns.length }

/-- The body of the `try`: the agent, and what it returned.
SOURCE: services/workflow_service.py:812-841 -/
def tryAttempt (step : WorkflowStep) (prompt : String) (w : World) :
    World × Except StepFailure StepState :=
  match runAgentStep σ prompt w with
  | (w, .error failure) => (w, .error failure)
  | (w, .ok ()) => collectStructuredOutput σ step (journalEvent σ w)

/-- `remaining` attempts from number `attempt` on; `last` is the kind of the last failure.
SOURCE: services/workflow_service.py:793-945 -/
def runAttempts (step : WorkflowStep) :
    (remaining attempt : Nat) → (last : Option StepKind) → World → World × AttemptsEnd
  | 0, _, last, w => (w, .exhausted last)
  | remaining + 1, attempt, _, w =>
    if w.record.cancelled then
      (settleCancelled σ step.id
        (fun st => { st with error := some "step cancelled before attempt" }) w, .settled)
    else
      let w := journalEvent σ (w.setStep step.id fun st =>
        { st with attempts := attempt, error := none })
      let w := w.beginAttempt step.prompt
      match substitute step.prompt w.record with
      | .error text => (w, .raised (.engineError text))
      | .ok prompt =>
        match tryAttempt σ step prompt w with
        | (w, .ok outcome) => (settleCollected σ step.id outcome w, .settled)
        | (w, .error .cancelled) => (settleInterrupted σ step.id w, .settled)
        | (w, .error .escaped) => (w, .raised .escaped)
        | (w, .error (.execution kind text)) =>
          let w := w.setStep step.id fun st => { st with error := some text }
          if w.record.cancelled then (settleCancelled σ step.id id w, .settled)
          else
            let w := ajournal σ (·.journalStep step.id (some kind.value)) w
            let w := journalEvent σ w
            if kind.nonRetryable then (w, .exhausted (some kind))
            else runAttempts step remaining (attempt + 1) (some kind) w

/-- `WORKFLOW_DEFAULT_STEP_RETRIES`.
SOURCE: constants.py:996 -/
def defaultStepRetries : Nat := 3

/-- The step goes live.
SOURCE: services/workflow_service.py:772-787 -/
def beginStep (stepId : String) (w : World) : World :=
  let w := (w.setCurrentStep (some stepId)).setStep stepId fun st => { st with state := .running }
  let w := ajournal σ (·.journalStep stepId none) w
  journalEvent σ (ajournal σ (·.journalCurrentStep) w)

/-- Every attempt failed.
SOURCE: services/workflow_service.py:947-966 -/
def failStep (step : WorkflowStep) (kind : Option StepKind) (w : World) : World :=
  let w := w.setStep step.id fun st => { st with state := .failed }
  let w := journalEvent σ (ajournal σ (·.journalStep step.id (kind.map StepKind.value)) w)
  if step.onFailure.getD .halt = .halt then w.setState .failed else w

/-- SOURCE: services/workflow_service.py:759-966 -/
def runStep (step : WorkflowStep) (w : World) : World × Option Raised :=
  match runAttempts σ step (step.retries.getD defaultStepRetries + 1) 1 none
      (beginStep σ step.id w) with
  | (w, .settled) => (w, none)
  | (w, .exhausted kind) => (failStep σ step kind w, none)
  | (w, .raised r) => (w, some r)

/-! ## The drive -/

/-- SOURCE: services/workflow_service.py:969-989 -/
def skipRemaining (steps : List WorkflowStep) (w : World) : World :=
  steps.foldl (fun w step =>
    if (w.stepState step.id).state = .pending then
      let w := w.setStep step.id fun st => { st with state := .skipped }
      journalEvent σ (ajournal σ (·.journalStep step.id none) w)
    else w) w

/-- A cancel met at a step boundary.
SOURCE: services/workflow_service.py:1035-1039,1046-1050 -/
def settleCancel (steps : List WorkflowStep) (w : World) : World :=
  (skipRemaining σ steps (awaitCancellingJournal σ w)).setState .cancelled

/-- A step kept from an earlier drive. -/
def StepState.kept (s : StepState) : Bool := s = .completed || s = .completedUnvalidated

/-- The loop of `_drive` over the steps still ahead.
SOURCE: services/workflow_service.py:1033-1053 -/
def driveLoop : List WorkflowStep → World → World × Option Raised
  | [], w => (w, none)
  | step :: rest, w =>
    if w.record.cancelled then (settleCancel σ (step :: rest) w, none)
    else if StepState.kept (w.stepState step.id).state then driveLoop rest w
    else
      match runStep σ step w with
      | (w, some r) => (w, some r)
      | (w, none) =>
        if w.record.cancelled then (settleCancel σ rest w, none)
        else if w.record.state = .failed then (skipRemaining σ rest w, none)
        else driveLoop rest w

/-- The handler of a `WorkflowEngineError`.
SOURCE: services/workflow_service.py:1054-1080 -/
def settleEngineError (w : World) : World :=
  let w := match w.record.currentStepId with
    | some stepId =>
      if StepState.kept (w.stepState stepId).state then w
      else w.setStep stepId fun st => { st with state := .failed }
    | none => w
  let w := (w.setState .failed).setCurrentStep none
  ajournal σ (·.journalRunState) (journalEvent σ (ajournal σ (·.journalCurrentStep) w))

/-- SOURCE: services/workflow_service.py:1082-1117 -/
def finalize (w : World) : World :=
  let w := if w.record.cancelled then (awaitCancellingJournal σ w).setState .cancelled else w
  let w := if w.record.state = .failed ∨ w.record.state = .cancelled then w
    else w.setState .completed
  let w := ajournal σ (·.journalCurrentStep) (w.setCurrentStep none)
  ajournal σ (·.journalRunState) (journalEvent σ w)

/-- How an entry ends: it returns, it raises what the drive raised, or it refuses the run before
any drive. -/
inductive EntryEnd
  | returned
  | raised (r : Raised)
  | refused (text : String)

/-- SOURCE: services/workflow_service.py:1016-1120 -/
def drive (order : List WorkflowStep) (w : World) : World × EntryEnd :=
  match driveLoop σ order w with
  | (w, none) => (finalize σ w, .returned)
  | (w, some (.engineError text)) => (settleEngineError σ w, .raised (.engineError text))
  | (w, some .escaped) => (w, .raised .escaped)

/-! ## The entries -/

/-- No step of the model has a `needs`, so the order is that of the declaration.
SOURCE: services/workflow_service.py:649-690 -/
def topologicalOrder (spec : WorkflowSpec) : List WorkflowStep := spec.steps

/-- The `finally` of every entry.
SOURCE: services/workflow_service.py:1216-1220 -/
def endDrive (w : World) : World := { awaitCancellingJournal σ w with live := false }

/-- A drive under its mark. -/
def driveLive (order : List WorkflowStep) (w : World) : World × EntryEnd :=
  let (w, ending) := drive σ order w
  (endDrive σ w, ending)

/-- SOURCE: services/workflow_service.py:1130-1151 -/
def checkRunIdAvailable (w : World) : Except String Unit :=
  if w.cached ∨ w.live ∨ w.row.isSome then .error ("run_id '" ++ w.runId ++ "' already exists")
  else .ok ()

/-- `start_run` of a sequential spec, from inputs that are valid and resolved.
SOURCE: services/workflow_service.py:1157-1220 -/
def startRun (spec : WorkflowSpec) (inputs : List (String × String)) (w : World) :
    World × EntryEnd :=
  match validateKeyPart w.runId "run_id", checkRunIdAvailable w with
  | .error text, _ => (w, .refused text)
  | .ok _, .error text => (w, .refused text)
  | .ok _, .ok () =>
    let record : RunRecord := { spec, inputs }
    let w := { w with record, cached := true, live := true, cancelling := .absent }
    let w := journalEvent σ (ajournal σ (·.journalInsertRun) w)
    driveLive σ (topologicalOrder spec) w

/-- SOURCE: services/workflow_service.py:1223-1259 -/
def startRunPrepared (w : World) : World × EntryEnd :=
  driveLive σ (topologicalOrder w.record.spec) { w with live := true }

/-- The asynchronous submission of a sequential spec: the row is inserted, the record registered,
and the drive starts when the background has room for it.
SOURCE: api/main.py:7117-7387, services/workflow_service.py:1223-1259 -/
def submitRun (spec : WorkflowSpec) (inputs : List (String × String)) (w : World) :
    World × EntryEnd :=
  match validateKeyPart w.runId "run_id", checkRunIdAvailable w with
  | .error text, _ => (w, .refused text)
  | .ok _, .error text => (w, .refused text)
  | .ok _, .ok () =>
    let record : RunRecord := { spec, inputs }
    let w := ajournal σ (·.insertRow record) w
    startRunPrepared σ (pause σ { w with record, cached := true, cancelling := .absent })

/-- The steps of a resumed record: what is done is kept, the rest starts anew.
SOURCE: services/workflow_service.py:1674-1682 -/
def resetSteps (stepStates : String → StepRunState) : String → StepRunState := fun stepId =>
  if StepState.kept (stepStates stepId).state then stepStates stepId else {}

/-- The run is rebuilt and driven again.
SOURCE: services/workflow_service.py:1668-1720 -/
def reopen (row : RunRow) (w : World) : World × EntryEnd :=
  let rebuilt := World.rebuildRecord row
  let record : RunRecord :=
    { rebuilt with
      stepStates := resetSteps rebuilt.stepStates, state := .running, currentStepId := none }
  let w := { w with record, cached := true, live := true, cancelling := .absent }
  let w := ajournal σ (·.journalRunStateSnapshot .running) w
  let w := ajournal σ (·.journalCurrentStep) w
  driveLive σ (topologicalOrder record.spec) w

/-- SOURCE: services/workflow_service.py:1586-1720 -/
def resumeFromLastCompleted (w : World) : World × EntryEnd :=
  match validateKeyPart w.runId "run_id" with
  | .error text => (w, .refused text)
  | .ok _ =>
    if w.live then
      (w, .refused ("run '" ++ w.runId ++ "' is currently executing; cannot resume a live run"))
    else
      let w := awaitCancelRecovery σ w
      match w.row with
      | none => (w, .refused ("unknown run_id '" ++ w.runId ++ "'"))
      | some row =>
        if row.state = .completed then
          (w, .refused ("run '" ++ w.runId ++ "' is completed; not resumable"))
        else
          let w := if row.state = .cancelling then
              ajournal σ (·.journalRunStateSnapshot .cancelled) w
            else w
          match w.row with
          | none => (w, .refused ("unknown run_id '" ++ w.runId ++ "'"))
          | some row => reopen σ row w

/-- A call of one of the three entries; a prepared run is driven once it has been submitted. -/
inductive Entry
  | start (spec : WorkflowSpec) (inputs : List (String × String))
  | submit (spec : WorkflowSpec) (inputs : List (String × String))
  | resume

/-- The entry from the world it is called in; the record of the drive begins with it. -/
def Entry.run (e : Entry) (w : World) : World × EntryEnd :=
  let w := { w with prompts := [], collected := [], accepted := false }
  match e with
  | .start spec inputs => startRun σ spec inputs w
  | .submit spec inputs => submitRun σ spec inputs w
  | .resume => resumeFromLastCompleted σ w

end CliAgentOrchestrator.Workflow.Yaml
