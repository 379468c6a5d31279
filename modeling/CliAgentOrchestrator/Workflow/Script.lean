import CliAgentOrchestrator.Library.Machine
import CliAgentOrchestrator.Workflow.Journal

/-!
# A script run and its cancel

`services/script_runner.py`: the drive of one live record and the cancel that may meet it. The
steps are what happens between two awaits. A write goes through a thread, so its value, its
landing and the resumption of its caller are steps of their own; a journal write of the drive
reads the state of the record inside the thread.
-/

set_option autoImplicit false

namespace CliAgentOrchestrator.Workflow

open Library

/-! ## The row and the record -/

/-- The columns of `workflow_run` a script run moves. Every generation the code writes is the
text of an integer, so a run that starts from one is read as an integer throughout. -/
structure ScriptRow where
  state : RunState := .running
  generation : Int

/-- SOURCE: services/script_runner.py:109-131 -/
structure ScriptRecord where
  state : RunState := .running
  cancelled : Bool := false
  generation : Int

/-- SOURCE: services/script_runner.py:278-285 -/
def bump (generation : Int) : Int := generation + 1

/-- SOURCE: services/workflow_service.py:1525-1551 -/
def updateRunGeneration (row : ScriptRow) (generation : Int) : ScriptRow :=
  { row with generation }

/-- Where `_drive_process` waits: for the spawn, for the exit, for the sweep before it settles
in a state, for the reaping of a timeout, for the persist of the timeout's bump (in flight or
over), for the terminal write (not yet read, or read from the record), or not at all. -/
inductive DrivePoint
  | spawning
  | running
  | sweeping (state : RunState)
  | reaping
  | fencing (pending : Option Int)
  | journaling (read : Option RunState)
  | finished
deriving DecidableEq

/-- Where `cancel_script_run` waits: no cancel got past its checks, one waits for the persist
of its bump, for the signal and the sweep, for its journal write, or is over. -/
inductive CancelPoint
  | idle
  | fencing (pending : Int)
  | stopping
  | journaling
  | finished
deriving DecidableEq

/-- A live record with the two coroutines that move it. `cancelled` latches, so one cancel at
most gets past its checks. -/
structure Attempt where
  record : ScriptRecord
  drive : DrivePoint := .spawning
  cancel : CancelPoint := .idle

/-- `rc0` is a return code of 0; `ok` says whether a write goes through. -/
inductive AttemptStep
  | spawn (ok : Bool)
  | exit (rc0 : Bool)
  | timeout
  | swept
  | reaped
  | fenceLands (ok : Bool)
  | fenced
  | journalRead
  | journalWrite (ok : Bool)
  | cancel
  | cancelFenceLands (ok : Bool)
  | cancelSettle
  | cancelWrite (ok : Bool)
deriving DecidableEq

/-- SOURCE: services/script_runner.py:999-1001 -/
def Attempt.finalize (a : Attempt) (state : RunState) : Attempt :=
  { a with record := { a.record with state }, drive := .journaling none }

/-- The exit arms, taken in one piece once the process is gone.
SOURCE: services/script_runner.py:1089-1110 -/
def Attempt.onExit (a : Attempt) (rc0 : Bool) : Attempt :=
  if a.record.cancelled || a.record.state == .cancelled then
    { a with drive := .sweeping .cancelled }
  else if rc0 then a.finalize .completed
  else { a with drive := .sweeping .failed }

/-- What the drive does next.
SOURCE: services/script_runner.py:952-961, 1026-1138 -/
def Attempt.driveStep (row : ScriptRow) (a : Attempt) : AttemptStep → ScriptRow × Attempt
  | .spawn ok =>
    match a.drive with
    | .spawning => (row, { a with drive := if ok then .running else .sweeping .failed })
    | _ => (row, a)
  | .exit rc0 =>
    match a.drive with
    | .running => (row, a.onExit rc0)
    | _ => (row, a)
  | .timeout =>
    match a.drive with
    | .running => (row, { a with drive := .reaping })
    | _ => (row, a)
  | .swept =>
    match a.drive with
    | .sweeping state => (row, a.finalize state)
    | _ => (row, a)
  | .reaped =>
    match a.drive with
    | .reaping =>
      let generation := bump a.record.generation
      (row, { a with
        record := { a.record with generation }
        drive := .fencing (some generation) })
    | _ => (row, a)
  | .fenceLands ok =>
    match a.drive with
    | .fencing (some generation) =>
      (if ok then updateRunGeneration row generation else row, { a with drive := .fencing none })
    | _ => (row, a)
  | .fenced =>
    match a.drive with
    | .fencing none => (row, a.finalize .failed)
    | _ => (row, a)
  | .journalRead =>
    match a.drive with
    | .journaling none => (row, { a with drive := .journaling (some a.record.state) })
    | _ => (row, a)
  | .journalWrite ok =>
    match a.drive with
    | .journaling (some state) =>
      (if ok then { row with state } else row, { a with drive := .finished })
    | _ => (row, a)
  | _ => (row, a)

/-- What a cancel does next; a second one, or one that finds the record settled, does nothing.
SOURCE: services/script_runner.py:1574-1644 -/
def Attempt.cancelStep (row : ScriptRow) (a : Attempt) : AttemptStep → ScriptRow × Attempt
  | .cancel =>
    if a.record.state.terminal then (row, a)
    else if a.record.cancelled then (row, a)
    else
      let generation := bump a.record.generation
      (row, { a with
        record := { a.record with cancelled := true, generation }
        cancel := .fencing generation })
  | .cancelFenceLands ok =>
    match a.cancel with
    | .fencing generation =>
      (if ok then updateRunGeneration row generation else row, { a with cancel := .stopping })
    | _ => (row, a)
  | .cancelSettle =>
    match a.cancel with
    | .stopping =>
      (row, { a with record := { a.record with state := .cancelled }, cancel := .journaling })
    | _ => (row, a)
  | .cancelWrite ok =>
    match a.cancel with
    | .journaling =>
      (if ok then { row with state := .cancelled } else row, { a with cancel := .finished })
    | _ => (row, a)
  | _ => (row, a)

/-- The step is one of a cancel. -/
def AttemptStep.ofCancel : AttemptStep → Bool
  | .cancel | .cancelFenceLands _ | .cancelSettle | .cancelWrite _ => true
  | _ => false

def Attempt.exec (row : ScriptRow) (a : Attempt) (step : AttemptStep) : ScriptRow × Attempt :=
  if step.ofCancel then a.cancelStep row step else a.driveStep row step

/-- A record just made, with the row it was made for. -/
def Attempt.new (generation : Int) : Attempt where
  record := { generation }

end CliAgentOrchestrator.Workflow
