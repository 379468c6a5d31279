import CliAgentOrchestrator.Library.Machine
import CliAgentOrchestrator.Workflow.Manifest

/-!
# One frozen memory for a run

`services/frozen_run_memory.py`: every terminal of a script run asks for the memory block it is to
be given. The first answer resolves memory and writes it into the manifest before anyone is handed
it; whoever loses that write reads again.

Any number of calls for one run stand at the points of the function where it waits for something:
a read of the run's row, the resolution, the conditional write. Each of these is one step of one
call, and each may raise. A manifest whose text is no JSON reads as no envelope; it stands as
`JsonTree.null`, which reads as none either.
-/

set_option autoImplicit false

namespace CliAgentOrchestrator.Workflow.FrozenMemory

open Library ExecutionManifest

/-! ## The calls -/

/-- SOURCE: services/frozen_run_memory.py:65
(`MEMORY_SOURCE_CURATED`) -/
def memorySourceCurated : Text := text "cao-memory:curated"

/-- Where a call stands, with its local variables: in front of its first `get_run`, of the
resolution, of the conditional write, of the `get_run` behind a lost write, or done. `None` is
returned as `JsonTree.null`. -/
inductive Phase
  | reading
  | resolving (expected : JsonTree) (envelope : ExecutionManifestEnvelope)
  | persisting (expected : JsonTree) (filled : ExecutionManifestEnvelope)
  | reloading
  | returned (value : JsonTree)
  | raised
deriving DecidableEq

/-- A call that is over. -/
def Phase.finished : Phase → Bool
  | .returned _ | .raised => true
  | _ => false

/-- The column of the run's row that matters here. -/
structure RunRow where
  manifestJson : Option JsonTree

/-- What a call waits for, and how it turns out: `getRun` and `compareAndSet` raise or do not, and
the live resolution comes back with a text or raises. -/
inductive Action
  | getRun (raises : Bool)
  | resolveLive (outcome : Option Text)
  | compareAndSet (raises : Bool)

/-- SOURCE: services/workflow_journal.py:479-493
(`compare_and_set_run_manifest`) -/
def compareAndSetRunManifest (row : Option RunRow) (expected manifest : JsonTree) :
    Option RunRow × Bool :=
  match row with
  | none => (none, false)
  | some r =>
    if r.manifestJson = some expected then (some { r with manifestJson := some manifest }, true)
    else (some r, false)

/-- From a row that was read to the next thing the call waits for. `absent` is what a call returns
that finds no manifest: `None` at first, the empty text behind a lost write. -/
def afterRead (absent : JsonTree) (row : Option RunRow) : Phase :=
  match row.bind (·.manifestJson) with
  | none => .returned absent
  | some manifest =>
    match parse manifest with
    | none => .returned absent
    | some envelope =>
      if envelope.memory.source.truthy then .returned envelope.memory.content
      else .resolving manifest envelope

section Calls

variable (sha256 : Text → Text)

/-- One step of a call. Only `getRun` and `compareAndSet` stand under a handler.

SOURCE: services/frozen_run_memory.py:83-169
(`frozen_memory_for`) -/
def frozenMemoryFor (row : Option RunRow) : Phase → Action → Option RunRow × Phase
  | .reading, .getRun raises =>
    (row, if raises then .returned .null else afterRead .null row)
  | .resolving expected envelope, .resolveLive outcome =>
    match outcome.bind fun resolved =>
        withMemory sha256 envelope resolved memorySourceCurated with
    | none => (row, .raised)
    | some filled => (row, .persisting expected filled)
  | .persisting expected filled, .compareAndSet raises =>
    if raises then (row, .returned (.str []))
    else
      match compareAndSetRunManifest row expected (document filled) with
      | (row, true) => (row, .returned filled.memory.content)
      | (row, false) => (row, .reloading)
  | .reloading, .getRun raises =>
    (row, if raises then .returned (.str []) else afterRead (.str []) row)
  | phase, _ => (row, phase)

/-! ## Runs -/

/-- The run's row and the calls made for it, numbered. -/
structure State where
  row : Option RunRow
  calls : Nat → Phase

/-- A step of one call. -/
structure Step where
  call : Nat
  action : Action

def exec (s : State) (step : Step) : State :=
  let (row, phase) := frozenMemoryFor sha256 s.row (s.calls step.call) step.action
  { row := row, calls := Function.update s.calls step.call phase }

/-- Before any call has read. -/
def begin (row : Option RunRow) : State where
  row := row
  calls := fun _ => .reading

end Calls

end CliAgentOrchestrator.Workflow.FrozenMemory
