import CliAgentOrchestrator.Library.Machine
import CliAgentOrchestrator.Library.Recency

/-!
# The children ledger of a terminal

`clients/database.py`: the hooks of a seat register a subagent when it is dispatched and release
one when a stop event arrives; what is left in the ledger is the number of subagents in flight.
Each call opens three sessions of its own: it looks the terminal up, reads the ledger, and merges
the whole ledger back. Calls are numbered, and one session of one call is one step.

`registered` and `stopped` are history: the children a registration was written for, and the stop
events a release was written for, each once.
-/

set_option autoImplicit false

namespace CliAgentOrchestrator.Terminal.Children

open Library

/-! ## The ledger -/

/-- A subagent in flight; times count from the epoch. -/
structure Entry where
  id : String
  startedAt : Int
deriving DecidableEq

/-- The entries and the ring of release tokens.

SOURCE: clients/database.py:6717-6724 -/
structure Ledger where
  children : List Entry
  released : List String
deriving DecidableEq

def childrenReleasedRingMax : Nat := 16

/-- SOURCE: clients/database.py:6782-6799
(`_prune_stale_children`) -/
def pruneStaleChildren (children : List Entry) (now maxAge : Int) : List Entry :=
  children.filter fun e => !decide (maxAge < now - e.startedAt)

/-- The entries of the first-started child, the first of those, gone. -/
def popOldest (children : List Entry) : List Entry :=
  match (children.map (·.startedAt)).min? with
  | none => children
  | some oldest => children.eraseP fun e => e.startedAt == oldest

/-- What a registration makes of the ledger it read.

SOURCE: clients/database.py:6835-6836 -/
def Ledger.register (l : Ledger) (childId : String) (startedAt : Int) : Ledger :=
  if l.children.any (·.id == childId) then l
  else { l with children := l.children ++ [⟨childId, startedAt⟩] }

/-- The entry of the child, or where no entry carries the id, the oldest one.

SOURCE: clients/database.py:6893-6904 -/
def Ledger.pop (l : Ledger) (childId : Option String) : List Entry :=
  match childId with
  | none => popOldest l.children
  | some child =>
    if l.children.any (·.id == child) then l.children.eraseP (·.id == child)
    else popOldest l.children

/-- What a release makes of the ledger it read.

SOURCE: clients/database.py:6878-6913 -/
def Ledger.release (l : Ledger) (childId releaseToken : Option String) : Ledger :=
  if releaseToken.any (l.released.contains ·) then l
  else
    { children := l.pop childId
      released :=
        match releaseToken with
        | none => l.released
        | some token =>
          if l.children.isEmpty then l.released
          else Recency.keepLast childrenReleasedRingMax (l.released ++ [token]) }

/-! ## Calls -/

/-- A call of a hook. -/
inductive Call
  | register (childId : String) (startedAt : Int)
  | release (childId releaseToken : Option String)

def Call.apply : Call → Ledger → Ledger
  | .register childId startedAt, l => l.register childId startedAt
  | .release childId releaseToken, l => l.release childId releaseToken

/-- A release whose token the ring already has; it returns the count it read even where the
terminal is gone.

SOURCE: clients/database.py:6880-6891 -/
def Call.isDuplicate (call : Call) (read : Ledger) : Bool :=
  match call with
  | .register _ _ => false
  | .release _ releaseToken => releaseToken.any (read.released.contains ·)

/-- Between its sessions a call holds the ledger it read and the one it is to write. -/
inductive Phase
  | called
  | found
  | computed (read write : Ledger)
  | returned (count : Option Nat)
deriving DecidableEq

/-- The ledger of `metadata_json`: in the system namespace, or the top-level list from before the
migration.

SOURCE: clients/database.py:6750-6757 -/
structure Metadata where
  cao : Option Ledger
  freeForm : List Entry

/-- SOURCE: clients/database.py:6733-6768
(`_read_children_ledger`) -/
def readChildrenLedger (terminal : Option Metadata) : Ledger :=
  match terminal with
  | none => ⟨[], []⟩
  | some metadata => metadata.cao.getD ⟨metadata.freeForm, []⟩

/-- The merge of a patch that has both keys; false where the terminal is gone.

SOURCE: clients/database.py:6639-6668
(`merge_terminal_system_metadata`) -/
def mergeTerminalSystemMetadata (terminal : Option Metadata) (patch : Ledger) :
    Option Metadata × Bool :=
  match terminal with
  | none => (none, false)
  | some metadata => (some { metadata with cao := some patch }, true)

/-- The terminal's row, the calls, and what they have written so far. -/
structure State where
  terminal : Option Metadata
  calls : Nat → Phase
  registered : List String
  stopped : List String

/-- One session of a call. -/
inductive Session
  | lookup
  | read (now : Int)
  | merge
deriving DecidableEq

structure Step where
  call : Nat
  session : Session

section Calls

variable (calls : Nat → Call) (maxAge : Int)

/-- What a call adds to the history when it writes. -/
def State.record (s : State) : Call → State
  | .register childId _ => { s with registered := s.registered.insert childId }
  | .release _ (some token) => { s with stopped := s.stopped.insert token }
  | .release _ none => s

def State.put (s : State) (c : Nat) (phase : Phase) : State :=
  { s with calls := Function.update s.calls c phase }

/-- SOURCE: clients/database.py:6814-6922
(`register_terminal_child`, `release_terminal_child`) -/
def exec (s : State) (step : Step) : State :=
  match s.calls step.call, step.session with
  | .called, .lookup =>
    s.put step.call (if s.terminal.isSome then .found else .returned none)
  | .found, .read now =>
    let read := readChildrenLedger s.terminal
    let pruned := { read with children := pruneStaleChildren read.children now maxAge }
    s.put step.call (.computed read ((calls step.call).apply pruned))
  | .computed read write, .merge =>
    let (terminal, ok) := mergeTerminalSystemMetadata s.terminal write
    let count :=
      if ok || (calls step.call).isDuplicate read then some write.children.length else none
    let merged := { s with terminal := terminal }
    (if ok then merged.record (calls step.call) else merged).put step.call (.returned count)
  | _, _ => s

/-- A terminal with an empty ledger, and no call on it yet. -/
def begin : State where
  terminal := some ⟨none, []⟩
  calls := fun _ => .called
  registered := []
  stopped := []

end Calls

end CliAgentOrchestrator.Terminal.Children
