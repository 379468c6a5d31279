import CliAgentOrchestrator.Truth.Emit

/-!
# The fleet liveness probe

`adapters/truth/liveness_probe.py`: one listing of the panes a tick. A tick answers with what it
writes, in order: liveness columns, and drafts that are appended and folded one by one. A failed
probe says nothing about a pane; the third in a row declares the whole fleet missing, once.
-/

set_option autoImplicit false

namespace CliAgentOrchestrator.Truth

open CliAgentOrchestrator.Core Library

/-! ## What the probe knows -/

/-- SOURCE: core/timing.py:132 -/
def probeFailTicks : Nat := 3

/-- SOURCE: core/timing.py:136 -/
def paneMissTicks : Nat := 2

/-- SOURCE: core/events.py:64 -/
def fleetTerminalId : String := "__fleet__"

/-- SOURCE: adapters/truth/liveness_probe.py:81-87 -/
structure PaneRecord where
  session : String
  window : String
  pid : Option Int

/-- SOURCE: adapters/truth/liveness_probe.py:90-100 -/
structure TerminalRef where
  terminalId : String
  tmuxSession : String
  tmuxWindow : String
  terminalId_ne : terminalId ≠ ""

/-- A roster, which names a terminal once. -/
structure Roster where
  refs : List TerminalRef
  nodup : (refs.map TerminalRef.terminalId).Nodup

/-- SOURCE: adapters/truth/liveness_probe.py:103-117 -/
structure Track where
  confirmedPresent : Option Bool := none
  missCount : Nat := 0
  exited : Bool := false
  degradedReason : Option DegradedReason := none

/-- SOURCE: adapters/truth/liveness_probe.py:120-124 -/
structure ProbeState where
  consecutiveFailures : Nat := 0
  producerErrorOpen : Bool := false
  tracks : String → Track := fun _ => {}

/-- A write of a tick. -/
inductive ProbeWrite
  | emit (draft : EventDraft)
  | touch (terminalId : String) (probe : Probe)

/-- The terminal a write is about. -/
def ProbeWrite.terminalId : ProbeWrite → String
  | emit draft => draft.terminalId
  | touch terminalId _ => terminalId

/-! ## The drafts -/

/-- A worker-truth draft of the probe. -/
def paneDraft (ref : TerminalRef) (kind : EventKind) (now : Int) (payload : Payload) :
    EventDraft where
  terminalId := ref.terminalId
  kind := .event kind
  producer := .pane
  confidence := .derived
  observedAt := now
  payload := payload
  sourceRef := none
  runId := none
  msgId := none
  evidence := none
  idempotencyKey := none
  terminalId_ne := ref.terminalId_ne
  evidence_eq_none := noEvidence_event kind

/-- SOURCE: adapters/truth/liveness_probe.py:360-370 -/
def probeFailedDraft (now : Int) : EventDraft where
  terminalId := fleetTerminalId
  kind := .decision .probeFailed
  producer := .server
  confidence := .derived
  observedAt := now
  payload := [("consecutive_failures", none)]
  sourceRef := none
  runId := none
  msgId := none
  evidence := none
  idempotencyKey := none
  terminalId_ne := by decide
  evidence_eq_none _ := rfl

/-- SOURCE: adapters/truth/liveness_probe.py:496-506 -/
def missingDraft (ref : TerminalRef) (reason : DegradedReason) (now : Int) : EventDraft :=
  paneDraft ref .paneMissing now [("reason", some reason.value)]

/-- SOURCE: adapters/truth/liveness_probe.py:430-443 -/
def recoveredDraft (ref : TerminalRef) (previousReason : Option DegradedReason) (now : Int) :
    EventDraft :=
  paneDraft ref .paneRecovered now
    [("pane_pid", none), ("recovered_from", previousReason.map DegradedReason.value),
      ("closed_producer_error_episode", none)]

/-- SOURCE: adapters/truth/liveness_probe.py:483-492 -/
def exitedDraft (ref : TerminalRef) (reason : String) (now : Int) : EventDraft :=
  paneDraft ref .processExited now [("reason", some reason), ("miss_count", none)]

/-! ## A tick -/

/-- What the listing makes of one terminal: its track after it, and what is written. -/
abbrev Verdict := Track × List ProbeWrite

/-- SOURCE: adapters/truth/liveness_probe.py:375-380 -/
def declareMissing (now : Int) (ref : TerminalRef) (track : Track) : Verdict :=
  ({ track with confirmedPresent := some false, degradedReason := some .producerError },
    [.emit (missingDraft ref .producerError now)])

/-- SOURCE: adapters/truth/liveness_probe.py:413-443 -/
def onPanePresent (now : Int) (ref : TerminalRef) (track : Track) (pane : PaneRecord) : Verdict :=
  ({ confirmedPresent := some true },
    .touch ref.terminalId ⟨now, true, pane.pid, 0⟩ ::
      if track.confirmedPresent = some false then
        [.emit (recoveredDraft ref track.degradedReason now)]
      else [])

/-- SOURCE: adapters/truth/liveness_probe.py:445-460 -/
def onPaneUnreadable (now : Int) (ref : TerminalRef) (track : Track) : Verdict :=
  let touch := ProbeWrite.touch ref.terminalId ⟨now, false, none, track.missCount⟩
  if track.confirmedPresent = some false then (track, [touch])
  else
    ({ track with confirmedPresent := some false, degradedReason := some .paneUnreadable },
      [touch, .emit (missingDraft ref .paneUnreadable now)])

/-- SOURCE: adapters/truth/liveness_probe.py:462-492 -/
def onPaneAbsent (teardownIsLive : Bool) (now : Int) (ref : TerminalRef) (track : Track) :
    Verdict :=
  let firstMiss := track.confirmedPresent ≠ some false
  let missed := { track with missCount := track.missCount + 1, confirmedPresent := some false }
  let touch := ProbeWrite.touch ref.terminalId ⟨now, false, none, missed.missCount⟩
  let reasoned := if firstMiss then { missed with degradedReason := some .paneUnreadable } else missed
  let missing := if firstMiss then [.emit (missingDraft ref .paneUnreadable now)] else []
  if missed.missCount < paneMissTicks ∨ missed.exited = true then (reasoned, touch :: missing)
  else
    ({ reasoned with exited := true },
      touch :: missing ++
        [.emit (exitedDraft ref (if teardownIsLive then "teardown" else "crash") now)])

/-- The pane of a terminal: the last one listed under its session and window.
SOURCE: adapters/truth/liveness_probe.py:394-398 -/
def paneOf (panes : List PaneRecord) (ref : TerminalRef) : Option PaneRecord :=
  (panes.filter fun pane =>
    pane.session == ref.tmuxSession && pane.window == ref.tmuxWindow).getLast?

/-- SOURCE: adapters/truth/liveness_probe.py:396-411 -/
def judge (panes : List PaneRecord) (teardownIsLive : String → Bool) (now : Int)
    (ref : TerminalRef) (track : Track) : Verdict :=
  match paneOf panes ref with
  | some pane => onPanePresent now ref track pane
  | none =>
    if panes.any fun pane => pane.session == ref.tmuxSession then
      onPaneAbsent (teardownIsLive ref.terminalId) now ref track
    else onPaneUnreadable now ref track

/-- One verdict after the other, each on the track of its terminal. -/
def judgeFleet (verdict : TerminalRef → Track → Verdict) :
    List TerminalRef → (String → Track) → (String → Track) × List ProbeWrite
  | [], tracks => (tracks, [])
  | ref :: rest, tracks =>
    let (track, writes) := verdict ref (tracks ref.terminalId)
    let (tracks, later) := judgeFleet verdict rest
      fun id => if id = ref.terminalId then track else tracks id
    (tracks, writes ++ later)

/-- SOURCE: adapters/truth/liveness_probe.py:356-380 -/
def onFailedProbe (st : ProbeState) (fleet : Roster) (now : Int) : ProbeState × List ProbeWrite :=
  let st := { st with consecutiveFailures := st.consecutiveFailures + 1 }
  if st.consecutiveFailures < probeFailTicks ∨ st.producerErrorOpen = true then
    (st, [.emit (probeFailedDraft now)])
  else
    let (tracks, writes) := judgeFleet (declareMissing now) fleet.refs st.tracks
    ({ st with producerErrorOpen := true, tracks := tracks },
      .emit (probeFailedDraft now) :: writes)

/-- SOURCE: adapters/truth/liveness_probe.py:384-411 -/
def onSuccessfulProbe (st : ProbeState) (panes : List PaneRecord) (fleet : Roster)
    (teardownIsLive : String → Bool) (now : Int) : ProbeState × List ProbeWrite :=
  let (tracks, writes) := judgeFleet (judge panes teardownIsLive now) fleet.refs st.tracks
  ({ consecutiveFailures := 0, producerErrorOpen := false, tracks := tracks }, writes)

/-- What `list_panes` answers: there is no listing to be had, it raised, or the panes.
SOURCE: adapters/truth/liveness_probe.py:136-146 -/
inductive Listing
  | unavailable
  | raised
  | panes (panes : List PaneRecord)

/-- A tick: the roster, the listing, the clock, and the teardown intents in force. -/
structure Tick where
  fleet : Roster
  listing : Listing
  now : Int
  teardownIsLive : String → Bool

/-- SOURCE: adapters/truth/liveness_probe.py:291-336 -/
def probeOnce (st : ProbeState) (tick : Tick) : ProbeState × List ProbeWrite :=
  if tick.fleet.refs = [] then (st, [])
  else
    match tick.listing with
    | .unavailable => (st, [])
    | .raised => onFailedProbe st tick.fleet tick.now
    | .panes [] => onFailedProbe st tick.fleet tick.now
    | .panes panes => onSuccessfulProbe st panes tick.fleet tick.teardownIsLive tick.now

/-! ## The writes -/

/-- What an append and its fold find. -/
structure EmitEnv where
  eventId : String
  ingestedAt : Int
  env : Surroundings

/-- Append a draft, then fold its row; false when a store call raised.
SOURCE: adapters/truth/wiring.py:178-260 -/
def emit (e : EmitEnv) (s : Store) (draft : EventDraft) : Bool × Store :=
  match s.events.append draft e.eventId e.ingestedAt with
  | none => (false, s)
  | some (row, log) => project e.env { s with events := log } row

/-- SOURCE: adapters/truth/liveness_probe.py:496-531 -/
def ProbeWrite.carryOut (e : EmitEnv) (s : Store) : ProbeWrite → Bool × Store
  | emit draft => Truth.emit e s draft
  | touch terminalId probe => (true, { s with states := s.states.touchProbe terminalId probe })

/-- The writes of a tick in order; `n` counts those already made. -/
def carryOutAll (env : Nat → EmitEnv) : Nat → Store → List ProbeWrite → Bool × Store
  | _, s, [] => (true, s)
  | n, s, write :: rest =>
    let (went, s) := write.carryOut (env n) s
    let (allWent, s) := carryOutAll env (n + 1) s rest
    (went && allWent, s)

/-- The probe and the stores it writes. -/
structure Probing where
  probe : ProbeState
  store : Store

/-- A tick with its writes made. -/
def Probing.tick (s : Probing) (tick : Tick) (env : Nat → EmitEnv) : Probing where
  probe := (probeOnce s.probe tick).1
  store := (carryOutAll env 0 s.store (probeOnce s.probe tick).2).2

/-- Were all rows of a tick appended and folded? -/
def Probing.folds (s : Probing) (tick : Tick) (env : Nat → EmitEnv) : Bool :=
  (carryOutAll env 0 s.store (probeOnce s.probe tick).2).1

end CliAgentOrchestrator.Truth
