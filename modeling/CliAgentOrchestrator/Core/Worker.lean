import Mathlib.Tactic.Common

/-!
# The worker-truth vocabulary

`core/states.py` and `core/events.py`: the seven projected states, the reasons a terminal is
degraded for and their order, the classifier of a transition, and the events producers hand
to the log. A draft that breaks the shape its validators ask for cannot be built.
-/

set_option autoImplicit false

namespace CliAgentOrchestrator.Core

/-! ## States -/

/-- What a terminal is projected into.
SOURCE: core/states.py:40-53 -/
inductive WorkerState
  | starting
  | idle
  | busy
  | awaitingInput
  | capped
  | degraded
  | exited
deriving DecidableEq

/-- SOURCE: core/states.py:40-53 -/
def WorkerState.value : WorkerState → String
  | starting => "starting"
  | idle => "idle"
  | busy => "busy"
  | awaitingInput => "awaiting_input"
  | capped => "capped"
  | degraded => "degraded"
  | exited => "exited"

theorem WorkerState.value_injective {a b : WorkerState} (h : a.value = b.value) : a = b := by
  cases a <;> cases b <;> first | rfl | (revert h; decide)

/-- Why a terminal is degraded.
SOURCE: core/states.py:56-70 -/
inductive DegradedReason
  | renderUncertain
  | paneUnreadable
  | noSignal
  | producerError
  | rolloutMissing
  | conflictingSources
deriving DecidableEq

/-- SOURCE: core/states.py:56-70 -/
def DegradedReason.value : DegradedReason → String
  | renderUncertain => "render_uncertain"
  | paneUnreadable => "pane_unreadable"
  | noSignal => "no_signal"
  | producerError => "producer_error"
  | rolloutMissing => "rollout_missing"
  | conflictingSources => "conflicting_sources"

/-- `DegradedReason(raw)`, or nothing where the constructor raises. -/
def DegradedReason.ofValue (raw : String) : Option DegradedReason :=
  [renderUncertain, paneUnreadable, noSignal, producerError, rolloutMissing,
    conflictingSources].find? fun reason => reason.value == raw

theorem DegradedReason.value_injective {a b : DegradedReason} (h : a.value = b.value) :
    a = b := by
  cases a <;> cases b <;> first | rfl | (revert h; decide)

/-- SOURCE: core/states.py:79-86 -/
def DegradedReason.rank : DegradedReason → Nat
  | producerError => 6
  | rolloutMissing => 5
  | conflictingSources => 4
  | paneUnreadable => 3
  | renderUncertain => 2
  | noSignal => 1

/-- How a pair of states is classified.
SOURCE: core/states.py:89-102 -/
inductive TransitionClass
  | allowed
  | noOp
  | anomalous
deriving DecidableEq

/-- SOURCE: core/states.py:89-102 -/
def TransitionClass.value : TransitionClass → String
  | allowed => "Allowed"
  | noOp => "NoOp"
  | anomalous => "Anomalous"

/-- A transition is classified and never refused.
SOURCE: core/states.py:136-175 -/
def validate : WorkerState → WorkerState → TransitionClass
  | .starting, .starting => .noOp
  | .starting, _ => .allowed
  | .idle, .starting => .anomalous
  | .idle, .idle => .noOp
  | .idle, _ => .allowed
  | .busy, .starting => .anomalous
  | .busy, .busy => .noOp
  | .busy, _ => .allowed
  | .awaitingInput, .starting => .anomalous
  | .awaitingInput, .awaitingInput => .noOp
  | .awaitingInput, _ => .allowed
  | .capped, .capped => .noOp
  | .capped, .idle => .allowed
  | .capped, .degraded => .allowed
  | .capped, .exited => .allowed
  | .capped, _ => .anomalous
  | .degraded, .starting => .anomalous
  | .degraded, .degraded => .noOp
  | .degraded, _ => .allowed
  | .exited, .starting => .allowed
  | .exited, .exited => .noOp
  | .exited, _ => .anomalous

/-- Only the diagonal is a no-op. -/
theorem validate_eq_noOp_iff (a b : WorkerState) : validate a b = .noOp ↔ a = b := by
  cases a <;> cases b <;> decide

/-- SOURCE: core/states.py:178-189 -/
def reasonRises (current : Option DegradedReason) (incoming : DegradedReason) : Bool :=
  match current with
  | none => true
  | some current => current.rank < incoming.rank

theorem reasonRises_self (r : DegradedReason) : reasonRises (some r) r = false := by
  cases r <;> rfl

/-- Nothing is ranked below silence. -/
theorem reasonRises_noSignal (r : DegradedReason) : reasonRises (some r) .noSignal = false := by
  cases r <;> rfl

/-! ## Events -/

/-- SOURCE: core/events.py:82-88 -/
inductive Producer
  | hook
  | jsonl
  | pane
  | server

/-- SOURCE: core/events.py:82-88 -/
def Producer.value : Producer → String
  | hook => "hook"
  | jsonl => "jsonl"
  | pane => "pane"
  | server => "server"

/-- SOURCE: core/events.py:91-100 -/
inductive Confidence
  | authoritative
  | derived
deriving DecidableEq

/-- What a worker did, as a producer saw it.
SOURCE: core/events.py:103-149 -/
inductive EventKind
  | sessionStarted
  | sessionResumed
  | turnStarted
  | turnEnded
  | toolCalled
  | toolResult
  | promptAwaiting
  | promptAnswered
  | submissionConfirmed
  | usageCapped
  | processExited
  | statusLegacyPublished
  | statusPaneClassified
  | paneMissing
  | paneRecovered
deriving DecidableEq

/-- SOURCE: core/events.py:135-149 -/
def EventKind.value : EventKind → String
  | sessionStarted => "session.started"
  | sessionResumed => "session.resumed"
  | turnStarted => "turn.started"
  | turnEnded => "turn.ended"
  | toolCalled => "tool.called"
  | toolResult => "tool.result"
  | promptAwaiting => "prompt.awaiting"
  | promptAnswered => "prompt.answered"
  | submissionConfirmed => "submission.confirmed"
  | usageCapped => "usage.capped"
  | processExited => "process.exited"
  | statusLegacyPublished => "status.legacy_published"
  | statusPaneClassified => "status.pane_classified"
  | paneMissing => "pane.missing"
  | paneRecovered => "pane.recovered"

/-- What the server did.
SOURCE: core/events.py:152-169 -/
inductive DecisionKind
  | statusTransition
  | statusReasonChanged
  | statusRecovered
  | deliveryAttempt
  | teardownDecided
  | teardownIntended
  | fleetOverride
  | probeFailed
deriving DecidableEq

/-- SOURCE: core/events.py:162-169 -/
def DecisionKind.value : DecisionKind → String
  | statusTransition => "status.transition"
  | statusReasonChanged => "status.reason_changed"
  | statusRecovered => "status.recovered"
  | deliveryAttempt => "delivery.attempt"
  | teardownDecided => "teardown.decided"
  | teardownIntended => "teardown.intended"
  | fleetOverride => "fleet.override"
  | probeFailed => "probe.failed"

/-- SOURCE: core/events.py:172 -/
inductive AnyKind
  | event (kind : EventKind)
  | decision (kind : DecisionKind)
deriving DecidableEq

def AnyKind.value : AnyKind → String
  | event kind => kind.value
  | decision kind => kind.value

/-- The `decision` column: the kind of a decision row, null for worker truth.
SOURCE: core/events.py:291-320 -/
def AnyKind.asDecision : AnyKind → Option DecisionKind
  | event _ => none
  | decision kind => some kind

theorem noEvidence_event (kind : EventKind) :
    (AnyKind.event kind).asDecision = none → (none : Option String) = none := fun _ => rfl

/-- A JSON object as its entries; a value that is no string is `none`. -/
abbrev Payload := List (String × Option String)

/-- `payload.get(key)`, where the value is a string. -/
def Payload.str (p : Payload) (key : String) : Option String := (p.lookup key).join

/-- What a producer hands to the log. `decision` is not a field: the validator makes it
`kind.asDecision`.
SOURCE: core/events.py:250-320 -/
structure EventDraft where
  terminalId : String
  kind : AnyKind
  producer : Producer
  confidence : Confidence
  observedAt : Int
  payload : Payload
  sourceRef : Option String
  runId : Option String
  msgId : Option String
  evidence : Option String
  idempotencyKey : Option String
  terminalId_ne : terminalId ≠ ""
  evidence_eq_none : kind.asDecision = none → evidence = none

/-- A stored row.
SOURCE: core/events.py:323-339 -/
structure WorkerEvent extends EventDraft where
  eventId : String
  seq : Nat
  ingestedAt : Int
  one_le_seq : 1 ≤ seq

/-- SOURCE: core/events.py:250-320 -/
def EventDraft.decision (d : EventDraft) : Option DecisionKind := d.kind.asDecision

end CliAgentOrchestrator.Core
