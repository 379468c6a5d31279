import CliAgentOrchestrator.Core.Delivery
import CliAgentOrchestrator.Truth.Store

/-!
# The projector

`app/worker_truth/projector.py` and `mapping.py`: how one stored event moves the row of its
terminal, and how the sweep degrades a terminal nobody hears of. Every rule writes the
projection first and appends its decision row after, in two transactions; what the clock, the
source registry and the stores answer is part of the call.
-/

set_option autoImplicit false

namespace CliAgentOrchestrator.Truth

open CliAgentOrchestrator.Core Library

/-! ## What an event means -/

/-- SOURCE: app/worker_truth/mapping.py:54-67, 232-240 -/
def impliedState : EventKind → Option WorkerState
  | .sessionStarted => some .starting
  | .sessionResumed => some .idle
  | .turnStarted => some .busy
  | .turnEnded => some .idle
  | .toolCalled => some .busy
  | .toolResult => some .busy
  | .promptAwaiting => some .awaitingInput
  | .promptAnswered => some .busy
  | .submissionConfirmed => some .busy
  | .usageCapped => some .capped
  | .processExited => some .exited
  | .paneMissing => some .degraded
  | .statusLegacyPublished => none
  | .statusPaneClassified => none
  | .paneRecovered => none

/-- SOURCE: app/worker_truth/mapping.py:93-101, 243-251 -/
def legacyState (latchedStatus : String) : Option WorkerState :=
  [("unknown", WorkerState.degraded), ("idle", .idle), ("processing", .busy),
    ("completed", .idle), ("waiting_user_answer", .awaitingInput),
    ("render_uncertain", .degraded), ("error", .exited)].lookup latchedStatus

/-- The state the screen was in when a dialog ended, clamped to the two it can end in.
SOURCE: app/worker_truth/mapping.py:195-229 -/
def answeredState (payload : Payload) : Option WorkerState :=
  ((payload.str "latched_status").bind legacyState).filter fun state =>
    state == .idle || state == .busy

/-- SOURCE: app/worker_truth/projector.py:887-895 -/
def payloadReason (payload : Payload) : Option DegradedReason :=
  (payload.str "degraded_reason").bind DegradedReason.ofValue

/-- What a kind implies, where a payload does not say more.
SOURCE: app/worker_truth/projector.py:871-885 -/
def kindTarget (kind : EventKind) (payload : Payload) :
    Option WorkerState × Option DegradedReason :=
  match impliedState kind with
  | some .degraded =>
    match payloadReason payload with
    | some reason => (some .degraded, some reason)
    | none =>
      if kind = .paneMissing then (some .degraded, some .paneUnreadable)
      else (some .degraded, some .renderUncertain)
  | target => (target, none)

/-- The state an event asserts, and the reason if that state is degraded.
SOURCE: app/worker_truth/projector.py:830-885 -/
def eventTarget (kind : EventKind) (payload : Payload) :
    Option WorkerState × Option DegradedReason :=
  match kind with
  | .statusLegacyPublished =>
    match (payload.str "latched_status").bind legacyState with
    | some .degraded => (some .degraded, some .renderUncertain)
    | target => (target, none)
  | .promptAnswered =>
    match answeredState payload with
    | some resolved => (some resolved, none)
    | none => kindTarget kind payload
  | kind => kindTarget kind payload

/-! ## The rules -/

/-- What a rule decides: the row to write, and the decision row to append after it. -/
structure Ruling where
  row : ProjectedState
  decision : Option (DecisionKind × Payload) := none

/-- SOURCE: app/worker_truth/projector.py:728-776 -/
def diagonal (row : ProjectedState) (seq : Nat) (target : WorkerState)
    (reason : Option DegradedReason) : Ruling :=
  match reason with
  | some reason =>
    if target = .degraded ∧ reasonRises row.degradedReason reason = true then
      { row := { row with degradedReason := some reason, lastEventSeq := seq }
        decision := some (.statusReasonChanged,
          [("from_reason", row.degradedReason.map DegradedReason.value),
            ("to_reason", some reason.value), ("rule", some "reason_rise")]) }
    else { row := { row with lastEventSeq := seq } }
  | none => { row := { row with lastEventSeq := seq } }

/-- SOURCE: app/worker_truth/projector.py:678-726 -/
def transition (row : ProjectedState) (seq : Nat) (ingestedAt : Int)
    (target : Option WorkerState × Option DegradedReason) : Ruling :=
  match target with
  | (none, _) => { row := { row with lastEventSeq := seq } }
  | (some target, reason) =>
    match validate row.state target with
    | .noOp => diagonal row seq target reason
    | classification =>
      { row := { row with
          state := target, since := ingestedAt, lastEventSeq := seq
          degradedReason := if target = .degraded then reason else none
          priorState := if target = .degraded then some row.state else none }
        decision := some (.statusTransition,
          [("from", some row.state.value), ("to", some target.value), ("rule", some "applied"),
            ("classification", some classification.value),
            ("degraded_reason", reason.map DegradedReason.value)]) }

/-- `pane.recovered` restores the state before the degradation.
SOURCE: app/worker_truth/projector.py:778-828 -/
def recover (row : ProjectedState) (seq : Nat) (ingestedAt : Int) : Ruling :=
  if row.state = .degraded then
    let target := row.priorState.getD .idle
    { row := { row with
        state := target, since := ingestedAt, lastEventSeq := seq
        degradedReason := none, priorState := none }
      decision := some (.statusRecovered,
        [("from", some row.state.value), ("to", some target.value), ("rule", some "recovered"),
          ("classification", some (validate row.state target).value),
          ("restored_reason", row.degradedReason.map DegradedReason.value)]) }
  else { row := { row with lastEventSeq := seq } }

/-- What the sweep makes of a silent terminal. The text `silent_since`, which nothing reads, is
left out of the payload.
SOURCE: app/worker_truth/projector.py:1104-1164 -/
def degradeNoSignal (row : ProjectedState) (now : Int) : Ruling :=
  if row.state = .degraded ∧ reasonRises row.degradedReason .noSignal = false then { row := row }
  else
    { row := { row with
        state := .degraded, since := now
        degradedReason := some .noSignal, priorState := some row.state }
      decision := some (.statusTransition,
        [("from", some row.state.value), ("to", some WorkerState.degraded.value),
          ("rule", some "no_signal_sweep"),
          ("classification", some (validate row.state .degraded).value),
          ("degraded_reason", some DegradedReason.noSignal.value)]) }

/-! ## The calls -/

/-- A call of one of the stores. -/
inductive StoreCall
  | get
  | read
  | upsert
  | append
deriving DecidableEq

/-- What a call of the projector finds: the clock, the source registry, the id and the stamp its
decision row is given, and the store call that raises, or before which the process stops. -/
structure Surroundings where
  now : Int
  authoritative : String → Bool
  fallbackDisabled : String → Bool
  newUlid : String
  ingestedAt : Int
  raises : StoreCall → Bool := fun _ => false

/-- SOURCE: core/timing.py:124 -/
def noSignalS : Int := 60

/-- SOURCE: app/worker_truth/projector.py:664-674 -/
def sourceHealthy (env : Surroundings) (row : ProjectedState) : Bool :=
  match row.lastSourceProbeAt with
  | none => false
  | some probedAt => env.now - probedAt ≤ seconds noSignalS

/-- Does the projection own the status of the terminal?
SOURCE: app/worker_truth/projector.py:603-649 -/
def projected (env : Surroundings) (row : ProjectedState) : Bool :=
  if row.lastSourceProbeAt.isSome && env.fallbackDisabled row.terminalId then true
  else if env.authoritative row.terminalId then sourceHealthy env row
  else false

/-- SOURCE: app/worker_truth/projector.py:160-168 -/
def derivedAlwaysKinds : List EventKind :=
  [.promptAwaiting, .promptAnswered, .usageCapped, .processExited, .paneRecovered]

/-- Is a derived event logged but not applied, when the projection owns the status or not?
SOURCE: app/worker_truth/projector.py:520-541 -/
def isMuted (owned : Bool) (kind : EventKind) (confidence : Confidence) : Bool :=
  confidence == .derived && !derivedAlwaysKinds.contains kind && owned

/-- The rule an event falls under.
SOURCE: app/worker_truth/projector.py:475-490 -/
def rule (owned : Bool) (row : ProjectedState) (kind : EventKind) (event : WorkerEvent) : Ruling :=
  if isMuted owned kind event.confidence then { row := { row with lastEventSeq := event.seq } }
  else if kind = .paneRecovered then recover row event.seq event.ingestedAt
  else transition row event.seq event.ingestedAt (eventTarget kind event.payload)

/-- Both stores. -/
structure Store where
  states : StateStore
  events : EventLog

def Store.empty : Store := ⟨.empty, .empty⟩

/-- SOURCE: app/worker_truth/projector.py:509-518 -/
def load (states : StateStore) (terminalId : String) (at_ : Int) : ProjectedState :=
  (states.get terminalId).getD { terminalId := terminalId, since := at_ }

/-- The decision row names the event that justified it.
SOURCE: app/worker_truth/projector.py:1168-1201 -/
def decisionDraft (decision : DecisionKind) (cause : WorkerEvent) (payload : Payload)
    (observedAt : Int) : EventDraft where
  terminalId := cause.terminalId
  kind := .decision decision
  producer := .server
  confidence := .authoritative
  observedAt := observedAt
  payload := payload
  sourceRef := none
  runId := cause.runId
  msgId := cause.msgId
  evidence := some cause.eventId
  idempotencyKey := none
  terminalId_ne := cause.terminalId_ne
  evidence_eq_none := by
    intro h
    cases h

/-- Append the decision row of a ruling; false when the append raised. -/
def appendDecision (env : Surroundings) (log : EventLog) (decision : DecisionKind)
    (cause : WorkerEvent) (payload : Payload) : Bool × EventLog :=
  if env.raises .append then (false, log)
  else
    match log.append (decisionDraft decision cause payload env.now) env.newUlid
        env.ingestedAt with
    | none => (false, log)
    | some (_, log) => (true, log)

/-- Write the row of a ruling, then append its decision row; false when a store call raised. -/
def carryOut (env : Surroundings) (s : Store) (ruling : Ruling) (cause : WorkerEvent) :
    Bool × Store :=
  if env.raises .upsert then (false, s)
  else
    let states := s.states.upsert ruling.row
    match ruling.decision with
    | none => (true, ⟨states, s.events⟩)
    | some (decision, payload) =>
      let (appended, log) := appendDecision env s.events decision cause payload
      (appended, ⟨states, log⟩)

/-- Fold one event into the projection. A decision row moves nothing.
SOURCE: app/worker_truth/projector.py:449-507 -/
def project (env : Surroundings) (s : Store) (event : WorkerEvent) : Bool × Store :=
  match event.kind with
  | .decision _ => (true, s)
  | .event kind =>
    if env.raises .get then (false, s)
    else
      let row := load s.states event.terminalId event.ingestedAt
      carryOut env s (rule (projected env row) row kind event) event

/-! ## What the calls write -/

theorem load_terminalId (states : StateStore) (terminalId : String) (at_ : Int) :
    (load states terminalId at_).terminalId = terminalId := by
  unfold load
  cases hget : states.get terminalId with
  | none => rfl
  | some row => exact Table.key_of_get hget

theorem diagonal_terminalId (row : ProjectedState) (seq : Nat) (target : WorkerState)
    (reason : Option DegradedReason) :
    (diagonal row seq target reason).row.terminalId = row.terminalId := by
  unfold diagonal
  cases reason with
  | none => rfl
  | some reason => dsimp only; split <;> rfl

/-- No rule moves a row to another terminal. -/
theorem rule_terminalId (owned : Bool) (row : ProjectedState) (kind : EventKind)
    (event : WorkerEvent) : (rule owned row kind event).row.terminalId = row.terminalId := by
  unfold rule transition recover
  split
  · rfl
  · split
    · split <;> rfl
    · split
      · rfl
      · split
        · exact diagonal_terminalId row event.seq _ _
        · rfl

theorem degradeNoSignal_terminalId (row : ProjectedState) (now : Int) :
    (degradeNoSignal row now).row.terminalId = row.terminalId := by
  unfold degradeNoSignal
  split <;> rfl

/-- The row of a ruling is written before anything that may still raise. -/
theorem carryOut_states (env : Surroundings) (s : Store) (ruling : Ruling) (cause : WorkerEvent) :
    (carryOut env s ruling cause).2.states =
      if env.raises .upsert = true then s.states else s.states.upsert ruling.row := by
  unfold carryOut
  split
  · rfl
  · cases ruling.decision <;> rfl

theorem carryOut_events (env : Surroundings) (s : Store) (ruling : Ruling) (cause : WorkerEvent) :
    (carryOut env s ruling cause).2.events =
      if env.raises .upsert = true then s.events
      else (ruling.decision.map fun d => (appendDecision env s.events d.1 cause d.2).2).getD
        s.events := by
  unfold carryOut
  split
  · rfl
  · cases ruling.decision <;> rfl

/-- A decision row has no idempotency key, so it is appended unless the store raises or its id is
taken. -/
theorem appendDecision_events (env : Surroundings) (log : EventLog) (decision : DecisionKind)
    (cause : WorkerEvent) (payload : Payload) :
    ((env.raises .append = true ∨ log.workerEvent.get env.newUlid ≠ none) ∧
        (appendDecision env log decision cause payload).2 = log) ∨
      (env.raises .append = false ∧ log.workerEvent.get env.newUlid = none ∧
        EventLog.Appended log (decisionDraft decision cause payload env.now) env.newUlid
          env.ingestedAt
          (storedRow (decisionDraft decision cause payload env.now) env.newUlid env.ingestedAt
            (log.highWater cause.terminalId))
          (appendDecision env log decision cause payload).2) := by
  have hkeyless : (decisionDraft decision cause payload env.now).idempotencyKey = none := rfl
  have hsome := log.isSome_append_iff env.newUlid env.ingestedAt hkeyless
  unfold appendDecision
  split
  · next hraises => exact .inl ⟨.inl hraises, rfl⟩
  · next hraises =>
    cases happend : log.append (decisionDraft decision cause payload env.now) env.newUlid
        env.ingestedAt with
    | none =>
      rw [happend] at hsome
      refine .inl ⟨.inr fun hfree => ?_, rfl⟩
      exact absurd (hsome.mpr hfree) (by simp)
    | some answer =>
      obtain ⟨row, log'⟩ := answer
      rw [happend] at hsome
      have happended := EventLog.appended_of_append happend
      refine .inr ⟨by simpa using hraises, hsome.mp rfl, ?_⟩
      cases happended with
      | known key hkey hstored => cases hkey
      | added hfree hrows hwater => exact .added hfree hrows hwater

/-- A decision row moves nothing. -/
theorem project_of_decision (env : Surroundings) (s : Store) {event : WorkerEvent}
    {kind : DecisionKind} (h : event.kind = .decision kind) : project env s event = (true, s) := by
  unfold project
  rw [h]

theorem project_of_event (env : Surroundings) (s : Store) {event : WorkerEvent}
    {kind : EventKind} (h : event.kind = .event kind) :
    project env s event =
      if env.raises .get = true then (false, s)
      else
        carryOut env s (rule
          (projected env (load s.states event.terminalId event.ingestedAt))
          (load s.states event.terminalId event.ingestedAt) kind event) event := by
  unfold project
  rw [h]

/-- The last moment anything was heard of a terminal.
SOURCE: app/worker_truth/projector.py:1003-1015 -/
def lastSignal (row : ProjectedState) : Int :=
  [row.lastProbeAt, row.lastSourceProbeAt].foldl
    (fun latest stamp => max latest (stamp.getD latest)) row.since

/-- The last worker-truth row of a terminal.
SOURCE: app/worker_truth/projector.py:1017-1049 -/
def lastEvent (log : EventLog) (terminalId : String) (lastEventSeq : Nat) : Option WorkerEvent :=
  if lastEventSeq = 0 then none
  else ((log.read terminalId (lastEventSeq - 1)).filter fun e => e.decision.isNone).getLast?

/-- The sweep's turn at one terminal, under the projector's lock.
SOURCE: app/worker_truth/projector.py:935-982 -/
def sweepTerminal (env : Surroundings) (s : Store) (terminalId : String) : Bool × Store :=
  if env.raises .get then (false, s)
  else
    match s.states.get terminalId with
    | none => (true, s)
    | some row =>
      if row.state = .exited ∨ env.now - lastSignal row ≤ seconds noSignalS then (true, s)
      else if env.raises .read then (false, s)
      else
        match lastEvent s.events terminalId row.lastEventSeq with
        | none => (true, s)
        | some event => carryOut env s (degradeNoSignal row env.now) event

/-- The terminals of the projection, in order. -/
def StateStore.allTerminals (s : StateStore) : List String :=
  (s.rows.map ProjectedState.terminalId).insertionSort fun a b => a ≤ b

/-- One pass of the sweep; a store call that raises ends it.
SOURCE: app/worker_truth/projector.py:899-1001 -/
def sweepAll (env : String → Surroundings) : Store → List String → Store
  | s, [] => s
  | s, terminalId :: rest =>
    let (went, s') := sweepTerminal (env terminalId) s terminalId
    if went then sweepAll env s' rest else s'

/-- SOURCE: app/worker_truth/projector.py:899-1001 -/
def sweep (env : String → Surroundings) (s : Store) : Store :=
  sweepAll env s s.states.allTerminals

end CliAgentOrchestrator.Truth
