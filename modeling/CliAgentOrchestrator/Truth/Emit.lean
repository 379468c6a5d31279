import CliAgentOrchestrator.Inbox.Barrier
import CliAgentOrchestrator.Truth.Episode

/-!
# Producers, the log and the fold

`adapters/truth/wiring.py`: `emit` appends a draft and then folds the row it got, as two
critical sections. The rows between the two are part of the state, so every interleaving of
the producer threads, the sweep and the probes is a run, and so is a process that stops there.
-/

set_option autoImplicit false

namespace CliAgentOrchestrator.Truth

open CliAgentOrchestrator.Core Library

/-! ## The machine -/

/-- The kinds that the projector's own rules write, and nothing else.
SOURCE: app/worker_truth/projector.py:708, 750, 808, 1143 -/
def projectorKinds : List AnyKind :=
  [.decision .statusTransition, .decision .statusReasonChanged, .decision .statusRecovered]

/-- A draft of a producer, which is never one of the projector's. -/
structure ProducerDraft where
  draft : EventDraft
  kind_notMem : draft.kind ∉ projectorKinds

/-- Worker truth is none of the projector's rows. -/
theorem event_notMem_projectorKinds (kind : EventKind) : AnyKind.event kind ∉ projectorKinds := by
  simp [projectorKinds]

/-! ## The hook route -/

/-- SOURCE: adapters/truth/claude_hooks.py:69-72 -/
def markerKindToEvent (markerKind : String) : Option EventKind :=
  [("question_open", EventKind.promptAwaiting),
    ("question_clear", EventKind.promptAnswered)].lookup markerKind

/-- SOURCE: core/events.py:228-247 -/
def sourceRef (scheme subject discriminator : String) : Option String :=
  let subjectText := Inbox.strip subject
  let discriminatorText := Inbox.strip discriminator
  if subjectText = "" ∨ discriminatorText = "" then none
  else some (scheme ++ ":" ++ subjectText ++ "#" ++ discriminatorText)

/-- The draft of one marker, if the hook comes to emit one.
SOURCE: adapters/truth/claude_hooks.py:75-134 -/
def interactionMarker (terminalId markerKind hookEvent : String)
    (toolName idempotencyKey : Option String) (observedAt : Int) : Option ProducerDraft :=
  (markerKindToEvent markerKind).bind fun kind =>
    (sourceRef "hook" (if hookEvent = "" then markerKind else hookEvent)
        ((idempotencyKey.filter (· ≠ "")).getD markerKind)).bind fun ref =>
      if h : terminalId = "" then none
      else some
        { draft :=
            { terminalId := terminalId
              kind := .event kind
              producer := .hook
              confidence := .authoritative
              observedAt := observedAt
              payload := [("marker_kind", some markerKind), ("hook_event", some hookEvent),
                ("tool_name", toolName)]
              sourceRef := some ref
              runId := none
              msgId := none
              evidence := none
              idempotencyKey := idempotencyKey
              terminalId_ne := h
              evidence_eq_none := fun _ => rfl }
          kind_notMem := event_notMem_projectorKinds kind }

/-! ## The emitting threads -/

/-- The stores, and the rows whose `emit` has appended and not folded yet. -/
structure Emitting where
  store : Store
  unfolded : List WorkerEvent

def Emitting.start : Emitting := ⟨.empty, []⟩

/-- A critical section of the ingestion.
SOURCE: adapters/truth/wiring.py:178-260 -/
inductive EmitStep
  | append (draft : ProducerDraft) (eventId : String) (ingestedAt : Int)
  | fold (i : Nat) (env : Surroundings)
  | sweepTerminal (env : Surroundings) (terminalId : String)
  | touchProbe (terminalId : String) (probe : Probe)
  | touchSourceProbe (terminalId : String) (probedAt : Int)
  | stop

def EmitStep.exec (s : Emitting) : EmitStep → Emitting
  | append draft eventId ingestedAt =>
    match s.store.events.append draft.draft eventId ingestedAt with
    | none => s
    | some (row, log) => ⟨{ s.store with events := log }, s.unfolded ++ [row]⟩
  | fold i env =>
    match s.unfolded[i]? with
    | none => s
    | some event => ⟨(project env s.store event).2, s.unfolded.eraseIdx i⟩
  | sweepTerminal env terminalId =>
    { s with store := (Truth.sweepTerminal env s.store terminalId).2 }
  | touchProbe terminalId probe =>
    { s with store.states := s.store.states.touchProbe terminalId probe }
  | touchSourceProbe terminalId probedAt =>
    { s with store.states := s.store.states.touchSourceProbe terminalId probedAt }
  | stop => { s with unfolded := [] }

/-- The append of one marker. -/
def appendMarker (markerKind idempotencyKey eventId : String) : List EmitStep :=
  (interactionMarker "t" markerKind "" none (some idempotencyKey) 0).toList.map fun draft =>
    .append draft eventId 0

/-- Surroundings without a registered source. -/
def unsourced (newUlid : String) : Surroundings where
  now := 0
  authoritative _ := false
  fallbackDisabled _ := false
  newUlid := newUlid
  ingestedAt := 0

/-! ## What a step carries out -/

/-- A ruling that a step carries out: under which surroundings, and the event it cites. -/
structure Carried where
  env : Surroundings
  ruling : Ruling
  cause : WorkerEvent

/-- The ruling of a fold. -/
def foldCarried (env : Surroundings) (s : Store) (event : WorkerEvent) : Option Carried :=
  match event.kind with
  | .decision _ => none
  | .event kind =>
    let row := load s.states event.terminalId event.ingestedAt
    if env.raises .get then none
    else some ⟨env, rule (projected env row) row kind event, event⟩

/-- The ruling of a turn of the sweep. -/
def sweepCarried (env : Surroundings) (s : Store) (terminalId : String) : Option Carried :=
  if env.raises .get then none
  else
    (s.states.get terminalId).bind fun row =>
      if row.state = .exited ∨ env.now - lastSignal row ≤ seconds noSignalS then none
      else if env.raises .read then none
      else (lastEvent s.events terminalId row.lastEventSeq).map fun event =>
        ⟨env, degradeNoSignal row env.now, event⟩

/-- The ruling a step carries out, if it comes to one. -/
def EmitStep.carried (s : Emitting) : EmitStep → Option Carried
  | fold i env => (s.unfolded[i]?).bind (foldCarried env s.store)
  | sweepTerminal env terminalId => sweepCarried env s.store terminalId
  | _ => none

theorem project_eq_carried (env : Surroundings) (s : Store) (event : WorkerEvent) :
    (project env s event).2 =
      ((foldCarried env s event).map fun c => (carryOut c.env s c.ruling c.cause).2).getD s := by
  unfold foldCarried
  cases hkind : event.kind with
  | decision kind =>
    rw [project_of_decision env s hkind]
    rfl
  | event kind =>
    rw [project_of_event env s hkind]
    dsimp only
    split <;> rfl

theorem sweepTerminal_eq_carried (env : Surroundings) (s : Store) (terminalId : String) :
    (sweepTerminal env s terminalId).2 =
      ((sweepCarried env s terminalId).map fun c =>
        (carryOut c.env s c.ruling c.cause).2).getD s := by
  unfold sweepTerminal sweepCarried
  split
  · rfl
  · cases s.states.get terminalId with
    | none => rfl
    | some row =>
      dsimp only [Option.bind_some]
      split
      · rfl
      · split
        · rfl
        · cases lastEvent s.events terminalId row.lastEventSeq <;> rfl

theorem EmitStep.exec_of_carried {s : Emitting} {step : EmitStep} {c : Carried}
    (h : step.carried s = some c) :
    (EmitStep.exec s step).store = (carryOut c.env s.store c.ruling c.cause).2 := by
  cases step with
  | fold i env =>
    obtain ⟨event, hevent, hcarried⟩ := Option.bind_eq_some_iff.mp h
    simp only [EmitStep.exec, hevent]
    rw [project_eq_carried, hcarried]
    rfl
  | sweepTerminal env terminalId =>
    have hcarried : sweepCarried env s.store terminalId = some c := h
    simp only [EmitStep.exec]
    rw [sweepTerminal_eq_carried, hcarried]
    rfl
  | _ => cases h

/-- What a fold carries out names the row of its own event. -/
theorem foldCarried_terminalId {env : Surroundings} {s : Store} {event : WorkerEvent}
    {c : Carried} (h : foldCarried env s event = some c) :
    c.cause = event ∧ c.ruling.row.terminalId = event.terminalId := by
  unfold foldCarried at h
  cases hkind : event.kind with
  | decision kind =>
    rw [hkind] at h
    cases h
  | event kind =>
    rw [hkind] at h
    dsimp only at h
    split at h
    · cases h
    · cases h
      exact ⟨rfl, by rw [rule_terminalId, load_terminalId]⟩

/-- What a sweep carries out cites a row of the terminal it judges. -/
theorem sweepCarried_cases {env : Surroundings} {s : Store} {terminalId : String} {c : Carried}
    (h : sweepCarried env s terminalId = some c) :
    ∃ row, s.states.get terminalId = some row ∧ c.ruling = degradeNoSignal row env.now ∧
      lastEvent s.events terminalId row.lastEventSeq = some c.cause := by
  unfold sweepCarried at h
  split at h
  · cases h
  · obtain ⟨row, hrow, h⟩ := Option.bind_eq_some_iff.mp h
    split at h
    · cases h
    · split at h
      · cases h
      · obtain ⟨event, hevent, rfl⟩ := Option.map_eq_some_iff.mp h
        exact ⟨row, hrow, rfl, hevent⟩

theorem mem_read {log : EventLog} {terminalId : String} {sinceSeq : Nat} {e : WorkerEvent}
    (h : e ∈ log.read terminalId sinceSeq) :
    e ∈ log.workerEvent.rows ∧ e.terminalId = terminalId := by
  unfold EventLog.read at h
  rw [List.mem_insertionSort, List.mem_filter] at h
  refine ⟨h.1, ?_⟩
  simpa using And.left (by simpa using h.2 : e.terminalId = terminalId ∧ _)

theorem lastEvent_mem {log : EventLog} {terminalId : String} {lastEventSeq : Nat}
    {e : WorkerEvent} (h : lastEvent log terminalId lastEventSeq = some e) :
    e ∈ log.workerEvent.rows ∧ e.terminalId = terminalId := by
  unfold lastEvent at h
  split at h
  · cases h
  · exact mem_read (List.mem_filter.mp (List.mem_of_getLast? h)).1

/-! ## What every run keeps -/

/-- The log is ordered, a row between its append and its fold is in it, and every terminal shows
a condition. -/
structure Emitting.Ok (s : Emitting) : Prop where
  ordered : s.store.events.Ordered
  stored : ∀ e ∈ s.unfolded, e ∈ s.store.events.workerEvent.rows
  shows : ∀ terminalId, ∃ c, Shows (s.store.states.standing terminalId) c

theorem Emitting.ok_start : Emitting.start.Ok where
  ordered := EventLog.ordered_empty
  stored e he := by cases he
  shows terminalId := ⟨.well .starting (by simp), rfl⟩

/-- The row a step cites is stored, for the terminal whose row it writes. -/
theorem Emitting.Ok.cause_stored {s : Emitting} (hs : s.Ok) {step : EmitStep} {c : Carried}
    (h : step.carried s = some c) :
    c.cause ∈ s.store.events.workerEvent.rows ∧
      c.ruling.row.terminalId = c.cause.terminalId := by
  cases step with
  | fold i env =>
    obtain ⟨event, hevent, hcarried⟩ := Option.bind_eq_some_iff.mp h
    obtain ⟨hcause, hid⟩ := foldCarried_terminalId hcarried
    rw [hcause]
    exact ⟨hs.stored event (List.mem_of_getElem? hevent), hid⟩
  | sweepTerminal env terminalId =>
    obtain ⟨row, hrow, hruling, hlast⟩ := sweepCarried_cases h
    obtain ⟨hmem, hid⟩ := lastEvent_mem hlast
    refine ⟨hmem, ?_⟩
    rw [hruling, degradeNoSignal_terminalId, hid]
    exact Table.key_of_get hrow
  | _ => cases h

/-- A log that one append may have made of another: rows are only added at its end, and it stays
ordered. -/
structure EventLog.Extends (log log' : EventLog) : Prop where
  rows : log.workerEvent.rows <+: log'.workerEvent.rows
  ordered : log.Ordered → log'.Ordered

theorem EventLog.Extends.refl (log : EventLog) : log.Extends log := ⟨List.prefix_rfl, id⟩

theorem EventLog.Appended.extends {log log' : EventLog} {draft : EventDraft} {eventId : String}
    {ingestedAt : Int} {row : WorkerEvent}
    (h : EventLog.Appended log draft eventId ingestedAt row log') : log.Extends log' := by
  refine ⟨?_, fun hlog => hlog.append h⟩
  cases h with
  | known key hkey hstored => exact List.prefix_rfl
  | added hfree hrows hwater => exact hrows ▸ List.prefix_append _ _

theorem EventLog.Appended.mem {log log' : EventLog} {draft : EventDraft} {eventId : String}
    {ingestedAt : Int} {row : WorkerEvent}
    (h : EventLog.Appended log draft eventId ingestedAt row log') :
    row ∈ log'.workerEvent.rows := by
  cases h with
  | known key hkey hstored => exact List.mem_of_find?_eq_some hstored
  | added hfree hrows hwater => simp [hrows]

/-- A draft without an idempotency key is added. -/
theorem EventLog.Appended.rows_of_keyless {log log' : EventLog} {draft : EventDraft}
    {eventId : String} {ingestedAt : Int} {row : WorkerEvent}
    (h : EventLog.Appended log draft eventId ingestedAt row log')
    (hkey : draft.idempotencyKey = none) :
    log'.workerEvent.rows = log.workerEvent.rows ++ [row] := by
  cases h with
  | known key hkeyed hstored =>
    rw [hkey] at hkeyed
    cases hkeyed
  | added hfree hrows hwater => exact hrows

theorem carryOut_extends (env : Surroundings) (s : Store) (ruling : Ruling)
    (cause : WorkerEvent) : s.events.Extends (carryOut env s ruling cause).2.events := by
  rw [carryOut_events]
  split
  · exact .refl s.events
  · cases ruling.decision with
    | none => exact .refl s.events
    | some d =>
      obtain ⟨-, hsame⟩ | ⟨-, -, happended⟩ :=
        appendDecision_events env s.events d.1 cause d.2
      · simpa [hsame] using EventLog.Extends.refl s.events
      · exact happended.extends

/-- The calls of `Episode` a step makes. -/
def EmitStep.calls (s : Emitting) : EmitStep → List TruthStep
  | append _ _ _ => []
  | fold i env => (s.unfolded[i]?).toList.map fun event => .project env event
  | sweepTerminal env terminalId => [.sweepTerminal env terminalId]
  | touchProbe terminalId probe => [.touchProbe terminalId probe]
  | touchSourceProbe terminalId probedAt => [.touchSourceProbe terminalId probedAt]
  | stop => []

theorem EmitStep.exec_states (s : Emitting) (step : EmitStep) :
    (EmitStep.exec s step).store.states = (run TruthStep.exec s.store (step.calls s)).states := by
  cases step with
  | append draft eventId ingestedAt =>
    simp only [EmitStep.exec]
    split <;> rfl
  | fold i env =>
    simp only [EmitStep.exec, EmitStep.calls]
    cases s.unfolded[i]? <;> rfl
  | _ => rfl

theorem EmitStep.exec_extends (s : Emitting) (step : EmitStep) :
    s.store.events.Extends (EmitStep.exec s step).store.events := by
  cases hcarried : step.carried s with
  | some c =>
    rw [exec_of_carried hcarried]
    exact carryOut_extends c.env s.store c.ruling c.cause
  | none =>
    cases step with
    | append draft eventId ingestedAt =>
      simp only [EmitStep.exec]
      split
      · exact .refl _
      · next row log happend => exact (EventLog.appended_of_append happend).extends
    | fold i env =>
      simp only [EmitStep.exec]
      cases hevent : s.unfolded[i]? with
      | none => exact .refl _
      | some event =>
        have hnone : foldCarried env s.store event = none := by
          simpa [EmitStep.carried, hevent] using hcarried
        dsimp only
        rw [project_eq_carried, hnone]
        exact .refl _
    | sweepTerminal env terminalId =>
      have hnone : sweepCarried env s.store terminalId = none := hcarried
      simp only [EmitStep.exec]
      rw [sweepTerminal_eq_carried, hnone]
      exact .refl _
    | _ => exact .refl _

/-- A row that waits for its fold waited before the step, or the step appended it. -/
theorem EmitStep.mem_unfolded_exec {s : Emitting} {step : EmitStep} {e : WorkerEvent}
    (h : e ∈ (EmitStep.exec s step).unfolded) :
    e ∈ s.unfolded ∨ e ∈ (EmitStep.exec s step).store.events.workerEvent.rows := by
  cases step with
  | append draft eventId ingestedAt =>
    simp only [EmitStep.exec] at h ⊢
    split at h
    · exact .inl h
    · next row log happend =>
      obtain hold | hnew := List.mem_append.mp h
      · exact .inl hold
      · obtain rfl := List.mem_singleton.mp hnew
        exact .inr (EventLog.appended_of_append happend).mem
  | fold i env =>
    simp only [EmitStep.exec] at h
    split at h
    · exact .inl h
    · exact .inl (List.mem_of_mem_eraseIdx h)
  | stop => cases h
  | _ => exact .inl h

theorem Emitting.Ok.exec {s : Emitting} (hs : s.Ok) (step : EmitStep) :
    (EmitStep.exec s step).Ok where
  ordered := (step.exec_extends s).ordered hs.ordered
  stored e he := by
    obtain hold | hnew := EmitStep.mem_unfolded_exec he
    · exact (step.exec_extends s).rows.subset (hs.stored e hold)
    · exact hnew
  shows terminalId := by
    rw [EmitStep.exec_states]
    refine run_invariant (fun s : Store => ∃ c, Shows (s.states.standing terminalId) c) ?_ _
      (hs.shows terminalId) _
    rintro s step ⟨c, hc⟩
    obtain ⟨c', hc', -⟩ := moves_exec hc step
    exact ⟨c', hc'⟩

end CliAgentOrchestrator.Truth
