import CliAgentOrchestrator.Library.Machine
import CliAgentOrchestrator.Workflow.StepReplay

/-!
# Calls, resumes and the journal between them

The run-step route (`api/main.py`) and `resume_script_run` (`services/script_runner.py`) as
steps of one machine. A call asks the gate when it arrives, begins its row when its terminal is
ready and settles it when it is over, and either write may be lost; a resume claims its run,
checks the consents it finds, reads, writes, drives and revokes; a crash ends all of them.
Between any two of these steps any other may run.
-/

set_option autoImplicit false

namespace CliAgentOrchestrator.Workflow

open Library

/-- What is fixed for a server: the redaction patterns, and the reader of stored envelopes. -/
structure Settings where
  patterns : List SecretPattern
  reader : EnvelopeReader

/-! ## One call -/

/-- How a dispatched call ended, as its settle sees it: `validated` is the structured output
record of the step, where there is one. -/
inductive Outcome
  | succeeded (lastMessage responseStatus terminalId : String) (validated : Option Bool)
  | failed (error : String) (terminalId : Option String)
deriving DecidableEq

/-- SOURCE: services/script_runner.py:814-828 -/
def Outcome.state : Outcome → StepState
  | .succeeded _ _ _ none => .completed
  | .succeeded _ _ _ (some true) => .completed
  | .succeeded _ _ _ (some false) => .completedUnvalidated
  | .failed .. => .failed

def Outcome.isSuccess : Outcome → Bool
  | .succeeded .. => true
  | .failed .. => false

/-- The call succeeded and `text` is what it returned. -/
def Outcome.Returned (o : Outcome) (text : String) : Prop :=
  ∃ status terminal validated, o = .succeeded text status terminal validated

theorem Outcome.state_eq_failed_iff {o : Outcome} : o.state = .failed ↔ o.isSuccess = false := by
  rcases o with ⟨text, status, terminal, _ | _ | _⟩ | ⟨error, terminal⟩ <;>
    simp [Outcome.state, Outcome.isSuccess]

theorem Outcome.state_settled {o : Outcome} : o.state ≠ .running ∧ o.state.authorised = false := by
  rcases o with ⟨text, status, terminal, _ | _ | _⟩ | ⟨error, terminal⟩ <;>
    simp [Outcome.state, StepState.authorised, decisionStates]

/-- The envelope a settle builds.
SOURCE: services/script_runner.py:855-861 -/
def Outcome.envelope (patterns : List SecretPattern) : Outcome → StepResultEnvelope
  | .succeeded lastMessage responseStatus terminalId _ =>
    buildEnvelope patterns lastMessage responseStatus (some terminalId)
  | .failed _ terminalId => buildEnvelope patterns "" StepState.failed.value terminalId

/-- The one durable write of a settle.
SOURCE: services/script_runner.py:849-864 -/
def Outcome.columns (patterns : List SecretPattern) (outputJson : Option String) (o : Outcome) :
    SettledColumns where
  state := o.state
  resultJson := some (serialiseEnvelope (o.envelope patterns))
  outputJson := outputJson
  error :=
    match o with
    | .succeeded .. => none
    | .failed error _ => some error

/-- A run-step call the server holds. `dispatched` says the gate answered EXECUTE; a call that
was not dispatched is one whose gate failed, and which can only settle as failed. `outcome` is
what its settle wrote. -/
structure Call where
  runId : String
  stepId : String
  fingerprint : String
  dispatched : Bool
  begun : Bool := false
  live : Bool := true
  outcome : Option Outcome := none
deriving DecidableEq

def Call.key (c : Call) : StepKey := (c.runId, c.stepId)

/-- What the route does with a verdict. -/
inductive Route
  | answer (envelope : StepResultEnvelope)
  | conflict
  | run
  | fail

/-- SOURCE: api/main.py:6212-6281 -/
def ReplayDecision.route (d : ReplayDecision) : Route :=
  match d.verdict with
  | .replay =>
    match d.envelope with
    | none => .fail
    | some envelope => if envelope.terminalId.isNone then .fail else .answer envelope
  | .diverged => .conflict
  | .decisionRequired => .conflict
  | .execute => .run

/-! ## One resume -/

/-- How far a resume has come. -/
inductive DrivePhase
  /-- The run is claimed; gates 3 to 6 are to come. -/
  | claimed
  /-- Admitted; the decisions are to be read. -/
  | admitted
  /-- The decisions are validated; their transaction is to come. -/
  | granting (resolved : Mapping Resolution)
  /-- The script is spawned or about to be; `granted` is what the `finally` takes back. -/
  | driving (granted : Mapping StepState)

/-- A resume that holds its run's claim. `found` are the steps that were authorised when it
claimed the run, and `touched` the steps a begin or a settle wrote since. -/
structure Drive where
  runId : String
  decisions : Mapping String
  phase : DrivePhase
  found : List String
  touched : List String

/-- Gate 5: a consent another resume left behind needs a fresh decision.
SOURCE: services/script_runner.py:1379-1391 -/
def checkConsent (j : Journal) (runId : String) (decisions : Mapping String) :
    Except String Unit :=
  match (getSteps j runId).find? fun r =>
      r.state.authorised && (decisions.find r.stepId).isNone with
  | none => .ok ()
  | some r =>
    .error ("run '" ++ runId ++ "' step '" ++ r.stepId ++ "' has unconsumed recovery consent; " ++
      "supply a fresh decision for this step to resume")

/-- What the `finally` of a resume in this phase takes back. -/
def DrivePhase.granted : DrivePhase → Mapping StepState
  | .driving granted => granted
  | _ => Table.empty

def phasePatch (p : DrivePhase) : Patch Drive.runId :=
  ⟨fun d => { d with phase := p }, fun _ => rfl⟩

def touchPatch (step : String) : Patch Drive.runId :=
  ⟨fun d => { d with touched := d.touched ++ [step] }, fun _ => rfl⟩

/-! ## The machine -/

/-- The journal, the calls in the order they arrived, and the resumes under way. `origin` names
the call whose settle wrote a row's result. `strays` are the `apply_decisions` that still run in
their worker thread after their resume was cancelled. -/
structure Service where
  journal : Journal := Table.empty
  calls : List Call := []
  origin : StepKey → Option Nat := fun _ => none
  drives : Table Drive.runId := Table.empty
  strays : List (String × Mapping String) := []

/-- The call whose settle wrote the result of a row. -/
def Service.source (s : Service) (k : StepKey) : Option Call :=
  (s.origin k).bind fun i => s.calls[i]?

inductive Event
  /-- A run-step call arrives; `readFails` says the gate's journal read raises. -/
  | arrive (runId stepId fingerprint : String) (policy : Option RecoveryPolicy)
      (readFails : Bool)
  /-- The terminal of a call is ready; `written` says the begin reached the journal. -/
  | ready (call : Nat) (now : String) (written : Bool)
  /-- A call is over; `written` says its settle reached the journal. -/
  | settle (call : Nat) (outcome : Outcome) (outputJson : Option String) (now : String)
      (written : Bool)
  /-- A resume asks for the claim of its run (gates 0 to 2). -/
  | resume (runId : String) (decisions : Mapping String)
  /-- Gate 5 of the resume that holds the claim, the gates around it having passed. -/
  | consent (runId : String)
  /-- The worker thread reads the rows and validates the map. -/
  | readDecisions (runId : String)
  /-- The worker thread's transaction commits and the resume goes on. -/
  | writeDecisions (runId : String)
  /-- The resume is cancelled while its worker thread is inside `apply_decisions`. -/
  | cancelGrant (runId : String)
  /-- The worker thread of a cancelled resume commits. -/
  | strayLands (index : Nat)
  /-- The resume returns or raises, at any point; `revoked` says its revoke went through. -/
  | finish (runId : String) (revoked : Bool)
  /-- The server process ends and starts again. -/
  | crash

/-- The call may still settle with this outcome. -/
def Call.accepts (c : Call) (o : Outcome) : Bool := c.live && (c.dispatched || !o.isSuccess)

def Service.arrive (cfg : Settings) (s : Service) (runId stepId fingerprint : String)
    (policy : Option RecoveryPolicy) (readFails : Bool) : Service :=
  let held (dispatched : Bool) : Service :=
    { s with calls := s.calls ++ [⟨runId, stepId, fingerprint, dispatched, false, true, none⟩] }
  match StepReplay.decide cfg.reader s.journal runId stepId fingerprint policy with
  | .error _ => s
  | .ok d =>
    if readFails then held false
    else
      match d.route with
      | .answer _ => s
      | .conflict => s
      | .run => held true
      | .fail => held false

/-- SOURCE: services/script_runner.py:441-466 -/
def Service.ready (s : Service) (call : Nat) (now : String) (written : Bool) : Service :=
  match s.calls[call]? with
  | none => s
  | some c =>
    if c.dispatched && c.live && !c.begun then
      let s := { s with calls := s.calls.set call { c with begun := true } }
      if written then
        { s with
          journal := beginStep s.journal c.runId c.stepId now c.fingerprint
          drives := s.drives.updateKey c.runId (fun _ => true) (touchPatch c.stepId) }
      else s
    else s

/-- SOURCE: services/script_runner.py:798-887 -/
def Service.settle (cfg : Settings) (s : Service) (call : Nat) (outcome : Outcome)
    (outputJson : Option String) (now : String) (written : Bool) : Service :=
  match s.calls[call]? with
  | none => s
  | some c =>
    if c.accepts outcome then
      if written then
        let columns := outcome.columns cfg.patterns outputJson
        { s with
          calls := s.calls.set call { c with live := false, outcome := some outcome }
          journal := (settleStep s.journal c.runId c.stepId now columns).2
          origin := fun k => if k = c.key then some call else s.origin k
          drives := s.drives.updateKey c.runId (fun _ => true) (touchPatch c.stepId) }
      else { s with calls := s.calls.set call { c with live := false } }
    else s

/-- Gates 0 to 2: a run that is being driven is refused, and the claim is taken at once.
SOURCE: services/script_runner.py:1332-1357 -/
def Service.resume (s : Service) (runId : String) (decisions : Mapping String) : Service :=
  let found := ((getSteps s.journal runId).filter fun r => r.state.authorised).map StepRow.stepId
  { s with drives := s.drives.insert ⟨runId, decisions, .claimed, found, []⟩ }

/-- The claim is released and what was granted is taken back.
SOURCE: services/script_runner.py:1483-1525 -/
def Service.finish (s : Service) (runId : String) (revoked : Bool) : Service :=
  match s.drives.get runId with
  | none => s
  | some d =>
    let s := { s with drives := s.drives.deleteKey runId }
    if revoked then
      { s with journal := (revokeUnconsumedDecisions s.journal runId d.phase.granted).2 }
    else s

/-- Gate 5; a refusal goes straight to the `finally`. -/
def Service.consent (s : Service) (runId : String) : Service :=
  match s.drives.get runId with
  | some ⟨_, decisions, .claimed, _, _⟩ =>
    match checkConsent s.journal runId decisions with
    | .error _ => s.finish runId true
    | .ok _ =>
      { s with drives := s.drives.updateKey runId (fun _ => true) (phasePatch .admitted) }
  | _ => s

/-- The read and the validation of `apply_decisions`; an empty map reads and writes nothing.
SOURCE: services/script_runner.py:1425-1426 -/
def Service.readDecisions (s : Service) (runId : String) : Service :=
  let next (p : DrivePhase) : Service :=
    { s with drives := s.drives.updateKey runId (fun _ => true) (phasePatch p) }
  match s.drives.get runId with
  | some ⟨_, decisions, .admitted, _, _⟩ =>
    if decisions.rows.isEmpty then next (.driving Table.empty)
    else
      match resolveDecisions s.journal runId decisions with
      | .error _ => s.finish runId true
      | .ok resolved => next (.granting resolved)
  | _ => s

def Service.writeDecisions (s : Service) (runId : String) : Service :=
  match s.drives.get runId with
  | some ⟨_, _, .granting resolved, _, _⟩ =>
    { s with
      journal := Workflow.writeDecisions s.journal runId resolved
      drives :=
        s.drives.updateKey runId (fun _ => true) (phasePatch (.driving (grantedStates resolved))) }
  | _ => s

/-- The `finally` of the cancelled resume runs with nothing granted; the thread goes on. -/
def Service.cancelGrant (s : Service) (runId : String) : Service :=
  let stray (decisions : Mapping String) : Service :=
    { s with
      drives := s.drives.deleteKey runId
      strays := s.strays ++ [(runId, decisions)] }
  match s.drives.get runId with
  | some ⟨_, decisions, .admitted, _, _⟩ => if decisions.rows.isEmpty then s else stray decisions
  | some ⟨_, decisions, .granting _, _, _⟩ => stray decisions
  | _ => s

def Service.strayLands (s : Service) (index : Nat) : Service :=
  match s.strays[index]? with
  | none => s
  | some (runId, decisions) =>
    let s := { s with strays := s.strays.eraseIdx index }
    match resolveDecisions s.journal runId decisions with
    | .error _ => s
    | .ok resolved => { s with journal := Workflow.writeDecisions s.journal runId resolved }

/-- The journal is all that survives. -/
def Service.crash (s : Service) : Service :=
  { s with
    calls := s.calls.map fun c => { c with live := false }
    drives := Table.empty
    strays := [] }

/-- One step. -/
def Service.exec (cfg : Settings) (s : Service) : Event → Service
  | .arrive runId stepId fingerprint policy readFails =>
    s.arrive cfg runId stepId fingerprint policy readFails
  | .ready call now written => s.ready call now written
  | .settle call outcome outputJson now written =>
    s.settle cfg call outcome outputJson now written
  | .resume runId decisions => s.resume runId decisions
  | .consent runId => s.consent runId
  | .readDecisions runId => s.readDecisions runId
  | .writeDecisions runId => s.writeDecisions runId
  | .cancelGrant runId => s.cancelGrant runId
  | .strayLands index => s.strayLands index
  | .finish runId revoked => s.finish runId revoked
  | .crash => s.crash

/-! ## A server without secrets -/

/-- No pattern to redact, and a reader that takes every field in its own type only. -/
def plainSettings : Settings := ⟨[], ofJson readsJson_strictReader⟩

/-- One decision. -/
def decided (step decision : String) : Mapping String := ⟨[(step, decision)], by simp⟩

/-- A success without structured output. -/
def returns (text : String) : Outcome := .succeeded text "completed" "terminal" none

/-- A resume of run "r" up to its spawn. -/
def resumeWith (step decision : String) : List Event :=
  [.resume "r" (decided step decision), .consent "r", .readDecisions "r", .writeDecisions "r"]

/-! ## What a step writes -/

/-- The five writes of the journal. -/
inductive RowWrite
  | begin (c : Call) (now : String)
  | settle (call : Nat) (c : Call) (outcome : Outcome) (outputJson : Option String) (now : String)
  | grant (runId : String) (resolved : Mapping Resolution)
  | revoke (runId : String) (granted : Mapping StepState)

def RowWrite.apply (cfg : Settings) (j : Journal) : RowWrite → Journal
  | .begin c now => beginStep j c.runId c.stepId now c.fingerprint
  | .settle _ c outcome outputJson now =>
    (settleStep j c.runId c.stepId now (outcome.columns cfg.patterns outputJson)).2
  | .grant runId resolved => Workflow.writeDecisions j runId resolved
  | .revoke runId granted => (revokeUnconsumedDecisions j runId granted).2

/-- The write a step makes, if it makes one. -/
def Service.write (s : Service) : Event → Option RowWrite
  | .ready call now true =>
    (s.calls[call]?).bind fun c =>
      if c.dispatched && c.live && !c.begun then some (.begin c now) else none
  | .settle call outcome outputJson now true =>
    (s.calls[call]?).bind fun c =>
      if c.accepts outcome then some (.settle call c outcome outputJson now) else none
  | .writeDecisions runId =>
    match s.drives.get runId with
    | some ⟨_, _, .granting resolved, _, _⟩ => some (.grant runId resolved)
    | _ => none
  | .strayLands index =>
    (s.strays[index]?).bind fun stray =>
      match resolveDecisions s.journal stray.1 stray.2 with
      | .error _ => none
      | .ok resolved => some (.grant stray.1 resolved)
  | .finish runId true => (s.drives.get runId).map fun d => .revoke runId d.phase.granted
  | _ => none

/-- How one call's record moves: a call that is over stays as it is. -/
inductive CallStep (written : Option RowWrite) (i : Nat) (c : Call) : Call → Prop
  | kept : CallStep written i c c
  | begun : c.live = true → CallStep written i c { c with begun := true }
  | ended : c.live = true → CallStep written i c { c with live := false }
  | settled (o : Outcome) (outputJson : Option String) (now : String) :
      c.accepts o = true → written = some (.settle i c o outputJson now) →
      CallStep written i c { c with live := false, outcome := some o }

/-- The call a write settles. -/
def RowWrite.settles : RowWrite → Option (Nat × Call × Outcome)
  | .settle call c outcome _ _ => some (call, c, outcome)
  | _ => none

/-- What a step that makes the write `w` does to the rows, their origins and the calls. -/
structure Wrote (cfg : Settings) (s s' : Service) (w : Option RowWrite) : Prop where
  journal : s'.journal = (w.map (RowWrite.apply cfg s.journal)).getD s.journal
  origin : s'.origin =
    match w.bind RowWrite.settles with
    | some (call, c, _) => fun k => if k = c.key then some call else s.origin k
    | none => s.origin
  held : ∀ (i : Nat) (c : Call), s.calls[i]? = some c → ∃ c', s'.calls[i]? = some c' ∧ CallStep w i c c'
  fresh : ∀ (i : Nat) (c' : Call), s.calls[i]? = none → s'.calls[i]? = some c' →
    c'.outcome = none
  settled : ∀ (i : Nat) (c : Call) (o : Outcome), w.bind RowWrite.settles = some (i, c, o) →
    s.calls[i]? = some c ∧ c.accepts o = true ∧
      s'.calls[i]? = some { c with live := false, outcome := some o }

section

variable {cfg : Settings} {s s' : Service}

/-- A step that leaves the calls alone and settles none. -/
theorem Wrote.of_calls_eq {w : Option RowWrite} (hsettles : w.bind RowWrite.settles = none)
    (hjournal : s'.journal = (w.map (RowWrite.apply cfg s.journal)).getD s.journal)
    (horigin : s'.origin = s.origin) (hcalls : s'.calls = s.calls) : Wrote cfg s s' w where
  journal := hjournal
  origin := by rw [hsettles, horigin]
  held := fun i c hc => ⟨c, by rw [hcalls, hc], .kept⟩
  fresh := by
    intro i c' hnone hsome
    rw [hcalls, hnone] at hsome
    cases hsome
  settled := by
    intro i c o h
    rw [hsettles] at h
    cases h

/-- A step that changes one record and settles none. -/
theorem Wrote.of_set {w : Option RowWrite} {call : Nat} {c c' : Call}
    (hcall : s.calls[call]? = some c) (hstep : CallStep w call c c')
    (hsettles : w.bind RowWrite.settles = none)
    (hjournal : s'.journal = (w.map (RowWrite.apply cfg s.journal)).getD s.journal)
    (horigin : s'.origin = s.origin) (hcalls : s'.calls = s.calls.set call c') :
    Wrote cfg s s' w where
  journal := hjournal
  origin := by rw [hsettles, horigin]
  held := by
    intro i x hx
    rw [hcalls, List.getElem?_set]
    by_cases hi : call = i
    · subst hi
      rw [hcall] at hx
      cases hx
      have hlt := (List.getElem?_eq_some_iff.mp hcall).1
      exact ⟨c', by simp [hlt], hstep⟩
    · exact ⟨x, by simp [hi, hx], .kept⟩
  fresh := by
    intro i x hnone hsome
    rw [hcalls, List.getElem?_set] at hsome
    split at hsome
    · next hi =>
      subst hi
      rw [hcall] at hnone
      cases hnone
    · rw [hnone] at hsome
      cases hsome
  settled := by
    intro i x o h
    rw [hsettles] at h
    cases h

theorem Wrote.of_push {c : Call} (hout : c.outcome = none) (hjournal : s'.journal = s.journal)
    (horigin : s'.origin = s.origin) (hcalls : s'.calls = s.calls ++ [c]) :
    Wrote cfg s s' none where
  journal := hjournal
  origin := horigin
  held := by
    intro i x hx
    have hlt := (List.getElem?_eq_some_iff.mp hx).1
    exact ⟨x, by rw [hcalls, List.getElem?_append_left hlt, hx], .kept⟩
  fresh := by
    intro i x hnone hsome
    rw [hcalls, List.getElem?_append_right (List.getElem?_eq_none_iff.mp hnone)] at hsome
    obtain rfl : x = c := by
      cases hi : i - s.calls.length with
      | zero =>
        rw [hi] at hsome
        exact (Option.some.inj hsome).symm
      | succ n =>
        rw [hi] at hsome
        cases hsome
    exact hout
  settled := by
    intro i x o h
    cases h

end

/-- A call that begins writes its RUNNING row. -/
theorem Service.ready_wrote (cfg : Settings) (s : Service) (call : Nat) (now : String)
    (written : Bool) :
    Wrote cfg s (s.exec cfg (.ready call now written)) (s.write (.ready call now written)) := by
  simp only [exec, Service.ready]
  cases hcall : s.calls[call]? with
  | none =>
    have hwrite : s.write (.ready call now written) = none := by
      cases written <;> simp [write, hcall]
    rw [hwrite]
    exact .of_calls_eq rfl rfl rfl rfl
  | some c =>
    dsimp only
    split
    · next hguard =>
      have hlive : c.live = true := by
        simp only [Bool.and_eq_true] at hguard
        exact hguard.1.2
      cases written
      · exact .of_set hcall (.begun hlive) rfl rfl rfl rfl
      · simp only [write, hcall, Option.bind_some, hguard, if_true]
        exact .of_set hcall (.begun hlive) rfl rfl rfl rfl
    · next hguard =>
      have hwrite : s.write (.ready call now written) = none := by
        cases written
        · rfl
        · simp only [write, hcall, Option.bind_some, hguard]
          rfl
      rw [hwrite]
      exact .of_calls_eq rfl rfl rfl rfl

/-- A call that settles writes its outcome, if it is accepted. -/
theorem Service.settle_wrote (cfg : Settings) (s : Service) (call : Nat) (outcome : Outcome)
    (outputJson : Option String) (now : String) (written : Bool) :
    Wrote cfg s (s.exec cfg (.settle call outcome outputJson now written))
      (s.write (.settle call outcome outputJson now written)) := by
  simp only [exec, Service.settle]
  cases hcall : s.calls[call]? with
  | none =>
    have hwrite : s.write (.settle call outcome outputJson now written) = none := by
      cases written <;> simp [write, hcall]
    rw [hwrite]
    exact .of_calls_eq rfl rfl rfl rfl
  | some c =>
    dsimp only
    split
    · next hguard =>
      have hlive : c.live = true := by
        rw [Call.accepts, Bool.and_eq_true] at hguard
        exact hguard.1
      have hlt := (List.getElem?_eq_some_iff.mp hcall).1
      cases written
      · exact .of_set hcall (.ended hlive) rfl rfl rfl rfl
      · simp only [write, hcall, Option.bind_some, hguard, if_true]
        refine ⟨rfl, rfl, ?_, ?_, ?_⟩
        · intro i x hx
          rw [List.getElem?_set]
          by_cases hi : call = i
          · subst hi
            rw [hcall] at hx
            cases hx
            exact ⟨_, by simp [hlt], .settled outcome outputJson now hguard rfl⟩
          · exact ⟨x, by simp [hi, hx], .kept⟩
        · intro i x hnone hsome
          rw [List.getElem?_set] at hsome
          split at hsome
          · next hi =>
            subst hi
            rw [hcall] at hnone
            cases hnone
          · rw [hnone] at hsome
            cases hsome
        · rintro i x o h
          cases h
          exact ⟨hcall, hguard, by simp [hlt]⟩
    · next hguard =>
      have hwrite : s.write (.settle call outcome outputJson now written) = none := by
        cases written <;> simp [write, hcall, hguard]
      rw [hwrite]
      exact .of_calls_eq rfl rfl rfl rfl

/-- A crash ends every call. -/
theorem Service.crash_wrote (cfg : Settings) (s : Service) :
    Wrote cfg s (s.exec cfg .crash) (s.write .crash) := by
  refine ⟨rfl, rfl, ?_, ?_, ?_⟩
  · intro i c hc
    have hmapped : (s.crash).calls[i]? = some { c with live := false } := by
      simp [Service.crash, hc]
    by_cases hlive : c.live = true
    · exact ⟨_, hmapped, .ended hlive⟩
    · have hsame : { c with live := false } = c := by
        rw [Bool.not_eq_true] at hlive
        rw [← hlive]
      rw [hsame] at hmapped
      exact ⟨c, hmapped, .kept⟩
  · intro i c' hnone hsome
    simp [exec, Service.crash, hnone] at hsome
  · intro i c o h
    cases h

/-- What a step does, in terms of the write it makes. -/
theorem Service.exec_wrote (cfg : Settings) (s : Service) (e : Event) :
    Wrote cfg s (s.exec cfg e) (s.write e) := by
  cases e with
  | arrive runId stepId fingerprint policy readFails =>
    simp only [exec, Service.arrive, write]
    split
    · exact .of_calls_eq rfl rfl rfl rfl
    · split
      · exact .of_push rfl rfl rfl rfl
      · split
        · exact .of_calls_eq rfl rfl rfl rfl
        · exact .of_calls_eq rfl rfl rfl rfl
        · exact .of_push rfl rfl rfl rfl
        · exact .of_push rfl rfl rfl rfl
  | ready call now written => exact ready_wrote cfg s call now written
  | settle call outcome outputJson now written =>
    exact settle_wrote cfg s call outcome outputJson now written
  | resume runId decisions => exact .of_calls_eq rfl rfl rfl rfl
  | consent runId =>
    simp only [exec, Service.consent, write]
    split
    · next hdrive =>
      split
      · simp only [finish, hdrive]
        exact .of_calls_eq rfl rfl rfl rfl
      · exact .of_calls_eq rfl rfl rfl rfl
    · exact .of_calls_eq rfl rfl rfl rfl
  | readDecisions runId =>
    simp only [exec, Service.readDecisions, write]
    split
    · next hdrive =>
      split
      · exact .of_calls_eq rfl rfl rfl rfl
      · split
        · simp only [finish, hdrive]
          exact .of_calls_eq rfl rfl rfl rfl
        · exact .of_calls_eq rfl rfl rfl rfl
    · exact .of_calls_eq rfl rfl rfl rfl
  | writeDecisions runId =>
    simp only [exec, Service.writeDecisions, write]
    split <;> exact .of_calls_eq rfl rfl rfl rfl
  | cancelGrant runId =>
    simp only [exec, Service.cancelGrant, write]
    split
    · split <;> exact .of_calls_eq rfl rfl rfl rfl
    · exact .of_calls_eq rfl rfl rfl rfl
    · exact .of_calls_eq rfl rfl rfl rfl
  | strayLands index =>
    simp only [exec, Service.strayLands, write]
    cases s.strays[index]? with
    | none => exact .of_calls_eq rfl rfl rfl rfl
    | some stray =>
      dsimp only [Option.bind_some]
      split <;> exact .of_calls_eq rfl rfl rfl rfl
  | finish runId revoked =>
    simp only [exec, Service.finish]
    cases hdrive : s.drives.get runId with
    | none =>
      have hwrite : s.write (.finish runId revoked) = none := by
        cases revoked <;> simp [write, hdrive]
      rw [hwrite]
      exact .of_calls_eq rfl rfl rfl rfl
    | some d =>
      cases revoked
      · exact .of_calls_eq rfl rfl rfl rfl
      · simp only [write, hdrive]
        exact .of_calls_eq rfl rfl rfl rfl
  | crash => exact crash_wrote cfg s

end CliAgentOrchestrator.Workflow
