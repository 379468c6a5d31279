import CliAgentOrchestrator.Gate.Operation
import CliAgentOrchestrator.Library.Version

/-!
# The gate round service

`app/gate/service.py`: a command is a few store calls with pure checks between them. Every store
call is one transaction, and any number of calls are in progress at a time. `advance` is the code
of a call from one store call to the next; a call keeps its arguments and what it has read so far.
-/

set_option autoImplicit false

namespace CliAgentOrchestrator.Gate

open CliAgentOrchestrator.Core Library

/-- A command with its arguments. -/
inductive Command
  | openRun (draft : RunDraft)
  | openRound (draft : RoundDraft)
  | freezeReviewSnapshot (roundId : String) (snapshot : ArtifactManifest)
  | beginAdjudication (roundId : String)
  | settleAdjudication (roundId : String) (verdictYes : Bool) (report : RoundReport)
  | abandonRun (runId : String)
  | closeRun (runId : String) (verdictYes : Bool)

/-- How far a call is, with the locals it needs later. -/
inductive Progress
  | started
  /-- After `get_run`. -/
  | runRead (run : GateRun)
  /-- `open_round` after `rounds_for_run`. -/
  | roundsCounted
  /-- After `_require_round`. -/
  | roundRead (round : GateRound)
  /-- `settle_adjudication` after `set_round_report`. -/
  | reportSet (stamped : GateRound)
  | returned
  | raised (error : GateError)

/-- `get_run`, with the check for None that every caller makes.
SOURCE: adapters/store/gate.py:1079-1089, app/gate/service.py:118-120 -/
def requireRun (s : GateStore) (runId : String) : Except GateError GateRun :=
  match s.gateRun.get runId with
  | none => .error .noSuchRun
  | some row => rowToRun row

/-- SOURCE: app/gate/service.py:330-334 -/
def requireRound (s : GateStore) (roundId : String) : Except GateError GateRound :=
  match s.gateRound.get roundId with
  | none => .error .noSuchRound
  | some round => .ok round

/-- The rounds of a run that were not abandoned. -/
def liveRounds (s : GateStore) (runId : String) : List GateRound :=
  (roundsForRun s runId).filter fun r => r.state != .abandoned

def roundTarget (verdictYes : Bool) : RoundState := if verdictYes then .yes else .no

def runTarget (verdictYes : Bool) : RunState := if verdictYes then .closedYes else .closedNo

/-- Read a run and check that it may be moved.
SOURCE: app/gate/service.py:227-233, 236-242 -/
def readRun (s : GateStore) (runId : String) (target : RunState) :
    Except GateError (Progress × GateStore) := do
  let run ← requireRun s runId
  let _ ← nextRunState run.state target
  return (.runRead run, s)

/-- Read a round and check that it may be moved. -/
def readRound (s : GateStore) (roundId : String) (target : RoundState) :
    Except GateError (Progress × GateStore) := do
  let round ← requireRound s roundId
  let _ ← nextRoundState round.state target
  return (.roundRead round, s)

/-- A call from one store call to the next; a call that ended does nothing.
SOURCE: app/gate/service.py:72-197, 225-242 -/
def advance (s : GateStore) (newUlid : String) (now : Int) :
    Command → Progress → Except GateError (Progress × GateStore)
  | .openRun draft, .started => do
    let _ ← validateMaxRounds draft.maxRounds
    let (_, s') ← openRun s draft newUlid
    return (.returned, s')
  | .openRound draft, .started => do
    let run ← requireRun s draft.runId
    if run.state ≠ .open then .error .runNotOpen else return (.runRead run, s)
  | .openRound draft, .runRead run =>
    if run.maxRounds ≤ (liveRounds s draft.runId).length then .error .exhausted
    else return (.roundsCounted, s)
  | .openRound draft, .roundsCounted => do
    let (_, s') ← openRound s draft newUlid now
    return (.returned, s')
  | .freezeReviewSnapshot roundId _, .started => do
    let round ← requireRound s roundId
    if round.reviewSnapshot.isSome then .error .snapshotFrozen
    else do
      let _ ← nextRoundState round.state .built
      return (.roundRead round, s)
  | .freezeReviewSnapshot roundId snapshot, .roundRead round => do
    let (_, s') ← freezeReviewSnapshot s roundId snapshot round.rowVersion
    return (.returned, s')
  | .beginAdjudication roundId, .started => readRound s roundId .adjudicating
  | .beginAdjudication roundId, .roundRead round => do
    let (_, s') ← transitionRound s roundId .adjudicating round.rowVersion now
    return (.returned, s')
  | .settleAdjudication roundId verdictYes _, .started =>
    readRound s roundId (roundTarget verdictYes)
  | .settleAdjudication roundId _ report, .roundRead round => do
    let (stamped, s') ← setRoundReport s roundId report round.rowVersion
    return (.reportSet stamped, s')
  | .settleAdjudication roundId verdictYes _, .reportSet stamped => do
    let (_, s') ← transitionRound s roundId (roundTarget verdictYes) stamped.rowVersion now
    return (.returned, s')
  | .abandonRun runId, .started => readRun s runId .abandoned
  | .abandonRun runId, .runRead run => do
    let (_, s') ← transitionRun s runId .abandoned run.rowVersion
    return (.returned, s')
  | .closeRun runId verdictYes, .started => readRun s runId (runTarget verdictYes)
  | .closeRun runId verdictYes, .runRead run => do
    let (_, s') ← transitionRun s runId (runTarget verdictYes) run.rowVersion
    return (.returned, s')
  | _, progress => return (progress, s)

/-! ## Calls in progress -/

/-- A call and how far it is. -/
structure Call where
  command : Command
  progress : Progress

/-- The store and every call that was ever made. -/
structure Service where
  store : GateStore
  calls : List Call

def Service.init : Service := ⟨.empty, []⟩

/-- How far the `n`-th call is. -/
def CallAt (v : Service) (n : Nat) (command : Command) (progress : Progress) : Prop :=
  v.calls[n]? = some { command := command, progress := progress }

/-- What happens next: a command is called, or a call makes its next store call. -/
inductive Event
  | call (command : Command)
  | resume (n : Nat) (newUlid : String) (now : Int)

/-- One store call of the `n`-th call. -/
def resume (v : Service) (n : Nat) (newUlid : String) (now : Int) : Service :=
  match v.calls[n]? with
  | none => v
  | some call =>
    match advance v.store newUlid now call.command call.progress with
    | .ok (progress, store) =>
      { store := store, calls := v.calls.set n { call with progress := progress } }
    | .error e =>
      { v with calls := v.calls.set n { call with progress := .raised e } }

def Service.exec (v : Service) : Event → Service
  | .call command => { v with calls := v.calls ++ [{ command := command, progress := .started }] }
  | .resume n newUlid now => resume v n newUlid now

/-! ## What a call can do -/

/-- The round a command moves, and where to. -/
def Command.roundMove : Command → Option (String × RoundState)
  | .freezeReviewSnapshot roundId _ => some (roundId, .built)
  | .beginAdjudication roundId => some (roundId, .adjudicating)
  | .settleAdjudication roundId verdictYes _ => some (roundId, roundTarget verdictYes)
  | _ => none

/-- The run a command moves, and where to. -/
def Command.runMove : Command → Option (String × RunState)
  | .abandonRun runId => some (runId, .abandoned)
  | .closeRun runId verdictYes => some (runId, runTarget verdictYes)
  | _ => none

/-- The store after a conditional write of a round. -/
def written (s : GateStore) (roundId : String) (v : Int) (f : Patch GateRound.roundId) :
    GateStore :=
  { s with gateRound := s.gateRound.updateKey roundId (fun r => r.rowVersion == v) f }

/-- The store after a conditional write of a run. -/
def movedRun (s : GateStore) (runId : String) (v : Int) (target : RunState) : GateStore :=
  { s with
    gateRun := s.gateRun.updateKey runId (fun r => r.rowVersion == v) (runStatePatch target) }

/-- What one store call of a call that goes on does. -/
inductive Advance (s : GateStore) (newUlid : String) : Command → Progress → Progress → GateStore → Prop
  | openedRun (draft : RunDraft) (run : GateRun) (hfree : s.gateRun.get run.runId = none)
      (hbound : 0 < run.maxRounds) :
      Advance s newUlid (.openRun draft) .started .returned { s with gateRun := s.gateRun.insert run }
  | runOpen (draft : RoundDraft) (run : GateRun) (hget : s.gateRun.get draft.runId = some run)
      (hopen : run.state = .open) : Advance s newUlid (.openRound draft) .started (.runRead run) s
  | counted (draft : RoundDraft) (run : GateRun)
      (hcount : (liveRounds s draft.runId).length < run.maxRounds) :
      Advance s newUlid (.openRound draft) (.runRead run) .roundsCounted s
  | openedRound (draft : RoundDraft) (now : Int)
      (hfree : s.gateRound.get newUlid = none) :
      Advance s newUlid (.openRound draft) .roundsCounted .returned
        { s with gateRound := s.gateRound.insert (roundRow s draft newUlid now) }
  | roundRead (command : Command) (roundId : String) (target : RoundState) (round : GateRound)
      (hmove : command.roundMove = some (roundId, target))
      (hget : s.gateRound.get roundId = some round)
      (hnext : nextRoundState round.state target = .ok target) :
      Advance s newUlid command .started (.roundRead round) s
  | froze (roundId : String) (snapshot : ArtifactManifest) (read row : GateRound)
      (hget : s.gateRound.get roundId = some row) (hversion : row.rowVersion = read.rowVersion)
      (hnone : row.reviewSnapshot = none) (hopen : row.state = .open) :
      Advance s newUlid (.freezeReviewSnapshot roundId snapshot) (.roundRead read) .returned
        (written s roundId read.rowVersion (freezePatch snapshot))
  | began (roundId : String) (read row : GateRound)
      (hget : s.gateRound.get roundId = some row) (hversion : row.rowVersion = read.rowVersion)
      (hbuilt : row.state = .built) :
      Advance s newUlid (.beginAdjudication roundId) (.roundRead read) .returned
        (written s roundId read.rowVersion (roundStatePatch .adjudicating none))
  | stamped (roundId : String) (verdictYes : Bool) (report : RoundReport) (read row : GateRound)
      (hget : s.gateRound.get roundId = some row) (hversion : row.rowVersion = read.rowVersion) :
      Advance s newUlid (.settleAdjudication roundId verdictYes report) (.roundRead read)
        (.reportSet ((reportPatch report).apply row))
        (written s roundId read.rowVersion (reportPatch report))
  | settled (roundId : String) (verdictYes : Bool) (report : RoundReport) (stamped row : GateRound)
      (now : Int) (hget : s.gateRound.get roundId = some row)
      (hversion : row.rowVersion = stamped.rowVersion) (hadjudicating : row.state = .adjudicating) :
      Advance s newUlid (.settleAdjudication roundId verdictYes report) (.reportSet stamped) .returned
        (written s roundId stamped.rowVersion
          (roundStatePatch (roundTarget verdictYes) (some now)))
  | runRead (command : Command) (runId : String) (target : RunState) (run : GateRun)
      (hmove : command.runMove = some (runId, target)) (hget : s.gateRun.get runId = some run) :
      Advance s newUlid command .started (.runRead run) s
  | runMoved (command : Command) (runId : String) (target : RunState) (read row : GateRun)
      (hmove : command.runMove = some (runId, target)) (hget : s.gateRun.get runId = some row)
      (hversion : row.rowVersion = read.rowVersion)
      (hnext : nextRunState row.state target = .ok target) :
      Advance s newUlid command (.runRead read) .returned (movedRun s runId read.rowVersion target)

variable {s s' : GateStore} {newUlid : String} {now : Int} {progress progress' : Progress}

theorem rowToRun_eq_ok {row run : GateRun} (h : rowToRun row = .ok run) : run = row := by
  unfold rowToRun at h
  split at h
  · cases h
  · exact (Except.ok.inj h).symm

theorem requireRun_eq_ok {runId : String} {run : GateRun} (h : requireRun s runId = .ok run) :
    s.gateRun.get runId = some run := by
  unfold requireRun at h
  split at h
  · cases h
  · next row hget =>
    rw [rowToRun_eq_ok h]
    exact hget

theorem requireRound_eq_ok {roundId : String} {round : GateRound}
    (h : requireRound s roundId = .ok round) : s.gateRound.get roundId = some round := by
  unfold requireRound at h
  split at h
  · cases h
  · next row hget =>
    rw [← Except.ok.inj h]
    exact hget

/-- A conditional write that goes through found the row at the expected version. -/
theorem updateRound_eq_ok {roundId : String} {v : Int} {f : Patch GateRound.roundId}
    {round : GateRound} (h : updateRound s roundId v f = .ok (round, s')) :
    ∃ row, s.gateRound.get roundId = some row ∧ row.rowVersion = v ∧ round = f.apply row ∧
      s' = written s roundId v f := by
  unfold updateRound at h
  simp only at h
  split at h
  · next hfound =>
    cases hget : s.gateRound.get roundId with
    | none =>
      rw [hget] at hfound
      cases hfound
    | some row =>
      rw [hget] at hfound
      have hversion : row.rowVersion = v := eq_of_beq hfound
      split at h
      · next after hafter =>
        cases h
        rw [Table.get_updateKey, hget, Option.map_some, if_pos ⟨rfl, beq_iff_eq.mpr hversion⟩]
          at hafter
        exact ⟨row, rfl, hversion, (Option.some.inj hafter).symm, rfl⟩
      · cases h
  · cases h

theorem transitionRound_eq_ok {roundId : String} {target : RoundState} {v : Int}
    {round : GateRound} (h : transitionRound s roundId target v now = .ok (round, s')) :
    ∃ row, s.gateRound.get roundId = some row ∧ row.rowVersion = v ∧
      nextRoundState row.state target = .ok target ∧
      s' = written s roundId v (roundStatePatch target
        (if [RoundState.yes, .no, .abandoned].contains target then some now else none)) := by
  unfold transitionRound at h
  simp only at h
  split at h
  · cases h
  next row hget =>
  obtain ⟨next, hnext, h⟩ := bind_eq_ok h
  obtain rfl := nextRoundState_eq_ok hnext
  obtain ⟨row', hget', hversion, -, hs'⟩ := updateRound_eq_ok h
  rw [hget] at hget'
  cases hget'
  exact ⟨row, hget, hversion, hnext, hs'⟩

theorem transitionRun_eq_ok {runId : String} {target : RunState} {v : Int} {u : Unit}
    (h : transitionRun s runId target v = .ok (u, s')) :
    ∃ row, s.gateRun.get runId = some row ∧ row.rowVersion = v ∧
      nextRunState row.state target = .ok target ∧ s' = movedRun s runId v target := by
  unfold transitionRun at h
  split at h
  · cases h
  next row hget =>
  obtain ⟨current, hcurrent, h⟩ := bind_eq_ok h
  rw [rowToRun_eq_ok hcurrent] at h
  obtain ⟨next, hnext, h⟩ := bind_eq_ok h
  rw [nextRunState_eq_ok hnext] at h hnext
  split at h
  · next hversion =>
    obtain rfl := congrArg Prod.snd (Except.ok.inj h)
    exact ⟨row, hget, hversion, hnext, rfl⟩
  · cases h

/-! ## Each call advances as listed -/

theorem advance_readRun {command : Command} {runId : String} {target : RunState}
    (hmove : command.runMove = some (runId, target))
    (h : readRun s runId target = .ok (progress', s')) :
    Advance s newUlid command .started progress' s' := by
  unfold readRun at h
  obtain ⟨run, hrun, h⟩ := bind_eq_ok h
  obtain ⟨next, -, h⟩ := bind_eq_ok h
  cases h
  exact .runRead command runId target run hmove (requireRun_eq_ok hrun)

theorem advance_readRound {command : Command} {roundId : String} {target : RoundState}
    (hmove : command.roundMove = some (roundId, target))
    (h : readRound s roundId target = .ok (progress', s')) :
    Advance s newUlid command .started progress' s' := by
  unfold readRound at h
  obtain ⟨round, hround, h⟩ := bind_eq_ok h
  obtain ⟨next, hnext, h⟩ := bind_eq_ok h
  rw [nextRoundState_eq_ok hnext] at hnext
  cases h
  exact .roundRead command roundId target round hmove (requireRound_eq_ok hround) hnext

theorem advance_transitionRun {command : Command} {runId : String} {target : RunState}
    {read : GateRun} (hmove : command.runMove = some (runId, target))
    (h : (do
      let (_, s') ← transitionRun s runId target read.rowVersion
      return (Progress.returned, s')) = .ok (progress', s')) :
    Advance s newUlid command (.runRead read) progress' s' := by
  obtain ⟨⟨u, s''⟩, hrun, h⟩ := bind_eq_ok h
  cases h
  obtain ⟨row, hget, hversion, hnext, rfl⟩ := transitionRun_eq_ok hrun
  exact .runMoved command runId target read row hmove hget hversion hnext

theorem advance_openRun {draft : RunDraft}
    (h : advance s newUlid now (.openRun draft) .started = .ok (progress', s')) :
    Advance s newUlid (.openRun draft) .started progress' s' := by
  unfold advance at h
  obtain ⟨-, -, h⟩ := bind_eq_ok h
  obtain ⟨⟨run, s''⟩, hopen, h⟩ := bind_eq_ok h
  cases h
  unfold openRun at hopen
  obtain ⟨maxRounds, hmax, hopen⟩ := bind_eq_ok hopen
  obtain ⟨rows, hrows, hopen⟩ := bind_eq_ok hopen
  obtain ⟨hfree, rfl⟩ := insertRow_eq_ok hrows
  obtain rfl := congrArg Prod.snd (Except.ok.inj hopen)
  have hbound : 0 < maxRounds := by
    unfold validateMaxRounds at hmax
    split at hmax
    · cases hmax
    · next hpos =>
      rw [← Except.ok.inj hmax]
      exact Int.not_le.mp hpos
  exact .openedRun draft _ hfree hbound

theorem advance_openRound {draft : RoundDraft}
    (h : advance s newUlid now (.openRound draft) progress = .ok (progress', s')) :
    progress' = progress ∧ s' = s ∨
      Advance s newUlid (.openRound draft) progress progress' s' := by
  cases progress with
  | started =>
    unfold advance at h
    obtain ⟨run, hrun, h⟩ := bind_eq_ok h
    split at h
    · cases h
    · next hopen =>
      cases h
      exact .inr (.runOpen draft run (requireRun_eq_ok hrun) (not_not.mp hopen))
  | runRead run =>
    change (if run.maxRounds ≤ _ then _ else _) = _ at h
    split at h
    · cases h
    · next hcount =>
      cases h
      exact .inr (.counted draft run (Int.not_le.mp hcount))
  | roundsCounted =>
    unfold advance at h
    obtain ⟨⟨round, s''⟩, hopen, h⟩ := bind_eq_ok h
    cases h
    unfold openRound at hopen
    obtain ⟨rows, hrows, hopen⟩ := bind_eq_ok hopen
    obtain ⟨hfree, rfl⟩ := insertRow_eq_ok hrows
    obtain rfl := congrArg Prod.snd (Except.ok.inj hopen)
    exact .inr (.openedRound draft now hfree)
  | _ =>
    cases h
    exact .inl ⟨rfl, rfl⟩

theorem advance_freeze {roundId : String} {snapshot : ArtifactManifest}
    (h : advance s newUlid now (.freezeReviewSnapshot roundId snapshot) progress =
      .ok (progress', s')) :
    progress' = progress ∧ s' = s ∨
      Advance s newUlid (.freezeReviewSnapshot roundId snapshot) progress progress' s' := by
  cases progress with
  | started =>
    unfold advance at h
    obtain ⟨round, hround, h⟩ := bind_eq_ok h
    split at h
    · cases h
    · obtain ⟨next, hnext, h⟩ := bind_eq_ok h
      rw [nextRoundState_eq_ok hnext] at hnext
      cases h
      exact .inr (.roundRead _ roundId _ round rfl (requireRound_eq_ok hround) hnext)
  | roundRead read =>
    unfold advance at h
    obtain ⟨⟨round, s''⟩, hfreeze, h⟩ := bind_eq_ok h
    cases h
    unfold freezeReviewSnapshot at hfreeze
    split at hfreeze
    · cases hfreeze
    next row hget =>
    split at hfreeze
    · cases hfreeze
    next hnone =>
    obtain ⟨next, hnext, hfreeze⟩ := bind_eq_ok hfreeze
    obtain ⟨row', hget', hversion, -, rfl⟩ := updateRound_eq_ok hfreeze
    rw [hget] at hget'
    cases hget'
    rw [Option.not_isSome_iff_eq_none] at hnone
    refine .inr (.froze roundId snapshot read row hget hversion hnone ?_)
    cases hstate : row.state with
    | «open» => rfl
    | _ =>
      rw [hstate] at hnext
      cases hnext
  | _ =>
    cases h
    exact .inl ⟨rfl, rfl⟩

theorem advance_begin {roundId : String}
    (h : advance s newUlid now (.beginAdjudication roundId) progress = .ok (progress', s')) :
    progress' = progress ∧ s' = s ∨
      Advance s newUlid (.beginAdjudication roundId) progress progress' s' := by
  cases progress with
  | started => exact .inr (advance_readRound rfl h)
  | roundRead read =>
    unfold advance at h
    obtain ⟨⟨round, s''⟩, hmove, h⟩ := bind_eq_ok h
    cases h
    obtain ⟨row, hget, hversion, hnext, rfl⟩ := transitionRound_eq_ok hmove
    refine .inr (.began roundId read row hget hversion ?_)
    cases hstate : row.state with
    | built => rfl
    | _ =>
      rw [hstate] at hnext
      cases hnext
  | _ =>
    cases h
    exact .inl ⟨rfl, rfl⟩

theorem advance_settle {roundId : String} {verdictYes : Bool} {report : RoundReport}
    (h : advance s newUlid now (.settleAdjudication roundId verdictYes report) progress =
      .ok (progress', s')) :
    progress' = progress ∧ s' = s ∨
      Advance s newUlid (.settleAdjudication roundId verdictYes report) progress progress' s' := by
  cases progress with
  | started => exact .inr (advance_readRound rfl h)
  | roundRead read =>
    unfold advance at h
    obtain ⟨⟨stamped, s''⟩, hstamp, h⟩ := bind_eq_ok h
    cases h
    unfold setRoundReport at hstamp
    split at hstamp
    · cases hstamp
    · obtain ⟨row, hget, hversion, rfl, rfl⟩ := updateRound_eq_ok hstamp
      exact .inr (.stamped roundId verdictYes report read row hget hversion)
  | reportSet stamped =>
    unfold advance at h
    obtain ⟨⟨round, s''⟩, hmove, h⟩ := bind_eq_ok h
    cases h
    obtain ⟨row, hget, hversion, hnext, rfl⟩ := transitionRound_eq_ok hmove
    have hclosed : [RoundState.yes, .no, .abandoned].contains (roundTarget verdictYes) = true := by
      cases verdictYes <;> rfl
    rw [if_pos hclosed]
    refine .inr (.settled roundId verdictYes report stamped row now hget hversion ?_)
    cases hstate : row.state with
    | adjudicating => rfl
    | _ =>
      rw [hstate] at hnext
      cases verdictYes <;> cases hnext
  | _ =>
    cases h
    exact .inl ⟨rfl, rfl⟩

/-- A call that goes on does one of the things listed, or it has ended. -/
theorem advance_cases {command : Command}
    (h : advance s newUlid now command progress = .ok (progress', s')) :
    progress' = progress ∧ s' = s ∨
      Advance s newUlid command progress progress' s' := by
  cases command with
  | openRun draft =>
    cases progress with
    | started => exact .inr (advance_openRun h)
    | _ =>
      cases h
      exact .inl ⟨rfl, rfl⟩
  | openRound draft => exact advance_openRound h
  | freezeReviewSnapshot roundId snapshot => exact advance_freeze h
  | beginAdjudication roundId => exact advance_begin h
  | settleAdjudication roundId verdictYes report => exact advance_settle h
  | _ =>
    cases progress with
    | started => exact .inr (advance_readRun rfl h)
    | runRead read => exact .inr (advance_transitionRun rfl h)
    | _ =>
      cases h
      exact .inl ⟨rfl, rfl⟩

/-! ## One event -/

/-- A call that returned does nothing more. -/
theorem advance_returned (command : Command) :
    advance s newUlid now command .returned = .ok (.returned, s) := by
  cases command <;> rfl

/-- What an event does to the service: nothing, a new call, or one store call of a call that has
not returned. -/
inductive Moves (v : Service) : Event → Service → Prop
  | idle (event : Event) : Moves v event v
  | called (command : Command) :
      Moves v (.call command)
        { v with calls := v.calls ++ [{ command := command, progress := .started }] }
  | raised (n : Nat) (newUlid : String) (now : Int) (call : Call) (e : GateError)
      (hcall : v.calls[n]? = some call) (hlive : call.progress ≠ .returned) :
      Moves v (.resume n newUlid now)
        { v with calls := v.calls.set n { call with progress := .raised e } }
  | advanced (n : Nat) (newUlid : String) (now : Int) (call : Call) (progress : Progress)
      (store : GateStore) (hcall : v.calls[n]? = some call)
      (hadvance : Advance v.store newUlid call.command call.progress progress store) :
      Moves v (.resume n newUlid now)
        { store := store, calls := v.calls.set n { call with progress := progress } }

theorem set_getElem?_self {calls : List Call} {n : Nat} {call : Call}
    (h : calls[n]? = some call) : calls.set n call = calls := by
  obtain ⟨hn, rfl⟩ := List.getElem?_eq_some_iff.mp h
  exact List.set_getElem_self hn

theorem moves_exec (v : Service) (event : Event) : Moves v event (v.exec event) := by
  cases event with
  | call command => exact .called command
  | resume n newUlid now =>
    show Moves v _ (resume v n newUlid now)
    unfold resume
    cases hcall : v.calls[n]? with
    | none => exact .idle _
    | some call =>
      simp only
      cases hresult : advance v.store newUlid now call.command call.progress with
      | error e =>
        refine .raised n newUlid now call e hcall ?_
        intro hreturned
        rw [hreturned, advance_returned] at hresult
        cases hresult
      | ok result =>
        obtain ⟨progress, store⟩ := result
        obtain ⟨rfl, rfl⟩ | hadvance := advance_cases hresult
        · simp only [set_getElem?_self hcall]
          exact .idle _
        · exact .advanced n newUlid now call progress store hcall hadvance

/-- A call after one of them changed. -/
theorem getElem?_set_eq_some {calls : List Call} {n m : Nat} {new call : Call}
    (h : (calls.set n new)[m]? = some call) :
    (m = n ∧ call = new) ∨ (m ≠ n ∧ calls[m]? = some call) := by
  rw [List.getElem?_set] at h
  split at h
  · next hm =>
    split at h
    · exact .inl ⟨hm.symm, (Option.some.inj h).symm⟩
    · cases h
  · next hm => exact .inr ⟨fun heq => hm heq.symm, h⟩

/-- A call that was made goes on as it was, or is the one that changed. -/
theorem getElem?_set_of_ne {calls : List Call} {n m : Nat} {new call : Call}
    (h : calls[m]? = some call) (hm : m ≠ n) : (calls.set n new)[m]? = some call := by
  rw [List.getElem?_set_ne fun heq => hm heq.symm]
  exact h

theorem getElem?_set_self {calls : List Call} {n : Nat} {new call : Call}
    (h : calls[n]? = some call) : (calls.set n new)[n]? = some new := by
  rw [List.getElem?_set, if_pos rfl, if_pos (List.getElem?_eq_some_iff.mp h).1]

theorem getElem?_append_eq_some {calls : List Call} {m : Nat} {new call : Call}
    (h : (calls ++ [new])[m]? = some call) : calls[m]? = some call ∨ call = new := by
  obtain hm | hm := Nat.lt_or_ge m calls.length
  · rw [List.getElem?_append_left hm] at h
    exact .inl h
  · rw [List.getElem?_append_right hm] at h
    exact .inr (List.mem_singleton.mp (List.mem_of_getElem? h))

end CliAgentOrchestrator.Gate
