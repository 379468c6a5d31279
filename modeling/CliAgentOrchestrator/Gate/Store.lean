import CliAgentOrchestrator.Core.Gate
import CliAgentOrchestrator.Library.Table
import CliAgentOrchestrator.Library.Machine

/-!
# The gate store

`adapters/store/gate.py`: the gate tables and the transactions over them. A transaction that
raises is rolled back whole, so an operation answers either a value and a new store or an error.
Ids are minted outside; a primary key that is taken is an `IntegrityError`.
-/

set_option autoImplicit false

namespace CliAgentOrchestrator.Gate

open CliAgentOrchestrator.Core Library

/-! ## Tables -/

/-- SOURCE: adapters/store/migrator.py:471-475 -/
structure AnswerDeliveryIntent where
  answerEventId : String
  state : AnswerDeliveryState
  settledAt : Option Int

/-- SOURCE: adapters/store/migrator.py:488-496 -/
structure QuestionNoticeIntent where
  questionId : String
  state : NoticeIntentState
  attempts : Int

/-- SOURCE: adapters/store/migrator.py:500-513 -/
structure OwnershipTransfer where
  transferId : String
  priorConversation : String
  priorEpoch : Int
  newConversation : String
  newEpoch : Int
  runId : Option String
  runsRewritten : Nat
  questionsRewritten : Nat
  claimedBy : String
  claimedAt : Int
  clientRequestId : String

/-- The gate tables. -/
structure GateStore where
  gateRun : Table GateRun.runId
  gateRound : Table GateRound.roundId
  gateDispatch : Table Dispatch.dispatchId
  roundQuestion : Table RoundQuestion.questionId
  questionAnswer : Table QuestionAnswer.answerEventId
  answerDeliveryIntent : Table AnswerDeliveryIntent.answerEventId
  questionNoticeIntent : Table QuestionNoticeIntent.questionId
  ownershipTransfer : Table OwnershipTransfer.transferId

/-- The store before any call. -/
def GateStore.empty : GateStore :=
  ⟨.empty, .empty, .empty, .empty, .empty, .empty, .empty, .empty⟩

/-- INSERT; a key that is taken raises. -/
def insertRow {ρ : Type} {key : ρ → String} (t : Table key) (row : ρ) :
    Except GateError (Table key) :=
  if (t.get (key row)).isSome then .error .integrityError else .ok (t.insert row)

/-- A run read back. A claim writes its conversation unchecked, so the row can hold an owner that
`GateRun` does not accept.
SOURCE: adapters/store/gate.py:1306-1318 -/
def rowToRun (row : GateRun) : Except GateError GateRun :=
  if row.ownerConversation = "" ∨ row.ownerEpoch < 0 then .error .validationError else .ok row

/-- A question read back, under the same validators.
SOURCE: adapters/store/gate.py:1266-1292 -/
def rowToQuestion (row : RoundQuestion) : Except GateError RoundQuestion :=
  if row.ownerConversation = "" ∨ row.ownerEpoch < 0 then .error .validationError else .ok row

/-- The epochs and the generation that a caller leaves out pass their check. -/
theorem zero_nonneg : (0 : Int) ≤ 0 := by decide

/-! ## Runs -/

/-- What `open_run` is called with; the validators are those of `GateRun`. -/
structure RunDraft where
  wp : String
  lane : String
  ownerConversation : String
  ownerEpoch : Int
  maxRounds : Int
  workflowSourceSha : String := ""
  inputSha : String := ""
  wp_ne : wp ≠ "" := by decide
  lane_ne : lane ≠ "" := by decide
  ownerConversation_ne : ownerConversation ≠ "" := by decide
  ownerEpoch_nonneg : 0 ≤ ownerEpoch := by first | exact zero_nonneg | decide

/-- SOURCE: adapters/store/gate.py:98-143 -/
def openRun (s : GateStore) (draft : RunDraft) (newUlid : String) :
    Except GateError (GateRun × GateStore) := do
  let maxRounds ← validateMaxRounds draft.maxRounds
  let run : GateRun :=
    { runId := newUlid, wp := draft.wp, lane := draft.lane
      workflowSourceSha := draft.workflowSourceSha, inputSha := draft.inputSha
      ownerConversation := draft.ownerConversation, ownerEpoch := draft.ownerEpoch
      maxRounds := maxRounds, rowVersion := 1, state := .open }
  let rows ← insertRow s.gateRun run
  return (run, { s with gateRun := rows })

/-- SET state = ?, row_version = row_version + 1. -/
def runStatePatch (target : RunState) : Patch GateRun.runId where
  apply r := { r with state := target, rowVersion := r.rowVersion + 1 }
  keeps _ := rfl

/-- SOURCE: adapters/store/gate.py:259-276 -/
def transitionRun (s : GateStore) (runId : String) (target : RunState)
    (expectedRowVersion : Int) : Except GateError (Unit × GateStore) :=
  match s.gateRun.get runId with
  | none => .error .noSuchRun
  | some row => do
    let current ← rowToRun row
    let target ← nextRunState current.state target
    if current.rowVersion = expectedRowVersion then
      return ((), { s with
        gateRun := s.gateRun.updateKey runId (fun r => r.rowVersion == expectedRowVersion)
          (runStatePatch target) })
    else .error .rowVersionConflict

/-! ## Rounds -/

/-- What `open_round` is called with; the validators are those of `GateRound`. -/
structure RoundDraft where
  runId : String
  buildInputs : ArtifactManifest
  executionTarget : ExecutionTarget
  predecessorRoundId : Option String := none
  testCommand : String := ""
  evidenceTier : String := ""
  generation : Int := 0
  runId_ne : runId ≠ "" := by decide
  generation_nonneg : 0 ≤ generation := by first | exact zero_nonneg | decide

/-- The rounds of a run.
SOURCE: adapters/store/gate.py:1099-1103 -/
def roundsForRun (s : GateStore) (runId : String) : List GateRound :=
  (s.gateRound.select fun r => r.runId == runId).insertionSort fun a b => a.roundNo ≤ b.roundNo

/-- The row `open_round` inserts; its number is one above the highest of the run. -/
def roundRow (s : GateStore) (draft : RoundDraft) (newUlid : String) (now : Int) : GateRound where
  roundId := newUlid
  runId := draft.runId
  roundNo := (((s.gateRound.select fun r => r.runId == draft.runId).map
    GateRound.roundNo).max?).getD 0 + 1
  predecessorRoundId := draft.predecessorRoundId
  buildInputs := draft.buildInputs
  reviewSnapshot := none
  executionTarget := draft.executionTarget
  testCommand := draft.testCommand
  evidenceTier := draft.evidenceTier
  subjectSha := none
  reportBytesSha := none
  verdictReportSha := none
  state := .open
  generation := draft.generation
  rowVersion := 1
  createdAt := now
  closedAt := none

/-- SOURCE: adapters/store/gate.py:145-206 -/
def openRound (s : GateStore) (draft : RoundDraft) (newUlid : String) (now : Int) :
    Except GateError (GateRound × GateStore) := do
  let round := roundRow s draft newUlid now
  let rows ← insertRow s.gateRound round
  return (round, { s with gateRound := rows })

/-- UPDATE gate_round … WHERE round_id = ? AND row_version = ?, read back. -/
def updateRound (s : GateStore) (roundId : String) (expectedRowVersion : Int)
    (f : Patch GateRound.roundId) : Except GateError (GateRound × GateStore) :=
  let s' := { s with
    gateRound := s.gateRound.updateKey roundId (fun r => r.rowVersion == expectedRowVersion) f }
  if (s.gateRound.get roundId).any (fun r => r.rowVersion == expectedRowVersion) then
    match s'.gateRound.get roundId with
    | some round => .ok (round, s')
    | none => .error .noSuchRound
  else .error .rowVersionConflict

/-- SET review_snapshot = ?, state = 'built', row_version = row_version + 1. -/
def freezePatch (snapshot : ArtifactManifest) : Patch GateRound.roundId where
  apply r := { r with
    reviewSnapshot := some snapshot, state := .built, rowVersion := r.rowVersion + 1 }
  keeps _ := rfl

/-- SOURCE: adapters/store/gate.py:208-232 -/
def freezeReviewSnapshot (s : GateStore) (roundId : String) (snapshot : ArtifactManifest)
    (expectedRowVersion : Int) : Except GateError (GateRound × GateStore) :=
  match s.gateRound.get roundId with
  | none => .error .noSuchRound
  | some current =>
    if current.reviewSnapshot.isSome then .error .snapshotFrozen
    else do
      let _ ← nextRoundState current.state .built
      updateRound s roundId expectedRowVersion (freezePatch snapshot)

/-- SET state = ?, row_version = row_version + 1, closed_at = ?. -/
def roundStatePatch (target : RoundState) (closedAt : Option Int) : Patch GateRound.roundId where
  apply r := { r with state := target, rowVersion := r.rowVersion + 1, closedAt := closedAt }
  keeps _ := rfl

/-- SOURCE: adapters/store/gate.py:234-257 -/
def transitionRound (s : GateStore) (roundId : String) (target : RoundState)
    (expectedRowVersion now : Int) : Except GateError (GateRound × GateStore) :=
  let closed := [RoundState.yes, .no, .abandoned].contains target
  match s.gateRound.get roundId with
  | none => .error .noSuchRound
  | some current => do
    let target ← nextRoundState current.state target
    updateRound s roundId expectedRowVersion
      (roundStatePatch target (if closed then some now else none))

/-- The three hashes a settlement records. -/
structure RoundReport where
  subjectSha : String
  reportBytesSha : String
  verdictReportSha : String

/-- SET subject_sha = ?, report_bytes_sha = ?, verdict_report_sha = ?, row_version + 1. -/
def reportPatch (report : RoundReport) : Patch GateRound.roundId where
  apply r := { r with
    subjectSha := some report.subjectSha, reportBytesSha := some report.reportBytesSha
    verdictReportSha := some report.verdictReportSha, rowVersion := r.rowVersion + 1 }
  keeps _ := rfl

/-- SOURCE: adapters/store/gate.py:278-307 -/
def setRoundReport (s : GateStore) (roundId : String) (report : RoundReport)
    (expectedRowVersion : Int) : Except GateError (GateRound × GateStore) :=
  match s.gateRound.get roundId with
  | none => .error .noSuchRound
  | some _ => updateRound s roundId expectedRowVersion (reportPatch report)

/-! ## Dispatches -/

/-- ON CONFLICT(dispatch_id) DO UPDATE SET every other column. -/
def dispatchPatch (dispatch : Dispatch) : Patch Dispatch.dispatchId where
  apply r := { dispatch with dispatchId := r.dispatchId }
  keeps _ := rfl

/-- SOURCE: adapters/store/gate.py:311-343 -/
def recordDispatch (s : GateStore) (dispatch : Dispatch) : GateStore :=
  if (s.gateDispatch.get dispatch.dispatchId).isSome then
    { s with gateDispatch :=
        s.gateDispatch.updateKey dispatch.dispatchId (fun _ => true) (dispatchPatch dispatch) }
  else { s with gateDispatch := s.gateDispatch.insert dispatch }

/-- ON CONFLICT(dispatch_id) DO NOTHING, and whether it inserted.
SOURCE: adapters/store/gate.py:649-681 -/
def ensureDispatch (s : GateStore) (dispatch : Dispatch) : Bool × GateStore :=
  ((s.gateDispatch.get dispatch.dispatchId).isNone,
    { s with gateDispatch := s.gateDispatch.insert dispatch })

/-- SET state = ?. -/
def dispatchStatePatch (state : DispatchState) : Patch Dispatch.dispatchId where
  apply r := { r with state := state }
  keeps _ := rfl

/-! ## Questions -/

/-- What `ask_question` is called with; the validators are those of `RoundQuestion`. -/
structure Ask where
  dispatchId : String
  roundId : Option String := none
  clientRequestId : String
  ownerConversation : String
  ownerEpoch : Int := 0
  continuationKind : ContinuationKind := .assignment
  continuationRef : String := ""
  question : String
  options : List String := []
  blocking : Bool := true
  askedAt : Int
  expiresAt : Int
  answerSchema : Option String := none
  defaultAnswer : Option String := none
  dispatchId_ne : dispatchId ≠ "" := by decide
  clientRequestId_ne : clientRequestId ≠ "" := by decide
  ownerConversation_ne : ownerConversation ≠ "" := by decide
  ownerEpoch_nonneg : 0 ≤ ownerEpoch := by first | exact zero_nonneg | decide
  question_ne : question ≠ "" := by decide

/-- The row `ask_question` inserts. -/
def questionRow (ask : Ask) (newUlid : String) (priorState : DispatchState) : RoundQuestion where
  questionId := newUlid
  dispatchId := ask.dispatchId
  roundId := ask.roundId
  clientRequestId := ask.clientRequestId
  ownerConversation := ask.ownerConversation
  ownerEpoch := ask.ownerEpoch
  continuationKind := ask.continuationKind
  continuationRef := ask.continuationRef
  askedAt := ask.askedAt
  expiresAt := ask.expiresAt
  question := ask.question
  options := ask.options
  answerSchema := ask.answerSchema
  defaultAnswer := ask.defaultAnswer
  blocking := ask.blocking
  state := .pending
  answerEventId := none
  consumedAt := none
  dispatchPriorState := some priorState
  rowVersion := 1

/-- The question a request id of this dispatch already asked. -/
def priorQuestion (s : GateStore) (clientRequestId dispatchId : String) : Option RoundQuestion :=
  (s.roundQuestion.select fun q =>
    q.clientRequestId == clientRequestId && q.dispatchId == dispatchId).head?

/-- The dispatch's open question.
SOURCE: adapters/store/gate.py:691-700 -/
def openQuestionForDispatch (s : GateStore) (dispatchId : String) : Option RoundQuestion :=
  (s.roundQuestion.select fun q => q.dispatchId == dispatchId && q.isOpen).head?

/-- INSERT INTO round_question; a taken id or the index `ux_question_open` refuses it. -/
def insertQuestion (s : GateStore) (row : RoundQuestion) :
    Except GateError (Table RoundQuestion.questionId) :=
  if (s.roundQuestion.get row.questionId).isSome
      ∨ (row.isOpen ∧ (openQuestionForDispatch s row.dispatchId).isSome) then
    .error (.question .questionOpen)
  else .ok (s.roundQuestion.insert row)

/-- Ask, suspend and record the notice intent; the flag says that it was a replay. What is
returned of a new row does not carry the state it suspended.
SOURCE: adapters/store/gate.py:490-639 -/
def askQuestion (s : GateStore) (ask : Ask) (newUlid : String) :
    Except GateError ((RoundQuestion × Bool) × GateStore) :=
  match priorQuestion s ask.clientRequestId ask.dispatchId with
  | some prior => do
    let record ← rowToQuestion prior
    return ((record, true), s)
  | none =>
    match s.gateDispatch.get ask.dispatchId with
    | none => .error (.question .dispatchUnknown)
    | some dispatch =>
      if dispatchMayBeSuspended dispatch.state = false then
        .error (.question .dispatchSettled)
      else if (openQuestionForDispatch s ask.dispatchId).isSome then
        .error (.question .questionOpen)
      else do
        let row := questionRow ask newUlid dispatch.state
        let questions ← insertQuestion s row
        let notices ← insertRow s.questionNoticeIntent
          { questionId := newUlid, state := .pending, attempts := 0 }
        return (({ row with dispatchPriorState := none }, false), { s with
          roundQuestion := questions
          gateDispatch := s.gateDispatch.updateKey ask.dispatchId (fun _ => true)
            (dispatchStatePatch .awaitingAnswer)
          questionNoticeIntent := notices })

/-! ## Answers -/

/-- What `answer_question` is called with; the validators are those of `QuestionAnswer`. -/
structure Answer where
  questionId : String
  answer : String
  answeredBy : String
  clientRequestId : String
  callerConversation : String
  callerEpoch : Int := 0
  answeredBy_ne : answeredBy ≠ "" := by decide
  clientRequestId_ne : clientRequestId ≠ "" := by decide

/-- The answer a request id of this question already recorded. -/
def priorAnswer (s : GateStore) (questionId clientRequestId : String) : Option QuestionAnswer :=
  (s.questionAnswer.select fun a =>
    a.questionId == questionId && a.clientRequestId == clientRequestId).head?

/-- The row `answer_question` appends. -/
def answerRow (a : Answer) (newUlid : String) (now : Int) : QuestionAnswer where
  answerEventId := newUlid
  questionId := a.questionId
  answer := a.answer
  answeredBy := a.answeredBy
  answeredAt := now
  clientRequestId := a.clientRequestId

/-- SET state = 'ANSWERED', answer_event_id = ?, row_version = row_version + 1. -/
def answeredPatch (answerEventId : String) : Patch RoundQuestion.questionId where
  apply q := { q with
    state := .answered, answerEventId := some answerEventId, rowVersion := q.rowVersion + 1 }
  keeps _ := rfl

/-- Append an answer conditionally on state, expiry and owner epoch.
SOURCE: adapters/store/gate.py:702-800 -/
def answerQuestion (s : GateStore) (a : Answer) (newUlid : String) (now : Int) :
    Except GateError ((RoundQuestion × QuestionAnswer) × GateStore) :=
  match s.roundQuestion.get a.questionId with
  | none => .error (.question .questionNotFound)
  | some row => do
    let record ← rowToQuestion row
    match priorAnswer s a.questionId a.clientRequestId with
    | some recorded =>
      if recorded.answer ≠ a.answer then .error (.question .answerConflict)
      else .ok ((record, recorded), s)
    | none =>
      match answerAdmissible record a.callerConversation a.callerEpoch now with
      | some code => .error (.question code)
      | none => do
        let _ ← nextQuestionState record.state .answered
        let event := answerRow a newUlid now
        let answers ← insertRow s.questionAnswer event
        let deliveries ← insertRow s.answerDeliveryIntent
          { answerEventId := newUlid, state := .pending, settledAt := none }
        return (((answeredPatch newUlid).apply record, event), { s with
          questionAnswer := answers
          roundQuestion := s.roundQuestion.updateKey a.questionId RoundQuestion.isOpen
            (answeredPatch newUlid)
          answerDeliveryIntent := deliveries })

/-! ## Escalation, expiry and consumption -/

/-- SET state = ?, row_version = row_version + 1. -/
def questionStatePatch (state : QuestionState) : Patch RoundQuestion.questionId where
  apply q := { q with state := state, rowVersion := q.rowVersion + 1 }
  keeps _ := rfl

/-- SOURCE: adapters/store/gate.py:802-836 -/
def escalateQuestion (s : GateStore) (questionId : String) (now : Int) :
    Except GateError (RoundQuestion × GateStore) :=
  match s.roundQuestion.get questionId with
  | none => .error (.question .questionNotFound)
  | some row => do
    let record ← rowToQuestion row
    if record.expiresAt ≤ now then .error (.question .questionExpired)
    else do
      let _ ← nextQuestionState record.state .escalated
      return ((questionStatePatch .escalated).apply record, { s with
        roundQuestion := s.roundQuestion.updateKey questionId (fun q => q.state == .pending)
          (questionStatePatch .escalated) })

/-- The dispatch state a release puts back.
SOURCE: adapters/store/gate.py:1252-1263 -/
def restoredState (question : RoundQuestion) : DispatchState :=
  question.dispatchPriorState.getD .dispatched

/-- UPDATE gate_dispatch SET state = restored WHERE dispatch_id = ? AND state = 'awaiting_answer'. -/
def release (s : GateStore) (question : RoundQuestion) : GateStore :=
  let dispatches := s.gateDispatch.updateKey question.dispatchId
    (fun d => d.state == .awaitingAnswer) (dispatchStatePatch (restoredState question))
  { s with gateDispatch := dispatches }

/-- The expiry of one question, skipped when the question was settled meanwhile. -/
def expireOne (s : GateStore) (record : RoundQuestion) : GateStore :=
  if (s.roundQuestion.get record.questionId).any RoundQuestion.isOpen then
    let questions := s.roundQuestion.updateKey record.questionId RoundQuestion.isOpen
      (questionStatePatch .expired)
    release { s with roundQuestion := questions } record
  else s

/-- The open questions past their deadline. -/
def dueQuestions (s : GateStore) (now : Int) : List RoundQuestion :=
  s.roundQuestion.select fun q => q.isOpen && decide (q.expiresAt ≤ now)

/-- Settle every open question past its deadline and release its dispatch. One row that cannot be
read back fails the whole sweep.
SOURCE: adapters/store/gate.py:838-885 -/
def expireDueQuestions (s : GateStore) (now : Int) : Except GateError GateStore :=
  (dueQuestions s now).foldlM (fun s row => do
    let record ← rowToQuestion row
    return expireOne s record) s

/-- SET consumed_at = ?. -/
def consumedPatch (now : Int) : Patch RoundQuestion.questionId where
  apply q := { q with consumedAt := some now }
  keeps _ := rfl

/-- SET state = 'CONSUMED', settled_at = ?. -/
def consumedDeliveryPatch (now : Int) : Patch AnswerDeliveryIntent.answerEventId where
  apply d := { d with state := .consumed, settledAt := some now }
  keeps _ := rfl

/-- Record the receipt and release the dispatch.
SOURCE: adapters/store/gate.py:911-949 -/
def markAnswerConsumed (s : GateStore) (answerEventId : String) (now : Int) :
    Except GateError GateStore :=
  match s.questionAnswer.get answerEventId with
  | none => .error (.question .questionNotFound)
  | some event =>
    let s' := { s with
      answerDeliveryIntent := s.answerDeliveryIntent.updateKey answerEventId (fun _ => true)
        (consumedDeliveryPatch now)
      roundQuestion := s.roundQuestion.updateKey event.questionId (fun _ => true)
        (consumedPatch now) }
    match s'.roundQuestion.get event.questionId with
    | none => .error (.question .questionNotFound)
    | some row => do
      let question ← rowToQuestion row
      return release s' question

/-! ## Ownership -/

/-- What `claim_ownership` is called with. -/
structure OwnershipClaim where
  priorConversation : String
  newConversation : String
  newEpoch : Int
  runId : Option String := none
  clientRequestId : String
  claimedBy : String

/-- SOURCE: core/gate.py:1151-1166 -/
structure ClaimOwnershipResult where
  accepted : Bool
  runsRewritten : Nat := 0
  questionsRewritten : Nat := 0
  transferId : Option String := none

/-- WHERE owner_conversation = ? AND run_id = ?. -/
def claimsRun (claim : OwnershipClaim) (r : GateRun) : Bool :=
  r.ownerConversation == claim.priorConversation && claim.runId.all (r.runId == ·)

/-- WHERE owner_conversation = ? AND state IN ('PENDING','ESCALATED') AND round_id IN
(SELECT round_id FROM gate_round WHERE run_id = ?). -/
def claimsQuestion (s : GateStore) (claim : OwnershipClaim) (q : RoundQuestion) : Bool :=
  q.ownerConversation == claim.priorConversation && q.isOpen && claim.runId.all fun runId =>
    q.roundId.any fun roundId => (s.gateRound.get roundId).any fun r => r.runId == runId

/-- SET owner_conversation = ?, owner_epoch = ?, row_version = row_version + 1. -/
def ownRunPatch (claim : OwnershipClaim) : Patch GateRun.runId where
  apply r := { r with
    ownerConversation := claim.newConversation, ownerEpoch := claim.newEpoch
    rowVersion := r.rowVersion + 1 }
  keeps _ := rfl

/-- SET owner_conversation = ?, owner_epoch = ?, row_version = row_version + 1. -/
def ownQuestionPatch (claim : OwnershipClaim) : Patch RoundQuestion.questionId where
  apply q := { q with
    ownerConversation := claim.newConversation, ownerEpoch := claim.newEpoch
    rowVersion := q.rowVersion + 1 }
  keeps _ := rfl

/-- MAX(owner_epoch) over the outgoing conversation's runs, -1 without any. -/
def priorEpoch (s : GateStore) (conversation : String) : Int :=
  (((s.gateRun.select fun r => r.ownerConversation == conversation).map
    GateRun.ownerEpoch).max?).getD (-1)

/-- The transfer a request id already made. -/
def priorTransfer (s : GateStore) (clientRequestId : String) : Option OwnershipTransfer :=
  (s.ownershipTransfer.select fun t => t.clientRequestId == clientRequestId).head?

/-- The row an accepted claim inserts. -/
def transferRow (s : GateStore) (claim : OwnershipClaim) (newUlid : String) (now : Int) :
    OwnershipTransfer where
  transferId := newUlid
  priorConversation := claim.priorConversation
  priorEpoch := max (priorEpoch s claim.priorConversation) 0
  newConversation := claim.newConversation
  newEpoch := claim.newEpoch
  runId := claim.runId
  runsRewritten := (s.gateRun.select (claimsRun claim)).length
  questionsRewritten := (s.roundQuestion.select (claimsQuestion s claim)).length
  claimedBy := claim.claimedBy
  claimedAt := now
  clientRequestId := claim.clientRequestId

/-- SOURCE: adapters/store/gate.py:982-1075 -/
def claimOwnership (s : GateStore) (claim : OwnershipClaim) (newUlid : String) (now : Int) :
    Except GateError (ClaimOwnershipResult × GateStore) :=
  match priorTransfer s claim.clientRequestId with
  | some prior =>
    .ok ({ accepted := true, runsRewritten := prior.runsRewritten
           questionsRewritten := prior.questionsRewritten
           transferId := some prior.transferId }, s)
  | none =>
    let epoch := priorEpoch s claim.priorConversation
    if 0 ≤ epoch ∧ epochSupersedes epoch claim.newEpoch = false then .ok ({ accepted := false }, s)
    else do
      let transfer := transferRow s claim newUlid now
      let transfers ← insertRow s.ownershipTransfer transfer
      return ({ accepted := true, runsRewritten := transfer.runsRewritten
                questionsRewritten := transfer.questionsRewritten
                transferId := some transfer.transferId }, { s with
        gateRun := s.gateRun.update (claimsRun claim) (ownRunPatch claim)
        roundQuestion := s.roundQuestion.update (claimsQuestion s claim) (ownQuestionPatch claim)
        ownershipTransfer := transfers })

end CliAgentOrchestrator.Gate
