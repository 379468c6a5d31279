import CliAgentOrchestrator.Core.Delivery

/-!
# The gate record's pure domain

`core/gate.py`: the states of a run, a round, a dispatch and a question, the transitions they
may make, and the rows as values. Every rule here is a total function over values; the store
reads the row, asks the rule and writes.
-/

set_option autoImplicit false

namespace CliAgentOrchestrator.Core

/-! ## Vocabularies -/

/-- The loop a round is one turn of.
SOURCE: core/gate.py:118-132 -/
inductive RunState
  | open
  | awaitingAnswer
  | closedYes
  | closedNo
  | abandoned
deriving DecidableEq

/-- One turn of the loop.
SOURCE: core/gate.py:135-149 -/
inductive RoundState
  | open
  | built
  | adjudicating
  | yes
  | no
  | abandoned
deriving DecidableEq

/-- SOURCE: core/gate.py:178-188 -/
inductive DispatchRole
  | builder
  | ledger
  | adjudicate
  | other

/-- The lifecycle of one assignment.
SOURCE: core/gate.py:191-205 -/
inductive DispatchState
  | prepared
  | dispatched
  | awaitingAnswer
  | returned
  | failed
  | abandoned
deriving DecidableEq

/-- The lifecycle of one durable question.
SOURCE: core/gate.py:757-771 -/
inductive QuestionState
  | pending
  | escalated
  | answered
  | expired
deriving DecidableEq

/-- SOURCE: core/gate.py:774-787 -/
inductive ContinuationKind
  | assignment
  | journalCheckpoint
deriving DecidableEq

/-- SOURCE: core/gate.py:790-802 -/
inductive NoticeIntentState
  | pending
  | sent
  | failed

/-- SOURCE: core/gate.py:805-818 -/
inductive AnswerDeliveryState
  | pending
  | sent
  | consumed
  | failed

/-- Why a question command is refused.
SOURCE: core/gate.py:840-862 -/
inductive QuestionRefusal
  | dispatchUnknown
  | dispatchSettled
  | questionEmpty
  | questionOpen
  | questionNotFound
  | questionSettled
  | questionExpired
  | ownerMismatch
  | epochSuperseded
  | answerConflict
  | defaultRequired
  | illegalTransition
deriving DecidableEq

/-- What a gate command raises. The messages of a `GateError` are prose; what is told apart here
is which check raised it. -/
inductive GateError
  | question (code : QuestionRefusal)
  | maxRounds
  | noSuchRun
  | noSuchRound
  | runNotOpen
  | exhausted
  | snapshotFrozen
  | illegalRunTransition
  | illegalRoundTransition
  | rowVersionConflict
  /-- A primary key that is taken. -/
  | integrityError
  /-- A row that the value class does not accept. -/
  | validationError
deriving DecidableEq

/-! ## Rows -/

/-- SOURCE: core/gate.py:252-262 -/
structure RepoBinding where
  name : String
  commit : String
  name_ne : name ≠ "" := by decide
  commit_ne : commit ≠ "" := by decide
deriving DecidableEq

/-- SOURCE: core/gate.py:265-281 -/
structure DiffEntry where
  prePath : Option String := none
  postPath : Option String := none
  mode : String := ""
  preObjectId : Option String := none
  postObjectId : Option String := none
  deleted : Bool := false

/-- A round's content identity.
SOURCE: core/gate.py:284-304 -/
structure ArtifactManifest where
  manifestVersion : Int
  repoBindings : List RepoBinding
  baseSha : String
  headSha : String
  branch : String
  worktreePath : String
  entries : List DiffEntry
  blueprintSha : String
  acListSha : String
  one_le_manifestVersion : 1 ≤ manifestVersion := by decide
  baseSha_ne : baseSha ≠ "" := by decide
  headSha_ne : headSha ≠ "" := by decide
  branch_ne : branch ≠ "" := by decide
  worktreePath_ne : worktreePath ≠ "" := by decide
  blueprintSha_ne : blueprintSha ≠ "" := by decide
  acListSha_ne : acListSha ≠ "" := by decide

/-- SOURCE: core/gate.py:307-319 -/
structure ExecutionTarget where
  host : String
  scratchRoot : String := ""
  host_ne : host ≠ "" := by decide

/-- One `gate_run` row.
SOURCE: core/gate.py:455-475 -/
structure GateRun where
  runId : String
  wp : String
  lane : String
  workflowSourceSha : String
  inputSha : String
  ownerConversation : String
  ownerEpoch : Int
  maxRounds : Int
  rowVersion : Int
  state : RunState

/-- One `gate_round` row.
SOURCE: core/gate.py:478-510 -/
structure GateRound where
  roundId : String
  runId : String
  roundNo : Int
  predecessorRoundId : Option String
  buildInputs : ArtifactManifest
  reviewSnapshot : Option ArtifactManifest
  executionTarget : ExecutionTarget
  testCommand : String
  evidenceTier : String
  subjectSha : Option String
  reportBytesSha : Option String
  verdictReportSha : Option String
  state : RoundState
  generation : Int
  rowVersion : Int
  createdAt : Int
  closedAt : Option Int

/-- One `gate_dispatch` row.
SOURCE: core/gate.py:357-380 -/
structure Dispatch where
  dispatchId : String
  roundId : Option String := none
  role : DispatchRole := .other
  position : String
  routingRevision : String := ""
  conversationId : Option String := none
  terminalIncarnation : Option String := none
  requestId : String
  effectId : Option String := none
  pins : List String := []
  briefBlobSha : String := ""
  state : DispatchState := .prepared
  outcome : Option String := none

/-- One `round_question` row.
SOURCE: core/gate.py:879-931 -/
structure RoundQuestion where
  questionId : String
  dispatchId : String
  roundId : Option String
  clientRequestId : String
  ownerConversation : String
  ownerEpoch : Int
  continuationKind : ContinuationKind
  continuationRef : String
  askedAt : Int
  expiresAt : Int
  question : String
  options : List String
  answerSchema : Option String
  defaultAnswer : Option String
  blocking : Bool
  state : QuestionState
  answerEventId : Option String
  consumedAt : Option Int
  dispatchPriorState : Option DispatchState
  rowVersion : Int
deriving DecidableEq

/-- SOURCE: core/gate.py:928-931 -/
def RoundQuestion.isOpen (q : RoundQuestion) : Bool := q.state == .pending || q.state == .escalated

/-- One `question_answer` row.
SOURCE: core/gate.py:934-953 -/
structure QuestionAnswer where
  answerEventId : String
  questionId : String
  answer : String
  answeredBy : String
  answeredAt : Int
  clientRequestId : String
deriving DecidableEq

/-! ## Transitions -/

/-- `AWAITING_ANSWER` is a projection, never written.
SOURCE: core/gate.py:612-633 -/
def nextRunState (current target : RunState) : Except GateError RunState :=
  if target = .awaitingAnswer then .error .illegalRunTransition
  else
    match current, target with
    | .open, .closedYes => .ok target
    | .open, .closedNo => .ok target
    | .open, .abandoned => .ok target
    | .awaitingAnswer, .open => .ok target
    | .awaitingAnswer, .abandoned => .ok target
    | _, _ => .error .illegalRunTransition

/-- SOURCE: core/gate.py:636-654 -/
def nextRoundState (current target : RoundState) : Except GateError RoundState :=
  match current, target with
  | .open, .built => .ok target
  | .open, .abandoned => .ok target
  | .built, .adjudicating => .ok target
  | .built, .abandoned => .ok target
  | .adjudicating, .yes => .ok target
  | .adjudicating, .no => .ok target
  | .adjudicating, .abandoned => .ok target
  | _, _ => .error .illegalRoundTransition

/-- SOURCE: core/gate.py:990-1013 -/
def nextQuestionState (current target : QuestionState) : Except GateError QuestionState :=
  match current, target with
  | .pending, .escalated => .ok target
  | .pending, .answered => .ok target
  | .pending, .expired => .ok target
  | .escalated, .answered => .ok target
  | .escalated, .expired => .ok target
  | _, _ => .error (.question .illegalTransition)

/-- SOURCE: core/gate.py:527-538 -/
def validateMaxRounds (maxRounds : Int) : Except GateError Int :=
  if maxRounds ≤ 0 then .error .maxRounds else .ok maxRounds

/-- SOURCE: core/gate.py:973-975 -/
def liveDispatchStates : List DispatchState := [.prepared, .dispatched, .awaitingAnswer]

/-- SOURCE: core/gate.py:978-987 -/
def dispatchMayBeSuspended (state : DispatchState) : Bool := liveDispatchStates.contains state

/-- SOURCE: core/gate.py:726-735 -/
def epochSupersedes (currentEpoch newEpoch : Int) : Bool := decide (currentEpoch < newEpoch)

/-- Whether the question may still be answered by this caller, and if not, why.
SOURCE: core/gate.py:1056-1112 -/
def answerAdmissible (question : RoundQuestion) (callerConversation : String)
    (callerEpoch now : Int) : Option QuestionRefusal :=
  if question.state = .answered ∨ question.state = .expired then some .questionSettled
  else if question.expiresAt ≤ now then some .questionExpired
  else if callerConversation ≠ question.ownerConversation then some .ownerMismatch
  else if epochSupersedes callerEpoch question.ownerEpoch then some .epochSuperseded
  else none

theorem nextRoundState_eq_ok {current target s : RoundState}
    (h : nextRoundState current target = .ok s) : s = target := by
  unfold nextRoundState at h
  split at h <;> cases h <;> rfl

theorem nextRunState_eq_ok {current target s : RunState}
    (h : nextRunState current target = .ok s) : s = target := by
  unfold nextRunState at h
  split at h
  · cases h
  · split at h <;> cases h <;> rfl

theorem RoundQuestion.isOpen_iff (q : RoundQuestion) :
    q.isOpen = true ↔ q.state = .pending ∨ q.state = .escalated := by
  simp [RoundQuestion.isOpen]

/-- An answer that is admitted finds an open question before its deadline, from its owner. -/
theorem answerAdmissible_eq_none {q : RoundQuestion} {callerConversation : String}
    {callerEpoch now : Int} (h : answerAdmissible q callerConversation callerEpoch now = none) :
    q.isOpen = true ∧ now < q.expiresAt ∧ callerConversation = q.ownerConversation ∧
      q.ownerEpoch ≤ callerEpoch := by
  unfold answerAdmissible at h
  split at h
  · cases h
  next hsettled =>
  split at h
  · cases h
  next hlate =>
  split at h
  · cases h
  next howner =>
  split at h
  · cases h
  next hepoch =>
  refine ⟨?_, by omega, not_not.mp howner, ?_⟩
  · rw [RoundQuestion.isOpen_iff]
    cases hstate : q.state with
    | pending => exact .inl rfl
    | escalated => exact .inr rfl
    | answered => exact absurd (.inl hstate) hsettled
    | expired => exact absurd (.inr hstate) hsettled
  · have hle := of_decide_eq_false (Bool.eq_false_iff.mpr hepoch)
    omega

end CliAgentOrchestrator.Core
