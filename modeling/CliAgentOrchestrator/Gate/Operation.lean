import CliAgentOrchestrator.Gate.Store

/-!
# What an operation of the gate store does

One transaction is one `Op`. `Effect` lists what each of them can do, guards included, and
`effect_exec` is the only place where the transactions are unfolded.
-/

set_option autoImplicit false

namespace CliAgentOrchestrator.Gate

open CliAgentOrchestrator.Core Library

/-- A transaction of the store with its arguments, the id it mints and its clock. -/
inductive Op
  | openRun (draft : RunDraft) (newUlid : String)
  | openRound (draft : RoundDraft) (newUlid : String) (now : Int)
  | recordDispatch (dispatch : Dispatch)
  | ensureDispatch (dispatch : Dispatch)
  | ask (ask : Ask) (newUlid : String)
  | answer (a : Answer) (newUlid : String) (now : Int)
  | escalate (questionId : String) (now : Int)
  | expire (now : Int)
  | consume (answerEventId : String) (now : Int)
  | claim (claim : OwnershipClaim) (newUlid : String) (now : Int)

/-- What a transaction leaves; one that raises is rolled back. -/
def committed {α : Type} (s : GateStore) : Except GateError (α × GateStore) → GateStore
  | .ok (_, s') => s'
  | .error _ => s

def exec (s : GateStore) : Op → GateStore
  | .openRun draft newUlid => committed s (openRun s draft newUlid)
  | .openRound draft newUlid now => committed s (openRound s draft newUlid now)
  | .recordDispatch dispatch => recordDispatch s dispatch
  | .ensureDispatch dispatch => (ensureDispatch s dispatch).2
  | .ask ask newUlid => committed s (askQuestion s ask newUlid)
  | .answer a newUlid now => committed s (answerQuestion s a newUlid now)
  | .escalate questionId now => committed s (escalateQuestion s questionId now)
  | .expire now => committed s ((expireDueQuestions s now).map fun s' => ((), s'))
  | .consume answerEventId now =>
    committed s ((markAnswerConsumed s answerEventId now).map fun s' => ((), s'))
  | .claim claim newUlid now => committed s (claimOwnership s claim newUlid now)

variable {s s' : GateStore} {op : Op}

/-! ## The cases of a transaction -/

/-- The store after a question was asked. -/
def asked (s : GateStore) (ask : Ask) (newUlid : String) (priorState : DispatchState) :
    GateStore :=
  { s with
    roundQuestion := s.roundQuestion.insert (questionRow ask newUlid priorState)
    gateDispatch := s.gateDispatch.updateKey ask.dispatchId (fun _ => true)
      (dispatchStatePatch .awaitingAnswer)
    questionNoticeIntent := s.questionNoticeIntent.insert
      { questionId := newUlid, state := .pending, attempts := 0 } }

/-- The store after a question was answered. -/
def answered (s : GateStore) (a : Answer) (newUlid : String) (now : Int) : GateStore :=
  { s with
    questionAnswer := s.questionAnswer.insert (answerRow a newUlid now)
    roundQuestion := s.roundQuestion.updateKey a.questionId RoundQuestion.isOpen
      (answeredPatch newUlid)
    answerDeliveryIntent := s.answerDeliveryIntent.insert
      { answerEventId := newUlid, state := .pending, settledAt := none } }

/-- The store after a sweep. -/
def swept (s : GateStore) (now : Int) : GateStore := (dueQuestions s now).foldl expireOne s

/-- The store after an answer was consumed, before its dispatch is released. -/
def received (s : GateStore) (event : QuestionAnswer) (now : Int) : GateStore :=
  { s with
    answerDeliveryIntent := s.answerDeliveryIntent.updateKey event.answerEventId (fun _ => true)
      (consumedDeliveryPatch now)
    roundQuestion := s.roundQuestion.updateKey event.questionId (fun _ => true)
      (consumedPatch now) }

/-- The store after an ownership claim was accepted. -/
def claimed (s : GateStore) (claim : OwnershipClaim) (transfer : OwnershipTransfer) : GateStore :=
  { s with
    gateRun := s.gateRun.update (claimsRun claim) (ownRunPatch claim)
    roundQuestion := s.roundQuestion.update (claimsQuestion s claim) (ownQuestionPatch claim)
    ownershipTransfer := s.ownershipTransfer.insert transfer }

/-- What one transaction does; `idle` is a refusal or a replay. -/
inductive Effect (s : GateStore) : Op → GateStore → Prop
  | idle (op : Op) : Effect s op s
  | openedRun (draft : RunDraft) (newUlid : String) (run : GateRun)
      (hfree : s.gateRun.get run.runId = none) (hepoch : 0 ≤ run.ownerEpoch) :
      Effect s (.openRun draft newUlid) { s with gateRun := s.gateRun.insert run }
  | openedRound (draft : RoundDraft) (newUlid : String) (now : Int) (round : GateRound)
      (hfree : s.gateRound.get round.roundId = none) :
      Effect s (.openRound draft newUlid now) { s with gateRound := s.gateRound.insert round }
  | recorded (dispatch : Dispatch) : Effect s (.recordDispatch dispatch) (recordDispatch s dispatch)
  | ensured (dispatch : Dispatch) :
      Effect s (.ensureDispatch dispatch) { s with gateDispatch := s.gateDispatch.insert dispatch }
  | asked (ask : Ask) (newUlid : String) (dispatch : Dispatch)
      (hdispatch : s.gateDispatch.get ask.dispatchId = some dispatch)
      (hlive : dispatchMayBeSuspended dispatch.state = true)
      (hopen : openQuestionForDispatch s ask.dispatchId = none)
      (hfree : s.roundQuestion.get newUlid = none) :
      Effect s (.ask ask newUlid) (asked s ask newUlid dispatch.state)
  | answered (a : Answer) (newUlid : String) (now : Int) (q : RoundQuestion)
      (hget : s.roundQuestion.get a.questionId = some q)
      (hread : ¬ (q.ownerConversation = "" ∨ q.ownerEpoch < 0))
      (hprior : priorAnswer s a.questionId a.clientRequestId = none)
      (hadmitted : answerAdmissible q a.callerConversation a.callerEpoch now = none)
      (hfree : s.questionAnswer.get newUlid = none) :
      Effect s (.answer a newUlid now) (answered s a newUlid now)
  | escalated (questionId : String) (now : Int) (q : RoundQuestion)
      (hget : s.roundQuestion.get questionId = some q) (hpending : q.state = .pending) :
      Effect s (.escalate questionId now) { s with
        roundQuestion := s.roundQuestion.updateKey questionId (fun q => q.state == .pending)
          (questionStatePatch .escalated) }
  | expired (now : Int) : Effect s (.expire now) (swept s now)
  | consumed (answerEventId : String) (now : Int) (event : QuestionAnswer) (q : RoundQuestion)
      (hevent : s.questionAnswer.get answerEventId = some event)
      (hget : s.roundQuestion.get event.questionId = some q)
      (hread : ¬ (q.ownerConversation = "" ∨ q.ownerEpoch < 0)) :
      Effect s (.consume answerEventId now)
        (release (received s event now) ((consumedPatch now).apply q))
  | claimed (claim : OwnershipClaim) (newUlid : String) (now : Int) (transfer : OwnershipTransfer)
      (hprior : priorTransfer s claim.clientRequestId = none)
      (hepoch : 0 ≤ priorEpoch s claim.priorConversation →
        priorEpoch s claim.priorConversation < claim.newEpoch)
      (hid : transfer.transferId = newUlid)
      (hrequest : transfer.clientRequestId = claim.clientRequestId)
      (hfree : s.ownershipTransfer.get newUlid = none) :
      Effect s (.claim claim newUlid now) (claimed s claim transfer)

/-! ## Each transaction has its effect -/

theorem bind_eq_ok {α β : Type} {x : Except GateError α} {f : α → Except GateError β} {b : β}
    (h : x >>= f = .ok b) : ∃ a, x = .ok a ∧ f a = .ok b := by
  cases x with
  | error e => cases h
  | ok a => exact ⟨a, rfl, h⟩

/-- A row that is read back is the row, and its owner is one that the value class accepts. -/
theorem bind_rowToQuestion_eq_ok {α : Type} {row : RoundQuestion}
    {f : RoundQuestion → Except GateError α} {b : α} (h : rowToQuestion row >>= f = .ok b) :
    ¬ (row.ownerConversation = "" ∨ row.ownerEpoch < 0) ∧ f row = .ok b := by
  obtain ⟨q, hread, h⟩ := bind_eq_ok h
  unfold rowToQuestion at hread
  split at hread
  · cases hread
  · next hvalid =>
    rw [← Except.ok.inj hread] at h
    exact ⟨hvalid, h⟩

theorem insertRow_eq_ok {ρ : Type} {key : ρ → String} {t t' : Table key} {row : ρ}
    (h : insertRow t row = .ok t') : t.get (key row) = none ∧ t' = t.insert row := by
  unfold insertRow at h
  split at h
  · cases h
  · next hfree =>
    rw [Option.not_isSome_iff_eq_none] at hfree
    exact ⟨hfree, (Except.ok.inj h).symm⟩

theorem effect_openRun (s : GateStore) (draft : RunDraft) (newUlid : String) :
    Effect s (.openRun draft newUlid) (exec s (.openRun draft newUlid)) := by
  cases h : openRun s draft newUlid with
  | error e =>
    simp only [exec, h, committed]
    exact .idle _
  | ok result =>
    obtain ⟨run, s'⟩ := result
    simp only [exec, h, committed]
    unfold openRun at h
    obtain ⟨maxRounds, -, h⟩ := bind_eq_ok h
    obtain ⟨rows, hrows, h⟩ := bind_eq_ok h
    obtain ⟨hfree, rfl⟩ := insertRow_eq_ok hrows
    obtain rfl := congrArg Prod.snd (Except.ok.inj h)
    exact .openedRun draft newUlid _ hfree draft.ownerEpoch_nonneg

theorem effect_openRound (s : GateStore) (draft : RoundDraft) (newUlid : String) (now : Int) :
    Effect s (.openRound draft newUlid now) (exec s (.openRound draft newUlid now)) := by
  cases h : openRound s draft newUlid now with
  | error e =>
    simp only [exec, h, committed]
    exact .idle _
  | ok result =>
    obtain ⟨round, s'⟩ := result
    simp only [exec, h, committed]
    unfold openRound at h
    obtain ⟨rows, hrows, h⟩ := bind_eq_ok h
    obtain ⟨hfree, rfl⟩ := insertRow_eq_ok hrows
    obtain rfl := congrArg Prod.snd (Except.ok.inj h)
    exact .openedRound draft newUlid now _ hfree

theorem insertQuestion_eq_ok {row : RoundQuestion} {t : Table RoundQuestion.questionId}
    (h : insertQuestion s row = .ok t) :
    s.roundQuestion.get row.questionId = none ∧ t = s.roundQuestion.insert row := by
  unfold insertQuestion at h
  split at h
  · cases h
  · next hfree =>
    rw [not_or, Bool.not_eq_true, Option.isSome_eq_false_iff, Option.isNone_iff_eq_none] at hfree
    exact ⟨hfree.1, (Except.ok.inj h).symm⟩

theorem effect_ask (s : GateStore) (ask : Ask) (newUlid : String) :
    Effect s (.ask ask newUlid) (exec s (.ask ask newUlid)) := by
  cases h : askQuestion s ask newUlid with
  | error e =>
    simp only [exec, h, committed]
    exact .idle _
  | ok result =>
    obtain ⟨question, s'⟩ := result
    simp only [exec, h, committed]
    unfold askQuestion at h
    split at h
    · obtain ⟨record, -, h⟩ := bind_eq_ok h
      obtain rfl := congrArg Prod.snd (Except.ok.inj h)
      exact .idle _
    split at h
    · cases h
    next dispatch hdispatch =>
    split at h
    · cases h
    next hlive =>
    split at h
    · cases h
    next hopen =>
    obtain ⟨questions, hquestions, h⟩ := bind_eq_ok h
    obtain ⟨notices, hnotices, h⟩ := bind_eq_ok h
    obtain ⟨hfree, rfl⟩ := insertQuestion_eq_ok hquestions
    obtain ⟨-, rfl⟩ := insertRow_eq_ok hnotices
    obtain rfl := congrArg Prod.snd (Except.ok.inj h)
    rw [Option.not_isSome_iff_eq_none] at hopen
    exact .asked ask newUlid dispatch hdispatch (Bool.not_eq_false _ ▸ hlive) hopen hfree

theorem effect_answer (s : GateStore) (a : Answer) (newUlid : String) (now : Int) :
    Effect s (.answer a newUlid now) (exec s (.answer a newUlid now)) := by
  cases h : answerQuestion s a newUlid now with
  | error e =>
    simp only [exec, h, committed]
    exact .idle _
  | ok result =>
    obtain ⟨answer, s'⟩ := result
    simp only [exec, h, committed]
    unfold answerQuestion at h
    split at h
    · cases h
    next q hget =>
    obtain ⟨hread, h⟩ := bind_rowToQuestion_eq_ok h
    split at h
    · split at h
      · cases h
      · obtain rfl := congrArg Prod.snd (Except.ok.inj h)
        exact .idle _
    next hprior =>
    split at h
    · cases h
    next hadmitted =>
    obtain ⟨-, -, h⟩ := bind_eq_ok h
    obtain ⟨answers, hanswers, h⟩ := bind_eq_ok h
    obtain ⟨deliveries, hdeliveries, h⟩ := bind_eq_ok h
    obtain ⟨hfree, rfl⟩ := insertRow_eq_ok hanswers
    obtain ⟨-, rfl⟩ := insertRow_eq_ok hdeliveries
    obtain rfl := congrArg Prod.snd (Except.ok.inj h)
    exact .answered a newUlid now q hget hread hprior hadmitted hfree

theorem effect_escalate (s : GateStore) (questionId : String) (now : Int) :
    Effect s (.escalate questionId now) (exec s (.escalate questionId now)) := by
  cases h : escalateQuestion s questionId now with
  | error e =>
    simp only [exec, h, committed]
    exact .idle _
  | ok result =>
    obtain ⟨question, s'⟩ := result
    simp only [exec, h, committed]
    unfold escalateQuestion at h
    split at h
    · cases h
    next q hget =>
    obtain ⟨-, h⟩ := bind_rowToQuestion_eq_ok h
    split at h
    · cases h
    obtain ⟨target, htarget, h⟩ := bind_eq_ok h
    obtain rfl := congrArg Prod.snd (Except.ok.inj h)
    refine .escalated questionId now q hget ?_
    -- only a pending question may be escalated
    cases hstate : q.state with
    | pending => rfl
    | _ =>
      rw [hstate] at htarget
      cases htarget

theorem effect_consume (s : GateStore) (answerEventId : String) (now : Int) :
    Effect s (.consume answerEventId now) (exec s (.consume answerEventId now)) := by
  cases h : markAnswerConsumed s answerEventId now with
  | error e =>
    simp only [exec, h, Except.map, committed]
    exact .idle _
  | ok s' =>
    simp only [exec, h, Except.map, committed]
    unfold markAnswerConsumed at h
    split at h
    · cases h
    next event hevent =>
    simp only at h
    split at h
    · cases h
    next question hquestion =>
    obtain ⟨hread, h⟩ := bind_rowToQuestion_eq_ok h
    cases h
    rw [Table.get_updateKey, Option.map_eq_some_iff] at hquestion
    obtain ⟨q, hget, hq⟩ := hquestion
    rw [if_pos ⟨rfl, rfl⟩] at hq
    subst hq
    obtain rfl : event.answerEventId = answerEventId := Table.key_of_get hevent
    exact .consumed _ now event q hevent hget hread

/-- A sweep that goes through expires every row it selected. -/
theorem foldlM_expireOne {due : List RoundQuestion}
    (h : due.foldlM (fun s row => do
      let record ← rowToQuestion row
      return expireOne s record) s = .ok s') : s' = due.foldl expireOne s := by
  induction due generalizing s with
  | nil => exact (Except.ok.inj h).symm
  | cons row rest ih =>
    rw [List.foldlM_cons] at h
    obtain ⟨next, hnext, h⟩ := bind_eq_ok h
    obtain ⟨-, hnext⟩ := bind_rowToQuestion_eq_ok hnext
    cases hnext
    exact ih h

theorem effect_expire (s : GateStore) (now : Int) :
    Effect s (.expire now) (exec s (.expire now)) := by
  cases h : expireDueQuestions s now with
  | error e =>
    simp only [exec, h, Except.map, committed]
    exact .idle _
  | ok s' =>
    simp only [exec, h, Except.map, committed]
    rw [foldlM_expireOne h]
    exact .expired now

theorem effect_claim (s : GateStore) (claim : OwnershipClaim) (newUlid : String) (now : Int) :
    Effect s (.claim claim newUlid now) (exec s (.claim claim newUlid now)) := by
  cases h : claimOwnership s claim newUlid now with
  | error e =>
    simp only [exec, h, committed]
    exact .idle _
  | ok result =>
    obtain ⟨answer, s'⟩ := result
    simp only [exec, h, committed]
    unfold claimOwnership at h
    split at h
    · obtain rfl := congrArg Prod.snd (Except.ok.inj h)
      exact .idle _
    next hprior =>
    simp only at h
    split at h
    · obtain rfl := congrArg Prod.snd (Except.ok.inj h)
      exact .idle _
    next hguard =>
    obtain ⟨transfers, htransfers, h⟩ := bind_eq_ok h
    obtain ⟨hfree, rfl⟩ := insertRow_eq_ok htransfers
    obtain rfl := congrArg Prod.snd (Except.ok.inj h)
    refine .claimed claim newUlid now _ hprior ?_ rfl rfl hfree
    intro hnonneg
    rw [not_and, Bool.not_eq_false] at hguard
    exact of_decide_eq_true (hguard hnonneg)

/-- Every transaction has one of the effects. -/
theorem effect_exec (s : GateStore) (op : Op) : Effect s op (exec s op) := by
  cases op with
  | openRun draft newUlid => exact effect_openRun s draft newUlid
  | openRound draft newUlid now => exact effect_openRound s draft newUlid now
  | recordDispatch dispatch => exact .recorded dispatch
  | ensureDispatch dispatch => exact .ensured dispatch
  | ask ask newUlid => exact effect_ask s ask newUlid
  | answer a newUlid now => exact effect_answer s a newUlid now
  | escalate questionId now => exact effect_escalate s questionId now
  | expire now => exact effect_expire s now
  | consume answerEventId now => exact effect_consume s answerEventId now
  | claim claim newUlid now => exact effect_claim s claim newUlid now

/-- A lane asks its supervisor. -/
def firstAsk : Ask :=
  { dispatchId := "d1", clientRequestId := "k1", ownerConversation := "sup", question := "a?"
    askedAt := 0, expiresAt := 100 }

end CliAgentOrchestrator.Gate
