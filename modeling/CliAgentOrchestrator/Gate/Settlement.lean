import CliAgentOrchestrator.Gate.Question

/-!
# A question settles once

What every run of the store keeps of its questions: one open question per dispatch, an answer
row exactly for the answered ones, and no way back into the open states.
-/

set_option autoImplicit false

namespace CliAgentOrchestrator.Gate

open CliAgentOrchestrator.Core Library

variable {s s' : GateStore} {op : Op} {i : String} {q q' : RoundQuestion}

/-! ## One step of one question -/

/-- A question that is closed stays closed. -/
theorem RowStep.closed (h : RowStep s op q q') (hclosed : q.isOpen = false) :
    q'.isOpen = false := by
  cases h with
  | answered => rfl
  | escalated questionId now _ hpending =>
    have hopen := q.isOpen_iff.mpr (.inl hpending)
    rw [hclosed] at hopen
    cases hopen
  | expired => rfl
  | _ => exact hclosed

theorem RowStep.dispatchId (h : RowStep s op q q') : q'.dispatchId = q.dispatchId := by
  cases h <;> rfl

theorem not_isOpen_of_answered (h : q.state = .answered) : q.isOpen = false := by
  unfold RoundQuestion.isOpen
  rw [h]
  rfl

/-- An answered question keeps its answer and its owner. -/
theorem RowStep.answered_kept (h : RowStep s op q q') (hstate : q.state = .answered) :
    q'.state = .answered ∧ q'.answerEventId = q.answerEventId ∧
      q'.ownerConversation = q.ownerConversation ∧ q'.ownerEpoch = q.ownerEpoch := by
  have hclosed := not_isOpen_of_answered hstate
  cases h with
  | answered a newUlid now _ hid hread hadmitted =>
    obtain ⟨hopen, -⟩ := answerAdmissible_eq_none hadmitted
    rw [hclosed] at hopen
    cases hopen
  | escalated questionId now _ hpending =>
    rw [hstate] at hpending
    cases hpending
  | expired now _ hopen =>
    rw [hclosed] at hopen
    cases hopen
  | owned claim newUlid now _ hclaims =>
    unfold claimsQuestion at hclaims
    rw [hclosed, Bool.and_false, Bool.false_and] at hclaims
    cases hclaims
  | _ => exact ⟨hstate, rfl, rfl, rfl⟩

/-- A question becomes answered by the answer that it then names. -/
theorem RowStep.answered_new (h : RowStep s op q q') (hstate : q'.state = .answered)
    (hbefore : q.state ≠ .answered) :
    ∃ a newUlid now, op = .answer a newUlid now ∧ a.questionId = q.questionId ∧
      q' = (answeredPatch newUlid).apply q ∧
      ¬ (q.ownerConversation = "" ∨ q.ownerEpoch < 0) ∧
      answerAdmissible q a.callerConversation a.callerEpoch now = none := by
  cases h with
  | answered a newUlid now _ hid hread hadmitted =>
    exact ⟨a, newUlid, now, rfl, hid.symm, rfl, hread, hadmitted⟩
  | escalated => cases hstate
  | expired => cases hstate
  | _ => exact absurd hstate hbefore

/-- A question that is not answered names no answer. -/
theorem RowStep.unanswered (h : RowStep s op q q') (hstate : q'.state ≠ .answered)
    (hbefore : q.state ≠ .answered → q.answerEventId = none) : q'.answerEventId = none := by
  have hkept : q.state ≠ .answered := fun hq => hstate (h.answered_kept hq).1
  cases h with
  | answered => exact absurd rfl hstate
  | _ => exact hbefore hkept

/-! ## The invariant -/

/-- What holds of the questions and the answers of the store. -/
structure Settled (s : GateStore) : Prop where
  oneOpen : ∀ i j q r, s.roundQuestion.get i = some q → s.roundQuestion.get j = some r →
    q.dispatchId = r.dispatchId → q.isOpen = true → r.isOpen = true → i = j
  answers : ∀ e event, s.questionAnswer.get e = some event →
    ∃ q, s.roundQuestion.get event.questionId = some q ∧ q.state = .answered ∧
      q.answerEventId = some e
  recorded : ∀ i q, s.roundQuestion.get i = some q → q.state = .answered →
    ∃ e event, q.answerEventId = some e ∧ s.questionAnswer.get e = some event ∧
      event.questionId = i
  readable : ∀ i q, s.roundQuestion.get i = some q → q.state = .answered →
    ¬ (q.ownerConversation = "" ∨ q.ownerEpoch < 0)
  unanswered : ∀ i q, s.roundQuestion.get i = some q → q.state ≠ .answered →
    q.answerEventId = none

theorem settled_empty : Settled .empty := by
  constructor
  · intro i j q r hq
    cases hq
  · intro e event he
    cases he
  · intro i q hq
    cases hq
  · intro i q hq
    cases hq
  · intro i q hq
    cases hq

theorem openQuestionForDispatch_eq_none {d : String} (h : openQuestionForDispatch s d = none)
    (hget : s.roundQuestion.get i = some q) (hd : q.dispatchId = d) : q.isOpen = false := by
  unfold openQuestionForDispatch at h
  rw [List.head?_eq_none_iff] at h
  by_contra hopen
  have hmem : q ∈ s.roundQuestion.select fun q => q.dispatchId == d && q.isOpen := by
    rw [Table.mem_select_iff]
    refine ⟨?_, by simp [hd, Bool.eq_true_of_not_eq_false hopen]⟩
    rw [Table.key_of_get hget]
    exact hget
  rw [h] at hmem
  cases hmem

/-- An open question was open before or has just been asked, and then it is the only one. -/
theorem oneOpen_exec (h : Settled s) {j : String} {r' : RoundQuestion}
    (hq : (exec s op).roundQuestion.get i = some q') (hr : (exec s op).roundQuestion.get j = some r')
    (hd : q'.dispatchId = r'.dispatchId) (hqopen : q'.isOpen = true) (hropen : r'.isOpen = true) :
    i = j := by
  obtain ⟨q, hqget, hqstep⟩ | hqasked := question_cases hq
  · have hqbefore : q.isOpen = true := by
      by_contra hclosed
      rw [hqstep.closed (Bool.eq_false_iff.mpr hclosed)] at hqopen
      cases hqopen
    obtain ⟨r, hrget, hrstep⟩ | hrasked := question_cases hr
    · have hrbefore : r.isOpen = true := by
        by_contra hclosed
        rw [hrstep.closed (Bool.eq_false_iff.mpr hclosed)] at hropen
        cases hropen
      rw [hqstep.dispatchId, hrstep.dispatchId] at hd
      exact h.oneOpen i j q r hqget hrget hd hqbefore hrbefore
    · rw [hqstep.dispatchId] at hd
      rw [openQuestionForDispatch_eq_none hrasked.closed hqget hd] at hqbefore
      cases hqbefore
  · obtain ⟨ask, dispatch, hop, -⟩ := hqasked.minted
    obtain ⟨r, hrget, hrstep⟩ | hrasked := question_cases hr
    · rw [hrstep.dispatchId] at hd
      have hclosed := openQuestionForDispatch_eq_none hqasked.closed hrget hd.symm
      rw [hrstep.closed hclosed] at hropen
      cases hropen
    · obtain ⟨ask', dispatch', hop', -⟩ := hrasked.minted
      rw [hop] at hop'
      exact (Op.ask.inj hop').2

theorem answers_exec (h : Settled s) {e : String} {event : QuestionAnswer}
    (hget : (exec s op).questionAnswer.get e = some event) :
    ∃ q, (exec s op).roundQuestion.get event.questionId = some q ∧ q.state = .answered ∧
      q.answerEventId = some e := by
  obtain hold | hnew := answer_cases hget
  · obtain ⟨q, hq, hstate, he⟩ := h.answers e event hold
    obtain ⟨q', hq', hstep⟩ := rowStep_of_exec op hq
    obtain ⟨hstate', he', -⟩ := hstep.answered_kept hstate
    exact ⟨q', hq', hstate', he'.trans he⟩
  · obtain ⟨a, now, q, -, rfl, -, -, hq⟩ := hnew.minted
    exact ⟨_, hq, rfl, rfl⟩

/-- An answered question was answered before or is answered by this step. -/
theorem answered_cases (hget : (exec s op).roundQuestion.get i = some q')
    (hstate : q'.state = .answered) :
    (∃ q, s.roundQuestion.get i = some q ∧ q.state = .answered ∧ RowStep s op q q') ∨
      ∃ q a newUlid now, s.roundQuestion.get i = some q ∧ op = .answer a newUlid now ∧
        a.questionId = i ∧ q' = (answeredPatch newUlid).apply q ∧
        ¬ (q.ownerConversation = "" ∨ q.ownerEpoch < 0) := by
  obtain ⟨q, hq, hstep⟩ | hasked := question_cases hget
  · by_cases hbefore : q.state = .answered
    · exact .inl ⟨q, hq, hbefore, hstep⟩
    · obtain ⟨a, newUlid, now, hop, hid, hq', hread, -⟩ := hstep.answered_new hstate hbefore
      exact .inr ⟨q, a, newUlid, now, hq, hop, hid.trans (Table.key_of_get hq), hq', hread⟩
  · obtain ⟨ask, dispatch, -, rfl, -⟩ := hasked.minted
    cases hstate

/-- An answer that settles its question is appended in the same step. -/
theorem answer_recorded {a : Answer} {newUlid : String} {now : Int}
    (hget : s.roundQuestion.get a.questionId = some q)
    (hafter : (exec s (.answer a newUlid now)).roundQuestion.get a.questionId =
      some ((answeredPatch newUlid).apply q)) :
    (exec s (.answer a newUlid now)).questionAnswer.get newUlid =
      some (answerRow a newUlid now) := by
  have heffect := effect_exec s (.answer a newUlid now)
  generalize exec s (.answer a newUlid now) = after at heffect hafter ⊢
  cases heffect with
  | idle =>
    -- the row version would not have moved
    have hsame := congrArg RoundQuestion.rowVersion (Option.some.inj (hget.symm.trans hafter))
    have hbumped : q.rowVersion = q.rowVersion + 1 := hsame
    omega
  | answered _ _ _ record hrecord hread hprior hadmitted hfree =>
    refine (s.questionAnswer.get_insert (answerRow a newUlid now) newUlid).trans ?_
    rw [hfree, Option.none_or]
    exact if_pos rfl

theorem recorded_exec (h : Settled s) (hget : (exec s op).roundQuestion.get i = some q')
    (hstate : q'.state = .answered) :
    ∃ e event, q'.answerEventId = some e ∧ (exec s op).questionAnswer.get e = some event ∧
      event.questionId = i := by
  obtain ⟨q, hq, hbefore, hstep⟩ | ⟨q, a, newUlid, now, hq, rfl, rfl, rfl, -⟩ :=
    answered_cases hget hstate
  · obtain ⟨e, event, he, hevent, hid⟩ := h.recorded i q hq hbefore
    exact ⟨e, event, (hstep.answered_kept hbefore).2.1.trans he, answer_kept hevent, hid⟩
  · exact ⟨newUlid, _, rfl, answer_recorded hq hget, rfl⟩

theorem readable_exec (h : Settled s) (hget : (exec s op).roundQuestion.get i = some q')
    (hstate : q'.state = .answered) :
    ¬ (q'.ownerConversation = "" ∨ q'.ownerEpoch < 0) := by
  obtain ⟨q, hq, hbefore, hstep⟩ | ⟨q, a, newUlid, now, hq, rfl, rfl, rfl, hread⟩ :=
    answered_cases hget hstate
  · obtain ⟨-, -, howner, hepoch⟩ := hstep.answered_kept hbefore
    rw [howner, hepoch]
    exact h.readable i q hq hbefore
  · exact hread

theorem unanswered_exec (h : Settled s) (hget : (exec s op).roundQuestion.get i = some q')
    (hstate : q'.state ≠ .answered) : q'.answerEventId = none := by
  obtain ⟨q, hq, hstep⟩ | hasked := question_cases hget
  · exact hstep.unanswered hstate (h.unanswered i q hq)
  · obtain ⟨ask, dispatch, -, rfl, -⟩ := hasked.minted
    rfl

theorem Settled.exec (h : Settled s) (op : Op) : Settled (Gate.exec s op) where
  oneOpen _ _ _ _ hq hr hd hqopen hropen := oneOpen_exec h hq hr hd hqopen hropen
  answers _ _ hget := answers_exec h hget
  recorded _ _ hget hstate := recorded_exec h hget hstate
  readable _ _ hget hstate := readable_exec h hget hstate
  unanswered _ _ hget hstate := unanswered_exec h hget hstate

theorem settled_run (ops : List Op) : Settled (run exec .empty ops) :=
  run_invariant Settled (fun _ op h => h.exec op) .empty settled_empty ops

/-! ## Leaving the open states -/

/-- Whether the question is among the open ones. -/
def holdsOpen (s : GateStore) (i : String) : Bool :=
  (s.roundQuestion.get i).any RoundQuestion.isOpen

/-- Reported by the step in which the question leaves the open states. -/
def leavesOpen (i : String) (s : GateStore) (op : Op) : Option Unit :=
  if holdsOpen s i && !holdsOpen (exec s op) i then some () else none

theorem holdsOpen_of_get (hget : s.roundQuestion.get i = some q) : holdsOpen s i = q.isOpen := by
  unfold holdsOpen
  rw [hget]
  rfl

/-- A closed question is never reported again. -/
theorem observed_leavesOpen_of_closed (ops : List Op) (hget : s.roundQuestion.get i = some q)
    (hclosed : q.isOpen = false) : observed exec (leavesOpen i) s ops = [] := by
  induction ops generalizing s q with
  | nil => rfl
  | cons op rest ih =>
    obtain ⟨q', hget', hstep⟩ := rowStep_of_exec op hget
    have hnow : leavesOpen i s op = none := by
      unfold leavesOpen
      rw [holdsOpen_of_get hget, hclosed]
      rfl
    show (leavesOpen i s op).toList ++ observed exec (leavesOpen i) (exec s op) rest = []
    rw [hnow, ih hget' (hstep.closed hclosed)]
    rfl

theorem length_observed_leavesOpen (s : GateStore) (ops : List Op) :
    (observed exec (leavesOpen i) s ops).length ≤ 1 := by
  induction ops generalizing s with
  | nil => exact Nat.zero_le 1
  | cons op rest ih =>
    show ((leavesOpen i s op).toList ++ observed exec (leavesOpen i) (exec s op) rest).length ≤ 1
    cases hleaves : leavesOpen i s op with
    | none => exact ih (exec s op)
    | some u =>
      unfold leavesOpen at hleaves
      split at hleaves
      · next hcond =>
        rw [Bool.and_eq_true, Bool.not_eq_true'] at hcond
        obtain ⟨hopen, hclosed⟩ := hcond
        cases hget : s.roundQuestion.get i with
        | none =>
          unfold holdsOpen at hopen
          rw [hget] at hopen
          cases hopen
        | some q =>
          obtain ⟨q', hget', -⟩ := rowStep_of_exec op hget
          rw [holdsOpen_of_get hget'] at hclosed
          rw [observed_leavesOpen_of_closed rest hget' hclosed]
          exact Nat.le_refl 1
      · cases hleaves

/-! ## The answers of one question -/

/-- The `question_answer` rows of a question. -/
def answersOf (s : GateStore) (i : String) : List QuestionAnswer :=
  s.questionAnswer.select fun event => event.questionId == i

theorem mem_answersOf {event : QuestionAnswer} : event ∈ answersOf s i ↔
    s.questionAnswer.get event.answerEventId = some event ∧ event.questionId = i := by
  unfold answersOf
  rw [Table.mem_select_iff, beq_iff_eq]

/-- An answered question has the answer it names and no other. -/
theorem Settled.answersOf_eq (h : Settled s) (hget : s.roundQuestion.get i = some q)
    (hstate : q.state = .answered) :
    ∃ event, q.answerEventId = some event.answerEventId ∧ answersOf s i = [event] := by
  obtain ⟨e, event, he, hevent, hid⟩ := h.recorded i q hget hstate
  obtain rfl := Table.key_of_get hevent
  have hmem : event ∈ answersOf s i := mem_answersOf.mpr ⟨hevent, hid⟩
  have hall : ∀ x ∈ answersOf s i, x = event := by
    intro x hx
    obtain ⟨hxget, hxid⟩ := mem_answersOf.mp hx
    obtain ⟨q₂, hq₂, -, he₂⟩ := h.answers _ x hxget
    rw [hxid, hget] at hq₂
    cases hq₂
    rw [← Option.some.inj (he.symm.trans he₂), hevent] at hxget
    exact (Option.some.inj hxget).symm
  have hnodup : (answersOf s i).Nodup :=
    List.Nodup.of_map _ (s.questionAnswer.select_nodup _)
  refine ⟨event, he, ?_⟩
  exact List.perm_singleton.mp ((List.perm_ext_iff_of_nodup hnodup (List.nodup_singleton event)).mpr
    fun x => ⟨fun hx => List.mem_singleton.mpr (hall x hx),
      fun hx => List.mem_singleton.mp hx ▸ hmem⟩)

/-- A question that is not answered has no answer. -/
theorem Settled.answersOf_nil (h : Settled s) (hget : s.roundQuestion.get i = some q)
    (hstate : q.state ≠ .answered) : answersOf s i = [] := by
  rw [List.eq_nil_iff_forall_not_mem]
  intro event hevent
  obtain ⟨heget, hid⟩ := mem_answersOf.mp hevent
  obtain ⟨q₂, hq₂, hstate₂, -⟩ := h.answers _ event heget
  rw [hid, hget] at hq₂
  cases hq₂
  exact hstate hstate₂

/-- A retry of a recorded answer is answered with it and writes nothing. -/
theorem Settled.retry (h : Settled s) {a : Answer} {event : QuestionAnswer} (newUlid : String)
    (now : Int) (hevent : event ∈ answersOf s a.questionId)
    (hrequest : event.clientRequestId = a.clientRequestId) (hanswer : event.answer = a.answer) :
    ∃ q, s.roundQuestion.get a.questionId = some q ∧
      answerQuestion s a newUlid now = .ok ((q, event), s) := by
  obtain ⟨heget, hid⟩ := mem_answersOf.mp hevent
  obtain ⟨q, hq, hstate, -⟩ := h.answers _ event heget
  rw [hid] at hq
  refine ⟨q, hq, ?_⟩
  have hread : rowToQuestion q = .ok q := if_neg (h.readable _ q hq hstate)
  have hprior : priorAnswer s a.questionId a.clientRequestId = some event := by
    -- the only answer of the question carries the request id
    obtain ⟨only, -, honly⟩ := h.answersOf_eq hq hstate
    rw [honly, List.mem_singleton] at hevent
    subst hevent
    have hrows : (s.questionAnswer.select fun x =>
        x.questionId == a.questionId && x.clientRequestId == a.clientRequestId) = [event] := by
      calc (s.questionAnswer.select fun x =>
            x.questionId == a.questionId && x.clientRequestId == a.clientRequestId)
          = (answersOf s a.questionId).filter fun x => x.clientRequestId == a.clientRequestId := by
            unfold answersOf Table.select
            rw [List.filter_filter]
            refine List.filter_congr fun x _ => ?_
            exact Bool.and_comm _ _
        _ = [event] := by
            rw [honly, List.filter_singleton, hrequest, beq_self_eq_true]
            rfl
    unfold priorAnswer
    rw [hrows]
    rfl
  unfold answerQuestion
  rw [hq]
  show (rowToQuestion q >>= _) = _
  rw [hread]
  dsimp only [bind, Except.bind]
  rw [hprior]
  show (if event.answer ≠ a.answer then _ else _) = _
  rw [if_neg (not_not.mpr hanswer)]

/-! ## Every run -/

/-- What is promised of the questions in the store `s` that the transactions `ops` lead to. -/
structure SettlesOnce (ops : List Op) (s : GateStore) : Prop where
  /-- A question leaves the open states at most once. -/
  once : ∀ i, (observed exec (leavesOpen i) .empty ops).length ≤ 1
  /-- No question carries an answer and the EXPIRED state. -/
  notBoth : ∀ i q, s.roundQuestion.get i = some q → q.state = .expired →
    q.answerEventId = none ∧ answersOf s i = []
  /-- One answer row, the one the question names, exactly for the answered questions. -/
  answered_iff : ∀ i q, s.roundQuestion.get i = some q → (q.state = .answered ↔
    ∃ event, q.answerEventId = some event.answerEventId ∧ answersOf s i = [event])
  /-- An identical retry answers the recorded event and changes nothing. -/
  retry : ∀ a newUlid now event, event ∈ answersOf s a.questionId →
    event.clientRequestId = a.clientRequestId → event.answer = a.answer →
    ∃ q, s.roundQuestion.get a.questionId = some q ∧
      answerQuestion s a newUlid now = .ok ((q, event), s)
  /-- What is recorded next is recorded before the deadline, and from the owner. -/
  fenced : ∀ op e event, s.questionAnswer.get e = none →
    (exec s op).questionAnswer.get e = some event →
    ∃ a now q, op = .answer a e now ∧ event = answerRow a e now ∧
      s.roundQuestion.get event.questionId = some q ∧ now < q.expiresAt ∧
      a.callerConversation = q.ownerConversation
  /-- At most one question of a dispatch is open. -/
  oneOpen : ∀ i j q r, s.roundQuestion.get i = some q → s.roundQuestion.get j = some r →
    q.dispatchId = r.dispatchId → q.isOpen = true → r.isOpen = true → i = j

theorem fenced_of_recorded {e : String} {event : QuestionAnswer} (h : Recorded s op e event) :
    ∃ a now q, op = .answer a e now ∧ event = answerRow a e now ∧
      s.roundQuestion.get event.questionId = some q ∧ now < q.expiresAt ∧
      a.callerConversation = q.ownerConversation := by
  obtain ⟨a, now, q, hop, rfl, hq, hadmitted, -⟩ := h.minted
  obtain ⟨-, hbefore, howner, -⟩ := answerAdmissible_eq_none hadmitted
  exact ⟨a, now, q, hop, rfl, hq, hbefore, howner⟩

/-- In every interleaving of the transactions, at whatever times, a question settles exactly
once. -/
theorem settlesOnce_run (ops : List Op) : SettlesOnce ops (run exec .empty ops) := by
  have hsettled := settled_run ops
  constructor
  · exact fun i => length_observed_leavesOpen .empty ops
  · intro i q hget hexpired
    have hstate : q.state ≠ .answered := by
      rw [hexpired]
      decide
    exact ⟨hsettled.unanswered i q hget hstate, hsettled.answersOf_nil hget hstate⟩
  · intro i q hget
    constructor
    · exact hsettled.answersOf_eq hget
    · rintro ⟨event, he, -⟩
      by_contra hstate
      rw [hsettled.unanswered i q hget hstate] at he
      cases he
  · intro a newUlid now event hevent hrequest hanswer
    exact hsettled.retry newUlid now hevent hrequest hanswer
  · intro op e event hnone hget
    obtain hold | hnew := answer_cases hget
    · rw [hnone] at hold
      cases hold
    · exact fenced_of_recorded hnew
  · exact hsettled.oneOpen

end CliAgentOrchestrator.Gate
