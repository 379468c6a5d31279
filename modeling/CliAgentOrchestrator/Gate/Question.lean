import CliAgentOrchestrator.Gate.Operation

/-!
# One question through an operation

What an operation can do to one `round_question` row (`RowStep`), when a row appears, and when
the append-only `question_answer` grows.
-/

set_option autoImplicit false

namespace CliAgentOrchestrator.Gate

open CliAgentOrchestrator.Core Library

variable {s s' : GateStore} {op : Op} {i : String} {q q' : RoundQuestion}

/-! ## The expiry loop -/

/-- The loop as one pass over each table. -/
theorem expire_loop (due : List RoundQuestion) (s : GateStore)
    (hids : (due.map RoundQuestion.questionId).Nodup)
    (hopen : ∀ r ∈ due, (s.roundQuestion.get r.questionId).any RoundQuestion.isOpen = true) :
    due.foldl expireOne s =
      let questions := s.roundQuestion.updateEach due RoundQuestion.questionId
        (fun _ => RoundQuestion.isOpen) (fun _ => questionStatePatch .expired)
      let dispatches := s.gateDispatch.updateEach due RoundQuestion.dispatchId
        (fun _ d => d.state == .awaitingAnswer) (fun q => dispatchStatePatch (restoredState q))
      { s with roundQuestion := questions, gateDispatch := dispatches } := by
  induction due generalizing s with
  | nil => rfl
  | cons first rest ih =>
    rw [List.map_cons, List.nodup_cons] at hids
    rw [List.foldl_cons, ih _ hids.2]
    · unfold expireOne
      rw [if_pos (hopen first (List.mem_cons_self ..))]
      rfl
    · intro r hr
      have hne : r.questionId ≠ first.questionId := by
        intro heq
        exact hids.1 (heq ▸ List.mem_map_of_mem hr)
      unfold expireOne
      rw [if_pos (hopen first (List.mem_cons_self ..))]
      show ((s.roundQuestion.updateKey _ _ _).get r.questionId).any _ = true
      rw [Table.get_updateKey]
      have hopen' := hopen r (List.mem_cons_of_mem _ hr)
      cases hget : s.roundQuestion.get r.questionId with
      | none =>
        rw [hget] at hopen'
        cases hopen'
      | some q =>
        rw [hget] at hopen'
        rw [Option.map_some, if_neg fun hcond => hne hcond.1]
        exact hopen'

theorem mem_dueQuestions {now : Int} {r : RoundQuestion} : r ∈ dueQuestions s now ↔
    s.roundQuestion.get r.questionId = some r ∧ r.isOpen = true ∧ r.expiresAt ≤ now := by
  unfold dueQuestions
  rw [Table.mem_select_iff, Bool.and_eq_true, decide_eq_true_eq]

/-- The sweep as one pass over each table. -/
theorem swept_eq (s : GateStore) (now : Int) :
    swept s now =
      let questions := s.roundQuestion.updateEach (dueQuestions s now) RoundQuestion.questionId
        (fun _ => RoundQuestion.isOpen) (fun _ => questionStatePatch .expired)
      let dispatches := s.gateDispatch.updateEach (dueQuestions s now) RoundQuestion.dispatchId
        (fun _ d => d.state == .awaitingAnswer) (fun q => dispatchStatePatch (restoredState q))
      { s with roundQuestion := questions, gateDispatch := dispatches } := by
  refine expire_loop (dueQuestions s now) s (s.roundQuestion.select_nodup _) ?_
  intro r hr
  obtain ⟨hget, hopen, -⟩ := mem_dueQuestions.mp hr
  rw [hget]
  exact hopen

/-- The sweep expires the questions that are due and touches no other. -/
theorem get_swept (s : GateStore) (now : Int) (i : String) :
    (swept s now).roundQuestion.get i = (s.roundQuestion.get i).map fun q =>
      if q.isOpen = true ∧ q.expiresAt ≤ now then (questionStatePatch .expired).apply q else q := by
  have hnodup : ((dueQuestions s now).map RoundQuestion.questionId).Nodup :=
    s.roundQuestion.select_nodup _
  rw [swept_eq]
  refine (s.roundQuestion.get_updateEach_rows (dueQuestions s now) (fun _ => RoundQuestion.isOpen)
    (fun _ => questionStatePatch .expired) hnodup (fun r hr => (mem_dueQuestions.mp hr).1) i).trans ?_
  cases hget : s.roundQuestion.get i with
  | none => rfl
  | some q =>
    have hmem : q ∈ dueQuestions s now ↔ q.isOpen = true ∧ q.expiresAt ≤ now := by
      rw [mem_dueQuestions, Table.key_of_get hget]
      exact ⟨fun h => h.2, fun h => ⟨hget, h⟩⟩
    simp only [Option.map_some, hmem]
    by_cases hdue : q.isOpen = true ∧ q.expiresAt ≤ now
    · rw [if_pos hdue, if_pos ⟨hdue, hdue.1⟩]
    · rw [if_neg hdue, if_neg fun hcond => hdue hcond.1]

/-! ## One row -/

/-- What an operation does to one question. -/
inductive RowStep (s : GateStore) : Op → RoundQuestion → RoundQuestion → Prop
  | kept (op : Op) (q : RoundQuestion) : RowStep s op q q
  | answered (a : Answer) (newUlid : String) (now : Int) (q : RoundQuestion)
      (hid : q.questionId = a.questionId)
      (hread : ¬ (q.ownerConversation = "" ∨ q.ownerEpoch < 0))
      (hadmitted : answerAdmissible q a.callerConversation a.callerEpoch now = none) :
      RowStep s (.answer a newUlid now) q ((answeredPatch newUlid).apply q)
  | escalated (questionId : String) (now : Int) (q : RoundQuestion)
      (hpending : q.state = .pending) :
      RowStep s (.escalate questionId now) q ((questionStatePatch .escalated).apply q)
  | expired (now : Int) (q : RoundQuestion) (hopen : q.isOpen = true) (hdue : q.expiresAt ≤ now) :
      RowStep s (.expire now) q ((questionStatePatch .expired).apply q)
  | consumed (answerEventId : String) (now : Int) (event : QuestionAnswer) (q : RoundQuestion)
      (hevent : s.questionAnswer.get answerEventId = some event)
      (hid : event.questionId = q.questionId) :
      RowStep s (.consume answerEventId now) q ((consumedPatch now).apply q)
  | owned (claim : OwnershipClaim) (newUlid : String) (now : Int) (q : RoundQuestion)
      (hclaims : claimsQuestion s claim q = true) :
      RowStep s (.claim claim newUlid now) q ((ownQuestionPatch claim).apply q)

theorem rowStep_of_answered {a : Answer} {newUlid : String} {now : Int} {record : RoundQuestion}
    (hrecord : s.roundQuestion.get a.questionId = some record)
    (hread : ¬ (record.ownerConversation = "" ∨ record.ownerEpoch < 0))
    (hadmitted : answerAdmissible record a.callerConversation a.callerEpoch now = none)
    (hget : s.roundQuestion.get i = some q) :
    ∃ q', (answered s a newUlid now).roundQuestion.get i = some q' ∧
      RowStep s (.answer a newUlid now) q q' := by
  have hgetv : (answered s a newUlid now).roundQuestion.get i = (s.roundQuestion.get i).map fun q =>
      if i = a.questionId ∧ q.isOpen = true then (answeredPatch newUlid).apply q else q :=
    s.roundQuestion.get_updateKey a.questionId i _ _
  rw [hgetv, hget]
  refine ⟨_, rfl, ?_⟩
  show RowStep s _ q (if _ then _ else _)
  split
  · next hcond =>
    obtain ⟨rfl, -⟩ := hcond
    rw [hrecord] at hget
    cases hget
    exact .answered a newUlid now _ (Table.key_of_get hrecord) hread hadmitted
  · exact .kept _ q

theorem rowStep_of_consumed {answerEventId : String} {now : Int} {event : QuestionAnswer}
    {record : RoundQuestion} (hevent : s.questionAnswer.get answerEventId = some event)
    (hget : s.roundQuestion.get i = some q) :
    ∃ q', (release (received s event now) record).roundQuestion.get i = some q' ∧
      RowStep s (.consume answerEventId now) q q' := by
  have hgetv : (release (received s event now) record).roundQuestion.get i =
      (s.roundQuestion.get i).map fun q =>
        if i = event.questionId ∧ true = true then (consumedPatch now).apply q else q :=
    s.roundQuestion.get_updateKey event.questionId i _ _
  rw [hgetv, hget]
  refine ⟨_, rfl, ?_⟩
  show RowStep s _ q (if _ then _ else _)
  split
  · next hcond => exact .consumed _ now event q hevent (hcond.1.symm.trans (Table.key_of_get hget).symm)
  · exact .kept _ q

/-- A question stays a row of its table, and one step is all that happens to it. -/
theorem rowStep_of_exec (op : Op) (hget : s.roundQuestion.get i = some q) :
    ∃ q', (exec s op).roundQuestion.get i = some q' ∧ RowStep s op q q' := by
  have heffect := effect_exec s op
  generalize exec s op = after at heffect
  cases heffect with
  | recorded dispatch =>
    refine ⟨q, ?_, .kept _ q⟩
    unfold recordDispatch
    split <;> exact hget
  | asked ask newUlid dispatch hdispatch hlive hopen hfree =>
    refine ⟨q, ?_, .kept _ q⟩
    show (s.roundQuestion.insert _).get i = some q
    rw [Table.get_insert, hget]
    rfl
  | answered a newUlid now record hrecord hread hprior hadmitted hfree =>
    exact rowStep_of_answered hrecord hread hadmitted hget
  | escalated questionId now record hrecord hpending =>
    refine ⟨_, (s.roundQuestion.get_updateKey questionId i _ _).trans (by rw [hget]; rfl), ?_⟩
    show RowStep s _ q (if _ then _ else _)
    split
    · next hcond => exact .escalated questionId now q (eq_of_beq hcond.2)
    · exact .kept _ q
  | expired now =>
    refine ⟨_, (get_swept s now i).trans (by rw [hget]; rfl), ?_⟩
    show RowStep s _ q (if _ then _ else _)
    split
    · next hcond => exact .expired now q hcond.1 hcond.2
    · exact .kept _ q
  | consumed answerEventId now event record hevent hrecord hread => exact rowStep_of_consumed hevent hget
  | claimed claim newUlid now transfer hprior hepoch hid hrequest hfree =>
    refine ⟨_, (s.roundQuestion.get_update _ _ i).trans (by rw [hget]; rfl), ?_⟩
    show RowStep s _ q (if _ then _ else _)
    split
    · next hcond => exact .owned claim newUlid now q hcond
    · exact .kept _ q
  | _ => exact ⟨q, hget, .kept _ q⟩

/-- A question appears when it is asked, of a dispatch that may be suspended and has no open
question. -/
structure Asked (s : GateStore) (op : Op) (i : String) (q : RoundQuestion) : Prop where
  free : s.roundQuestion.get i = none
  minted : ∃ ask dispatch, op = .ask ask i ∧ q = questionRow ask i dispatch.state ∧
    s.gateDispatch.get ask.dispatchId = some dispatch ∧
    dispatchMayBeSuspended dispatch.state = true
  closed : openQuestionForDispatch s q.dispatchId = none

theorem asked_of_exec (hnone : s.roundQuestion.get i = none)
    (hget : (exec s op).roundQuestion.get i = some q) : Asked s op i q := by
  have heffect := effect_exec s op
  generalize exec s op = after at heffect hget
  -- an update inserts nothing
  have hupdate : ∀ f : RoundQuestion → RoundQuestion,
      (s.roundQuestion.get i).map f = some q → False := by
    intro f hf
    rw [hnone] at hf
    cases hf
  cases heffect with
  | asked ask newUlid dispatch hdispatch hlive hopen hfree =>
    have hgetv := (s.roundQuestion.get_insert (questionRow ask newUlid dispatch.state) i).symm.trans
      hget
    rw [hnone, Option.none_or] at hgetv
    split at hgetv
    · next hi =>
      obtain rfl : newUlid = i := hi
      cases hgetv
      exact ⟨hnone, ⟨ask, dispatch, rfl, rfl, hdispatch, hlive⟩, hopen⟩
    · cases hgetv
  | recorded dispatch =>
    unfold recordDispatch at hget
    split at hget
    · exact absurd (hnone.symm.trans hget) (by simp)
    · exact absurd (hnone.symm.trans hget) (by simp)
  | answered a newUlid now record hrecord hread hprior hadmitted hfree =>
    exact (hupdate _ ((s.roundQuestion.get_updateKey a.questionId i _ _).symm.trans hget)).elim
  | escalated questionId now record hrecord hpending =>
    exact (hupdate _ ((s.roundQuestion.get_updateKey questionId i _ _).symm.trans hget)).elim
  | expired now => exact (hupdate _ ((get_swept s now i).symm.trans hget)).elim
  | consumed answerEventId now event record hevent hrecord hread =>
    exact (hupdate _ ((s.roundQuestion.get_updateKey event.questionId i _ _).symm.trans hget)).elim
  | claimed claim newUlid now transfer hprior hepoch hid hrequest hfree =>
    exact (hupdate _ ((s.roundQuestion.get_update _ _ i).symm.trans hget)).elim
  | _ => exact absurd (hnone.symm.trans hget) (by simp)

/-- Where a question of the store after an operation comes from. -/
theorem question_cases (hget : (exec s op).roundQuestion.get i = some q') :
    (∃ q, s.roundQuestion.get i = some q ∧ RowStep s op q q') ∨ Asked s op i q' := by
  cases hbefore : s.roundQuestion.get i with
  | none => exact .inr (asked_of_exec hbefore hget)
  | some q =>
    obtain ⟨x, hx, hstep⟩ := rowStep_of_exec op hbefore
    rw [hget] at hx
    cases hx
    exact .inl ⟨q, rfl, hstep⟩

/-! ## The answers -/

/-- `question_answer` grows by the answers that are admitted, and by nothing else. -/
structure Recorded (s : GateStore) (op : Op) (e : String) (event : QuestionAnswer) : Prop where
  free : s.questionAnswer.get e = none
  minted : ∃ a now q, op = .answer a e now ∧ event = answerRow a e now ∧
    s.roundQuestion.get a.questionId = some q ∧
    answerAdmissible q a.callerConversation a.callerEpoch now = none ∧
    (exec s op).roundQuestion.get a.questionId = some ((answeredPatch e).apply q)

theorem exec_answered {a : Answer} {newUlid : String} {now : Int}
    (h : exec s op = answered s a newUlid now)
    (hget : s.roundQuestion.get a.questionId = some q) (hopen : q.isOpen = true) :
    (exec s op).roundQuestion.get a.questionId = some ((answeredPatch newUlid).apply q) := by
  rw [h]
  refine (s.roundQuestion.get_updateKey a.questionId a.questionId _ _).trans ?_
  rw [hget, Option.map_some, if_pos ⟨rfl, hopen⟩]

theorem answer_cases {e : String} {event : QuestionAnswer}
    (hget : (exec s op).questionAnswer.get e = some event) :
    s.questionAnswer.get e = some event ∨ Recorded s op e event := by
  have heffect := effect_exec s op
  generalize hafter : exec s op = after at heffect hget
  cases heffect with
  | answered a newUlid now record hrecord hread hprior hadmitted hfree =>
    have hgetv := (s.questionAnswer.get_insert (answerRow a newUlid now) e).symm.trans hget
    obtain hold | hnew := Option.or_eq_some_iff.mp hgetv
    · exact .inl hold
    · obtain ⟨hnone, hnew⟩ := hnew
      split at hnew
      · next hi =>
        obtain rfl : newUlid = e := hi
        cases hnew
        obtain ⟨hopen, -⟩ := answerAdmissible_eq_none hadmitted
        exact .inr ⟨hnone, a, now, record, rfl, rfl, hrecord, hadmitted,
          exec_answered hafter hrecord hopen⟩
      · cases hnew
  | recorded dispatch =>
    unfold recordDispatch at hget
    split at hget <;> exact .inl hget
  | expired now =>
    rw [swept_eq] at hget
    exact .inl hget
  | _ => exact .inl hget

/-- Answers are never taken back. -/
theorem answer_kept {e : String} {event : QuestionAnswer}
    (hget : s.questionAnswer.get e = some event) :
    (exec s op).questionAnswer.get e = some event := by
  have heffect := effect_exec s op
  generalize exec s op = after at heffect
  cases heffect with
  | answered a newUlid now record hrecord hread hprior hadmitted hfree =>
    refine (s.questionAnswer.get_insert (answerRow a newUlid now) e).trans ?_
    rw [hget]
    rfl
  | recorded dispatch =>
    unfold recordDispatch
    split <;> exact hget
  | expired now =>
    rw [swept_eq]
    exact hget
  | _ => exact hget

end CliAgentOrchestrator.Gate
