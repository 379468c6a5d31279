import CliAgentOrchestrator.Gate.Settlement
import CliAgentOrchestrator.Library.Suspension

/-!
# A dispatch waits for its questions

A dispatch is a slot that its questions hold: an ask suspends it, and the expiry or the
consumption of a question puts back the state that question suspended. Every operation is a move
of that slot, except a consumption that comes while a later question still waits.
-/

set_option autoImplicit false

namespace CliAgentOrchestrator.Gate

open CliAgentOrchestrator.Core Library

variable {s s' : GateStore} {op : Op} {i d : String} {q q' : RoundQuestion}

/-! ## Waiting -/

/-- Somebody waits: the question is open, or its answer was not taken in yet. -/
def waits (q : RoundQuestion) : Bool := q.isOpen || (q.state == .answered && q.consumedAt.isNone)

/-- The state of a dispatch. -/
def dispatchState (s : GateStore) (d : String) : Option DispatchState :=
  (s.gateDispatch.get d).map Dispatch.state

/-- A question of the dispatch as a holder of it. -/
def holderOf (d : String) (q : RoundQuestion) : Option (Holder (Option DispatchState)) :=
  if q.dispatchId = d then
    some { prior := some (restoredState q), waits := waits q, isOpen := q.isOpen }
  else none

/-- The dispatch as a slot that its questions hold. -/
def slotOf (s : GateStore) (d : String) : Slot (Option DispatchState) String where
  state := dispatchState s d
  holder i := (s.roundQuestion.get i).bind (holderOf d)

theorem slotOf_holder_eq_some {w : Holder (Option DispatchState)} :
    (slotOf s d).holder i = some w ↔ ∃ q, s.roundQuestion.get i = some q ∧ q.dispatchId = d ∧
      w = { prior := some (restoredState q), waits := waits q, isOpen := q.isOpen } := by
  show (s.roundQuestion.get i).bind (holderOf d) = some w ↔ _
  rw [Option.bind_eq_some_iff]
  constructor
  · rintro ⟨q, hq, hw⟩
    unfold holderOf at hw
    split at hw
    · next hd => exact ⟨q, hq, hd, (Option.some.inj hw).symm⟩
    · cases hw
  · rintro ⟨q, hq, hd, rfl⟩
    exact ⟨q, hq, if_pos hd⟩

theorem slotOf_holder (hget : s.roundQuestion.get i = some q) (hd : q.dispatchId = d) :
    (slotOf s d).holder i =
      some { prior := some (restoredState q), waits := waits q, isOpen := q.isOpen } :=
  slotOf_holder_eq_some.mpr ⟨q, hget, hd, rfl⟩

/-- Only an answered question was ever consumed. -/
def ConsumedAnswered (s : GateStore) : Prop :=
  ∀ i q, s.roundQuestion.get i = some q → q.consumedAt ≠ none → q.state = .answered

theorem ConsumedAnswered.exec (h : ConsumedAnswered s) (hsettled : Settled s) (op : Op) :
    ConsumedAnswered (Gate.exec s op) := by
  intro i q' hget hconsumed
  obtain ⟨q, hq, hstep⟩ | hasked := question_cases hget
  · cases hstep with
    | kept => exact h i _ hq hconsumed
    | answered => rfl
    | escalated questionId now _ hpending =>
      have hstate := h i q hq hconsumed
      rw [hpending] at hstate
      cases hstate
    | expired now _ hopen =>
      have hstate := h i q hq hconsumed
      rw [not_isOpen_of_answered hstate] at hopen
      cases hopen
    | consumed answerEventId now event _ hevent hid =>
      obtain ⟨q₂, hq₂, hstate, -⟩ := hsettled.answers _ event hevent
      rw [hid, Table.key_of_get hq, hq] at hq₂
      cases hq₂
      exact hstate
    | owned => exact h i q hq hconsumed
  · obtain ⟨ask, dispatch, -, rfl, -⟩ := hasked.minted
    exact absurd rfl hconsumed

/-! ## The dispatch table -/

theorem get_updateState (t : Table Dispatch.dispatchId) (d d' : String) (p : Dispatch → Bool)
    (state : DispatchState) :
    ((t.updateKey d p (dispatchStatePatch state)).get d').map Dispatch.state =
      (t.get d').map fun r => if d' = d ∧ p r then state else r.state := by
  rw [Table.get_updateKey]
  cases t.get d' with
  | none => rfl
  | some r =>
    show some (if _ then _ else _ : Dispatch).state = some (if _ then _ else _)
    split <;> rfl

/-- What a release does to the state of a dispatch. -/
def releasedState (state : Option DispatchState) (prior : DispatchState) : Option DispatchState :=
  if state = some .awaitingAnswer then some prior else state

theorem dispatchState_release (s : GateStore) (q : RoundQuestion) (d : String) :
    dispatchState (release s q) d =
      if q.dispatchId = d then releasedState (dispatchState s d) (restoredState q)
      else dispatchState s d := by
  refine (get_updateState s.gateDispatch q.dispatchId d _ (restoredState q)).trans ?_
  unfold dispatchState releasedState
  cases s.gateDispatch.get d with
  | none => simp
  | some r =>
    by_cases hd : d = q.dispatchId
    · subst hd
      by_cases hstate : r.state = .awaitingAnswer <;> simp [hstate]
    · have hd' : ¬ q.dispatchId = d := fun h => hd h.symm
      simp [hd, hd']

/-! ## Slots after an operation -/

/-- The slot is unchanged when its dispatch and the view of its questions are. -/
theorem slotOf_eq (hstate : dispatchState s' d = dispatchState s d)
    (hholder : ∀ i, (s'.roundQuestion.get i).bind (holderOf d) =
      (s.roundQuestion.get i).bind (holderOf d)) : slotOf s' d = slotOf s d := by
  unfold slotOf
  rw [hstate, funext hholder]

/-- One question changed, and perhaps the dispatch. -/
theorem slotOf_eq_update {w : Holder (Option DispatchState)}
    (hat : (s'.roundQuestion.get i).bind (holderOf d) = some w)
    (helse : ∀ j, j ≠ i → (s'.roundQuestion.get j).bind (holderOf d) =
      (s.roundQuestion.get j).bind (holderOf d)) :
    slotOf s' d =
      ⟨dispatchState s' d, Function.update (slotOf s d).holder i (some w)⟩ := by
  have hholder : (slotOf s' d).holder = Function.update (slotOf s d).holder i (some w) := by
    funext j
    by_cases hj : j = i
    · subst hj
      rw [Function.update_self]
      exact hat
    · rw [Function.update_of_ne hj]
      exact helse j hj
  rw [← hholder]
  rfl

/-- An update of questions that keeps what the dispatch sees of them. -/
theorem bind_map_holderOf {f : RoundQuestion → RoundQuestion} {x : Option RoundQuestion}
    (hkeep : ∀ q, x = some q → holderOf d (f q) = holderOf d q) :
    (x.map f).bind (holderOf d) = x.bind (holderOf d) := by
  cases x with
  | none => rfl
  | some q => exact hkeep q rfl

theorem holderOf_of_ne (hd : q.dispatchId ≠ d) : holderOf d q = none := if_neg hd

/-- The view of a question is made of three of its columns. -/
theorem holderOf_congr (hd : q'.dispatchId = q.dispatchId)
    (hprior : restoredState q' = restoredState q) (hwaits : waits q' = waits q)
    (hopen : q'.isOpen = q.isOpen) : holderOf d q' = holderOf d q := by
  unfold holderOf
  rw [hd, hprior, hwaits, hopen]

/-! ## Each operation is a move of the slot -/

/-- A consumption comes while no later question of the dispatch waits, or its own question was
asked when the dispatch was suspended already. -/
def ConsumesLast (d : String) (s : GateStore) (op : Op) : Prop :=
  ∀ answerEventId now event q, op = .consume answerEventId now →
    s.questionAnswer.get answerEventId = some event →
    s.roundQuestion.get event.questionId = some q → q.dispatchId = d →
    restoredState q ≠ .awaitingAnswer →
    ∀ j r, s.roundQuestion.get j = some r → r.dispatchId = d → waits r = true →
      j = event.questionId

/-- The dispatch is not overwritten. -/
def NotRecorded (d : String) (op : Op) : Prop :=
  ∀ dispatch, op = .recordDispatch dispatch → dispatch.dispatchId ≠ d

/-- A question enters the slot of its dispatch. -/
theorem step_asked {ask : Ask} {newUlid : String} {dispatch : Dispatch}
    (hdispatch : s.gateDispatch.get ask.dispatchId = some dispatch)
    (hopen : openQuestionForDispatch s ask.dispatchId = none)
    (hfree : s.roundQuestion.get newUlid = none) :
    Slot.Step (some .awaitingAnswer) (slotOf s d)
      (slotOf (asked s ask newUlid dispatch.state) d) := by
  have hget : ∀ j, (asked s ask newUlid dispatch.state).roundQuestion.get j =
      (s.roundQuestion.get j).or
        (if newUlid = j then some (questionRow ask newUlid dispatch.state) else none) :=
    s.roundQuestion.get_insert (questionRow ask newUlid dispatch.state)
  have hstate : dispatchState (asked s ask newUlid dispatch.state) d =
      (s.gateDispatch.get d).map fun r =>
        if d = ask.dispatchId ∧ true = true then .awaitingAnswer else r.state :=
    get_updateState s.gateDispatch ask.dispatchId d (fun _ => true) .awaitingAnswer
  have helse : ∀ j, j ≠ newUlid →
      ((asked s ask newUlid dispatch.state).roundQuestion.get j).bind (holderOf d) =
        (s.roundQuestion.get j).bind (holderOf d) := by
    intro j hj
    rw [hget, if_neg fun h => hj h.symm, Option.or_none]
  have hnew : (asked s ask newUlid dispatch.state).roundQuestion.get newUlid =
      some (questionRow ask newUlid dispatch.state) := by
    rw [hget, hfree, if_pos rfl, Option.none_or]
  by_cases hd : ask.dispatchId = d
  · subst hd
    have hbefore : dispatchState s ask.dispatchId = some dispatch.state := by
      unfold dispatchState
      rw [hdispatch]
      rfl
    have hat : ((asked s ask newUlid dispatch.state).roundQuestion.get newUlid).bind
        (holderOf ask.dispatchId) = some ⟨dispatchState s ask.dispatchId, true, true⟩ := by
      rw [hnew, hbefore]
      exact if_pos rfl
    have hheld : dispatchState (asked s ask newUlid dispatch.state) ask.dispatchId =
        some .awaitingAnswer := by
      rw [hstate, hdispatch, Option.map_some, if_pos ⟨rfl, rfl⟩]
    rw [slotOf_eq_update hat helse, hheld]
    refine Slot.Step.entered newUlid ?_ ?_
    · show (s.roundQuestion.get newUlid).bind _ = none
      rw [hfree]
      rfl
    · intro j w hw
      obtain ⟨q, hq, hqd, rfl⟩ := slotOf_holder_eq_some.mp hw
      exact openQuestionForDispatch_eq_none hopen hq hqd
  · have hsame : slotOf (asked s ask newUlid dispatch.state) d = slotOf s d := by
      refine slotOf_eq ?_ ?_
      · rw [hstate]
        unfold dispatchState
        cases s.gateDispatch.get d with
        | none => rfl
        | some r => exact congrArg some (if_neg fun h => hd h.1.symm)
      · intro j
        by_cases hj : j = newUlid
        · subst hj
          rw [hnew, hfree]
          exact holderOf_of_ne hd
        · exact helse j hj
    rw [hsame]
    exact .same

/-- An answer closes a holder, which goes on waiting. -/
theorem step_answered {a : Answer} {newUlid : String} {now : Int} {record : RoundQuestion}
    (hconsumed : ConsumedAnswered s) (hrecord : s.roundQuestion.get a.questionId = some record)
    (hopen : record.isOpen = true) :
    Slot.Step (some .awaitingAnswer) (slotOf s d) (slotOf (answered s a newUlid now) d) := by
  have hget : ∀ j, (answered s a newUlid now).roundQuestion.get j =
      (s.roundQuestion.get j).map fun q =>
        if j = a.questionId ∧ q.isOpen = true then (answeredPatch newUlid).apply q else q :=
    fun j => s.roundQuestion.get_updateKey a.questionId j _ _
  have helse : ∀ j, j ≠ a.questionId →
      ((answered s a newUlid now).roundQuestion.get j).bind (holderOf d) =
        (s.roundQuestion.get j).bind (holderOf d) := by
    intro j hj
    rw [hget]
    exact bind_map_holderOf fun q _ => by rw [if_neg fun h => hj h.1]
  have hat : (answered s a newUlid now).roundQuestion.get a.questionId =
      some ((answeredPatch newUlid).apply record) := by
    rw [hget, hrecord, Option.map_some, if_pos ⟨rfl, hopen⟩]
  by_cases hd : record.dispatchId = d
  · have hnone : record.consumedAt = none := by
      by_contra hsome
      rw [not_isOpen_of_answered (hconsumed _ record hrecord hsome)] at hopen
      cases hopen
    have hview : ((answered s a newUlid now).roundQuestion.get a.questionId).bind (holderOf d) =
        some { prior := some (restoredState record), waits := waits record, isOpen := false } := by
      rw [hat]
      refine (if_pos hd).trans ?_
      have hwaits : waits ((answeredPatch newUlid).apply record) = waits record := by
        unfold waits
        rw [hopen]
        show (false || (true && record.consumedAt.isNone)) = _
        rw [hnone]
        rfl
      rw [hwaits]
      rfl
    rw [slotOf_eq_update hview helse]
    exact .shut a.questionId _ (slotOf_holder hrecord hd)
  · have hsame : slotOf (answered s a newUlid now) d = slotOf s d := by
      refine slotOf_eq rfl ?_
      intro j
      by_cases hj : j = a.questionId
      · subst hj
        have hpatched : holderOf d ((answeredPatch newUlid).apply record) = none :=
          holderOf_of_ne hd
        rw [hat, hrecord]
        exact hpatched.trans (holderOf_of_ne hd).symm
      · exact helse j hj
    rw [hsame]
    exact .same

/-- The due questions are of different dispatches. -/
theorem dueQuestions_nodup (hsettled : Settled s) (now : Int) :
    ((dueQuestions s now).map RoundQuestion.dispatchId).Nodup := by
  have hids : ((dueQuestions s now).map RoundQuestion.questionId).Nodup :=
    s.roundQuestion.select_nodup _
  have hnodup : (dueQuestions s now).Nodup := List.Nodup.of_map _ hids
  refine hnodup.map_on ?_
  intro q hq r hr hd
  obtain ⟨hqget, hqopen, -⟩ := mem_dueQuestions.mp hq
  obtain ⟨hrget, hropen, -⟩ := mem_dueQuestions.mp hr
  have hid := hsettled.oneOpen _ _ q r hqget hrget hd hqopen hropen
  rw [hid, hrget] at hqget
  exact (Option.some.inj hqget).symm

theorem dispatchState_swept_of_mem (hsettled : Settled s) {now : Int} {q : RoundQuestion}
    (hq : q ∈ dueQuestions s now) :
    dispatchState (swept s now) q.dispatchId =
      releasedState (dispatchState s q.dispatchId) (restoredState q) := by
  unfold dispatchState
  rw [swept_eq]
  show ((s.gateDispatch.updateEach _ _ _ _).get q.dispatchId).map Dispatch.state = _
  rw [Table.get_updateEach_of_mem s.gateDispatch (dueQuestions s now) RoundQuestion.dispatchId
    (fun _ d => d.state == .awaitingAnswer) (fun q => dispatchStatePatch (restoredState q)) q hq
    (dueQuestions_nodup hsettled now)]
  unfold releasedState
  cases s.gateDispatch.get q.dispatchId with
  | none => rfl
  | some r =>
    simp only [Option.map_some, Option.some.injEq]
    by_cases hstate : r.state = .awaitingAnswer
    · rw [if_pos hstate, if_pos (beq_iff_eq.mpr hstate)]
      rfl
    · rw [if_neg hstate, if_neg fun h => hstate (eq_of_beq h)]

theorem dispatchState_swept_of_notMem {now : Int}
    (hnone : ∀ q ∈ dueQuestions s now, q.dispatchId ≠ d) :
    dispatchState (swept s now) d = dispatchState s d := by
  unfold dispatchState
  rw [swept_eq]
  show ((s.gateDispatch.updateEach _ _ _ _).get d).map Dispatch.state = _
  rw [Table.get_updateEach_of_notMem s.gateDispatch (dueQuestions s now) _ _ _ d hnone]

/-- The holders that are due leave. -/
theorem step_swept (hsettled : Settled s) (now : Int) :
    Slot.Step (some .awaitingAnswer) (slotOf s d) (slotOf (swept s now) d) := by
  by_cases hdue : ∃ q ∈ dueQuestions s now, q.dispatchId = d
  · obtain ⟨q, hq, rfl⟩ := hdue
    obtain ⟨hget, hopen, hlate⟩ := mem_dueQuestions.mp hq
    have hat : ((swept s now).roundQuestion.get q.questionId).bind (holderOf q.dispatchId) =
        some { prior := some (restoredState q), waits := false, isOpen := false } := by
      rw [get_swept, hget, Option.map_some, if_pos ⟨hopen, hlate⟩]
      exact if_pos rfl
    have helse : ∀ j, j ≠ q.questionId →
        ((swept s now).roundQuestion.get j).bind (holderOf q.dispatchId) =
          (s.roundQuestion.get j).bind (holderOf q.dispatchId) := by
      intro j hj
      rw [get_swept]
      refine bind_map_holderOf fun r hr => ?_
      split
      · next hcond =>
        -- it is due as well, so it is a question of another dispatch
        have hd : r.dispatchId ≠ q.dispatchId := fun heq =>
          hj (hsettled.oneOpen j _ r q hr hget heq hcond.1 hopen)
        have hpatched : holderOf q.dispatchId ((questionStatePatch .expired).apply r) = none :=
          holderOf_of_ne hd
        exact hpatched.trans (holderOf_of_ne hd).symm
      · rfl
    rw [slotOf_eq_update hat helse, dispatchState_swept_of_mem hsettled hq]
    exact Slot.Step.expired q.questionId _ (slotOf_holder hget rfl) hopen
  · have hnone : ∀ q ∈ dueQuestions s now, q.dispatchId ≠ d := fun q hq hd => hdue ⟨q, hq, hd⟩
    have hsame : slotOf (swept s now) d = slotOf s d := by
      refine slotOf_eq (dispatchState_swept_of_notMem hnone) ?_
      intro j
      rw [get_swept]
      refine bind_map_holderOf fun r hr => ?_
      split
      · next hcond =>
        have hmem : r ∈ dueQuestions s now := by
          rw [mem_dueQuestions, Table.key_of_get hr]
          exact ⟨hr, hcond⟩
        have hd := hnone r hmem
        have hpatched : holderOf d ((questionStatePatch .expired).apply r) = none :=
          holderOf_of_ne hd
        exact hpatched.trans (holderOf_of_ne hd).symm
      · rfl
    rw [hsame]
    exact .same

/-- The store after a consumption. -/
def consumedStore (s : GateStore) (event : QuestionAnswer) (q : RoundQuestion) (now : Int) :
    GateStore :=
  release (received s event now) ((consumedPatch now).apply q)

theorem get_consumedStore (event : QuestionAnswer) (q : RoundQuestion) (now : Int) (j : String) :
    (consumedStore s event q now).roundQuestion.get j = (s.roundQuestion.get j).map fun r =>
      if j = event.questionId ∧ true = true then (consumedPatch now).apply r else r :=
  s.roundQuestion.get_updateKey event.questionId j _ _

theorem dispatchState_consumedStore (event : QuestionAnswer) (q : RoundQuestion) (now : Int) :
    dispatchState (consumedStore s event q now) d =
      if q.dispatchId = d then releasedState (dispatchState s d) (restoredState q)
      else dispatchState s d :=
  dispatchState_release (received s event now) ((consumedPatch now).apply q) d

theorem waits_consumed (hstate : q.state = .answered) (now : Int) :
    waits ((consumedPatch now).apply q) = false := by
  have hclosed := not_isOpen_of_answered hstate
  unfold waits
  show (q.isOpen || (q.state == .answered && false)) = false
  rw [hclosed, Bool.and_false]
  rfl

/-- A holder whose answer is consumed leaves. -/
theorem step_consumed {answerEventId : String} {now : Int} {event : QuestionAnswer}
    (hsettled : Settled s) (hlast : ConsumesLast d s (.consume answerEventId now))
    (hevent : s.questionAnswer.get answerEventId = some event)
    (hget : s.roundQuestion.get event.questionId = some q) :
    Slot.Step (some .awaitingAnswer) (slotOf s d) (slotOf (consumedStore s event q now) d) := by
  have hanswered : q.state = .answered := by
    obtain ⟨q₂, hq₂, hstate, -⟩ := hsettled.answers _ event hevent
    rw [hget] at hq₂
    cases hq₂
    exact hstate
  have helse : ∀ j, j ≠ event.questionId →
      ((consumedStore s event q now).roundQuestion.get j).bind (holderOf d) =
        (s.roundQuestion.get j).bind (holderOf d) := by
    intro j hj
    rw [get_consumedStore]
    exact bind_map_holderOf fun r _ => by rw [if_neg fun h => hj h.1]
  have hafter : (consumedStore s event q now).roundQuestion.get event.questionId =
      some ((consumedPatch now).apply q) := by
    rw [get_consumedStore, hget, Option.map_some, if_pos ⟨rfl, rfl⟩]
  by_cases hd : q.dispatchId = d
  · have hat : ((consumedStore s event q now).roundQuestion.get event.questionId).bind
        (holderOf d) =
          some { prior := some (restoredState q), waits := false, isOpen := false } := by
      rw [hafter]
      refine (if_pos hd).trans ?_
      rw [waits_consumed hanswered]
      show some (Holder.mk (some (restoredState q)) false q.isOpen) = _
      rw [not_isOpen_of_answered hanswered]
    rw [slotOf_eq_update hat helse, dispatchState_consumedStore, if_pos hd]
    refine Slot.Step.left event.questionId _ (slotOf_holder hget hd) ?_
    intro hprior j w hw hwaits
    obtain ⟨r, hr, hrd, rfl⟩ := slotOf_holder_eq_some.mp hw
    exact hlast _ _ event q rfl hevent hget hd (fun heq => hprior (congrArg some heq)) j r hr hrd
      hwaits
  · have hsame : slotOf (consumedStore s event q now) d = slotOf s d := by
      refine slotOf_eq ?_ ?_
      · rw [dispatchState_consumedStore, if_neg hd]
      · intro j
        by_cases hj : j = event.questionId
        · subst hj
          have hpatched : holderOf d ((consumedPatch now).apply q) = none := holderOf_of_ne hd
          rw [hafter, hget]
          exact hpatched.trans (holderOf_of_ne hd).symm
        · exact helse j hj
    rw [hsame]
    exact .same

/-- An operation is a move of the slot when it does not overwrite the dispatch and consumes no
answer out of turn. -/
theorem slot_step (hsettled : Settled s) (hconsumed : ConsumedAnswered s)
    (hexists : (s.gateDispatch.get d).isSome = true) (hnot : NotRecorded d op)
    (hlast : ConsumesLast d s op) :
    Slot.Step (some .awaitingAnswer) (slotOf s d) (slotOf (exec s op) d) := by
  have heffect := effect_exec s op
  generalize exec s op = after at heffect
  cases heffect with
  | recorded dispatch =>
    have hsame : slotOf (recordDispatch s dispatch) d = slotOf s d := by
      have hne := hnot dispatch rfl
      unfold recordDispatch
      split
      · refine slotOf_eq ?_ fun _ => rfl
        unfold dispatchState
        show ((s.gateDispatch.updateKey _ _ _).get d).map Dispatch.state = _
        rw [Table.get_updateKey]
        cases s.gateDispatch.get d with
        | none => rfl
        | some r => rw [Option.map_some, if_neg fun h => hne h.1.symm]
      · refine slotOf_eq ?_ fun _ => rfl
        unfold dispatchState
        show ((s.gateDispatch.insert _).get d).map Dispatch.state = _
        rw [Table.get_insert, if_neg hne, Option.or_none]
    rw [hsame]
    exact .same
  | ensured dispatch =>
    obtain ⟨r, hr⟩ := Option.isSome_iff_exists.mp hexists
    have hsame : slotOf { s with gateDispatch := s.gateDispatch.insert dispatch } d =
        slotOf s d := by
      refine slotOf_eq ?_ fun _ => rfl
      unfold dispatchState
      show ((s.gateDispatch.insert _).get d).map Dispatch.state = _
      rw [Table.get_insert, hr]
      rfl
    rw [hsame]
    exact .same
  | asked ask newUlid dispatch hdispatch hlive hopen hfree =>
    exact step_asked hdispatch hopen hfree
  | answered a newUlid now record hrecord hread hprior hadmitted hfree =>
    exact step_answered hconsumed hrecord (answerAdmissible_eq_none hadmitted).1
  | escalated questionId now record hrecord hpending =>
    have hsame : slotOf { s with
        roundQuestion := s.roundQuestion.updateKey questionId (fun q => q.state == .pending)
          (questionStatePatch .escalated) } d = slotOf s d := by
      refine slotOf_eq rfl ?_
      intro j
      show ((s.roundQuestion.updateKey _ _ _).get j).bind _ = _
      rw [Table.get_updateKey]
      refine bind_map_holderOf fun r _ => ?_
      split
      · next hcond =>
        have hopen : r.isOpen = true := r.isOpen_iff.mpr (.inl (eq_of_beq hcond.2))
        refine holderOf_congr rfl rfl ?_ hopen.symm
        unfold waits
        rw [hopen]
        rfl
      · rfl
    rw [hsame]
    exact .same
  | expired now => exact step_swept hsettled now
  | consumed answerEventId now event record hevent hrecord hread =>
    exact step_consumed hsettled hlast hevent hrecord
  | claimed claim newUlid now transfer hprior hepoch hid hrequest hfree =>
    have hsame : slotOf (claimed s claim transfer) d = slotOf s d := by
      refine slotOf_eq rfl ?_
      intro j
      show ((s.roundQuestion.update _ _).get j).bind _ = _
      rw [Table.get_update]
      refine bind_map_holderOf fun r _ => ?_
      split
      · exact holderOf_congr rfl rfl rfl rfl
      · rfl
    rw [hsame]
    exact .same
  | _ => exact .same

/-! ## Every run -/

/-- The dispatch is suspended exactly while somebody waits for it, and with nobody waiting it is in
its own state. -/
structure SuspendedWhileWaiting (d : String) (own : DispatchState) (s : GateStore) : Prop where
  suspended_iff : dispatchState s d = some .awaitingAnswer ↔
    ∃ i q, s.roundQuestion.get i = some q ∧ q.dispatchId = d ∧ waits q = true
  restored : (¬ ∃ i q, s.roundQuestion.get i = some q ∧ q.dispatchId = d ∧ waits q = true) →
    dispatchState s d = some own

theorem exists_waiting_iff : (∃ i w, (slotOf s d).holder i = some w ∧ w.waits = true) ↔
    ∃ i q, s.roundQuestion.get i = some q ∧ q.dispatchId = d ∧ waits q = true := by
  constructor
  · rintro ⟨i, w, hw, hwaits⟩
    obtain ⟨q, hq, hd, rfl⟩ := slotOf_holder_eq_some.mp hw
    exact ⟨i, q, hq, hd, hwaits⟩
  · rintro ⟨i, q, hq, hd, hwaits⟩
    exact ⟨i, _, slotOf_holder hq hd, hwaits⟩

variable {own : DispatchState}

theorem suspendedWhileWaiting_of_suspends (hown : own ≠ .awaitingAnswer)
    (h : Slot.Suspends (some .awaitingAnswer) (some own) (slotOf s d)) :
    SuspendedWhileWaiting d own s := by
  have hbase : some own ≠ some DispatchState.awaitingAnswer := fun heq =>
    hown (Option.some.inj heq)
  constructor
  · rw [← exists_waiting_iff]
    exact h.held_iff hbase
  · rw [← exists_waiting_iff]
    exact h.state_of_nobody

/-- What a run keeps while it meets the conditions of `slot_step`. -/
structure KeepsSlot (d : String) (own : DispatchState) (s : GateStore) : Prop where
  settled : Settled s
  consumed : ConsumedAnswered s
  suspends : Slot.Suspends (some .awaitingAnswer) (some own) (slotOf s d)

theorem KeepsSlot.dispatch_isSome (h : KeepsSlot d own s) :
    (s.gateDispatch.get d).isSome = true := by
  have hstate : (dispatchState s d).isSome = true := by
    obtain ⟨hidle, -⟩ | ⟨j, r, hheld, -⟩ := h.suspends.phase
    · have hidle : dispatchState s d = some own := hidle
      rw [hidle]
      rfl
    · have hheld : dispatchState s d = some .awaitingAnswer := hheld
      rw [hheld]
      rfl
  unfold dispatchState at hstate
  rwa [Option.isSome_map] at hstate

theorem KeepsSlot.exec (h : KeepsSlot d own s) (hown : own ≠ .awaitingAnswer)
    (hnot : NotRecorded d op) (hlast : ConsumesLast d s op) :
    KeepsSlot d own (Gate.exec s op) where
  settled := h.settled.exec op
  consumed := h.consumed.exec h.settled op
  suspends := h.suspends.step (fun heq => hown (Option.some.inj heq))
    (slot_step h.settled h.consumed h.dispatch_isSome hnot hlast)

theorem consumedAnswered_run (ops : List Op) : ConsumedAnswered (run exec .empty ops) := by
  have hboth : Settled (run exec .empty ops) ∧ ConsumedAnswered (run exec .empty ops) := by
    refine run_invariant (fun s => Settled s ∧ ConsumedAnswered s) ?_ .empty ?_ ops
    · intro s op h
      exact ⟨h.1.exec op, h.2.exec h.1 op⟩
    · refine ⟨settled_empty, ?_⟩
      intro i q hq
      cases hq
  exact hboth.2

/-- The consumption of a recorded answer goes through. -/
theorem exec_consume (hsettled : Settled s) {answerEventId : String} (now : Int)
    {event : QuestionAnswer} (hevent : s.questionAnswer.get answerEventId = some event)
    (hget : s.roundQuestion.get event.questionId = some q) :
    exec s (.consume answerEventId now) = consumedStore s event q now := by
  have hanswered : q.state = .answered := by
    obtain ⟨q₂, hq₂, hstate, -⟩ := hsettled.answers _ event hevent
    rw [hget] at hq₂
    cases hq₂
    exact hstate
  have hread : rowToQuestion ((consumedPatch now).apply q) = .ok ((consumedPatch now).apply q) :=
    if_neg (hsettled.readable _ q hget hanswered)
  have hafter : (s.roundQuestion.updateKey event.questionId (fun _ => true)
      (consumedPatch now)).get event.questionId = some ((consumedPatch now).apply q) := by
    rw [Table.get_updateKey, hget, Option.map_some, if_pos ⟨rfl, rfl⟩]
  have hresult : markAnswerConsumed s answerEventId now = .ok (consumedStore s event q now) := by
    unfold markAnswerConsumed
    rw [hevent]
    dsimp only
    rw [hafter]
    show (rowToQuestion ((consumedPatch now).apply q) >>= _) = _
    rw [hread, ← Table.key_of_get hevent]
    rfl
  show committed s ((markAnswerConsumed s answerEventId now).map fun s' => ((), s')) = _
  rw [hresult]
  rfl

/-- A consumption out of turn releases the dispatch under a question that still waits. -/
theorem not_suspended_of_consume (hsettled : Settled s) {answerEventId j : String} {now : Int}
    {event : QuestionAnswer} {r : RoundQuestion}
    (hbefore : SuspendedWhileWaiting d own s)
    (hevent : s.questionAnswer.get answerEventId = some event)
    (hget : s.roundQuestion.get event.questionId = some q) (hd : q.dispatchId = d)
    (hprior : restoredState q ≠ .awaitingAnswer) (hr : s.roundQuestion.get j = some r)
    (hrd : r.dispatchId = d) (hwaits : waits r = true) (hj : j ≠ event.questionId) :
    ¬ SuspendedWhileWaiting d own (exec s (.consume answerEventId now)) := by
  intro hafter
  rw [exec_consume hsettled now hevent hget] at hafter
  have hr' : (consumedStore s event q now).roundQuestion.get j = some r := by
    rw [get_consumedStore, hr, Option.map_some, if_neg fun h => hj h.1]
  have hheld : dispatchState s d = some .awaitingAnswer :=
    hbefore.suspended_iff.mpr ⟨j, r, hr, hrd, hwaits⟩
  have hstill := hafter.suspended_iff.mpr ⟨j, r, hr', hrd, hwaits⟩
  rw [dispatchState_consumedStore, if_pos hd, hheld] at hstill
  have hreleased : some (restoredState q) = some DispatchState.awaitingAnswer := hstill
  exact hprior (Option.some.inj hreleased)

/-- A dispatch that nobody asked anything of yet, and that no `record_dispatch` rewrites, is
suspended exactly while somebody waits, and otherwise in its own state, if and only if its own
state is not AWAITING_ANSWER and no answer is consumed while another question of the dispatch
waits. -/
theorem suspendedWhileWaiting_iff (d : String) (before ops : List Op)
    (hdispatch : dispatchState (run exec .empty before) d = some own)
    (hfresh : ∀ i q, (run exec .empty before).roundQuestion.get i = some q → q.dispatchId ≠ d)
    (hnot : ∀ op ∈ ops, NotRecorded d op) :
    (∀ done rest, ops = done ++ rest →
      SuspendedWhileWaiting d own (run exec (run exec .empty before) done)) ↔
      own ≠ .awaitingAnswer ∧ StepsSatisfy exec (ConsumesLast d) (run exec .empty before) ops := by
  constructor
  · intro h
    constructor
    · rintro rfl
      obtain ⟨i, q, hq, hd, -⟩ := (h [] ops rfl).suspended_iff.mp hdispatch
      exact hfresh i q hq hd
    · rw [stepsSatisfy_iff]
      rintro done op rest rfl answerEventId now event q rfl hevent hget hd hprior j r hr hrd hwaits
      by_contra hj
      have hnow := h done _ rfl
      have hnext := h (done ++ [.consume answerEventId now]) rest (by simp)
      rw [run_concat] at hnext
      have hsettled : Settled (run exec (run exec .empty before) done) := by
        rw [← run_append]
        exact settled_run _
      exact not_suspended_of_consume hsettled hnow hevent hget hd hprior hr hrd hwaits hj hnext
  · rintro ⟨hown, hlast⟩ done rest rfl
    rw [stepsSatisfy_append] at hlast
    have hfree : ∀ i, (slotOf (run exec .empty before) d).holder i = none := by
      intro i
      cases hw : (slotOf (run exec .empty before) d).holder i with
      | none => rfl
      | some w =>
        obtain ⟨q, hq, hd, -⟩ := slotOf_holder_eq_some.mp hw
        exact absurd hd (hfresh i q hq)
    have hstart : KeepsSlot d own (run exec .empty before) := by
      refine ⟨settled_run before, consumedAnswered_run before, ?_⟩
      have hstate : (slotOf (run exec .empty before) d).state = some own := hdispatch
      rw [← hstate]
      exact Slot.suspends_of_free hfree
    have hkeeps : KeepsSlot d own (run exec (run exec .empty before) done) := by
      have hsteps : StepsSatisfy exec (fun s op => NotRecorded d op ∧ ConsumesLast d s op)
          (run exec .empty before) done := by
        rw [stepsSatisfy_iff] at hlast ⊢
        rintro xs op ys rfl
        exact ⟨hnot op (by simp), hlast.1 xs op ys rfl⟩
      exact run_invariant_of _ (KeepsSlot d own)
        (fun s op hcond h => h.exec hown hcond.1 hcond.2) _ hstart done hsteps
    exact suspendedWhileWaiting_of_suspends hown hkeeps.suspends

/-- A dispatch and the two questions it asks. -/
def askingDispatch : Dispatch :=
  { dispatchId := "d1", position := "builder", requestId := "r1", state := .dispatched }

def secondAsk : Ask :=
  { firstAsk with
    clientRequestId := "k2", question := "b?", askedAt := 2
    clientRequestId_ne := by decide
    question_ne := by decide }

theorem firstAnswer_request : "a1" ≠ "" := by decide

def firstAnswer : Answer :=
  { questionId := "q1", answer := "yes", answeredBy := "sup", clientRequestId := "a1"
    callerConversation := "sup", answeredBy_ne := firstAsk.ownerConversation_ne
    clientRequestId_ne := firstAnswer_request }

/-- The second question is asked before the answer of the first is taken in. -/
def overlappingQuestions : List Op :=
  [.ask firstAsk "q1", .answer firstAnswer "e1" 1, .ask secondAsk "q2", .consume "e1" 3]

/-- Both sides fail where two questions overlap. -/
theorem suspendedWhileWaiting_iff_overlapping :
    (∀ done rest, overlappingQuestions = done ++ rest →
      SuspendedWhileWaiting "d1" .dispatched
        (run exec (run exec .empty [.recordDispatch askingDispatch]) done)) ↔
      DispatchState.dispatched ≠ .awaitingAnswer ∧ StepsSatisfy exec (ConsumesLast "d1")
        (run exec .empty [.recordDispatch askingDispatch]) overlappingQuestions := by
  refine suspendedWhileWaiting_iff "d1" [.recordDispatch askingDispatch] overlappingQuestions
    rfl ?_ ?_
  · intro i q hq
    cases hq
  · intro op hop dispatch heq
    subst heq
    simp [overlappingQuestions] at hop

/-- The dispatch is back in DISPATCHED while its second question is open. -/
theorem not_suspendedWhileWaiting_overlapping :
    ¬ SuspendedWhileWaiting "d1" .dispatched
      (run exec .empty (.recordDispatch askingDispatch :: overlappingQuestions)) := by
  intro h
  have hstate : dispatchState (run exec .empty
      (.recordDispatch askingDispatch :: overlappingQuestions)) "d1" = some .dispatched := by
    decide +kernel
  have hopen : ∃ q, (run exec .empty
      (.recordDispatch askingDispatch :: overlappingQuestions)).roundQuestion.get "q2" = some q ∧
        q.dispatchId = "d1" ∧ waits q = true := by
    refine ⟨questionRow secondAsk "q2" .awaitingAnswer, ?_, rfl, rfl⟩
    decide +kernel
  obtain ⟨q, hq, hd, hwaits⟩ := hopen
  have hheld := h.suspended_iff.mpr ⟨"q2", q, hq, hd, hwaits⟩
  rw [hstate] at hheld
  cases hheld

end CliAgentOrchestrator.Gate
