import CliAgentOrchestrator.Gate.Question

/-!
# Ownership epochs

A claim is guarded by the highest epoch among the outgoing conversation's runs. That guard covers
every run the claim rewrites; the open questions it rewrites are not looked at.
-/

set_option autoImplicit false

namespace CliAgentOrchestrator.Gate

open CliAgentOrchestrator.Core Library

variable {s : GateStore} {op : Op} {i : String} {claim : OwnershipClaim} {newUlid : String}
  {now : Int}

/-! ## The guard and the runs -/

/-- The guard is at least the epoch of every run of the conversation. -/
theorem le_priorEpoch {run : GateRun} (hget : s.gateRun.get i = some run) :
    run.ownerEpoch ≤ priorEpoch s run.ownerConversation := by
  have hmem : run.ownerEpoch ∈ (s.gateRun.select fun r =>
      r.ownerConversation == run.ownerConversation).map GateRun.ownerEpoch := by
    refine List.mem_map_of_mem ?_
    rw [Table.mem_select_iff, Table.key_of_get hget]
    exact ⟨hget, beq_self_eq_true _⟩
  unfold priorEpoch
  cases hmax : ((s.gateRun.select fun r =>
      r.ownerConversation == run.ownerConversation).map GateRun.ownerEpoch).max? with
  | none =>
    rw [List.max?_eq_none_iff] at hmax
    rw [hmax] at hmem
    cases hmem
  | some highest => exact (List.max?_eq_some_iff.mp hmax).2 _ hmem

/-- The epochs of the runs are those of `GateRun`, which does not accept a negative one. -/
def EpochsNonneg (s : GateStore) : Prop :=
  ∀ i run, s.gateRun.get i = some run → 0 ≤ run.ownerEpoch

/-- A claim that is accepted is above every run it rewrites. -/
theorem EpochsNonneg.lt_newEpoch (h : EpochsNonneg s) {run : GateRun}
    (hguard : 0 ≤ priorEpoch s claim.priorConversation →
      priorEpoch s claim.priorConversation < claim.newEpoch)
    (hget : s.gateRun.get i = some run) (hclaims : claimsRun claim run = true) :
    run.ownerEpoch < claim.newEpoch := by
  unfold claimsRun at hclaims
  rw [Bool.and_eq_true, beq_iff_eq] at hclaims
  have hle := le_priorEpoch hget
  rw [hclaims.1] at hle
  have hnonneg := h i run hget
  have hlt := hguard (by omega)
  omega

theorem EpochsNonneg.exec (h : EpochsNonneg s) (op : Op) : EpochsNonneg (Gate.exec s op) := by
  have heffect := effect_exec s op
  generalize Gate.exec s op = after at heffect
  cases heffect with
  | openedRun draft newUlid new hfree hepoch =>
    intro i run hget
    have hcases := (s.gateRun.get_insert new i).symm.trans hget
    obtain hold | ⟨-, hnew⟩ := Option.or_eq_some_iff.mp hcases
    · exact h i run hold
    · split at hnew
      · cases hnew
        exact hepoch
      · cases hnew
  | recorded dispatch =>
    unfold recordDispatch
    split <;> exact h
  | expired now =>
    rw [swept_eq]
    exact h
  | claimed claim newUlid now transfer hprior hguard hid hrequest hfree =>
    intro i run' hget
    have hcases := (s.gateRun.get_update (claimsRun claim) (ownRunPatch claim) i).symm.trans hget
    obtain ⟨run, hrun, rfl⟩ := Option.map_eq_some_iff.mp hcases
    have hnonneg := h i run hrun
    split
    · next hclaims =>
      have hlt := h.lt_newEpoch hguard hrun hclaims
      show 0 ≤ claim.newEpoch
      omega
    · exact hnonneg
  | _ => exact h

theorem epochsNonneg_run (ops : List Op) : EpochsNonneg (run exec .empty ops) := by
  refine run_invariant EpochsNonneg (fun _ op h => h.exec op) .empty ?_ ops
  intro i run hget
  cases hget

/-! ## Transfers -/

/-- The claim was made before under its request id. -/
def Transferred (s : GateStore) (clientRequestId : String) : Prop :=
  ∃ transfer, s.ownershipTransfer.get transfer.transferId = some transfer ∧
    transfer.clientRequestId = clientRequestId

theorem priorTransfer_eq_none {clientRequestId : String} :
    priorTransfer s clientRequestId = none ↔ ¬ Transferred s clientRequestId := by
  unfold priorTransfer Transferred
  rw [List.head?_eq_none_iff, List.eq_nil_iff_forall_not_mem]
  constructor
  · rintro h ⟨transfer, hget, hrequest⟩
    refine h transfer ?_
    rw [Table.mem_select_iff, beq_iff_eq]
    exact ⟨hget, hrequest⟩
  · intro h transfer hmem
    rw [Table.mem_select_iff, beq_iff_eq] at hmem
    exact h ⟨transfer, hmem⟩

/-- Transfers are never taken back. -/
theorem Transferred.exec {clientRequestId : String} (h : Transferred s clientRequestId) (op : Op) :
    Transferred (Gate.exec s op) clientRequestId := by
  have heffect := effect_exec s op
  generalize Gate.exec s op = after at heffect
  obtain ⟨transfer, hget, hrequest⟩ := h
  refine ⟨transfer, ?_, hrequest⟩
  cases heffect with
  | recorded dispatch =>
    unfold recordDispatch
    split <;> exact hget
  | expired now =>
    rw [swept_eq]
    exact hget
  | claimed claim newUlid now new hprior hguard hid hnew hfree =>
    refine (s.ownershipTransfer.get_insert new transfer.transferId).trans ?_
    rw [hget]
    rfl
  | _ => exact hget

theorem Transferred.run {clientRequestId : String} (h : Transferred s clientRequestId)
    (ops : List Op) : Transferred (Library.run Gate.exec s ops) clientRequestId :=
  run_invariant (fun s => Transferred s clientRequestId) (fun _ op h => h.exec op) s h ops

/-- A claim under a request id that was transferred answers that transfer and writes nothing. -/
theorem exec_claim_of_transferred (h : Transferred s claim.clientRequestId) :
    exec s (.claim claim newUlid now) = s := by
  have heffect := effect_exec s (.claim claim newUlid now)
  generalize exec s (.claim claim newUlid now) = after at heffect
  cases heffect with
  | idle => rfl
  | claimed _ _ _ transfer hprior => exact absurd h (priorTransfer_eq_none.mp hprior)

/-! ## When a claim is accepted -/

/-- The guard of a claim: it is not a replay, it is above the outgoing conversation's runs, and
its transfer id is free. -/
structure Admitted (s : GateStore) (claim : OwnershipClaim) (newUlid : String) : Prop where
  fresh : ¬ Transferred s claim.clientRequestId
  above : 0 ≤ priorEpoch s claim.priorConversation →
    priorEpoch s claim.priorConversation < claim.newEpoch
  free : s.ownershipTransfer.get newUlid = none

/-- A claim that is admitted is accepted. -/
theorem Admitted.exec (h : Admitted s claim newUlid) (now : Int) :
    Gate.exec s (.claim claim newUlid now) = claimed s claim (transferRow s claim newUlid now) := by
  have hprior := priorTransfer_eq_none.mpr h.fresh
  have hguard : ¬ (0 ≤ priorEpoch s claim.priorConversation ∧
      epochSupersedes (priorEpoch s claim.priorConversation) claim.newEpoch = false) := by
    rintro ⟨hnonneg, hbelow⟩
    exact of_decide_eq_false hbelow (h.above hnonneg)
  have hinsert : insertRow s.ownershipTransfer (transferRow s claim newUlid now) =
      .ok (s.ownershipTransfer.insert (transferRow s claim newUlid now)) := by
    have hfree : s.ownershipTransfer.get (transferRow s claim newUlid now).transferId = none :=
      h.free
    unfold insertRow
    rw [hfree]
    rfl
  show committed s (claimOwnership s claim newUlid now) = _
  unfold claimOwnership
  rw [hprior]
  show committed s (if _ then _ else _) = _
  rw [if_neg hguard]
  show committed s (insertRow s.ownershipTransfer (transferRow s claim newUlid now) >>= _) = _
  rw [hinsert]
  rfl

/-- The claim is answered as accepted, made now or before. -/
def Accepted (s : GateStore) (claim : OwnershipClaim) (newUlid : String) (now : Int) : Prop :=
  ∃ result s', claimOwnership s claim newUlid now = .ok (result, s') ∧ result.accepted = true

/-- A claim that is accepted is a replay or is admitted. -/
theorem Accepted.cases (h : Accepted s claim newUlid now) :
    Transferred s claim.clientRequestId ∨ Admitted s claim newUlid := by
  by_cases hfresh : Transferred s claim.clientRequestId
  · exact .inl hfresh
  right
  obtain ⟨result, s', hresult, haccepted⟩ := h
  unfold claimOwnership at hresult
  rw [priorTransfer_eq_none.mpr hfresh] at hresult
  simp only at hresult
  split at hresult
  · -- refused
    obtain rfl := congrArg Prod.fst (Except.ok.inj hresult)
    cases haccepted
  · next hguard =>
    obtain ⟨transfers, htransfers, -⟩ := bind_eq_ok hresult
    refine ⟨hfresh, ?_, (insertRow_eq_ok htransfers).1⟩
    intro hnonneg
    rw [not_and, Bool.not_eq_false] at hguard
    exact of_decide_eq_true (hguard hnonneg)

/-- An accepted claim leaves its transfer behind. -/
theorem Accepted.transferred (h : Accepted s claim newUlid now) :
    Transferred (exec s (.claim claim newUlid now)) claim.clientRequestId := by
  obtain hbefore | hadmitted := h.cases
  · exact hbefore.exec _
  · rw [hadmitted.exec now]
    refine ⟨transferRow s claim newUlid now, ?_, rfl⟩
    refine (s.ownershipTransfer.get_insert (transferRow s claim newUlid now) newUlid).trans ?_
    rw [hadmitted.free, Option.none_or]
    exact if_pos rfl

/-! ## Epochs -/

/-- No claim takes a row at its own epoch or a higher one, and what it takes gets a higher
epoch. -/
structure RaisesEpochs (s : GateStore) (claim : OwnershipClaim) (newUlid : String) (now : Int) :
    Prop where
  runs : ∀ i run run', s.gateRun.get i = some run →
    (exec s (.claim claim newUlid now)).gateRun.get i = some run' →
    (claim.newEpoch ≤ run.ownerEpoch → run' = run) ∧
      (run' ≠ run → run.ownerEpoch < run'.ownerEpoch)
  questions : ∀ i q q', s.roundQuestion.get i = some q →
    (exec s (.claim claim newUlid now)).roundQuestion.get i = some q' →
    (claim.newEpoch ≤ q.ownerEpoch → q' = q) ∧ (q' ≠ q → q.ownerEpoch < q'.ownerEpoch)

/-- In every claim of the run epochs go up, and a claim replayed under the request id of an
accepted one changes nothing. -/
structure EpochsMonotone (ops : List Op) : Prop where
  raises : ∀ done claim newUlid now rest, ops = done ++ .claim claim newUlid now :: rest →
    RaisesEpochs (run exec .empty done) claim newUlid now
  replays : ∀ before first firstUlid firstNow between claim newUlid now rest,
    ops = before ++ .claim first firstUlid firstNow ::
      (between ++ .claim claim newUlid now :: rest) →
    Accepted (run exec .empty before) first firstUlid firstNow →
    claim.clientRequestId = first.clientRequestId →
    let s := run exec (exec (run exec .empty before) (.claim first firstUlid firstNow)) between
    exec s (.claim claim newUlid now) = s

/-- No run of the question's conversation reaches its epoch, so no guard of a claim sees it. -/
def Unseen (s : GateStore) (q : RoundQuestion) : Prop :=
  ∀ i run, s.gateRun.get i = some run → run.ownerConversation = q.ownerConversation →
    run.ownerEpoch < q.ownerEpoch

/-- A claim that is admitted meets no unseen open question at its own epoch or a higher one. -/
def OutranksUnseen (s : GateStore) (op : Op) : Prop :=
  ∀ claim newUlid now, op = .claim claim newUlid now → Admitted s claim newUlid →
    ∀ i q, s.roundQuestion.get i = some q → claimsQuestion s claim q = true → Unseen s q →
      q.ownerEpoch < claim.newEpoch

/-- The guard covers the questions that some run of the conversation reaches. -/
theorem EpochsNonneg.lt_of_outranks (h : EpochsNonneg s)
    (habove : OutranksUnseen s (.claim claim newUlid now)) (hadmitted : Admitted s claim newUlid)
    {q : RoundQuestion} (hq : s.roundQuestion.get i = some q)
    (hclaims : claimsQuestion s claim q = true) : q.ownerEpoch < claim.newEpoch := by
  by_cases hunseen : Unseen s q
  · exact habove claim newUlid now rfl hadmitted i q hq hclaims hunseen
  · unfold Unseen at hunseen
    push Not at hunseen
    obtain ⟨j, run, hget, hconversation, hle⟩ := hunseen
    have hprior : q.ownerConversation = claim.priorConversation := by
      unfold claimsQuestion at hclaims
      simp only [Bool.and_eq_true, beq_iff_eq] at hclaims
      exact hclaims.1.1
    have hhighest := le_priorEpoch hget
    rw [hconversation, hprior] at hhighest
    have hnonneg := h j run hget
    have hguard := hadmitted.above (by omega)
    omega

theorem raisesEpochs_of_outranks (h : EpochsNonneg s)
    (habove : OutranksUnseen s (.claim claim newUlid now)) : RaisesEpochs s claim newUlid now := by
  have heffect := effect_exec s (.claim claim newUlid now)
  generalize hafter : exec s (.claim claim newUlid now) = after at heffect
  constructor
  · intro i run run' hrun hrun'
    rw [hafter] at hrun'
    cases heffect with
    | idle =>
      cases hrun.symm.trans hrun'
      exact ⟨fun _ => rfl, fun hne => absurd rfl hne⟩
    | claimed _ _ _ transfer hprior hguard hid hrequest hfree =>
      have hcases := (s.gateRun.get_update (claimsRun claim) (ownRunPatch claim) i).symm.trans hrun'
      rw [hrun, Option.map_some, Option.some.injEq] at hcases
      subst hcases
      split
      · next hclaims =>
        have hlt := h.lt_newEpoch hguard hrun hclaims
        exact ⟨fun hle => absurd hlt (Int.not_lt.mpr hle), fun _ => hlt⟩
      · exact ⟨fun _ => rfl, fun hne => absurd rfl hne⟩
  · intro i q q' hq hq'
    rw [hafter] at hq'
    cases heffect with
    | idle =>
      cases hq.symm.trans hq'
      exact ⟨fun _ => rfl, fun hne => absurd rfl hne⟩
    | claimed _ _ _ transfer hprior hguard hid hrequest hfree =>
      have hcases := (s.roundQuestion.get_update (claimsQuestion s claim) (ownQuestionPatch claim)
        i).symm.trans hq'
      rw [hq, Option.map_some, Option.some.injEq] at hcases
      subst hcases
      split
      · next hclaims =>
        have hadmitted : Admitted s claim newUlid :=
          ⟨priorTransfer_eq_none.mp hprior, hguard, hfree⟩
        have hlt := h.lt_of_outranks habove hadmitted hq hclaims
        exact ⟨fun hle => absurd hlt (Int.not_lt.mpr hle), fun _ => hlt⟩
      · exact ⟨fun _ => rfl, fun hne => absurd rfl hne⟩

theorem outranks_of_raisesEpochs
    (h : ∀ claim newUlid now, op = .claim claim newUlid now → RaisesEpochs s claim newUlid now) :
    OutranksUnseen s op := by
  rintro claim newUlid now rfl hadmitted i q hq hclaims -
  have hq' : (exec s (.claim claim newUlid now)).roundQuestion.get i =
      some ((ownQuestionPatch claim).apply q) := by
    rw [hadmitted.exec now]
    refine (s.roundQuestion.get_update (claimsQuestion s claim) (ownQuestionPatch claim) i).trans ?_
    rw [hq, Option.map_some, if_pos hclaims]
  refine ((h claim newUlid now rfl).questions i q _ hq hq').2 ?_
  intro heq
  -- a rewritten row has a new row version
  have hversion : q.rowVersion + 1 = q.rowVersion := congrArg RoundQuestion.rowVersion heq
  omega

/-- Ownership epochs are monotone in a run if and only if every claim that is admitted outranks
the open questions of its conversation that no run of the conversation reaches. -/
theorem epochsMonotone_iff (ops : List Op) :
    EpochsMonotone ops ↔ StepsSatisfy exec OutranksUnseen .empty ops := by
  rw [stepsSatisfy_iff]
  constructor
  · rintro h done op rest rfl
    refine outranks_of_raisesEpochs ?_
    rintro claim newUlid now rfl
    exact h.raises done claim newUlid now rest rfl
  · intro h
    constructor
    · intro done claim newUlid now rest hops
      exact raisesEpochs_of_outranks (epochsNonneg_run done) (h done _ rest hops)
    · intro before first firstUlid firstNow between claim newUlid now rest hops haccepted hrequest
      refine exec_claim_of_transferred ?_
      rw [hrequest]
      exact haccepted.transferred.run between

/-- A lane without a run asks at epoch 5, and a claim takes its question to epoch 1. -/
def loweringClaim : OwnershipClaim :=
  { priorConversation := "sup", newConversation := "sup2", newEpoch := 1
    clientRequestId := "c1", claimedBy := "op" }

def askedAtEpochFive : List Op :=
  [.recordDispatch { dispatchId := "d1", position := "builder", requestId := "r1" },
    .ask { firstAsk with ownerEpoch := 5, ownerEpoch_nonneg := by decide } "q1"]

/-- A claim of epoch 1 lowers a question asked at epoch 5. -/
theorem not_epochsMonotone_lowered :
    ¬ EpochsMonotone (askedAtEpochFive ++ [.claim loweringClaim "t1" 1]) := by
  intro h
  have hclaim := (h.raises askedAtEpochFive loweringClaim "t1" 1 [] rfl).questions
  have hboth : ∃ q q', (run exec .empty askedAtEpochFive).roundQuestion.get "q1" = some q ∧
      (exec (run exec .empty askedAtEpochFive) (.claim loweringClaim "t1" 1)).roundQuestion.get
        "q1" = some q' ∧ q.ownerEpoch = 5 ∧ q'.ownerEpoch = 1 := by
    refine ⟨_, _, by cbv, by cbv, by cbv, by cbv⟩
  obtain ⟨q, q', hq, hq', hfive, hone⟩ := hboth
  have hsame := (hclaim "q1" q q' hq hq').1 (by rw [hfive]; decide)
  rw [hsame, hfive] at hone
  cases hone

end CliAgentOrchestrator.Gate
