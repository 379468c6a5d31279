import CliAgentOrchestrator.Queue.Operation

/-!
# What holds of every row of every reachable store

The columns only the INSERT writes, and the facts about the others that every statement keeps:
a lease never outlives the deadline by more than one lease, and a row that has not ended still
has an attempt to spend.
-/

set_option autoImplicit false

namespace CliAgentOrchestrator.Queue

open CliAgentOrchestrator.Core Library

variable {sha256 : String → String} {s : Store} {r r' : QueueMessage} {op : Op} {l : Option DeadLetter}

/-! ## Columns written once -/

/-- The columns of a row that no statement writes after the INSERT. -/
structure FixedColumns where
  msgId : String
  idempotencyKey : String
  senderId : String
  kind : MsgKind
  mode : QueueMode
  maxAttempts : Int
  deadBy : Int
  expireAfterS : Option Int
  supersedeKey : Option String
  cancelOnComplete : Bool
  isNotice : Bool
  legacyMessageId : Option Int
  createdAt : Int

/-- The once-written columns of a row. -/
def fixedColumns (r : QueueMessage) : FixedColumns where
  msgId := r.msgId
  idempotencyKey := r.idempotencyKey
  senderId := r.senderId
  kind := r.kind
  mode := r.mode
  maxAttempts := r.maxAttempts
  deadBy := r.deadBy
  expireAfterS := r.expireAfterS
  supersedeKey := r.supersedeKey
  cancelOnComplete := r.cancelOnComplete
  isNotice := r.isNotice
  legacyMessageId := r.legacyMessageId
  createdAt := r.createdAt

theorem fixedColumns_withAttempts (attempts : Option Int) (r : QueueMessage) :
    fixedColumns (withAttempts attempts r) = fixedColumns r := by
  cases attempts <;> rfl

theorem fixedColumns_reofferRow (s : Store) (now : Int) (r : QueueMessage) :
    fixedColumns (reofferRow s now r) = fixedColumns r := by
  obtain ⟨-, h⟩ | ⟨-, -, h⟩ | ⟨-, -, h⟩ := reofferRow_cases s now r <;> rw [h] <;> rfl

theorem fixedColumns_reclaimRow (s : Store) (now : Int) (r : QueueMessage) :
    fixedColumns (reclaimRow s now r) = fixedColumns r := by
  obtain ⟨h, -⟩ | ⟨h, -⟩ := reclaimRow_cases s now r
  · rw [h]
    exact fixedColumns_reofferRow s now r
  · rw [h]
    exact fixedColumns_reofferRow s now r

theorem RowStep.fixedColumns (hstep : RowStep sha256 s r op r' l) :
    fixedColumns r' = fixedColumns r := by
  cases hstep with
  | reclaimed => exact fixedColumns_reclaimRow s _ r
  | settled _ _ _ _ =>
    unfold settleRow
    split <;> exact fixedColumns_withAttempts _ r
  | _ => rfl

theorem receiverId_reofferRow (s : Store) (now : Int) (r : QueueMessage) :
    (reofferRow s now r).receiverId = r.receiverId := by
  obtain ⟨-, h⟩ | ⟨-, -, h⟩ | ⟨-, -, h⟩ := reofferRow_cases s now r <;> rw [h] <;> rfl

/-- A row changes hands by `reparent` alone. -/
theorem RowStep.receiverId (hstep : RowStep sha256 s r op r' l)
    (hop : ∀ msgId newReceiverId now messagePrefix,
      op ≠ .reparent msgId newReceiverId now messagePrefix) :
    r'.receiverId = r.receiverId := by
  cases hstep with
  | reclaimed =>
    obtain ⟨h, -⟩ | ⟨h, -⟩ := reclaimRow_cases s _ r
    · rw [h, receiverId_reofferRow]
    · rw [h]
      exact receiverId_reofferRow s _ r
  | @settled _ state now _ attempts _ _ _ _ =>
    unfold settleRow
    cases attempts <;> split <;> rfl
  | moved _ => exact absurd rfl (hop _ _ _ _)
  | _ => rfl

theorem barrierId_reofferRow (s : Store) (now : Int) (r : QueueMessage) :
    (reofferRow s now r).barrierId = r.barrierId := by
  obtain ⟨-, h⟩ | ⟨-, -, h⟩ | ⟨-, -, h⟩ := reofferRow_cases s now r <;> rw [h] <;> rfl

/-- A row stays with its barrier. -/
theorem RowStep.barrierId (hstep : RowStep sha256 s r op r' l) : r'.barrierId = r.barrierId := by
  cases hstep with
  | reclaimed =>
    obtain ⟨h, -⟩ | ⟨h, -⟩ := reclaimRow_cases s _ r
    · rw [h, barrierId_reofferRow]
    · rw [h]
      exact barrierId_reofferRow s _ r
  | @settled _ state now _ attempts _ _ _ _ =>
    unfold settleRow
    cases attempts <;> split <;> rfl
  | _ => rfl

/-- A row keeps its once-written columns along a run that does not mint its id again. -/
theorem run_fixedColumns {m : String} (ops : List Op) (hnew : m ∉ minted ops)
    (h : s.get m = some r) (h' : (run (exec sha256) s ops).get m = some r') :
    fixedColumns r' = fixedColumns r :=
  run_row_rel (Q := fun a b => Queue.fixedColumns b = Queue.fixedColumns a) (fun _ => rfl)
    (fun _ _ _ hab hbc => hbc.trans hab) (fun hstep => hstep.fixedColumns) ops hnew h h'

/-! ## The invariant -/

/-- What every row of a reachable store satisfies. -/
structure RowInv (r : QueueMessage) : Prop where
  /-- A lease is granted before the deadline, so it ends within one lease of it. -/
  lease_lt : r.state = .leased →
    ∃ e, r.leaseExpiresAt = some e ∧ e < r.deadBy + seconds deliveryLeaseS
  /-- A row out of attempts dies in the `reclaim` that spent the last one. -/
  attempts_lt : r.terminal = false → r.attempts < r.maxAttempts
  attempts_nonneg : r.terminal = false → 0 ≤ r.attempts
  claimId_nonneg : 0 ≤ r.claimId

theorem RowInv.draftRow (sha256 : String → String) (draft : EnqueueDraft) (newUlid : String)
    (now : Int) : RowInv (draftRow sha256 draft newUlid now) where
  lease_lt h := by cases h
  attempts_lt _ := by
    have := draft.one_le_maxAttempts
    show (0 : Int) < draft.maxAttempts
    omega
  attempts_nonneg _ := le_refl (0 : Int)
  claimId_nonneg := le_refl (0 : Int)

theorem claimable_of_mem_claimRows {now limit : Int} {receiverId : Option String}
    (h : r ∈ claimRows s now limit receiverId) :
    r.state = .ready ∧ r.availableAt ≤ now ∧ now < r.deadBy := by
  have hc := (mem_claimRows h).2
  simp only [claimable, Bool.and_eq_true, beq_iff_eq, decide_eq_true_eq] at hc
  exact ⟨hc.1.1.1.1, hc.1.1.1.2, hc.1.2⟩

/-- A row that has ended satisfies everything but the token's bound for free. -/
theorem RowInv.of_terminal (hterm : r.terminal = true) (hclaim : 0 ≤ r.claimId) : RowInv r where
  lease_lt h := by
    rw [(r.terminal_eq_false_iff).mpr (.inr h)] at hterm
    cases hterm
  attempts_lt h := by rw [h] at hterm; cases hterm
  attempts_nonneg h := by rw [h] at hterm; cases hterm
  claimId_nonneg := hclaim

theorem leaseExpired_state {now : Int} (h : leaseExpired now r = true) : r.state = .leased := by
  simp only [leaseExpired, Bool.and_eq_true, beq_iff_eq] at h
  exact h.1

/-- The lease sweep keeps the invariant, up to the attempt it may just have spent. -/
theorem reofferRow_inv (hr : RowInv r) (now : Int) :
    ((reofferRow s now r).state = .leased → reofferRow s now r = r) ∧
    ((reofferRow s now r).terminal = false → 0 ≤ (reofferRow s now r).attempts) ∧
    r.claimId ≤ (reofferRow s now r).claimId := by
  -- a lease handed back with `spent` attempts on top
  have hback : ∀ spent availableAt : Int, 0 ≤ spent → leaseExpired now r = true →
      reofferRow s now r = (reofferPatch spent availableAt).apply r →
      ((reofferRow s now r).state = .leased → reofferRow s now r = r) ∧
      ((reofferRow s now r).terminal = false → 0 ≤ (reofferRow s now r).attempts) ∧
      r.claimId ≤ (reofferRow s now r).claimId := by
    intro spent availableAt hspent hexp h
    have hnonneg := hr.attempts_nonneg
      ((r.terminal_eq_false_iff).mpr (.inr (leaseExpired_state hexp)))
    rw [h]
    refine ⟨fun hl => (by cases hl), fun _ => ?_, ?_⟩
    · show 0 ≤ r.attempts + spent
      omega
    · show r.claimId ≤ r.claimId + 1
      omega
  obtain ⟨-, h⟩ | ⟨hexp, -, h⟩ | ⟨hexp, -, h⟩ := reofferRow_cases s now r
  · rw [h]
    exact ⟨fun _ => rfl, hr.attempts_nonneg, le_refl _⟩
  · exact hback 0 _ (le_refl 0) hexp h
  · exact hback _ _ (by split <;> omega) hexp h

theorem RowInv.reclaimRow (hr : RowInv r) (s : Store) (now : Int) :
    RowInv (reclaimRow s now r) := by
  have hclaim := hr.claimId_nonneg
  obtain ⟨hleased, hnonneg, hmono⟩ := reofferRow_inv (s := s) hr now
  obtain ⟨h, -, hex⟩ | ⟨h, -⟩ := reclaimRow_cases s now r
  · rw [h]
    refine ⟨fun hl => ?_, fun hlive => ?_, hnonneg, by omega⟩
    · have hrow := hleased hl
      rw [hrow] at hl ⊢
      exact hr.lease_lt hl
    · -- a ready row the exhaustion sweep spared still has an attempt
      obtain hready | hl := (QueueMessage.terminal_eq_false_iff _).mp hlive
      · simp only [exhausted, hready, beq_self_eq_true, Bool.true_and, Bool.or_eq_false_iff,
          decide_eq_false_iff_not] at hex
        omega
      · have hrow := hleased hl
        rw [hrow] at hlive ⊢
        exact hr.attempts_lt hlive
  · rw [h]
    refine .of_terminal ?_ ?_
    · exact (QueueMessage.terminal_iff _).mpr (.inr (.inr rfl))
    · show 0 ≤ (reofferRow s now r).claimId
      omega

theorem settleRow_terminal {state : MsgState} {now : Int} {attempts : Option Int}
    (hstate : state ∈ terminalStates) (r : QueueMessage) :
    (settleRow state now attempts r).terminal = true ∧
      (settleRow state now attempts r).state = state ∧
      (settleRow state now attempts r).terminatedAt = some now ∧
      (settleRow state now attempts r).claimId = r.claimId := by
  have hclaim : (withAttempts attempts r).claimId = r.claimId := by cases attempts <;> rfl
  unfold settleRow
  by_cases hd : state = .dead
  · subst hd
    rw [if_pos rfl]
    exact ⟨rfl, rfl, rfl, hclaim⟩
  · rw [if_neg hd]
    exact ⟨decide_eq_true hstate, rfl, rfl, hclaim⟩

theorem RowInv.step (hr : RowInv r) (hstep : RowStep sha256 s r op r' l) : RowInv r' := by
  cases hstep with
  | kept _ => exact hr
  | leased hrow =>
    obtain ⟨hready, -, hbefore⟩ := claimable_of_mem_claimRows hrow
    have hlive := (r.terminal_eq_false_iff).mpr (.inl hready)
    refine ⟨fun _ => ⟨_, rfl, ?_⟩, fun _ => hr.attempts_lt hlive, fun _ => hr.attempts_nonneg hlive,
      ?_⟩
    · show _ + seconds deliveryLeaseS < r.deadBy + seconds deliveryLeaseS
      omega
    · have := hr.claimId_nonneg
      show 0 ≤ r.claimId + 1
      omega
  | reclaimed => exact hr.reclaimRow s _
  | ended hcall =>
    refine .of_terminal ?_ hr.claimId_nonneg
    cases hcall <;> rfl
  | settled _ _ hstate _ =>
    obtain ⟨hterm, -, -, hclaim⟩ := settleRow_terminal hstate r
    refine .of_terminal hterm ?_
    rw [hclaim]
    exact hr.claimId_nonneg
  | _ => exact ⟨hr.lease_lt, hr.attempts_lt, hr.attempts_nonneg, hr.claimId_nonneg⟩

/-- Every row of every reachable store satisfies the invariant. -/
theorem run_rowInv {m : String} (ops : List Op)
    (hget : (run (exec sha256) Store.empty ops).get m = some r) : RowInv r :=
  run_rows (P := RowInv) (RowInv.draftRow sha256) (fun hstep hr => hr.step hstep) ops hget

end CliAgentOrchestrator.Queue
