import CliAgentOrchestrator.Queue.RowInvariant

/-!
# The deadline

`dead_by` is stamped once and never moves. A row can be leased as late as the last instant
before it, so a `reclaim` one lease after the deadline finds no lease still running: its lease
sweep frees what is left and its exhaustion sweep kills it in the same transaction.
-/

set_option autoImplicit false

namespace CliAgentOrchestrator.Queue

open CliAgentOrchestrator.Core Library

variable {sha256 : String → String} {s s' : Store} {r r' : QueueMessage}

/-- The state a successful `enqueue` leaves is the one its operation leads to. -/
theorem exec_enqueue {draft : EnqueueDraft} {newUlid : String} {now : Int} {message : QueueMessage}
    (h : enqueue sha256 s draft newUlid now = .ok (message, s')) :
    exec sha256 s (.enqueue draft newUlid now) = s' := by
  simp only [exec, h]

/-- The lease sweep frees every lease by one lease after the deadline. -/
theorem reofferRow_not_leased (hr : RowInv r) {now : Int}
    (hnow : r.deadBy + seconds deliveryLeaseS ≤ now) : (reofferRow s now r).state ≠ .leased := by
  intro hleased
  have hrow := (reofferRow_inv (s := s) hr now).1 hleased
  rw [hrow] at hleased
  obtain ⟨e, he, hlt⟩ := hr.lease_lt hleased
  have hexp : leaseExpired now r = true := by
    simp only [leaseExpired, hleased, he, beq_self_eq_true, Option.any_some, Bool.true_and,
      decide_eq_true_eq]
    omega
  -- an expired lease leaves the sweep ready
  obtain ⟨hno, -⟩ | ⟨-, -, h⟩ | ⟨-, -, h⟩ := reofferRow_cases s now r
  · rw [hexp] at hno
    cases hno
  all_goals
    rw [← hrow, h] at hleased
    cases hleased

/-- One lease after its deadline, no row survives a `reclaim`. -/
theorem reclaimRow_terminal (hr : RowInv r) {now : Int}
    (hnow : r.deadBy + seconds deliveryLeaseS ≤ now) : (reclaimRow s now r).terminal = true := by
  have hfree := reofferRow_not_leased (s := s) hr hnow
  have hdead : (reofferRow s now r).deadBy = r.deadBy :=
    congrArg FixedColumns.deadBy (fixedColumns_reofferRow s now r)
  obtain ⟨h, -, hex⟩ | ⟨h, -⟩ := reclaimRow_cases s now r
  · rw [h]
    by_contra hlive
    -- the survivor would be ready, and ready rows past the deadline are exhausted
    obtain hready | hl := (QueueMessage.terminal_eq_false_iff _).mp (Bool.eq_false_iff.mpr hlive)
    · simp only [exhausted, hready, hdead, beq_self_eq_true, Bool.true_and, Bool.or_eq_false_iff,
        decide_eq_false_iff_not] at hex
      have hlease : (0 : Int) < seconds deliveryLeaseS := by decide
      omega
    · exact hfree hl
  · rw [h]
    exact (QueueMessage.terminal_iff _).mpr (.inr (.inr rfl))

/-- An enqueued message keeps its deadline through any later calls, and any `reclaim` at or
after one lease past it leaves the message ended. -/
theorem ended_by_deadline (sha256 : String → String) (before later : List Op)
    (draft : EnqueueDraft) (newUlid : String) (now : Int) (message : QueueMessage) (s₁ : Store)
    (henqueue : enqueue sha256 (run (exec sha256) Store.empty before) draft newUlid now =
      .ok (message, s₁))
    (hlater : ∀ op ∈ later, op.prunes = false) :
    ∃ r, (run (exec sha256) s₁ later).get message.msgId = some r ∧ r.deadBy = message.deadBy ∧
      ∀ t, message.deadBy + seconds deliveryLeaseS ≤ t →
        ∃ r', (reclaim (run (exec sha256) s₁ later) t).1.get message.msgId = some r' ∧
          r'.deadBy = message.deadBy ∧ r'.state ∈ terminalStates := by
  obtain ⟨hget, -, -, -⟩ := enqueue_spec henqueue
  obtain ⟨r, hr, hfixed⟩ := run_row_kept sha256
    (Q := fun a b => fixedColumns b = fixedColumns a) (fun _ => rfl)
    (fun _ _ _ hab hbc => hbc.trans hab) (fun hstep => hstep.fixedColumns) later hlater hget
  have hdead : r.deadBy = message.deadBy := congrArg FixedColumns.deadBy hfixed
  refine ⟨r, hr, hdead, fun t ht => ?_⟩
  -- the whole history is one run from the empty store
  have hrun : run (exec sha256) s₁ later =
      run (exec sha256) Store.empty (before ++ [.enqueue draft newUlid now] ++ later) := by
    rw [run_append, run_concat, exec_enqueue henqueue]
  have hinv : RowInv r := by
    rw [hrun] at hr
    exact run_rowInv _ hr
  refine ⟨reclaimRow (run (exec sha256) s₁ later) t r, ?_, ?_, ?_⟩
  · rw [get_reclaim, hr]
    rfl
  · rw [← hdead]
    exact congrArg FixedColumns.deadBy (fixedColumns_reclaimRow _ t r)
  · have hterm := reclaimRow_terminal (s := run (exec sha256) s₁ later) hinv (hdead ▸ ht)
    exact of_decide_eq_true hterm

/-- A message leased one second before its deadline and left there. -/
theorem ended_by_deadline_late_lease :
    ∃ r, (run (exec id) (exec id Store.empty
        (.enqueue { idempotencyKey := "k", receiverId := "seat" } "01" 0))
        [.claim "tick" (seconds 1699) 5 none, .markDialogHold "01" (some (seconds 1700)),
          .reclaim (seconds 1750)]).get "01" = some r ∧ r.deadBy = seconds 1700 ∧
      ∀ t, seconds 1700 + seconds deliveryLeaseS ≤ t →
        ∃ r', (reclaim (run (exec id) (exec id Store.empty
          (.enqueue { idempotencyKey := "k", receiverId := "seat" } "01" 0))
          [.claim "tick" (seconds 1699) 5 none, .markDialogHold "01" (some (seconds 1700)),
            .reclaim (seconds 1750)]) t).1.get "01" = some r' ∧
          r'.deadBy = seconds 1700 ∧ r'.state ∈ terminalStates :=
  ended_by_deadline id [] _ { idempotencyKey := "k", receiverId := "seat" } "01" 0
    (draftRow id { idempotencyKey := "k", receiverId := "seat" } "01" 0) _ rfl (by decide)

end CliAgentOrchestrator.Queue
