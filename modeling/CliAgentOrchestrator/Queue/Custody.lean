import CliAgentOrchestrator.Queue.Finality

/-!
# Who holds a row, and how long it is kept

A leased row stays with its holder, and no claim hands it out, until a `reclaim` comes later than
the lease (`lease_excludes`). A row leaves the table by a `prune` alone, and then it ended longer
ago than the retention (`kept_until_pruned`).
-/

set_option autoImplicit false

namespace CliAgentOrchestrator.Queue

open CliAgentOrchestrator.Core Library

variable {sha256 : String → String} {s : Store} {m : String} {r r' : QueueMessage} {op : Op}
  {l : Option DeadLetter}

/-! ## One holder -/

/-- The row is still under the lease it was under. -/
structure SameLease (r r' : QueueMessage) : Prop where
  state : r'.state = .leased
  claimId : r'.claimId = r.claimId
  leaseOwner : r'.leaseOwner = r.leaseOwner
  leaseExpiresAt : r'.leaseExpiresAt = r.leaseExpiresAt

theorem SameLease.trans {r'' : QueueMessage} (h : SameLease r r') (h' : SameLease r' r'') :
    SameLease r r'' :=
  ⟨h'.state, h'.claimId.trans h.claimId, h'.leaseOwner.trans h.leaseOwner,
    h'.leaseExpiresAt.trans h.leaseExpiresAt⟩

/-- A reclaim that the lease outlives leaves the lease, or kills the row. -/
theorem reclaimRow_of_early {now : Int} (hheld : r.state = .leased)
    (hearly : leaseExpired now r = false) :
    (reclaimRow s now r).terminal = true ∨ SameLease r (reclaimRow s now r) := by
  have hoffer : reofferRow s now r = r := by
    unfold reofferRow
    rw [hearly]
    rfl
  obtain ⟨heq, -, -⟩ | ⟨heq, -⟩ := reclaimRow_cases s now r
  · right
    rw [heq, hoffer]
    exact ⟨hheld, rfl, rfl, rfl⟩
  · left
    rw [heq, hoffer]
    rfl

/-- Nothing but a reclaim past its expiry takes a lease away from a row that goes on. -/
theorem RowStep.keeps_lease (hstep : RowStep sha256 s r op r' l) (hheld : r.state = .leased)
    (hearly : ∀ now, op = .reclaim now → leaseExpired now r = false) :
    r'.terminal = true ∨ SameLease r r' := by
  cases hstep with
  | leased hrow =>
    obtain ⟨hready, -, -⟩ := claimable_of_mem_claimRows hrow
    rw [hheld] at hready
    cases hready
  | reclaimed => exact reclaimRow_of_early hheld (hearly _ rfl)
  | ended hcall => cases hcall <;> exact .inl rfl
  | settled _ _ hstate _ => exact .inl (settleRow_terminal hstate r).1
  | _ => exact .inr ⟨hheld, rfl, rfl, rfl⟩

/-- The same along a run. -/
theorem run_keeps_lease {expiry : Int} (ops : List Op) (hnew : m ∉ minted ops)
    (hget : s.get m = some r) (hheld : r.state = .leased) (hexpiry : r.leaseExpiresAt = some expiry)
    (hearly : ∀ now, Op.reclaim now ∈ ops → now ≤ expiry)
    (hget' : (run (exec sha256) s ops).get m = some r') :
    r'.terminal = true ∨ SameLease r r' := by
  induction ops generalizing s r with
  | nil =>
    rw [run_nil, hget] at hget'
    cases hget'
    exact .inr ⟨hheld, rfl, rfl, rfl⟩
  | cons op ops ih =>
    obtain ⟨-, hrest⟩ := notMem_minted_cons.mp hnew
    rw [run_cons] at hget'
    cases hnext : (exec sha256 s op).get m with
    | none =>
      rw [run_get_none sha256 ops hrest hnext] at hget'
      cases hget'
    | some r₁ =>
      obtain ⟨l, hstep, -⟩ := rowStep_of_exec hget hnext
      have hstill : ∀ now, op = .reclaim now → leaseExpired now r = false := by
        rintro now rfl
        have hle := hearly now List.mem_cons_self
        unfold leaseExpired
        rw [hexpiry, Option.any_some, decide_eq_false (Int.not_lt.mpr hle), Bool.and_false]
      obtain hterm | hsame := hstep.keeps_lease hheld hstill
      · -- what has ended stays ended
        have hstate := (run_final hrest hnext hterm hget').1
        left
        unfold QueueMessage.terminal at hterm ⊢
        rwa [hstate]
      · refine (ih hrest hnext hsame.state (hsame.leaseExpiresAt.trans hexpiry) ?_ hget').imp_right
          hsame.trans
        exact fun now hmem => hearly now (List.mem_cons_of_mem _ hmem)

/-- One holder at a time: from the moment a row is leased, as long as no `reclaim` comes later than
the expiry of the lease, the row is under the same lease or has ended, and no claim of anybody
returns it. -/
theorem lease_excludes (sha256 : String → String) (before after : List Op)
    (hmint : (minted (before ++ after)).Nodup) {m : String} {r : QueueMessage} {expiry : Int}
    (hget : (run (exec sha256) Store.empty before).get m = some r) (hheld : r.state = .leased)
    (hexpiry : r.leaseExpiresAt = some expiry)
    (hearly : ∀ now, Op.reclaim now ∈ after → now ≤ expiry) :
    (∀ r', (run (exec sha256) Store.empty (before ++ after)).get m = some r' →
      r'.terminal = true ∨ SameLease r r') ∧
    ∀ mid leaseOwner now limit receiverId rest,
      after = mid ++ .claim leaseOwner now limit receiverId :: rest →
        ∀ c ∈ (claim (run (exec sha256) Store.empty (before ++ mid)) leaseOwner now limit
          receiverId).1, c.msgId ≠ m := by
  have hnew := notMem_minted_of_get hmint hget
  constructor
  · intro r' hget'
    rw [run_append] at hget'
    exact run_keeps_lease after hnew hget hheld hexpiry hearly hget'
  · rintro mid leaseOwner now limit receiverId rest rfl c hc rfl
    obtain ⟨r₁, hr₁, rfl⟩ := mem_claim _ leaseOwner now limit receiverId c hc
    obtain ⟨hget₁, -⟩ := mem_claimRows hr₁
    obtain ⟨hready, -, -⟩ := claimable_of_mem_claimRows hr₁
    rw [run_append] at hget₁
    have hmid : (leaseRow leaseOwner now r₁).msgId ∉ minted mid := fun hm => hnew (by
      unfold minted at hm ⊢
      rw [List.filterMap_append]
      exact List.mem_append_left _ hm)
    obtain hterm | hsame := run_keeps_lease mid hmid hget hheld hexpiry
      (fun now hmem => hearly now (List.mem_append_left _ hmem)) hget₁
    · rw [(r₁.terminal_eq_false_iff).mpr (.inl hready)] at hterm
      cases hterm
    · rw [hsame.state] at hready
      cases hready

/-- Two ticks within one lease. -/
def ticksWithinLease : List Op :=
  [.enqueue seatDraft "01" 0, .claim "tick" 0 5 none]

/-- A tick that claims inside the lease of another gets nothing. -/
theorem lease_excludes_ticksWithinLease :
    (∀ r', (run (exec id) Store.empty (ticksWithinLease ++
        [.reclaim (seconds 60), .claim "other" (seconds 60) 5 none])).get "01" = some r' →
      r'.terminal = true ∨
        SameLease (leaseRow "tick" 0 (draftRow id seatDraft "01" 0)) r') ∧
    ∀ mid leaseOwner now limit receiverId rest,
      [Op.reclaim (seconds 60), .claim "other" (seconds 60) 5 none] =
          mid ++ .claim leaseOwner now limit receiverId :: rest →
        ∀ c ∈ (claim (run (exec id) Store.empty (ticksWithinLease ++ mid)) leaseOwner now limit
          receiverId).1, c.msgId ≠ "01" :=
  lease_excludes id ticksWithinLease [.reclaim (seconds 60), .claim "other" (seconds 60) 5 none]
    (by decide) rfl rfl rfl fun now hmem => by
      obtain rfl : now = seconds 60 := by simpa using hmem
      decide

/-! ## Retention -/

/-- A row has an ending time exactly when it has ended. -/
def EndingKnown (r : QueueMessage) : Prop := r.terminatedAt.isSome = r.terminal

theorem RowStep.endingKnown (hstep : RowStep sha256 s r op r' l) (h : EndingKnown r) :
    EndingKnown r' := by
  unfold EndingKnown at h ⊢
  have hlive : r.terminal = false → r.terminatedAt.isSome = false := h.trans
  cases hstep with
  | leased hrow =>
    obtain ⟨hready, -, -⟩ := claimable_of_mem_claimRows hrow
    exact hlive ((r.terminal_eq_false_iff).mpr (.inl hready))
  | reclaimed =>
    rename_i now
    have hoffer : (reofferRow s now r).terminatedAt.isSome = (reofferRow s now r).terminal := by
      obtain ⟨-, heq⟩ | ⟨hexp, -, heq⟩ | ⟨hexp, -, heq⟩ := reofferRow_cases s now r
      · rw [heq]
        exact h
      · rw [heq]
        exact hlive ((r.terminal_eq_false_iff).mpr (.inr (leaseExpired_state hexp)))
      · rw [heq]
        exact hlive ((r.terminal_eq_false_iff).mpr (.inr (leaseExpired_state hexp)))
    obtain ⟨heq, -, -⟩ | ⟨heq, -⟩ := reclaimRow_cases s now r
    · rw [heq]
      exact hoffer
    · rw [heq]
      rfl
  | ended hcall => cases hcall <;> rfl
  | settled _ _ hstate _ =>
    obtain ⟨hterm, -, hended, -⟩ := settleRow_terminal hstate r
    rw [hterm, hended]
    rfl
  | _ => exact h

/-- Nothing is lost: a row that was in the table and is not any more was taken by a `prune`, which
found it ended for longer than the retention and not among the ids it was told to spare. -/
theorem kept_until_pruned (sha256 : String → String) (before after : List Op)
    (hmint : (minted (before ++ after)).Nodup) {m : String} {r : QueueMessage}
    (hget : (run (exec sha256) Store.empty before).get m = some r)
    (hgone : (run (exec sha256) Store.empty (before ++ after)).get m = none) :
    ∃ mid now isProtected rest r', after = mid ++ .prune now isProtected :: rest ∧
      (run (exec sha256) Store.empty (before ++ mid)).get m = some r' ∧
      r'.state ∈ terminalStates ∧ (∃ t, r'.terminatedAt = some t ∧ t < retentionHorizon now) ∧
      m ∉ isProtected := by
  induction after generalizing before r with
  | nil =>
    rw [List.append_nil, hget] at hgone
    cases hgone
  | cons op after ih =>
    have hassoc : before ++ op :: after = before ++ [op] ++ after := by
      rw [List.append_assoc, List.singleton_append]
    cases hnext : (run (exec sha256) Store.empty (before ++ [op])).get m with
    | some r₁ =>
      rw [hassoc] at hmint hgone
      obtain ⟨mid, now, isProtected, rest, r', rfl, hat, hrest⟩ := ih _ hmint hnext hgone
      rw [List.append_assoc, List.singleton_append] at hat
      exact ⟨op :: mid, now, isProtected, rest, r', rfl, hat, hrest⟩
    | none =>
      have hchange := rowChange_exec sha256 (run (exec sha256) Store.empty before) m op
      rw [run_concat] at hnext
      rw [hget, hnext] at hchange
      generalize (exec sha256 (run (exec sha256) Store.empty before) op).deadLetter m = d at hchange
      cases hchange with
      | pruned hop hrow =>
        rename_i now isProtected
        unfold prunable at hrow
        rw [Bool.and_eq_true, Bool.not_eq_true', msgId_of_get hget] at hrow
        obtain ⟨t, hended, hlt⟩ := (Option.any_eq_true _ _).mp hrow.1
        have hknown : EndingKnown r := run_rows (fun _ _ _ => rfl)
          (fun hstep h => hstep.endingKnown h) before hget
        have hterm : r.terminal = true := by
          rw [← hknown, hended]
          rfl
        refine ⟨[], now, isProtected, after, r, by rw [hop]; rfl, ?_, of_decide_eq_true hterm,
          ⟨t, hended, of_decide_eq_true hlt⟩, ?_⟩
        · rw [List.append_nil]
          exact hget
        · intro hmem
          rw [List.contains_iff_mem.mpr hmem] at hrow
          cases hrow.2

/-- A row that is delivered, and pruned once the retention is over. -/
def deliveredAndPruned : List Op :=
  [.claim "tick" 0 5 none, .ack "01" 1 (seconds 5),
    .prune (seconds (deliveryRetentionDays * 86400) + seconds 6) []]

/-- A delivered row goes at the prune behind its retention. -/
theorem kept_until_pruned_deliveredAndPruned :
    ∃ mid now isProtected rest r', deliveredAndPruned = mid ++ .prune now isProtected :: rest ∧
      (run (exec id) Store.empty ([.enqueue seatDraft "01" 0] ++ mid)).get "01" = some r' ∧
      r'.state ∈ terminalStates ∧ (∃ t, r'.terminatedAt = some t ∧ t < retentionHorizon now) ∧
      "01" ∉ isProtected :=
  kept_until_pruned id [.enqueue seatDraft "01" 0] deliveredAndPruned (by decide) rfl (by decide)

end CliAgentOrchestrator.Queue
