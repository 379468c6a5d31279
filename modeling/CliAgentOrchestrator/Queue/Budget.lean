import CliAgentOrchestrator.Queue.RowInvariant

/-!
# The fencing token and the attempt budget

`claim_id` is the fencing token: a claim and the `reclaim` that takes a lease back both move it
up, and nothing moves it down. The store keeps only a counter of attempts; the history it
counts is the list of leases that were reclaimed, each under its own token, each spent or not by
what was recorded last under that token.
-/

set_option autoImplicit false

namespace CliAgentOrchestrator.Queue

open CliAgentOrchestrator.Core Library

variable {sha256 : String → String} {s s' : Store} {m : String} {r r' : QueueMessage} {op : Op}
  {d : Option DeadLetter}

/-- The lease of `m` this call takes back: its token, and the outcome recorded last for it. -/
def reclaimedLease (m : String) (s : Store) : Op → Option (Int × Option AttemptOutcome)
  | .reclaim now =>
    (s.get m).bind fun r =>
      if leaseExpired now r then some (r.claimId, s.lastOutcomeIn m r.claimId) else none
  | _ => none

/-- The leases of `m` a run from `s` reclaims, in order. -/
def reclaimedLeases (sha256 : String → String) (m : String) (s : Store) (ops : List Op) :
    List (Int × Option AttemptOutcome) :=
  observed (exec sha256) (reclaimedLease m) s ops

/-- Is this a `settle` that writes an attempt count of the caller's? -/
def Op.setsAttempts : Op → Bool
  | .settle _ _ _ _ (some _) => true
  | _ => false

/-! ## One step -/

theorem reclaimedLease_eq_none (hop : ∀ now, op ≠ .reclaim now) :
    reclaimedLease m s op = none := by
  cases op <;> first | rfl | exact absurd rfl (hop _)

theorem reclaimedLease_reclaim (hget : s.get m = some r) (now : Int) :
    reclaimedLease m s (.reclaim now) =
      if leaseExpired now r then some (r.claimId, s.lastOutcomeIn m r.claimId) else none := by
  unfold reclaimedLease
  rw [hget]
  rfl

/-- What a `reclaim` does to the token and the counter of a row: the death sweeps touch
neither, so it is what the lease sweep does. -/
theorem reclaimRow_accounts (s : Store) (now : Int) (r : QueueMessage) :
    (reclaimRow s now r).claimId = (if leaseExpired now r then r.claimId + 1 else r.claimId) ∧
    (reclaimRow s now r).attempts =
      r.attempts + (if leaseExpired now r ∧ spendsAttempt (s.lastOutcomeIn r.msgId r.claimId) then 1
        else 0) := by
  have hsweep : (reclaimRow s now r).claimId = (reofferRow s now r).claimId ∧
      (reclaimRow s now r).attempts = (reofferRow s now r).attempts := by
    obtain ⟨h, -⟩ | ⟨h, -⟩ := reclaimRow_cases s now r <;> rw [h] <;> exact ⟨rfl, rfl⟩
  rw [hsweep.1, hsweep.2]
  obtain ⟨hexp, h⟩ | ⟨hexp, hout, h⟩ | ⟨hexp, hout, h⟩ := reofferRow_cases s now r
  · rw [h, hexp]
    simp
  · rw [h, hexp, hout]
    -- an uncertain submission spends nothing
    exact ⟨rfl, rfl⟩
  · rw [h, hexp]
    exact ⟨rfl, by simp [reofferPatch]⟩

/-- No step moves a token down. -/
theorem RowStep.claimId_le (hstep : RowStep sha256 s r op r' d) : r.claimId ≤ r'.claimId := by
  cases hstep with
  | leased _ =>
    show r.claimId ≤ r.claimId + 1
    omega
  | reclaimed =>
    rw [(reclaimRow_accounts s _ r).1]
    split <;> omega
  | settled _ _ hstate _ =>
    obtain ⟨-, -, -, hclaim⟩ := settleRow_terminal hstate r
    rw [hclaim]
  | _ => exact le_rfl

/-- The counter moves by one exactly when the step takes back a lease that spent an attempt. -/
theorem RowStep.attempts_eq (hstep : RowStep sha256 s r op r' d) (hget : s.get m = some r)
    (hset : op.setsAttempts = false) :
    r'.attempts =
      r.attempts + ((reclaimedLease m s op).toList.countP fun l => spendsAttempt l.2 : ℕ) := by
  cases hstep with
  | kept hop => simp [reclaimedLease_eq_none hop]
  | @reclaimed now =>
    rw [(reclaimRow_accounts s _ r).2, reclaimedLease_reclaim hget, msgId_of_get hget]
    by_cases hexp : leaseExpired now r = true
    · simp only [hexp, if_true, Option.toList_some, true_and, List.countP_singleton]
      split <;> rfl
    · simp [hexp]
  | ended hcall =>
    show r.attempts = _
    simp [reclaimedLease_eq_none hcall.ne_reclaim]
  | @settled msgId state now reason attempts _ _ _ _ =>
    cases attempts with
    | some n => cases hset
    | none =>
      have : (settleRow state now none r).attempts = r.attempts := by
        unfold settleRow withAttempts
        split <;> rfl
      rw [this]
      simp [reclaimedLease]
  | _ =>
    show r.attempts = _
    simp [reclaimedLease]

/-- A lease taken back ran under the row's token, and the row is past that token now. -/
theorem RowStep.token_lt (hstep : RowStep sha256 s r op r' d) (hget : s.get m = some r)
    {l : Int × Option AttemptOutcome} (hl : reclaimedLease m s op = some l) :
    l.1 = r.claimId ∧ l.1 < r'.claimId := by
  have hreclaim : ∃ now, op = .reclaim now := by
    by_contra hno
    rw [reclaimedLease_eq_none fun now h => hno ⟨now, h⟩] at hl
    cases hl
  obtain ⟨now, rfl⟩ := hreclaim
  rw [reclaimedLease_reclaim hget] at hl
  split at hl
  · next hexp =>
    cases hl
    refine ⟨rfl, ?_⟩
    cases hstep with
    | kept hop => exact absurd rfl (hop now)
    | reclaimed =>
      rw [(reclaimRow_accounts s now r).1, if_pos hexp]
      show r.claimId < r.claimId + 1
      omega
    | ended hcall => exact absurd rfl (hcall.ne_reclaim now)
  · cases hl

/-! ## Runs -/

/-- A run that never minted the id reclaimed no lease of it. -/
theorem reclaimedLeases_eq_nil (ops : List Op) (hnew : m ∉ minted ops) :
    reclaimedLeases sha256 m Store.empty ops = [] := by
  refine List.eq_nil_iff_forall_not_mem.mpr fun l hl => ?_
  obtain ⟨before, op, after, rfl, hobs⟩ := mem_observed hl
  cases hget : (run (exec sha256) Store.empty before).get m with
  | none =>
    have hno : reclaimedLease m (run (exec sha256) Store.empty before) op = none := by
      cases op <;> simp [reclaimedLease, hget]
    rw [hno] at hobs
    cases hobs
  | some r =>
    have hmem := mem_minted_of_get before hget
    exact hnew (by unfold minted at hmem ⊢; rw [List.filterMap_append]; simp [hmem])

/-- The counter of a row is the number of its reclaimed leases that spent an attempt; their
tokens increase, and the row is past all of them. -/
theorem leases_accounted (ops : List Op) (hmint : (minted ops).Nodup)
    (hset : ∀ op ∈ ops, op.setsAttempts = false)
    (hget : (run (exec sha256) Store.empty ops).get m = some r) :
    r.attempts =
      ((reclaimedLeases sha256 m Store.empty ops).countP fun l => spendsAttempt l.2 : ℕ) ∧
    (∀ l ∈ reclaimedLeases sha256 m Store.empty ops, l.1 < r.claimId) ∧
    (reclaimedLeases sha256 m Store.empty ops).Pairwise fun a b => a.1 < b.1 := by
  induction ops using List.reverseRecOn generalizing r with
  | nil =>
    have := mem_minted_of_get [] hget
    simp [minted] at this
  | append_singleton ops op ih =>
    have hsplit : minted (ops ++ [op]) = minted ops ++ op.minted.toList := by
      unfold minted
      rw [List.filterMap_append]
      cases h : op.minted <;> simp [h]
    rw [hsplit, List.nodup_append] at hmint
    have hleases : reclaimedLeases sha256 m Store.empty (ops ++ [op]) =
        reclaimedLeases sha256 m Store.empty ops ++
          (reclaimedLease m (run (exec sha256) Store.empty ops) op).toList :=
      observed_concat _ _ _ _
    rw [run_concat] at hget
    rw [hleases]
    cases h : (run (exec sha256) Store.empty ops).get m with
    | none =>
      -- the row was just inserted, under an id the run had not minted before
      obtain ⟨draft, now, rfl, rfl, -⟩ := inserted_of_exec h hget
      have hnew : m ∉ minted ops := fun hm => hmint.2.2 m hm m (by simp [Op.minted]) rfl
      rw [reclaimedLeases_eq_nil ops hnew]
      refine ⟨rfl, ?_, ?_⟩ <;> simp [reclaimedLease]
    | some r₀ =>
      obtain ⟨d, hstep, -⟩ := rowStep_of_exec h hget
      obtain ⟨hcount, htokens, hpair⟩ :=
        ih hmint.1 (fun o ho => hset o (by simp [ho])) h
      refine ⟨?_, ?_, ?_⟩
      · rw [hstep.attempts_eq h (hset op (by simp)), hcount, List.countP_append]
        push_cast
        rfl
      · intro l hl
        obtain hl | hl := List.mem_append.mp hl
        · exact lt_of_lt_of_le (htokens l hl) hstep.claimId_le
        · exact (hstep.token_lt h (by simpa using hl)).2
      · rw [List.pairwise_append]
        refine ⟨hpair, ?_, fun a ha b hb => ?_⟩
        · cases reclaimedLease m (run (exec sha256) Store.empty ops) op <;> simp
        · rw [Option.mem_toList] at hb
          rw [(hstep.token_lt h hb).1]
          exact htokens a ha

/-- An `ack` succeeds exactly for the token of a lease in force. -/
theorem ack_eq_true_iff (s : Store) (m : String) (claimId now : Int) :
    (ack s m claimId now).1 = true ↔
      ∃ r, s.get m = some r ∧ r.state = .leased ∧ r.claimId = claimId := by
  unfold ack
  simp only [Option.any_eq_true, ackable, Bool.and_eq_true, decide_eq_true_eq, beq_iff_eq]
  constructor
  · rintro ⟨r, hget, hc, hs⟩
    exact ⟨r, hget, hs, hc⟩
  · rintro ⟨r, hget, hs, hc⟩
    exact ⟨r, hget, hc, hs⟩

/-- The token fences and the budget is kept, in a store whose run reclaimed `leases`. -/
structure Fenced (sha256 : String → String) (s : Store)
    (leases : String → List (Int × Option AttemptOutcome)) : Prop where
  /-- A claim moves the token up, and leases no row that is out of attempts. -/
  claim_lt : ∀ leaseOwner now limit receiverId,
    ∀ c ∈ (claim s leaseOwner now limit receiverId).1, ∃ r, s.get c.msgId = some r ∧
      (claim s leaseOwner now limit receiverId).2.get c.msgId = some c ∧
      r.claimId < c.claimId ∧ r.attempts < r.maxAttempts
  reclaim_lt : ∀ now m r, s.get m = some r → leaseExpired now r = true →
    ∃ r', (reclaim s now).1.get m = some r' ∧ r.claimId < r'.claimId
  /-- No operation moves a token down. -/
  step_le : ∀ op m r r', s.get m = some r → (exec sha256 s op).get m = some r' →
    r.claimId ≤ r'.claimId
  ack_iff : ∀ m claimId now, (ack s m claimId now).1 = true ↔
    ∃ r, s.get m = some r ∧ r.state = .leased ∧ r.claimId = claimId
  /-- The token of a reclaimed lease is dead. -/
  ack_reclaimed : ∀ m now, ∀ l ∈ leases m, (ack s m l.1 now).1 = false
  /-- The counter is the number of reclaimed leases whose own last outcome spent an attempt. -/
  attempts_eq : ∀ m r, s.get m = some r →
    r.attempts = ((leases m).countP fun l => spendsAttempt l.2 : ℕ)
  /-- No lease is counted twice. -/
  tokens_lt : ∀ m r, s.get m = some r → (leases m).Pairwise fun a b => a.1 < b.1

/-- Fencing and the attempt budget, in the store any run leads to. -/
theorem fenced_of_run (sha256 : String → String) (ops : List Op) (hmint : (minted ops).Nodup)
    (hset : ∀ op ∈ ops, op.setsAttempts = false) :
    Fenced sha256 (run (exec sha256) Store.empty ops)
      (fun m => reclaimedLeases sha256 m Store.empty ops) where
  claim_lt := by
    intro leaseOwner now limit receiverId c hc
    obtain ⟨r, hr, rfl⟩ := mem_claim _ leaseOwner now limit receiverId c hc
    obtain ⟨hget, -⟩ := mem_claimRows hr
    obtain ⟨hready, -, -⟩ := claimable_of_mem_claimRows hr
    refine ⟨r, hget, ?_, ?_, ?_⟩
    · rw [get_claim]
      show ((run (exec sha256) Store.empty ops).get r.msgId).map _ = _
      rw [hget, Option.map_some, if_pos hr]
    · show r.claimId < r.claimId + 1
      omega
    · exact (run_rowInv ops hget).attempts_lt ((r.terminal_eq_false_iff).mpr (.inl hready))
  reclaim_lt := by
    intro now m r hget hexp
    refine ⟨reclaimRow (run (exec sha256) Store.empty ops) now r, ?_, ?_⟩
    · rw [get_reclaim, hget]
      rfl
    · rw [(reclaimRow_accounts _ now r).1, if_pos hexp]
      omega
  step_le := by
    intro op m r r' hget hget'
    obtain ⟨d, hstep, -⟩ := rowStep_of_exec hget hget'
    exact hstep.claimId_le
  ack_iff m claimId now := ack_eq_true_iff _ m claimId now
  ack_reclaimed := by
    intro m now l hl
    rw [Bool.eq_false_iff]
    intro hack
    obtain ⟨r, hget, -, hc⟩ := (ack_eq_true_iff _ m l.1 now).mp hack
    have hlt := (leases_accounted ops hmint hset hget).2.1 l hl
    omega
  attempts_eq _ _ hget := (leases_accounted ops hmint hset hget).1
  tokens_lt _ _ hget := (leases_accounted ops hmint hset hget).2.2

/-- Two leases expire, the first after a veto that spends no attempt. -/
def twoLeases : List Op :=
  [.enqueue seatDraft "01" 0, .claim "tick" 0 5 none,
    .recordAttempt ⟨"01", 1, "pane", 0, .vetoDialog, ""⟩, .reclaim (seconds 61),
    .claim "tick" (seconds 66) 5 none, .reclaim (seconds 127)]

/-- The first claim of a row that was leased twice is fenced. -/
theorem fenced_of_run_twoLeases :
    Fenced id (run (exec id) Store.empty twoLeases)
      (fun m => reclaimedLeases id m Store.empty twoLeases) :=
  fenced_of_run id twoLeases (by decide) (by decide)

example : reclaimedLeases id "01" Store.empty twoLeases = [(1, some .vetoDialog), (3, none)] ∧
    ((run (exec id) Store.empty twoLeases).get "01").map QueueMessage.attempts = some 1 := by
  decide

end CliAgentOrchestrator.Queue
