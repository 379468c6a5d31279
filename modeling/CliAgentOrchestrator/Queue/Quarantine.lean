import CliAgentOrchestrator.Queue.Finality

/-!
# The quarantine of an uncertain submission

A quarantined row is an ordinary `ready` row whose `available_at` lies past its deadline: a
claim wants `available_at <= now < dead_by`, which no instant satisfies. It holds as long as
no statement moves either column back, and only the lease sweep writes `available_at`, for
rows that are leased.
-/

set_option autoImplicit false

namespace CliAgentOrchestrator.Queue

open CliAgentOrchestrator.Core Library

variable {sha256 : String → String} {s s' : Store} {m : String} {r r' : QueueMessage} {op : Op}
  {d : Option DeadLetter} {ops : List Op}

/-- Ended, or unavailable for the rest of its life. -/
def Quarantined (r : QueueMessage) : Prop :=
  r.terminal = true ∨ (r.state = .ready ∧ r.availableAt = quarantineUntil r)

theorem reofferRow_of_ready (hready : r.state = .ready) (s : Store) (now : Int) :
    reofferRow s now r = r := by
  obtain ⟨-, h⟩ | ⟨hexp, -⟩ | ⟨hexp, -⟩ := reofferRow_cases s now r
  · exact h
  all_goals
    have hleased := leaseExpired_state hexp
    rw [hready] at hleased
    cases hleased

/-- No claim selects a quarantined row. -/
theorem Quarantined.notMem_claimRows (hq : Quarantined r) (s : Store) (now limit : Int)
    (receiverId : Option String) : r ∉ claimRows s now limit receiverId := by
  intro hrow
  obtain ⟨hready, havail, hdead⟩ := claimable_of_mem_claimRows hrow
  obtain hterm | ⟨-, huntil⟩ := hq
  · rw [(r.terminal_eq_false_iff).mpr (.inl hready)] at hterm
    cases hterm
  · have hone : (0 : Int) < seconds 1 := by decide
    unfold quarantineUntil at huntil
    omega

theorem Quarantined.step (hq : Quarantined r) (hstep : RowStep sha256 s r op r' d) :
    Quarantined r' := by
  cases hstep with
  | leased hrow => exact absurd hrow (hq.notMem_claimRows s _ _ _)
  | @reclaimed now =>
    obtain hterm | ⟨hready, huntil⟩ := hq
    · rw [reclaimRow_of_terminal hterm]
      exact .inl hterm
    · have hrow := reofferRow_of_ready hready s now
      obtain ⟨h, -⟩ | ⟨h, -⟩ := reclaimRow_cases s now r
      · rw [h, hrow]
        exact .inr ⟨hready, huntil⟩
      · rw [h]
        exact .inl rfl
  | ended hcall =>
    left
    cases hcall <;> rfl
  | settled _ _ hstate _ => exact .inl (settleRow_terminal hstate r).1
  | moved hlive =>
    obtain hterm | hready := hq
    · rw [hterm] at hlive
      cases hlive
    · exact .inr hready
  | _ => exact hq

/-- The `reclaim` that meets an uncertain submission quarantines the row, unless it kills it
in the same call; neither spends an attempt. -/
theorem quarantined_reclaimRow {now : Int} (hexp : leaseExpired now r = true)
    (huncertain : s.lastOutcomeIn r.msgId r.claimId = some .submissionUncertain) :
    reofferRow s now r = (reofferPatch 0 (quarantineUntil r)).apply r ∧
    Quarantined (reclaimRow s now r) := by
  have hsweep : reofferRow s now r = (reofferPatch 0 (quarantineUntil r)).apply r := by
    obtain ⟨hno, -⟩ | ⟨-, -, h⟩ | ⟨-, hno, -⟩ := reofferRow_cases s now r
    · rw [hexp] at hno
      cases hno
    · exact h
    · exact absurd huncertain hno
  refine ⟨hsweep, ?_⟩
  obtain ⟨h, -⟩ | ⟨h, -⟩ := reclaimRow_cases s now r
  · rw [h, hsweep]
    exact .inr ⟨rfl, rfl⟩
  · rw [h]
    exact .inl rfl

/-! ## If nobody settles it -/

/-- Does this call settle `m` on somebody's behalf? -/
def Settles (m : String) (s : Store) : Op → Prop
  | .settle msgId _ _ _ _ => msgId = m
  | .settleThrough receiverId upToId now => m ∈ (settleThrough s receiverId upToId now).1
  | .cancelOnComplete receiverId now => m ∈ (cancelOnComplete s receiverId now).1
  | _ => False

/-- The row died with `attempts` spent, and not for having spent them. -/
def DiedUnspent (attempts : Int) (s : Store) (m : String) (r : QueueMessage) : Prop :=
  r.state = .dead ∧ r.attempts = attempts ∧
    ∃ l, s.deadLetter m = some l ∧ l.reason ≠ .maxAttempts ∧ l.attempts = attempts

/-- Waiting out its quarantine with `attempts` spent, fewer than it may. -/
def WaitsUnspent (attempts : Int) (s : Store) (m : String) (r : QueueMessage) : Prop :=
  r.state = .ready ∧ r.availableAt = quarantineUntil r ∧ r.attempts = attempts ∧
    r.attempts < r.maxAttempts ∧ s.deadLetter m = none

theorem deadReasonFor_ne_maxAttempts (h : r.attempts < r.maxAttempts) :
    deadReasonFor r ≠ .maxAttempts := by
  have hno : ¬ r.attempts ≥ r.maxAttempts := by omega
  unfold deadReasonFor
  rw [if_neg hno]
  cases r.expireAfterS with
  | none => simp
  | some s =>
    simp only
    split <;> simp

/-- The sweeps kill a row that has attempts left for its hold or for its deadline. -/
theorem reclaimLetter_unspent {now : Int} {l : DeadLetter}
    (hspare : (reofferRow s now r).attempts < (reofferRow s now r).maxAttempts)
    (hl : reclaimLetter s now r = some l) :
    l.reason ≠ .maxAttempts ∧ l.attempts = (reofferRow s now r).attempts := by
  unfold reclaimLetter at hl
  simp only at hl
  split at hl
  · cases hl
    exact ⟨by simp [letterFor], rfl⟩
  · split at hl
    · cases hl
      exact ⟨deadReasonFor_ne_maxAttempts hspare, rfl⟩
    · cases hl

/-- One `reclaim` of a row that the lease sweep leaves ready and quarantined, with attempts to
spare: it waits on, or dies unspent. -/
theorem reclaim_unspent {now attempts : Int} (hget : s.get m = some r)
    (hnone : s.deadLetter m = none)
    (hwaits : WaitsUnspent attempts s m (reofferRow s now r)) (r' : QueueMessage)
    (hget' : (reclaim s now).1.get m = some r') :
    WaitsUnspent attempts (reclaim s now).1 m r' ∨
      DiedUnspent attempts (reclaim s now).1 m r' := by
  obtain ⟨hready, huntil, hatt, hspare, -⟩ := hwaits
  have hletter : (reclaim s now).1.deadLetter m = reclaimLetter s now r := by
    rw [deadLetter_reclaim, hnone, hget]
    rfl
  rw [get_reclaim, hget, Option.map_some, Option.some.injEq] at hget'
  subst hget'
  obtain ⟨h, hheld, hex⟩ | ⟨h, hlive⟩ := reclaimRow_cases s now r
  · left
    have hno : reclaimLetter s now r = none := by
      unfold reclaimLetter
      simp [hheld, hex]
    rw [h]
    exact ⟨hready, huntil, hatt, hspare, hletter.trans hno⟩
  · right
    have hdead : (reclaimRow s now r).state = .dead := by
      rw [h]
      rfl
    have hnotdead : r.state ≠ .dead := by
      intro hd
      rw [reofferRow_of_terminal ((r.terminal_iff).mpr (.inr (.inr hd))), hd] at hready
      cases hready
    obtain hd | hsome := (reclaimRow_dead_iff s now r).mp hdead
    · exact absurd hd hnotdead
    · obtain ⟨l, hl⟩ := Option.isSome_iff_exists.mp hsome
      obtain ⟨hreason, hlatt⟩ := reclaimLetter_unspent hspare hl
      refine ⟨hdead, ?_, l, hletter.trans hl, hreason, hlatt.trans hatt⟩
      rw [h]
      exact hatt

/-- While nobody settles it, the row waits or has died unspent. -/
theorem unspent_exec (sha256 : String → String) {attempts : Int} (hop : ¬ Settles m s op)
    (hnew : op.minted ≠ some m)
    (hrow : ∀ r, s.get m = some r → WaitsUnspent attempts s m r ∨ DiedUnspent attempts s m r)
    (r' : QueueMessage) (hget' : (exec sha256 s op).get m = some r') :
    WaitsUnspent attempts (exec sha256 s op) m r' ∨
      DiedUnspent attempts (exec sha256 s op) m r' := by
  cases hget : s.get m with
  | none =>
    obtain ⟨draft, now, rfl, -, -⟩ := inserted_of_exec hget hget'
    exact absurd rfl hnew
  | some r =>
    obtain ⟨d, hstep, hd⟩ := rowStep_of_exec hget hget'
    obtain hwaits | ⟨hdead, hatt, l, hl, hreason, hlatt⟩ := hrow r hget
    · have hwaits' := hwaits
      obtain ⟨hready, huntil, hatt, hspare, hnone⟩ := hwaits'
      rw [hnone, Option.none_or] at hd
      cases hstep with
      | leased hrow' =>
        exact absurd hrow' (Quarantined.notMem_claimRows (.inr ⟨hready, huntil⟩) s _ _ _)
      | @reclaimed now =>
        have hsweep := reofferRow_of_ready hready s now
        rw [← hsweep] at hwaits
        exact reclaim_unspent hget hnone hwaits _ hget'
      | ended hcall =>
        -- an ack wants a lease; the two sweeps would have settled it
        cases hcall with
        | ack _ hack =>
          simp only [ackable, Bool.and_eq_true, beq_iff_eq] at hack
          rw [hready] at hack
          exact absurd hack.2 (by decide)
        | cancel hc => exact absurd ((mem_cancelOnComplete s _ _ m).mpr ⟨r, hget, hc⟩) hop
        | through hc => exact absurd ((mem_settleThrough s _ _ _ m).mpr ⟨r, hget, hc⟩) hop
      | settled hmsg _ _ _ => exact absurd (hmsg.symm.trans (msgId_of_get hget)) hop
      | _ => exact .inl ⟨hready, huntil, hatt, hspare, hd⟩
    · right
      obtain ⟨heldSince, rfl⟩ := hstep.final ((r.terminal_iff).mpr (.inr (.inr hdead)))
      rw [hl, Option.some_or] at hd
      exact ⟨hdead, hatt, l, hd, hreason, hlatt⟩

/-- The first `reclaim` at the deadline kills what still waits. -/
theorem died_of_deadline {attempts t : Int} (hget : s.get m = some r)
    (hrow : WaitsUnspent attempts s m r ∨ DiedUnspent attempts s m r) (ht : r.deadBy ≤ t)
    (r' : QueueMessage) (hget' : (reclaim s t).1.get m = some r') :
    DiedUnspent attempts (reclaim s t).1 m r' := by
  have hbefore : ∀ r₁, s.get m = some r₁ →
      WaitsUnspent attempts s m r₁ ∨ DiedUnspent attempts s m r₁ := by
    intro r₁ hr₁
    rw [hget] at hr₁
    cases hr₁
    exact hrow
  have hnot : ¬ Settles m s (.reclaim t) := fun h => h
  have hafter := unspent_exec id hnot (by simp [Op.minted]) hbefore r' hget'
  obtain hwaits | hdied := hafter
  · -- a ready row past its deadline does not outlive the exhaustion sweep
    rw [get_reclaim, hget, Option.map_some, Option.some.injEq] at hget'
    obtain ⟨h, -, hex⟩ | ⟨h, -⟩ := reclaimRow_cases s t r
    · rw [← h, hget'] at hex
      have hdead : r'.deadBy = r.deadBy := by
        rw [← hget']
        exact congrArg FixedColumns.deadBy (fixedColumns_reclaimRow s t r)
      simp only [exhausted, hwaits.1, beq_self_eq_true, Bool.true_and, Bool.or_eq_false_iff,
        decide_eq_false_iff_not] at hex
      omega
    · have hdead : r'.state = .dead := by
        rw [← hget', h]
        rfl
      rw [hwaits.1] at hdead
      cases hdead
  · exact hdied

theorem unspent_run {attempts : Int} (hnew : m ∉ minted ops)
    (hops : StepsSatisfy (exec sha256) (fun s op => ¬ Settles m s op) s ops)
    (hrow : ∀ r, s.get m = some r → WaitsUnspent attempts s m r ∨ DiedUnspent attempts s m r)
    (r' : QueueMessage) (hget' : (run (exec sha256) s ops).get m = some r') :
    WaitsUnspent attempts (run (exec sha256) s ops) m r' ∨
      DiedUnspent attempts (run (exec sha256) s ops) m r' := by
  induction ops generalizing s with
  | nil => exact hrow r' hget'
  | cons op ops ih =>
    obtain ⟨hop, hrest⟩ := notMem_minted_cons.mp hnew
    rw [run_cons] at hget' ⊢
    exact ih hrest hops.2 (unspent_exec sha256 hops.1 hop hrow) hget'

/-- What becomes of a row `r` whose lease a `reclaim` ended, with an uncertain submission on
record, and left the store `s`, over any later calls. -/
structure StaysQuarantined (sha256 : String → String) (s : Store) (m : String) (r : QueueMessage)
    (later : List Op) : Prop where
  never_claimed : ∀ leaseOwner t limit receiverId,
    ∀ c ∈ (claim (run (exec sha256) s later) leaseOwner t limit receiverId).1, c.msgId ≠ m
  /-- While it lives, `settle_through` settles it from the id on that it had when leased. -/
  settleable : ∀ r', (run (exec sha256) s later).get m = some r' → r'.terminal = false →
    ∀ upToId t, m ∈ (settleThrough (run (exec sha256) s later) r'.receiverId upToId t).1 ↔
      ∃ id, r.legacyMessageId = some id ∧ id ≤ upToId
  /-- If nobody settles it, it waits with its attempts, or has died unspent. -/
  unspent : StepsSatisfy (exec sha256) (fun s op => ¬ Settles m s op) s later →
    ∀ r', (run (exec sha256) s later).get m = some r' →
      WaitsUnspent r.attempts (run (exec sha256) s later) m r' ∨
        DiedUnspent r.attempts (run (exec sha256) s later) m r'
  /-- The first `reclaim` at its deadline kills it, if it is still there to be killed. -/
  dies : StepsSatisfy (exec sha256) (fun s op => ¬ Settles m s op) s later →
    ∀ t, r.deadBy ≤ t →
      (∀ r', (reclaim (run (exec sha256) s later) t).1.get m = some r' →
        DiedUnspent r.attempts (reclaim (run (exec sha256) s later) t).1 m r') ∧
      ((∀ op ∈ later, op.prunes = false) →
        ∃ r', (reclaim (run (exec sha256) s later) t).1.get m = some r')

/-- No second submission after an uncertain one. -/
theorem quarantined_after_uncertain (sha256 : String → String) (before later : List Op)
    (m : String) (r : QueueMessage) (now : Int)
    (hmint : (minted (before ++ .reclaim now :: later)).Nodup)
    (hget : (run (exec sha256) Store.empty before).get m = some r)
    (hexp : leaseExpired now r = true)
    (huncertain : (run (exec sha256) Store.empty before).lastOutcomeIn m r.claimId =
      some .submissionUncertain) :
    StaysQuarantined sha256 (reclaim (run (exec sha256) Store.empty before) now).1 m r later := by
  obtain ⟨s₀, hs₀⟩ : ∃ s₀, s₀ = run (exec sha256) Store.empty before := ⟨_, rfl⟩
  have hinv : RowInv r := run_rowInv before hget
  have hnew : m ∉ minted later := (notMem_minted_cons.mp (notMem_minted_of_get hmint hget)).2
  have hleased := leaseExpired_state hexp
  have hlive : r.terminal = false := (r.terminal_eq_false_iff).mpr (.inr hleased)
  have hnone : s₀.deadLetter m = none := by
    rw [hs₀, ← Option.not_isSome_iff_eq_none, lettersMatch_run sha256 before m]
    rintro ⟨r₁, hr₁, hd₁⟩
    rw [hget] at hr₁
    cases hr₁
    rw [hleased] at hd₁
    cases hd₁
  rw [← hs₀] at hget huncertain ⊢
  rw [← msgId_of_get hget] at huncertain
  obtain ⟨hsweep, hquar⟩ := quarantined_reclaimRow hexp huncertain
  have hget₁ : (reclaim s₀ now).1.get m = some (reclaimRow s₀ now r) := by
    rw [get_reclaim, hget]
    rfl
  -- every later state of the row is quarantined and keeps the once-written columns
  have hlater : ∀ r', (run (exec sha256) (reclaim s₀ now).1 later).get m = some r' →
      Quarantined r' ∧ fixedColumns r' = fixedColumns r := by
    intro r' hget'
    have hq := run_row_rel (Q := fun a b => Quarantined a → Quarantined b)
      (fun _ h => h) (fun _ _ _ hab hbc ha => hbc (hab ha)) (fun hstep hq => hq.step hstep)
      later hnew hget₁ hget' hquar
    have hfixed := run_fixedColumns later hnew hget₁ hget'
    exact ⟨hq, hfixed.trans (fixedColumns_reclaimRow s₀ now r)⟩
  have hwaits : WaitsUnspent r.attempts s₀ m (reofferRow s₀ now r) := by
    have hspare := hinv.attempts_lt hlive
    rw [hsweep]
    refine ⟨rfl, rfl, ?_, ?_, hnone⟩
    · show r.attempts + 0 = r.attempts
      omega
    · show r.attempts + 0 < r.maxAttempts
      omega
  have hunspent : StepsSatisfy (exec sha256) (fun s op => ¬ Settles m s op) (reclaim s₀ now).1 later →
      ∀ r', (run (exec sha256) (reclaim s₀ now).1 later).get m = some r' →
        WaitsUnspent r.attempts (run (exec sha256) (reclaim s₀ now).1 later) m r' ∨
          DiedUnspent r.attempts (run (exec sha256) (reclaim s₀ now).1 later) m r' := by
    intro hsteps r' hget'
    exact unspent_run hnew hsteps (reclaim_unspent hget hnone hwaits) r' hget'
  refine ⟨?_, ?_, hunspent, ?_⟩
  · intro leaseOwner t limit receiverId c hc hm
    obtain ⟨r', hrow, rfl⟩ := mem_claim _ leaseOwner t limit receiverId c hc
    obtain ⟨hget', -⟩ := mem_claimRows hrow
    have hid : r'.msgId = m := hm
    rw [hid] at hget'
    exact (hlater r' hget').1.notMem_claimRows _ t limit receiverId hrow
  · intro r' hget' hlive' upToId t
    have hlegacy : r'.legacyMessageId = r.legacyMessageId :=
      congrArg FixedColumns.legacyMessageId (hlater r' hget').2
    rw [mem_settleThrough, hget']
    simp only [Option.some.injEq, exists_eq_left', Queue.settleable, hlive', hlegacy, beq_self_eq_true,
      Bool.true_and, Bool.not_false, Bool.and_true, Option.any_eq_true, decide_eq_true_eq]
  · intro hsteps t ht
    refine ⟨?_, ?_⟩
    · intro r' hget'
      cases hs : (run (exec sha256) (reclaim s₀ now).1 later).get m with
      | none =>
        rw [get_reclaim, hs] at hget'
        cases hget'
      | some r₁ =>
        have hdead₁ : r₁.deadBy = r.deadBy := congrArg FixedColumns.deadBy (hlater r₁ hs).2
        exact died_of_deadline hs (hunspent hsteps r₁ hs) (by omega) r' hget'
    · intro hprune
      obtain ⟨r₁, hr₁, -⟩ := run_row_kept sha256 (Q := fun _ _ => True)
        (fun _ => trivial) (fun _ _ _ _ _ => trivial) (fun _ => trivial) later hprune hget₁
      refine ⟨reclaimRow (run (exec sha256) (reclaim s₀ now).1 later) t r₁, ?_⟩
      rw [get_reclaim, hr₁]
      rfl

/-- A message leased at 0 whose submission was uncertain. -/
def uncertainLease : List Op :=
  [.enqueue { seatDraft with legacyMessageId := some 7 } "01" 0,
    .claim "tick" 0 5 none, .recordAttempt ⟨"01", 1, "pane", 0, .submissionUncertain, ""⟩]

/-- A row whose submission was left uncertain, and its quarantine. -/
theorem quarantined_after_uncertainLease :
    StaysQuarantined id (reclaim (run (exec id) Store.empty uncertainLease) (seconds 61)).1 "01"
      (leaseRow "tick" 0 (draftRow id
        { idempotencyKey := "k", receiverId := "seat", legacyMessageId := some 7 } "01" 0))
      [.claim "tick" (seconds 70) 5 none, .reparent "01" "other" (seconds 80) "",
        .claim "tick" (seconds 1699) 5 none] :=
  quarantined_after_uncertain id uncertainLease _ "01" _ (seconds 61) (by decide) rfl (by decide)
    (by decide)

/-- A message that no seat's surrogate names, leased at 0, whose submission was uncertain. -/
def uncertainNotice : List Op :=
  [.enqueue seatDraft "01" 0, .claim "tick" 0 5 none,
    .recordAttempt ⟨"01", 1, "pane", 0, .submissionUncertain, ""⟩, .reclaim (seconds 61)]

/-- Quarantined without a surrogate, the row waits and no `settle_through` settles it. -/
theorem not_settleable_uncertainNotice :
    (run (exec id) Store.empty (uncertainNotice.take 3)).lastOutcomeIn "01" 1 =
      some .submissionUncertain ∧
    ∃ r, (run (exec id) Store.empty uncertainNotice).get "01" = some r ∧ r.state = .ready ∧
      r.receiverId = "seat" ∧ ∀ upToId t,
        "01" ∉ (settleThrough (run (exec id) Store.empty uncertainNotice) "seat" upToId t).1 := by
  refine ⟨by decide, _, rfl, rfl, rfl, fun upToId t hmem => ?_⟩
  obtain ⟨r, hget, hrow⟩ := (mem_settleThrough _ _ _ _ _).mp hmem
  have hnone : r.legacyMessageId = none := by
    have hlegacy := congrArg (Option.map (·.legacyMessageId)) hget
    exact (Option.some.inj hlegacy).symm
  unfold settleable at hrow
  rw [hnone, Option.any_none, Bool.and_false, Bool.false_and] at hrow
  cases hrow

end CliAgentOrchestrator.Queue
