import CliAgentOrchestrator.Queue.RowInvariant

/-!
# Endings

A row ends once. The statements that write a terminal state guard in different ways: some on
the state, some on a row read before, `_kill` on nothing. Seen from one row they agree: none
of them reaches a row that has ended, so the dead letter of a row, the report of its death and
the state it died in all come from one call.
-/

set_option autoImplicit false

namespace CliAgentOrchestrator.Queue

open CliAgentOrchestrator.Core Library

variable {sha256 : String → String} {s s' : Store} {m : String} {r r' : QueueMessage} {op : Op}
  {d : Option DeadLetter} {ops : List Op}

/-! ## A row that has ended -/

theorem reofferRow_of_terminal (hterm : r.terminal = true) (s : Store) (now : Int) :
    reofferRow s now r = r := by
  obtain ⟨-, h⟩ | ⟨hexp, -⟩ | ⟨hexp, -⟩ := reofferRow_cases s now r
  · exact h
  all_goals
    have hlive := (r.terminal_eq_false_iff).mpr (.inr (leaseExpired_state hexp))
    rw [hterm] at hlive
    cases hlive

theorem reclaimRow_of_terminal (hterm : r.terminal = true) (s : Store) (now : Int) :
    reclaimRow s now r = r := by
  have hsweep := reofferRow_of_terminal hterm s now
  obtain ⟨h, -⟩ | ⟨-, hlive⟩ := reclaimRow_cases s now r
  · rw [h, hsweep]
  · rw [hsweep, hterm] at hlive
    cases hlive

/-- The one thing a step can still do to an ended row is move its dialog-hold clock. -/
theorem RowStep.final (hstep : RowStep sha256 s r op r' d) (hterm : r.terminal = true) :
    ∃ heldSince, r' = (holdPatch heldSince).apply r := by
  have hno : ∀ {p : Prop}, r.terminal = false → p := by
    intro p hlive
    rw [hterm] at hlive
    cases hlive
  cases hstep with
  | kept _ => exact ⟨r.heldSince, rfl⟩
  | leased hrow =>
    obtain ⟨hready, -, -⟩ := claimable_of_mem_claimRows hrow
    exact hno ((r.terminal_eq_false_iff).mpr (.inl hready))
  | reclaimed =>
    rw [reclaimRow_of_terminal hterm]
    exact ⟨r.heldSince, rfl⟩
  | ended hcall => exact hno hcall.live
  | settled _ hlive | moved hlive => exact hno hlive
  | held => exact ⟨_, rfl⟩

/-- What is alive after a step was alive before it. -/
theorem RowStep.live_before (hstep : RowStep sha256 s r op r' d) (hlive : r'.terminal = false) :
    r.terminal = false := by
  cases hterm : r.terminal with
  | false => rfl
  | true =>
    obtain ⟨heldSince, rfl⟩ := hstep.final hterm
    exact absurd hterm (by rw [show r.terminal = false from hlive]; decide)

/-- An ended row keeps its state, its ending time and its receiver along any run that does not
mint its id again. -/
theorem run_final (hnew : m ∉ minted ops) (h : s.get m = some r)
    (hterm : r.terminal = true) (h' : (run (exec sha256) s ops).get m = some r') :
    r'.state = r.state ∧ r'.terminatedAt = r.terminatedAt ∧ r'.receiverId = r.receiverId := by
  have hrel := run_row_rel
    (Q := fun a b => a.terminal = true →
      b.state = a.state ∧ b.terminatedAt = a.terminatedAt ∧ b.receiverId = a.receiverId)
    (fun _ _ => ⟨rfl, rfl, rfl⟩) ?_ ?_ ops hnew h h'
  · exact hrel hterm
  · intro a b c hab hbc ha
    obtain ⟨h1, h2, h3⟩ := hab ha
    have hb : b.terminal = true := by
      unfold QueueMessage.terminal at ha ⊢
      rwa [h1]
    obtain ⟨h4, h5, h6⟩ := hbc hb
    exact ⟨h4.trans h1, h5.trans h2, h6.trans h3⟩
  · intro s r r' op l hstep ha
    obtain ⟨heldSince, rfl⟩ := hstep.final ha
    exact ⟨rfl, rfl, rfl⟩

/-! ## Dead letters -/

/-- Why this call kills a live row, if it does. -/
def deathReason (s : Store) (r : QueueMessage) : Op → Option DeadReason
  | .reclaim now =>
    if heldTooLong (ceilingBefore now) (reofferRow s now r) then some .vetoCeiling
    else if exhausted now (reofferRow s now r) then some (deadReasonFor (reofferRow s now r))
    else none
  | .settle _ .dead _ reason _ => reason
  | _ => none

theorem reclaimLetter_reason (s : Store) (now : Int) (r : QueueMessage) :
    (reclaimLetter s now r).map DeadLetter.reason = deathReason s r (.reclaim now) := by
  unfold reclaimLetter deathReason
  simp only
  split
  · rfl
  · split <;> rfl

/-- The rows a `reclaim` kills are the ones it writes a letter for. -/
theorem reclaimRow_dead_iff (s : Store) (now : Int) (r : QueueMessage) :
    (reclaimRow s now r).state = .dead ↔ r.state = .dead ∨ (reclaimLetter s now r).isSome := by
  have hstate : (reofferRow s now r).state = .dead ↔ r.state = .dead := by
    obtain ⟨-, h⟩ | ⟨hexp, -, h⟩ | ⟨hexp, -, h⟩ := reofferRow_cases s now r
    · rw [h]
    all_goals
      rw [h, leaseExpired_state hexp]
      exact ⟨fun hd => (nomatch hd), fun hd => (nomatch hd)⟩
  unfold reclaimRow killRow reclaimLetter
  simp only
  by_cases hheld : heldTooLong (ceilingBefore now) (reofferRow s now r) = true
  · rw [if_pos hheld, if_pos hheld, exhausted_killed]
    exact ⟨fun _ => .inr rfl, fun _ => rfl⟩
  · rw [if_neg hheld, if_neg hheld]
    by_cases hex : exhausted now (reofferRow s now r) = true
    · rw [if_pos hex, if_pos hex]
      exact ⟨fun _ => .inr rfl, fun _ => rfl⟩
    · rw [if_neg hex, if_neg hex, hstate]
      simp

/-- A call writes a letter for a row exactly when it takes the row from life to death. -/
theorem RowStep.dead_iff (hstep : RowStep sha256 s r op r' d) :
    r'.state = .dead ↔ r.state = .dead ∨ d.isSome := by
  have hquiet : ∀ {a : QueueMessage}, a.state = r.state →
      (a.state = .dead ↔ r.state = .dead ∨ (none : Option DeadLetter).isSome) := by
    intro a ha
    rw [ha]
    simp
  have hlive : r.terminal = false → r.state ≠ .dead := by
    intro hl hd
    rw [(r.terminal_iff).mpr (.inr (.inr hd))] at hl
    cases hl
  cases hstep with
  | leased hrow =>
    obtain ⟨hready, -, -⟩ := claimable_of_mem_claimRows hrow
    rw [hready]
    exact ⟨fun h => (nomatch h), fun h => h.elim (fun h => (nomatch h)) (fun h => (nomatch h))⟩
  | reclaimed => exact reclaimRow_dead_iff s _ r
  | ended hcall =>
    have hne := hlive hcall.live
    cases hcall <;> exact ⟨fun h => (nomatch h), fun h => h.elim (absurd · hne) (fun h => (nomatch h))⟩
  | @settled msgId state now reason attempts _ hl hstate hreason =>
    rw [(settleRow_terminal hstate r).2.1]
    unfold settleLetter
    by_cases hd : state = .dead
    · rw [if_pos hd, Option.isSome_map]
      exact ⟨fun _ => .inr (Option.isSome_iff_ne_none.mpr (hreason hd)), fun _ => hd⟩
    · rw [if_neg hd]
      exact ⟨fun h => absurd h hd, fun h => h.elim (absurd · (hlive hl)) (fun h => (nomatch h))⟩
  | _ => exact hquiet rfl

/-- The letter a call writes is about a row that was alive, and carries the call's reason. -/
theorem RowStep.letter {letter : DeadLetter} (hstep : RowStep sha256 s r op r' d)
    (hd : d = some letter) :
    r.terminal = false ∧ deathReason s r op = some letter.reason := by
  cases hstep with
  | @reclaimed now =>
    refine ⟨?_, ?_⟩
    · -- an ended row is out of reach of both sweeps
      by_contra hterm
      rw [Bool.not_eq_false] at hterm
      have hrow := reofferRow_of_terminal hterm s now
      have hready : ¬ (r.state = .ready ∨ r.state = .leased) := by
        rw [← r.terminal_eq_false_iff, hterm]
        simp
      simp only [not_or] at hready
      have hheld : heldTooLong (ceilingBefore now) r = false := by
        simp [heldTooLong, hready.1, hready.2]
      have hex : exhausted now r = false := by simp [exhausted, hready.1]
      simp [reclaimLetter, hrow, hheld, hex] at hd
    · rw [← reclaimLetter_reason, hd]
      rfl
  | @settled msgId state now reason attempts _ hl _ _ =>
    refine ⟨hl, ?_⟩
    unfold settleLetter at hd
    by_cases hs : state = .dead
    · subst hs
      rw [if_pos rfl] at hd
      obtain ⟨why, rfl, rfl⟩ := Option.map_eq_some_iff.mp hd
      rfl
    · rw [if_neg hs] at hd
      cases hd
  | _ => cases hd

/-- Dead letters and dead rows correspond. -/
def LettersMatch (s : Store) : Prop :=
  ∀ m, (s.deadLetter m).isSome ↔ ∃ r, s.get m = some r ∧ r.state = .dead

theorem lettersMatch_exec (hmatch : LettersMatch s) (op : Op) :
    LettersMatch (exec sha256 s op) := by
  intro m
  have hm := hmatch m
  cases h : s.get m with
  | none =>
    rw [h] at hm
    have hnone : ¬ (s.deadLetter m).isSome = true := by simpa using hm
    cases h' : (exec sha256 s op).get m with
    | none =>
      rw [deadLetter_of_absent h h']
      simpa using hnone
    | some r' =>
      obtain ⟨draft, now, -, rfl, hd⟩ := inserted_of_exec h h'
      rw [hd]
      constructor
      · intro hs
        exact absurd hs hnone
      · rintro ⟨r, hr, hdead⟩
        cases hr
        cases hdead
  | some r =>
    have hbefore : (s.deadLetter m).isSome = true ↔ r.state = .dead := by
      rw [hm, h]
      simp
    cases h' : (exec sha256 s op).get m with
    | none =>
      rw [(prunes_of_exec h h').2]
      simp
    | some r' =>
      obtain ⟨d, hstep, hd⟩ := rowStep_of_exec h h'
      have hboth : ((s.deadLetter m).or d).isSome = true ↔ r'.state = .dead := by
        rw [hstep.dead_iff, ← hbefore, Option.isSome_or, Bool.or_eq_true]
      rw [hd, hboth]
      simp

theorem lettersMatch_run (sha256 : String → String) (ops : List Op) :
    LettersMatch (run (exec sha256) Store.empty ops) := by
  refine run_invariant LettersMatch (fun s op h => lettersMatch_exec h op) Store.empty ?_ ops
  intro m
  have hget : Store.empty.get m = none := Table.get_empty m
  have hdead : Store.empty.deadLetter m = none := Table.get_empty m
  rw [hget, hdead]
  simp

/-- A letter that is gone comes back only with its row. -/
theorem run_deadLetter_none (hnew : m ∉ minted ops) (hget : s.get m = none)
    (hdead : s.deadLetter m = none) : (run (exec sha256) s ops).deadLetter m = none := by
  induction ops generalizing s with
  | nil => exact hdead
  | cons op ops ih =>
    obtain ⟨hop, hrest⟩ := notMem_minted_cons.mp hnew
    have hgone : (exec sha256 s op).get m = none := by
      have := run_get_none sha256 [op] (notMem_minted_cons.mpr ⟨hop, by simp [minted]⟩)
        hget
      rwa [run_singleton] at this
    rw [run_cons]
    exact ih hrest hgone ((deadLetter_of_absent hget hgone).trans hdead)

/-- A letter is never rewritten. -/
theorem run_deadLetter_eq {l l' : DeadLetter} (hnew : m ∉ minted ops) (hget : s.get m = some r)
    (hl : s.deadLetter m = some l) (hl' : (run (exec sha256) s ops).deadLetter m = some l') :
    l' = l := by
  induction ops generalizing s r with
  | nil =>
    rw [run_nil, hl] at hl'
    exact (Option.some.inj hl').symm
  | cons op ops ih =>
    obtain ⟨-, hrest⟩ := notMem_minted_cons.mp hnew
    rw [run_cons] at hl'
    cases h₁ : (exec sha256 s op).get m with
    | none =>
      obtain ⟨-, hd⟩ := prunes_of_exec hget h₁
      rw [run_deadLetter_none hrest h₁ hd] at hl'
      cases hl'
    | some r₁ =>
      obtain ⟨d, -, hd⟩ := rowStep_of_exec hget h₁
      rw [hl, Option.some_or] at hd
      exact ih hrest h₁ hd hl'

/-- A dead letter was written by a call that killed its row, for that call's reason. -/
theorem killed_of_deadLetter {l : DeadLetter} (ops : List Op)
    (hl : (run (exec sha256) Store.empty ops).deadLetter m = some l) :
    ∃ before op after r, ops = before ++ op :: after ∧
      (run (exec sha256) Store.empty before).get m = some r ∧ r.terminal = false ∧
      deathReason (run (exec sha256) Store.empty before) r op = some l.reason := by
  induction ops using List.reverseRecOn generalizing l with
  | nil =>
    have hdead : Store.empty.deadLetter m = none := Table.get_empty m
    rw [run_nil, hdead] at hl
    cases hl
  | append_singleton ops op ih =>
    -- a letter that was there before
    have hold : ∀ l, (run (exec sha256) Store.empty ops).deadLetter m = some l →
        ∃ before op' after r, ops ++ [op] = before ++ op' :: after ∧
          (run (exec sha256) Store.empty before).get m = some r ∧ r.terminal = false ∧
          deathReason (run (exec sha256) Store.empty before) r op' = some l.reason := by
      intro l hl
      obtain ⟨before, op', after, r, rfl, hrest⟩ := ih hl
      exact ⟨before, op', after ++ [op], r, by simp, hrest⟩
    rw [run_concat] at hl
    cases h : (run (exec sha256) Store.empty ops).get m with
    | none =>
      cases h' : (exec sha256 (run (exec sha256) Store.empty ops) op).get m with
      | none =>
        rw [deadLetter_of_absent h h'] at hl
        exact hold l hl
      | some r' =>
        obtain ⟨-, -, -, -, hd⟩ := inserted_of_exec h h'
        rw [hd] at hl
        exact hold l hl
    | some r =>
      cases h' : (exec sha256 (run (exec sha256) Store.empty ops) op).get m with
      | none =>
        rw [(prunes_of_exec h h').2] at hl
        cases hl
      | some r' =>
        obtain ⟨d, hstep, hd⟩ := rowStep_of_exec h h'
        rw [hd] at hl
        cases hd₀ : (run (exec sha256) Store.empty ops).deadLetter m with
        | some l₀ =>
          rw [hd₀, Option.some_or] at hl
          rw [hl] at hd₀
          exact hold l hd₀
        | none =>
          rw [hd₀, Option.none_or] at hl
          obtain ⟨hlive, hreason⟩ := hstep.letter hl
          exact ⟨ops, op, [], r, rfl, h, hlive, hreason⟩

/-- The call that takes a row from life to death gives the reason on its letter. -/
theorem reason_of_transition {before after : List Op} {l : DeadLetter}
    (hmint : (minted (before ++ op :: after)).Nodup)
    (hget : (run (exec sha256) Store.empty before).get m = some r) (hlive : r.terminal = false)
    (hget' : (run (exec sha256) Store.empty (before ++ [op])).get m = some r')
    (hdead : r'.state = .dead)
    (hl : (run (exec sha256) Store.empty (before ++ op :: after)).deadLetter m = some l) :
    deathReason (run (exec sha256) Store.empty before) r op = some l.reason := by
  have hnew : m ∉ minted after := by
    have := notMem_minted_of_get hmint hget
    exact (notMem_minted_cons.mp this).2
  rw [run_concat] at hget'
  obtain ⟨d, hstep, hd⟩ := rowStep_of_exec hget hget'
  have hnotdead : r.state ≠ .dead := by
    intro h
    rw [(r.terminal_iff).mpr (.inr (.inr h))] at hlive
    cases hlive
  -- no letter before, so the one after is this call's
  have hnone : (run (exec sha256) Store.empty before).deadLetter m = none := by
    rw [← Option.not_isSome_iff_eq_none, lettersMatch_run sha256 before m]
    rintro ⟨r₁, hr₁, hd₁⟩
    rw [hget] at hr₁
    cases hr₁
    exact hnotdead hd₁
  obtain ⟨letter, hletter⟩ : ∃ letter, d = some letter := by
    obtain h | h := (hstep.dead_iff).mp hdead
    · exact absurd h hnotdead
    · exact Option.isSome_iff_exists.mp h
  rw [hnone, Option.none_or, hletter] at hd
  rw [run_append, run_cons] at hl
  have heq := run_deadLetter_eq hnew hget' hd hl
  rw [heq]
  exact (hstep.letter hletter).2

/-! ## Reports -/

/-- The ids this call reports dead. -/
def reportedBy (s : Store) : Op → Option (List String)
  | .reclaim now => some ((reclaim s now).2.dead.map DeadRow.msgId)
  | _ => none

/-- The ids a run reports dead, over all its reclaims. -/
def reportedDead (sha256 : String → String) (ops : List Op) : List String :=
  (observed (exec sha256) reportedBy Store.empty ops).flatten

theorem map_msgId_reclaim_dead (s : Store) (now : Int) :
    (reclaim s now).2.dead.map DeadRow.msgId =
      ((leaseSweep s now).1.deliveryMsg.select (heldTooLong (ceilingBefore now))).map
        QueueMessage.msgId ++
      ((holdSweep now (leaseSweep s now)).1.deliveryMsg.select (exhausted now)).map
        QueueMessage.msgId := by
  rw [reclaim_dead, List.map_append, List.map_map, List.map_map]
  rfl

/-- A `reclaim` reports the rows it writes letters for. -/
theorem mem_reclaim_dead (s : Store) (now : Int) (m : String) :
    m ∈ (reclaim s now).2.dead.map DeadRow.msgId ↔
      ∃ r, s.get m = some r ∧ (reclaimLetter s now r).isSome := by
  have hhold : (holdSweep now (leaseSweep s now)).1.get m =
      (s.get m).map fun r => killRow (heldTooLong (ceilingBefore now)) now (reofferRow s now r) := by
    unfold holdSweep
    rw [get_deathSweep, get_leaseSweep, Option.map_map]
    rfl
  rw [map_msgId_reclaim_dead, List.mem_append, mem_map_select, mem_map_select, hhold,
    get_leaseSweep]
  cases s.get m with
  | none => simp
  | some r =>
    simp only [Option.map_some, Option.some.injEq, exists_eq_left', reclaimLetter, killRow]
    by_cases hheld : heldTooLong (ceilingBefore now) (reofferRow s now r) = true
    · simp [hheld]
    · by_cases hex : exhausted now (reofferRow s now r) = true <;> simp [hheld, hex]

/-- One call reports no id twice: what the ceiling sweep killed the exhaustion sweep no longer
selects. -/
theorem nodup_reclaim_dead (s : Store) (now : Int) :
    ((reclaim s now).2.dead.map DeadRow.msgId).Nodup := by
  rw [map_msgId_reclaim_dead, List.nodup_append]
  refine ⟨Table.select_nodup _ _, Table.select_nodup _ _, ?_⟩
  rintro m hm _ hm' rfl
  obtain ⟨r, hget, hheld⟩ := (mem_map_select _ _ m).mp hm
  obtain ⟨r', hget', hex⟩ := (mem_map_select _ _ m).mp hm'
  unfold holdSweep at hget'
  rw [get_deathSweep, hget, Option.map_some, Option.some.injEq] at hget'
  rw [← hget', killRow, if_pos hheld, exhausted_killed] at hex
  cases hex

theorem mem_reportedBy (sha256 : String → String) {ids : List String} (h : reportedBy s op = some ids) :
    ids.Nodup ∧ ∀ m, m ∈ ids → ∃ r, s.get m = some r ∧ r.terminal = false ∧
      ∀ r', (exec sha256 s op).get m = some r' → r'.terminal = true := by
  cases op with
  | reclaim now =>
    cases h
    refine ⟨nodup_reclaim_dead s now, ?_⟩
    intro m hm
    obtain ⟨r, hget, hletter⟩ := (mem_reclaim_dead s now m).mp hm
    obtain ⟨letter, hletter⟩ := Option.isSome_iff_exists.mp hletter
    have hstep : RowStep sha256 s r (.reclaim now) (reclaimRow s now r) (reclaimLetter s now r) :=
      .reclaimed
    refine ⟨r, hget, (hstep.letter hletter).1, ?_⟩
    intro r' hget'
    have hrow : (exec sha256 s (.reclaim now)).get m = some (reclaimRow s now r) := by
      show (reclaim s now).1.get m = _
      rw [get_reclaim, hget]
      rfl
    rw [hrow] at hget'
    cases hget'
    have hdead := (hstep.dead_iff).mpr (.inr (by rw [hletter]; rfl))
    exact (QueueMessage.terminal_iff _).mpr (.inr (.inr hdead))
  | _ => cases h

/-- What a run has reported dead it never reports again: the id was minted, and its row, while
it is there, has ended. -/
theorem reportedDead_accounted (ops : List Op) (hmint : (minted ops).Nodup) :
    (reportedDead sha256 ops).Nodup ∧
      ∀ m, m ∈ reportedDead sha256 ops → m ∈ minted ops ∧
        ∀ r, (run (exec sha256) Store.empty ops).get m = some r → r.terminal = true := by
  induction ops using List.reverseRecOn with
  | nil => exact ⟨List.nodup_nil, by simp [reportedDead, observed]⟩
  | append_singleton ops op ih =>
    have hmatch : (minted ops).Nodup := by
      unfold minted at hmint ⊢
      rw [List.filterMap_append] at hmint
      exact (List.nodup_append.mp hmint).1
    obtain ⟨hnodup, hold⟩ := ih hmatch
    have hsplit : reportedDead sha256 (ops ++ [op]) = reportedDead sha256 ops ++
        ((reportedBy (run (exec sha256) Store.empty ops) op).toList).flatten := by
      unfold reportedDead
      rw [observed_concat, List.flatten_append]
    have hmono : ∀ m, m ∈ minted ops → m ∈ minted (ops ++ [op]) := by
      intro m hm
      unfold minted at hm ⊢
      rw [List.filterMap_append]
      simp [hm]
    -- a row that had ended before this call is still ended, or gone
    have hended : ∀ m, m ∈ reportedDead sha256 ops → ∀ r',
        (exec sha256 (run (exec sha256) Store.empty ops) op).get m = some r' →
          r'.terminal = true := by
      intro m hm r' hget'
      obtain ⟨hmem, hterm⟩ := hold m hm
      cases hget : (run (exec sha256) Store.empty ops).get m with
      | none =>
        obtain ⟨draft, now, rfl, -, -⟩ := inserted_of_exec hget hget'
        unfold minted at hmint hmem
        rw [List.filterMap_append, List.nodup_append] at hmint
        exact absurd rfl (hmint.2.2 m hmem m (by simp [Op.minted]))
      | some r =>
        obtain ⟨d, hstep, -⟩ := rowStep_of_exec hget hget'
        obtain ⟨heldSince, rfl⟩ := hstep.final (hterm r hget)
        exact hterm r hget
    rw [hsplit, run_concat]
    cases hnew : reportedBy (run (exec sha256) Store.empty ops) op with
    | none =>
      simp only [Option.toList_none, List.flatten_nil, List.append_nil]
      exact ⟨hnodup, fun m hm => ⟨hmono m (hold m hm).1, hended m hm⟩⟩
    | some ids =>
      obtain ⟨hids, hrows⟩ := mem_reportedBy sha256 hnew
      simp only [Option.toList_some, List.flatten_cons, List.flatten_nil, List.append_nil]
      refine ⟨?_, ?_⟩
      · rw [List.nodup_append]
        refine ⟨hnodup, hids, ?_⟩
        rintro m hm _ hm' rfl
        obtain ⟨r, hget, hlive, -⟩ := hrows m hm'
        rw [(hold m hm).2 r hget] at hlive
        cases hlive
      · intro m hm
        obtain hm | hm := List.mem_append.mp hm
        · exact ⟨hmono m (hold m hm).1, hended m hm⟩
        · obtain ⟨r, hget, -, hdead⟩ := hrows m hm
          exact ⟨hmono m (mem_minted_of_get ops hget), hdead⟩

/-- Every row of the run ends at most once. -/
structure EndsOnce (sha256 : String → String) (ops : List Op) : Prop where
  /-- An ended row keeps its ending while it is there, and only a `prune` takes it away. -/
  final : ∀ before after m r, ops = before ++ after →
    (run (exec sha256) Store.empty before).get m = some r → r.state ∈ terminalStates →
    (∀ r', (run (exec sha256) Store.empty ops).get m = some r' →
      r'.state = r.state ∧ r'.terminatedAt = r.terminatedAt ∧ r'.receiverId = r.receiverId) ∧
    ((∀ op ∈ after, op.prunes = false) →
      ∃ r', (run (exec sha256) Store.empty ops).get m = some r')
  letter_iff : ∀ m, (∃ l, (run (exec sha256) Store.empty ops).deadLetter m = some l) ↔
    ∃ r, (run (exec sha256) Store.empty ops).get m = some r ∧ r.state = .dead
  /-- A letter comes from a call that killed its row. -/
  killed : ∀ m l, (run (exec sha256) Store.empty ops).deadLetter m = some l →
    ∃ before op after r, ops = before ++ op :: after ∧
      (run (exec sha256) Store.empty before).get m = some r ∧ r.terminal = false ∧
      deathReason (run (exec sha256) Store.empty before) r op = some l.reason
  /-- Whichever call killed the row, the letter has its reason. -/
  reason : ∀ before op after m r r' l, ops = before ++ op :: after →
    (run (exec sha256) Store.empty before).get m = some r → r.terminal = false →
    (run (exec sha256) Store.empty (before ++ [op])).get m = some r' → r'.state = .dead →
    (run (exec sha256) Store.empty ops).deadLetter m = some l →
    deathReason (run (exec sha256) Store.empty before) r op = some l.reason
  reports_nodup : (reportedDead sha256 ops).Nodup

/-- Over any run, an ending is final, a dead letter stands for a dead row and names the reason
it died of, and no row is reported dead twice. -/
theorem endsOnce_of_run (sha256 : String → String) (ops : List Op) (hmint : (minted ops).Nodup) :
    EndsOnce sha256 ops where
  final := by
    rintro before after m r rfl hget hstate
    have hterm : r.terminal = true := decide_eq_true hstate
    rw [run_append]
    refine ⟨?_, ?_⟩
    · intro r' hget'
      exact run_final (notMem_minted_of_get hmint hget) hget hterm hget'
    · intro hprune
      obtain ⟨r', hr', -⟩ := run_row_kept sha256 (Q := fun _ _ => True)
        (fun _ => trivial) (fun _ _ _ _ _ => trivial) (fun _ => trivial) after hprune hget
      exact ⟨r', hr'⟩
  letter_iff := by
    intro m
    rw [← lettersMatch_run sha256 ops m, Option.isSome_iff_exists]
  killed _ _ hl := killed_of_deadLetter ops hl
  reason := by
    rintro before op after m r r' l rfl hget hlive hget' hdead hl
    exact reason_of_transition hmint hget hlive hget' hdead hl
  reports_nodup := (reportedDead_accounted ops hmint).1

/-- A row that times out while its dialog is held: one sweep of one `reclaim` kills it. -/
def heldToDeath : List Op :=
  [.enqueue seatDraft "01" 0, .claim "tick" 0 5 none,
    .markDialogHold "01" (some 0), .reclaim (seconds 1700), .reclaim (seconds 1800),
    .settle "01" .delivered (seconds 1800) none none]

/-- A row held for a dialog until it dies ends once. -/
theorem endsOnce_of_run_heldToDeath : EndsOnce id heldToDeath :=
  endsOnce_of_run id heldToDeath (by decide)

example : reportedDead id heldToDeath = ["01"] ∧
    ((run (exec id) Store.empty heldToDeath).deadLetter "01").map DeadLetter.reason =
      some .vetoCeiling := by
  decide

end CliAgentOrchestrator.Queue
