import CliAgentOrchestrator.Orphan.AttemptSteps
import Mathlib.Tactic.Linarith

/-!
# What an attempt proves

A success stands for two scans that were complete and empty, one right behind the other
(`ProvenEmpty`), except on two ways: the grace period passes over incomplete scans between two empty
ones, and the final check asks for one scan only. `attempt_proven_iff` says that these are all, and
that an attempt ends.
-/

set_option autoImplicit false

namespace CliAgentOrchestrator.Orphan

open Library

/-! ## Scans in order -/

/-- The scans of the grace period. -/
def graceScans (log : List AttemptEvent) : List ProcScanResult :=
  ((scansOf log).filter fun p => p.1 = .grace).map Prod.snd

@[simp] theorem graceScans_append (log more : List AttemptEvent) :
    graceScans (log ++ more) = graceScans log ++ graceScans more := by
  simp [graceScans]

/-- The last two scans were complete and empty. -/
def ProvenEmpty (log : List AttemptEvent) : Prop :=
  ∃ before a b, scansOf log = before ++ [a, b] ∧ Clean a.2 ∧ Clean b.2

/-- A scan that was complete and empty, with incomplete ones behind it. -/
def Waiting (scans : List ProcScanResult) : Prop :=
  ∃ before a skipped, scans = before ++ a :: skipped ∧ Clean a
    ∧ ∀ r ∈ skipped, r.complete = false

/-- Incomplete scans stand between two that were complete and empty. -/
def Separated (scans : List ProcScanResult) : Prop :=
  ∃ before a skipped b after, scans = before ++ a :: (skipped ++ b :: after) ∧ Clean a ∧ Clean b
    ∧ skipped ≠ [] ∧ ∀ r ∈ skipped, r.complete = false

/-- No incomplete scan stood between two empty ones in the grace period, and the final scan was not
complete and empty. -/
structure Regular (log : List AttemptEvent) : Prop where
  joined : ¬Separated (graceScans log)
  notFinal : ∀ r, (.final, r) ∈ scansOf log → ¬Clean r

theorem waiting_concat (scans : List ProcScanResult) (r : ProcScanResult) :
    Waiting (scans ++ [r]) ↔ Clean r ∨ (r.complete = false ∧ Waiting scans) := by
  constructor
  · rintro ⟨before, a, skipped, heq, ha, hskipped⟩
    cases skipped using List.reverseRecOn with
    | nil =>
      obtain ⟨-, hlast⟩ := List.append_inj' heq rfl
      cases hlast
      exact .inl ha
    | append_singleton skipped last =>
      rw [← List.cons_append, ← List.append_assoc] at heq
      obtain ⟨rfl, hlast⟩ := List.append_inj' heq rfl
      cases hlast
      exact .inr ⟨hskipped r (by simp),
        before, a, skipped, rfl, ha, fun x hx => hskipped x (List.mem_append_left _ hx)⟩
  · rintro (hr | ⟨hr, before, a, skipped, rfl, ha, hskipped⟩)
    · exact ⟨scans, r, [], rfl, hr, List.forall_mem_nil _⟩
    · refine ⟨before, a, skipped ++ [r], by simp, ha, fun x hx => ?_⟩
      rcases List.mem_append.mp hx with hx | hx
      · exact hskipped x hx
      · rw [List.mem_singleton.mp hx]
        exact hr

theorem separated_concat (scans : List ProcScanResult) (r : ProcScanResult) :
    Separated (scans ++ [r]) ↔ Separated scans
      ∨ Clean r ∧ ∃ last, scans.getLast? = some last ∧ last.complete = false ∧ Waiting scans := by
  constructor
  · rintro ⟨before, a, skipped, b, after, heq, ha, hb, hne, hskipped⟩
    cases after using List.reverseRecOn with
    | nil =>
      rw [← List.cons_append, ← List.append_assoc] at heq
      obtain ⟨rfl, hlast⟩ := List.append_inj' heq rfl
      cases hlast
      refine .inr ⟨hb, skipped.getLast hne, ?_, hskipped _ (List.getLast_mem hne),
        before, a, skipped, rfl, ha, hskipped⟩
      rw [List.getLast?_append, List.getLast?_cons, List.getLast?_eq_some_getLast hne]
      rfl
    | append_singleton after last =>
      rw [← List.cons_append, ← List.append_assoc, ← List.cons_append, ← List.append_assoc] at heq
      obtain ⟨rfl, -⟩ := List.append_inj' heq rfl
      exact .inl ⟨before, a, skipped, b, after, by simp, ha, hb, hne, hskipped⟩
  · rintro (⟨before, a, skipped, b, after, rfl, ha, hb, hne, hskipped⟩
      | ⟨hr, last, hlast, hincomplete, before, a, skipped, rfl, ha, hskipped⟩)
    · exact ⟨before, a, skipped, b, after ++ [r], by simp, ha, hb, hne, hskipped⟩
    · refine ⟨before, a, skipped, r, [], by simp, ha, hr, ?_, hskipped⟩
      rintro rfl
      rw [List.getLast?_concat, Option.some.injEq] at hlast
      rw [← hlast, ha.1] at hincomplete
      exact absurd hincomplete (by decide)

variable {ownerUid : Int} {tokenHash : String} {issuanceBootId : Option Text}

/-! ## Before the end -/

/-- Behind the barrier and before the final scan, with no empty scans apart so far. -/
structure Unfinished (tokenHash : String) (s : World) : Prop where
  tombstone : tokenHash ∈ s.tombstones
  joined : ¬Separated (graceScans s.log)
  noFinal : ∀ r, (.final, r) ∉ scansOf s.log

theorem Unfinished.regular {s : World} (h : Unfinished tokenHash s) : Regular s.log :=
  ⟨h.joined, fun r hr => absurd hr (h.noFinal r)⟩

theorem graceScans_congr {log log' : List AttemptEvent} (h : scansOf log' = scansOf log) :
    graceScans log' = graceScans log := by
  rw [graceScans, h, graceScans]

theorem Unfinished.quietly {s s' : World} (h : Unfinished tokenHash s) (hq : Quietly s s') :
    Unfinished tokenHash s' where
  tombstone := hq.tombstones h.tombstone
  joined := by
    rw [graceScans_congr hq.scansOf]
    exact h.joined
  noFinal r := by
    rw [hq.scansOf]
    exact h.noFinal r

theorem Unfinished.scanned {site : ScanSite} {result : ProcScanResult} {s s' : World}
    (h : Unfinished tokenHash s) (hs : Scanned ownerUid site result s s') (hgrace : site ≠ .grace)
    (hfinal : site ≠ .final) : Unfinished tokenHash s' where
  tombstone := hs.tombstones h.tombstone
  joined := by
    rw [graceScans, hs.scansOf, List.filter_append, List.filter_cons_of_neg (by simpa using hgrace),
      List.filter_nil, List.append_nil]
    exact h.joined
  noFinal r hr := by
    rw [hs.scansOf, List.mem_append, List.mem_singleton] at hr
    rcases hr with hr | hr
    · exact h.noFinal r hr
    · exact hfinal (congrArg Prod.fst hr).symm

theorem provenEmpty_concat {log log' : List AttemptEvent} {p : ScanSite × ProcScanResult}
    (h : scansOf log' = scansOf log ++ [p]) :
    ProvenEmpty log' ↔ Clean p.2 ∧ ∃ q, (scansOf log).getLast? = some q ∧ Clean q.2 := by
  unfold ProvenEmpty
  rw [h]
  constructor
  · rintro ⟨before, a, b, heq, ha, hb⟩
    rw [show before ++ [a, b] = (before ++ [a]) ++ [b] by simp] at heq
    obtain ⟨hbefore, hlast⟩ := List.append_inj' heq rfl
    cases hlast
    exact ⟨hb, a, by rw [hbefore, List.getLast?_concat], ha⟩
  · rintro ⟨hp, q, hlast, hq⟩
    obtain ⟨before, hbefore⟩ := List.getLast?_eq_some_iff.mp hlast
    exact ⟨before, q, p, by rw [hbefore, List.append_assoc]; rfl, hq, hp⟩

/-- What the attempt ends with: it has returned, and a success stands for two empty scans in a row
exactly if the run was regular. -/
def Concluded (ended : AttemptEnd) (s : World) : Prop :=
  ended ≠ .running
    ∧ ((∀ r, ended = .returned r → r.code = .success → ProvenEmpty s.log) ↔ Regular s.log)

theorem concluded_of_provenEmpty {r : ReconcileAttemptResult} {s : World}
    (hproven : ProvenEmpty s.log) (hregular : Regular s.log) : Concluded (.returned r) s := by
  refine ⟨by simp, fun _ => hregular, ?_⟩
  rintro - _ ⟨⟩ -
  exact hproven

theorem concluded_of_ne_success {r : ReconcileAttemptResult} {s : World}
    (hcode : r.code ≠ .success) (hregular : Regular s.log) : Concluded (.returned r) s := by
  refine ⟨by simp, fun _ => hregular, ?_⟩
  rintro - _ ⟨⟩ hsuccess
  exact absurd hsuccess hcode

/-- `found.isEmpty` beside `complete`. -/
theorem clean_iff (r : ProcScanResult) :
    (r.complete && r.found.isEmpty) = true ↔ Clean r := by
  rw [Bool.and_eq_true, List.isEmpty_iff, Clean]

/-! ## The grace period -/

/-- What `empty_count` counts. -/
structure Counting (emptyCount : Nat) (log : List AttemptEvent) : Prop where
  count : emptyCount = 0 ∧ ¬Waiting (graceScans log) ∨ emptyCount = 1 ∧ Waiting (graceScans log)
  last : ∀ r, (graceScans log).getLast? = some r → (scansOf log).getLast? = some (.grace, r)

theorem Waiting.last {scans : List ProcScanResult} (h : Waiting scans) :
    ∃ r, scans.getLast? = some r ∧ (r.complete = true → Clean r) := by
  obtain ⟨before, a, skipped, rfl, ha, hskipped⟩ := h
  cases skipped using List.reverseRecOn with
  | nil => exact ⟨a, List.getLast?_concat .., fun _ => ha⟩
  | append_singleton skipped last =>
    refine ⟨last, ?_, fun hcomplete => ?_⟩
    · rw [← List.cons_append, ← List.append_assoc, List.getLast?_concat]
    · rw [hskipped last (by simp)] at hcomplete
      exact absurd hcomplete (by decide)

theorem graceScans_scanned {result : ProcScanResult} {s s' : World}
    (hs : Scanned ownerUid .grace result s s') :
    graceScans s'.log = graceScans s.log ++ [result] := by
  rw [hs.log, graceScans_append]
  rfl

/-- A scan of the grace period that does not confirm. -/
theorem Unfinished.grace {result : ProcScanResult} {s s' : World} (h : Unfinished tokenHash s)
    (hs : Scanned ownerUid .grace result s s')
    (hwaits : Clean result → ¬Waiting (graceScans s.log)) : Unfinished tokenHash s' where
  tombstone := hs.tombstones h.tombstone
  joined := by
    rw [graceScans_scanned hs, separated_concat]
    rintro (hseparated | ⟨hclean, _, -, -, hwaiting⟩)
    · exact h.joined hseparated
    · exact hwaits hclean hwaiting
  noFinal r hr := by
    rw [hs.scansOf, List.mem_append, List.mem_singleton] at hr
    rcases hr with hr | hr
    · exact h.noFinal r hr
    · cases congrArg Prod.fst hr

theorem Counting.scanned {result : ProcScanResult} {s s' : World}
    (hs : Scanned ownerUid .grace result s s') {emptyCount : Nat}
    (hcount : emptyCount = 0 ∧ ¬Waiting (graceScans s'.log)
      ∨ emptyCount = 1 ∧ Waiting (graceScans s'.log)) : Counting emptyCount s'.log where
  count := hcount
  last r hr := by
    rw [graceScans_scanned hs, List.getLast?_concat, Option.some.injEq] at hr
    rw [hs.scansOf, List.getLast?_concat, hr]

theorem Counting.quietly {emptyCount : Nat} {s s' : World} (h : Counting emptyCount s.log)
    (hq : Quietly s s') : Counting emptyCount s'.log where
  count := by
    rw [graceScans_congr hq.scansOf]
    exact h.count
  last r := by
    rw [graceScans_congr hq.scansOf, hq.scansOf]
    exact h.last r

/-- The second empty scan confirms: the two stand in a row exactly if nothing was skipped. -/
theorem provenEmpty_iff_of_confirmed {result : ProcScanResult} {s s' : World}
    (h : Unfinished tokenHash s) (hs : Scanned ownerUid .grace result s s') {emptyCount : Nat}
    (hcounting : Counting emptyCount s.log) (hwaiting : Waiting (graceScans s.log))
    (hclean : Clean result) : ProvenEmpty s'.log ↔ Regular s'.log := by
  obtain ⟨last, hlast, hcomplete⟩ := hwaiting.last
  have hscans := hcounting.last last hlast
  have hproven : ProvenEmpty s'.log ↔ Clean last := by
    rw [provenEmpty_concat hs.scansOf]
    constructor
    · rintro ⟨-, q, hq, hqclean⟩
      rw [hscans] at hq
      cases hq
      exact hqclean
    · exact fun hlastClean => ⟨hclean, _, hscans, hlastClean⟩
  rw [hproven]
  constructor
  · intro hlastClean
    refine ⟨?_, fun r hr => ?_⟩
    · rw [graceScans_scanned hs, separated_concat]
      rintro (hseparated | ⟨-, other, hother, hincomplete, -⟩)
      · exact h.joined hseparated
      · rw [hlast] at hother
        cases hother
        rw [hlastClean.1] at hincomplete
        exact absurd hincomplete (by decide)
    · rw [hs.scansOf, List.mem_append, List.mem_singleton] at hr
      rcases hr with hr | hr
      · exact absurd hr (h.noFinal r)
      · cases congrArg Prod.fst hr
  · intro hregular
    by_contra hdirty
    refine hregular.joined ?_
    rw [graceScans_scanned hs, separated_concat]
    refine .inr ⟨hclean, last, hlast, ?_, hwaiting⟩
    exact Bool.eq_false_iff.mpr fun htrue => hdirty (hcomplete htrue)

/-- The grace period ends, with a confirmation or without. -/
theorem runs_graceLoop {graceStart : ℚ} {fuel emptyCount : Nat} {s : World}
    (hfuel : graceStart + orphanTermGrace ≤ s.now + fuel * rescanInterval)
    (h : Unfinished tokenHash s) (hcounting : Counting emptyCount s.log) :
    Runs ownerUid tokenHash issuanceBootId
      (fun ended s' =>
        match ended with
        | .running => False
        | .confirmed => ProvenEmpty s'.log ↔ Regular s'.log
        | .expired => Unfinished tokenHash s')
      (graceLoop graceStart (fuel + 1) emptyCount) s := by
  induction fuel generalizing emptyCount s with
  | zero =>
    refine Runs.bind (Program.sat_call fun s₁ hs₁ _ => ⟨trivial, fun s₂ hs₂ => ?_⟩)
    change Runs _ _ _ _ (if s₁.now - graceStart < orphanTermGrace then _ else _) s₂
    rw [if_neg]
    · exact runs_pure fun s' hs' =>
        h.quietly ((hs₁.trans (hs₂.trans hs')).quietly)
    · rw [not_lt, le_sub_iff_add_le']
      refine le_trans ?_ hs₁.now
      simpa using hfuel
  | succ fuel ih =>
    refine Runs.bind (Program.sat_call fun s₁ hs₁ _ => ⟨trivial, fun s₂ hs₂ => ?_⟩)
    change Runs _ _ _ _ (if s₁.now - graceStart < orphanTermGrace then _ else _) s₂
    have h₂ := (hs₁.trans hs₂).quietly
    split
    · refine runs_sleep fun s₃ hs₃ hslept => runs_scanAt fun rescan s₄ hs₄ => ?_
      have hq : Quietly s s₃ := h₂.trans hs₃
      have hnext : graceStart + orphanTermGrace ≤ s₄.now + fuel * rescanInterval := by
        refine hfuel.trans ?_
        have hnow : s.now + rescanInterval ≤ s₄.now :=
          ((add_le_add_left h₂.now _).trans hslept).trans hs₄.now
        push_cast
        linarith
      have hgrace := graceScans_scanned hs₄
      rw [graceScans_congr hq.scansOf] at hgrace
      have hcounting₃ := hcounting.quietly hq
      cases hcomplete : rescan.complete with
      | false =>
        -- an incomplete scan is passed over
        have hdirty : ¬Clean rescan := fun hclean => by
          rw [hclean.1] at hcomplete
          exact absurd hcomplete (by decide)
        rw [if_pos (by simp)]
        refine ih hnext ((h.quietly hq).grace hs₄ fun hclean => absurd hclean hdirty)
          (Counting.scanned hs₄ ?_)
        rw [hgrace, waiting_concat]
        simpa [hdirty, hcomplete] using hcounting.count
      | true =>
        rw [if_neg (by simp)]
        by_cases hempty : rescan.found.isEmpty = true
        · have hclean : Clean rescan := ⟨hcomplete, List.isEmpty_iff.mp hempty⟩
          rw [if_pos hempty]
          rcases hcounting.count with ⟨rfl, hnot⟩ | ⟨rfl, hwaiting⟩
          · rw [if_neg (by decide)]
            refine ih hnext ((h.quietly hq).grace hs₄ fun _ => ?_) (Counting.scanned hs₄ ?_)
            · rw [graceScans_congr hq.scansOf]
              exact hnot
            · rw [hgrace, waiting_concat]
              exact .inr ⟨rfl, .inl hclean⟩
          · rw [if_pos (by decide)]
            refine runs_pure fun s' hs' => ?_
            dsimp only
            rw [hs'.log]
            refine provenEmpty_iff_of_confirmed (h.quietly hq) hs₄ hcounting₃ ?_ hclean
            rw [graceScans_congr hq.scansOf]
            exact hwaiting
        · -- what is found begins the count again
          have hdirty : ¬Clean rescan := fun hclean => hempty (List.isEmpty_iff.mpr hclean.2)
          rw [if_neg hempty]
          refine ih hnext ((h.quietly hq).grace hs₄ fun hclean => absurd hclean hdirty)
            (Counting.scanned hs₄ (.inl ⟨rfl, ?_⟩))
          rw [hgrace, waiting_concat]
          rintro (hclean | ⟨hincomplete, -⟩)
          · exact hdirty hclean
          · rw [hcomplete] at hincomplete
            exact absurd hincomplete (by decide)
    · exact runs_pure fun s' hs' => h.quietly (h₂.trans hs'.quietly)

/-! ## The rounds behind the KILL -/

/-- The last scan found something or was not complete. -/
def LastDirty (log : List AttemptEvent) : Prop :=
  ∃ p, (scansOf log).getLast? = some p ∧ ¬Clean p.2

theorem LastDirty.quietly {s s' : World} (h : LastDirty s.log) (hq : Quietly s s') :
    LastDirty s'.log := by
  unfold LastDirty
  rw [hq.scansOf]
  exact h

theorem Scanned.lastDirty {site : ScanSite} {result : ProcScanResult} {s s' : World}
    (hs : Scanned ownerUid site result s s') (hdirty : ¬Clean result) : LastDirty s'.log :=
  ⟨(site, result), by rw [hs.scansOf, List.getLast?_concat], hdirty⟩

/-- Two empty scans in a row confirm, and else the last scan was not one. -/
theorem runs_killRounds {rounds killSignaled : Nat} {s : World} (h : Unfinished tokenHash s)
    (hlast : rounds = 0 → LastDirty s.log) :
    Runs ownerUid tokenHash issuanceBootId
      (fun r s' => Unfinished tokenHash s'
        ∧ if r.1 = true then ProvenEmpty s'.log else LastDirty s'.log)
      (killRounds ownerUid rounds killSignaled) s := by
  induction rounds generalizing killSignaled s with
  | zero =>
    exact runs_pure fun s' hs' => ⟨h.quietly hs'.quietly, (hlast rfl).quietly hs'.quietly⟩
  | succ rounds ih =>
    refine runs_sleep fun s₁ hs₁ _ => runs_scanAt fun postScan s₂ hs₂ => ?_
    have h₂ : Unfinished tokenHash s₂ :=
      (h.quietly hs₁).scanned hs₂ (by decide) (by decide)
    cases hcomplete : postScan.complete with
    | false =>
      have hdirty : ¬Clean postScan := fun hclean => by
        rw [hclean.1] at hcomplete
        exact absurd hcomplete (by decide)
      rw [if_pos (by simp)]
      exact ih h₂ fun _ => hs₂.lastDirty hdirty
    | true =>
      rw [if_neg (by simp)]
      cases hempty : postScan.found.isEmpty with
      | false =>
        have hdirty : ¬Clean postScan := fun hclean => by
          rw [hclean.2] at hempty
          exact absurd hempty (by decide)
        rw [if_pos (by simp)]
        refine Runs.bind (Program.Sat.imp
          (runs_signalExactMatches (hs₂.armed (hs₁.tombstones h.tombstone)))
          fun extraKill s₃ hs₃ => ?_)
        exact ih (h₂.quietly hs₃) fun _ => (hs₂.lastDirty hdirty).quietly hs₃
      | true =>
        have hclean : Clean postScan := ⟨hcomplete, List.isEmpty_iff.mp hempty⟩
        rw [if_neg (by simp)]
        refine runs_sleep fun s₃ hs₃ _ => runs_scanAt fun confirmScan s₄ hs₄ => ?_
        have h₄ : Unfinished tokenHash s₄ :=
          (h₂.quietly hs₃).scanned hs₄ (by decide) (by decide)
        split
        · next hconfirmed =>
          refine runs_pure fun s' hs' => ⟨h₄.quietly hs'.quietly, ?_⟩
          rw [if_pos rfl, hs'.log, provenEmpty_concat hs₄.scansOf, hs₃.scansOf, hs₂.scansOf,
            List.getLast?_concat]
          exact ⟨(clean_iff confirmScan).mp hconfirmed, _, rfl, hclean⟩
        · next hconfirmed =>
          exact ih h₄ fun _ => hs₄.lastDirty fun h => hconfirmed ((clean_iff confirmScan).mpr h)

/-- The final check succeeds on one scan. -/
theorem runs_finalCheck {totalScanned termSignaled killSignaled : Nat} {s : World}
    (h : Unfinished tokenHash s) (hlast : LastDirty s.log) :
    Runs ownerUid tokenHash issuanceBootId Concluded
      (finalCheck totalScanned termSignaled killSignaled) s := by
  refine runs_scanAt fun finalScan s₁ hs₁ => ?_
  have hscans := hs₁.scansOf
  split
  · next hfinal =>
    have hclean := (clean_iff finalScan).mp hfinal
    refine runs_pure fun s' hs' => ⟨by simp [succeededWith], ?_⟩
    rw [hs'.log]
    constructor
    · intro hproven
      obtain ⟨-, q, hq, hqclean⟩ := (provenEmpty_concat hscans).mp (hproven _ rfl rfl)
      obtain ⟨p, hp, hdirty⟩ := hlast
      rw [hp] at hq
      cases hq
      exact absurd hqclean hdirty
    · intro hregular
      refine absurd hclean (hregular.notFinal finalScan ?_)
      rw [hscans]
      exact List.mem_append_right _ (List.mem_singleton_self _)
  · next hfinal =>
    refine runs_pure fun s' hs' => concluded_of_ne_success ?_ ?_
    · dsimp only
      split <;> simp
    · rw [hs'.log]
      refine ⟨?_, fun r hr => ?_⟩
      · rw [graceScans, hscans, List.filter_append, List.filter_cons_of_neg (by simp),
          List.filter_nil, List.append_nil]
        exact h.joined
      · rw [hscans, List.mem_append, List.mem_singleton] at hr
        rcases hr with hr | hr
        · exact absurd hr (h.noFinal r)
        · cases hr
          exact fun hclean => hfinal ((clean_iff finalScan).mpr hclean)

/-! ## The attempt -/

/-- Before the first scan. -/
theorem Unfinished.of_quiet {s : World} (htombstone : tokenHash ∈ s.tombstones)
    (h : scansOf s.log = []) : Unfinished tokenHash s where
  tombstone := htombstone
  joined := by
    rw [graceScans, h]
    rintro ⟨before, a, skipped, b, after, heq, -⟩
    simp at heq
  noFinal r := by
    rw [h]
    exact List.not_mem_nil

/-- The path that kills comes to a conclusion. -/
theorem runs_termAndKill {fuel : Nat} {site : ScanSite} {scan : ProcScanResult} {s₀ s : World}
    (h₀ : Unfinished tokenHash s₀) (hscan : Scanned ownerUid site scan s₀ s)
    (h : Unfinished tokenHash s) (hgrace : graceScans s.log = []) :
    Runs ownerUid tokenHash issuanceBootId Concluded (termAndKill (fuel + 21) ownerUid scan) s := by
  refine Runs.bind (Program.Sat.imp (runs_signalExactMatches (hscan.armed h₀.tombstone))
    fun termResult s₁ hs₁ => ?_)
  refine Runs.bind (Program.sat_call fun s₂ hs₂ _ => ⟨trivial, fun s₃ hs₃ => ?_⟩)
  have hq : Quietly s s₃ := (hs₁.trans hs₂.quietly).trans hs₃.quietly
  have hcounting : Counting 0 s₃.log := by
    refine ⟨.inl ⟨rfl, ?_⟩, fun r hr => ?_⟩
    · rw [graceScans_congr hq.scansOf, hgrace]
      rintro ⟨before, a, skipped, heq, -⟩
      simp at heq
    · rw [graceScans_congr hq.scansOf, hgrace] at hr
      cases hr
  have hfuel : s₂.now + orphanTermGrace ≤ s₃.now + ((fuel + 20 : Nat) : ℚ) * rescanInterval := by
    have hnow : s₂.now ≤ s₃.now := hs₃.now
    have hnonneg : (0 : ℚ) ≤ fuel := Nat.cast_nonneg fuel
    rw [orphanTermGrace, rescanInterval]
    push_cast
    linarith
  refine Runs.bind (Program.Sat.imp (runs_graceLoop hfuel (h.quietly hq) hcounting)
    fun ended s₄ hs₄ => ?_)
  cases ended with
  | running => exact hs₄.elim
  | confirmed =>
    refine runs_pure fun s' hs' => ⟨by simp [succeededWith], ?_⟩
    rw [hs'.log]
    refine Iff.trans ⟨fun hproven => hproven _ rfl rfl, fun hproven _ _ _ => hproven⟩ hs₄
  | expired =>
    refine runs_scanAt fun killScan s₅ hs₅ => ?_
    have h₅ : Unfinished tokenHash s₅ := hs₄.scanned hs₅ (by decide) (by decide)
    refine Runs.bind (Program.Sat.imp (runs_signalExactMatches (hs₅.armed hs₄.tombstone))
      fun killResult s₆ hs₆ => ?_)
    refine Runs.bind (Program.Sat.imp (runs_killRounds (h₅.quietly hs₆) (by rintro ⟨⟩))
      fun r s₇ hs₇ => ?_)
    obtain ⟨confirmed, killSignaled⟩ := r
    obtain ⟨h₇, hlast⟩ := hs₇
    cases confirmed with
    | true =>
      show Runs _ _ _ _ (pure (succeededWith _ _ _ "kill_required")) s₇
      refine runs_pure fun s' hs' => ?_
      have hproven : ProvenEmpty s₇.log := hlast
      rw [← hs'.log] at hproven
      exact concluded_of_provenEmpty hproven (h₇.quietly hs'.quietly).regular
    | false =>
      show Runs _ _ _ _ (finalCheck _ _ _) s₇
      exact runs_finalCheck h₇ hlast

theorem runs_scanAndSignal {fuel : Nat} {s : World} (htombstone : tokenHash ∈ s.tombstones)
    (hquiet : scansOf s.log = []) :
    Runs ownerUid tokenHash issuanceBootId Concluded (scanAndSignal (fuel + 21) ownerUid) s := by
  have h := Unfinished.of_quiet htombstone hquiet
  have hnone : graceScans s.log = [] := by rw [graceScans, hquiet]; rfl
  refine runs_scanAt fun scan s₁ hs₁ => ?_
  have h₁ : Unfinished tokenHash s₁ := h.scanned hs₁ (by decide) (by decide)
  have hnone₁ : graceScans s₁.log = [] := by
    rw [graceScans, hs₁.scansOf, hquiet]
    rfl
  split
  · exact runs_pure fun s' hs' =>
      concluded_of_ne_success (by simp) (h₁.quietly hs'.quietly).regular
  · split
    · next hempty =>
      have hclean := (clean_iff scan).mp hempty
      refine runs_sleep fun s₂ hs₂ _ => runs_scanAt fun scan2 s₃ hs₃ => ?_
      have h₂ := h₁.quietly hs₂
      have h₃ : Unfinished tokenHash s₃ := h₂.scanned hs₃ (by decide) (by decide)
      split
      · exact runs_pure fun s' hs' =>
          concluded_of_ne_success (by simp) (h₃.quietly hs'.quietly).regular
      · next hcomplete =>
        split
        · next hfound =>
          refine runs_pure fun s' hs' =>
            concluded_of_provenEmpty ?_ (h₃.quietly hs'.quietly).regular
          rw [hs'.log, provenEmpty_concat hs₃.scansOf, hs₂.scansOf, hs₁.scansOf,
            List.getLast?_concat]
          refine ⟨⟨?_, List.isEmpty_iff.mp hfound⟩, _, rfl, hclean⟩
          simpa using hcomplete
        · refine runs_termAndKill h₂ hs₃ h₃ ?_
          rw [graceScans, hs₃.scansOf, hs₂.scansOf, hs₁.scansOf, hquiet]
          rfl
    · exact runs_termAndKill h hs₁ h₁ hnone₁

theorem exec_insertTombstone (tokenHash : String) (row : DegenerateRow) (s : World) :
    ((AttemptOp.insertTombstone row).exec tokenHash s).2.log = s.log
      ∧ ((AttemptOp.insertTombstone row).exec tokenHash s).2.tombstones = s.tombstones
      ∧ ((∃ error, ((AttemptOp.insertTombstone row).exec tokenHash s).1 = .failed error)
        ∨ row.incarnationId ∈ s.tombstones
        ∨ ((AttemptOp.insertTombstone row).exec tokenHash s).2.pending
            = some row.incarnationId) := by
  simp only [AttemptOp.exec]
  split
  · exact ⟨rfl, rfl, .inl ⟨_, rfl⟩⟩
  · split
    · next hmem => exact ⟨rfl, rfl, .inr (.inl hmem)⟩
    · exact ⟨rfl, rfl, .inr (.inr rfl)⟩

theorem exec_commit (tokenHash : String) (s : World) :
    (AttemptOp.commit.exec tokenHash s).2.log = s.log
      ∧ s.tombstones ⊆ (AttemptOp.commit.exec tokenHash s).2.tombstones
      ∧ ((AttemptOp.commit.exec tokenHash s).1 = .ok () → ∀ id, s.pending = some id →
        id ∈ (AttemptOp.commit.exec tokenHash s).2.tombstones) := by
  simp only [AttemptOp.exec]
  split
  · exact ⟨rfl, fun _ h => h, fun h => nomatch h⟩
  · refine ⟨rfl, fun _ h => List.mem_append_right _ h, fun _ id hid => ?_⟩
    simp [hid]

/-- A write that did not fail leaves a tombstone of the incarnation. -/
theorem runs_writeDegenerate {s : World} (hlog : s.log = []) :
    Runs ownerUid tokenHash issuanceBootId
      (fun r s' => s'.log = [] ∧ ∀ result, r = .ok result → (∀ error, result ≠ .failed error) →
        tokenHash ∈ s'.tombstones)
      (writeDegenerate tokenHash) s := by
  have hraised : ∀ {error : String} {t : World}, t.log = [] →
      Runs ownerUid tokenHash issuanceBootId
        (fun r s' => s'.log = [] ∧ ∀ result, r = .ok result → (∀ error, result ≠ .failed error) →
          tokenHash ∈ s'.tombstones)
        (pure (.error error) : Attempt (Except String InsertResult)) t := by
    intro error t ht
    refine runs_pure fun s' hs' => ⟨hs'.log.trans ht, ?_⟩
    rintro _ ⟨⟩
  refine Runs.bind (Program.sat_call fun s₁ hs₁ _ => ⟨trivial, fun s₂ hs₂ => ?_⟩)
  have hlog₂ : s₂.log = [] := (hs₁.trans hs₂).log.trans hlog
  generalize (AttemptOp.exec tokenHash .findIncarnation s₁).1 = incarnation
  cases incarnation with
  | error error => exact hraised hlog₂
  | ok incarnation =>
    refine Runs.bind (Program.sat_call fun s₃ hs₃ _ => ⟨trivial, fun s₄ hs₄ => ?_⟩)
    have hlog₄ : s₄.log = [] := (hs₃.trans hs₄).log.trans hlog₂
    generalize (AttemptOp.exec tokenHash (.findSession (incarnation.getD (tokenHash, 0)).1) s₃).1
      = session
    cases session with
    | error error => exact hraised hlog₄
    | ok session =>
      refine Runs.bind (Program.sat_call fun s₅ hs₅ _ => ⟨trivial, fun s₆ hs₆ => ?_⟩)
      obtain ⟨hlogI, htombstonesI, hcases⟩ := exec_insertTombstone tokenHash
        ⟨tokenHash, (incarnation.getD (tokenHash, 0)).1, (incarnation.getD (tokenHash, 0)).2,
          session.getD "orphan"⟩ s₅
      refine Runs.bind (Program.sat_call fun s₇ hs₇ _ => ⟨trivial, fun s₈ hs₈ => ?_⟩)
      obtain ⟨hlogC, htombstonesC, hcommitted⟩ := exec_commit tokenHash s₇
      have hlog₈ : s₈.log = [] := by
        rw [hs₈.log, hlogC, hs₇.log, hs₆.log, hlogI, hs₅.log, hlog₄]
      generalize (AttemptOp.exec tokenHash .commit s₇).1 = answer at hcommitted
      cases answer with
      | error error => exact hraised hlog₈
      | ok _ =>
        refine runs_pure fun s' hs' => ⟨hs'.log.trans hlog₈, ?_⟩
        rintro result ⟨⟩ hfailed
        refine hs'.tombstones (hs₈.tombstones ?_)
        rcases hcases with ⟨error, herror⟩ | hmem | hpending
        · exact absurd herror (hfailed error)
        · refine htombstonesC (hs₇.tombstones (hs₆.tombstones ?_))
          rw [htombstonesI]
          exact hmem
        · exact hcommitted rfl tokenHash (by rw [hs₇.pending, hs₆.pending, hpending])

/-- The barrier passes behind a tombstone, and a call that it ends is no success. -/
theorem tombstone_of_required {s : World}
    (h : (AttemptOp.exec tokenHash .requireTombstone s).1 = .ok true) :
    tokenHash ∈ s.tombstones := by
  unfold AttemptOp.exec at h
  dsimp only at h
  split at h
  · cases h
  · exact of_decide_eq_true (Except.ok.inj h)

theorem runs_tombstoneBarrier {s : World} (hlog : s.log = []) :
    Runs ownerUid tokenHash issuanceBootId
      (fun ended s' => s'.log = [] ∧
        match ended with
        | none => tokenHash ∈ s'.tombstones
        | some ended => ended ≠ .running
          ∧ ∀ r, ended = .returned r → r.code ≠ .success)
      (tombstoneBarrier tokenHash) s := by
  refine Runs.bind (Program.sat_call fun s₁ hs₁ _ => ⟨trivial, fun s₂ hs₂ => ?_⟩)
  have hlog₂ : s₂.log = [] := by rw [(hs₁.trans hs₂).log, hlog]
  generalize hanswer : (AttemptOp.exec tokenHash .requireTombstone s₁).1 = answer
  cases answer with
  | error error =>
    exact runs_pure fun s' hs' => ⟨by rw [hs'.log, hlog₂], by simp, by simp⟩
  | ok required =>
    cases required with
    | true =>
      exact runs_pure fun s' hs' => ⟨by rw [hs'.log, hlog₂],
        hs'.tombstones (hs₂.tombstones (tombstone_of_required hanswer))⟩
    | false =>
      refine Runs.bind (Program.Sat.imp (runs_writeDegenerate hlog₂) fun r s₃ hs₃ => ?_)
      obtain ⟨hlog₃, hwritten⟩ := hs₃
      rcases r with error | result
      · refine runs_pure fun s' hs' => ⟨hs'.log.trans hlog₃, by simp [tombstoneMissing], ?_⟩
        rintro _ ⟨⟩
        simp
      · cases result with
        | failed error =>
          refine runs_pure fun s' hs' => ⟨hs'.log.trans hlog₃, by simp [tombstoneMissing], ?_⟩
          rintro _ ⟨⟩
          simp
        | _ =>
          exact runs_pure fun s' hs' =>
            ⟨hs'.log.trans hlog₃, hs'.tombstones (hwritten _ rfl (by simp))⟩

/-- The barrier, and the scans and the signals behind it. -/
theorem runs_tombstoneBarrier_bind {fuel : Nat} {s : World} (hlog : s.log = []) :
    Runs ownerUid tokenHash issuanceBootId Concluded
      (tombstoneBarrier tokenHash >>= fun ended =>
        match ended with
        | some ended => pure ended
        | none => scanAndSignal (fuel + 21) ownerUid) s := by
  refine Runs.bind (Program.Sat.imp (runs_tombstoneBarrier hlog) fun ended s₁ hs₁ => ?_)
  obtain ⟨hlog₁, hended⟩ := hs₁
  have hquiet : scansOf s₁.log = [] := by
    rw [hlog₁]
    rfl
  cases ended with
  | none => exact runs_scanAndSignal hended hquiet
  | some ended =>
    refine runs_pure fun s' hs' => ⟨hended.1, ?_⟩
    rw [hs'.log]
    refine ⟨fun _ => ⟨?_, fun r hr => ?_⟩, fun _ r hr hcode => absurd hcode (hended.2 r hr)⟩
    · rw [graceScans, hquiet]
      rintro ⟨before, a, skipped, b, after, heq, -⟩
      simp at heq
    · rw [hquiet] at hr
      exact absurd hr List.not_mem_nil

/-- An attempt ends, signals behind a tombstone and to fresh matches only, and reports a success on
two empty scans in a row if and only if the run is regular. -/
theorem attempt_proven_iff (fuel : Nat) (ownerUid : Int) (tokenHash : String)
    (issuanceBootId : Option Text) (s : World) :
    Runs ownerUid tokenHash issuanceBootId Concluded
      (runReconciliationAttempt (fuel + 21) ownerUid tokenHash issuanceBootId)
      { s with log := [] } := by
  unfold runReconciliationAttempt
  cases issuanceBootId with
  | none => exact runs_tombstoneBarrier_bind rfl
  | some issued =>
    refine Runs.bind (Program.sat_call fun s₁ hs₁ hfinds => ⟨trivial, fun s₂ hs₂ => ?_⟩)
    have hunchanged : s₁.bootId.any (· != issued) = false := hfinds issued rfl
    change Runs _ _ _ _ (if s₁.bootId.any (· != issued) = true then _ else _) s₂
    rw [hunchanged, if_neg (by decide)]
    exact runs_tombstoneBarrier_bind (by rw [(hs₁.trans hs₂).log])

/-- A process of the incarnation. -/
def agentFound : ScanInput where
  token := text "t"
  ownerUid := 1000
  issuanceTicks := none
  issuanceBootId := none
  serverPid := 1
  currentBootId := none
  listing := .ok [.process 42]
  look _ := {
    environ := .data (text "CAO_PROCESS_INCARNATION=t")
    status := some (text "Uid:\t1000")
    stat := some (text "42 (agent) S 1 42 42 0 -1 0 0 0 0 0 0 0 0 0 20 0 1 0 9 0")
    ancestry := fun _ _ => none
    descent := fun _ _ => none }

/-- An empty process table, and one that could not be listed. -/
def emptied (listing : Except String (List ProcName)) : ScanInput :=
  { agentFound with listing := listing }

/-- The world shows a scan this result. -/
def showing (result : ProcScanResult) (s : World) : World := { s with scanned := result }

/-- The scans of a run: a match, and in the grace period an incomplete scan between two empty
ones. -/
def skippedScan : List ProcScanResult :=
  let found : ProcScanResult := ⟨[⟨42, 9, 1000⟩], true, []⟩
  let empty : ProcScanResult := ⟨[], true, []⟩
  let incomplete : ProcScanResult := ⟨[], false, ["procfs_unavailable: EMFILE"]⟩
  List.replicate 7 found ++ List.replicate 3 empty ++ List.replicate 3 incomplete
    ++ List.replicate 3 empty

/-- Behind a tombstone, with processes that cannot be opened. -/
def quietWorld : World where
  now := 0
  tombstones := ["h"]
  pending := none
  bootId := none
  fault := none
  incarnation := none
  session := none
  scanned := ⟨[], true, []⟩
  walk := ⟨1, fun _ _ => none, 1, fun _ => rfl⟩
  openable := false
  stat := none
  status := none
  sending := .failed
  log := []

theorem skippedScan_run :
    ((runReconciliationAttempt 21 1000 "h" none).scripted (AttemptOp.exec "h")
      (skippedScan.map showing) quietWorld).map (fun r =>
        (match r.1 with
          | .returned result => result.code == .success
          | _ => false, (scansOf r.2.log).map fun p => (p.1, p.2.complete, p.2.found.length)))
      = some (true, [(.first, true, 1), (.grace, true, 0), (.grace, false, 0), (.grace, true, 0)]) := by
  decide +kernel

/-- What `skippedScan` shows are scans of process tables. -/
theorem skippedScan_scanned {result : ProcScanResult} (h : result ∈ skippedScan) :
    ∃ w : ScanInput, w.ownerUid = 1000 ∧ ∃ fuel,
      scanIncarnationProcesses w fuel = some result := by
  have hcases : result = ⟨[⟨42, 9, 1000⟩], true, []⟩ ∨ result = ⟨[], true, []⟩
      ∨ result = ⟨[], false, ["procfs_unavailable: EMFILE"]⟩ := by
    simp only [skippedScan, List.mem_append, List.mem_replicate] at h
    rcases h with ((⟨-, h⟩ | ⟨-, h⟩) | ⟨-, h⟩) | ⟨-, h⟩
    · exact .inl h
    · exact .inr (.inl h)
    · exact .inr (.inr h)
    · exact .inr (.inl h)
  rcases hcases with rfl | rfl | rfl
  · exact ⟨agentFound, rfl, 1, by decide +kernel⟩
  · exact ⟨emptied (.ok []), rfl, 1, rfl⟩
  · exact ⟨emptied (.error "EMFILE"), rfl, 1, rfl⟩

/-- A success whose last two scans are an incomplete one and an empty one. -/
theorem skipped_scan_succeeds :
    ¬ Runs 1000 "h" none
      (fun ended s => ∀ r, ended = .returned r → r.code = .success → ProvenEmpty s.log)
      (runReconciliationAttempt 21 1000 "h" none) quietWorld := by
  intro h
  have hmoves : ∀ move ∈ skippedScan.map showing, ∀ s,
      Elsewhere s (move s) ∧ ∀ op, FindsWorld 1000 none op (move s) := by
    intro move hmove s
    obtain ⟨result, hresult, rfl⟩ := List.mem_map.mp hmove
    refine ⟨⟨le_rfl, fun _ hmem => hmem, rfl, rfl⟩, fun op => ?_⟩
    cases op with
    | readBootId => exact fun issued hissued => nomatch hissued
    | scan site => exact skippedScan_scanned hresult
    | _ => trivial
  obtain ⟨⟨ended, s'⟩, hrun, hseen⟩ := Option.map_eq_some_iff.mp skippedScan_run
  have hproven := Program.Sat.scripted h Elsewhere.refl hmoves hrun
  rw [Prod.mk.injEq] at hseen
  obtain ⟨hsuccess, hscans⟩ := hseen
  cases ended with
  | returned r =>
    obtain ⟨before, a, b, hlog, ha, -⟩ := hproven r rfl (beq_iff_eq.mp hsuccess)
    rw [hlog, List.map_append] at hscans
    obtain ⟨-, hlast⟩ := List.append_inj' (show _ ++ _ = [(ScanSite.first, true, 1),
      (.grace, true, 0)] ++ [(.grace, false, 0), (.grace, true, 0)] from hscans) rfl
    simp [ha.1] at hlast
  | _ => cases hsuccess

end CliAgentOrchestrator.Orphan
