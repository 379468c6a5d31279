import CliAgentOrchestrator.Workflow.Service

/-!
# Recovery consent

A decision is written into the state of a row, consumed by the write of the call it lets
through, and taken back when the drive it was given for is over. `Consents` says, phase by
phase, which rows of a run may be authorised while its resume is under way; every step keeps it
as long as no resume is cancelled inside `apply_decisions`.
-/

set_option autoImplicit false

namespace CliAgentOrchestrator.Workflow

open Library

variable {cfg : Settings} {s s' : Service} {j j' : Journal} {d : Drive}

/-! ## What a phase may find authorised -/

/-- What holds of the rows of a run while its resume is under way. -/
structure Consents (j : Journal) (d : Drive) : Prop where
  known : ∀ step row, j.get (d.runId, step) = some row → row.state.authorised = true →
    step ∈ d.found ∨ (d.phase.granted.find step).isSome
  named : d.phase ≠ .claimed → ∀ step row, j.get (d.runId, step) = some row →
    row.state.authorised = true → (d.decisions.find step).isSome
  resolved : ∀ m, d.phase = .granting m →
    (∀ step, (m.find step).isSome = (d.decisions.find step).isSome) ∧
      ∀ step r, m.find step = some r → (r.prior.authorised = true → step ∈ d.found) ∧
        ∃ row, j.get (d.runId, step) = some row
  granted : ∀ m, d.phase = .driving m →
    (∀ step, (m.find step).isSome = (d.decisions.find step).isSome) ∧
      ∀ step prior, m.find step = some prior → (prior.authorised = true → step ∈ d.found) ∧
        ∃ row, j.get (d.runId, step) = some row ∧
          (row.state.authorised = true ∨ step ∈ d.touched)

/-- Only the rows of the run matter. -/
theorem Consents.of_rows (h : Consents j d) (hrows : ∀ step, j'.get (d.runId, step) =
    j.get (d.runId, step)) : Consents j' d where
  known := by
    intro step row hget
    rw [hrows] at hget
    exact h.known step row hget
  named := by
    intro hphase step row hget
    rw [hrows] at hget
    exact h.named hphase step row hget
  resolved := by
    intro m hm
    obtain ⟨hkeys, hrest⟩ := h.resolved m hm
    refine ⟨hkeys, ?_⟩
    intro step r hfind
    rw [hrows]
    exact hrest step r hfind
  granted := by
    intro m hm
    obtain ⟨hkeys, hrest⟩ := h.granted m hm
    refine ⟨hkeys, ?_⟩
    intro step prior hfind
    rw [hrows]
    exact hrest step prior hfind

/-- A begin or a settle of one of the run's steps leaves that row without consent. -/
theorem Consents.touch (h : Consents j d) {step : String} {moved : StepRow}
    (hmoved : j'.get (d.runId, step) = some moved) (hplain : moved.state.authorised = false)
    (hrest : ∀ k, k ≠ (d.runId, step) → j'.get k = j.get k) :
    Consents j' ((touchPatch step).apply d) := by
  have hold : ∀ other row, j'.get (d.runId, other) = some row → row.state.authorised = true →
      j.get (d.runId, other) = some row := by
    intro other row hget hauth
    by_cases hother : other = step
    · subst hother
      rw [hmoved] at hget
      cases hget
      rw [hplain] at hauth
      cases hauth
    · rwa [hrest _ fun he => hother (Prod.mk.inj he).2] at hget
  refine ⟨?_, ?_, ?_, ?_⟩
  · intro other row hget hauth
    exact h.known other row (hold other row hget hauth) hauth
  · intro hphase other row hget hauth
    exact h.named hphase other row (hold other row hget hauth) hauth
  · intro m hm
    obtain ⟨hkeys, hres⟩ := h.resolved m hm
    refine ⟨hkeys, ?_⟩
    intro other r hfind
    obtain ⟨hprior, row, hget⟩ := hres other r hfind
    refine ⟨hprior, ?_⟩
    by_cases hother : other = step
    · subst hother
      exact ⟨moved, hmoved⟩
    · exact ⟨row, (hrest _ fun he => hother (Prod.mk.inj he).2).trans hget⟩
  · intro m hm
    obtain ⟨hkeys, hres⟩ := h.granted m hm
    refine ⟨hkeys, ?_⟩
    intro other prior hfind
    obtain ⟨hprior, row, hget, hheld⟩ := hres other prior hfind
    refine ⟨hprior, ?_⟩
    by_cases hother : other = step
    · subst hother
      exact ⟨moved, hmoved, .inr (List.mem_append_right _ (List.mem_singleton.mpr rfl))⟩
    · refine ⟨row, (hrest _ fun he => hother (Prod.mk.inj he).2).trans hget, ?_⟩
      exact hheld.imp id fun hmem => List.mem_append_left _ hmem

/-! ## The phases of a resume -/

theorem Mapping.find_of_isEmpty {β : Type} {m : Mapping β} (h : m.rows.isEmpty = true)
    (step : String) : m.find step = none := by
  rw [Mapping.find_eq_none_iff]
  intro e he
  rw [List.isEmpty_iff] at h
  rw [h] at he
  cases he

/-- A resume that has just claimed its run. -/
theorem consents_claimed (j : Journal) (runId : String) (decisions : Mapping String) :
    Consents j ⟨runId, decisions, .claimed,
      ((getSteps j runId).filter fun r => r.state.authorised).map StepRow.stepId, []⟩ where
  known := by
    intro step row hget hauth
    have hkey : row.stepId = step := congrArg Prod.snd (Table.key_of_get hget)
    refine .inl (List.mem_map.mpr ⟨row, ?_, hkey⟩)
    rw [List.mem_filter, mem_getSteps, hkey]
    exact ⟨hget, hauth⟩
  named := fun hphase => absurd rfl hphase
  resolved := by
    intro _ hm
    cases hm
  granted := by
    intro _ hm
    cases hm

/-- Gate 5 lets a resume through only when it names every consent it found. -/
theorem checkConsent_ok {runId : String} {decisions : Mapping String}
    (h : checkConsent j runId decisions = .ok ()) {step : String} {row : StepRow}
    (hget : j.get (runId, step) = some row) (hauth : row.state.authorised = true) :
    (decisions.find step).isSome := by
  unfold checkConsent at h
  split at h
  · next hnone =>
    have hkey : row.stepId = step := congrArg Prod.snd (Table.key_of_get hget)
    have hrow := List.find?_eq_none.mp hnone row
      (mem_getSteps.mpr (by rw [hkey]; exact hget))
    rw [Option.isSome_iff_ne_none]
    simpa [hauth, hkey] using hrow
  · cases h

theorem Consents.pass {decisions : Mapping String} {runId : String} {found touched : List String}
    (h : Consents j ⟨runId, decisions, .claimed, found, touched⟩)
    (hcheck : checkConsent j runId decisions = .ok ()) :
    Consents j ⟨runId, decisions, .admitted, found, touched⟩ where
  known := h.known
  named := fun _ _ _ hget hauth => checkConsent_ok hcheck hget hauth
  resolved := by
    intro _ hm
    cases hm
  granted := by
    intro _ hm
    cases hm

theorem Consents.drive_undecided {decisions : Mapping String} {runId : String}
    {found touched : List String}
    (h : Consents j ⟨runId, decisions, .admitted, found, touched⟩)
    (hempty : decisions.rows.isEmpty = true) :
    Consents j ⟨runId, decisions, .driving Table.empty, found, touched⟩ where
  known := h.known
  named := fun _ => h.named (by simp)
  resolved := by
    intro _ hm
    cases hm
  granted := by
    intro m hm
    cases hm
    refine ⟨?_, ?_⟩
    · intro step
      rw [Mapping.find_of_isEmpty hempty]
      rfl
    · intro step prior hfind
      cases hfind

/-- What validation leaves: the decided steps, each with the state its row was read in. -/
theorem resolveDecisions_ok {runId : String} {decisions : Mapping String}
    {m : Mapping Resolution} (h : resolveDecisions j runId decisions = .ok m) :
    (∀ step, (m.find step).isSome = (decisions.find step).isSome) ∧
      ∀ step r, m.find step = some r →
        ∃ row, j.get (runId, step) = some row ∧ row.state = r.prior := by
  unfold resolveDecisions at h
  split at h
  · cases h
  · next entries hentries =>
    cases h
    obtain ⟨hkeys, hpriors⟩ := resolveEntries_keys hentries
    constructor
    · intro step
      have hmem : ∀ {β : Type} (n : Mapping β), (n.find step).isSome = true ↔
          step ∈ n.rows.map Prod.fst := by
        intro β n
        rw [Option.isSome_iff_exists]
        constructor
        · rintro ⟨b, hb⟩
          exact List.mem_map.mpr ⟨(step, b), Mapping.find_eq_some_iff.mp hb, rfl⟩
        · intro hstep
          obtain ⟨⟨key, b⟩, hb, rfl⟩ := List.mem_map.mp hstep
          exact ⟨b, Mapping.find_eq_some_iff.mpr hb⟩
      rw [Bool.eq_iff_iff, hmem, hmem, hkeys]
    · intro step r hfind
      have hlookup := hpriors (step, r) (Mapping.find_eq_some_iff.mp hfind)
      have hmem : (step, r.prior) ∈ priorStates j runId := by
        obtain ⟨before, after, hsplit, -⟩ := List.lookup_eq_some_iff.mp hlookup
        rw [hsplit]
        simp
      obtain ⟨row, hrow, heq⟩ := List.mem_map.mp hmem
      obtain ⟨rfl, hstate⟩ := Prod.mk.inj heq
      exact ⟨row, mem_getSteps.mp hrow, hstate⟩

theorem Consents.resolve {decisions : Mapping String} {runId : String}
    {found touched : List String} {m : Mapping Resolution}
    (h : Consents j ⟨runId, decisions, .admitted, found, touched⟩)
    (hresolved : resolveDecisions j runId decisions = .ok m) :
    Consents j ⟨runId, decisions, .granting m, found, touched⟩ where
  known := h.known
  named := fun _ => h.named (by simp)
  resolved := by
    intro m' hm
    cases hm
    obtain ⟨hkeys, hpriors⟩ := resolveDecisions_ok hresolved
    refine ⟨hkeys, ?_⟩
    intro step r hfind
    obtain ⟨row, hget, hstate⟩ := hpriors step r hfind
    refine ⟨?_, row, hget⟩
    intro hauth
    rw [← hstate] at hauth
    obtain hfound | hgranted := h.known step row hget hauth
    · exact hfound
    · cases hgranted
  granted := by
    intro _ hm
    cases hm

theorem Consents.grant {decisions : Mapping String} {runId : String} {found touched : List String}
    {m : Mapping Resolution} (h : Consents j ⟨runId, decisions, .granting m, found, touched⟩) :
    Consents (writeDecisions j runId m)
      ⟨runId, decisions, .driving (grantedStates m), found, touched⟩ := by
  obtain ⟨hkeys, hres⟩ := h.resolved m rfl
  have hfind : ∀ step, (grantedStates m).find step = (m.find step).map Resolution.prior :=
    fun step => Mapping.find_mapValues ..
  refine ⟨?_, ?_, ?_, ?_⟩
  · intro step row hnew hauth
    show step ∈ found ∨ ((grantedStates m).find step).isSome
    rw [hfind]
    cases hm : m.find step with
    | some res => exact .inr rfl
    | none =>
      rw [get_writeDecisions_of_undecided hm] at hnew
      obtain hfound | hgranted := h.known step row hnew hauth
      · exact .inl hfound
      · cases hgranted
  · intro _ step row hnew hauth
    cases hm : m.find step with
    | some res =>
      have hdecided := hkeys step
      rw [hm] at hdecided
      exact hdecided.symm
    | none =>
      rw [get_writeDecisions_of_undecided hm] at hnew
      exact h.named (by simp) step row hnew hauth
  · intro _ hm
    cases hm
  · intro m' hm
    cases hm
    refine ⟨?_, ?_⟩
    · intro step
      rw [hfind, Option.isSome_map]
      exact hkeys step
    · intro step prior hprior
      rw [hfind] at hprior
      obtain ⟨res, hm, rfl⟩ := Option.map_eq_some_iff.mp hprior
      obtain ⟨hfound, row, hrow⟩ := hres step res hm
      refine ⟨hfound, { row with state := res.decision.state }, ?_, .inl ?_⟩
      · rw [get_writeDecisions_of_find hm, hrow]
        rfl
      · exact RecoveryDecision.authorised_state res.decision

/-! ## Every step keeps it -/

/-- No transaction is left to a cancelled resume, and every resume under way finds what its
phase allows. -/
structure Scoped (s : Service) : Prop where
  strays : s.strays = []
  drives : ∀ run d, s.drives.get run = some d → Consents s.journal d

theorem scoped_init : Scoped {} where
  strays := rfl
  drives := by
    intro run d h
    cases h

/-- A begin or a settle, seen by the resumes under way. -/
theorem Scoped.touch (hs : Scoped s) {runId step : String} {moved : StepRow}
    (hmoved : j'.get (runId, step) = some moved) (hplain : moved.state.authorised = false)
    (hrest : ∀ k, k ≠ (runId, step) → j'.get k = s.journal.get k) {run : String} {d : Drive}
    (hget : (s.drives.updateKey runId (fun _ => true) (touchPatch step)).get run = some d) :
    Consents j' d := by
  rw [Table.get_updateKey] at hget
  obtain ⟨held, hheld, rfl⟩ := Option.map_eq_some_iff.mp hget
  have hrun : held.runId = run := Table.key_of_get hheld
  have hc := hs.drives run held hheld
  split
  · next hsame =>
    obtain ⟨rfl, -⟩ := hsame
    subst hrun
    exact hc.touch hmoved hplain hrest
  · next hother =>
    refine hc.of_rows ?_
    intro other
    refine hrest _ ?_
    intro he
    exact hother ⟨hrun.symm.trans (Prod.mk.inj he).1, rfl⟩

/-- A change of phase of one resume, which writes rows of its own run only. -/
theorem Scoped.phase (hs : Scoped s) {runId : String} {d : Drive} {p : DrivePhase}
    (hd : s.drives.get runId = some d) (hnew : Consents j' { d with phase := p })
    (hrest : ∀ k : StepKey, k.1 ≠ runId → j'.get k = s.journal.get k) {run : String} {d' : Drive}
    (hget : (s.drives.updateKey runId (fun _ => true) (phasePatch p)).get run = some d') :
    Consents j' d' := by
  rw [Table.get_updateKey] at hget
  obtain ⟨held, hheld, rfl⟩ := Option.map_eq_some_iff.mp hget
  have hrun : held.runId = run := Table.key_of_get hheld
  split
  · next hsame =>
    obtain ⟨rfl, -⟩ := hsame
    rw [hd] at hheld
    cases hheld
    exact hnew
  · next hother =>
    refine (hs.drives run held hheld).of_rows ?_
    intro other
    refine hrest _ ?_
    intro he
    exact hother ⟨hrun.symm.trans he, rfl⟩

theorem Scoped.finish (hs : Scoped s) (runId : String) (revoked : Bool) :
    Scoped (s.finish runId revoked) := by
  unfold Service.finish
  split
  · exact hs
  · next d hd =>
    have hother : ∀ run d', (s.drives.deleteKey runId).get run = some d' →
        run ≠ runId ∧ s.drives.get run = some d' := by
      intro run d' hget
      rw [Table.get_deleteKey] at hget
      split at hget
      · cases hget
      · next hne => exact ⟨hne, hget⟩
    dsimp only
    split
    · refine ⟨hs.strays, ?_⟩
      intro run d' hget
      obtain ⟨hne, hheld⟩ := hother run d' hget
      have hrun : d'.runId = run := Table.key_of_get hheld
      refine (hs.drives run d' hheld).of_rows ?_
      intro step
      have hkept : ¬ d'.runId = runId := by
        rw [hrun]
        exact hne
      show (revokeUnconsumedDecisions _ _ _).2.get _ = _
      rw [get_revokeUnconsumedDecisions, if_neg hkept]
      simp
    · refine ⟨hs.strays, ?_⟩
      intro run d' hget
      exact hs.drives run d' (hother run d' hget).2

/-- Every step but the cancelling of a grant keeps the resumes within their consents. -/
theorem Scoped.exec (hs : Scoped s) (cfg : Settings) {e : Event}
    (hcancel : ∀ runId, e ≠ .cancelGrant runId) : Scoped (s.exec cfg e) := by
  cases e with
  | arrive runId stepId fingerprint policy readFails =>
    simp only [Service.exec, Service.arrive]
    split
    · exact hs
    · split
      · exact ⟨hs.strays, hs.drives⟩
      · split
        · exact hs
        · exact hs
        · exact ⟨hs.strays, hs.drives⟩
        · exact ⟨hs.strays, hs.drives⟩
  | ready call now written =>
    simp only [Service.exec, Service.ready]
    split
    · exact hs
    · next c hc =>
      split
      · split
        · refine ⟨hs.strays, ?_⟩
          intro run d hget
          obtain ⟨moved, hmoved, hstate⟩ := beginStep_moves s.journal c.runId c.stepId now
            c.fingerprint
          refine hs.touch hmoved (by rw [hstate]; rfl) ?_ hget
          intro k hk
          rw [get_beginStep, if_neg hk]
        · exact ⟨hs.strays, hs.drives⟩
      · exact hs
  | settle call outcome outputJson now written =>
    simp only [Service.exec, Service.settle]
    split
    · exact hs
    · next c hc =>
      split
      · split
        · refine ⟨hs.strays, ?_⟩
          intro run d hget
          obtain ⟨moved, hmoved, hstate⟩ := settleStep_moves s.journal c.runId c.stepId now
            (outcome.columns cfg.patterns outputJson)
          refine hs.touch hmoved (by rw [hstate]; exact Outcome.state_settled.2) ?_ hget
          intro k hk
          rw [get_settleStep, if_neg hk]
        · exact ⟨hs.strays, hs.drives⟩
      · exact hs
  | resume runId decisions =>
    refine ⟨hs.strays, ?_⟩
    intro run d hget
    simp only [Service.exec, Service.resume] at hget ⊢
    rw [Table.get_insert] at hget
    cases hheld : s.drives.get run with
    | some held =>
      rw [hheld] at hget
      cases hget
      exact hs.drives run _ hheld
    | none =>
      rw [hheld, Option.none_or] at hget
      split at hget
      · cases hget
        exact consents_claimed ..
      · cases hget
  | consent runId =>
    simp only [Service.exec, Service.consent]
    split
    · next run decisions found touched hd =>
      obtain rfl : run = runId := Table.key_of_get hd
      split
      · exact hs.finish run true
      · next hcheck =>
        refine ⟨hs.strays, ?_⟩
        intro run' d' hget
        exact hs.phase hd ((hs.drives run _ hd).pass hcheck) (fun _ _ => rfl) hget
    · exact hs
  | readDecisions runId =>
    simp only [Service.exec, Service.readDecisions]
    split
    · next run decisions found touched hd =>
      obtain rfl : run = runId := Table.key_of_get hd
      split
      · next hempty =>
        refine ⟨hs.strays, ?_⟩
        intro run' d' hget
        exact hs.phase hd ((hs.drives run _ hd).drive_undecided hempty) (fun _ _ => rfl) hget
      · split
        · exact hs.finish run true
        · next resolved hresolved =>
          refine ⟨hs.strays, ?_⟩
          intro run' d' hget
          exact hs.phase hd ((hs.drives run _ hd).resolve hresolved) (fun _ _ => rfl) hget
    · exact hs
  | writeDecisions runId =>
    simp only [Service.exec, Service.writeDecisions]
    split
    · next run decisions resolved found touched hd =>
      obtain rfl : run = runId := Table.key_of_get hd
      refine ⟨hs.strays, ?_⟩
      intro run' d' hget
      refine hs.phase hd (hs.drives run _ hd).grant ?_ hget
      intro k hk
      rw [get_writeDecisions, if_neg hk]
      simp
    · exact hs
  | cancelGrant runId => exact absurd rfl (hcancel runId)
  | strayLands index =>
    have hnone : s.strays[index]? = none := by
      rw [hs.strays]
      rfl
    simp only [Service.exec, Service.strayLands, hnone]
    exact hs
  | finish runId revoked => exact hs.finish runId revoked
  | crash =>
    refine ⟨rfl, ?_⟩
    intro run d hget
    cases hget

/-! ## The end of a resume -/

/-- The resume `d` returns or raises in this step, the process surviving it. -/
structure Service.Returns (cfg : Settings) (s : Service) (e : Event) (d : Drive) : Prop where
  held : s.drives.get d.runId = some d
  released : (s.exec cfg e).drives.get d.runId = none
  survives : e ≠ .crash

/-- A run that is finished has been revoked. -/
theorem finish_journal {runId : String} (hd : s.drives.get d.runId = some d)
    (hreleased : (s.finish runId true).drives.get d.runId = none) :
    (s.finish runId true).journal =
      (revokeUnconsumedDecisions s.journal d.runId d.phase.granted).2 := by
  unfold Service.finish at hreleased ⊢
  cases hget : s.drives.get runId with
  | none =>
    rw [hget] at hreleased
    dsimp only at hreleased
    rw [hd] at hreleased
    cases hreleased
  | some other =>
    rw [hget] at hreleased
    simp only [if_true] at hreleased ⊢
    rw [Table.get_deleteKey] at hreleased
    split at hreleased
    · next hsame =>
      subst hsame
      rw [hd] at hget
      cases hget
      rfl
    · rw [hd] at hreleased
      cases hreleased

/-- However a resume ends, what it was granted and did not consume is taken back, unless the
revoke failed or the resume was cancelled inside its grant. -/
theorem Service.Returns.journal {e : Event} (h : s.Returns cfg e d)
    (hcancel : ∀ runId, e ≠ .cancelGrant runId) (hrevoked : ∀ runId, e ≠ .finish runId false) :
    (s.exec cfg e).journal =
      (revokeUnconsumedDecisions s.journal d.runId d.phase.granted).2 := by
  obtain ⟨hd, hreleased, hsurvives⟩ := h
  -- a step that leaves the resumes in place, or moves one to another phase, releases none
  have hstays : s.drives.get d.runId ≠ none := by
    rw [hd]
    exact Option.some_ne_none d
  have hmoves : ∀ runId (f : Patch Drive.runId),
      (s.drives.updateKey runId (fun _ => true) f).get d.runId ≠ none := by
    intro runId f
    rw [Table.get_updateKey, hd]
    exact Option.some_ne_none _
  cases e with
  | arrive runId stepId fingerprint policy readFails =>
    refine absurd hreleased ?_
    simp only [Service.exec, Service.arrive]
    split
    · exact hstays
    · split
      · exact hstays
      · split <;> exact hstays
  | ready call now written =>
    refine absurd hreleased ?_
    simp only [Service.exec, Service.ready]
    split
    · exact hstays
    · split
      · split
        · exact hmoves _ _
        · exact hstays
      · exact hstays
  | settle call outcome outputJson now written =>
    refine absurd hreleased ?_
    simp only [Service.exec, Service.settle]
    split
    · exact hstays
    · split
      · split
        · exact hmoves _ _
        · exact hstays
      · exact hstays
  | resume runId decisions =>
    refine absurd hreleased ?_
    simp only [Service.exec, Service.resume]
    rw [Table.get_insert, hd]
    exact Option.some_ne_none d
  | consent runId =>
    simp only [Service.exec, Service.consent] at hreleased ⊢
    split at hreleased
    · split at hreleased
      · exact finish_journal hd hreleased
      · exact absurd hreleased (hmoves _ _)
    · exact absurd hreleased hstays
  | readDecisions runId =>
    simp only [Service.exec, Service.readDecisions] at hreleased ⊢
    split at hreleased
    · split at hreleased
      · exact absurd hreleased (hmoves _ _)
      · next hsome =>
        rw [if_neg hsome]
        split at hreleased
        · exact finish_journal hd hreleased
        · exact absurd hreleased (hmoves _ _)
    · exact absurd hreleased hstays
  | writeDecisions runId =>
    refine absurd hreleased ?_
    simp only [Service.exec, Service.writeDecisions]
    split
    · exact hmoves _ _
    · exact hstays
  | cancelGrant runId => exact absurd rfl (hcancel runId)
  | strayLands index =>
    refine absurd hreleased ?_
    simp only [Service.exec, Service.strayLands]
    split
    · exact hstays
    · split <;> exact hstays
  | finish runId revoked =>
    cases revoked with
    | false => exact absurd rfl (hrevoked runId)
    | true => exact finish_journal hd hreleased
  | crash => exact absurd rfl hsurvives

/-- What a revoke leaves authorised was authorised before the grant. -/
theorem Consents.revoked (h : Consents j d) {step : String} {row : StepRow}
    (hget : (revokeUnconsumedDecisions j d.runId d.phase.granted).2.get (d.runId, step) = some row)
    (hauth : row.state.authorised = true) : step ∈ d.found := by
  rw [get_revokeUnconsumedDecisions, if_pos rfl] at hget
  obtain ⟨r, hr, hrow⟩ := Option.map_eq_some_iff.mp hget
  cases hfind : d.phase.granted.find step with
  | none =>
    rw [show d.phase.granted.find (d.runId, step).2 = none from hfind] at hrow
    dsimp only at hrow
    subst hrow
    obtain hfound | hgranted := h.known step r hr hauth
    · exact hfound
    · rw [hfind] at hgranted
      cases hgranted
  | some prior =>
    rw [show d.phase.granted.find (d.runId, step).2 = some prior from hfind] at hrow
    have hdriving : d.phase = .driving d.phase.granted := by
      cases hp : d.phase with
      | driving granted => rfl
      | _ =>
        rw [hp] at hfind
        cases hfind
    have hprior := ((h.granted _ hdriving).2 step prior hfind).1
    by_cases hheld : prior.authorised = true
    · exact hprior hheld
    · rw [Bool.not_eq_true] at hheld
      cases hr' : r.state.authorised with
      | true =>
        simp only [hheld, hr', Bool.not_false, Bool.and_self, if_true] at hrow
        subst hrow
        rw [hheld] at hauth
        cases hauth
      | false =>
        simp only [hr', Bool.and_false, Bool.false_eq_true, if_false] at hrow
        subst hrow
        rw [hr'] at hauth
        cases hauth

/-- A decided step that was not authorised before was consumed, or is back where it was. -/
theorem Consents.consumed_or_restored (h : Consents j d) {granted : Mapping StepState}
    {step : String} (hphase : d.phase = .driving granted)
    (hdecided : (d.decisions.find step).isSome = true) (hfound : step ∉ d.found) :
    ∃ prior row, granted.find step = some prior ∧ prior.authorised = false ∧
      (revokeUnconsumedDecisions j d.runId d.phase.granted).2.get (d.runId, step) = some row ∧
      row.state.authorised = false ∧ (step ∈ d.touched ∨ row.state = prior) := by
  obtain ⟨hkeys, hgranted⟩ := h.granted granted hphase
  rw [← hkeys step] at hdecided
  obtain ⟨prior, hfind⟩ := Option.isSome_iff_exists.mp hdecided
  obtain ⟨hprior, r, hr, hheld⟩ := hgranted step prior hfind
  have hplain : prior.authorised = false := by
    rw [← Bool.not_eq_true]
    exact fun hauth => hfound (hprior hauth)
  have hphaseGranted : d.phase.granted = granted := by
    rw [hphase]
    rfl
  refine ⟨prior, if r.state.authorised then { r with state := prior } else r, hfind, hplain, ?_, ?_⟩
  · rw [hphaseGranted, get_revokeUnconsumedDecisions_of_find hfind, hr]
    simp [hplain]
  · cases hauth : r.state.authorised with
    | true =>
      rw [if_pos rfl]
      exact ⟨hplain, .inr rfl⟩
    | false =>
      rw [if_neg (by simp)]
      refine ⟨hauth, ?_⟩
      obtain hstill | htouched := hheld
      · rw [hauth] at hstill
        cases hstill
      · exact .inl htouched

/-! ## Consent is for one drive -/

def DrivePhase.isDriving : DrivePhase → Bool
  | .driving _ => true
  | _ => false

/-- No verdict of a driven script rests on a consent its own resume did not name. -/
def VerdictsNamed (cfg : Settings) (history : List Event) : Prop :=
  ∀ before runId stepId fingerprint policy readFails after d row,
    history = before ++ .arrive runId stepId fingerprint policy readFails :: after →
    (run (Service.exec cfg) {} before).drives.get runId = some d → d.phase.isDriving = true →
    getStep (run (Service.exec cfg) {} before).journal runId stepId = some row →
    row.state.authorised = true → (d.decisions.find stepId).isSome = true

/-- A resume of the run returns or raises in this step: the one that holds the claim lets go of
it, or another one is refused it. -/
def ResumeEnds (cfg : Settings) (s : Service) (e : Event) (runId : String) : Prop :=
  (∃ d, s.Returns cfg e d ∧ d.runId = runId) ∨
    ∃ decisions, e = .resume runId decisions ∧ (s.drives.get runId).isSome = true

/-- Whenever a resume returns or raises, no row of its run is left authorised. -/
def ConsentSpent (cfg : Settings) (history : List Event) : Prop :=
  ∀ before e after runId, history = before ++ e :: after →
    ResumeEnds cfg (run (Service.exec cfg) {} before) e runId →
    ∀ row ∈ getSteps (run (Service.exec cfg) {} (before ++ [e])).journal runId,
      row.state.authorised = false

/-- Whenever a resume returns or raises and its revoke did not fail, what is still authorised
was so when the resume claimed the run, and every other step it decided was consumed by a begin
or a settle or is back in the state it was decided in. -/
def ConsentReturned (cfg : Settings) (history : List Event) : Prop :=
  ∀ before e after d, history = before ++ e :: after →
    (run (Service.exec cfg) {} before).Returns cfg e d → (∀ runId, e ≠ .finish runId false) →
    (∀ row ∈ getSteps (run (Service.exec cfg) {} (before ++ [e])).journal d.runId,
      row.state.authorised = true → row.stepId ∈ d.found) ∧
    ∀ granted step, d.phase = .driving granted → (d.decisions.find step).isSome = true →
      step ∉ d.found → ∃ prior row, granted.find step = some prior ∧ prior.authorised = false ∧
        getStep (run (Service.exec cfg) {} (before ++ [e])).journal d.runId step = some row ∧
        row.state.authorised = false ∧ (step ∈ d.touched ∨ row.state = prior)

/-- Every state of a history without a cancelled grant keeps its resumes within their
consents. -/
theorem scoped_run (cfg : Settings) {history : List Event}
    (hcancel : ∀ e ∈ history, ∀ runId, e ≠ .cancelGrant runId) :
    Scoped (run (Service.exec cfg) {} history) := by
  refine run_invariant_of (fun _ e => ∀ runId, e ≠ .cancelGrant runId) Scoped ?_ {} scoped_init
    history (stepsSatisfy_of_forall _ _ history fun e he _ => hcancel e he)
  intro s e hplain hs
  exact hs.exec cfg hplain

/-- Over every history in which no resume is cancelled inside `apply_decisions`: a verdict rests
on consents its own resume named, and a resume leaves no consent behind that it did not find. -/
theorem consent_oneShot (cfg : Settings) (history : List Event)
    (hcancel : ∀ e ∈ history, ∀ runId, e ≠ .cancelGrant runId) :
    VerdictsNamed cfg history ∧ ConsentReturned cfg history := by
  constructor
  · rintro before runId stepId fingerprint policy readFails after d row rfl hd hdriving hrow hauth
    have hscoped := scoped_run cfg fun e he => hcancel e (List.mem_append_left _ he)
    obtain rfl : d.runId = runId := Table.key_of_get hd
    refine (hscoped.drives _ d hd).named ?_ stepId row hrow hauth
    intro hclaimed
    rw [hclaimed] at hdriving
    cases hdriving
  · rintro before e after d rfl hreturns hrevoked
    have hscoped := scoped_run cfg fun e he => hcancel e (List.mem_append_left _ he)
    have hjournal := hreturns.journal (hcancel e (by simp)) hrevoked
    have hconsents := hscoped.drives _ d hreturns.held
    rw [run_concat, hjournal]
    constructor
    · intro row hrow hauth
      exact hconsents.revoked (mem_getSteps.mp hrow) hauth
    · intro granted step hphase hdecided hfound
      exact hconsents.consumed_or_restored hphase hdecided hfound

/-- A step that succeeded once. -/
def completedStep : List Event :=
  [.arrive "r" "s" "v2:a" none false, .ready 0 "t1" true, .settle 0 (returns "a") none "t2" true]

/-- A rerun that was consumed and a skip that was taken back. -/
def spentConsents : List Event :=
  completedStep ++ resumeWith "s" "rerun" ++
  [.arrive "r" "s" "v2:b" none false, .ready 1 "t3" true,
    .settle 1 (returns "b") none "t4" true, .finish "r" true] ++
  resumeWith "s" "skip" ++ [.arrive "r" "s" "v2:b" none false, .finish "r" true]

/-- A rerun that is consumed, and a skip that is taken back. -/
theorem consent_oneShot_spentConsents :
    VerdictsNamed plainSettings spentConsents ∧ ConsentReturned plainSettings spentConsents := by
  refine consent_oneShot plainSettings spentConsents ?_
  intro e he runId heq
  subst heq
  simp [spentConsents, completedStep, resumeWith] at he

/-- A consent is left behind when a resume ends with a row of its run still authorised. -/
theorem not_consentSpent_of (runId step : String) {before : List Event} {e : Event}
    (hends : ResumeEnds cfg (run (Service.exec cfg) {} before) e runId)
    (hauth : ((run (Service.exec cfg) {} (before ++ [e])).journal.get (runId, step)).any
      (fun row => row.state.authorised) = true) :
    ¬ ConsentSpent cfg (before ++ [e]) := by
  intro hspent
  obtain ⟨row, hrow, hstate⟩ := (Option.any_eq_true ..).mp hauth
  have hkey : row.stepId = step := congrArg Prod.snd (Table.key_of_get hrow)
  have hplain := hspent before e [] runId rfl hends row
    (mem_getSteps.mpr (by rw [hkey]; exact hrow))
  rw [hplain] at hstate
  cases hstate

/-- A resume that holds its claim before a step and not after it ends in that step. -/
theorem resumeEnds_of_released {before : List Event} {e : Event} {runId : String}
    (hheld : ((run (Service.exec cfg) {} before).drives.get runId).isSome = true)
    (hreleased : ((run (Service.exec cfg) {} (before ++ [e])).drives.get runId).isNone = true)
    (hsurvives : e ≠ .crash) : ResumeEnds cfg (run (Service.exec cfg) {} before) e runId := by
  obtain ⟨d, hd⟩ := Option.isSome_iff_exists.mp hheld
  obtain rfl : d.runId = runId := Table.key_of_get hd
  rw [run_concat, Option.isNone_iff_eq_none] at hreleased
  exact .inl ⟨d, ⟨hd, hreleased, hsurvives⟩, rfl⟩

/-- A crash leaves a skip behind; the resume that decides the step again leaves it too. -/
def redecidedRemnant : List Event :=
  completedStep ++ resumeWith "s" "skip" ++ [.crash] ++ resumeWith "s" "skip"

/-- A crash leaves a skip behind; gate 5 refuses the next resume. -/
def refusedRemnant : List Event :=
  completedStep ++ resumeWith "s" "skip" ++ [.crash, .resume "r" Table.empty]

/-- A drive with a skip still to be served; its revoke may fail, and a second resume of the run
is refused. -/
def liveSkip : List Event := completedStep ++ resumeWith "s" "skip"

/-- A resume is cancelled while its thread is inside `apply_decisions`, and the thread commits
under the next one, which names no step. -/
def cancelledGrant : List Event :=
  completedStep ++
  [.resume "r" (decided "s" "rerun"), .consent "r", .readDecisions "r", .cancelGrant "r",
    .resume "r" Table.empty, .consent "r", .readDecisions "r", .strayLands 0]

/-- Consent outlives its resume: over a remnant that is decided again, over one whose resume is
refused, when the revoke fails, and when a second resume is refused during a live drive; and the
thread of a cancelled resume grants under a drive that never named the step. -/
theorem not_consentSpent_remnant :
    ¬ ConsentSpent plainSettings (redecidedRemnant ++ [.finish "r" true]) ∧
      ¬ ConsentSpent plainSettings (refusedRemnant ++ [.consent "r"]) ∧
      ¬ ConsentSpent plainSettings (liveSkip ++ [.finish "r" false]) ∧
      ¬ ConsentSpent plainSettings (liveSkip ++ [.resume "r" Table.empty]) ∧
      ¬ VerdictsNamed plainSettings
        (cancelledGrant ++ [.arrive "r" "s" "v2:a" none false]) := by
  refine ⟨?_, ?_, ?_, ?_, ?_⟩
  · exact not_consentSpent_of "r" "s"
      (resumeEnds_of_released (by decide +kernel) (by decide +kernel) (by simp)) (by decide +kernel)
  · exact not_consentSpent_of "r" "s"
      (resumeEnds_of_released (by decide +kernel) (by decide +kernel) (by simp)) (by decide +kernel)
  · exact not_consentSpent_of "r" "s"
      (resumeEnds_of_released (by decide +kernel) (by decide +kernel) (by simp)) (by decide +kernel)
  · exact not_consentSpent_of "r" "s" (.inr ⟨Table.empty, rfl, by decide +kernel⟩)
      (by decide +kernel)
  · intro hnamed
    have hdriving : ((run (Service.exec plainSettings) {} cancelledGrant).drives.get "r").any
        (fun d => d.phase.isDriving && (d.decisions.find "s").isNone) = true := by decide +kernel
    have hauth : ((run (Service.exec plainSettings) {} cancelledGrant).journal.get ("r", "s")).any
        (fun row => row.state.authorised) = true := by decide +kernel
    obtain ⟨d, hd, hphase⟩ := (Option.any_eq_true ..).mp hdriving
    obtain ⟨row, hrow, hstate⟩ := (Option.any_eq_true ..).mp hauth
    rw [Bool.and_eq_true, Option.isNone_iff_eq_none] at hphase
    have hsome := hnamed cancelledGrant "r" "s" "v2:a" none false [] d row rfl hd hphase.1 hrow hstate
    rw [hphase.2] at hsome
    cases hsome

end CliAgentOrchestrator.Workflow
