import CliAgentOrchestrator.Workflow.YamlDrive

/-!
# The entries of a YAML run

What may happen to a run before its drive is live, when a cancel settles the record it finds and
leaves its writes to a task, and the view each of the three entries opens its drive with.
-/

set_option autoImplicit false

namespace CliAgentOrchestrator.Workflow.Yaml

variable {σ : Schedule} {V V' : View} {w : World} {s : WorkflowStep}

/-! ## Before a drive is live -/

/-- The journal has the step done. -/
def KeptAt (w : World) (stepId : String) : Prop :=
  ∃ row, w.row = some row ∧ StepState.kept (row.steps stepId).state = true

/-- What no move changes of a world whose run nothing drives yet; a recovery task may put a step
back. -/
structure Carried (w₀ w : World) : Prop where
  runId : w.runId = w₀.runId
  live : w.live = w₀.live
  inserted : w.row.isSome = w₀.row.isSome
  kept : ∀ stepId, KeptAt w stepId → KeptAt w₀ stepId
  prompts : w.prompts = w₀.prompts
  collected : w.collected = w₀.collected

/-- A recovery task at work is that of a cancel accepted since the call. -/
def Guarded (w : World) : Prop := w.recovery.getD [] ≠ [] → w.accepted = true

theorem Carried.refl (w : World) : Carried w w := ⟨rfl, rfl, rfl, fun _ h => h, rfl, rfl⟩

theorem Carried.trans {w₀ w₁ : World} (h : Carried w₀ w₁) (h' : Carried w₁ w) : Carried w₀ w where
  runId := h'.runId.trans h.runId
  live := h'.live.trans h.live
  inserted := h'.inserted.trans h.inserted
  kept := fun t ht => h.kept t (h'.kept t ht)
  prompts := h'.prompts.trans h.prompts
  collected := h'.collected.trans h.collected

theorem carried_updateRow (w : World) {f : RunRow → RunRow}
    (hf : ∀ row stepId, StepState.kept ((f row).steps stepId).state = true →
      StepState.kept (row.steps stepId).state = true) : Carried w (w.updateRow f) where
  runId := rfl
  live := rfl
  inserted := Option.isSome_map
  kept := by
    rintro stepId ⟨row, hrow, hkept⟩
    obtain ⟨row', hrow', rfl⟩ := Option.map_eq_some_iff.mp hrow
    exact ⟨row', hrow', hf row' stepId hkept⟩
  prompts := rfl
  collected := rfl

theorem carried_recoveryWrite (w : World) (write : RecoveryWrite) :
    Carried w (w.recoveryWrite write) := by
  cases write with
  | step stepId st hst =>
    refine carried_updateRow w fun row t hkept => ?_
    by_cases ht : t = stepId
    · simp only [ht, Function.update_self] at hkept
      rw [show (World.columns st none).state = .cancelled from hst] at hkept
      cases hkept
    · simp only [Function.update_of_ne ht] at hkept
      exact hkept
  | _ => exact carried_updateRow w fun _ _ h => h

theorem carried_lookup {w' : World} (h : w.lookup = some w') :
    Carried w w' ∧ w'.accepted = w.accepted ∧ w'.recovery = w.recovery := by
  unfold World.lookup at h
  split at h
  · cases h
    exact ⟨.refl w, rfl, rfl⟩
  · obtain ⟨row, hrow, rfl⟩ := Option.map_eq_some_iff.mp h
    exact ⟨⟨rfl, rfl, rfl, fun _ h => h, rfl, rfl⟩, rfl, rfl⟩

/-- A cancel writes no row by itself, and what it has written later it has accepted. -/
theorem carried_cancelRun (w : World) : Carried w w.cancelRun ∧
    (w.accepted = true → w.cancelRun.accepted = true) ∧
    (w.cancelRun.recovery = w.recovery ∨ w.cancelRun.accepted = true) := by
  unfold World.cancelRun
  split
  · exact ⟨.refl w, id, .inl rfl⟩
  · next w' hlookup =>
    obtain ⟨hw, haccepted, hrecovery⟩ := carried_lookup hlookup
    split
    · exact ⟨{ hw with }, fun _ => rfl, .inr rfl⟩
    · split
      · exact ⟨hw, fun h => haccepted.trans h, .inl hrecovery⟩
      · simp only
        split
        · exact ⟨{ hw with }, fun _ => rfl, .inr rfl⟩
        · unfold World.settleStranded
          cases w'.record.currentStepId with
          | _ => exact ⟨{ hw with }, fun _ => rfl, .inr rfl⟩

theorem carried_landCancelling (w : World) : Carried w w.landCancelling := by
  unfold World.landCancelling
  split
  · exact { carried_updateRow w (f := fun row => { row with state := .cancelling })
      fun _ _ h => h with }
  · exact .refl w

theorem carried_landRecovery (w : World) : Carried w w.landRecovery := by
  unfold World.landRecovery
  split
  · next write rest _ => exact { carried_recoveryWrite w write with }
  · exact .refl w

theorem carried_exec (w : World) (m : Move) : Carried w (m.exec σ.validate w) := by
  cases m with
  | cancelRun => exact (carried_cancelRun w).1
  | landCancelling => exact carried_landCancelling w
  | landRecovery => exact carried_landRecovery w
  | recordOutput runId stepId output outputSchema => exact { Carried.refl w with }

theorem carried_pause (w : World) : Carried w (pause σ w) :=
  pause_invariant (I := Carried w) (fun w' m h => h.trans (carried_exec w' m))
    { Carried.refl w with }

theorem Guarded.exec (h : Guarded w) (m : Move) : Guarded (m.exec σ.validate w) := by
  cases m with
  | cancelRun =>
    obtain ⟨-, haccepted, hrecovery⟩ := carried_cancelRun w
    intro hpending
    obtain hsame | hnow := hrecovery
    · refine haccepted (h ?_)
      rw [← hsame]
      exact hpending
    · exact hnow
  | landCancelling =>
    show Guarded w.landCancelling
    unfold World.landCancelling
    split <;> exact h
  | landRecovery =>
    show Guarded w.landRecovery
    unfold World.landRecovery
    split
    · next write rest hrecovery =>
      have haccepted : w.accepted = true := h (by simp [hrecovery])
      intro _
      cases write with
      | _ => exact haccepted
    · exact h
  | recordOutput runId stepId output outputSchema => exact h

theorem Guarded.pause (h : Guarded w) : Guarded (pause σ w) :=
  pause_invariant (I := Guarded) (fun _ m hw => hw.exec m) h

theorem Guarded.ajournal (h : Guarded w) {f : World → World} (hf : ∀ w, Guarded w → Guarded (f w)) :
    Guarded (ajournal σ f w) :=
  (hf _ h.pause).pause

theorem carried_ajournal (w : World) {f : World → World} (hf : ∀ w, Carried w (f w)) :
    Carried w (ajournal σ f w) :=
  ((carried_pause w).trans (hf _)).trans (carried_pause _)

/-- The recovery task is over and gone, and has moved the rows as its writes do. -/
theorem carried_awaitCancelRecovery (w : World) : Carried w (awaitCancelRecovery σ w) ∧
    Guarded (awaitCancelRecovery σ w) := by
  unfold awaitCancelRecovery
  split
  · next hnone =>
    refine ⟨.refl w, ?_⟩
    intro hpending
    rw [hnone] at hpending
    exact absurd rfl hpending
  · have hwrites : ∀ (writes : List RecoveryWrite) (w : World),
        Carried w (writes.foldl World.recoveryWrite w) := by
      intro writes
      induction writes with
      | nil => exact Carried.refl
      | cons write rest ih => exact fun w => (carried_recoveryWrite w write).trans (ih _)
    have hflushed := hwrites ((pause σ w).recovery.getD [])
      { (pause σ w) with recovery := some [] }
    have hall := ((carried_pause (σ := σ) w).trans { hflushed with }).trans
      (carried_pause (σ := σ) _)
    refine ⟨{ hall with }, ?_⟩
    exact fun hpending => absurd rfl hpending

/-! ## How a drive opens -/

/-- A view no drive has moved: its steps are fresh, or kept from what the journal had at the
call. -/
structure Opens (w₀ : World) (V : View) : Prop where
  runId : V.runId = w₀.runId
  inserted : V.inserted = true
  prompts : V.prompts = []
  collected : V.collected = []
  waiting : ∀ s, Waiting s V
  own : ∀ s, Own s V ∨ KeptAt w₀ s.id

/-- What an entry leaves that got as far as its drive; `live` is off by then. -/
def EntryPost (w₀ w : World) (e : EntryEnd) : Prop :=
  ∃ V w₁, Opens w₀ V ∧ w = { w₁ with live := false } ∧ DrivePost V w₁ e

theorem entryPost_driveLive {w₀ : World} (hV : Opens w₀ V) (h : Held Begun V w) :
    EntryPost w₀ (driveLive σ V.spec.steps w).1 (driveLive σ V.spec.steps w).2 := by
  have hresolved : Resolved V := by
    intro p hp
    rw [hV.prompts] at hp
    cases hp
  have hdrive := drivePost (σ := σ) (fun s _ => hV.waiting s) hresolved h
  exact ⟨V, awaitCancellingJournal σ (drive σ V.spec.steps w).1, hV, rfl,
    hdrive.awaitCancellingJournal⟩

/-- A step no drive has begun. -/
theorem own_fresh (h : V.steps s.id = {}) : Own s V := by
  refine ⟨?_, ?_, ?_⟩
  · intro _ hstate
    rw [h] at hstate
    cases hstate
  · intro hstate
    rw [h] at hstate
    cases hstate
  · intro hreprompted
    rw [h] at hreprompted
    cases hreprompted

/-- The view of a record whose run nothing has driven. -/
theorem opens_fresh {w₀ : World} (hrunId : V.runId = w₀.runId) (hinserted : V.inserted = true)
    (hsteps : ∀ stepId, V.steps stepId = {}) (hprompts : V.prompts = [])
    (hcollected : V.collected = []) : Opens w₀ V where
  runId := hrunId
  inserted := hinserted
  prompts := hprompts
  collected := hcollected
  waiting := fun s => .inl ⟨by rw [hsteps], own_fresh (hsteps s.id)⟩
  own := fun s => .inl (own_fresh (hsteps s.id))

/-- The view of a world by its own row. -/
def View.of (w : World) (row : RunRow) : View where
  runId := w.runId
  spec := w.record.spec
  steps := w.record.stepStates
  journal := fun stepId => (row.steps stepId).state

theorem held_of {row : RunRow} (hrow : w.row = some row) (hlive : w.live = true)
    (hcached : w.cached = true) (hphase : Begun w.control) (hguarded : Guarded w)
    (hcurrent : w.record.currentStepId = none) (hprompts : w.prompts = [])
    (hcollected : w.collected = []) : Held Begun (.of w row) w where
  live := hlive
  cached := hcached
  runId := rfl
  spec := rfl
  inserted := by rw [hrow]; rfl
  phase := hphase
  owed := fun hpending => .inl (hguarded hpending)
  steps := rfl
  current := hcurrent
  journal := by
    intro row' hrow' stepId
    rw [hrow] at hrow'
    rw [← Option.some.inj hrow']
    exact .inl rfl
  prompts := hprompts
  collected := hcollected
  judged := fun c hc => (by cases hc)

/-! ## `start_run` -/

theorem stable_begun : Stable Begun where
  cancel := fun c h => h.imp (stable_open.cancel c) ((stable_final .cancelled).cancel c)
  land := fun c h => h.imp (stable_open.land c) ((stable_final .cancelled).land c)

/-- The row goes in with every step PENDING. -/
theorem Held.journalInsertRun {P : Control → Prop} (h : Held P V w) (hinserted : V.inserted = false)
    (hjournal : ∀ stepId, V.journal stepId = .pending) :
    Held P { V with inserted := true } w.journalInsertRun := by
  have hnone : w.row = none := by
    rw [← Option.not_isSome_iff_eq_none, h.inserted, hinserted]
    decide
  rw [World.journalInsertRun, World.insertRow, hnone]
  refine { h with inserted := rfl, journal := ?_ }
  intro row hrow stepId
  rw [← Option.some.inj hrow]
  exact .inl (hjournal stepId).symm

theorem checkRunIdAvailable_ok (h : checkRunIdAvailable w = .ok ()) :
    w.cached = false ∧ w.live = false ∧ w.row = none := by
  unfold checkRunIdAvailable at h
  split at h
  · cases h
  · next hfree =>
    rw [not_or, not_or, Bool.not_eq_true, Bool.not_eq_true, Option.not_isSome_iff_eq_none] at hfree
    exact hfree

theorem entryPost_startRun {spec : WorkflowSpec} {inputs : List (String × String)}
    (hprompts : w.prompts = []) (hcollected : w.collected = [])
    (htracked : w.cached = false → w.recovery = none) :
    (∃ text, (startRun σ spec inputs w).2 = .refused text) ∨
      EntryPost w (startRun σ spec inputs w).1 (startRun σ spec inputs w).2 := by
  simp only [startRun]
  split
  · exact .inl ⟨_, rfl⟩
  · exact .inl ⟨_, rfl⟩
  · next havailable =>
    right
    obtain ⟨hcached, hlive, hrow⟩ := checkRunIdAvailable_ok havailable
    have hrecovery := htracked hcached
    let V : View :=
      { runId := w.runId, spec, inserted := false, steps := fun _ => {}, journal := fun _ => .pending }
    have hopens : Opens w { V with inserted := true } :=
      opens_fresh rfl rfl (fun _ => rfl) rfl rfl
    have h : Held Begun V { w with
        record := { spec, inputs }, cached := true, live := true, cancelling := .absent } :=
      { live := rfl, cached := rfl, runId := rfl, spec := rfl
        inserted := by rw [hrow]; rfl
        phase := .inl (.inl ⟨rfl, rfl, rfl⟩)
        owed := by
          intro hpending
          rw [hrecovery] at hpending
          exact absurd rfl hpending
        steps := rfl, current := rfl
        journal := by
          intro row hrow'
          rw [hrow] at hrow'
          cases hrow'
        prompts := hprompts, collected := hcollected, judged := fun c hc => (by cases hc) }
    have hinserted := (h.ajournal (σ := σ) stable_begun fun w h =>
      h.journalInsertRun rfl fun _ => rfl).journalEvent (σ := σ) stable_begun
    exact entryPost_driveLive hopens hinserted

/-! ## A submitted run -/

/-- A registered record that waits for its drive: untouched, or settled by a cancel. -/
structure Queued (spec : WorkflowSpec) (w : World) : Prop where
  live : w.live = false
  cached : w.cached = true
  spec_eq : w.record.spec = spec
  steps : w.record.stepStates = fun _ => {}
  current : w.record.currentStepId = none
  phase : (w.record.state = .running ∧ w.record.cancelled = false ∧ w.cancelling = .absent) ∨
    Final .cancelled w.control

theorem Queued.cancelRun {spec : WorkflowSpec} (h : Queued spec w) : Queued spec w.cancelRun := by
  have hlookup : w.lookup = some w := by rw [World.lookup, if_pos h.cached]
  have hlive : ¬ w.live = true := by
    rw [h.live]
    decide
  rw [World.cancelRun, hlookup]
  simp only
  rw [if_neg fun hboth => hlive hboth.2]
  obtain ⟨hrunning, -, habsent⟩ | hfinal := h.phase
  · have hterminal : ¬ w.record.state.terminal = true := by
      rw [hrunning]
      decide
    rw [if_neg hterminal, if_neg hlive]
    simp only [World.settleStranded, h.current]
    exact ⟨h.live, h.cached, h.spec_eq, h.steps, rfl,
      .inr ⟨rfl, rfl, habsent, iff_of_true rfl rfl⟩⟩
  · have hterminal : w.record.state.terminal = true := by
      rw [show w.record.state = .cancelled from hfinal.1]
      rfl
    rw [if_pos hterminal]
    exact h

theorem Queued.exec {spec : WorkflowSpec} (h : Queued spec w) (m : Move) :
    Queued spec (m.exec σ.validate w) := by
  have habsent : w.cancelling = .absent := h.phase.elim (fun hp => hp.2.2) fun hp => hp.2.2.1
  cases m with
  | cancelRun => exact h.cancelRun
  | landCancelling =>
    show Queued spec w.landCancelling
    rw [World.landCancelling, habsent]
    exact h
  | landRecovery =>
    show Queued spec w.landRecovery
    unfold World.landRecovery
    split
    · next write rest _ =>
      cases write with
      | _ => exact { h with }
    · exact h
  | recordOutput runId stepId output outputSchema => exact { h with }

theorem Queued.pause {spec : WorkflowSpec} (h : Queued spec w) : Queued spec (pause σ w) :=
  pause_invariant (I := Queued spec) (fun _ m h => h.exec m) { h with }

/-- The row is in from its thread on, and nothing takes it out. -/
theorem carried_insertRow (record : RunRecord) (hrow : w.row = none) (hguarded : Guarded w) :
    (let w' := ajournal σ (·.insertRow record) w
    (w'.runId = w.runId ∧ w'.live = w.live ∧ w'.prompts = w.prompts ∧
      w'.collected = w.collected) ∧ w'.row.isSome = true ∧ Guarded w') := by
  have hbefore := carried_pause (σ := σ) w
  have hnone : (pause σ w).row = none := by
    rw [← Option.not_isSome_iff_eq_none, hbefore.inserted, hrow]
    decide
  have hinsert : (pause σ w).insertRow record = { pause σ w with
      row := some { spec := record.spec, inputs := record.inputs, state := record.state } } := by
    rw [World.insertRow, hnone]
  simp only [ajournal, hinsert]
  have hafter := carried_pause (σ := σ) { pause σ w with
    row := some { spec := record.spec, inputs := record.inputs, state := record.state } }
  have hguarded' : Guarded { pause σ w with
      row := some { spec := record.spec, inputs := record.inputs, state := record.state } } :=
    hguarded.pause (σ := σ)
  exact ⟨⟨hafter.runId.trans hbefore.runId, hafter.live.trans hbefore.live,
    hafter.prompts.trans hbefore.prompts, hafter.collected.trans hbefore.collected⟩,
    hafter.inserted, hguarded'.pause⟩

theorem entryPost_submitRun {spec : WorkflowSpec} {inputs : List (String × String)}
    (hprompts : w.prompts = []) (hcollected : w.collected = [])
    (htracked : w.cached = false → w.recovery = none) :
    (∃ text, (submitRun σ spec inputs w).2 = .refused text) ∨
      EntryPost w (submitRun σ spec inputs w).1 (submitRun σ spec inputs w).2 := by
  simp only [submitRun]
  split
  · exact .inl ⟨_, rfl⟩
  · exact .inl ⟨_, rfl⟩
  · next havailable =>
    right
    obtain ⟨hcached, hlive, hrow⟩ := checkRunIdAvailable_ok havailable
    have hguarded : Guarded w := by
      intro hpending
      rw [htracked hcached] at hpending
      exact absurd rfl hpending
    obtain ⟨hcarried, hinserted, hguarded₁⟩ := carried_insertRow (σ := σ) { spec, inputs } hrow
      hguarded
    generalize ajournal σ (·.insertRow { spec, inputs }) w = w₁ at hcarried hinserted hguarded₁ ⊢
    have hqueued : Queued spec { w₁ with
        record := { spec, inputs }, cached := true, cancelling := .absent } :=
      ⟨hcarried.2.1.trans hlive, rfl, rfl, rfl, rfl, .inl ⟨rfl, rfl, rfl⟩⟩
    have hpaused := hqueued.pause (σ := σ)
    have hkept := carried_pause (σ := σ) { w₁ with
      record := { spec, inputs }, cached := true, cancelling := .absent }
    have hguarded₂ : Guarded (pause σ { w₁ with
        record := { spec, inputs }, cached := true, cancelling := .absent }) :=
      Guarded.pause hguarded₁
    generalize pause σ { w₁ with
      record := { spec, inputs }, cached := true, cancelling := .absent } = w₂
      at hpaused hkept hguarded₂ ⊢
    obtain ⟨row, hrow₂⟩ := Option.isSome_iff_exists.mp (hkept.inserted.trans hinserted)
    have hbegun : Begun w₂.control := hpaused.phase.imp .inl id
    have h : Held Begun (.of { w₂ with live := true } row) { w₂ with live := true } :=
      held_of hrow₂ rfl hpaused.cached hbegun hguarded₂ hpaused.current
        ((hkept.prompts.trans hcarried.2.2.1).trans hprompts)
        ((hkept.collected.trans hcarried.2.2.2).trans hcollected)
    refine entryPost_driveLive (opens_fresh (hkept.runId.trans hcarried.1) rfl ?_ rfl rfl) h
    intro stepId
    exact congrFun hpaused.steps stepId

/-! ## `resume_from_last_completed` -/

theorem resetSteps_kept {stepStates : String → StepRunState} {stepId : String}
    (h : StepState.kept (stepStates stepId).state = true) :
    resetSteps stepStates stepId = stepStates stepId := by
  rw [resetSteps, if_pos h]

theorem resetSteps_fresh {stepStates : String → StepRunState} {stepId : String}
    (h : ¬ StepState.kept (stepStates stepId).state = true) :
    resetSteps stepStates stepId = {} := by
  rw [resetSteps, if_neg h]

/-- A run that is opened again. -/
theorem entryPost_reopen {w₀ : World} {row : RunRow} (hrow : w.row = some row)
    (hcarried : Carried w₀ w) (hguarded : Guarded w) (hprompts : w₀.prompts = [])
    (hcollected : w₀.collected = []) :
    EntryPost w₀ (reopen σ row w).1 (reopen σ row w).2 := by
  simp only [reopen]
  generalize hw₁ : ({ w with
    record := { World.rebuildRecord row with
      stepStates := resetSteps (World.rebuildRecord row).stepStates, state := .running
      currentStepId := none }
    cached := true, live := true, cancelling := .absent } : World) = w₁
  have h : Held Begun (.of w₁ row) w₁ := by
    subst hw₁
    exact held_of hrow rfl rfl (.inl (.inl ⟨rfl, rfl, rfl⟩)) hguarded rfl
      (hcarried.prompts.trans hprompts) (hcarried.collected.trans hcollected)
  have hkeeps : ∀ stepId, StepState.kept (row.steps stepId).state = true →
      (View.of w₁ row).steps stepId = (World.rebuildRecord row).stepStates stepId := by
    intro stepId hkept
    have hstate : StepState.kept ((World.rebuildRecord row).stepStates stepId).state = true := hkept
    rw [← resetSteps_kept hstate, ← hw₁]
    rfl
  have hresets : ∀ stepId, ¬ StepState.kept (row.steps stepId).state = true →
      (View.of w₁ row).steps stepId = {} := by
    intro stepId hkept
    have hstate : ¬ StepState.kept ((World.rebuildRecord row).stepStates stepId).state = true :=
      hkept
    rw [← resetSteps_fresh hstate, ← hw₁]
    rfl
  have hopens : Opens w₀ (.of w₁ row) := by
    refine ⟨?_, rfl, rfl, rfl, ?_, ?_⟩
    · rw [← hcarried.runId, ← hw₁]
      rfl
    · intro s
      by_cases hkept : StepState.kept (row.steps s.id).state = true
      · right
        refine ⟨?_, settles_of_kept hkept⟩
        rw [hkeeps s.id hkept]
        exact hkept
      · left
        exact ⟨by rw [hresets s.id hkept], own_fresh (hresets s.id hkept)⟩
    · intro s
      by_cases hkept : StepState.kept (row.steps s.id).state = true
      · exact .inr (hcarried.kept s.id ⟨row, hrow, hkept⟩)
      · exact .inl (own_fresh (hresets s.id hkept))
  have hspec : (View.of w₁ row).spec = (World.rebuildRecord row).spec := by
    rw [View.of, ← hw₁]
  rw [← hspec]
  exact entryPost_driveLive hopens
    ((h.ajournalRunStateSnapshot stable_begun .running).ajournalCurrentStep stable_begun)

theorem entryPost_resume (hprompts : w.prompts = []) (hcollected : w.collected = []) :
    (∃ text, (resumeFromLastCompleted σ w).2 = .refused text) ∨
      EntryPost w (resumeFromLastCompleted σ w).1 (resumeFromLastCompleted σ w).2 := by
  obtain ⟨hcarried, hguarded⟩ := carried_awaitCancelRecovery (σ := σ) w
  simp only [resumeFromLastCompleted]
  split
  · exact .inl ⟨_, rfl⟩
  · split
    · exact .inl ⟨_, rfl⟩
    · split
      · exact .inl ⟨_, rfl⟩
      · next row hrow =>
        split
        · exact .inl ⟨_, rfl⟩
        · have hsettled : Carried w (if row.state = .cancelling then
                ajournal σ (·.journalRunStateSnapshot .cancelled) (awaitCancelRecovery σ w)
              else awaitCancelRecovery σ w) ∧
              Guarded (if row.state = .cancelling then
                ajournal σ (·.journalRunStateSnapshot .cancelled) (awaitCancelRecovery σ w)
              else awaitCancelRecovery σ w) := by
            split
            · exact ⟨hcarried.trans (carried_ajournal _ fun w =>
                carried_updateRow w fun _ _ h => h), hguarded.ajournal fun _ h => h⟩
            · exact ⟨hcarried, hguarded⟩
          generalize (if row.state = .cancelling then
              ajournal σ (·.journalRunStateSnapshot .cancelled) (awaitCancelRecovery σ w)
            else awaitCancelRecovery σ w) = w₁ at hsettled ⊢
          split
          · exact .inl ⟨_, rfl⟩
          · next row' hrow' =>
            exact .inr (entryPost_reopen hrow' hsettled.1 hsettled.2 hprompts hcollected)

/-! ## The three entries -/

/-- The world the record of a drive begins with. -/
def World.called (w : World) : World := { w with prompts := [], collected := [], accepted := false }

/-- An entry refuses its run, or drives it from a view no drive has moved. -/
theorem entryPost (e : Entry) (htracked : w.cached = false → w.recovery = none) :
    (∃ text, (e.run σ w).2 = .refused text) ∨
      EntryPost w.called (e.run σ w).1 (e.run σ w).2 := by
  cases e with
  | start spec inputs => exact entryPost_startRun (w := w.called) rfl rfl htracked
  | submit spec inputs => exact entryPost_submitRun (w := w.called) rfl rfl htracked
  | resume => exact entryPost_resume (w := w.called) rfl rfl

end CliAgentOrchestrator.Workflow.Yaml
