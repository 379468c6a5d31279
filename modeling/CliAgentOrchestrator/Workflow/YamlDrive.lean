import CliAgentOrchestrator.Workflow.YamlStep

/-!
# The end of a drive

A loop that goes through leaves every step over and the run open, halted or cancelled, and what
follows it settles the run in that state, in the record and in its row. A template that does not
resolve takes the drive out of its loop, and the handler of that error settles the run without
its steps. `drivePost` says what a drive leaves, by how it ends.
-/

set_option autoImplicit false

namespace CliAgentOrchestrator.Workflow.Yaml

variable {σ : Schedule} {P : Control → Prop} {V V' : View} {w : World} {s : WorkflowStep}

/-! ## The phases a drive ends in -/

/-- A cancel holds the run, whatever else has settled it since. -/
def Caught (c : Control) : Prop :=
  c.cancelled = true ∧ (c.state = .cancelling ∨ c.state.terminal = true)

/-- A cancel holds the run and its CANCELLING write is over. -/
def Calm (c : Control) : Prop := Caught c ∧ c.cancelling = .absent

/-- The run has ended as it stays: no cancel moves it, and none of its writes is to land. -/
def Final (state : RunState) (c : Control) : Prop :=
  c.state = state ∧ state.terminal = true ∧ c.cancelling = .absent ∧
    (c.cancelled = true ↔ state = .cancelled)

/-- The handler of an engine error has settled the run. -/
def Failed (c : Control) : Prop := c.state = .failed ∧ (c.cancelled = true → c.accepted = true)

/-- How a drive finds its run: open, or cancelled before it went live. -/
def Begun (c : Control) : Prop := Open c ∨ Final .cancelled c

/-- How the loop of a drive leaves its run. -/
def Rested (c : Control) : Prop := Open c ∨ Final .failed c ∨ Final .cancelled c

theorem Control.cancel_of_terminal {c : Control} (h : c.state.terminal = true) : c.cancel = c := by
  have hnot : c.state ≠ .cancelling := by
    intro hstate
    rw [hstate] at h
    cases h
  rw [Control.cancel, if_neg hnot, if_pos h]

theorem Control.land_of_absent {c : Control} (h : c.cancelling = .absent) : c.land = c := by
  rw [Control.land, h]
  cases c
  simp_all

theorem Caught.cancel {c : Control} (h : Caught c) : Caught c.cancel := by
  obtain ⟨hcancelled, hstate | hstate⟩ := h
  · rw [Control.cancel, if_pos hstate]
    exact ⟨hcancelled, .inl hstate⟩
  · rw [Control.cancel_of_terminal hstate]
    exact ⟨hcancelled, .inr hstate⟩

theorem stable_caught : Stable Caught where
  cancel := fun _ => Caught.cancel
  land := fun _ h => h

theorem stable_calm : Stable Calm where
  cancel := by
    rintro c ⟨hcaught, habsent⟩
    refine ⟨hcaught.cancel, ?_⟩
    obtain ⟨-, hstate | hstate⟩ := hcaught
    · rw [Control.cancel, if_pos hstate]
      exact habsent
    · rw [Control.cancel_of_terminal hstate]
      exact habsent
  land := by
    rintro c ⟨hcaught, habsent⟩
    rw [Control.land_of_absent habsent]
    exact ⟨hcaught, habsent⟩

theorem stable_final (state : RunState) : Stable (Final state) where
  cancel := by
    intro c h
    rw [Control.cancel_of_terminal (by rw [h.1]; exact h.2.1)]
    exact h
  land := by
    intro c h
    rw [Control.land_of_absent h.2.2.1]
    exact h

theorem stable_failed : Stable Failed where
  cancel := by
    intro c h
    rw [Control.cancel_of_terminal (by rw [h.1]; rfl)]
    exact h
  land := fun _ h => h

/-! ## The steps ahead -/

/-- Of the steps and their rows, `V'` has moved those of `order` only. -/
structure Within (order : List WorkflowStep) (V V' : View) : Prop where
  runId : V'.runId = V.runId
  spec : V'.spec = V.spec
  inserted : V'.inserted = V.inserted
  steps : ∀ t, t ∉ order.map WorkflowStep.id → V'.steps t = V.steps t
  journal : ∀ t, t ∉ order.map WorkflowStep.id → V'.journal t = V.journal t
  collected : ∀ c ∈ V.collected, c ∈ V'.collected

theorem Within.refl (steps : List WorkflowStep) (V : View) : Within steps V V :=
  ⟨rfl, rfl, rfl, fun _ _ => rfl, fun _ _ => rfl, fun _ h => h⟩

theorem Touches.within {rest : List WorkflowStep} {V'' : View} (h : Touches s V V')
    (h' : Within rest V' V'') : Within (s :: rest) V V'' where
  runId := h'.runId.trans h.runId
  spec := h'.spec.trans h.spec
  inserted := h'.inserted.trans h.inserted
  steps := by
    intro t ht
    rw [List.map_cons, List.mem_cons, not_or] at ht
    rw [h'.steps t ht.2, h.steps t ht.1]
  journal := by
    intro t ht
    rw [List.map_cons, List.mem_cons, not_or] at ht
    rw [h'.journal t ht.2, h.journal t ht.1]
  collected := fun c hc => h'.collected c (h.collected c hc)

/-- The drive has not come to the step: it is to run, or done before and journaled so. -/
def Waiting (s : WorkflowStep) (V : View) : Prop :=
  (V.steps s.id).state = .pending ∧ Own s V ∨
    StepState.kept (V.steps s.id).state = true ∧ Settles (V.journal s.id)

/-- The step is over, in the record and in the journal. -/
def Ended (s : WorkflowStep) (V : View) : Prop :=
  Settles (V.steps s.id).state ∧ Settles (V.journal s.id)

/-- The step lets its run complete. -/
def Passed (s : WorkflowStep) (state : StepState) : Prop :=
  StepState.kept state = true ∨ state = .failed ∧ s.onFailure = some .continue

theorem Waiting.of_touches {t : WorkflowStep} (h : Waiting s V) (ht : Touches t V V')
    (hne : s.id ≠ t.id) : Waiting s V' := by
  have hsteps := ht.steps s.id hne
  refine h.imp ?_ ?_
  · rintro ⟨hstate, hown⟩
    exact ⟨hsteps ▸ hstate, hown.mono hsteps ht.collected⟩
  · rintro ⟨hkept, hjournal⟩
    exact ⟨hsteps ▸ hkept, ht.journal s.id hne ▸ hjournal⟩

theorem Ended.of_within {rest : List WorkflowStep} (h : Ended s V) (hw : Within rest V V')
    (hs : s.id ∉ rest.map WorkflowStep.id) : Ended s V' := by
  rw [Ended, hw.steps s.id hs, hw.journal s.id hs]
  exact h

theorem Own.of_within {rest : List WorkflowStep} (h : Own s V) (hw : Within rest V V')
    (hs : s.id ∉ rest.map WorkflowStep.id) : Own s V' :=
  h.mono (hw.steps s.id hs) hw.collected

/-- Steps of a spec have ids of their own. -/
theorem waiting_of_touches {rest : List WorkflowStep} (hnot : s.id ∉ rest.map WorkflowStep.id)
    (hwaiting : ∀ t ∈ rest, Waiting t V) (h : Touches s V V') : ∀ t ∈ rest, Waiting t V' := by
  intro t ht
  refine (hwaiting t ht).of_touches h ?_
  intro heq
  exact hnot (heq ▸ List.mem_map_of_mem ht)

/-! ## What is skipped -/

/-- What the rest of a drive does to its steps: they end, and keep what is theirs. -/
structure Finishes (order : List WorkflowStep) (V V' : View) : Prop where
  within : Within order V V'
  ended : ∀ s ∈ order, Ended s V'
  own : ∀ s ∈ order, Own s V → Own s V'

/-- What is the steps' own stays so through the head and then the tail. -/
theorem own_cons {rest : List WorkflowStep} {V'' : View} (ht : Touches s V V')
    (hown : Own s V → Own s V') (hw : Within rest V' V'')
    (hrest : ∀ t ∈ rest, Own t V' → Own t V'') (hnot : s.id ∉ rest.map WorkflowStep.id) :
    ∀ t ∈ s :: rest, Own t V → Own t V'' := by
  intro t hmem hown'
  obtain rfl | hmem := List.mem_cons.mp hmem
  · exact (hown hown').of_within hw hnot
  · refine hrest t hmem (hown'.mono (ht.steps t.id ?_) ht.collected)
    intro heq
    exact hnot (heq ▸ List.mem_map_of_mem hmem)

/-- The head ends, and then the tail. -/
theorem Finishes.cons {rest : List WorkflowStep} {V'' : View} (ht : Touches s V V')
    (hended : Ended s V') (hown : Own s V → Own s V') (h : Finishes rest V' V'')
    (hnot : s.id ∉ rest.map WorkflowStep.id) : Finishes (s :: rest) V V'' where
  within := ht.within h.within
  ended := by
    intro t hmem
    obtain rfl | hmem := List.mem_cons.mp hmem
    · exact hended.of_within h.within hnot
    · exact h.ended t hmem
  own := own_cons ht hown h.within h.own hnot

theorem held_skipRemaining (hP : Stable P) {steps : List WorkflowStep}
    (hnodup : (steps.map WorkflowStep.id).Nodup) (hwaiting : ∀ s ∈ steps, Waiting s V)
    (h : Held P V w) :
    ∃ V', Finishes steps V V' ∧ V'.prompts = V.prompts ∧ Held P V' (skipRemaining σ steps w) := by
  induction steps generalizing V w with
  | nil =>
    exact ⟨V, ⟨.refl [] V, fun s hs => (by cases hs), fun s hs => (by cases hs)⟩, rfl, h⟩
  | cons s rest ih =>
    rw [List.map_cons, List.nodup_cons] at hnodup
    have hstate : (w.stepState s.id).state = (V.steps s.id).state := by rw [h.stepState]
    rw [skipRemaining, List.foldl_cons, hstate]
    obtain ⟨hpending, hown⟩ | ⟨hkept, hjournal⟩ := hwaiting s List.mem_cons_self
    · rw [if_pos hpending]
      have h₁ := ((h.setStep s.id fun st => { st with state := .skipped }).ajournalStep (σ := σ) hP
        s.id none).journalEvent (σ := σ) hP
      have ht₁ := (touches_setStep (s := s) V fun st => { st with state := .skipped }).trans
        (touches_journalStep _)
      obtain ⟨V', hfinishes, hprompts, h'⟩ := ih hnodup.2
        (waiting_of_touches hnodup.1 (fun t ht => hwaiting t (List.mem_cons_of_mem _ ht)) ht₁) h₁
      refine ⟨V', .cons ht₁ ?_ ?_ hfinishes hnodup.1, hprompts, h'⟩
      · rw [Ended, View.journalStep_journal, View.journalStep_steps, View.setStep_steps]
        exact ⟨⟨by simp, by simp⟩, ⟨by simp, by simp⟩⟩
      · exact fun hown => (hown.setStep rfl rfl).journalStep s.id
    · have hnot : ¬ (V.steps s.id).state = .pending := (settles_of_kept hkept).1
      rw [if_neg hnot]
      obtain ⟨V', hfinishes, hprompts, h'⟩ := ih hnodup.2
        (fun t ht => hwaiting t (List.mem_cons_of_mem _ ht)) h
      exact ⟨V', .cons (.refl s V) ⟨settles_of_kept hkept, hjournal⟩ id hfinishes hnodup.1,
        hprompts, h'⟩

theorem held_settleCancel {steps : List WorkflowStep}
    (hnodup : (steps.map WorkflowStep.id).Nodup) (hwaiting : ∀ s ∈ steps, Waiting s V)
    (h : Held Caught V w) :
    ∃ V', Finishes steps V V' ∧ V'.prompts = V.prompts ∧
      Held (Final .cancelled) V' (settleCancel σ steps w) := by
  have hcalm : Held Calm V (awaitCancellingJournal σ w) :=
    h.awaitCancellingJournal stable_caught fun _ hc => ⟨hc, rfl⟩
  obtain ⟨V', hfinishes, hprompts, h'⟩ := held_skipRemaining (σ := σ) stable_calm hnodup hwaiting
    hcalm
  exact ⟨V', hfinishes, hprompts,
    h'.setState fun hc => ⟨rfl, rfl, hc.2, iff_of_true hc.1.1 rfl⟩⟩

/-! ## The loop -/

/-- What the loop leaves, by how it ends. -/
def LoopPost (order : List WorkflowStep) (V : View) (w : World) : Option Raised → Prop
  | none => ∃ V', Finishes order V V' ∧ Resolved V' ∧ Held Rested V' w ∧
      (w.record.state = .running → ∀ s ∈ order, Passed s (V'.steps s.id).state)
  | some (.engineError _) => ∃ V', Within order V V' ∧ (∀ s ∈ order, Own s V → Own s V') ∧
      Held Open V' w ∧ ∃ s ∈ order, Faulty s V'
  | some .escaped => ∃ V', Within order V V' ∧ (∀ s ∈ order, Own s V → Own s V') ∧
      Held Open V' w

/-- What the tail leaves, behind a head that is over. -/
theorem LoopPost.cons {rest : List WorkflowStep} {r : Option Raised} (ht : Touches s V V')
    (hended : Ended s V') (hown : Own s V → Own s V')
    (hpassed : Passed s (V'.steps s.id).state) (h : LoopPost rest V' w r)
    (hnot : s.id ∉ rest.map WorkflowStep.id) : LoopPost (s :: rest) V w r := by
  cases r with
  | none =>
    obtain ⟨V'', hfinishes, hresolved, h', hrest⟩ := h
    refine ⟨V'', .cons ht hended hown hfinishes hnot, hresolved, h', ?_⟩
    intro hstate t hmem
    obtain rfl | hmem := List.mem_cons.mp hmem
    · rw [hfinishes.within.steps t.id hnot]
      exact hpassed
    · exact hrest hstate t hmem
  | some r =>
    cases r with
    | engineError text =>
      obtain ⟨V'', hw, hrest, h', t, hmem, hfaulty⟩ := h
      exact ⟨V'', ht.within hw, own_cons ht hown hw hrest hnot, h', t, List.mem_cons_of_mem _ hmem,
        hfaulty⟩
    | escaped =>
      obtain ⟨V'', hw, hrest, h'⟩ := h
      exact ⟨V'', ht.within hw, own_cons ht hown hw hrest hnot, h'⟩

/-- A cancel of the record found at a boundary. -/
theorem Begun.caught {c : Control} (h : Begun c) (hcancelled : c.cancelled = true) : Caught c := by
  refine ⟨hcancelled, ?_⟩
  obtain (⟨-, hnot, -⟩ | hcancelling) | hfinal := h
  · rw [hnot] at hcancelled
    cases hcancelled
  · exact .inl hcancelling.1
  · exact .inr (by rw [hfinal.1]; rfl)

theorem Begun.open {c : Control} (h : Begun c) (hcancelled : ¬ c.cancelled = true) : Open c := by
  obtain hopen | hfinal := h
  · exact hopen
  · exact absurd (hfinal.2.2.2.mpr rfl) hcancelled

theorem Halting.caught {c : Control} (h : Halting c) (hcancelled : c.cancelled = true) :
    Caught c := by
  obtain hopen | ⟨hstate, -⟩ := h
  · exact Begun.caught (.inl hopen) hcancelled
  · exact ⟨hcancelled, .inr (by rw [hstate]; rfl)⟩

theorem Halting.failed {c : Control} (h : Halting c) (hcancelled : ¬ c.cancelled = true)
    (hstate : c.state = .failed) : Final .failed c := by
  rw [Bool.not_eq_true] at hcancelled
  refine ⟨hstate, rfl, ?_, ?_⟩
  · obtain (⟨hnot, -⟩ | ⟨hnot, -⟩) | ⟨-, habsent, -⟩ := h
    · rw [hnot] at hstate
      cases hstate
    · rw [hnot] at hstate
      cases hstate
    · exact habsent hcancelled
  · rw [hcancelled]
    exact iff_of_false (by simp) (by simp)

theorem Halting.open {c : Control} (h : Halting c) (hstate : ¬ c.state = .failed) : Open c :=
  h.resolve_right fun hfailed => hstate hfailed.1

/-- The steps behind the head are skipped once the head is over. -/
theorem loopPost_rest {rest : List WorkflowStep} {state : RunState}
    (ht : Touches s V V') (hended : Ended s V') (hown : Own s V → Own s V')
    (hresolved : Resolved V') (hfinal : state = .failed ∨ state = .cancelled)
    (hnot : s.id ∉ rest.map WorkflowStep.id)
    (h : ∃ V'', Finishes rest V' V'' ∧ V''.prompts = V'.prompts ∧ Held (Final state) V'' w) :
    LoopPost (s :: rest) V w none := by
  obtain ⟨V'', hfinishes, hprompts, h'⟩ := h
  refine ⟨V'', .cons ht hended hown hfinishes hnot, ?_, h'.weaken ?_, ?_⟩
  · rw [Resolved, hprompts]
    exact hresolved
  · intro c hc
    obtain rfl | rfl := hfinal
    · exact .inr (.inl hc)
    · exact .inr (.inr hc)
  · intro hrunning
    have hstate : w.record.state = state := h'.phase.1
    rw [hstate] at hrunning
    obtain rfl | rfl := hfinal
    · cases hrunning
    · cases hrunning

/-- The loop, by induction on the order of the steps. -/
theorem loopPost {order : List WorkflowStep} (hnodup : (order.map WorkflowStep.id).Nodup)
    (hwaiting : ∀ s ∈ order, Waiting s V) (hresolved : Resolved V) (h : Held Begun V w) :
    LoopPost order V (driveLoop σ order w).1 (driveLoop σ order w).2 := by
  induction order generalizing V w with
  | nil =>
    refine ⟨V, ⟨.refl [] V, fun s hs => (by cases hs), fun s hs => (by cases hs)⟩, hresolved,
      h.weaken fun _ hc => hc.imp_right .inr, ?_⟩
    intro _ s hs
    cases hs
  | cons s rest ih =>
    simp only [driveLoop]
    by_cases hcancelled : w.record.cancelled = true
    · rw [if_pos hcancelled]
      have hcaught : Held Caught V w := { h with phase := h.phase.caught hcancelled }
      obtain ⟨V', hfinishes, hprompts, h'⟩ := held_settleCancel (σ := σ) hnodup hwaiting hcaught
      refine ⟨V', hfinishes, ?_, h'.weaken fun _ hc => .inr (.inr hc), ?_⟩
      · rw [Resolved, hprompts]
        exact hresolved
      · intro hrunning
        have hstate : (settleCancel σ (s :: rest) w).record.state = .cancelled := h'.phase.1
        rw [hstate] at hrunning
        cases hrunning
    · rw [if_neg hcancelled]
      have hopen : Held Open V w := { h with phase := h.phase.open hcancelled }
      have hrest : ∀ t ∈ rest, Waiting t V := fun t ht => hwaiting t (List.mem_cons_of_mem _ ht)
      rw [List.map_cons, List.nodup_cons] at hnodup
      rw [h.stepState]
      obtain ⟨hpending, hown⟩ | ⟨hkept, hjournal⟩ := hwaiting s List.mem_cons_self
      · have hnot : ¬ StepState.kept (V.steps s.id).state = true := by
          rw [hpending]
          decide
        rw [if_neg hnot]
        have hstep := stepPost_runStep (σ := σ) hown hresolved hopen
        cases hrun : runStep σ s w with
        | mk w₁ r =>
          rw [hrun] at hstep
          cases r with
          | some r =>
            cases r with
            | engineError text =>
              obtain ⟨V₁, ht₁, h₁, hfaulty⟩ := hstep
              exact ⟨V₁, ht₁.within (.refl rest V₁), own_cons ht₁ (fun _ => hfaulty.own)
                (.refl rest V₁) (fun _ _ => id) hnodup.1, h₁, s, List.mem_cons_self, hfaulty⟩
            | escaped =>
              obtain ⟨V₁, ht₁, h₁, hown₁⟩ := hstep
              exact ⟨V₁, ht₁.within (.refl rest V₁), own_cons ht₁ (fun _ => hown₁)
                (.refl rest V₁) (fun _ _ => id) hnodup.1, h₁⟩
          | none =>
            obtain ⟨V₁, ht₁, h₁, hover⟩ := hstep
            have hended : Ended s V₁ := ⟨hover.settles, hover.journaled⟩
            have hwaiting₁ := waiting_of_touches hnodup.1 hrest ht₁
            simp only
            by_cases hcancelled₁ : w₁.record.cancelled = true
            · rw [if_pos hcancelled₁]
              have hcaught : Held Caught V₁ w₁ := { h₁ with phase := h₁.phase.caught hcancelled₁ }
              exact loopPost_rest ht₁ hended (fun _ => hover.own) hover.resolved (.inr rfl) hnodup.1
                (held_settleCancel hnodup.2 hwaiting₁ hcaught)
            · rw [if_neg hcancelled₁]
              by_cases hfailed : w₁.record.state = .failed
              · rw [if_pos hfailed]
                have hfinal : Held (Final .failed) V₁ w₁ :=
                  { h₁ with phase := h₁.phase.failed hcancelled₁ hfailed }
                exact loopPost_rest ht₁ hended (fun _ => hover.own) hover.resolved (.inl rfl)
                  hnodup.1 (held_skipRemaining (stable_final .failed) hnodup.2 hwaiting₁ hfinal)
              · rw [if_neg hfailed]
                have hopen₁ : Held Open V₁ w₁ := { h₁ with phase := h₁.phase.open hfailed }
                have hpassed : Passed s (V₁.steps s.id).state := by
                  obtain hcancelled' | hkept | ⟨hstate, hpolicy⟩ := hover.outcome
                  · exact absurd hcancelled' hcancelled₁
                  · exact .inl hkept
                  · exact .inr ⟨hstate, hpolicy.resolve_right hfailed⟩
                exact .cons ht₁ hended (fun _ => hover.own) hpassed
                  (ih hnodup.2 hwaiting₁ hover.resolved (hopen₁.weaken fun _ => .inl)) hnodup.1
      · rw [if_pos hkept]
        exact .cons (.refl s V) ⟨settles_of_kept hkept, hjournal⟩ id (.inl hkept)
          (ih hnodup.2 hrest hresolved h) hnodup.1

/-! ## The end of a drive -/

/-- The row is in the state of the record, or the recovery task of a cancel has put it back. -/
def Durable (w : World) : Prop := ∀ row, w.row = some row →
  row.state = w.record.state ∨ row.state = .cancelled ∧ w.control.Owed

theorem Durable.exec {x : RunState} (hd : Durable w) (h : Held (Final x) V w) (m : Move) :
    Durable (m.exec σ.validate w) := by
  cases m with
  | cancelRun =>
    have hterminal : w.control.state.terminal = true := by
      rw [h.phase.1]
      exact h.phase.2.1
    have hsame : w.cancelRun = w := by
      rw [cancelRun_live h.live h.cached, Control.cancel_of_terminal hterminal]
      rfl
    show Durable w.cancelRun
    rw [hsame]
    exact hd
  | landCancelling =>
    have hsame : w.landCancelling = w := by
      rw [World.landCancelling, show w.cancelling = .absent from h.phase.2.2.1]
    show Durable w.landCancelling
    rw [hsame]
    exact hd
  | landRecovery =>
    show Durable w.landRecovery
    unfold World.landRecovery
    split
    · next write rest hrecovery =>
      have howed : w.control.Owed := h.owed (by simp [hrecovery])
      intro row hrow
      cases write with
      | runState =>
        obtain ⟨row', hrow', rfl⟩ := Option.map_eq_some_iff.mp hrow
        exact .inr ⟨rfl, howed⟩
      | _ =>
        obtain ⟨row', hrow', rfl⟩ := Option.map_eq_some_iff.mp hrow
        exact hd row' hrow'
    · exact hd
  | recordOutput runId stepId output outputSchema => exact hd

theorem Durable.pause {x : RunState} (hd : Durable w) (h : Held (Final x) V w) :
    Durable (pause σ w) := by
  have hboth : Held (Final x) V (Yaml.pause σ w) ∧ Durable (Yaml.pause σ w) :=
    pause_invariant (I := fun w => Held (Final x) V w ∧ Durable w)
      (fun w m hw => ⟨hw.1.exec (stable_final x) m, hw.2.exec hw.1 m⟩) ⟨h.clock _, hd⟩
  exact hboth.2

/-- The writes behind the settlement of the record, the state last. -/
theorem durable_ending {x : RunState} (h : Held (Final x) V w) :
    Held (Final x) V (ajournal σ (·.journalRunState) w) ∧
      Durable (ajournal σ (·.journalRunState) w) := by
  have h₁ := h.pause (σ := σ) (stable_final x)
  have h₂ : Held (Final x) V (pause σ w).journalRunState := h₁.updateRow fun _ _ => .inl rfl
  have hd : Durable (pause σ w).journalRunState := by
    intro row hrow
    obtain ⟨row', hrow', rfl⟩ := Option.map_eq_some_iff.mp hrow
    exact .inl rfl
  exact ⟨h₂.pause (stable_final x), hd.pause h₂⟩

theorem Rested.caught {c : Control} (h : Rested c) (hcancelled : c.cancelled = true) :
    Caught c := by
  obtain hopen | hfailed | hfinal := h
  · exact Begun.caught (.inl hopen) hcancelled
  · exact absurd (hfailed.2.2.2.mp hcancelled) (by decide)
  · exact Begun.caught (.inr hfinal) hcancelled

/-- A run that nobody has cancelled by the end of the loop has failed or completes. -/
theorem Rested.uncancelled {c : Control} (h : Rested c) (hcancelled : ¬ c.cancelled = true) :
    Final .failed c ∨ c.state = .running ∧ Final .completed { c with state := .completed } := by
  obtain (⟨hstate, hnot, habsent⟩ | hcancelling) | hfailed | hfinal := h
  · refine .inr ⟨hstate, rfl, rfl, habsent, ?_⟩
    exact iff_of_false hcancelled (by decide)
  · exact absurd hcancelling.2.1 hcancelled
  · exact .inl hfailed
  · exact absurd (hfinal.2.2.2.mpr rfl) hcancelled

theorem held_finalize (h : Held Rested V w) :
    ∃ x, Held (Final x) { V with current := none } (finalize σ w) ∧ Durable (finalize σ w) ∧
      (x = .completed → w.record.state = .running) := by
  have hwrites : ∀ {x : RunState} {w : World}, Held (Final x) V w →
      Held (Final x) { V with current := none }
        (journalEvent σ (ajournal σ (·.journalCurrentStep) (w.setCurrentStep none))) :=
    fun h => ((h.setCurrentStep none).ajournalCurrentStep (stable_final _)).journalEvent
      (stable_final _)
  simp only [finalize]
  by_cases hcancelled : w.record.cancelled = true
  · rw [if_pos hcancelled]
    have hcaught : Held Caught V w := { h with phase := h.phase.caught hcancelled }
    have hcalm : Held Calm V (awaitCancellingJournal σ w) :=
      hcaught.awaitCancellingJournal stable_caught fun _ hc => ⟨hc, rfl⟩
    have hfinal : Held (Final .cancelled) V ((awaitCancellingJournal σ w).setState .cancelled) :=
      hcalm.setState fun hc => ⟨rfl, rfl, hc.2, iff_of_true hc.1.1 rfl⟩
    have hstate : ((awaitCancellingJournal σ w).setState .cancelled).record.state = .cancelled :=
      rfl
    rw [if_pos (.inr hstate)]
    obtain ⟨h', hd⟩ := durable_ending (σ := σ) (hwrites hfinal)
    exact ⟨.cancelled, h', hd, fun heq => by cases heq⟩
  · rw [if_neg hcancelled]
    obtain hfailed | ⟨hrunning, hcompleted⟩ := h.phase.uncancelled hcancelled
    · rw [if_pos (.inl hfailed.1)]
      have hfinal : Held (Final .failed) V w := { h with phase := hfailed }
      obtain ⟨h', hd⟩ := durable_ending (σ := σ) (hwrites hfinal)
      exact ⟨.failed, h', hd, fun heq => by cases heq⟩
    · have hstate : w.record.state = .running := hrunning
      rw [if_neg (by rw [hstate]; decide)]
      have hfinal : Held (Final .completed) V (w.setState .completed) :=
        h.setState fun _ => hcompleted
      obtain ⟨h', hd⟩ := durable_ending (σ := σ) (hwrites hfinal)
      exact ⟨.completed, h', hd, fun _ => hstate⟩

/-- A step the handler of an engine error found under way. -/
def View.fault (V : View) (stepId : String) : View :=
  { V.setStep stepId fun st => { st with state := .failed } with current := none }

/-- The handler settles the record and leaves the step as it was journaled. -/
theorem held_settleEngineError (h : Held Open V w) (hfaulty : Faulty s V) :
    Held Failed (V.fault s.id) (settleEngineError σ w) := by
  have hcurrent : w.record.currentStepId = some s.id := h.current.trans hfaulty.current
  have hnot : ¬ StepState.kept (w.stepState s.id).state = true := by
    rw [h.stepState, hfaulty.running]
    decide
  have hfailed : Held Failed (V.fault s.id)
      (((w.setStep s.id fun st => { st with state := .failed }).setState .failed).setCurrentStep
        none) := by
    refine ((h.setStep s.id fun st => { st with state := .failed }).setState ?_).setCurrentStep none
    rintro (⟨-, hcancelled, -⟩ | ⟨-, -, haccepted⟩)
    · refine ⟨rfl, fun hc => ?_⟩
      rw [hcancelled] at hc
      cases hc
    · exact ⟨rfl, fun _ => haccepted⟩
  simp only [settleEngineError, hcurrent]
  rw [if_neg hnot]
  exact ((hfailed.ajournalCurrentStep stable_failed).journalEvent stable_failed).ajournal
    stable_failed fun _ h => h.updateRow fun _ _ => .inl rfl

/-! ## The drive -/

/-- What a drive leaves, by how it ends. -/
def DrivePost (V : View) (w : World) : EntryEnd → Prop
  | .returned => ∃ V' x, Finishes V.spec.steps V V' ∧ Resolved V' ∧
      Held (Final x) { V' with current := none } w ∧ Durable w ∧
      (x = .completed → ∀ s ∈ V.spec.steps, Passed s (V'.steps s.id).state)
  | .raised (.engineError _) => ∃ V', Within V.spec.steps V V' ∧
      (∀ s ∈ V.spec.steps, Own s V → Own s V') ∧ Held Failed V' w ∧
      (∃ s ∈ V.spec.steps, V'.journal s.id = .running) ∧
      ∃ p ∈ V'.prompts, (substitute p.1 p.2).isOk = false
  | .raised .escaped => ∃ V', Within V.spec.steps V V' ∧
      (∀ s ∈ V.spec.steps, Own s V → Own s V') ∧ Held Open V' w
  | .refused _ => True

theorem Within.touches {order : List WorkflowStep} {V'' : View} (h : Within order V V')
    (ht : Touches s V' V'') (hs : s ∈ order) : Within order V V'' where
  runId := ht.runId.trans h.runId
  spec := ht.spec.trans h.spec
  inserted := ht.inserted.trans h.inserted
  steps := by
    intro t hnot
    rw [ht.steps t fun heq => hnot (heq ▸ List.mem_map_of_mem hs), h.steps t hnot]
  journal := by
    intro t hnot
    rw [ht.journal t fun heq => hnot (heq ▸ List.mem_map_of_mem hs), h.journal t hnot]
  collected := fun c hc => ht.collected c (h.collected c hc)

theorem touches_fault (V : View) : Touches s V (V.fault s.id) :=
  (touches_setStep V _).trans (touches_current _ none)

theorem Own.fault {t : WorkflowStep} (h : Own t V) : Own t (V.fault s.id) := by
  by_cases ht : t.id = s.id
  · rw [View.fault, ← ht]
    have hset : Own t (V.setStep t.id fun st => { st with state := .failed }) := h.setStep rfl rfl
    exact hset.mono rfl fun _ hc => hc
  · exact h.mono ((touches_fault V).steps t.id ht) fun _ hc => hc

theorem drivePost (hwaiting : ∀ s ∈ V.spec.steps, Waiting s V) (hresolved : Resolved V)
    (h : Held Begun V w) :
    DrivePost V (drive σ V.spec.steps w).1 (drive σ V.spec.steps w).2 := by
  have hloop := loopPost (σ := σ) V.spec.nodup hwaiting hresolved h
  unfold drive
  cases hrun : driveLoop σ V.spec.steps w with
  | mk w₁ r =>
    rw [hrun] at hloop
    cases r with
    | none =>
      obtain ⟨V', hfinishes, hresolved', h', hpassed⟩ := hloop
      obtain ⟨x, hfinal, hdurable, hcompleted⟩ := held_finalize (σ := σ) h'
      exact ⟨V', x, hfinishes, hresolved', hfinal, hdurable, fun hx => hpassed (hcompleted hx)⟩
    | some r =>
      cases r with
      | engineError text =>
        obtain ⟨V', hw, hown, h', s, hs, hfaulty⟩ := hloop
        exact ⟨V'.fault s.id, hw.touches (touches_fault V') hs, fun t ht htV => (hown t ht htV).fault,
          held_settleEngineError h' hfaulty, ⟨s, hs, hfaulty.journaled⟩, hfaulty.unresolved⟩
      | escaped => exact hloop

/-- The `finally` waits for the CANCELLING write, which no end of a drive minds. -/
theorem DrivePost.awaitCancellingJournal {e : EntryEnd} (h : DrivePost V w e) :
    DrivePost V (awaitCancellingJournal σ w) e := by
  cases e with
  | returned =>
    obtain ⟨V', x, hfinishes, hresolved, hfinal, hdurable, hpassed⟩ := h
    have hsame : Yaml.awaitCancellingJournal σ w = w := by
      rw [Yaml.awaitCancellingJournal, show w.cancelling = .absent from hfinal.phase.2.2.1]
    rw [hsame]
    exact ⟨V', x, hfinishes, hresolved, hfinal, hdurable, hpassed⟩
  | raised r =>
    cases r with
    | engineError text =>
      obtain ⟨V', hw, hown, hfailed, hrest⟩ := h
      exact ⟨V', hw, hown, hfailed.awaitCancellingJournal stable_failed fun _ hc => hc, hrest⟩
    | escaped =>
      obtain ⟨V', hw, hown, hopen⟩ := h
      refine ⟨V', hw, hown, hopen.awaitCancellingJournal stable_open ?_⟩
      rintro c (⟨hstate, hcancelled, -⟩ | hcancelling)
      · exact .inl ⟨hstate, hcancelled, rfl⟩
      · exact .inr hcancelling
  | refused text => trivial

end CliAgentOrchestrator.Workflow.Yaml
