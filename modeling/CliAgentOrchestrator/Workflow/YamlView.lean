import CliAgentOrchestrator.Workflow.YamlRun

/-!
# What a drive may count on

A `View` is what the drive itself has done so far: the steps as its record has them, the states
it journaled, the templates it filled, what it read of the store. `Held P V w` says that a world
is that of the view but for what moves beside the drive, which leaves the run's control within
`P`. Each operation of the drive has one lemma that says what view it leaves.
-/

set_option autoImplicit false

namespace CliAgentOrchestrator.Workflow.Yaml

/-! ## The control of a run -/

/-- What a cancel moves of a live run. -/
structure Control where
  state : RunState
  cancelled : Bool
  cancelling : CancellingTask
  accepted : Bool

def World.control (w : World) : Control where
  state := w.record.state
  cancelled := w.record.cancelled
  cancelling := w.cancelling
  accepted := w.accepted

/-- `cancel_run` of a live run. -/
def Control.cancel (c : Control) : Control :=
  if c.state = .cancelling then { c with accepted := true }
  else if c.state.terminal then c
  else
    { state := .cancelling, cancelled := true, accepted := true
      cancelling := if c.cancelling = .absent then .pending else c.cancelling }

/-- The write of the CANCELLING task lands. -/
def Control.land (c : Control) : Control :=
  { c with cancelling := if c.cancelling = .pending then .landed else c.cancelling }

/-- Some cancel of the run was accepted. -/
def Control.Owed (c : Control) : Prop := c.accepted = true ∨ c.cancelled = true

theorem Control.Owed.cancel {c : Control} (h : c.Owed) : c.cancel.Owed := by
  unfold Control.cancel
  split
  · exact .inl rfl
  · split
    · exact h
    · exact .inl rfl

/-- What no move beside the drive leaves. -/
structure Stable (P : Control → Prop) : Prop where
  cancel : ∀ c, P c → P c.cancel
  land : ∀ c, P c → P c.land

theorem cancelRun_live {w : World} (hlive : w.live = true) (hcached : w.cached = true) :
    w.cancelRun =
      { w with
        record := { w.record with
          state := w.control.cancel.state, cancelled := w.control.cancel.cancelled }
        cancelling := w.control.cancel.cancelling, accepted := w.control.cancel.accepted } := by
  have hlookup : w.lookup = some w := by rw [World.lookup, if_pos hcached]
  rw [World.cancelRun, hlookup]
  simp only
  by_cases hstate : w.record.state = .cancelling
  · rw [if_pos ⟨hstate, hlive⟩, Control.cancel,
      if_pos (show w.control.state = .cancelling from hstate)]
    rfl
  · rw [if_neg (fun h => hstate h.1), Control.cancel,
      if_neg (show ¬ w.control.state = .cancelling from hstate)]
    by_cases hterminal : w.record.state.terminal = true
    · rw [if_pos hterminal, if_pos (show w.control.state.terminal = true from hterminal)]
      rfl
    · rw [if_neg hterminal, if_pos hlive,
        if_neg (show ¬ w.control.state.terminal = true from hterminal)]
      rfl

/-! ## Views -/

structure View where
  runId : String
  spec : WorkflowSpec
  inserted : Bool := true
  steps : String → StepRunState
  current : Option String := none
  journal : String → StepState
  prompts : List (String × RunRecord) := []
  collected : List Collection := []

/-- The verdict of a read completes its step exactly with the validated record it found. -/
def Judged (runId : String) (c : Collection) : Prop :=
  ∀ o, c.verdict = .completed o ↔ c.store.entries.get runId c.stepId = some o ∧ o.validated = true

/-- The world is the view's but for the moves beside the drive: those may have cancelled the run
within `P`, and a recovery task of an accepted cancel may have put its step back. -/
structure Held (P : Control → Prop) (V : View) (w : World) : Prop where
  live : w.live = true
  cached : w.cached = true
  runId : w.runId = V.runId
  spec : w.record.spec = V.spec
  inserted : w.row.isSome = V.inserted
  phase : P w.control
  owed : w.recovery.getD [] ≠ [] → w.control.Owed
  steps : w.record.stepStates = V.steps
  current : w.record.currentStepId = V.current
  journal : ∀ row, w.row = some row → ∀ stepId, (row.steps stepId).state = V.journal stepId ∨
    ((row.steps stepId).state = .cancelled ∧ w.control.Owed)
  prompts : w.prompts = V.prompts
  collected : w.collected = V.collected
  judged : ∀ c ∈ V.collected, Judged V.runId c

variable {σ : Schedule} {P Q : Control → Prop} {V : View} {w : World}

/-! ## Moves -/

/-- A write of the row that leaves its steps alone, or puts one back for a cancel. -/
theorem Held.updateRow (h : Held P V w) {f : RunRow → RunRow}
    (hf : ∀ row stepId, ((f row).steps stepId).state = (row.steps stepId).state ∨
      ((f row).steps stepId).state = .cancelled ∧ w.control.Owed) : Held P V (w.updateRow f) where
  live := h.live
  cached := h.cached
  runId := h.runId
  spec := h.spec
  inserted := Option.isSome_map.trans h.inserted
  phase := h.phase
  owed := h.owed
  steps := h.steps
  current := h.current
  journal := by
    intro row hrow stepId
    obtain ⟨row', hrow', rfl⟩ := Option.map_eq_some_iff.mp hrow
    obtain hsame | hcancelled := hf row' stepId
    · rw [hsame]
      exact h.journal row' hrow' stepId
    · exact .inr hcancelled
  prompts := h.prompts
  collected := h.collected
  judged := h.judged

theorem Held.clock (h : Held P V w) (clock : Nat) : Held P V { w with clock } :=
  { h with }

theorem Held.cancelRun (hP : Stable P) (h : Held P V w) : Held P V w.cancelRun := by
  rw [cancelRun_live h.live h.cached]
  exact
    { live := h.live, cached := h.cached, runId := h.runId, spec := h.spec, inserted := h.inserted
      phase := hP.cancel _ h.phase
      owed := fun hpending => (h.owed hpending).cancel
      steps := h.steps, current := h.current
      journal := fun row hrow stepId => (h.journal row hrow stepId).imp_right
        (fun hcancelled => ⟨hcancelled.1, hcancelled.2.cancel⟩)
      prompts := h.prompts, collected := h.collected, judged := h.judged }

theorem Held.landCancelling (hP : Stable P) (h : Held P V w) : Held P V w.landCancelling := by
  unfold World.landCancelling
  split
  · next hpending =>
    have hrow := h.updateRow (f := fun row => { row with state := .cancelling })
      fun _ _ => .inl rfl
    have hphase := hP.land _ h.phase
    rw [Control.land, if_pos (show w.control.cancelling = .pending from hpending)] at hphase
    exact { hrow with phase := hphase }
  · exact h

theorem Held.landRecovery (h : Held P V w) : Held P V w.landRecovery := by
  unfold World.landRecovery
  split
  · next write rest hrecovery =>
    have howed : w.control.Owed := h.owed (by simp [hrecovery])
    have hwrite : Held P V (w.recoveryWrite write) := by
      cases write with
      | step stepId st hst =>
        refine h.updateRow fun row t => ?_
        by_cases ht : t = stepId
        · right
          refine ⟨?_, howed⟩
          simp only [ht, Function.update_self]
          exact hst
        · left
          simp only [Function.update_of_ne ht]
      | _ => exact h.updateRow fun _ _ => .inl rfl
    have hcontrol : (w.recoveryWrite write).control.Owed := by
      cases write with
      | _ => exact howed
    exact { hwrite with owed := fun _ => hcontrol }
  · exact h

theorem Held.exec (hP : Stable P) (h : Held P V w) (m : Move) : Held P V (m.exec σ.validate w) := by
  cases m with
  | cancelRun => exact h.cancelRun hP
  | landCancelling => exact h.landCancelling hP
  | landRecovery => exact h.landRecovery
  | recordOutput runId stepId output outputSchema => exact { h with }

/-- What every move keeps, an await keeps. -/
theorem pause_invariant {I : World → Prop}
    (hexec : ∀ w m, I w → I (Move.exec σ.validate w m)) (h : I { w with clock := w.clock + 1 }) :
    I (pause σ w) := by
  have hmoves : ∀ (moves : List Move) (w : World), I w →
      I (moves.foldl (Move.exec σ.validate) w) := by
    intro moves
    induction moves with
    | nil => exact fun _ h => h
    | cons m rest ih => exact fun w h => ih _ (hexec w m h)
  exact hmoves _ _ h

/-- An await leaves the view. -/
theorem Held.pause (hP : Stable P) (h : Held P V w) : Held P V (pause σ w) :=
  pause_invariant (fun _ m h => h.exec hP m) (h.clock _)

theorem Held.weaken (h : Held P V w) (hPQ : ∀ c, P c → Q c) : Held Q V w :=
  { h with phase := hPQ _ h.phase }

/-! ## The operations of the drive -/

def View.setStep (V : View) (stepId : String) (f : StepRunState → StepRunState) : View :=
  { V with steps := Function.update V.steps stepId (f (V.steps stepId)) }

def View.journalStep (V : View) (stepId : String) : View :=
  { V with journal := Function.update V.journal stepId (V.steps stepId).state }

theorem Held.stepState (h : Held P V w) (stepId : String) : w.stepState stepId = V.steps stepId := by
  rw [World.stepState, h.steps]

theorem Held.setStep (h : Held P V w) (stepId : String) (f : StepRunState → StepRunState) :
    Held P (V.setStep stepId f) (w.setStep stepId f) :=
  { h with
    steps := by
      rw [View.setStep, ← h.stepState, ← h.steps]
      rfl }

theorem Held.setCurrentStep (h : Held P V w) (stepId : Option String) :
    Held P { V with current := stepId } (w.setCurrentStep stepId) :=
  { h with current := rfl }

theorem Held.setState (h : Held P V w) {state : RunState}
    (hQ : P w.control → Q { w.control with state }) : Held Q V (w.setState state) :=
  { h with phase := hQ h.phase }

theorem Held.journalStep (h : Held P V w) (stepId : String) (errorKind : Option String) :
    Held P (V.journalStep stepId) (w.journalStep stepId errorKind) :=
  { h with
    inserted := Option.isSome_map.trans h.inserted
    journal := by
      intro row hrow t
      obtain ⟨row', hrow', rfl⟩ := Option.map_eq_some_iff.mp hrow
      by_cases ht : t = stepId
      · left
        simp only [ht, View.journalStep, Function.update_self]
        rw [World.columns, h.stepState]
      · simp only [View.journalStep, Function.update_of_ne ht]
        exact h.journal row' hrow' t }

/-- A helper in its thread. -/
theorem Held.ajournal (hP : Stable P) (h : Held P V w) {V' : View} {f : World → World}
    (hf : ∀ w, Held P V w → Held P V' (f w)) : Held P V' (ajournal σ f w) :=
  (hf _ (h.pause hP)).pause hP

theorem Held.journalEvent (hP : Stable P) (h : Held P V w) : Held P V (journalEvent σ w) :=
  (h.ajournal hP fun _ h => h).ajournal hP fun _ h => h

theorem Held.ajournalStep (hP : Stable P) (h : Held P V w) (stepId : String)
    (errorKind : Option String) :
    Held P (V.journalStep stepId) (Yaml.ajournal σ (·.journalStep stepId errorKind) w) :=
  h.ajournal hP fun _ h => h.journalStep stepId errorKind

theorem Held.ajournalCurrentStep (hP : Stable P) (h : Held P V w) :
    Held P V (Yaml.ajournal σ (·.journalCurrentStep) w) :=
  h.ajournal hP fun _ h => h.updateRow fun _ _ => .inl rfl

theorem Held.ajournalRunStateSnapshot (hP : Stable P) (h : Held P V w) (state : RunState) :
    Held P V (Yaml.ajournal σ (·.journalRunStateSnapshot state) w) :=
  h.ajournal hP fun _ h => h.updateRow fun _ _ => .inl rfl

/-- The CANCELLING write is over before what follows. -/
theorem Held.awaitCancellingJournal (hP : Stable P) (h : Held P V w)
    (hQ : ∀ c, P c → Q { c with cancelling := .absent }) :
    Held Q V (awaitCancellingJournal σ w) := by
  unfold Yaml.awaitCancellingJournal
  split
  · next habsent =>
    refine { h with phase := ?_ }
    have hphase := hQ _ h.phase
    have hsame : { w.control with cancelling := .absent } = w.control := by
      rw [← show w.control.cancelling = .absent from habsent]
    rwa [hsame] at hphase
  · have hwaited : Held P V (Yaml.pause σ (Yaml.pause σ w).landCancelling) :=
      ((h.pause hP).landCancelling hP).pause hP
    exact { hwaited with phase := hQ _ hwaited.phase }

end CliAgentOrchestrator.Workflow.Yaml
