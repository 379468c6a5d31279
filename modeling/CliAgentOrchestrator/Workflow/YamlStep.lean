import CliAgentOrchestrator.Workflow.YamlView

/-!
# A step of a drive

What one step does to the view of its drive, whatever moves beside it: its attempts end it, in
the record and in the journal, leave the other steps alone, and what it completed with is what a
read of the store gave it.
-/

set_option autoImplicit false

namespace CliAgentOrchestrator.Workflow.Yaml

variable {σ : Schedule} {P : Control → Prop} {V V' : View} {w : World} {s : WorkflowStep}

/-! ## An open run -/

/-- A cancel was accepted and nothing has settled it yet. -/
def Cancelling (c : Control) : Prop :=
  c.state = .cancelling ∧ c.cancelled = true ∧ c.accepted = true

/-- Nobody has cancelled the run, or it is cancelling. -/
def Open (c : Control) : Prop :=
  (c.state = .running ∧ c.cancelled = false ∧ c.cancelling = .absent) ∨ Cancelling c

theorem Cancelling.cancel {c : Control} (h : Cancelling c) : Cancelling c.cancel := by
  rw [Control.cancel, if_pos h.1]
  exact ⟨h.1, h.2.1, rfl⟩

theorem stable_cancelling : Stable Cancelling where
  cancel := fun _ => Cancelling.cancel
  land := fun _ h => h

theorem stable_open : Stable Open where
  cancel := by
    rintro c (⟨hstate, hcancelled, habsent⟩ | h)
    · right
      rw [Control.cancel, if_neg (by rw [hstate]; decide), if_neg (by rw [hstate]; decide)]
      exact ⟨rfl, rfl, rfl⟩
    · exact .inr h.cancel
  land := by
    rintro c (⟨hstate, hcancelled, habsent⟩ | h)
    · refine .inl ⟨hstate, hcancelled, ?_⟩
      rw [Control.land, if_neg (by rw [habsent]; decide)]
      exact habsent
    · exact .inr h

/-- An open run that has been cancelled is cancelling. -/
theorem Held.cancelling (h : Held Open V w) (hcancelled : w.record.cancelled = true) :
    Held Cancelling V w := by
  refine { h with phase := ?_ }
  obtain ⟨-, hnot, -⟩ | hphase := h.phase
  · rw [show w.control.cancelled = true from hcancelled] at hnot
    cases hnot
  · exact hphase

/-! ## What a view says of a step -/

/-- Neither PENDING nor RUNNING. -/
def Settles (state : StepState) : Prop := state ≠ .pending ∧ state ≠ .running

theorem settles_of_kept {state : StepState} (h : StepState.kept state = true) : Settles state := by
  constructor
  · rintro rfl
    cases h
  · rintro rfl
    cases h

/-- Every template of the view resolves against the record it met. -/
def Resolved (V : View) : Prop := ∀ p ∈ V.prompts, (substitute p.1 p.2).isOk = true

/-- What the step settled with, and its reprompt, are the verdicts of reads of the store. -/
structure Own (s : WorkflowStep) (V : View) : Prop where
  completed : s.outputSchema.isSome = true → (V.steps s.id).state = .completed →
    ∃ c ∈ V.collected, c.stepId = s.id ∧
      ∃ o, c.verdict = .completed o ∧ (V.steps s.id).output = some o
  unvalidated : (V.steps s.id).state = .completedUnvalidated →
    ∃ c ∈ V.collected, c.stepId = s.id ∧ c.verdict = .unvalidated
  reprompted : (V.steps s.id).reprompted = true →
    ∃ c ∈ V.collected, c.stepId = s.id ∧ c.verdict = .reprompt

/-- Of the steps and their rows, `V'` has moved the one of `s` only. -/
structure Touches (s : WorkflowStep) (V V' : View) : Prop where
  runId : V'.runId = V.runId
  spec : V'.spec = V.spec
  inserted : V'.inserted = V.inserted
  steps : ∀ t, t ≠ s.id → V'.steps t = V.steps t
  journal : ∀ t, t ≠ s.id → V'.journal t = V.journal t
  collected : ∀ c ∈ V.collected, c ∈ V'.collected

theorem Touches.refl (s : WorkflowStep) (V : View) : Touches s V V :=
  ⟨rfl, rfl, rfl, fun _ _ => rfl, fun _ _ => rfl, fun _ h => h⟩

theorem Touches.trans {V'' : View} (h : Touches s V V') (h' : Touches s V' V'') :
    Touches s V V'' where
  runId := h'.runId.trans h.runId
  spec := h'.spec.trans h.spec
  inserted := h'.inserted.trans h.inserted
  steps := fun t ht => (h'.steps t ht).trans (h.steps t ht)
  journal := fun t ht => (h'.journal t ht).trans (h.journal t ht)
  collected := fun c hc => h'.collected c (h.collected c hc)

theorem touches_setStep (V : View) (f : StepRunState → StepRunState) :
    Touches s V (V.setStep s.id f) :=
  { Touches.refl s V with steps := fun _ ht => Function.update_of_ne ht _ _ }

theorem touches_journalStep (V : View) : Touches s V (V.journalStep s.id) :=
  { Touches.refl s V with journal := fun _ ht => Function.update_of_ne ht _ _ }

theorem View.setStep_steps (V : View) (stepId : String) (f : StepRunState → StepRunState) :
    (V.setStep stepId f).steps stepId = f (V.steps stepId) := Function.update_self ..

theorem View.journalStep_steps (V : View) (stepId : String) :
    (V.journalStep stepId).steps = V.steps := rfl

theorem View.journalStep_journal (V : View) (stepId : String) :
    (V.journalStep stepId).journal stepId = (V.steps stepId).state := Function.update_self ..

/-- A step that is not done claims nothing but its reprompt. -/
theorem Own.setStep (h : Own s V) {f : StepRunState → StepRunState}
    (hkept : StepState.kept (f (V.steps s.id)).state = false)
    (hreprompted : (f (V.steps s.id)).reprompted = (V.steps s.id).reprompted) :
    Own s (V.setStep s.id f) where
  completed := by
    intro _ hstate
    rw [View.setStep_steps] at hstate
    rw [hstate] at hkept
    cases hkept
  unvalidated := by
    intro hstate
    rw [View.setStep_steps] at hstate
    rw [hstate] at hkept
    cases hkept
  reprompted := by
    intro hreprompted'
    rw [View.setStep_steps, hreprompted] at hreprompted'
    exact h.reprompted hreprompted'

/-- What is the step's own stays so while its state does. -/
theorem Own.mono (h : Own s V) (hsteps : V'.steps s.id = V.steps s.id)
    (hcollected : ∀ c ∈ V.collected, c ∈ V'.collected) : Own s V' := by
  refine ⟨?_, ?_, ?_⟩
  · intro hschema hstate
    rw [hsteps] at hstate ⊢
    obtain ⟨c, hc, hrest⟩ := h.completed hschema hstate
    exact ⟨c, hcollected c hc, hrest⟩
  · intro hstate
    rw [hsteps] at hstate
    obtain ⟨c, hc, hrest⟩ := h.unvalidated hstate
    exact ⟨c, hcollected c hc, hrest⟩
  · intro hreprompted
    rw [hsteps] at hreprompted
    obtain ⟨c, hc, hrest⟩ := h.reprompted hreprompted
    exact ⟨c, hcollected c hc, hrest⟩

theorem Own.journalStep (h : Own s V) (stepId : String) : Own s (V.journalStep stepId) :=
  h.mono rfl fun _ hc => hc

/-! ## A step in its attempts -/

/-- The step is under way, in the record and in the journal. -/
structure Under (s : WorkflowStep) (V : View) : Prop where
  current : V.current = some s.id
  running : (V.steps s.id).state = .running
  journaled : V.journal s.id = .running
  own : Own s V
  resolved : Resolved V

/-- The state is one a collected step may take. -/
def Ready (s : WorkflowStep) (V : View) (x : StepState) : Prop :=
  StepState.kept x = true ∧ Own s (V.setStep s.id fun st => { st with state := x })

/-- What an attempt leaves: the step under way, and an end that the view bears out. -/
structure Tried (s : WorkflowStep) (V V' : View) (w : World) (r : Except StepFailure StepState) :
    Prop where
  touches : Touches s V V'
  under : Under s V'
  held : Held Open V' w
  cancelled : r = .error .cancelled → w.record.cancelled = true
  ready : ∀ x, r = .ok x → Ready s V' x

theorem Under.setStep (h : Under s V) {f : StepRunState → StepRunState}
    (hstate : (f (V.steps s.id)).state = (V.steps s.id).state)
    (hreprompted : (f (V.steps s.id)).reprompted = (V.steps s.id).reprompted) :
    Under s (V.setStep s.id f) where
  current := h.current
  running := by rw [View.setStep_steps, hstate, h.running]
  journaled := h.journaled
  own := by
    refine h.own.setStep ?_ hreprompted
    rw [hstate, h.running]
    rfl
  resolved := h.resolved

/-- Journaled again, the step is still under way. -/
theorem Under.journalStep (h : Under s V) : Under s (V.journalStep s.id) where
  current := h.current
  running := h.running
  journaled := by rw [View.journalStep_journal, h.running]
  own := h.own.journalStep s.id
  resolved := h.resolved

def View.collect (V : View) (c : Collection) : View := { V with collected := V.collected ++ [c] }

theorem touches_collect (V : View) (c : Collection) : Touches s V (V.collect c) :=
  { Touches.refl s V with collected := fun _ h => List.mem_append_left _ h }

theorem mem_collect (V : View) (c : Collection) : c ∈ (V.collect c).collected :=
  List.mem_append_right _ (List.mem_singleton_self c)

theorem Own.collect (h : Own s V) (c : Collection) : Own s (V.collect c) :=
  h.mono rfl fun _ hc => List.mem_append_left _ hc

theorem Under.collect (h : Under s V) (c : Collection) : Under s (V.collect c) :=
  ⟨h.current, h.running, h.journaled, h.own.collect c, h.resolved⟩

/-- A read decides by what the store has, or as it was told to. -/
theorem Held.readOutput (h : Held P V w) (stepId : String) (otherwise : Verdict)
    (hother : ∀ o, otherwise ≠ .completed o) :
    ∃ c, c.stepId = stepId ∧ c.verdict = (Yaml.readOutput stepId otherwise w).2 ∧
      Held P (V.collect c) (Yaml.readOutput stepId otherwise w).1 ∧
      ((∃ o, c.verdict = .completed o) ∨ c.verdict = otherwise) := by
  have hjudged : ∀ verdict, (∀ o, verdict = .completed o ↔
      w.store.entries.get w.runId stepId = some o ∧ o.validated = true) →
      Held P (V.collect { stepId, since := w.since, store := w.store, verdict })
        { w with
          collected := w.collected ++ [{ stepId, since := w.since, store := w.store, verdict }] } := by
    intro verdict hverdict
    refine { h with collected := by rw [View.collect, h.collected], judged := ?_ }
    intro c hc
    obtain hc | hc := List.mem_append.mp hc
    · exact h.judged c hc
    · rw [List.mem_singleton.mp hc, show (V.collect _).runId = w.runId from h.runId.symm]
      exact hverdict
  unfold Yaml.readOutput
  cases hget : w.store.entries.get w.runId stepId with
  | none =>
    refine ⟨_, rfl, rfl, hjudged _ ?_, .inr rfl⟩
    intro o
    exact iff_of_false (hother o) (by simp [hget])
  | some rec =>
    by_cases hvalid : rec.validated = true
    · simp only [hvalid, if_true]
      refine ⟨_, rfl, rfl, hjudged _ ?_, .inl ⟨rec, rfl⟩⟩
      intro o
      rw [hget, Option.some.injEq, Verdict.completed.injEq]
      constructor
      · rintro rfl
        exact ⟨rfl, hvalid⟩
      · exact fun h => h.1
    · simp only [hvalid]
      refine ⟨_, rfl, rfl, hjudged _ ?_, .inr rfl⟩
      intro o
      refine iff_of_false (hother o) ?_
      rintro ⟨hsome, ho⟩
      rw [hget] at hsome
      rw [Option.some.inj hsome] at hvalid
      exact hvalid ho

theorem Held.runAgentStep (hP : Stable P) (h : Held P V w) (prompt : String) :
    Held P V (Yaml.runAgentStep σ prompt w).1 ∧
      ((Yaml.runAgentStep σ prompt w).2 = .error .cancelled →
        (Yaml.runAgentStep σ prompt w).1.record.cancelled = true) := by
  have hpaused : Held P V (Yaml.pause σ { w with calls := w.calls + 1 }) :=
    Held.pause hP { h with }
  simp only [Yaml.runAgentStep]
  cases σ.outcome w.calls prompt with
  | interrupted =>
    by_cases hcancelled : (Yaml.pause σ { w with calls := w.calls + 1 }).record.cancelled = true
    · simp only [hcancelled, if_true]
      exact ⟨hpaused, fun _ => trivial⟩
    · simp only [hcancelled]
      exact ⟨hpaused, fun h => by cases h⟩
  | _ => exact ⟨hpaused, fun h => by cases h⟩

/-! ## The collection of an output -/

/-- An attempt goes on from where part of it got to. -/
theorem Tried.of_touches {V₁ : View} {r : Except StepFailure StepState} (h : Tried s V₁ V' w r)
    (ht : Touches s V V₁) : Tried s V V' w r :=
  { h with touches := ht.trans h.touches }

/-- A failure passes through. -/
theorem tried_error (hu : Under s V) (h : Held Open V w) {failure : StepFailure}
    (hcancelled : failure = .cancelled → w.record.cancelled = true) :
    Tried s V V w (.error failure) where
  touches := .refl s V
  under := hu
  held := h
  cancelled := by
    intro heq
    exact hcancelled (Except.error.inj heq)
  ready := by
    intro x heq
    cases heq

theorem tried_endCompleted (hu : Under s V) (h : Held Open V w) {c : Collection}
    {rec : StepOutputRecord} (hc : c ∈ V.collected) (hstep : c.stepId = s.id)
    (hverdict : c.verdict = .completed rec) :
    Tried s V (V.setStep s.id fun st => { st with output := some rec })
      (endCompleted s.id rec w).1 (endCompleted s.id rec w).2 where
  touches := touches_setStep V _
  under := hu.setStep rfl rfl
  held := h.setStep s.id _
  cancelled := by
    intro heq
    cases heq
  ready := by
    intro x heq
    rw [← Except.ok.inj heq]
    refine ⟨rfl, ?_, ?_, ?_⟩
    · intro _ _
      refine ⟨c, hc, hstep, rec, hverdict, ?_⟩
      simp only [View.setStep_steps]
    · intro hstate
      simp only [View.setStep_steps] at hstate
      cases hstate
    · intro hreprompted
      simp only [View.setStep_steps] at hreprompted
      exact hu.own.reprompted hreprompted

theorem tried_endUnvalidated (hu : Under s V) (h : Held Open V w) {c : Collection}
    (hc : c ∈ V.collected) (hstep : c.stepId = s.id) (hverdict : c.verdict = .unvalidated) :
    ∃ V', Tried s V V' (endUnvalidated s.id w).1 (endUnvalidated s.id w).2 := by
  refine ⟨V.setStep s.id fun st => { st with output := w.store.entries.get w.runId s.id },
    touches_setStep V _, hu.setStep rfl rfl, h.setStep s.id _, ?_, ?_⟩
  · intro heq
    cases heq
  · intro x heq
    rw [← Except.ok.inj heq]
    refine ⟨rfl, ?_, ?_, ?_⟩
    · intro _ hstate
      simp only [View.setStep_steps] at hstate
      cases hstate
    · exact fun _ => ⟨c, hc, hstep, hverdict⟩
    · intro hreprompted
      simp only [View.setStep_steps] at hreprompted
      exact hu.own.reprompted hreprompted

/-- The reprompt marks the step, which the read before it bears out. -/
theorem Under.reprompted (hu : Under s V) {c : Collection} (hc : c ∈ V.collected)
    (hstep : c.stepId = s.id) (hverdict : c.verdict = .reprompt) :
    Under s (V.setStep s.id fun st => { st with reprompted := true }) where
  current := hu.current
  running := by
    rw [View.setStep_steps]
    exact hu.running
  journaled := hu.journaled
  own := by
    refine ⟨?_, ?_, fun _ => ⟨c, hc, hstep, hverdict⟩⟩
    · intro _ hstate
      rw [View.setStep_steps] at hstate
      rw [show _ = StepState.running from hu.running] at hstate
      cases hstate
    · intro hstate
      rw [View.setStep_steps] at hstate
      rw [show _ = StepState.running from hu.running] at hstate
      cases hstate
  resolved := hu.resolved

theorem tried_reprompt (hu : Under s V) (h : Held Open V w) {c : Collection}
    (hc : c ∈ V.collected) (hstep : c.stepId = s.id) (hverdict : c.verdict = .reprompt) :
    ∃ V', Tried s V V' (reprompt σ s w).1 (reprompt σ s w).2 := by
  have hu₁ := hu.reprompted hc hstep hverdict
  have h₁ := (h.setStep s.id fun st => { st with reprompted := true }).journalEvent (σ := σ)
    stable_open
  have ht₁ := touches_setStep (s := s) V fun st => { st with reprompted := true }
  have hagent := h₁.runAgentStep (σ := σ) stable_open (repromptPrompt s)
  simp only [reprompt]
  cases hcall : runAgentStep σ (repromptPrompt s)
    (journalEvent σ (w.setStep s.id fun st => { st with reprompted := true })) with
  | mk w₂ r =>
    rw [hcall] at hagent
    cases r with
    | error failure =>
      refine ⟨_, (tried_error hu₁ hagent.1 ?_).of_touches ht₁⟩
      rintro rfl
      exact hagent.2 rfl
    | ok _ =>
      obtain ⟨c₂, hstep₂, hverdict₂, h₂, hdecides⟩ :=
        hagent.1.readOutput s.id .unvalidated (fun o => by simp)
      have hu₂ := hu₁.collect c₂
      have ht₂ := ht₁.trans (touches_collect (s := s) _ c₂)
      cases hread : readOutput s.id .unvalidated w₂ with
      | mk w₃ verdict =>
        rw [hread] at hverdict₂ h₂
        simp only [hread]
        obtain ⟨o, ho⟩ | ho := hdecides
        · obtain rfl : verdict = .completed o := hverdict₂.symm.trans ho
          exact ⟨_, (tried_endCompleted hu₂ h₂ (mem_collect _ c₂) hstep₂ ho).of_touches ht₂⟩
        · obtain rfl : verdict = .unvalidated := hverdict₂.symm.trans ho
          obtain ⟨V', hV'⟩ := tried_endUnvalidated hu₂ h₂ (mem_collect _ c₂) hstep₂ ho
          exact ⟨V', hV'.of_touches ht₂⟩

theorem tried_collect (hu : Under s V) (h : Held Open V w) :
    ∃ V', Tried s V V' (collectStructuredOutput σ s w).1 (collectStructuredOutput σ s w).2 := by
  unfold collectStructuredOutput
  cases hschema : s.outputSchema with
  | none =>
    refine ⟨V, .refl s V, hu, h, fun heq => (by cases heq), ?_⟩
    intro x heq
    rw [← Except.ok.inj heq]
    refine ⟨rfl, ?_, ?_, ?_⟩
    · intro hsome
      rw [hschema] at hsome
      cases hsome
    · intro hstate
      simp only [View.setStep_steps] at hstate
      cases hstate
    · intro hreprompted
      simp only [View.setStep_steps] at hreprompted
      exact hu.own.reprompted hreprompted
  | some schema =>
    -- A step that has had its reprompt does not get another.
    obtain ⟨otherwise, hotherwise, hkind⟩ : ∃ otherwise : Verdict,
        (if (w.stepState s.id).reprompted = true then .unvalidated else .reprompt) = otherwise ∧
          (otherwise = .unvalidated ∨ otherwise = .reprompt) := by
      refine ⟨_, rfl, ?_⟩
      split
      · exact .inl rfl
      · exact .inr rfl
    obtain ⟨c, hstep, hverdict, h₁, hdecides⟩ := h.readOutput s.id otherwise
      (fun o => by obtain rfl | rfl := hkind <;> simp)
    have hu₁ := hu.collect c
    have ht₁ := touches_collect (s := s) V c
    have hc := mem_collect V c
    simp only [hotherwise]
    cases hread : readOutput s.id otherwise w with
    | mk w₁ verdict =>
      rw [hread] at hverdict h₁
      obtain ⟨o, ho⟩ | ho := hdecides
      · obtain rfl : verdict = .completed o := hverdict.symm.trans ho
        exact ⟨_, (tried_endCompleted hu₁ h₁ hc hstep ho).of_touches ht₁⟩
      · obtain rfl : verdict = otherwise := hverdict.symm.trans ho
        obtain rfl | rfl := hkind
        · obtain ⟨V', hV'⟩ := tried_endUnvalidated hu₁ h₁ hc hstep ho
          exact ⟨V', hV'.of_touches ht₁⟩
        · obtain ⟨V', hV'⟩ := tried_reprompt hu₁ h₁ hc hstep ho
          exact ⟨V', hV'.of_touches ht₁⟩

theorem tried_attempt (hu : Under s V) (h : Held Open V w) (prompt : String) :
    ∃ V', Tried s V V' (tryAttempt σ s prompt w).1 (tryAttempt σ s prompt w).2 := by
  have hagent := h.runAgentStep (σ := σ) stable_open prompt
  unfold tryAttempt
  cases hcall : runAgentStep σ prompt w with
  | mk w₁ r =>
    rw [hcall] at hagent
    cases r with
    | error failure =>
      refine ⟨V, tried_error hu hagent.1 ?_⟩
      rintro rfl
      exact hagent.2 rfl
    | ok _ => exact tried_collect hu (hagent.1.journalEvent stable_open)

/-! ## The attempts of a step -/

/-- The step is over, in the record and in the journal; unless a cancel met it, it is done or has
failed, and a failure that may not be passed over has halted the run. -/
structure Over (s : WorkflowStep) (V : View) (w : World) : Prop where
  settles : Settles (V.steps s.id).state
  journaled : Settles (V.journal s.id)
  own : Own s V
  resolved : Resolved V
  outcome : w.record.cancelled = true ∨ StepState.kept (V.steps s.id).state = true ∨
    (V.steps s.id).state = .failed ∧ (s.onFailure = some .continue ∨ w.record.state = .failed)

/-- A template did not resolve: the step is under way and stays so. -/
structure Faulty (s : WorkflowStep) (V : View) : Prop where
  current : V.current = some s.id
  running : (V.steps s.id).state = .running
  journaled : V.journal s.id = .running
  own : Own s V
  unresolved : ∃ p ∈ V.prompts, (substitute p.1 p.2).isOk = false

/-- What the attempts of a step leave, by how they end. -/
def AttemptsPost (s : WorkflowStep) (V : View) (w : World) : AttemptsEnd → Prop
  | .settled => ∃ V', Touches s V V' ∧ Held Open V' w ∧ Over s V' w
  | .exhausted _ => ∃ V', Touches s V V' ∧ Held Open V' w ∧ Under s V'
  | .raised (.engineError _) => ∃ V', Touches s V V' ∧ Held Open V' w ∧ Faulty s V'
  | .raised .escaped => ∃ V', Touches s V V' ∧ Held Open V' w ∧ Own s V'

theorem AttemptsPost.of_touches {V₁ : View} {e : AttemptsEnd} (h : AttemptsPost s V₁ w e)
    (ht : Touches s V V₁) : AttemptsPost s V w e := by
  cases e with
  | raised r =>
    cases r with
    | _ =>
      obtain ⟨V', ht', hrest⟩ := h
      exact ⟨V', ht.trans ht', hrest⟩
  | _ =>
    obtain ⟨V', ht', hrest⟩ := h
    exact ⟨V', ht.trans ht', hrest⟩

/-- A step that is journaled as it stands is over, if it stands settled. -/
theorem over_journalStep (hu : Under s V) {f : StepRunState → StepRunState} {x : StepState}
    (hx : (f (V.steps s.id)).state = x) (hsettles : Settles x) (hkept : StepState.kept x = false)
    (hreprompted : (f (V.steps s.id)).reprompted = (V.steps s.id).reprompted)
    (houtcome : w.record.cancelled = true ∨
      x = .failed ∧ (s.onFailure = some .continue ∨ w.record.state = .failed)) :
    Over s ((V.setStep s.id f).journalStep s.id) w := by
  have hstate : (((V.setStep s.id f).journalStep s.id).steps s.id).state = x := by
    rw [View.journalStep_steps, View.setStep_steps, hx]
  refine ⟨?_, ?_, ?_, hu.resolved, ?_⟩
  · rwa [hstate]
  · rwa [View.journalStep_journal, View.setStep_steps, hx]
  · exact (hu.own.setStep (by rwa [hx]) hreprompted).journalStep s.id
  · rw [hstate]
    exact houtcome.imp_right .inr

theorem settled_cancelled (hu : Under s V) (h : Held Cancelling V w)
    {f : StepRunState → StepRunState} (hf : ∀ st, (f st).reprompted = st.reprompted) :
    AttemptsPost s V (settleCancelled σ s.id f w) .settled := by
  have h₁ : Held Cancelling _ (settleCancelled σ s.id f w) :=
    ((h.setStep s.id fun st => { f st with state := .cancelled }).awaitCancellingJournal
      stable_cancelling fun _ hc => hc).ajournalStep stable_cancelling s.id none
  exact ⟨_, (touches_setStep V _).trans (touches_journalStep _), h₁.weaken fun _ => .inr,
    over_journalStep (x := .cancelled) hu rfl ⟨by decide, by decide⟩ rfl (hf _)
      (.inl h₁.phase.2.1)⟩

theorem settled_interrupted (hu : Under s V) (h : Held Cancelling V w) :
    AttemptsPost s V (settleInterrupted σ s.id w) .settled := by
  have h₁ : Held Cancelling _ (settleInterrupted σ s.id w) :=
    ((h.setStep s.id fun st => { st with state := .skipped }).ajournalStep stable_cancelling s.id
      none).journalEvent stable_cancelling
  exact ⟨_, (touches_setStep V _).trans (touches_journalStep _), h₁.weaken fun _ => .inr,
    over_journalStep (x := .skipped) hu rfl ⟨by decide, by decide⟩ rfl rfl (.inl h₁.phase.2.1)⟩

theorem settled_collected (hu : Under s V) (h : Held Open V w) {x : StepState}
    (hready : Ready s V x) : AttemptsPost s V (settleCollected σ s.id x w) .settled := by
  have h₁ := (h.setStep s.id fun st => { st with state := x }).ajournalStep (σ := σ) stable_open
    s.id none
  refine ⟨(V.setStep s.id fun st => { st with state := x }).journalStep s.id,
    (touches_setStep V _).trans (touches_journalStep _), ?_, ?_⟩
  · simp only [settleCollected]
    split
    · exact (h₁.journalEvent stable_open).journalEvent stable_open
    · exact h₁.journalEvent stable_open
  · have hstate : (((V.setStep s.id fun st => { st with state := x }).journalStep s.id).steps
        s.id).state = x := by
      rw [View.journalStep_steps, View.setStep_steps]
    refine ⟨?_, ?_, hready.2.journalStep s.id, hu.resolved, .inr (.inl ?_)⟩
    · rw [hstate]
      exact settles_of_kept hready.1
    · rw [View.journalStep_journal, View.setStep_steps]
      exact settles_of_kept hready.1
    · rw [hstate]
      exact hready.1

def View.fill (V : View) (p : String × RunRecord) : View := { V with prompts := V.prompts ++ [p] }

theorem Own.fill (h : Own s V) (p : String × RunRecord) : Own s (V.fill p) :=
  h.mono rfl fun _ hc => hc

theorem Held.beginAttempt (h : Held P V w) (template : String) :
    Held P (V.fill (template, w.record)) (w.beginAttempt template) :=
  { h with prompts := by rw [View.fill, ← h.prompts]; rfl }

/-- What follows an attempt that ended in a failure. -/
theorem attemptsPost_failed {remaining attempt : Nat} {kind : StepKind} {text : String}
    (hu : Under s V) (h : Held Open V w)
    (ih : ∀ {V : View} {w : World}, Under s V → Held Open V w →
      AttemptsPost s V (runAttempts σ s remaining (attempt + 1) (some kind) w).1
        (runAttempts σ s remaining (attempt + 1) (some kind) w).2)
    {r : World × AttemptsEnd}
    (hr : r =
      let w := w.setStep s.id fun st => { st with error := some text }
      if w.record.cancelled then (settleCancelled σ s.id id w, .settled)
      else
        let w := ajournal σ (·.journalStep s.id (some kind.value)) w
        let w := journalEvent σ w
        if kind.nonRetryable then (w, .exhausted (some kind))
        else runAttempts σ s remaining (attempt + 1) (some kind) w) :
    AttemptsPost s V r.1 r.2 := by
  have h₁ := h.setStep s.id fun st => { st with error := some text }
  have hu₁ : Under s (V.setStep s.id fun st => { st with error := some text }) :=
    hu.setStep rfl rfl
  have ht₁ := touches_setStep (s := s) V fun st => { st with error := some text }
  simp only at hr
  split at hr
  · next hcancelled =>
    rw [hr]
    exact (settled_cancelled hu₁ (h₁.cancelling hcancelled) fun _ => rfl).of_touches ht₁
  · have h₂ := (h₁.ajournalStep (σ := σ) stable_open s.id (some kind.value)).journalEvent
      (σ := σ) stable_open
    have hu₂ := hu₁.journalStep
    have ht₂ := ht₁.trans (touches_journalStep (s := s) _)
    split at hr
    · rw [hr]
      exact ⟨_, ht₂, h₂, hu₂⟩
    · rw [hr]
      exact (ih hu₂ h₂).of_touches ht₂

/-- The attempts of a step end as they say, whatever moves beside them. -/
theorem attemptsPost (hu : Under s V) (h : Held Open V w) (remaining attempt : Nat)
    (last : Option StepKind) :
    AttemptsPost s V (runAttempts σ s remaining attempt last w).1
      (runAttempts σ s remaining attempt last w).2 := by
  induction remaining generalizing attempt last w V with
  | zero => exact ⟨V, .refl s V, h, hu⟩
  | succ remaining ih =>
    simp only [runAttempts]
    by_cases hcancelled : w.record.cancelled = true
    · rw [if_pos hcancelled]
      exact settled_cancelled hu (h.cancelling hcancelled) fun _ => rfl
    · rw [if_neg hcancelled]
      have h₁ := ((h.setStep s.id fun st =>
        { st with attempts := attempt, error := none }).journalEvent (σ := σ)
          stable_open).beginAttempt s.prompt
      have hu₁ : Under s (V.setStep s.id fun st => { st with attempts := attempt, error := none }) :=
        hu.setStep rfl rfl
      have ht₁ := touches_setStep (s := s) V fun st => { st with attempts := attempt, error := none }
      generalize hw₁ : (journalEvent σ (w.setStep s.id fun st =>
        { st with attempts := attempt, error := none })) = w₁ at h₁ ⊢
      have ht₂ : Touches s V ((V.setStep s.id fun st =>
          { st with attempts := attempt, error := none }).fill (s.prompt, w₁.record)) :=
        ht₁.trans { Touches.refl s _ with }
      cases hfill : substitute s.prompt (w₁.beginAttempt s.prompt).record with
      | error text =>
        refine ⟨_, ht₂, h₁, hu₁.current, hu₁.running, hu₁.journaled, hu₁.own.fill _, ?_⟩
        refine ⟨(s.prompt, w₁.record), List.mem_append_right _ (List.mem_singleton_self _), ?_⟩
        rw [show substitute s.prompt w₁.record = .error text from hfill]
        rfl
      | ok prompt =>
        have hu₂ : Under s ((V.setStep s.id fun st =>
            { st with attempts := attempt, error := none }).fill (s.prompt, w₁.record)) := by
          refine ⟨hu₁.current, hu₁.running, hu₁.journaled, hu₁.own.fill _, ?_⟩
          intro p hp
          obtain hp | hp := List.mem_append.mp hp
          · exact hu₁.resolved p hp
          · rw [List.mem_singleton.mp hp, show substitute s.prompt w₁.record = .ok prompt from hfill]
            rfl
        obtain ⟨V₃, hV₃⟩ := tried_attempt hu₂ h₁ prompt (σ := σ)
        have ht₃ := ht₂.trans hV₃.touches
        simp only
        cases htry : tryAttempt σ s prompt (w₁.beginAttempt s.prompt) with
        | mk w₃ r =>
          rw [htry] at hV₃
          cases r with
          | ok x => exact (settled_collected hV₃.under hV₃.held (hV₃.ready x rfl)).of_touches ht₃
          | error failure =>
            cases failure with
            | cancelled =>
              exact (settled_interrupted hV₃.under
                (hV₃.held.cancelling (hV₃.cancelled rfl))).of_touches ht₃
            | escaped => exact ⟨V₃, ht₃, hV₃.held, hV₃.under.own⟩
            | execution kind text =>
              exact (attemptsPost_failed hV₃.under hV₃.held
                (fun hu h => ih hu h (attempt + 1) (some kind)) rfl).of_touches ht₃

/-! ## The step -/

/-- The run is open, or its step has just halted it. -/
def Halting (c : Control) : Prop :=
  Open c ∨ c.state = .failed ∧ (c.cancelled = false → c.cancelling = .absent) ∧
    (c.cancelled = true → c.accepted = true)

/-- What a step leaves, by how it ends. -/
def StepPost (s : WorkflowStep) (V : View) (w : World) : Option Raised → Prop
  | none => ∃ V', Touches s V V' ∧ Held Halting V' w ∧ Over s V' w
  | some (.engineError _) => ∃ V', Touches s V V' ∧ Held Open V' w ∧ Faulty s V'
  | some .escaped => ∃ V', Touches s V V' ∧ Held Open V' w ∧ Own s V'

theorem touches_current (V : View) (stepId : Option String) :
    Touches s V { V with current := stepId } :=
  { Touches.refl s V with }

theorem under_beginStep (hown : Own s V) (hresolved : Resolved V) (h : Held Open V w) :
    ∃ V', Touches s V V' ∧ Held Open V' (beginStep σ s.id w) ∧ Under s V' := by
  have hcurrent : Own s { V with current := some s.id } := hown.mono rfl fun _ hc => hc
  have hown₁ : Own s ({ V with current := some s.id }.setStep s.id fun st =>
      { st with state := .running }) := hcurrent.setStep rfl rfl
  refine ⟨({ V with current := some s.id }.setStep s.id fun st =>
    { st with state := .running }).journalStep s.id, ?_, ?_, ?_⟩
  · exact ((touches_current V _).trans (touches_setStep _ _)).trans (touches_journalStep _)
  · exact ((((h.setCurrentStep (some s.id)).setStep s.id _).ajournalStep stable_open s.id
      none).ajournalCurrentStep stable_open).journalEvent stable_open
  · refine ⟨rfl, ?_, ?_, hown₁.journalStep s.id, hresolved⟩
    · rw [View.journalStep_steps, View.setStep_steps]
    · rw [View.journalStep_journal, View.setStep_steps]

/-- An open run may be halted. -/
theorem Open.halt {c : Control} (h : Open c) : Halting { c with state := .failed } := by
  right
  obtain ⟨-, hcancelled, habsent⟩ | ⟨-, hcancelled, haccepted⟩ := h
  · refine ⟨rfl, fun _ => habsent, ?_⟩
    intro hnot
    rw [show c.cancelled = true from hnot] at hcancelled
    cases hcancelled
  · refine ⟨rfl, ?_, fun _ => haccepted⟩
    intro hnot
    rw [show c.cancelled = false from hnot] at hcancelled
    cases hcancelled

theorem stepPost_failStep (hu : Under s V) (h : Held Open V w) (kind : Option StepKind) :
    StepPost s V (failStep σ s kind w) none := by
  have h₁ := ((h.setStep s.id fun st => { st with state := .failed }).ajournalStep (σ := σ)
    stable_open s.id (kind.map StepKind.value)).journalEvent (σ := σ) stable_open
  have ht₁ := (touches_setStep (s := s) V fun st => { st with state := .failed }).trans
    (touches_journalStep _)
  simp only [failStep]
  split
  · exact ⟨_, ht₁, h₁.setState Open.halt,
      over_journalStep (x := .failed) hu rfl ⟨by decide, by decide⟩ rfl rfl
        (.inr ⟨rfl, .inr rfl⟩)⟩
  · next hpolicy =>
    have hcontinue : s.onFailure = some .continue := by
      cases hf : s.onFailure with
      | none => exact absurd (by rw [hf]; rfl) hpolicy
      | some f =>
        cases f with
        | halt => exact absurd (by rw [hf]; rfl) hpolicy
        | «continue» => rfl
    exact ⟨_, ht₁, h₁.weaken fun _ => .inl,
      over_journalStep (x := .failed) hu rfl ⟨by decide, by decide⟩ rfl rfl
        (.inr ⟨rfl, .inl hcontinue⟩)⟩

/-- A step ends as it says, whatever moves beside it. -/
theorem stepPost_runStep (hown : Own s V) (hresolved : Resolved V) (h : Held Open V w) :
    StepPost s V (runStep σ s w).1 (runStep σ s w).2 := by
  obtain ⟨V₁, ht₁, h₁, hu₁⟩ := under_beginStep (σ := σ) hown hresolved h
  have hattempts := attemptsPost (σ := σ) hu₁ h₁ (s.retries.getD defaultStepRetries + 1) 1 none
  unfold runStep
  cases hrun : runAttempts σ s (s.retries.getD defaultStepRetries + 1) 1 none
    (beginStep σ s.id w) with
  | mk w₂ e =>
    rw [hrun] at hattempts
    cases e with
    | settled =>
      obtain ⟨V₂, ht₂, h₂, hover⟩ := hattempts
      exact ⟨V₂, ht₁.trans ht₂, h₂.weaken fun _ => .inl, hover⟩
    | exhausted kind =>
      obtain ⟨V₂, ht₂, h₂, hu₂⟩ := hattempts
      obtain ⟨V₃, ht₃, hrest⟩ := stepPost_failStep (σ := σ) hu₂ h₂ kind
      exact ⟨V₃, (ht₁.trans ht₂).trans ht₃, hrest⟩
    | raised r =>
      cases r with
      | _ =>
        obtain ⟨V₂, ht₂, hrest⟩ := hattempts
        exact ⟨V₂, ht₁.trans ht₂, hrest⟩

end CliAgentOrchestrator.Workflow.Yaml
