import CliAgentOrchestrator.Workflow.YamlEntry

/-!
# Whose output a step completes with

The store knows a record by the run and the step it names, not by the attempt that returned it.
A drive completes a step with the last record of the step's key as long as the store still has
it (`step_output_stands`), whoever recorded it and when.
-/

set_option autoImplicit false

namespace CliAgentOrchestrator.Workflow.Yaml

variable {σ : Schedule} {V : View} {w : World} {s : WorkflowStep}

/-- The entry got as far as its drive. -/
def EntryEnd.drove : EntryEnd → Bool
  | .returned | .raised _ => true
  | .refused _ => false

/-- Every drive leaves a view in which what was its steps' own stays so. -/
theorem DrivePost.view {e : EntryEnd} (h : DrivePost V w e) (hdrove : e.drove = true) :
    ∃ P V', Within V.spec.steps V V' ∧ (∀ s ∈ V.spec.steps, Own s V → Own s V') ∧ Held P V' w := by
  cases e with
  | returned =>
    obtain ⟨V', x, hfinishes, -, h', -⟩ := h
    exact ⟨_, { V' with current := none }, { hfinishes.within with },
      fun s hs hown => (hfinishes.own s hs hown).mono rfl fun _ hc => hc, h'⟩
  | raised r =>
    cases r with
    | engineError text =>
      obtain ⟨V', hw, hown, h', -⟩ := h
      exact ⟨_, V', hw, hown, h'⟩
    | escaped =>
      obtain ⟨V', hw, hown, h'⟩ := h
      exact ⟨_, V', hw, hown, h'⟩
  | refused text => cases hdrove

/-- A read completes its step exactly with a validated record that stands. -/
theorem Judged.standing {runId : String} {c : Collection} (h : Judged runId c)
    (o : StepOutputRecord) :
    c.verdict = .completed o ↔ o.validated = true ∧ Standing c.store.returns runId c.stepId o := by
  rw [h o, c.store.kept.get_eq_some_iff]
  exact and_comm

/-- A read of the store completes its step exactly with a validated record that stands. -/
def ReadsStand (w : World) : Prop := ∀ c ∈ w.collected, ∀ o,
  c.verdict = .completed o ↔ o.validated = true ∧ Standing c.store.returns w.runId c.stepId o

/-- What a drive made of a step with a schema that it did not keep, a read of the store decided:
that it completed and with what, that it ended unvalidated, and that it was reprompted. -/
structure SettledByRead (s : WorkflowStep) (w : World) : Prop where
  completed : s.outputSchema.isSome = true → (w.stepState s.id).state = .completed →
    ∃ c ∈ w.collected, c.stepId = s.id ∧
      ∃ o, c.verdict = .completed o ∧ (w.stepState s.id).output = some o
  unvalidated : (w.stepState s.id).state = .completedUnvalidated →
    ∃ c ∈ w.collected, c.stepId = s.id ∧ c.verdict = .unvalidated
  reprompted : (w.stepState s.id).reprompted = true →
    ∃ c ∈ w.collected, c.stepId = s.id ∧ c.verdict = .reprompt

/-- Whatever the workers of the process record, and however its runs are retried and resumed: a
read of the store completes its step exactly with a validated record that is the last of its key
and still under the cap, and a drive settles its steps by such reads. -/
theorem step_output_stands (σ : Schedule) (e : Entry) (w : World)
    (htracked : w.cached = false → w.recovery = none) (hdrove : (e.run σ w).2.drove = true) :
    ReadsStand (e.run σ w).1 ∧
      ∀ s ∈ (e.run σ w).1.record.spec.steps, ¬ KeptAt w s.id → SettledByRead s (e.run σ w).1 := by
  obtain ⟨text, hrefused⟩ | ⟨V, w₁, hopens, hw, hpost⟩ := entryPost (σ := σ) e htracked
  · rw [hrefused] at hdrove
    cases hdrove
  · obtain ⟨P, V', hwithin, hown, h⟩ := hpost.view hdrove
    rw [hw]
    refine ⟨?_, ?_⟩
    · intro c hc o
      have hjudged := h.judged c (h.collected ▸ hc)
      rw [← h.runId] at hjudged
      exact hjudged.standing o
    · intro s hs hkept
      have hspec : w₁.record.spec = V.spec := h.spec.trans hwithin.spec
      have hown' : Own s V' := hown s (hspec ▸ hs) ((hopens.own s).resolve_right hkept)
      have hstep : World.stepState { w₁ with live := false } s.id = V'.steps s.id :=
        h.stepState s.id
      refine ⟨?_, ?_, ?_⟩
      · rw [hstep, show World.collected { w₁ with live := false } = V'.collected from h.collected]
        exact hown'.completed
      · rw [hstep, show World.collected { w₁ with live := false } = V'.collected from h.collected]
        exact hown'.unvalidated
      · rw [hstep, show World.collected { w₁ with live := false } = V'.collected from h.collected]
        exact hown'.reprompted

/-! ## Runs -/

/-- What a step completes with was recorded since its attempt began, and a validated record of
its attempt completes it. -/
def OwnOutputs (w : World) : Prop := ∀ c ∈ w.collected,
  (∀ o, c.verdict = .completed o →
    ((w.runId, c.stepId), o) ∈ c.store.returns.drop c.since) ∧
  ∀ o, o.validated = true → ((w.runId, c.stepId), o) ∈ c.store.returns.drop c.since →
    ∃ o', c.verdict = .completed o'

/-- A run of one step that is to return an output. -/
def returningRun : Entry :=
  .start ⟨[{ id := "s1", prompt := "go", outputSchema := some "fields" }],
    List.nodup_singleton _⟩ []

/-- The agent of the first attempt records outputs, of which the empty one is not valid; it
crashes or returns, and the agents after it return without recording anything. -/
def recordingOnce (outputs : List Output) (crashes : Bool) : Schedule where
  moves := fun n => if n = 18 then outputs.map (.recordOutput "run" "s1" · (some "fields")) else []
  outcome := fun call _ => if call = 0 ∧ crashes = true then .fails .error "ERROR" else .returns
  validate := fun output _ => if output = [] then .validationError "empty" else .passes

/-- The valid output of the first attempt, as the store has it. -/
def validRecord : StepOutputRecord where
  runId := "run"
  stepId := "s1"
  output := [("k", "v")]
  validated := true
  state := .completed

/-- What a read met since its attempt began, and its verdict. -/
def Collection.outcome (c : Collection) : Verdict × Returns :=
  (c.verdict, c.store.returns.drop c.since)

/-- What an attempt that crashed had recorded completes the step for the next one, which records
nothing; and a validated output is lost to one recorded behind it. -/
theorem earlier_attempt_completes_step :
    ¬ OwnOutputs (returningRun.run (recordingOnce [[("k", "v")]] true) (.boot "run")).1 ∧
    ¬ OwnOutputs (returningRun.run (recordingOnce [[("k", "v")], []] false) (.boot "run")).1 := by
  constructor
  · intro h
    have hreads : (.completed validRecord, []) ∈
        (returningRun.run (recordingOnce [[("k", "v")]] true) (.boot "run")).1.collected.map
          Collection.outcome := by decide +kernel
    obtain ⟨c, hc, hout⟩ := List.mem_map.mp hreads
    have hmem := (h c hc).1 validRecord (congrArg Prod.fst hout)
    rw [show c.store.returns.drop c.since = [] from congrArg Prod.snd hout] at hmem
    cases hmem
  · intro h
    have hreads : ∃ x ∈
        (returningRun.run (recordingOnce [[("k", "v")], []] false) (.boot "run")).1.collected.map
          (fun c => (c.stepId, c.outcome)),
        x.1 = "s1" ∧ x.2.1 = .reprompt ∧ (("run", "s1"), validRecord) ∈ x.2.2 := by decide +kernel
    obtain ⟨x, hx, hstep, hverdict, hmem⟩ := hreads
    obtain ⟨c, hc, rfl⟩ := List.mem_map.mp hx
    have hrunId : (returningRun.run (recordingOnce [[("k", "v")], []] false)
        (.boot "run")).1.runId = "run" := by decide +kernel
    rw [← hrunId, ← show c.stepId = "s1" from hstep] at hmem
    obtain ⟨o, ho⟩ := (h c hc).2 validRecord rfl hmem
    rw [show c.verdict = .reprompt from hverdict] at ho
    cases ho

/-- The first attempt records its output and crashes, and the second completes with it. -/
theorem step_output_stands_of_retry :
    let σ := recordingOnce [[("k", "v")]] true
    ((World.boot "run").cached = false → (World.boot "run").recovery = none) ∧
      (returningRun.run σ (.boot "run")).2.drove = true ∧
      (ReadsStand (returningRun.run σ (.boot "run")).1 ∧
        ∀ s ∈ (returningRun.run σ (.boot "run")).1.record.spec.steps, ¬ KeptAt (.boot "run") s.id →
          SettledByRead s (returningRun.run σ (.boot "run")).1) :=
  ⟨fun _ => rfl, by decide +kernel,
    step_output_stands _ _ _ (fun _ => rfl) (by decide +kernel)⟩

end CliAgentOrchestrator.Workflow.Yaml
