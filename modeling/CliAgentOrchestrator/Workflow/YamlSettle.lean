import CliAgentOrchestrator.Workflow.YamlEntry

/-!
# The settlement of a YAML run

A drive that has ended leaves its run settled exactly when every template it filled resolved and
no cancel was accepted on a record it does not drive (`yaml_run_settles_iff`).
-/

set_option autoImplicit false

namespace CliAgentOrchestrator.Workflow.Yaml

variable {σ : Schedule} {V : View} {w : World}

/-- The entry returned, or raised `WorkflowEngineError`. -/
def EntryEnd.ended : EntryEnd → Bool
  | .returned | .raised (.engineError _) => true
  | .raised .escaped | .refused _ => false

/-- The run has settled, in memory and in the journal. -/
structure Settled (w : World) : Prop where
  terminal : w.record.state.terminal = true
  durable : w.row.map RunRow.state = some w.record.state
  cancelled : w.accepted = true → w.record.state = .cancelled
  completed : w.record.state = .completed →
    ∀ s ∈ w.record.spec.steps, Passed s (w.stepState s.id).state
  steps : ∀ s ∈ w.record.spec.steps, Settles (w.stepState s.id).state ∧
    ∀ row, w.row = some row → Settles (row.steps s.id).state

/-- Every template resolved against the record it met. -/
def Resolves (w : World) : Prop := ∀ p ∈ w.prompts, (substitute p.1 p.2).isOk = true

/-- A cancel that was accepted met the record of the drive. -/
def Met (w : World) : Prop := w.accepted = true → w.record.cancelled = true

theorem settled_of_returned (hinserted : V.inserted = true) (hreturned : DrivePost V w .returned)
    (hmet : Met w) : Settled w := by
  obtain ⟨V', x, hfinishes, -, h, hdurable, hpassed⟩ := hreturned
  have hstate : w.record.state = x := h.phase.1
  have hspec : w.record.spec = V.spec := h.spec.trans hfinishes.within.spec
  obtain ⟨row, hrow⟩ := Option.isSome_iff_exists.mp
    (h.inserted.trans (hfinishes.within.inserted.trans hinserted))
  have hcancelled : w.record.cancelled = true → x = .cancelled := h.phase.2.2.2.mp
  refine ⟨?_, ?_, ?_, ?_, ?_⟩
  · rw [hstate]
    exact h.phase.2.1
  · rw [hrow, Option.map_some, Option.some.injEq]
    obtain hsame | ⟨hrecovered, howed⟩ := hdurable row hrow
    · exact hsame
    · -- What the recovery task wrote is what a cancelled run ends in.
      rw [hrecovered, hstate, hcancelled (howed.elim hmet id)]
  · intro haccepted
    rw [hstate, hcancelled (hmet haccepted)]
  · intro hcompleted s hs
    rw [hspec] at hs
    rw [h.stepState]
    exact hpassed (hstate.symm.trans hcompleted) s hs
  · intro s hs
    rw [hspec] at hs
    obtain ⟨hsteps, hjournal⟩ := hfinishes.ended s hs
    refine ⟨?_, ?_⟩
    · rw [h.stepState]
      exact hsteps
    · intro row' hrow'
      obtain hsame | ⟨hcancelled', -⟩ := h.journal row' hrow' s.id
      · rw [hsame]
        exact hjournal
      · rw [hcancelled']
        exact ⟨by decide, by decide⟩

theorem met_of_settled (hreturned : DrivePost V w .returned) (hsettled : Settled w) : Met w := by
  obtain ⟨V', x, -, -, h, -, -⟩ := hreturned
  intro haccepted
  refine h.phase.2.2.2.mpr ?_
  rw [← hsettled.cancelled haccepted]
  exact h.phase.1.symm

theorem resolves_of_returned (hreturned : DrivePost V w .returned) : Resolves w := by
  obtain ⟨V', x, -, hresolved, h, -, -⟩ := hreturned
  intro p hp
  rw [h.prompts] at hp
  exact hresolved p hp

/-- The handler of an engine error leaves a step under way in the journal, unless a cancel was
accepted, which it leaves FAILED. -/
theorem not_settled_of_engineError {text : String} (hinserted : V.inserted = true)
    (hraised : DrivePost V w (.raised (.engineError text))) : ¬ Settled w ∧ ¬ Resolves w := by
  obtain ⟨V', hw, -, h, ⟨s, hs, hrunning⟩, p, hp, hunresolved⟩ := hraised
  constructor
  · intro hsettled
    have hnot : ¬ w.accepted = true := by
      intro haccepted
      have hstate := hsettled.cancelled haccepted
      rw [show w.record.state = .failed from h.phase.1] at hstate
      cases hstate
    obtain ⟨row, hrow⟩ := Option.isSome_iff_exists.mp
      (h.inserted.trans (hw.inserted.trans hinserted))
    have hspec : w.record.spec = V.spec := h.spec.trans hw.spec
    have hstep := (hsettled.steps s (hspec ▸ hs)).2 row hrow
    obtain hsame | ⟨-, haccepted | hcancelled⟩ := h.journal row hrow s.id
    · rw [hsame, hrunning] at hstep
      exact hstep.2 rfl
    · exact hnot haccepted
    · exact hnot (h.phase.2 hcancelled)
  · intro hresolves
    rw [← h.prompts] at hp
    rw [hresolves p hp] at hunresolved
    cases hunresolved

/-- A drive that has ended has settled its run exactly when its templates resolved and every
cancel that was accepted met the record it drives. -/
theorem yaml_run_settles_iff (σ : Schedule) (e : Entry) (w : World)
    (htracked : w.cached = false → w.recovery = none) (hended : (e.run σ w).2.ended = true) :
    Settled (e.run σ w).1 ↔ Resolves (e.run σ w).1 ∧ Met (e.run σ w).1 := by
  obtain ⟨text, hrefused⟩ | ⟨V, w₁, hopens, hw, hpost⟩ := entryPost (σ := σ) e htracked
  · rw [hrefused] at hended
    cases hended
  · -- The mark of a live drive is off, which none of this looks at.
    have hsettled : Settled (e.run σ w).1 ↔ Settled w₁ := by
      rw [hw]
      exact ⟨fun h => { h with }, fun h => { h with }⟩
    have hresolves : Resolves (e.run σ w).1 ↔ Resolves w₁ := by
      rw [hw]
      exact Iff.rfl
    have hmet : Met (e.run σ w).1 ↔ Met w₁ := by
      rw [hw]
      exact Iff.rfl
    rw [hsettled, hresolves, hmet]
    cases hend : (e.run σ w).2 with
    | returned =>
      rw [hend] at hpost
      exact ⟨fun h => ⟨resolves_of_returned hpost, met_of_settled hpost h⟩,
        fun h => settled_of_returned hopens.inserted hpost h.2⟩
    | raised r =>
      cases r with
      | engineError text =>
        rw [hend] at hpost
        obtain ⟨hnot, hunresolved⟩ := not_settled_of_engineError hopens.inserted hpost
        exact ⟨fun h => absurd h hnot, fun h => absurd h.1 hunresolved⟩
      | escaped =>
        rw [hend] at hended
        cases hended
    | refused text =>
      rw [hend] at hended
      cases hended

/-! ## Runs -/

/-- A spec of one step. -/
def oneStep (prompt : String) : WorkflowSpec :=
  ⟨[{ id := "s1", prompt }], List.nodup_singleton _⟩

/-- Agents return and every output is valid; `moves` says what else happens. -/
def returning (moves : Nat → List Move) : Schedule where
  moves := moves
  outcome := fun _ _ => .returns
  validate := fun _ _ => .passes

/-- A run that an earlier process left CANCELLING in its step. -/
def strandedWorld : World where
  runId := "run"
  record := { spec := ⟨[], List.nodup_nil⟩, inputs := [] }
  store := ⟨[], [], kept_nil⟩
  row := some
    { spec := oneStep "go", inputs := [], state := .cancelling, currentStepId := some "s1"
      steps := fun _ => { state := .running } }

/-- A cancel met at the third await of a drive whose template resolves settles the run. -/
theorem yaml_run_settles_of_cancel :
    let σ := returning fun n => if n = 2 then [.cancelRun] else []
    let e : Entry := .start (oneStep "go \x7b\x7bworkflow.inputs.x\x7d\x7d") [("x", "on")]
    ((World.boot "run").cached = false → (World.boot "run").recovery = none) ∧
      (e.run σ (.boot "run")).2.ended = true ∧
      (Settled (e.run σ (.boot "run")).1 ↔
        Resolves (e.run σ (.boot "run")).1 ∧ Met (e.run σ (.boot "run")).1) :=
  ⟨fun _ => rfl, by decide +kernel,
    yaml_run_settles_iff _ _ _ (fun _ => rfl) (by decide +kernel)⟩

/-- A template without its input ends the drive with its step RUNNING in the journal, and a
cancel accepted while a resume settles a stranded run is lost on the drive it opens. -/
theorem engine_error_leaves_step_running :
    let started := (Entry.start (oneStep "go \x7b\x7bworkflow.inputs.x\x7d\x7d") []).run
      (returning fun _ => []) (.boot "run")
    let resumed := Entry.resume.run (returning fun n => if n = 0 then [.cancelRun] else [])
      strandedWorld
    (started.2.ended = true ∧ ¬ Settled started.1) ∧
      resumed.2.ended = true ∧ ¬ Settled resumed.1 := by
  refine ⟨⟨by decide +kernel, ?_⟩, by decide +kernel, ?_⟩
  · intro h
    have hrow : ((Entry.start (oneStep "go \x7b\x7bworkflow.inputs.x\x7d\x7d") []).run
        (returning fun _ => []) (.boot "run")).1.row.map (fun row => (row.steps "s1").state) =
          some .running := by decide +kernel
    obtain ⟨row, hrow, hrunning⟩ := Option.map_eq_some_iff.mp hrow
    have hstep := (h.steps { id := "s1", prompt := "go \x7b\x7bworkflow.inputs.x\x7d\x7d" }
      (by decide +kernel)).2 row hrow
    exact hstep.2 hrunning
  · intro h
    have hcompleted : (Entry.resume.run (returning fun n => if n = 0 then [.cancelRun] else [])
        strandedWorld).1.record.state = .completed := by decide +kernel
    have hcancelled := h.cancelled (by decide +kernel)
    rw [hcompleted] at hcancelled
    cases hcancelled

end CliAgentOrchestrator.Workflow.Yaml
