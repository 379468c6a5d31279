import CliAgentOrchestrator.Workflow.Script

/-!
# The generation fence

Every spawn of a script run carries a generation, and a call of a process goes through only
while the row holds the generation it carries. A resume bumps the generation of a row it read
before it claimed the run, a cancel and a timeout bump the record; each persist is an
unconditional write from a thread. The fence holds as long as the persists of one record land
in the order of their bumps, a resume bumps the row as it stands, and it takes the generation for
its process while the row holds it.
-/

set_option autoImplicit false

namespace CliAgentOrchestrator.Workflow

open Library

/-! ## The calls on one run -/

/-- What a call holding a record is at: the reopening of the row, the drive of a process that
carries `env`, or nothing more. -/
inductive Stage
  | reopening
  | driving (env : Int)
  | ended

/-- Where a `resume_script_run` waits: for the row, with the row it read, inside its claim of
the run, for the persist of its bump, with that persist through, with the record it made, with
an exception that still has to leave the claim, or not at all. A first start is a call that
holds its record. -/
inductive ResumePoint
  | idle
  | reading
  | read (row : ScriptRow)
  | gated (row : ScriptRow)
  | fencing (generation : Int)
  | fenced (generation : Int)
  | holding (stage : Stage) (a : Attempt)
  | raised
  | ended

/-- One script run in one process: its row, the calls on it, the call whose record is
registered, its mark in `_active_drives`, and the generations of the processes spawned. -/
structure ScriptRuns where
  row : ScriptRow
  calls : Nat → ResumePoint := fun _ => .idle
  registered : Option Nat := none
  active : Bool := false
  spawned : List Int := []

/-- A run at some generation: first started, or found in the journal by a new process. -/
def ScriptRuns.start (generation : Int) (fresh : Bool) : ScriptRuns :=
  if fresh then
    { row := { generation }
      calls := Function.update (fun _ => .idle) 0
        (.holding (.driving generation) (Attempt.new generation))
      registered := some 0
      active := true }
  else { row := { generation } }

/-- The steps of the calls; `i` says whose. -/
inductive RunStep
  | resume (i : Nat)
  | readRow (i : Nat)
  | gate (i : Nat)
  | refuse (i : Nat)
  | bump (i : Nat)
  | persist (i : Nat) (ok : Bool)
  | register (i : Nat)
  | reopen (i : Nat) (ok : Bool)
  | attempt (i : Nat) (step : AttemptStep)
  | release (i : Nat)

def ScriptRuns.put (s : ScriptRuns) (i : Nat) (p : ResumePoint) : ScriptRuns :=
  { s with calls := Function.update s.calls i p }

/-- A step of the record is one the call can take: a cancel starts on the registered record,
the drive moves while the call drives. -/
def ScriptRuns.enabled (s : ScriptRuns) (i : Nat) (stage : Stage) (step : AttemptStep) : Bool :=
  match step, stage with
  | .cancel, _ => s.registered == some i
  | _, .driving _ => true
  | step, _ => step.ofCancel

/-- The process a step brings up. -/
def spawnedBy (stage : Stage) (a : Attempt) (step : AttemptStep) : List Int :=
  match stage, a.drive, step with
  | .driving env, .spawning, .spawn true => [env]
  | _, _, _ => []

/-- SOURCE: services/script_runner.py:1336-1480 -/
def ScriptRuns.exec (s : ScriptRuns) : RunStep → ScriptRuns
  | .resume i =>
    match s.calls i with
    | .idle => s.put i .reading
    | _ => s
  | .readRow i =>
    match s.calls i with
    | .reading => s.put i (.read s.row)
    | _ => s
  | .gate i =>
    match s.calls i with
    | .read row =>
      if s.active then s.put i .ended
      -- Gate 3 refuses under the claim, which the `finally` gives up at once.
      else if row.state = .completed then s.put i .ended
      else { s.put i (.gated row) with active := true }
    | _ => s
  | .refuse i =>
    match s.calls i with
    | .gated _ => s.put i .raised
    | _ => s
  | .bump i =>
    match s.calls i with
    | .gated row => s.put i (.fencing (Workflow.bump row.generation))
    | _ => s
  | .persist i ok =>
    match s.calls i with
    | .fencing generation =>
      if ok then { s.put i (.fenced generation) with row := updateRunGeneration s.row generation }
      else s.put i .raised
    | _ => s
  | .register i =>
    match s.calls i with
    | .fenced generation =>
      { s.put i (.holding .reopening (Attempt.new generation)) with registered := some i }
    | _ => s
  | .reopen i ok =>
    match s.calls i with
    | .holding .reopening a =>
      { s.put i (.holding (.driving a.record.generation) a) with
        row := if ok then { s.row with state := .running } else s.row }
    | _ => s
  | .attempt i step =>
    match s.calls i with
    | .holding stage a =>
      if s.enabled i stage step then
        { s.put i (.holding stage (a.exec s.row step).2) with
          row := (a.exec s.row step).1
          spawned := s.spawned ++ spawnedBy stage a step }
      else s
    | _ => s
  | .release i =>
    match s.calls i with
    | .holding (.driving _) a =>
      if a.drive = .finished then { s.put i (.holding .ended a) with active := false } else s
    | .raised => { s.put i .ended with active := false }
    | _ => s

/-! ## One record -/

/-- A persist of a bump of the record is in flight. -/
def Attempt.Pending (a : Attempt) : Prop :=
  (∃ g, a.drive = .fencing (some g)) ∨ ∃ g, a.cancel = .fencing g

/-- The drive may still time out. -/
def DrivePoint.early : DrivePoint → Bool
  | .spawning | .running | .reaping => true
  | _ => false

/-- What every order of steps keeps of a record. -/
structure Attempt.Tidy (a : Attempt) : Prop where
  latched : a.record.cancelled = decide (a.cancel ≠ .idle)
  swept : ∀ state, a.drive = .sweeping state → state.terminal = true
  finished : a.drive = .finished ∨ (∃ r, a.drive = .journaling r) → a.record.state.terminal = true

/-- How the generation of the row stands to the bumps of the record: the row is not ahead of the
record, and of what is in flight the record is ahead by the other side's one bump at most. -/
structure Attempt.Paced (row : ScriptRow) (a : Attempt) : Prop where
  ahead : row.generation ≤ a.record.generation
  drive : ∀ g, a.drive = .fencing (some g) → g ≤ a.record.generation ∧
    a.record.generation ≤ g + 1 ∧ (a.cancel = .idle → a.record.generation = g)
  cancel : ∀ g, a.cancel = .fencing g → g ≤ a.record.generation ∧
    a.record.generation ≤ g + 1 ∧ (a.drive.early = true → a.record.generation = g)

/-- The persist of the bump to `g` lands while no later bump of its record has been persisted:
there is none, or the row does not hold it. -/
def Attempt.LastPersisted (row : ScriptRow) (a : Attempt) (g : Int) : Prop :=
  a.record.generation = g ∨ row.generation ≠ a.record.generation

/-- The persists of a record land in order. -/
def Attempt.InOrder (row : ScriptRow) (a : Attempt) : AttemptStep → Prop
  | .fenceLands ok => ok = true → ∀ g, a.drive = .fencing (some g) → a.LastPersisted row g
  | .cancelFenceLands ok => ok = true → ∀ g, a.cancel = .fencing g → a.LastPersisted row g
  | _ => True

variable {row row' : ScriptRow} {a : Attempt} {step : AttemptStep}

/-- A record just made is tidy. -/
theorem Attempt.tidy_new (generation : Int) : (Attempt.new generation).Tidy where
  latched := rfl
  swept := by
    intro state h
    cases h
  finished := by
    rintro (h | ⟨r, h⟩) <;> cases h

/-- A record just made is paced once the row holds its generation. -/
theorem Attempt.paced_new {generation : Int} (h : row.generation = generation) :
    (Attempt.new generation).Paced row where
  ahead := h.le
  drive := by
    intro g hg
    cases hg
  cancel := by
    intro g hg
    cases hg

/-- A cancel leaves the drive where it is. -/
theorem Attempt.drive_cancelStep (row : ScriptRow) (a : Attempt) (step : AttemptStep) :
    (a.cancelStep row step).2.drive = a.drive := by
  cases step with
  | cancel =>
    simp only [Attempt.cancelStep]
    split
    · rfl
    · split <;> rfl
  | cancelFenceLands ok | cancelSettle | cancelWrite ok =>
    simp only [Attempt.cancelStep]
    split <;> rfl
  | _ => rfl

/-- A move of the drive that settles nothing. -/
theorem Attempt.Tidy.move (h : a.Tidy) {a' : Attempt}
    (hcancelled : a'.record.cancelled = a.record.cancelled) (hcancel : a'.cancel = a.cancel)
    (hswept : ∀ state, a'.drive = .sweeping state → state.terminal = true)
    (hfinished : a'.drive = .finished ∨ (∃ r, a'.drive = .journaling r) →
      a'.record.state.terminal = true) : a'.Tidy where
  latched := by rw [hcancelled, hcancel, h.latched]
  swept := hswept
  finished := hfinished

/-- A step of the drive keeps a record tidy. -/
theorem Attempt.Tidy.driveStep (h : a.Tidy) (row : ScriptRow) (step : AttemptStep) :
    (a.driveStep row step).2.Tidy := by
  cases step with
  | spawn ok =>
    simp only [Attempt.driveStep]
    split
    · refine h.move rfl rfl ?_ ?_
      · intro state hsweep
        cases ok with
        | true => cases hsweep
        | false =>
          cases hsweep
          rfl
      · rintro (hno | ⟨r, hno⟩) <;> cases ok <;> cases hno
    · exact h
  | exit rc0 =>
    simp only [Attempt.driveStep]
    split
    · unfold Attempt.onExit
      split
      · refine h.move rfl rfl ?_ ?_
        · intro state hsweep
          cases hsweep
          rfl
        · rintro (hno | ⟨r, hno⟩) <;> cases hno
      · split
        · refine h.move rfl rfl ?_ (fun _ => rfl)
          intro state hno
          cases hno
        · refine h.move rfl rfl ?_ ?_
          · intro state hsweep
            cases hsweep
            rfl
          · rintro (hno | ⟨r, hno⟩) <;> cases hno
    · exact h
  | timeout | reaped | fenceLands ok =>
    simp only [Attempt.driveStep]
    split
    · refine h.move rfl rfl ?_ ?_
      · intro state hno
        cases hno
      · rintro (hno | ⟨r, hno⟩) <;> cases hno
    · exact h
  | swept =>
    simp only [Attempt.driveStep]
    split
    · next state hdrive =>
      refine h.move rfl rfl ?_ (fun _ => h.swept state hdrive)
      intro other hno
      cases hno
    · exact h
  | fenced =>
    simp only [Attempt.driveStep]
    split
    · refine h.move rfl rfl ?_ (fun _ => rfl)
      intro other hno
      cases hno
    · exact h
  | journalRead | journalWrite ok =>
    simp only [Attempt.driveStep]
    split
    · next hdrive =>
      refine h.move rfl rfl ?_ (fun _ => h.finished (.inr ⟨_, hdrive⟩))
      intro other hno
      cases hno
    · exact h
  | _ => exact h

/-- A step of a cancel keeps a record tidy. -/
theorem Attempt.Tidy.cancelStep (h : a.Tidy) (row : ScriptRow) (step : AttemptStep) :
    (a.cancelStep row step).2.Tidy := by
  cases step with
  | cancel =>
    simp only [Attempt.cancelStep]
    split
    · exact h
    · split
      · exact h
      · exact ⟨rfl, h.swept, h.finished⟩
  | cancelSettle =>
    simp only [Attempt.cancelStep]
    split
    · next hcancel =>
      refine ⟨?_, h.swept, fun _ => rfl⟩
      rw [h.latched, hcancel]
      rfl
    · exact h
  | cancelFenceLands ok | cancelWrite ok =>
    simp only [Attempt.cancelStep]
    split
    · next hcancel =>
      refine ⟨?_, h.swept, h.finished⟩
      rw [h.latched, hcancel]
      rfl
    · exact h
  | _ => exact h

/-- Every step keeps a record tidy. -/
theorem Attempt.Tidy.exec (h : a.Tidy) (row : ScriptRow) (step : AttemptStep) :
    (a.exec row step).2.Tidy := by
  unfold Attempt.exec
  split
  · exact h.cancelStep row step
  · exact h.driveStep row step

/-- A move that neither bumps nor lands a persist. -/
theorem Attempt.Paced.move (h : a.Paced row) {a' : Attempt}
    (hrow : row'.generation = row.generation)
    (hrecord : a'.record.generation = a.record.generation) (hcancel : a'.cancel = a.cancel)
    (hdrive : ∀ g, a'.drive = .fencing (some g) → a.drive = .fencing (some g))
    (hearly : a'.drive.early = true → a.drive.early = true) : a'.Paced row' where
  ahead := by
    rw [hrow, hrecord]
    exact h.ahead
  drive := by
    intro g hg
    rw [hrecord, hcancel]
    exact h.drive g (hdrive g hg)
  cancel := by
    intro g hg
    rw [hcancel] at hg
    obtain ⟨hle, hone, hlast⟩ := h.cancel g hg
    rw [hrecord]
    exact ⟨hle, hone, fun he => hlast (hearly he)⟩

/-- A step of a paced record: it stays paced when its persists land in order, and neither the
row nor the record goes back. -/
structure Attempt.Moves (row : ScriptRow) (a : Attempt) (row' : ScriptRow) (a' : Attempt) :
    Prop where
  paced : a'.Paced row'
  row : row.generation ≤ row'.generation
  record : a.record.generation ≤ a'.record.generation

/-- A step that neither bumps nor lands a persist keeps the pace. -/
theorem Attempt.Paced.stay (h : a.Paced row) {a' : Attempt}
    (hrow : row'.generation = row.generation)
    (hrecord : a'.record.generation = a.record.generation) (hcancel : a'.cancel = a.cancel)
    (hdrive : ∀ g, a'.drive = .fencing (some g) → a.drive = .fencing (some g))
    (hearly : a'.drive.early = true → a.drive.early = true) : Attempt.Moves row a row' a' :=
  ⟨h.move hrow hrecord hcancel hdrive hearly, hrow.ge, hrecord.ge⟩

/-- The drive moves on to a point past its timeout's bump. -/
theorem Attempt.Paced.stay_late (h : a.Paced row) {a' : Attempt}
    (hrow : row'.generation = row.generation)
    (hrecord : a'.record.generation = a.record.generation) (hcancel : a'.cancel = a.cancel)
    (hdrive : ∀ g, a'.drive ≠ .fencing (some g)) (hearly : a'.drive.early = false) :
    Attempt.Moves row a row' a' := by
  refine h.stay hrow hrecord hcancel (fun g hg => absurd hg (hdrive g)) fun he => ?_
  exact absurd (hearly.symm.trans he) (by decide)

/-- A persist that lands in order does not take the row back. -/
theorem Attempt.Paced.le_of_lastPersisted (h : a.Paced row) {g : Int}
    (hone : a.record.generation ≤ g + 1) (hlast : a.LastPersisted row g) : row.generation ≤ g := by
  have hahead := h.ahead
  obtain hrecord | hrow := hlast
  · exact hahead.trans hrecord.le
  · omega

/-- The bump of a timeout. -/
theorem Attempt.Paced.reaped (h : a.Paced row) (hdrive : a.drive = .reaping) :
    Attempt.Moves row a row { a with
      record := { a.record with generation := bump a.record.generation }
      drive := .fencing (some (bump a.record.generation)) } := by
  have hlt : a.record.generation < bump a.record.generation := Int.lt_succ _
  refine ⟨⟨h.ahead.trans hlt.le, ?_, ?_⟩, le_rfl, hlt.le⟩
  · intro g hg
    cases DrivePoint.fencing.inj hg
    exact ⟨le_rfl, (Int.lt_succ _).le, fun _ => rfl⟩
  · intro g hg
    obtain ⟨hle, -, hlast⟩ := h.cancel g hg
    obtain rfl := hlast (by rw [hdrive]; rfl)
    exact ⟨hlt.le, le_rfl, fun he => by cases he⟩

/-- The persist of a timeout's bump. -/
theorem Attempt.Paced.fenceLands (h : a.Paced row) {g : Int} (hdrive : a.drive = .fencing (some g))
    (hlast : a.LastPersisted row g) :
    Attempt.Moves row a (updateRunGeneration row g) { a with drive := .fencing none } := by
  obtain ⟨hle, hone, -⟩ := h.drive g hdrive
  refine ⟨⟨hle, ?_, ?_⟩, h.le_of_lastPersisted hone hlast, le_rfl⟩
  · intro g' hg'
    cases hg'
  · intro g' hg'
    obtain ⟨hle', hone', -⟩ := h.cancel g' hg'
    exact ⟨hle', hone', fun he => by cases he⟩

/-- A step of the drive keeps the pace. -/
theorem Attempt.Paced.driveStep (h : a.Paced row) (hstep : a.InOrder row step) :
    Attempt.Moves row a (a.driveStep row step).1 (a.driveStep row step).2 := by
  have hsame : Attempt.Moves row a row a := h.stay rfl rfl rfl (fun _ => id) id
  cases step with
  | spawn ok =>
    simp only [Attempt.driveStep]
    split
    · next hdrive =>
      refine h.stay rfl rfl rfl ?_ fun _ => by rw [hdrive]; rfl
      intro g hg
      cases ok <;> cases hg
    · exact hsame
  | exit rc0 =>
    simp only [Attempt.driveStep]
    split
    · unfold Attempt.onExit
      split
      · exact h.stay_late rfl rfl rfl (fun g hg => by cases hg) rfl
      · split <;> exact h.stay_late rfl rfl rfl (fun g hg => by cases hg) rfl
    · exact hsame
  | timeout =>
    simp only [Attempt.driveStep]
    split
    · next hdrive =>
      exact h.stay rfl rfl rfl (fun g hg => by cases hg) fun _ => by rw [hdrive]; rfl
    · exact hsame
  | swept | fenced | journalRead =>
    simp only [Attempt.driveStep]
    split
    · exact h.stay_late rfl rfl rfl (fun g hg => by cases hg) rfl
    · exact hsame
  | journalWrite ok =>
    simp only [Attempt.driveStep]
    split
    · exact h.stay_late (by cases ok <;> rfl) rfl rfl (fun g hg => by cases hg) rfl
    · exact hsame
  | reaped =>
    simp only [Attempt.driveStep]
    split
    · next hdrive => exact h.reaped hdrive
    · exact hsame
  | fenceLands ok =>
    simp only [Attempt.driveStep]
    split
    · next g hdrive =>
      cases ok with
      | false => exact h.stay_late rfl rfl rfl (fun g hg => by cases hg) rfl
      | true => exact h.fenceLands hdrive (hstep rfl g hdrive)
    · exact hsame
  | cancel | cancelFenceLands _ | cancelSettle | cancelWrite _ => exact hsame

/-- The bump of a cancel, the first of its record. -/
theorem Attempt.Paced.cancelBumps (h : a.Paced row) (hidle : a.cancel = .idle) :
    Attempt.Moves row a row { a with
      record := { a.record with cancelled := true, generation := bump a.record.generation }
      cancel := .fencing (bump a.record.generation) } := by
  have hlt : a.record.generation < bump a.record.generation := Int.lt_succ _
  refine ⟨⟨h.ahead.trans hlt.le, ?_, ?_⟩, le_rfl, hlt.le⟩
  · intro g hg
    obtain ⟨-, -, hlast⟩ := h.drive g hg
    obtain rfl := hlast hidle
    exact ⟨hlt.le, le_rfl, fun hno => by cases hno⟩
  · intro g hg
    cases hg
    exact ⟨le_rfl, (Int.lt_succ _).le, fun _ => rfl⟩

/-- A cancel moves past its persist. -/
theorem Attempt.Paced.past_fence (h : a.Paced row) (hrow : row'.generation ≤ a.record.generation)
    {record : ScriptRecord} (hrecord : record.generation = a.record.generation)
    {point : CancelPoint} (hidle : point ≠ .idle) (hpoint : ∀ g, point ≠ .fencing g) :
    Attempt.Paced row' { a with record, cancel := point } := by
  refine ⟨hrow.trans hrecord.ge, ?_, fun g hg => absurd hg (hpoint g)⟩
  intro g hg
  obtain ⟨hle, hone, -⟩ := h.drive g hg
  exact ⟨hle.trans hrecord.ge, hrecord.le.trans hone, fun hno => absurd hno hidle⟩

/-- A step of a cancel keeps the pace. -/
theorem Attempt.Paced.cancelStep (h : a.Paced row) (ht : a.Tidy) (hstep : a.InOrder row step) :
    Attempt.Moves row a (a.cancelStep row step).1 (a.cancelStep row step).2 := by
  have hsame : Attempt.Moves row a row a := h.stay rfl rfl rfl (fun _ => id) id
  cases step with
  | cancel =>
    simp only [Attempt.cancelStep]
    split
    · exact hsame
    · split
      · exact hsame
      · next hfirst =>
        rw [Bool.not_eq_true, ht.latched, decide_eq_false_iff_not, not_not] at hfirst
        exact h.cancelBumps hfirst
  | cancelFenceLands ok =>
    simp only [Attempt.cancelStep]
    split
    · next g hcancel =>
      obtain ⟨hle, hone, -⟩ := h.cancel g hcancel
      cases ok with
      | false => exact ⟨h.past_fence h.ahead rfl (by simp) (by simp), le_rfl, le_rfl⟩
      | true =>
        exact ⟨h.past_fence (show (updateRunGeneration row g).generation ≤ _ from hle) rfl (by simp) (by simp),
          h.le_of_lastPersisted hone (hstep rfl g hcancel), le_rfl⟩
    · exact hsame
  | cancelSettle =>
    simp only [Attempt.cancelStep]
    split
    · refine ⟨?_, le_rfl, le_rfl⟩
      exact h.past_fence h.ahead (by rfl) (by simp) (by simp)
    · exact hsame
  | cancelWrite ok =>
    simp only [Attempt.cancelStep]
    split
    · have hrow : (if ok then { row with state := .cancelled } else row).generation =
          row.generation := by cases ok <;> rfl
      exact ⟨h.past_fence (hrow.le.trans h.ahead) rfl (by simp) (by simp), hrow.ge, le_rfl⟩
    · exact hsame
  | _ => exact hsame

/-- A step of a record whose persists land in order keeps the pace. -/
theorem Attempt.Paced.exec (h : a.Paced row) (ht : a.Tidy) (hstep : a.InOrder row step) :
    Attempt.Moves row a (a.exec row step).1 (a.exec row step).2 := by
  unfold Attempt.exec
  split
  · exact h.cancelStep ht hstep
  · exact h.driveStep hstep

/-- A record whose drive is over and that has no persist in flight keeps the row's generation,
whatever is asked of it. -/
theorem Attempt.exec_of_quiet (ht : a.Tidy) (hdrive : a.drive = .finished)
    (hquiet : ¬ a.Pending) (row : ScriptRow) (step : AttemptStep) :
    (a.exec row step).1.generation = row.generation ∧ ¬ (a.exec row step).2.Pending := by
  have hcancel : ∀ g, a.cancel ≠ .fencing g := fun g hg => hquiet (.inr ⟨g, hg⟩)
  have hterminal := ht.finished (.inl hdrive)
  cases step with
  | cancel =>
    simp only [Attempt.exec, AttemptStep.ofCancel, Attempt.cancelStep, if_true, hterminal]
    exact ⟨trivial, hquiet⟩
  | cancelFenceLands ok =>
    simp only [Attempt.exec, AttemptStep.ofCancel, Attempt.cancelStep, if_true]
    exact ⟨trivial, hquiet⟩
  | cancelSettle | cancelWrite ok =>
    simp only [Attempt.exec, AttemptStep.ofCancel, Attempt.cancelStep, if_true]
    split
    · refine ⟨by first | rfl | (cases ok <;> rfl), ?_⟩
      rintro (⟨g, hg⟩ | ⟨g, hg⟩)
      · rw [hdrive] at hg
        cases hg
      · cases hg
    · exact ⟨rfl, hquiet⟩
  | _ =>
    simp only [Attempt.exec, AttemptStep.ofCancel, Attempt.driveStep, Bool.false_eq_true, if_false,
      hdrive]
    exact ⟨trivial, hquiet⟩

/-- The drive of a record that is over stays so. -/
theorem Attempt.drive_exec_of_finished (hdrive : a.drive = .finished) (row : ScriptRow)
    (step : AttemptStep) : (a.exec row step).2.drive = .finished := by
  unfold Attempt.exec
  split
  · rw [Attempt.drive_cancelStep, hdrive]
  · cases step <;> simp [Attempt.driveStep, hdrive]

/-- Nothing leads back to the spawn. -/
theorem Attempt.spawning_of_exec (row : ScriptRow)
    (h : (a.exec row step).2.drive = .spawning) : a.drive = .spawning := by
  unfold Attempt.exec at h
  split at h
  · rwa [Attempt.drive_cancelStep] at h
  · cases step with
    | exit rc0 =>
      simp only [Attempt.driveStep] at h
      split at h
      · next hdrive =>
        unfold Attempt.onExit at h
        split at h
        · cases h
        · split at h <;> cases h
      · exact h
    | spawn ok =>
      simp only [Attempt.driveStep] at h
      split at h
      · next hdrive => exact hdrive
      · exact h
    | cancel | cancelFenceLands _ | cancelSettle | cancelWrite _ => exact h
    | _ =>
      simp only [Attempt.driveStep] at h
      split at h
      · cases h
      · exact h

/-! ## All calls on the run -/

/-- The call holds the mark in `_active_drives`. -/
def ResumePoint.claimed : ResumePoint → Bool
  | .gated _ | .fencing _ | .fenced _ | .raised => true
  | .holding .ended _ => false
  | .holding _ _ => true
  | _ => false

/-- The call may still change the generation of the row without another bump of a resume. -/
def ResumePoint.Engaged : ResumePoint → Prop
  | .fencing _ | .fenced _ => True
  | .holding .ended a => a.Pending
  | .holding _ _ => True
  | _ => False

/-- What holds at each point of a call, of the row's generation and the processes so far. -/
def ResumePoint.Ok (row : ScriptRow) (spawned : List Int) : ResumePoint → Prop
  | .fencing g => row.generation < g ∧ ∀ p ∈ spawned, p < g
  | .fenced g => row.generation = g ∧ ∀ p ∈ spawned, p < g
  | .holding .reopening a => a.Tidy ∧ a.Paced row ∧ a.drive = .spawning ∧
      ∀ p ∈ spawned, p < row.generation
  | .holding (.driving env) a => a.Tidy ∧ a.Paced row ∧ (a.drive = .spawning →
      env ≤ row.generation ∧ ∀ p ∈ spawned, p < env ∧ p < row.generation)
  | .holding .ended a => a.Tidy ∧ a.drive = .finished ∧ (a.Pending → a.Paced row)
  | _ => True

/-- A call that is not engaged does not look at the row or the processes. -/
theorem ResumePoint.Ok.of_not_engaged {spawned spawned' : List Int} {p : ResumePoint}
    (h : p.Ok row spawned) (hp : ¬ p.Engaged) : p.Ok row' spawned' := by
  cases p with
  | fencing | fenced => exact absurd trivial hp
  | holding stage a =>
    cases stage with
    | reopening | driving => exact absurd trivial hp
    | ended => exact ⟨h.1, h.2.1, fun hpending => absurd hpending hp⟩
  | _ => trivial

/-- A point does not look at the state of the row. -/
theorem ResumePoint.Ok.of_generation {spawned : List Int} {p : ResumePoint}
    (h : p.Ok row spawned) (hrow : row'.generation = row.generation) : p.Ok row' spawned := by
  have hpaced : ∀ a : Attempt, a.Paced row → a.Paced row' := fun a ha =>
    ha.move hrow rfl rfl (fun _ => id) id
  cases p with
  | fencing | fenced =>
    rw [ResumePoint.Ok, hrow]
    exact h
  | holding stage a =>
    cases stage with
    | reopening | driving =>
      rw [ResumePoint.Ok, hrow]
      exact ⟨h.1, hpaced a h.2.1, h.2.2⟩
    | ended => exact ⟨h.1, h.2.1, fun hpending => hpaced a (h.2.2 hpending)⟩
  | _ => trivial

/-- The row is ahead of every process but the last. -/
def FenceHolds (row : ScriptRow) (spawned : List Int) : Prop :=
  ∀ earlier p later, spawned = earlier ++ p :: later → later ≠ [] → p < row.generation

/-- One call at a time holds the claim, one at a time may move the generation, and the
processes carry ascending generations that the row has passed. -/
structure ScriptRuns.Fenced (s : ScriptRuns) : Prop where
  held : ∀ i, (s.calls i).claimed = true → s.active = true
  only : ∀ i j, (s.calls i).claimed = true → (s.calls j).claimed = true → i = j
  one : ∀ i j, (s.calls i).Engaged → (s.calls j).Engaged → i = j
  calls : ∀ i, (s.calls i).Ok s.row s.spawned
  increasing : s.spawned.Pairwise (· < ·)
  below : ∀ p ∈ s.spawned, p ≤ s.row.generation
  fence : FenceHolds s.row s.spawned

/-- The condition on a step: a resume bumps the row as it stands, with no persist of another
bump in flight; it takes the generation for its process while the row holds it, so that a cancel
of the record it has just registered has been persisted; and the persists of a record land in
order. -/
def BumpsInOrder (s : ScriptRuns) : RunStep → Prop
  | .bump i => ∀ row, s.calls i = .gated row → row.generation = s.row.generation ∧
      ∀ j stage a, s.calls j = .holding stage a → ¬ a.Pending
  | .reopen i _ => ∀ a, s.calls i = .holding .reopening a →
      a.record.generation = s.row.generation
  | .attempt i step => ∀ stage a, s.calls i = .holding stage a → a.InOrder s.row step
  | _ => True

/-- A row ahead of every process so far is ahead of all but one that is spawned. -/
theorem FenceHolds.concat {spawned : List Int} {env : Int}
    (h : ∀ p ∈ spawned, p < row.generation) : FenceHolds row (spawned ++ [env]) := by
  intro earlier p later heq hlater
  obtain ⟨before, last, rfl⟩ := (List.eq_nil_or_concat later).resolve_left hlater
  rw [List.concat_eq_append, ← List.cons_append, ← List.append_assoc] at heq
  obtain ⟨rfl, -⟩ := List.append_inj' heq rfl
  exact h p (by simp)

/-- What at most one place has, at most one place has after a change that does not bring it
to a second. -/
theorem unique_update {β : Type} {P : β → Prop} {c : Nat → β} {i : Nat} {p : β}
    (h : ∀ j k, P (c j) → P (c k) → j = k) (hp : P p → P (c i) ∨ ∀ j, ¬ P (c j)) (j k : Nat)
    (hj : P (Function.update c i p j)) (hk : P (Function.update c i p k)) : j = k := by
  have hother : ∀ l, l ≠ i → P p → P (c l) → False := by
    intro l hl hpl hcl
    obtain hi | hnone := hp hpl
    · exact hl (h l i hcl hi)
    · exact hnone l hcl
  by_cases hji : j = i
  · subst hji
    by_cases hki : k = j
    · exact hki.symm
    · rw [Function.update_self] at hj
      rw [Function.update_of_ne hki] at hk
      exact (hother k hki hj hk).elim
  · rw [Function.update_of_ne hji] at hj
    by_cases hki : k = i
    · subst hki
      rw [Function.update_self] at hk
      exact (hother j hji hk hj).elim
    · rw [Function.update_of_ne hki] at hk
      exact h j k hj hk

variable {s : ScriptRuns} {i : Nat}

/-- The fence holds behind a step, and the generation of the row has not gone back. -/
structure ScriptRuns.Advances (s s' : ScriptRuns) : Prop where
  fenced : s'.Fenced
  row : s.row.generation ≤ s'.row.generation

theorem ScriptRuns.Fenced.stay (h : s.Fenced) : s.Advances s := ⟨h, le_rfl⟩

/-- A call moves to another point. What the row and the processes become must suit it, and, for
the others, they change only while none of them is engaged. -/
theorem ScriptRuns.Fenced.put (h : s.Fenced) {p : ResumePoint} {active : Bool}
    {registered : Option Nat} {spawned : List Int}
    (hok : p.Ok row' spawned)
    (hactive : ∀ j, (Function.update s.calls i p j).claimed = true → active = true)
    (hclaimed : p.claimed = true → (s.calls i).claimed = true ∨ s.active = false)
    (hengaged : p.Engaged → (s.calls i).Engaged ∨ ∀ j, ¬ (s.calls j).Engaged)
    (hothers : (s.calls i).Engaged ∨ row'.generation = s.row.generation ∧ spawned = s.spawned)
    (hincreasing : spawned.Pairwise (· < ·)) (hbelow : ∀ q ∈ spawned, q ≤ row'.generation)
    (hfence : FenceHolds row' spawned) :
    ScriptRuns.Fenced ⟨row', Function.update s.calls i p, registered, active, spawned⟩ where
  held := hactive
  only := by
    refine unique_update (P := fun q : ResumePoint => q.claimed = true) h.only fun hp => ?_
    obtain hi | hfree := hclaimed hp
    · exact .inl hi
    · refine .inr fun j hj => ?_
      rw [h.held j hj] at hfree
      cases hfree
  one := unique_update h.one hengaged
  calls := by
    intro j
    dsimp only
    by_cases hji : j = i
    · subst hji
      rw [Function.update_self]
      exact hok
    · rw [Function.update_of_ne hji]
      obtain hi | ⟨hrow, hspawned⟩ := hothers
      · exact (h.calls j).of_not_engaged fun hj => hji (h.one j i hj hi)
      · rw [hspawned]
        exact (h.calls j).of_generation hrow
  increasing := hincreasing
  below := hbelow
  fence := hfence

/-- What holds at the point a call is at. -/
theorem ScriptRuns.Fenced.ok (h : s.Fenced) {p : ResumePoint} (hcall : s.calls i = p) :
    p.Ok s.row s.spawned := hcall ▸ h.calls i

/-- The mark stands for a claim that a call keeps. -/
theorem ScriptRuns.Fenced.active_of (h : s.Fenced) {p : ResumePoint}
    (hp : p.claimed = true → (s.calls i).claimed = true) (j : Nat)
    (hj : (Function.update s.calls i p j).claimed = true) : s.active = true := by
  by_cases hji : j = i
  · subst hji
    rw [Function.update_self] at hj
    exact h.held j (hp hj)
  · rw [Function.update_of_ne hji] at hj
    exact h.held j hj

/-- A call moves while the row goes on and no process is spawned. -/
theorem ScriptRuns.Fenced.put_row (h : s.Fenced) {p : ResumePoint} {registered : Option Nat}
    (hok : p.Ok row' s.spawned)
    (hclaimed : p.claimed = true → (s.calls i).claimed = true)
    (hengaged : p.Engaged → (s.calls i).Engaged)
    (hothers : (s.calls i).Engaged ∨ row'.generation = s.row.generation)
    (hrow : s.row.generation ≤ row'.generation) :
    s.Advances ⟨row', Function.update s.calls i p, registered, s.active, s.spawned⟩ where
  fenced := h.put hok (h.active_of hclaimed) (fun hp => .inl (hclaimed hp))
    (fun hp => .inl (hengaged hp)) (hothers.imp_right fun heq => ⟨heq, rfl⟩) h.increasing
    (fun q hq => (h.below q hq).trans hrow)
    fun earlier q later heq hlater => (h.fence earlier q later heq hlater).trans_le hrow
  row := hrow

/-- A call that is engaged inside its claim moves on. -/
theorem ScriptRuns.Fenced.put_engaged (h : s.Fenced) {p p' : ResumePoint}
    {registered : Option Nat} (hcall : s.calls i = p) (hclaimed : p.claimed = true)
    (hengaged : p.Engaged) (hok : p'.Ok row' s.spawned)
    (hrow : s.row.generation ≤ row'.generation) :
    s.Advances ⟨row', Function.update s.calls i p', registered, s.active, s.spawned⟩ := by
  subst hcall
  exact h.put_row hok (fun _ => hclaimed) (fun _ => hengaged) (.inl hengaged) hrow

/-- A call moves and nothing else does. -/
theorem ScriptRuns.Fenced.put_point (h : s.Fenced) {p : ResumePoint} (hok : p.Ok s.row s.spawned)
    (hclaimed : p.claimed = true → (s.calls i).claimed = true)
    (hengaged : p.Engaged → (s.calls i).Engaged ∨ ∀ j, ¬ (s.calls j).Engaged) :
    s.Advances (s.put i p) where
  fenced := h.put hok (h.active_of hclaimed) (fun hp => .inl (hclaimed hp)) hengaged
    (.inr ⟨rfl, rfl⟩) h.increasing h.below h.fence
  row := le_rfl

/-- The last call with the claim gives it up. -/
theorem ScriptRuns.Fenced.unclaim (h : s.Fenced) (hi : (s.calls i).claimed = true)
    {p : ResumePoint} (hok : p.Ok s.row s.spawned) (hp : p.claimed = false)
    (hengaged : p.Engaged → (s.calls i).Engaged) :
    s.Advances { s.put i p with active := false } := by
  refine ⟨h.put hok ?_ (fun hno => ?_) (fun he => .inl (hengaged he)) (.inr ⟨rfl, rfl⟩)
    h.increasing h.below h.fence, le_rfl⟩
  · intro j hj
    by_cases hji : j = i
    · subst hji
      rw [Function.update_self, hp] at hj
      cases hj
    · rw [Function.update_of_ne hji] at hj
      exact absurd (h.only j i hj hi) hji
  · rw [hp] at hno
    cases hno

/-! ## One lemma per step -/

/-- A call passes its gates: it takes the claim that nobody holds. -/
theorem ScriptRuns.Fenced.gate (h : s.Fenced) (i : Nat) : s.Advances (s.exec (.gate i)) := by
  simp only [ScriptRuns.exec]
  split
  · split
    · exact h.put_point trivial (fun hno => by cases hno) fun hno => hno.elim
    · next hfree =>
      split
      · exact h.put_point trivial (fun hno => by cases hno) fun hno => hno.elim
      · exact ⟨h.put trivial (fun _ _ => rfl) (fun _ => .inr (by simpa using hfree))
          (fun hno => hno.elim) (.inr ⟨rfl, rfl⟩) h.increasing h.below h.fence, le_rfl⟩
  · exact h.stay

/-- While a call has just passed its gates and no persist is in flight, none is engaged. -/
theorem ScriptRuns.Fenced.none_engaged (h : s.Fenced) {row : ScriptRow}
    (hcall : s.calls i = .gated row)
    (hquiet : ∀ j stage a, s.calls j = .holding stage a → ¬ a.Pending) (j : Nat) :
    ¬ (s.calls j).Engaged := by
  intro hj
  have hne : j ≠ i := by
    rintro rfl
    rw [hcall] at hj
    exact hj
  have hfree : (s.calls j).claimed = false := by
    rw [Bool.eq_false_iff]
    exact fun hc => hne (h.only j i hc (by rw [hcall]; rfl))
  cases hpoint : s.calls j with
  | holding stage a =>
    rw [hpoint] at hj hfree
    cases stage with
    | ended => exact hquiet j .ended a hpoint hj
    | reopening | driving env => cases hfree
  | fencing g | fenced g =>
    rw [hpoint] at hfree
    cases hfree
  | idle | reading | read _ | gated _ | raised | ended =>
    rw [hpoint] at hj
    exact hj

/-- A resume bumps the row as it stands: its generation is ahead of the row and of every process. -/
theorem ScriptRuns.Fenced.bump (h : s.Fenced) (hstep : BumpsInOrder s (.bump i)) :
    s.Advances (s.exec (.bump i)) := by
  simp only [ScriptRuns.exec]
  split
  · next row hcall =>
    obtain ⟨hcurrent, hquiet⟩ := hstep row hcall
    have hlt : s.row.generation < Workflow.bump row.generation := by
      rw [← hcurrent]
      exact Int.lt_succ _
    exact h.put_point ⟨hlt, fun p hp => (h.below p hp).trans_lt hlt⟩ (fun _ => by rw [hcall]; rfl)
      fun _ => .inr (h.none_engaged hcall hquiet)
  · exact h.stay

/-- The persist of a resume's bump, which gives up the claim when it fails. -/
theorem ScriptRuns.Fenced.persist (h : s.Fenced) (i : Nat) (ok : Bool) :
    s.Advances (s.exec (.persist i ok)) := by
  simp only [ScriptRuns.exec]
  split
  · next g hcall =>
    have hok := h.ok hcall
    cases ok with
    | false => exact h.put_point trivial (fun _ => by rw [hcall]; rfl) fun hno => hno.elim
    | true =>
      have hahead : ResumePoint.Ok (updateRunGeneration s.row g) s.spawned (.fenced g) :=
        ⟨rfl, hok.2⟩
      exact h.put_engaged hcall rfl trivial hahead hok.1.le
  · exact h.stay

/-- The record of a resume is registered. -/
theorem ScriptRuns.Fenced.register (h : s.Fenced) (i : Nat) :
    s.Advances (s.exec (.register i)) := by
  simp only [ScriptRuns.exec]
  split
  · next g hcall =>
    have hok := h.ok hcall
    refine h.put_engaged hcall rfl trivial
      ⟨Attempt.tidy_new g, Attempt.paced_new hok.1, rfl, ?_⟩ le_rfl
    show ∀ p ∈ s.spawned, p < s.row.generation
    rw [hok.1]
    exact hok.2
  · exact h.stay

/-- The row is reopened, and the process is to carry the generation the row holds. -/
theorem ScriptRuns.Fenced.reopen (h : s.Fenced) {ok : Bool}
    (hstep : BumpsInOrder s (.reopen i ok)) : s.Advances (s.exec (.reopen i ok)) := by
  simp only [ScriptRuns.exec]
  split
  · next a hcall =>
    obtain ⟨htidy, hpaced, hdrive, hahead⟩ := h.ok hcall
    have hholds := hstep a hcall
    have hrow : (if ok then { s.row with state := .running } else s.row).generation =
        s.row.generation := by cases ok <;> rfl
    refine h.put_engaged hcall rfl trivial
      ⟨htidy, hpaced.move hrow rfl rfl (fun _ => id) id, ?_⟩ hrow.ge
    rw [hrow, hholds]
    exact fun _ => ⟨le_rfl, fun p hp => ⟨hahead p hp, hahead p hp⟩⟩
  · exact h.stay

/-- A call with a record lets go of its claim. -/
theorem ScriptRuns.Fenced.release (h : s.Fenced) (i : Nat) :
    s.Advances (s.exec (.release i)) := by
  simp only [ScriptRuns.exec]
  split
  · next env a hcall =>
    have hok := h.ok hcall
    split
    · next hdrive =>
      refine h.unclaim (by rw [hcall]; rfl) ⟨hok.1, hdrive, fun _ => hok.2.1⟩ rfl fun _ => ?_
      rw [hcall]
      trivial
    · exact h.stay
  · next hcall => exact h.unclaim (by rw [hcall]; rfl) trivial rfl fun hno => hno.elim
  · exact h.stay

/-- The spawn of a process, whose generation the row holds and is ahead of every other. -/
theorem ScriptRuns.Fenced.spawn (h : s.Fenced) {env : Int} {a : Attempt}
    (hcall : s.calls i = .holding (.driving env) a) (hdrive : a.drive = .spawning) :
    ScriptRuns.Fenced { s.put i (.holding (.driving env) { a with drive := .running }) with
      spawned := s.spawned ++ [env] } := by
  obtain ⟨htidy, hpaced, hahead⟩ := h.ok hcall
  obtain ⟨henv, hbelow⟩ := hahead hdrive
  have hclaimed : (s.calls i).claimed = true := by rw [hcall]; rfl
  have hengaged : (s.calls i).Engaged := by rw [hcall]; trivial
  refine h.put ⟨?_, ?_, ?_⟩ (h.active_of fun _ => hclaimed) (fun _ => .inl hclaimed)
    (fun _ => .inl hengaged) (.inl hengaged) ?_ ?_ (FenceHolds.concat fun p hp => (hbelow p hp).2)
  · exact htidy.move rfl rfl (fun state hno => by cases hno)
      (by rintro (hno | ⟨r, hno⟩) <;> cases hno)
  · exact hpaced.move rfl rfl rfl (fun g hg => by cases hg) fun _ => by rw [hdrive]; rfl
  · intro hno
    cases hno
  · rw [List.pairwise_append]
    refine ⟨h.increasing, List.pairwise_singleton .., ?_⟩
    intro p hp q hq
    rw [List.mem_singleton.mp hq]
    exact (hbelow p hp).1
  · intro p hp
    rw [List.mem_append, List.mem_singleton] at hp
    obtain hp | rfl := hp
    · exact h.below p hp
    · exact henv

/-- A step of the record of a call. -/
theorem ScriptRuns.Fenced.attempt (h : s.Fenced) {stage : Stage} {a : Attempt}
    (hcall : s.calls i = .holding stage a) {step : AttemptStep} (hstep : a.InOrder s.row step)
    (henabled : s.enabled i stage step = true) : s.Advances (s.exec (.attempt i step)) := by
  have hok := h.ok hcall
  simp only [ScriptRuns.exec, hcall]
  rw [if_pos henabled]
  cases stage with
  | reopening =>
    obtain ⟨htidy, hpaced, hdrive, hahead⟩ := hok
    have hmoves := hpaced.exec htidy hstep
    have hcancel : step.ofCancel = true := by
      cases step <;> first | rfl | exact henabled
    have hpoint : (a.exec s.row step).2.drive = .spawning := by
      unfold Attempt.exec
      rw [if_pos hcancel, Attempt.drive_cancelStep, hdrive]
    rw [show spawnedBy .reopening a step = [] from rfl, List.append_nil]
    exact h.put_engaged hcall rfl trivial
      ⟨htidy.exec _ _, hmoves.paced, hpoint, fun p hp => (hahead p hp).trans_le hmoves.row⟩
      hmoves.row
  | driving env =>
    obtain ⟨htidy, hpaced, hahead⟩ := hok
    have hmoves := hpaced.exec htidy hstep
    by_cases hspawn : a.drive = .spawning ∧ step = .spawn true
    · obtain ⟨hdrive, rfl⟩ := hspawn
      have hby : spawnedBy (.driving env) a (.spawn true) = [env] := by
        simp only [spawnedBy, hdrive]
      have hstepped : a.exec s.row (.spawn true) = (s.row, { a with drive := .running }) := by
        simp [Attempt.exec, AttemptStep.ofCancel, Attempt.driveStep, hdrive]
      rw [hby, hstepped]
      exact ⟨h.spawn hcall hdrive, le_rfl⟩
    · have hby : spawnedBy (.driving env) a step = [] := by
        unfold spawnedBy
        split
        · next hdrive => exact absurd ⟨hdrive, rfl⟩ hspawn
        · rfl
      rw [hby, List.append_nil]
      refine h.put_engaged hcall rfl trivial ⟨htidy.exec _ _, hmoves.paced, ?_⟩ hmoves.row
      intro hdrive
      obtain ⟨henv, hbelow⟩ := hahead (Attempt.spawning_of_exec s.row hdrive)
      exact ⟨henv.trans hmoves.row,
        fun p hp => ⟨(hbelow p hp).1, (hbelow p hp).2.trans_le hmoves.row⟩⟩
  | ended =>
    obtain ⟨htidy, hdrive, hpaced⟩ := hok
    rw [show spawnedBy .ended a step = [] from rfl, List.append_nil]
    have hpoint := Attempt.drive_exec_of_finished hdrive s.row step
    by_cases hpending : a.Pending
    · have hengaged : (s.calls i).Engaged := by rw [hcall]; exact hpending
      have hmoves := (hpaced hpending).exec htidy hstep
      exact h.put_row ⟨htidy.exec _ _, hpoint, fun _ => hmoves.paced⟩ (fun hno => by cases hno)
        (fun _ => hengaged) (.inl hengaged) hmoves.row
    · obtain ⟨hrow, hquiet⟩ := Attempt.exec_of_quiet htidy hdrive hpending s.row step
      exact h.put_row ⟨htidy.exec _ _, hpoint, fun hno => absurd hno hquiet⟩
        (fun hno => by cases hno) (fun hno => absurd hno hquiet) (.inr hrow) hrow.ge

/-- Every step that meets the condition keeps the fence. -/
theorem ScriptRuns.Fenced.exec (h : s.Fenced) {step : RunStep} (hstep : BumpsInOrder s step) :
    s.Advances (s.exec step) := by
  cases step with
  | resume i | readRow i =>
    simp only [ScriptRuns.exec]
    split
    · exact h.put_point trivial (fun hno => by cases hno) fun hno => hno.elim
    · exact h.stay
  | gate i => exact h.gate i
  | refuse i =>
    simp only [ScriptRuns.exec]
    split
    · next row hcall => exact h.put_point trivial (fun _ => by rw [hcall]; rfl) fun hno => hno.elim
    · exact h.stay
  | bump i => exact h.bump hstep
  | persist i ok => exact h.persist i ok
  | register i => exact h.register i
  | reopen i ok => exact h.reopen hstep
  | release i => exact h.release i
  | attempt i step =>
    cases hcall : s.calls i with
    | holding stage a =>
      by_cases henabled : s.enabled i stage step = true
      · exact h.attempt hcall (hstep stage a hcall) henabled
      · simp only [ScriptRuns.exec, hcall]
        rw [if_neg henabled]
        exact h.stay
    | _ =>
      simp only [ScriptRuns.exec, hcall]
      exact h.stay

/-! ## The fence -/

end CliAgentOrchestrator.Workflow
