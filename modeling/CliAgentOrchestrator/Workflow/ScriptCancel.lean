import CliAgentOrchestrator.Workflow.Script

/-!
# Where a cancelled script run ends

The drive and a cancel of the same record each settle it and write the journal. The arms for a
failed spawn, a timeout and a nonzero exit do not look at the cancel again, so the two agree on
CANCELLED exactly when the cancel does not meet one of these arms, nor a write the drive read
before it.
-/

set_option autoImplicit false

namespace CliAgentOrchestrator.Workflow

open Library

/-- One record with its row. -/
abbrev ScriptRun := ScriptRow × Attempt

def ScriptRun.exec (s : ScriptRun) (step : AttemptStep) : ScriptRun := s.2.exec s.1 step

/-- A record about to be spawned, its row running. -/
def ScriptRun.started (generation : Int) : ScriptRun :=
  ({ generation }, Attempt.new generation)

/-- The writes of the state go through; a persist of the generation may fail. -/
def AttemptStep.Journals : AttemptStep → Prop
  | .journalWrite ok => ok = true
  | .cancelWrite ok => ok = true
  | _ => True

/-- The drive and whatever cancel got past its checks have returned. -/
def Attempt.Over (a : Attempt) : Prop :=
  a.drive = .finished ∧ (a.cancel = .idle ∨ a.cancel = .finished)

/-- The record and the row agree, and on CANCELLED when a cancel got past its checks. -/
def ScriptRun.Settled (s : ScriptRun) : Prop :=
  s.2.record.state = s.1.state ∧ (s.2.record.cancelled = true → s.1.state = .cancelled)

/-! ## When a cancel meets the drive -/

/-- The cancel has settled the record. -/
def CancelPoint.settled : CancelPoint → Bool
  | .journaling | .finished => true
  | _ => false

/-- The drive has settled the record. -/
def DrivePoint.settled : DrivePoint → Bool
  | .journaling _ | .finished => true
  | _ => false

/-- The drive is in an arm that does not look at the cancel again: in the sweep after a failed
spawn or a nonzero exit, or in a timeout from the reaping to the end of its persist. -/
def DrivePoint.unguarded : DrivePoint → Bool
  | .sweeping state => state != .cancelled
  | .reaping | .fencing _ => true
  | _ => false

/-- The drive's write is in flight with a state other than CANCELLED. -/
def DrivePoint.stale : DrivePoint → Bool
  | .journaling (some state) => state != .cancelled
  | _ => false

/-- The drive enters such an arm without a look at the cancel: the spawn fails, or the wall-clock
bound is over. -/
def Attempt.turnsAway (a : Attempt) : AttemptStep → Bool
  | .spawn ok => !ok && a.drive == .spawning
  | .timeout => a.drive == .running
  | _ => false

/-- When a cancel may meet the drive: it settles the record while the drive is in no arm that does
not look at it again, its write lands while no write of an older state is in flight, and once it
has settled no spawn fails and no timeout fires. -/
def CancelInTime (s : ScriptRun) : AttemptStep → Prop
  | .cancelSettle => s.2.cancel = .stopping → s.2.drive.unguarded = false
  | .cancelWrite _ => s.2.cancel = .journaling → s.2.drive.stale = false
  | step => s.2.turnsAway step = true → s.2.cancel.settled = false

instance (s : ScriptRun) (step : AttemptStep) : Decidable (CancelInTime s step) := by
  cases step <;> unfold CancelInTime <;> infer_instance

/-! ## What every run keeps -/

/-- What holds of the two coroutines, the record and the row, whatever the order of steps. -/
structure ScriptRun.Coherent (s : ScriptRun) : Prop where
  latched : s.2.record.cancelled = decide (s.2.cancel ≠ .idle)
  undriven : s.2.drive.settled = false →
    s.2.record.state = if s.2.cancel.settled then .cancelled else .running
  swept : ∀ state, s.2.drive = .sweeping state → state.terminal = true
  driven : s.2.drive.settled = true → s.2.record.state.terminal = true
  read : ∀ state, s.2.drive = .journaling (some state) → s.2.cancel.settled = false →
    state = s.2.record.state
  row : s.2.drive ≠ .finished →
    s.1.state = if s.2.cancel = .finished then .cancelled else .running
  agreed : s.2.drive = .finished → s.2.cancel.settled = false → s.1.state = s.2.record.state

/-- The cancel is lost: it has settled, and the drive puts or has put another state over the
record or over the row. -/
def ScriptRun.Lost (s : ScriptRun) : Prop :=
  s.2.cancel.settled = true ∧
      (s.2.drive.unguarded = true ∨ s.2.drive.settled = true ∧ s.2.record.state ≠ .cancelled) ∨
    s.2.cancel = .finished ∧
      (s.2.drive.stale = true ∨ s.2.drive = .finished ∧ s.1.state ≠ .cancelled)

/-- A record about to be spawned is coherent. -/
theorem ScriptRun.coherent_started (generation : Int) : (ScriptRun.started generation).Coherent where
  latched := rfl
  undriven := fun _ => rfl
  swept := by
    intro state h
    cases h
  driven := by
    intro h
    cases h
  read := by
    intro state h
    cases h
  row := fun _ => rfl
  agreed := by
    intro h
    cases h

/-- A drive that has not settled has not finished. -/
theorem DrivePoint.ne_finished {d : DrivePoint} (h : d.settled = false) : d ≠ .finished := by
  rintro rfl
  cases h

/-- A drive that has not settled has no write in flight. -/
theorem DrivePoint.stale_of_unsettled {d : DrivePoint} (h : d.settled = false) :
    d.stale = false := by
  cases d with
  | journaling read => cases h
  | _ => rfl

variable {s s' : ScriptRun}

/-! ## The steps of the drive -/

/-- What a step of the drive does with the states of the record and the row: nothing, a move
before it has settled, the settle, the read of the record, or the write of the row. -/
inductive Drives (s : ScriptRun) (step : AttemptStep) : ScriptRun → Prop
  | stays (hstep : s.2.turnsAway step = false) : Drives s step s
  | moves (s' : ScriptRun) (hrow : s'.1.state = s.1.state)
      (hstate : s'.2.record.state = s.2.record.state)
      (hcancelled : s'.2.record.cancelled = s.2.record.cancelled)
      (hcancel : s'.2.cancel = s.2.cancel) (hold : s.2.drive.settled = false)
      (hnew : s'.2.drive.settled = false)
      (hswept : ∀ state, s'.2.drive = .sweeping state → state.terminal = true)
      (harm : s.2.cancel.settled = true →
        s'.2.drive.unguarded = (s.2.drive.unguarded || s.2.turnsAway step)) : Drives s step s'
  | settles (state : RunState) (hstep : s.2.turnsAway step = false)
      (hold : s.2.drive.settled = false) (hstate : state.terminal = true)
      (harm : s.2.cancel.settled = true → (state ≠ .cancelled ↔ s.2.drive.unguarded = true)) :
      Drives s step (s.1, s.2.finalize state)
  | reads (hstep : s.2.turnsAway step = false) (hdrive : s.2.drive = .journaling none) :
      Drives s step (s.1, { s.2 with drive := .journaling (some s.2.record.state) })
  | writes (state : RunState) (hstep : s.2.turnsAway step = false)
      (hdrive : s.2.drive = .journaling (some state)) :
      Drives s step ({ s.1 with state }, { s.2 with drive := .finished })

/-- The exit arms look at the cancel: a drive that finds one settled sweeps to CANCELLED. -/
theorem ScriptRun.Coherent.drives_onExit (h : s.Coherent) (hdrive : s.2.drive = .running)
    (rc0 : Bool) : Drives s (.exit rc0) (s.1, s.2.onExit rc0) := by
  have hold : s.2.drive.settled = false := by rw [hdrive]; rfl
  have hflag : s.2.cancel.settled = true →
      (s.2.record.cancelled || s.2.record.state == .cancelled) = true := by
    intro hsettled
    have hstate := h.undriven hold
    rw [if_pos hsettled] at hstate
    rw [hstate, beq_self_eq_true, Bool.or_true]
  unfold Attempt.onExit
  split
  · refine .moves _ rfl rfl rfl rfl hold rfl ?_ fun _ => by rw [hdrive]; rfl
    rintro state ⟨⟩
    rfl
  · next hunseen =>
    split
    · exact .settles .completed rfl hold rfl fun hsettled => absurd (hflag hsettled) hunseen
    · refine .moves _ rfl rfl rfl rfl hold rfl ?_ fun hsettled => absurd (hflag hsettled) hunseen
      rintro state ⟨⟩
      rfl

/-- Every step of the drive is one of these. -/
theorem ScriptRun.Coherent.drives (h : s.Coherent) {step : AttemptStep} (hstep : step.Journals)
    (hdrive : step.ofCancel = false) : Drives s step (s.exec step) := by
  simp only [ScriptRun.exec, Attempt.exec, hdrive, Bool.false_eq_true, if_false]
  cases step with
  | spawn ok =>
    simp only [Attempt.driveStep]
    split
    · next hpoint =>
      have hold : s.2.drive.settled = false := by rw [hpoint]; rfl
      refine .moves _ rfl rfl rfl rfl hold (by cases ok <;> rfl) ?_ ?_
      · intro state hsweep
        cases ok <;> cases hsweep
        rfl
      · intro _
        cases ok <;> simp [Attempt.turnsAway, hpoint, DrivePoint.unguarded]
    · next hpoint => exact .stays (by simpa [Attempt.turnsAway] using fun _ => hpoint)
  | exit rc0 =>
    simp only [Attempt.driveStep]
    split
    · next hpoint => exact h.drives_onExit hpoint rc0
    · exact .stays rfl
  | timeout =>
    simp only [Attempt.driveStep]
    split
    · next hpoint =>
      have hold : s.2.drive.settled = false := by rw [hpoint]; rfl
      refine .moves _ rfl rfl rfl rfl hold rfl ?_ ?_
      · rintro state ⟨⟩
      · intro _
        simp [Attempt.turnsAway, hpoint, DrivePoint.unguarded]
    · next hpoint => exact .stays (by simpa [Attempt.turnsAway] using hpoint)
  | swept =>
    simp only [Attempt.driveStep]
    split
    · next state hpoint =>
      refine .settles state rfl (by rw [hpoint]; rfl) (h.swept state hpoint) fun _ => ?_
      simp [hpoint, DrivePoint.unguarded]
    · exact .stays rfl
  | reaped =>
    simp only [Attempt.driveStep]
    split
    · next hpoint =>
      have hold : s.2.drive.settled = false := by rw [hpoint]; rfl
      refine .moves _ rfl rfl rfl rfl hold rfl ?_ fun _ => by rw [hpoint]; rfl
      rintro state ⟨⟩
    · exact .stays rfl
  | fenceLands ok =>
    simp only [Attempt.driveStep]
    split
    · next hpoint =>
      have hold : s.2.drive.settled = false := by rw [hpoint]; rfl
      refine .moves _ (by cases ok <;> rfl) rfl rfl rfl hold rfl ?_ fun _ => by rw [hpoint]; rfl
      rintro state ⟨⟩
    · exact .stays rfl
  | fenced =>
    simp only [Attempt.driveStep]
    split
    · next hpoint =>
      refine .settles .failed rfl (by rw [hpoint]; rfl) rfl fun _ => ?_
      simp [hpoint, DrivePoint.unguarded]
    · exact .stays rfl
  | journalRead =>
    simp only [Attempt.driveStep]
    split
    · next hpoint => exact .reads rfl hpoint
    · exact .stays rfl
  | journalWrite ok =>
    obtain rfl : ok = true := hstep
    simp only [Attempt.driveStep]
    split
    · next state hpoint => exact .writes state rfl hpoint
    · exact .stays rfl
  | cancel | cancelFenceLands _ | cancelSettle | cancelWrite _ => cases hdrive

/-- A step of the drive keeps the record and the row coherent. -/
theorem Drives.coherent {step : AttemptStep} (h : s.Coherent) (hdrives : Drives s step s') :
    s'.Coherent := by
  cases hdrives with
  | stays _ => exact h
  | moves _ hrow hstate hcancelled hcancel hold hnew hswept _ =>
    refine ⟨?_, ?_, hswept, ?_, ?_, ?_, ?_⟩
    · rw [hcancelled, hcancel, h.latched]
    · intro _
      rw [hstate, hcancel]
      exact h.undriven hold
    · intro hsettled
      exact absurd (hnew.symm.trans hsettled) (by decide)
    · intro state hread
      rw [hread] at hnew
      cases hnew
    · intro _
      rw [hrow, hcancel]
      exact h.row (DrivePoint.ne_finished hold)
    · exact fun hfinished => absurd hfinished (DrivePoint.ne_finished hnew)
  | settles state _ hold hterminal _ =>
    refine ⟨h.latched, ?_, ?_, fun _ => hterminal, ?_, ?_, ?_⟩
    · rintro ⟨⟩
    · rintro other ⟨⟩
    · rintro other ⟨⟩
    · exact fun _ => h.row (DrivePoint.ne_finished hold)
    · rintro ⟨⟩
  | reads _ hdrive =>
    refine ⟨h.latched, ?_, ?_, ?_, ?_, ?_, ?_⟩
    · rintro ⟨⟩
    · rintro other ⟨⟩
    · exact fun _ => h.driven (by rw [hdrive]; rfl)
    · rintro state ⟨⟩ _
      rfl
    · exact fun _ => h.row (by rw [hdrive]; simp)
    · rintro ⟨⟩
  | writes state _ hdrive =>
    refine ⟨h.latched, ?_, ?_, ?_, ?_, ?_, ?_⟩
    · rintro ⟨⟩
    · rintro other ⟨⟩
    · exact fun _ => h.driven (by rw [hdrive]; rfl)
    · rintro other ⟨⟩
    · exact fun hnot => absurd rfl hnot
    · exact fun _ => h.read state hdrive

/-- A step of the drive loses the cancel exactly when it enters an unguarded arm late. -/
theorem Drives.lost_iff {step : AttemptStep} (hdrives : Drives s step s') :
    s'.Lost ↔ s.Lost ∨ ¬ (s.2.turnsAway step = true → s.2.cancel.settled = false) := by
  cases hdrives with
  | stays hstep => simp [hstep]
  | moves _ hrow hstate hcancelled hcancel hold hnew hswept harm =>
    unfold ScriptRun.Lost
    rw [hcancel, hold, hnew, DrivePoint.stale_of_unsettled hold, DrivePoint.stale_of_unsettled hnew]
    simp only [DrivePoint.ne_finished hold, DrivePoint.ne_finished hnew]
    cases hsettled : s.2.cancel.settled with
    | false => simp
    | true => simp [harm hsettled]
  | settles state hstep hold hterminal harm =>
    unfold ScriptRun.Lost
    rw [hold, hstep, DrivePoint.stale_of_unsettled hold]
    simp only [DrivePoint.ne_finished hold, Attempt.finalize]
    cases hsettled : s.2.cancel.settled with
    | false => simp [DrivePoint.stale]
    | true =>
      have hjournaling : (DrivePoint.journaling none).unguarded = false := rfl
      simp [hjournaling, DrivePoint.settled, DrivePoint.stale, ← harm hsettled]
  | reads hstep hdrive =>
    have hfinished : s.2.cancel = .finished → s.2.cancel.settled = true := by
      intro hfinished
      rw [hfinished]
      rfl
    simp [ScriptRun.Lost, hstep, hdrive, DrivePoint.unguarded, DrivePoint.settled,
      DrivePoint.stale]
    tauto
  | writes state hstep hdrive =>
    simp [ScriptRun.Lost, hstep, hdrive, DrivePoint.unguarded, DrivePoint.settled,
      DrivePoint.stale]

/-! ## The steps of a cancel -/

/-- What a step of a cancel does: nothing, a move before it has settled, the settle of the
record, or the write of the row. -/
inductive Cancels (s : ScriptRun) (step : AttemptStep) : ScriptRun → Prop
  | stays (hstep : CancelInTime s step) : Cancels s step s
  | moves (s' : ScriptRun) (hstep : CancelInTime s step) (hrow : s'.1.state = s.1.state)
      (hstate : s'.2.record.state = s.2.record.state) (hdrive : s'.2.drive = s.2.drive)
      (hcancelled : s'.2.record.cancelled = true) (hopen : s'.2.cancel ≠ .idle)
      (hold : s.2.cancel.settled = false) (hnew : s'.2.cancel.settled = false) :
      Cancels s step s'
  | settles (hstep : step = .cancelSettle) (hcancel : s.2.cancel = .stopping) :
      Cancels s step (s.1, { s.2 with
        record := { s.2.record with state := .cancelled }, cancel := .journaling })
  | writes (hstep : step = .cancelWrite true) (hcancel : s.2.cancel = .journaling) :
      Cancels s step ({ s.1 with state := .cancelled }, { s.2 with cancel := .finished })

/-- Every step of a cancel is one of these. -/
theorem ScriptRun.Coherent.cancels (h : s.Coherent) {step : AttemptStep} (hstep : step.Journals)
    (hcancel : step.ofCancel = true) : Cancels s step (s.exec step) := by
  simp only [ScriptRun.exec, Attempt.exec, hcancel, if_true]
  have hlatched := h.latched
  cases step with
  | cancel =>
    have hintime : CancelInTime s .cancel := fun hno => absurd hno (by simp [Attempt.turnsAway])
    simp only [Attempt.cancelStep]
    split
    · exact .stays hintime
    · split
      · exact .stays hintime
      · next hfirst =>
        have hidle : s.2.cancel = .idle := by
          rw [Bool.not_eq_true, hlatched, decide_eq_false_iff_not, not_not] at hfirst
          exact hfirst
        refine .moves _ hintime rfl rfl rfl rfl ?_ ?_ rfl
        · rintro ⟨⟩
        · rw [hidle]
          rfl
  | cancelFenceLands ok =>
    have hintime : CancelInTime s (.cancelFenceLands ok) :=
      fun hno => absurd hno (by simp [Attempt.turnsAway])
    simp only [Attempt.cancelStep]
    split
    · next generation hpoint =>
      refine .moves _ hintime (by cases ok <;> rfl) rfl rfl ?_ ?_ ?_ rfl
      · rw [hlatched, hpoint]
        rfl
      · rintro ⟨⟩
      · rw [hpoint]
        rfl
    · exact .stays hintime
  | cancelSettle =>
    simp only [Attempt.cancelStep]
    split
    · next hpoint => exact .settles rfl hpoint
    · next hpoint => exact .stays fun hstopping => absurd hstopping hpoint
  | cancelWrite ok =>
    obtain rfl : ok = true := hstep
    simp only [Attempt.cancelStep]
    split
    · next hpoint => exact .writes rfl hpoint
    · next hpoint => exact .stays fun hjournaling => absurd hjournaling hpoint
  | _ => cases hcancel

/-- A cancel that has not settled has not finished. -/
theorem CancelPoint.ne_finished {c : CancelPoint} (h : c.settled = false) : c ≠ .finished := by
  rintro rfl
  cases h

/-- A step of a cancel keeps the record and the row coherent. -/
theorem Cancels.coherent {step : AttemptStep} (h : s.Coherent) (hcancels : Cancels s step s') :
    s'.Coherent := by
  cases hcancels with
  | stays _ => exact h
  | moves _ _ hrow hstate hdrive hcancelled hopen hold hnew =>
    have hsettled : s'.2.cancel.settled = s.2.cancel.settled := hnew.trans hold.symm
    refine ⟨by rw [hcancelled, decide_eq_true hopen], ?_, ?_, ?_, ?_, ?_, ?_⟩
    · rw [hdrive, hstate, hsettled]
      exact h.undriven
    · rw [hdrive]
      exact h.swept
    · rw [hdrive, hstate]
      exact h.driven
    · rw [hdrive, hstate, hsettled]
      exact h.read
    · simpa [hdrive, hrow, CancelPoint.ne_finished hnew, CancelPoint.ne_finished hold] using h.row
    · rw [hdrive, hstate, hrow, hsettled]
      exact h.agreed
  | settles _ hcancel =>
    have hlatched := h.latched
    rw [hcancel] at hlatched
    refine ⟨hlatched, fun _ => rfl, h.swept, fun _ => rfl, ?_, ?_, ?_⟩
    · rintro state _ ⟨⟩
    · intro hnot
      have hrow := h.row hnot
      rw [hcancel] at hrow
      exact hrow
    · rintro _ ⟨⟩
  | writes _ hcancel =>
    have hlatched := h.latched
    rw [hcancel] at hlatched
    refine ⟨hlatched, ?_, h.swept, h.driven, ?_, fun _ => rfl, ?_⟩
    · intro hnot
      have hstate := h.undriven hnot
      rw [hcancel] at hstate
      exact hstate
    · rintro state _ ⟨⟩
    · rintro _ ⟨⟩

/-- A step of a cancel loses it exactly when it comes out of time. -/
theorem Cancels.lost_iff {step : AttemptStep} (hcancels : Cancels s step s') :
    s'.Lost ↔ s.Lost ∨ ¬ CancelInTime s step := by
  cases hcancels with
  | stays hstep => simp [hstep]
  | moves _ hstep hrow hstate hdrive hcancelled hopen hold hnew =>
    simp [ScriptRun.Lost, hstep, hold, hnew, CancelPoint.ne_finished hold,
      CancelPoint.ne_finished hnew]
  | settles hstep hcancel | writes hstep hcancel =>
    subst hstep
    simp [ScriptRun.Lost, CancelInTime, hcancel, CancelPoint.settled]

/-! ## Whole runs -/

/-- Every step keeps the record and the row coherent. -/
theorem ScriptRun.Coherent.exec (h : s.Coherent) {step : AttemptStep} (hstep : step.Journals) :
    (s.exec step).Coherent := by
  cases hof : step.ofCancel with
  | false => exact (h.drives hstep hof).coherent h
  | true => exact (h.cancels hstep hof).coherent h

/-- A step loses the cancel exactly when it comes out of time. -/
theorem ScriptRun.Coherent.lost_exec_iff (h : s.Coherent) {step : AttemptStep}
    (hstep : step.Journals) : (s.exec step).Lost ↔ s.Lost ∨ ¬ CancelInTime s step := by
  cases hof : step.ofCancel with
  | true => exact (h.cancels hstep hof).lost_iff
  | false =>
    rw [(h.drives hstep hof).lost_iff]
    cases step with
    | cancel | cancelFenceLands _ | cancelSettle | cancelWrite _ => cases hof
    | _ => rfl

/-- A run loses its cancel exactly when one of its steps comes out of time. -/
theorem ScriptRun.Coherent.lost_run_iff (h : s.Coherent) {steps : List AttemptStep}
    (hsteps : ∀ step ∈ steps, step.Journals) :
    (run ScriptRun.exec s steps).Lost ↔
      s.Lost ∨ ¬ StepsSatisfy ScriptRun.exec CancelInTime s steps := by
  induction steps generalizing s with
  | nil => simp [StepsSatisfy]
  | cons step rest ih =>
    have hstep := hsteps step (by simp)
    rw [run_cons, ih (h.exec hstep) fun later hmem => hsteps later (by simp [hmem]),
      h.lost_exec_iff hstep, StepsSatisfy, not_and_or, or_assoc]

/-- A run whose writes go through keeps the record and the row coherent. -/
theorem ScriptRun.Coherent.run (hs : s.Coherent) {steps : List AttemptStep}
    (hsteps : ∀ step ∈ steps, step.Journals) : (run ScriptRun.exec s steps).Coherent :=
  run_invariant_of (fun _ step => AttemptStep.Journals step) ScriptRun.Coherent
    (fun _ _ hstep hs => hs.exec hstep) s hs steps
    (stepsSatisfy_of_forall _ s steps fun step hmem _ => hsteps step hmem)

/-- Once both coroutines are over, the two agree unless the cancel is lost. -/
theorem settled_iff_not_lost (hs : s.Coherent) (hover : s.2.Over) : s.Settled ↔ ¬ s.Lost := by
  obtain ⟨hdrive, hcancel | hcancel⟩ := hover
  · have hagreed := hs.agreed hdrive (by rw [hcancel]; rfl)
    have hlatched := hs.latched
    simp [ScriptRun.Settled, ScriptRun.Lost, hagreed, hlatched, hcancel, CancelPoint.settled]
  · have hlatched := hs.latched
    simp only [ScriptRun.Settled, ScriptRun.Lost, hlatched, hcancel, hdrive, CancelPoint.settled,
      DrivePoint.unguarded, DrivePoint.settled, DrivePoint.stale]
    constructor
    · rintro ⟨hagree, hboth⟩
      have hrow := hboth (by decide)
      simp [hagree, hrow]
    · intro hnot
      have hrow : s.1.state = .cancelled := by
        by_contra hne
        exact hnot (.inr ⟨trivial, .inr ⟨trivial, hne⟩⟩)
      have hstate : s.2.record.state = .cancelled := by
        by_contra hne
        exact hnot (.inl ⟨trivial, .inr ⟨trivial, hne⟩⟩)
      exact ⟨hstate.trans hrow.symm, fun _ => hrow⟩

/-- In every interleaving of a drive with cancels of its record, when all of them have returned
the record and the row agree, and on CANCELLED when a cancel got past its check, exactly when
the cancel and the drive meet in time. -/
theorem script_cancel_settles_iff (generation : Int) (steps : List AttemptStep)
    (hwrites : ∀ step ∈ steps, step.Journals)
    (hover : (run ScriptRun.exec (ScriptRun.started generation) steps).2.Over) :
    (run ScriptRun.exec (ScriptRun.started generation) steps).Settled ↔
      StepsSatisfy ScriptRun.exec CancelInTime (ScriptRun.started generation) steps := by
  have hstart := ScriptRun.coherent_started generation
  have hfresh : ¬ (ScriptRun.started generation).Lost := by
    rintro (⟨hno, -⟩ | ⟨hno, -⟩) <;> cases hno
  rw [settled_iff_not_lost (hstart.run hwrites) hover, hstart.lost_run_iff hwrites,
    or_iff_right hfresh, not_not]

/-- A cancel that the drive notices at its exit. -/
def cancelledRun : List AttemptStep :=
  [.spawn true, .cancel, .cancelFenceLands true, .exit false, .cancelSettle, .swept, .journalRead,
    .cancelWrite true, .journalWrite true]

/-- A cancel that the drive notices. -/
theorem script_cancel_settles_of_noticed :
    (run ScriptRun.exec (ScriptRun.started 1) cancelledRun).Settled :=
  (script_cancel_settles_iff 1 cancelledRun
    (by simp [cancelledRun, AttemptStep.Journals])
    ⟨by decide, .inr (by decide)⟩).mpr (by decide)

/-- A cancel that arrives while the drive reaps a timeout. -/
def timedOutRun : List AttemptStep :=
  [.spawn true, .timeout, .cancel, .cancelFenceLands true, .cancelSettle, .cancelWrite true,
    .reaped, .fenceLands true, .fenced, .journalRead, .journalWrite true]

/-- It is accepted and settled, and the run ends FAILED. -/
theorem cancelled_timeout_fails :
    ¬ ∀ (generation : Int) (steps : List AttemptStep), (∀ step ∈ steps, step.Journals) →
      (run ScriptRun.exec (ScriptRun.started generation) steps).2.Over →
        (run ScriptRun.exec (ScriptRun.started generation) steps).Settled := by
  intro h
  have hsettled := h 1 timedOutRun (by simp [timedOutRun, AttemptStep.Journals])
    ⟨by decide, .inr (by decide)⟩
  exact absurd (hsettled.2 (by decide)) (by decide)

end CliAgentOrchestrator.Workflow
