import CliAgentOrchestrator.Library.Machine
import CliAgentOrchestrator.Workflow.Journal

/-!
# One drive per run

The entry points that drive a run, `services/workflow_service.py` and
`services/script_runner.py`, as they share one process: each checks that the run is free and
marks it in `_active_drives`, a plain set. A first YAML start and a script resume check and
mark in one piece. A script start, and a YAML resume that waits for a cancel to settle, suspend
between the two and do not look again.
-/

set_option autoImplicit false

namespace CliAgentOrchestrator.Workflow

open Library

/-! ## The calls and what they share -/

/-- Where a call on the run waits. `driving` is everything between `_active_drives.add` and the
`finally`. Before it, a script start has passed the route's check, has registered its record,
or has its insert behind it; a YAML resume waits for a recovery task or for its own CANCELLED
write, or has it behind it; a script resume waits for the row, or has read it. -/
inductive EntryPoint
  | idle
  | checked
  | registered
  | inserted
  | recovering (task : Nat)
  | settling
  | settled
  | reading
  | read (state : Option RunState)
  | driving
  | ended
deriving DecidableEq

/-- One process, as far as one run id is concerned: the state column of its row, the state of
the record in `run_registry`, its mark in `_active_drives`, its entry in
`_cancel_recovery_tasks` with whether the task still runs, whether a CANCELLING write is in
flight, and the calls. -/
structure RunProcess where
  row : Option RunState
  record : Option RunState := none
  active : Bool := false
  recovery : Option (Nat × Bool) := none
  tasks : Nat := 0
  cancelling : Bool := false
  calls : Nat → EntryPoint := fun _ => .idle

/-- The steps between two awaits; `i` is the call, `ok` says whether a write goes through. -/
inductive EntryStep
  | startRun (i : Nat) (readFails : Bool)
  | runScript (i : Nat) (readFails : Bool)
  | refuse (i : Nat)
  | register (i : Nat)
  | insertLands (i : Nat) (ok : Bool)
  | mark (i : Nat)
  | resume (i : Nat)
  | recovered (i : Nat)
  | settleLands (i : Nat) (ok : Bool)
  | resumeScript (i : Nat)
  | readRow (i : Nat)
  | gate (i : Nat)
  | insertRow (i : Nat) (ok : Bool)
  | settleRecord (i : Nat) (state : RunState)
  | journal (i : Nat) (state : RunState) (ok : Bool)
  | finish (i : Nat)
  | cancelRun
  | cancellingLands (ok : Bool)
  | recoveryLands (ok : Bool)

def RunProcess.put (s : RunProcess) (i : Nat) (p : EntryPoint) : RunProcess :=
  { s with calls := Function.update s.calls i p }

/-- The call marks the run and starts to drive it. -/
def RunProcess.take (s : RunProcess) (i : Nat) : RunProcess :=
  { s.put i .driving with active := true, record := some .running }

/-- An INSERT of the run's row; a row that is there makes it fail. -/
def insertRun (row : Option RunState) (ok : Bool) : Option RunState :=
  if ok then row <|> some .running else row

/-- An UPDATE of the state column. -/
def writeState (row : Option RunState) (state : RunState) (ok : Bool) : Option RunState :=
  if ok then row.map fun _ => state else row

/-- An unreadable journal lets a start through.
SOURCE: services/workflow_service.py:1130-1151 -/
def checkRunIdAvailable (s : RunProcess) (readFails : Bool) : Bool :=
  s.record.isNone && !s.active && (readFails || s.row.isNone)

/-- A YAML resume once no recovery is in its way.
SOURCE: services/workflow_service.py:1637-1706 -/
def RunProcess.examine (s : RunProcess) (i : Nat) : RunProcess :=
  match s.row with
  | none => s.put i .ended
  | some .completed => s.put i .ended
  | some .cancelling => s.put i .settling
  | some _ => s.take i

/-- The recovery task is awaited and its entry dropped.
SOURCE: services/workflow_service.py:268-279 -/
def RunProcess.dropRecovery (s : RunProcess) (task : Nat) : RunProcess :=
  if s.recovery = some (task, false) then { s with recovery := none } else s

/-- A cancel, in one piece; it raises on a run that is not there or has ended.
SOURCE: services/workflow_service.py:1264-1314 -/
def RunProcess.cancelRun (s : RunProcess) : RunProcess :=
  match s.record <|> s.row with
  | none => s
  | some state =>
    if state = .cancelling ∧ s.active then { s with record := some state }
    else if state.terminal then { s with record := some state }
    else if s.active then { s with record := some .cancelling, cancelling := true }
    else
      let s := { s with record := some .cancelled }
      match s.recovery with
      | some _ => s
      | none => { s with recovery := some (s.tasks, true), tasks := s.tasks + 1 }

/-- SOURCE: services/workflow_service.py:1162-1314, 1586-1720;
services/script_runner.py:1138-1251, 1336-1480; api/main.py:7078-7081 -/
def RunProcess.exec (s : RunProcess) : EntryStep → RunProcess
  | .startRun i readFails =>
    match s.calls i with
    | .idle => if checkRunIdAvailable s readFails then s.take i else s.put i .ended
    | _ => s
  | .runScript i readFails =>
    match s.calls i with
    | .idle => s.put i (if checkRunIdAvailable s readFails then .checked else .ended)
    | _ => s
  | .refuse i =>
    match s.calls i with
    | .checked => s.put i .ended
    | _ => s
  | .register i =>
    match s.calls i with
    | .checked => { s.put i .registered with record := some .running }
    | _ => s
  | .insertLands i ok =>
    match s.calls i with
    | .registered => { s.put i .inserted with row := insertRun s.row ok }
    | _ => s
  | .mark i =>
    match s.calls i with
    | .inserted => s.take i
    | .settled => s.take i
    | _ => s
  | .resume i =>
    match s.calls i with
    | .idle =>
      if s.active then s.put i .ended
      else
        match s.recovery with
        | some (task, true) => s.put i (.recovering task)
        | some (task, false) => (s.dropRecovery task).examine i
        | none => s.examine i
    | _ => s
  | .recovered i =>
    match s.calls i with
    | .recovering task =>
      if s.recovery = some (task, true) then s else (s.dropRecovery task).examine i
    | _ => s
  | .settleLands i ok =>
    match s.calls i with
    | .settling => { s.put i .settled with row := writeState s.row .cancelled ok }
    | _ => s
  | .resumeScript i =>
    match s.calls i with
    | .idle => s.put i .reading
    | _ => s
  | .readRow i =>
    match s.calls i with
    | .reading => s.put i (.read s.row)
    | _ => s
  | .gate i =>
    match s.calls i with
    | .read none => s.put i .ended
    | .read (some state) =>
      if s.active then s.put i .ended
      -- Gate 3 refuses under the mark, which the `finally` takes off at once.
      else if state = .completed then s.put i .ended
      else s.take i
    | _ => s
  | .insertRow i ok =>
    match s.calls i with
    | .driving => { s with row := insertRun s.row ok }
    | _ => s
  | .settleRecord i state =>
    match s.calls i with
    | .driving => { s with record := some state }
    | _ => s
  | .journal i state ok =>
    match s.calls i with
    | .driving => { s with row := writeState s.row state ok }
    | _ => s
  | .finish i =>
    match s.calls i with
    | .driving => if s.cancelling then s else { s.put i .ended with active := false }
    | _ => s
  | .cancelRun => s.cancelRun
  | .cancellingLands ok =>
    if s.cancelling then { s with cancelling := false, row := writeState s.row .cancelling ok }
    else s
  | .recoveryLands ok =>
    match s.recovery with
    | some (task, true) =>
      { s with recovery := some (task, false), row := writeState s.row .cancelled ok }
    | _ => s

/-- The process before any call: whatever the journal holds of the run. -/
def RunProcess.boot (row : Option RunState) : RunProcess where
  row := row

/-! ## What is asked of a run of calls -/

/-- At most one call is between its mark and its `finally`. -/
def OneDrive (s : RunProcess) : Prop :=
  ∀ i j, s.calls i = .driving → s.calls j = .driving → i = j

/-- The step starts a drive. -/
def Begins (s : RunProcess) (step : EntryStep) : Prop :=
  ∃ i, s.calls i ≠ .driving ∧ (s.exec step).calls i = .driving

/-! ## Entries that do not race -/

/-- The call is between its check and its mark. -/
def EntryPoint.waits : EntryPoint → Bool
  | .checked | .registered | .inserted | .recovering _ | .settling | .settled => true
  | _ => false

/-- No other call is between its check and its mark. -/
def Alone (s : RunProcess) (i : Nat) : Prop :=
  ∀ j, j ≠ i → (s.calls j).waits = false

/-- A call that its own check lets through is alone with it, a start that cannot read the journal
meets no completed row, and no script resume holds an older row when a drive ends on a completed
one. -/
def Unraced (s : RunProcess) : EntryStep → Prop
  | .startRun i readFails | .runScript i readFails =>
    s.calls i = .idle → checkRunIdAvailable s readFails = true →
      Alone s i ∧ (readFails = true → s.row ≠ some .completed)
  | .resume i => s.calls i = .idle → s.active = false → Alone s i
  | .gate i => ∀ state, s.calls i = .read (some state) → s.active = false → state ≠ .completed →
      Alone s i
  | .finish i => s.calls i = .driving → s.row = some .completed →
      ∀ j state, s.calls j = .read (some state) → state = .completed
  | _ => True

/-! ## What a step does -/

/-- A call goes on without a drive. -/
inductive Goes (s : RunProcess) : EntryStep → Nat → EntryPoint → EntryPoint → Prop
  | checks (i : Nat) (readFails : Bool) (hfree : checkRunIdAvailable s readFails = true) :
      Goes s (.runScript i readFails) i .idle .checked
  | registers (i : Nat) : Goes s (.register i) i .checked .registered
  | inserts (i : Nat) (ok : Bool) : Goes s (.insertLands i ok) i .registered .inserted
  | recovers (i task : Nat) (hfree : s.active = false) :
      Goes s (.resume i) i .idle (.recovering task)
  | examines (i : Nat) (hfree : s.active = false) (hrow : s.row ≠ some .completed) :
      Goes s (.resume i) i .idle .settling
  | recovered (i task : Nat) (hrow : s.row ≠ some .completed) :
      Goes s (.recovered i) i (.recovering task) .settling
  | settles (i : Nat) (ok : Bool) : Goes s (.settleLands i ok) i .settling .settled
  | reads (i : Nat) : Goes s (.resumeScript i) i .idle .reading
  | hasRead (i : Nat) : Goes s (.readRow i) i .reading (.read s.row)
  | ends (step : EntryStep) (i : Nat) (p : EntryPoint) : Goes s step i p .ended

/-- A call starts to drive. -/
inductive Enters (s : RunProcess) : EntryStep → Nat → EntryPoint → Prop
  | starts (i : Nat) (readFails : Bool) (hfree : checkRunIdAvailable s readFails = true) :
      Enters s (.startRun i readFails) i .idle
  | marks (i : Nat) (p : EntryPoint) (hp : p = .inserted ∨ p = .settled) : Enters s (.mark i) i p
  | resumes (i : Nat) (hfree : s.active = false) (hrow : s.row ≠ some .completed) :
      Enters s (.resume i) i .idle
  | recovered (i task : Nat) (hrow : s.row ≠ some .completed) :
      Enters s (.recovered i) i (.recovering task)
  | passes (i : Nat) (state : RunState) (hfree : s.active = false) (hstate : state ≠ .completed) :
      Enters s (.gate i) i (.read (some state))

/-- What a step does to the calls, the mark and the row. -/
inductive Effect (s : RunProcess) : EntryStep → RunProcess → Prop
  | goes {step : EntryStep} {t : RunProcess} (i : Nat) (p : EntryPoint) (hp : p ≠ .driving)
      (hq : s.calls i ≠ .driving) (hgoes : Goes s step i (s.calls i) p)
      (hcalls : t.calls = Function.update s.calls i p) (hactive : t.active = s.active)
      (hrow : t.row = some .completed → s.row = some .completed) : Effect s step t
  | enters {step : EntryStep} {t : RunProcess} (i : Nat) (henters : Enters s step i (s.calls i))
      (hcalls : t.calls = Function.update s.calls i .driving) (hactive : t.active = true)
      (hrow : t.row = s.row) : Effect s step t
  | stays {step : EntryStep} {t : RunProcess} (hcalls : t.calls = s.calls)
      (hactive : t.active = s.active)
      (hrow : t.row = some .completed → s.row = some .completed ∨ ∃ i, s.calls i = .driving) :
      Effect s step t
  | finishes (i : Nat) (hi : s.calls i = .driving) {t : RunProcess}
      (hcalls : t.calls = Function.update s.calls i .ended) (hactive : t.active = false)
      (hrow : t.row = s.row) : Effect s (.finish i) t

variable {s t : RunProcess} {step : EntryStep} {i : Nat}

/-- A call that does nothing now. -/
theorem Effect.same (s : RunProcess) (step : EntryStep) : Effect s step s :=
  .stays rfl rfl .inl

/-- A call that is refused or has nothing left to do. -/
theorem Effect.ends (hq : s.calls i ≠ .driving) : Effect s step (s.put i .ended) :=
  .goes i .ended (by simp) hq (.ends step i _) rfl rfl id

theorem dropRecovery_kept (s : RunProcess) (task : Nat) :
    (s.dropRecovery task).calls = s.calls ∧ (s.dropRecovery task).active = s.active ∧
      (s.dropRecovery task).row = s.row := by
  unfold RunProcess.dropRecovery
  split <;> exact ⟨rfl, rfl, rfl⟩

/-- A write of another state completes no row. -/
theorem completed_of_writeState {row : Option RunState} {state : RunState} {ok : Bool}
    (hstate : state ≠ .completed) (h : writeState row state ok = some .completed) :
    row = some .completed := by
  unfold writeState at h
  split at h
  · obtain ⟨_, -, heq⟩ := Option.map_eq_some_iff.mp h
    exact absurd heq hstate
  · exact h

theorem completed_of_insertRun {row : Option RunState} {ok : Bool}
    (h : insertRun row ok = some .completed) : row = some .completed := by
  unfold insertRun at h
  split at h
  · cases row with
    | none => cases h
    | some state => exact h
  · exact h

/-- A YAML resume at the row, with or without a recovery behind it. -/
theorem effect_examine (ht : t.calls = s.calls ∧ t.active = s.active ∧ t.row = s.row)
    (hq : s.calls i ≠ .driving)
    (hgoes : s.row ≠ some .completed → Goes s step i (s.calls i) .settling)
    (henters : s.row ≠ some .completed → Enters s step i (s.calls i)) :
    Effect s step (t.examine i) := by
  obtain ⟨hcalls, hactive, hrow⟩ := ht
  have hended : Effect s step (t.put i .ended) := by
    refine .goes i .ended (by simp) hq (.ends step i _) ?_ hactive fun h => hrow ▸ h
    rw [← hcalls]
    rfl
  unfold RunProcess.examine
  split
  · exact hended
  · exact hended
  · next hcancelling =>
    rw [hrow] at hcancelling
    refine .goes i .settling (by simp) hq (hgoes (by simp [hcancelling])) ?_ hactive fun h => hrow ▸ h
    rw [← hcalls]
    rfl
  · next state hcompleted _ hstate =>
    rw [hrow] at hstate
    refine .enters i (henters ?_) ?_ rfl hrow
    · rw [hstate]
      exact fun h => hcompleted (Option.some.inj h)
    · rw [← hcalls]
      rfl

theorem effect_start (s : RunProcess) (i : Nat) (readFails : Bool) :
    Effect s (.startRun i readFails) (s.exec (.startRun i readFails)) ∧
      Effect s (.runScript i readFails) (s.exec (.runScript i readFails)) := by
  simp only [RunProcess.exec]
  cases hcall : s.calls i with
  | idle =>
    have hq : s.calls i ≠ .driving := by simp [hcall]
    by_cases hfree : checkRunIdAvailable s readFails = true
    · simp only [if_pos hfree]
      exact ⟨.enters i (hcall ▸ .starts i readFails hfree) rfl rfl rfl,
        .goes i .checked (by simp) hq (hcall ▸ .checks i readFails hfree) rfl rfl id⟩
    · simp only [if_neg hfree]
      exact ⟨.ends hq, .ends hq⟩
  | _ => exact ⟨.same s _, .same s _⟩

theorem effect_scriptStart (s : RunProcess) (i : Nat) (ok : Bool) :
    Effect s (.refuse i) (s.exec (.refuse i)) ∧ Effect s (.register i) (s.exec (.register i)) ∧
      Effect s (.insertLands i ok) (s.exec (.insertLands i ok)) := by
  simp only [RunProcess.exec]
  cases hcall : s.calls i with
  | checked =>
    have hq : s.calls i ≠ .driving := by simp [hcall]
    exact ⟨.ends hq, .goes i .registered (by simp) hq (hcall ▸ .registers i) rfl rfl id, .same s _⟩
  | registered =>
    have hq : s.calls i ≠ .driving := by simp [hcall]
    exact ⟨.same s _, .same s _, .goes i .inserted (by simp) hq (hcall ▸ .inserts i ok) rfl rfl
      completed_of_insertRun⟩
  | _ => exact ⟨.same s _, .same s _, .same s _⟩

theorem effect_resume (s : RunProcess) (i : Nat) :
    Effect s (.resume i) (s.exec (.resume i)) := by
  simp only [RunProcess.exec]
  cases hcall : s.calls i with
  | idle =>
    have hq : s.calls i ≠ .driving := by simp [hcall]
    dsimp only
    split
    · exact .ends hq
    · next hactive =>
      have hfree : s.active = false := Bool.eq_false_iff.mpr hactive
      split
      · next task _ =>
        exact .goes i (.recovering task) (by simp) hq (hcall ▸ .recovers i task hfree) rfl rfl id
      · next task _ =>
        exact effect_examine (dropRecovery_kept s task) hq (fun h => hcall ▸ .examines i hfree h)
          fun h => hcall ▸ .resumes i hfree h
      · exact effect_examine ⟨rfl, rfl, rfl⟩ hq (fun h => hcall ▸ .examines i hfree h)
          fun h => hcall ▸ .resumes i hfree h
  | _ => exact .same s _

theorem effect_recovered (s : RunProcess) (i : Nat) :
    Effect s (.recovered i) (s.exec (.recovered i)) := by
  simp only [RunProcess.exec]
  cases hcall : s.calls i with
  | recovering task =>
    dsimp only
    split
    · exact .same s _
    · exact effect_examine (dropRecovery_kept s task) (by simp [hcall])
        (fun h => hcall ▸ .recovered i task h) fun h => hcall ▸ .recovered i task h
  | _ => exact .same s _

theorem effect_settle (s : RunProcess) (i : Nat) (ok : Bool) :
    Effect s (.settleLands i ok) (s.exec (.settleLands i ok)) ∧
      Effect s (.mark i) (s.exec (.mark i)) := by
  simp only [RunProcess.exec]
  cases hcall : s.calls i with
  | settling =>
    exact ⟨.goes i .settled (by simp) (by simp [hcall]) (hcall ▸ .settles i ok) rfl rfl
      (completed_of_writeState (by simp)), .same s _⟩
  | inserted => exact ⟨.same s _, .enters i (hcall ▸ .marks i _ (.inl rfl)) rfl rfl rfl⟩
  | settled => exact ⟨.same s _, .enters i (hcall ▸ .marks i _ (.inr rfl)) rfl rfl rfl⟩
  | _ => exact ⟨.same s _, .same s _⟩

theorem effect_scriptResume (s : RunProcess) (i : Nat) :
    Effect s (.resumeScript i) (s.exec (.resumeScript i)) ∧
      Effect s (.readRow i) (s.exec (.readRow i)) ∧ Effect s (.gate i) (s.exec (.gate i)) := by
  simp only [RunProcess.exec]
  cases hcall : s.calls i with
  | idle =>
    exact ⟨.goes i .reading (by simp) (by simp [hcall]) (hcall ▸ .reads i) rfl rfl id, .same s _,
      .same s _⟩
  | reading =>
    exact ⟨.same s _, .goes i (.read s.row) (by simp) (by simp [hcall]) (hcall ▸ .hasRead i) rfl rfl
      id, .same s _⟩
  | read row =>
    have hq : s.calls i ≠ .driving := by simp [hcall]
    refine ⟨.same s _, .same s _, ?_⟩
    cases row with
    | none => exact .ends hq
    | some state =>
      dsimp only
      split
      · exact .ends hq
      · next hactive =>
        split
        · exact .ends hq
        · next hstate =>
          exact .enters i (hcall ▸ .passes i state (Bool.eq_false_iff.mpr hactive) hstate) rfl rfl
            rfl
  | _ => exact ⟨.same s _, .same s _, .same s _⟩

/-- What a drive writes, and its `finally`. -/
theorem effect_drive (s : RunProcess) (i : Nat) (state : RunState) (ok : Bool) :
    Effect s (.insertRow i ok) (s.exec (.insertRow i ok)) ∧
      Effect s (.settleRecord i state) (s.exec (.settleRecord i state)) ∧
      Effect s (.journal i state ok) (s.exec (.journal i state ok)) ∧
      Effect s (.finish i) (s.exec (.finish i)) := by
  simp only [RunProcess.exec]
  cases hcall : s.calls i with
  | driving =>
    refine ⟨.stays rfl rfl fun _ => .inr ⟨i, hcall⟩, .stays rfl rfl .inl,
      .stays rfl rfl fun _ => .inr ⟨i, hcall⟩, ?_⟩
    dsimp only
    split
    · exact .same s _
    · exact .finishes i hcall rfl rfl rfl
  | _ => exact ⟨.same s _, .same s _, .same s _, .same s _⟩

theorem effect_cancelRun (s : RunProcess) : Effect s .cancelRun (s.exec .cancelRun) := by
  show Effect s .cancelRun s.cancelRun
  unfold RunProcess.cancelRun
  split
  · exact .same s _
  · split
    · exact .stays rfl rfl .inl
    · split
      · exact .stays rfl rfl .inl
      · split
        · exact .stays rfl rfl .inl
        · dsimp only
          split <;> exact .stays rfl rfl .inl

/-- A write of a cancel, or of its recovery, lands. -/
theorem effect_lands (s : RunProcess) (ok : Bool) :
    Effect s (.cancellingLands ok) (s.exec (.cancellingLands ok)) ∧
      Effect s (.recoveryLands ok) (s.exec (.recoveryLands ok)) := by
  simp only [RunProcess.exec]
  constructor
  · split
    · exact .stays rfl rfl fun h => .inl (completed_of_writeState (by simp) h)
    · exact .same s _
  · split
    · exact .stays rfl rfl fun h => .inl (completed_of_writeState (by simp) h)
    · exact .same s _

theorem effect_exec (s : RunProcess) (step : EntryStep) : Effect s step (s.exec step) := by
  cases step with
  | startRun i readFails => exact (effect_start s i readFails).1
  | runScript i readFails => exact (effect_start s i readFails).2
  | refuse i => exact (effect_scriptStart s i true).1
  | register i => exact (effect_scriptStart s i true).2.1
  | insertLands i ok => exact (effect_scriptStart s i ok).2.2
  | mark i => exact (effect_settle s i true).2
  | resume i => exact effect_resume s i
  | recovered i => exact effect_recovered s i
  | settleLands i ok => exact (effect_settle s i ok).1
  | resumeScript i => exact (effect_scriptResume s i).1
  | readRow i => exact (effect_scriptResume s i).2.1
  | gate i => exact (effect_scriptResume s i).2.2
  | insertRow i ok => exact (effect_drive s i .running ok).1
  | settleRecord i state => exact (effect_drive s i state true).2.1
  | journal i state ok => exact (effect_drive s i state ok).2.2.1
  | finish i => exact (effect_drive s i .running true).2.2.2
  | cancelRun => exact effect_cancelRun s
  | cancellingLands ok => exact (effect_lands s ok).1
  | recoveryLands ok => exact (effect_lands s ok).2

/-! ## What unraced steps keep -/

/-- The mark stands exactly while a call drives; one call at most is between its check and its
mark, and then none drives and, once it has looked, the row is not completed; and a script resume
whose row is behind meets the mark. -/
structure Orderly (s : RunProcess) : Prop where
  one : OneDrive s
  active : s.active = true ↔ ∃ i, s.calls i = .driving
  alone : ∀ i, (s.calls i).waits = true → Alone s i
  free : ∀ i, (s.calls i).waits = true → s.active = false
  looked : ∀ i, (s.calls i).waits = true → (∀ task, s.calls i ≠ .recovering task) →
    s.row ≠ some .completed
  behind : ∀ i state, s.calls i = .read (some state) → state ≠ .completed →
    s.row = some .completed → s.active = true

/-- What a call that comes to wait has behind it. -/
theorem Orderly.waiting (h : Orderly s) (hu : Unraced s step) {p : EntryPoint}
    (hgoes : Goes s step i (s.calls i) p) (hp : p.waits = true) : Alone s i ∧ s.active = false ∧
      ((∀ task, p ≠ .recovering task) → s.row ≠ some .completed) := by
  have hwas : (s.calls i).waits = true → (∀ task, s.calls i ≠ .recovering task) →
      Alone s i ∧ s.active = false ∧ ((∀ task, p ≠ .recovering task) → s.row ≠ some .completed) :=
    fun hwaits hlooked => ⟨h.alone i hwaits, h.free i hwaits, fun _ => h.looked i hwaits hlooked⟩
  generalize hcall : s.calls i = q at hgoes
  cases hgoes with
  | checks i readFails hfree =>
    obtain ⟨halone, hrow⟩ := hu hcall hfree
    unfold checkRunIdAvailable at hfree
    simp only [Bool.and_eq_true, Bool.not_eq_true', Bool.or_eq_true] at hfree
    refine ⟨halone, hfree.1.2, fun _ => ?_⟩
    obtain hfails | hnone := hfree.2
    · exact hrow hfails
    · rw [Option.isNone_iff_eq_none.mp hnone]
      simp
  | registers | inserts | settles =>
    exact hwas (by rw [hcall]; rfl) (by simp [hcall])
  | recovers i task hfree =>
    exact ⟨hu hcall hfree, hfree, fun hno => absurd rfl (hno task)⟩
  | examines i hfree hrow =>
    exact ⟨hu hcall hfree, hfree, fun _ => hrow⟩
  | recovered i task hrow =>
    have hwaits : (s.calls i).waits = true := by rw [hcall]; rfl
    exact ⟨h.alone i hwaits, h.free i hwaits, fun _ => hrow⟩
  | _ => cases hp

/-- A call that starts to drive is alone, and the row is not completed. -/
theorem Orderly.entering (h : Orderly s) (hu : Unraced s step)
    (henters : Enters s step i (s.calls i)) :
    Alone s i ∧ s.active = false ∧ s.row ≠ some .completed := by
  generalize hcall : s.calls i = q at henters
  cases henters with
  | starts i readFails hfree =>
    obtain ⟨halone, hrow⟩ := hu hcall hfree
    unfold checkRunIdAvailable at hfree
    simp only [Bool.and_eq_true, Bool.not_eq_true', Bool.or_eq_true] at hfree
    refine ⟨halone, hfree.1.2, ?_⟩
    obtain hfails | hnone := hfree.2
    · exact hrow hfails
    · rw [Option.isNone_iff_eq_none.mp hnone]
      simp
  | marks i p hp =>
    have hwaits : (s.calls i).waits = true := by
      rw [hcall]
      obtain rfl | rfl := hp <;> rfl
    refine ⟨h.alone i hwaits, h.free i hwaits, h.looked i hwaits ?_⟩
    rw [hcall]
    obtain rfl | rfl := hp <;> simp
  | resumes i hfree hrow => exact ⟨hu hcall hfree, hfree, hrow⟩
  | recovered i task hrow =>
    have hwaits : (s.calls i).waits = true := by rw [hcall]; rfl
    exact ⟨h.alone i hwaits, h.free i hwaits, hrow⟩
  | passes i state hfree hstate =>
    refine ⟨hu state hcall hfree hstate, hfree, fun hrow => ?_⟩
    rw [h.behind i state hcall hstate hrow] at hfree
    cases hfree

theorem calls_of_update {calls : Nat → EntryPoint} {p : EntryPoint}
    (hcalls : t.calls = Function.update calls i p) :
    t.calls i = p ∧ ∀ j, j ≠ i → t.calls j = calls j := by
  rw [hcalls]
  exact ⟨Function.update_self .., fun j hj => Function.update_of_ne hj ..⟩

/-- A call goes on, and drives nothing. -/
theorem Orderly.goes (h : Orderly s) (hu : Unraced s step) {p : EntryPoint} (hp : p ≠ .driving)
    (hq : s.calls i ≠ .driving) (hgoes : Goes s step i (s.calls i) p)
    (hcalls : t.calls = Function.update s.calls i p) (hactive : t.active = s.active)
    (hrow : t.row = some .completed → s.row = some .completed) : Orderly t := by
  obtain ⟨hself, hother⟩ := calls_of_update hcalls
  have hdriving : ∀ j, t.calls j = .driving ↔ s.calls j = .driving := by
    intro j
    by_cases hj : j = i
    · rw [hj, hself]
      exact iff_of_false hp hq
    · rw [hother j hj]
  have hwaiting := h.waiting hu hgoes
  refine ⟨?_, ?_, ?_, ?_, ?_, ?_⟩
  · intro j k hj hk
    exact h.one j k ((hdriving j).mp hj) ((hdriving k).mp hk)
  · rw [hactive, h.active]
    exact exists_congr fun j => (hdriving j).symm
  · intro j hwaits k hk
    by_cases hj : j = i
    · subst hj
      rw [hself] at hwaits
      rw [hother k hk]
      exact (hwaiting hwaits).1 k hk
    · rw [hother j hj] at hwaits
      by_cases hki : k = i
      · rw [hki, hself]
        by_contra hnew
        rw [(hwaiting (Bool.eq_true_of_not_eq_false hnew)).1 j hj] at hwaits
        cases hwaits
      · rw [hother k hki]
        exact h.alone j hwaits k hk
  · intro j hwaits
    rw [hactive]
    by_cases hj : j = i
    · rw [hj, hself] at hwaits
      exact (hwaiting hwaits).2.1
    · rw [hother j hj] at hwaits
      exact h.free j hwaits
  · intro j hwaits hlooked
    refine mt hrow ?_
    by_cases hj : j = i
    · rw [hj, hself] at hwaits hlooked
      exact (hwaiting hwaits).2.2 hlooked
    · rw [hother j hj] at hwaits hlooked
      exact h.looked j hwaits hlooked
  · intro j state hread hstate hcompleted
    rw [hactive]
    by_cases hj : j = i
    · rw [hj, hself] at hread
      subst hread
      generalize s.calls i = q at hgoes
      generalize hr : EntryPoint.read (some state) = p at hgoes
      cases hgoes with
      | hasRead =>
        rw [hrow hcompleted] at hr
        exact absurd (Option.some.inj (EntryPoint.read.inj hr)) hstate
      | _ => cases hr
    · rw [hother j hj] at hread
      exact h.behind j state hread hstate (hrow hcompleted)

/-- A call begins to drive. -/
theorem Orderly.enters (h : Orderly s) (hu : Unraced s step)
    (henters : Enters s step i (s.calls i)) (hcalls : t.calls = Function.update s.calls i .driving)
    (hactive : t.active = true) : Orderly t := by
  obtain ⟨hself, hother⟩ := calls_of_update hcalls
  obtain ⟨halone, hfree, -⟩ := h.entering hu henters
  have honly : ∀ j, t.calls j = .driving → j = i := by
    intro j hj
    by_contra hne
    rw [hother j hne] at hj
    rw [h.active.mpr ⟨j, hj⟩] at hfree
    cases hfree
  have hnone : ∀ j, (t.calls j).waits = false := by
    intro j
    by_cases hj : j = i
    · rw [hj, hself]
      rfl
    · rw [hother j hj]
      exact halone j hj
  refine ⟨?_, ?_, ?_, ?_, ?_, fun _ _ _ _ _ => hactive⟩
  · intro j k hj hk
    rw [honly j hj, honly k hk]
  · exact ⟨fun _ => ⟨i, hself⟩, fun _ => hactive⟩
  all_goals
    intro j hwaits
    rw [hnone j] at hwaits
    cases hwaits

theorem Orderly.stays (h : Orderly s) (hcalls : t.calls = s.calls) (hactive : t.active = s.active)
    (hrow : t.row = some .completed → s.row = some .completed ∨ ∃ i, s.calls i = .driving) :
    Orderly t := by
  refine ⟨?_, ?_, ?_, ?_, ?_, ?_⟩
  · unfold OneDrive
    rw [hcalls]
    exact h.one
  · rw [hactive, hcalls]
    exact h.active
  · unfold Alone
    rw [hcalls]
    exact h.alone
  · rw [hactive, hcalls]
    exact h.free
  · intro j hwaits hlooked hcompleted
    rw [hcalls] at hwaits hlooked
    obtain hold | hdriving := hrow hcompleted
    · exact h.looked j hwaits hlooked hold
    · have hfree := h.free j hwaits
      rw [h.active.mpr hdriving] at hfree
      cases hfree
  · intro j state hread hstate hcompleted
    rw [hcalls] at hread
    rw [hactive]
    obtain hold | hdriving := hrow hcompleted
    · exact h.behind j state hread hstate hold
    · exact h.active.mpr hdriving

/-- A drive ends. -/
theorem Orderly.finishes (h : Orderly s) (hu : Unraced s (.finish i)) (hi : s.calls i = .driving)
    (hcalls : t.calls = Function.update s.calls i .ended) (hactive : t.active = false)
    (hrow : t.row = s.row) : Orderly t := by
  obtain ⟨hself, hother⟩ := calls_of_update hcalls
  have hover : ∀ j, t.calls j ≠ .driving := by
    intro j hj
    by_cases hji : j = i
    · rw [hji, hself] at hj
      cases hj
    · rw [hother j hji] at hj
      exact hji (h.one j i hj hi)
  have hnone : ∀ j, (t.calls j).waits = false := by
    intro j
    by_cases hj : j = i
    · rw [hj, hself]
      rfl
    · rw [hother j hj]
      by_contra hwaits
      have hfree := h.free j (Bool.eq_true_of_not_eq_false hwaits)
      rw [h.active.mpr ⟨i, hi⟩] at hfree
      cases hfree
  have hnever : ∀ {P : Prop} (j : Nat), (t.calls j).waits = true → P := by
    intro P j hwaits
    rw [hnone j] at hwaits
    cases hwaits
  refine ⟨fun j _ hj => absurd hj (hover j), ?_, fun j hj => hnever j hj, fun j hj => hnever j hj,
    fun j hj => hnever j hj, ?_⟩
  · rw [hactive]
    exact iff_of_false (by simp) fun ⟨j, hj⟩ => hover j hj
  · intro j state hread hstate hcompleted
    have hj : j ≠ i := by
      rintro rfl
      rw [hself] at hread
      cases hread
    rw [hother j hj] at hread
    exact absurd (hu hi (hrow ▸ hcompleted) j state hread) hstate

/-- Unraced steps keep the process orderly. -/
theorem Orderly.exec (h : Orderly s) (hu : Unraced s step) : Orderly (s.exec step) := by
  cases effect_exec s step with
  | goes i p hp hq hgoes hcalls hactive hrow => exact h.goes hu hp hq hgoes hcalls hactive hrow
  | enters i henters hcalls hactive hrow => exact h.enters hu henters hcalls hactive
  | stays hcalls hactive hrow => exact h.stays hcalls hactive hrow
  | finishes i hi hcalls hactive hrow => exact h.finishes hu hi hcalls hactive hrow

end CliAgentOrchestrator.Workflow
