import CliAgentOrchestrator.Workflow.FrozenMemory

/-!
# Every answer is the recorded one

The manifest of a run is a cell that is filled once: a call goes by the manifest in the row, or by
one that was there before the record was filled, so a conditional write that succeeds finds the
record empty and one that is lost finds it filled (`Coherent`). What a call returns is therefore
what the row records, unless one of its own journal steps raised, and behind a lost write it only
has to read.
-/

set_option autoImplicit false

namespace CliAgentOrchestrator.Workflow.FrozenMemory

open Library Memory ExecutionManifest

/-! ## The record as a cell that is filled once -/

/-- The memory block a manifest records, where its record is filled. -/
def recordOf (manifest : JsonTree) : Option JsonTree :=
  (parse manifest).bind fun envelope =>
    if envelope.memory.source.truthy then some envelope.memory.content else none

/-- The manifest in the row. -/
def manifestOf (row : Option RunRow) : Option JsonTree := row.bind (·.manifestJson)

/-- The memory block the row records. -/
def recorded (row : Option RunRow) : Option JsonTree := (manifestOf row).bind recordOf

/-- The row carries a manifest that parses. -/
def Readable (row : Option RunRow) : Prop :=
  ∃ manifest envelope, manifestOf row = some manifest ∧ parse manifest = some envelope

/-- A step leaves the row alone, or fills the record. -/
def Settles (row row' : Option RunRow) : Prop :=
  row' = row ∨ (recorded row = none ∧ (recorded row').isSome = true ∧ Readable row')

theorem redact_memorySourceCurated :
    (Memory.redactSecrets memorySourceCurated).1 = memorySourceCurated := by
  rw [redactSecrets_of_clean (by decide)]

/-- A filled envelope reads back as a filled record. -/
theorem recordOf_document {sha256 : Text → Text} {envelope filled : ExecutionManifestEnvelope}
    {content : Text} (h : withMemory sha256 envelope content memorySourceCurated = some filled) :
    recordOf (document filled) = some filled.memory.content := by
  obtain ⟨hsource, -⟩ := withMemory_memory sha256 h
  rw [redact_memorySourceCurated] at hsource
  have htruthy : filled.memory.source.truthy = true := by
    rw [hsource]
    decide
  rw [recordOf, parse_document, Option.bind_some]
  exact if_pos htruthy

theorem readable_document (filled : ExecutionManifestEnvelope) (r : RunRow) :
    Readable (some { r with manifestJson := some (document filled) }) :=
  ⟨_, _, rfl, parse_document filled⟩

theorem Settles.readable {row row' : Option RunRow} (h : Settles row row') (hrow : Readable row) :
    Readable row' := by
  obtain rfl | ⟨-, -, h⟩ := h
  · exact hrow
  · exact h

/-- A record that is filled stays as it is. -/
theorem Settles.eq_of_filled {row row' : Option RunRow} (h : Settles row row')
    (hfilled : (recorded row).isSome = true) : row' = row := by
  obtain h | ⟨hnone, -⟩ := h
  · exact h
  · rw [hnone] at hfilled
    cases hfilled

/-! ## What a call knows -/

/-- The manifest a call goes by has no record, and is in the row unless the record was filled
since. -/
def Current (row : Option RunRow) (expected : JsonTree) : Prop :=
  recordOf expected = none ∧ (manifestOf row = some expected ∨ (recorded row).isSome = true)

def Phase.Coherent (row : Option RunRow) : Phase → Prop
  | .resolving expected _ => Current row expected
  | .persisting expected filled =>
    Current row expected ∧ recordOf (document filled) = some filled.memory.content
  | .reloading => (recorded row).isSome = true
  | _ => True

theorem Current.settles {row row' : Option RunRow} {expected : JsonTree}
    (h : Current row expected) (hrow : Settles row row') : Current row' expected := by
  obtain rfl | ⟨-, hfilled, -⟩ := hrow
  · exact h
  · exact ⟨h.1, .inr hfilled⟩

theorem Phase.Coherent.settles {row row' : Option RunRow} {phase : Phase}
    (h : phase.Coherent row) (hrow : Settles row row') : phase.Coherent row' := by
  cases phase with
  | resolving expected envelope => exact Current.settles h hrow
  | persisting expected filled => exact ⟨h.1.settles hrow, h.2⟩
  | reloading =>
    obtain rfl | ⟨-, hfilled, -⟩ := hrow
    · exact h
    · exact hfilled
  | _ => trivial

/-- A read finds the record filled and answers with it, or finds what to fill. -/
theorem afterRead_cases {row : Option RunRow} (hrow : Readable row) (absent : JsonTree) :
    (∃ content, recorded row = some content ∧ afterRead absent row = .returned content)
      ∨ ∃ manifest envelope, afterRead absent row = .resolving manifest envelope
          ∧ recorded row = none ∧ Current row manifest := by
  obtain ⟨manifest, envelope, hmanifest, hparse⟩ := hrow
  have hrecord : recordOf manifest
      = if envelope.memory.source.truthy then some envelope.memory.content else none := by
    rw [recordOf, hparse, Option.bind_some]
  have hrecorded : recorded row = recordOf manifest := by
    rw [recorded, hmanifest, Option.bind_some]
  have hafter : afterRead absent row
      = if envelope.memory.source.truthy then .returned envelope.memory.content
        else .resolving manifest envelope := by
    unfold manifestOf at hmanifest
    simp only [afterRead, hmanifest, hparse]
  by_cases hfilled : envelope.memory.source.truthy = true
  · rw [if_pos hfilled] at hrecord hafter
    exact .inl ⟨_, hrecorded.trans hrecord, hafter⟩
  · rw [if_neg hfilled] at hrecord hafter
    exact .inr ⟨manifest, envelope, hafter, hrecorded.trans hrecord, hrecord, .inl hmanifest⟩

/-- A conditional write for a manifest that is current fills the record, or was lost to a call
that did. -/
theorem compareAndSet_cases {row : Option RunRow} {expected : JsonTree}
    (hcurrent : Current row expected) (filled : ExecutionManifestEnvelope) :
    (recorded row = none ∧ ∃ row', Readable row' ∧ recorded row' = recordOf (document filled)
        ∧ compareAndSetRunManifest row expected (document filled) = (row', true))
      ∨ ((recorded row).isSome = true
          ∧ compareAndSetRunManifest row expected (document filled) = (row, false)) := by
  obtain ⟨hnone, hcurrent⟩ := hcurrent
  cases row with
  | none =>
    obtain h | h := hcurrent
    · cases h
    · exact .inr ⟨h, rfl⟩
  | some r =>
    by_cases hmanifest : r.manifestJson = some expected
    · have hempty : recorded (some r) = none := by
        rw [recorded, manifestOf, Option.bind_some, hmanifest, Option.bind_some, hnone]
      refine .inl ⟨hempty, _, readable_document filled r, rfl, ?_⟩
      rw [compareAndSetRunManifest, if_pos hmanifest]
    · obtain h | h := hcurrent
      · exact absurd h hmanifest
      · refine .inr ⟨h, ?_⟩
        rw [compareAndSetRunManifest, if_neg hmanifest]

/-! ## One step -/

/-- What raises while a call waits for the journal: its first read, or one of the steps behind. -/
inductive Fault
  | firstRead
  | later

def fault : Phase → Action → Option Fault
  | .reading, .getRun true => some .firstRead
  | .persisting _ _, .compareAndSet true => some .later
  | .reloading, .getRun true => some .later
  | _, _ => none

/-- The step a call waits for. -/
def Phase.awaits : Phase → Action → Bool
  | .reading, .getRun _ => true
  | .resolving _ _, .resolveLive _ => true
  | .persisting _ _, .compareAndSet _ => true
  | .reloading, .getRun _ => true
  | _, _ => false

/-- How many steps a call may still take. -/
def Phase.rank : Phase → Nat
  | .reading => 4
  | .resolving _ _ => 3
  | .persisting _ _ => 2
  | .reloading => 1
  | .returned _ => 0
  | .raised => 0

theorem Phase.one_le_rank {phase : Phase} (h : phase.finished = false) : 1 ≤ phase.rank := by
  cases phase <;> first | exact Nat.le_add_left 1 _ | cases h

theorem Phase.finished_of_rank {phase : Phase} (h : phase.rank = 0) : phase.finished = true := by
  cases phase <;> first | rfl | cases h

/-- What one step of a call makes of the row and of the call: the cell settles, the call stays
coherent and comes closer to its end, and an answer is the recorded one or a fault's. -/
structure Advanced (row row' : Option RunRow) (phase phase' : Phase) (action : Action) : Prop where
  settles : Settles row row'
  coherent : phase'.Coherent row'
  rank : phase.awaits action = true → phase'.rank + 1 ≤ phase.rank
  answer : ∀ value, phase' = .returned value → phase.awaits action = true →
    recorded row' = some value ∨ (value = .null ∧ fault phase action = some .firstRead)
      ∨ (value = .str [] ∧ fault phase action = some .later)
  raises : phase' = .raised → phase.awaits action = true →
    ∃ outcome, action = .resolveLive outcome
      ∧ ∀ resolved, outcome = some resolved → ¬ Library.Encodable resolved

theorem advanced_of_not_awaits {row : Option RunRow} {phase : Phase} {action : Action}
    (hphase : phase.Coherent row) (h : phase.awaits action = false) :
    Advanced row row phase phase action where
  settles := .inl rfl
  coherent := hphase
  rank := by simp [h]
  answer := by simp [h]
  raises := by simp [h]

theorem advanced_returned {row row' : Option RunRow} {phase : Phase} {action : Action}
    {value : JsonTree} (hsettles : Settles row row') (hrank : 1 ≤ phase.rank)
    (hanswer : recorded row' = some value
      ∨ (value = .null ∧ fault phase action = some .firstRead)
      ∨ (value = .str [] ∧ fault phase action = some .later)) :
    Advanced row row' phase (.returned value) action where
  settles := hsettles
  coherent := trivial
  rank := fun _ => hrank
  answer := by
    rintro _ ⟨⟩ -
    exact hanswer
  raises := by
    rintro ⟨⟩

theorem advanced_afterRead {row : Option RunRow} (hrow : Readable row) (absent : JsonTree)
    {phase : Phase} {action : Action} (hpositive : 1 ≤ phase.rank)
    (hrank : recorded row = none → 4 ≤ phase.rank) :
    Advanced row row phase (afterRead absent row) action := by
  obtain ⟨content, hrecorded, hafter⟩ | ⟨manifest, envelope, hafter, hnone, hcurrent⟩ :=
    afterRead_cases hrow absent
  · rw [hafter]
    exact advanced_returned (.inl rfl) hpositive (.inl hrecorded)
  · rw [hafter]
    exact
      { settles := .inl rfl
        coherent := hcurrent
        rank := fun _ => hrank hnone
        answer := by rintro _ ⟨⟩
        raises := by rintro ⟨⟩ }

section Advance

variable (sha256 : Text → Text) {row : Option RunRow}

theorem advanced_reading (hrow : Readable row) (raises : Bool) :
    Advanced row (frozenMemoryFor sha256 row .reading (.getRun raises)).1 .reading
      (frozenMemoryFor sha256 row .reading (.getRun raises)).2 (.getRun raises) := by
  cases raises with
  | true => exact advanced_returned (.inl rfl) (Phase.one_le_rank rfl) (.inr (.inl ⟨rfl, rfl⟩))
  | false => exact advanced_afterRead hrow .null (Phase.one_le_rank rfl) fun _ => le_rfl

/-- Behind a lost write the record is filled: the read is the last step. -/
theorem advanced_reloading (hrow : Readable row) (hfilled : (recorded row).isSome = true)
    (raises : Bool) :
    Advanced row (frozenMemoryFor sha256 row .reloading (.getRun raises)).1 .reloading
      (frozenMemoryFor sha256 row .reloading (.getRun raises)).2 (.getRun raises) := by
  cases raises with
  | true => exact advanced_returned (.inl rfl) (Phase.one_le_rank rfl) (.inr (.inr ⟨rfl, rfl⟩))
  | false =>
    refine advanced_afterRead hrow (.str []) (Phase.one_le_rank rfl) fun hnone => ?_
    rw [hnone] at hfilled
    cases hfilled

theorem advanced_resolving {expected : JsonTree} {envelope : ExecutionManifestEnvelope}
    (hcurrent : Current row expected) (outcome : Option Text) :
    Advanced row
      (frozenMemoryFor sha256 row (.resolving expected envelope) (.resolveLive outcome)).1
      (.resolving expected envelope)
      (frozenMemoryFor sha256 row (.resolving expected envelope) (.resolveLive outcome)).2
      (.resolveLive outcome) := by
  rw [frozenMemoryFor]
  cases hfill : outcome.bind fun resolved =>
      withMemory sha256 envelope resolved memorySourceCurated with
  | none =>
    refine ⟨.inl rfl, trivial, fun _ => Nat.le_add_left 1 2, by rintro _ ⟨⟩,
      fun _ _ => ⟨outcome, rfl, ?_⟩⟩
    rintro resolved rfl hencodable
    have hsome := withMemory_isSome sha256 hencodable envelope memorySourceCurated
    rw [Option.bind_some] at hfill
    rw [hfill] at hsome
    cases hsome
  | some filled =>
    obtain ⟨resolved, -, hfill⟩ := Option.bind_eq_some_iff.mp hfill
    exact
      { settles := .inl rfl
        coherent := ⟨hcurrent, recordOf_document hfill⟩
        rank := fun _ => le_rfl
        answer := by rintro _ ⟨⟩
        raises := by rintro ⟨⟩ }

theorem advanced_persisting {expected : JsonTree} {filled : ExecutionManifestEnvelope}
    (hcurrent : Current row expected)
    (hrecord : recordOf (document filled) = some filled.memory.content) (raises : Bool) :
    Advanced row
      (frozenMemoryFor sha256 row (.persisting expected filled) (.compareAndSet raises)).1
      (.persisting expected filled)
      (frozenMemoryFor sha256 row (.persisting expected filled) (.compareAndSet raises)).2
      (.compareAndSet raises) := by
  cases raises with
  | true => exact advanced_returned (.inl rfl) (Phase.one_le_rank rfl) (.inr (.inr ⟨rfl, rfl⟩))
  | false =>
    obtain ⟨hnone, row', hreadable, hrecorded, hcas⟩ | ⟨hfilled, hcas⟩ :=
      compareAndSet_cases hcurrent filled
    · rw [frozenMemoryFor, if_neg Bool.false_ne_true, hcas]
      rw [hrecord] at hrecorded
      refine advanced_returned (.inr ⟨hnone, ?_, hreadable⟩) (Phase.one_le_rank rfl)
        (.inl hrecorded)
      rw [hrecorded]
      rfl
    · rw [frozenMemoryFor, if_neg Bool.false_ne_true, hcas]
      exact
        { settles := .inl rfl
          coherent := hfilled
          rank := fun _ => le_rfl
          answer := by rintro _ ⟨⟩
          raises := by rintro ⟨⟩ }

theorem advanced {phase : Phase} (hrow : Readable row) (hphase : phase.Coherent row)
    (action : Action) :
    Advanced row (frozenMemoryFor sha256 row phase action).1 phase
      (frozenMemoryFor sha256 row phase action).2 action := by
  cases phase with
  | reading =>
    cases action with
    | getRun raises => exact advanced_reading sha256 hrow raises
    | _ => exact advanced_of_not_awaits hphase rfl
  | resolving expected envelope =>
    cases action with
    | resolveLive outcome => exact advanced_resolving sha256 hphase outcome
    | _ => exact advanced_of_not_awaits hphase rfl
  | persisting expected filled =>
    cases action with
    | compareAndSet raises => exact advanced_persisting sha256 hphase.1 hphase.2 raises
    | _ => exact advanced_of_not_awaits hphase rfl
  | reloading =>
    cases action with
    | getRun raises => exact advanced_reloading sha256 hrow hphase raises
    | _ => exact advanced_of_not_awaits hphase rfl
  | _ => exact advanced_of_not_awaits hphase rfl

end Advance

/-! ## Runs -/

section Runs

variable (sha256 : Text → Text)

/-- The row parses, and every call is coherent with it. -/
structure Sound (s : State) : Prop where
  readable : Readable s.row
  coherent : ∀ c, (s.calls c).Coherent s.row

theorem Sound.advanced {s : State} (hs : Sound s) (step : Step) :
    Advanced s.row (exec sha256 s step).row (s.calls step.call)
      ((exec sha256 s step).calls step.call) step.action := by
  have hstep := FrozenMemory.advanced sha256 hs.readable (hs.coherent step.call) step.action
  simpa only [exec, Function.update_self] using hstep

theorem calls_exec_of_ne (s : State) {step : Step} {c : Nat} (hc : c ≠ step.call) :
    (exec sha256 s step).calls c = s.calls c :=
  Function.update_of_ne hc _ _

theorem Sound.exec {s : State} (hs : Sound s) (step : Step) : Sound (exec sha256 s step) := by
  have hstep := hs.advanced sha256 step
  refine ⟨hstep.settles.readable hs.readable, fun c => ?_⟩
  by_cases hc : c = step.call
  · subst hc
    exact hstep.coherent
  · rw [calls_exec_of_ne sha256 s hc]
    exact (hs.coherent c).settles hstep.settles

theorem sound_run {row : Option RunRow} (hrow : Readable row) (steps : List Step) :
    Sound (run (exec sha256) (begin row) steps) :=
  run_invariant Sound (fun _ step hs => hs.exec sha256 step) (begin row)
    ⟨hrow, fun _ => trivial⟩ steps

/-- Once the record is filled, the row is what it was. -/
theorem row_of_filled {s : State} (hs : Sound s) (hfilled : (recorded s.row).isSome = true)
    (steps : List Step) : (run (exec sha256) s steps).row = s.row := by
  have hkept : Sound (run (exec sha256) s steps) ∧ (run (exec sha256) s steps).row = s.row := by
    refine run_invariant (fun t => Sound t ∧ t.row = s.row) ?_ s ⟨hs, rfl⟩ steps
    rintro t step ⟨ht, hrow⟩
    have hsettles := (ht.advanced sha256 step).settles
    rw [hrow] at hsettles
    exact ⟨ht.exec sha256 step, hsettles.eq_of_filled hfilled⟩
  exact hkept.2

/-- The journal steps of a call that raised. -/
def faults (c : Nat) (s : State) (steps : List Step) : List Fault :=
  observed (exec sha256) (fun s step =>
    if step.call = c then fault (s.calls c) step.action else none) s steps

/-- The steps a call took. -/
def taken (c : Nat) (s : State) (steps : List Step) : List Action :=
  observed (exec sha256) (fun s step =>
    if step.call = c ∧ (s.calls c).awaits step.action = true then some step.action else none)
    s steps

/-- What a call returned is the recorded block, or the answer to a fault of its own. -/
def Answered (row : Option RunRow) (faults : List Fault) (value : JsonTree) : Prop :=
  recorded row = some value ∨ (value = .null ∧ .firstRead ∈ faults)
    ∨ (value = .str [] ∧ .later ∈ faults)

theorem Answered.settles {row row' : Option RunRow} {faults : List Fault} {value : JsonTree}
    (h : Answered row faults value) (hrow : Settles row row') : Answered row' faults value := by
  refine h.imp_left fun hrecorded => ?_
  rw [hrow.eq_of_filled (by rw [hrecorded]; rfl)]
  exact hrecorded

theorem Answered.append {row : Option RunRow} {faults : List Fault} {value : JsonTree}
    (h : Answered row faults value) (more : List Fault) : Answered row (faults ++ more) value := by
  refine h.imp_right (Or.imp (And.imp_right ?_) (And.imp_right ?_))
  · exact fun h => List.mem_append_left more h
  · exact fun h => List.mem_append_left more h

/-- A call that takes no step stands where it stood. -/
theorem calls_exec_of_not_awaits (s : State) {step : Step}
    (h : (s.calls step.call).awaits step.action = false) :
    (exec sha256 s step).calls = s.calls := by
  have hsame : frozenMemoryFor sha256 s.row (s.calls step.call) step.action
      = (s.row, s.calls step.call) := by
    obtain ⟨c, action⟩ := step
    dsimp only at h ⊢
    cases hphase : s.calls c <;> rw [hphase] at h <;> cases action <;> first | rfl | cases h
  simp only [exec, hsame, Function.update_eq_self]

theorem answered_run {row : Option RunRow} (hrow : Readable row) (steps : List Step) (c : Nat)
    (value : JsonTree)
    (hreturned : (run (exec sha256) (begin row) steps).calls c = .returned value) :
    Answered (run (exec sha256) (begin row) steps).row (faults sha256 c (begin row) steps)
      value := by
  induction steps using List.reverseRecOn with
  | nil => cases hreturned
  | append_singleton steps step ih =>
    have hs := sound_run sha256 hrow steps
    have hstep := hs.advanced sha256 step
    rw [run_concat] at hreturned ⊢
    rw [faults, observed_concat]
    by_cases hc : step.call = c
    · subst hc
      cases hawaits : ((run (exec sha256) (begin row) steps).calls step.call).awaits
          step.action with
      | true =>
        rw [if_pos rfl]
        obtain h | ⟨hvalue, h⟩ | ⟨hvalue, h⟩ := hstep.answer value hreturned hawaits
        · exact .inl h
        · rw [h]
          exact .inr (.inl ⟨hvalue, by simp⟩)
        · rw [h]
          exact .inr (.inr ⟨hvalue, by simp⟩)
      | false =>
        rw [calls_exec_of_not_awaits sha256 _ hawaits] at hreturned
        exact ((ih hreturned).settles hstep.settles).append _
    · rw [calls_exec_of_ne sha256 _ (Ne.symm hc)] at hreturned
      exact ((ih hreturned).settles hstep.settles).append _

/-- A call takes no more steps than its rank allows. -/
theorem taken_run {row : Option RunRow} (hrow : Readable row) (steps : List Step) (c : Nat) :
    (taken sha256 c (begin row) steps).length
      + ((run (exec sha256) (begin row) steps).calls c).rank ≤ 4 := by
  induction steps using List.reverseRecOn with
  | nil => exact le_rfl
  | append_singleton steps step ih =>
    have hs := sound_run sha256 hrow steps
    rw [run_concat, taken, observed_concat, List.length_append]
    change (taken sha256 c (begin row) steps).length + _ + _ ≤ 4
    by_cases hc : step.call = c
    · subst hc
      cases hawaits : ((run (exec sha256) (begin row) steps).calls step.call).awaits
          step.action with
      | true =>
        have hrank := (hs.advanced sha256 step).rank hawaits
        rw [if_pos ⟨rfl, rfl⟩]
        simp only [Option.toList_some, List.length_singleton]
        omega
      | false =>
        rw [if_neg (by simp), calls_exec_of_not_awaits sha256 _ hawaits]
        exact ih
    · rw [if_neg fun h => hc h.1, calls_exec_of_ne sha256 _ (Ne.symm hc)]
      exact ih

/-- The live resolution of a step came back with a text that has a UTF-8 form. -/
def Resolves (step : Step) : Prop :=
  ∀ outcome, step.action = .resolveLive outcome → ∃ resolved, outcome = some resolved
    ∧ Library.Encodable resolved

theorem not_raised_run {row : Option RunRow} (hrow : Readable row) (steps : List Step)
    (hresolves : ∀ step ∈ steps, Resolves step) (c : Nat) :
    (run (exec sha256) (begin row) steps).calls c ≠ .raised := by
  induction steps using List.reverseRecOn with
  | nil => exact nofun
  | append_singleton steps step ih =>
    have hs := sound_run sha256 hrow steps
    have hbefore := ih fun step' h => hresolves step' (List.mem_append_left _ h)
    rw [run_concat]
    by_cases hc : step.call = c
    · subst hc
      intro hraised
      cases hawaits : ((run (exec sha256) (begin row) steps).calls step.call).awaits
          step.action with
      | true =>
        obtain ⟨outcome, haction, hnot⟩ := (hs.advanced sha256 step).raises hraised hawaits
        obtain ⟨resolved, houtcome, hencodable⟩ := hresolves step (by simp) outcome haction
        exact hnot resolved houtcome hencodable
      | false =>
        rw [calls_exec_of_not_awaits sha256 _ hawaits] at hraised
        exact hbefore hraised
    · rw [calls_exec_of_ne sha256 _ (Ne.symm hc)]
      exact hbefore

/-! ## The frozen memory of a run -/

/-- A run of calls sees one memory block. -/
structure Frozen (row : Option RunRow) (steps : List Step) : Prop where
  /-- What a call returned is the recorded block; a call whose first read raised returned `None`,
  and one whose write or second read raised the empty text. -/
  answered : ∀ c value, (run (exec sha256) (begin row) steps).calls c = .returned value →
    recorded (run (exec sha256) (begin row) steps).row = some value
      ∨ (value = .null ∧ .firstRead ∈ faults sha256 c (begin row) steps)
      ∨ (value = .str [] ∧ .later ∈ faults sha256 c (begin row) steps)
  /-- Calls that met no fault agree. -/
  agreed : ∀ c d v w, (run (exec sha256) (begin row) steps).calls c = .returned v →
    (run (exec sha256) (begin row) steps).calls d = .returned w →
    faults sha256 c (begin row) steps = [] → faults sha256 d (begin row) steps = [] → v = w
  /-- A record once filled never changes, and nor does the rest of the manifest. -/
  settled : ∀ before after, steps = before ++ after →
    (recorded (run (exec sha256) (begin row) before).row).isSome = true →
    (run (exec sha256) (begin row) steps).row = (run (exec sha256) (begin row) before).row
  /-- A call ends: it takes four steps at most, and after the fourth it is over. -/
  ended : ∀ c, (taken sha256 c (begin row) steps).length ≤ 4
    ∧ ((taken sha256 c (begin row) steps).length = 4 →
      ((run (exec sha256) (begin row) steps).calls c).finished = true)
  /-- A call that is not over has a step to take. -/
  awaiting : ∀ c, ((run (exec sha256) (begin row) steps).calls c).finished = true
    ∨ ∃ action, ((run (exec sha256) (begin row) steps).calls c).awaits action = true
  /-- No call raises where live memory resolves. -/
  total : (∀ step ∈ steps, Resolves step) →
    ∀ c, (run (exec sha256) (begin row) steps).calls c ≠ .raised

theorem Phase.finished_or_awaits (phase : Phase) :
    phase.finished = true ∨ ∃ action, phase.awaits action = true := by
  cases phase with
  | resolving expected envelope => exact .inr ⟨.resolveLive none, rfl⟩
  | persisting expected filled => exact .inr ⟨.compareAndSet false, rfl⟩
  | returned | raised => exact .inl rfl
  | _ => exact .inr ⟨.getRun false, rfl⟩

/-- What a call that met no fault returned is the recorded block. -/
theorem recorded_of_no_fault {row : Option RunRow} (hrow : Readable row) {steps : List Step}
    {c : Nat} {value : JsonTree}
    (hreturned : (run (exec sha256) (begin row) steps).calls c = .returned value)
    (hfaults : faults sha256 c (begin row) steps = []) :
    recorded (run (exec sha256) (begin row) steps).row = some value := by
  obtain h | ⟨-, h⟩ | ⟨-, h⟩ := answered_run sha256 hrow steps c value hreturned
  · exact h
  · rw [hfaults] at h
    cases h
  · rw [hfaults] at h
    cases h

/-- Any calls, in any interleaving, for a run whose manifest parses. -/
theorem one_frozen_memory {row : Option RunRow} (hrow : Readable row) (steps : List Step) :
    Frozen sha256 row steps where
  answered := answered_run sha256 hrow steps
  agreed := by
    intro c d v w hc hd hcfaults hdfaults
    have hv := recorded_of_no_fault sha256 hrow hc hcfaults
    have hw := recorded_of_no_fault sha256 hrow hd hdfaults
    exact Option.some.inj (hv.symm.trans hw)
  settled := by
    rintro before after rfl hfilled
    rw [run_append]
    exact row_of_filled sha256 (sound_run sha256 hrow before) hfilled after
  ended := by
    intro c
    have hbound := taken_run sha256 hrow steps c
    refine ⟨by omega, fun hfour => Phase.finished_of_rank ?_⟩
    omega
  awaiting := fun c => Phase.finished_or_awaits _
  total := not_raised_run sha256 hrow steps

end Runs

/-- A manifest as the freeze leaves it: the memory record is empty. -/
def frozenRow : Option RunRow :=
  some { manifestJson := some (document
    { planId := .str (text "plan"), sourceHash := .str (text "source"), inputs := .obj []
      repoBaseline := .null, provider := .null, model := .null, profile := .null
      permissions := .null, limits := .null, retryPolicy := .null
      memory :=
        { content := .str [], source := .str [], contentHash := .str (text "hash")
          truncated := .bool false }
      truncated := .bool false, redacted := .bool false }) }

theorem readable_frozenRow : Readable frozenRow := readable_document _ ⟨none⟩

/-- Two calls resolve different texts; the one that loses the write answers with the winner's. -/
theorem one_frozen_memory_race :
    let steps : List Step :=
      [⟨0, .getRun false⟩, ⟨1, .getRun false⟩, ⟨0, .resolveLive (some (text "old"))⟩,
        ⟨1, .resolveLive (some (text "new"))⟩, ⟨1, .compareAndSet false⟩,
        ⟨0, .compareAndSet false⟩, ⟨0, .getRun false⟩]
    let s := run (exec fun _ => []) (begin frozenRow) steps
    Frozen (fun _ => []) frozenRow steps
      ∧ s.calls 0 = .returned (.str (text "new")) ∧ s.calls 1 = .returned (.str (text "new")) :=
  ⟨one_frozen_memory (fun _ => []) readable_frozenRow _, by decide +kernel, by decide +kernel⟩

/-- The record is filled, and of two calls that return after that one is handed `None`, its read
having raised, and the other the empty text, its write having raised. -/
theorem faulted_calls_differ :
    let filling : List Step :=
      [⟨0, .getRun false⟩, ⟨2, .getRun false⟩, ⟨0, .resolveLive (some (text "block"))⟩,
        ⟨2, .resolveLive (some (text "block"))⟩, ⟨0, .compareAndSet false⟩]
    let s := run (exec fun _ => []) (begin frozenRow)
      (filling ++ [⟨1, .getRun true⟩, ⟨2, .compareAndSet true⟩])
    recorded (run (exec fun _ => []) (begin frozenRow) filling).row = some (.str (text "block"))
      ∧ s.calls 1 = .returned .null ∧ s.calls 2 = .returned (.str []) := by
  decide +kernel

end CliAgentOrchestrator.Workflow.FrozenMemory
