import CliAgentOrchestrator.Library.Machine
import CliAgentOrchestrator.Truth.Projector

/-!
# Degradation episodes

What a projected row is for: a terminal is well, in one of six states, or it is ill, for a
reason, and then it remembers the state it fell from. `Condition` says that and no more, so a
condition that forgets its prior state cannot be built. Every row shows a condition, and every
call of the projector, of the sweep and of the probes moves it by `Condition.Moves`.
-/

set_option autoImplicit false

namespace CliAgentOrchestrator.Truth

open CliAgentOrchestrator.Core Library

/-! ## The condition of a terminal -/

/-- Well in a state, or ill since a moment. -/
inductive Condition
  | well (state : WorkerState) (state_ne : state ≠ .degraded)
  | ill (prior : WorkerState) (prior_ne : prior ≠ .degraded) (reason : DegradedReason)
      (since : Int)

/-- How one call may change a condition. An ill terminal keeps its prior state and its moment,
and its reason only rises. -/
inductive Condition.Moves : Condition → Condition → Prop
  | stay (c : Condition) : Moves c c
  | change {a b : WorkerState} (ha : a ≠ .degraded) (hb : b ≠ .degraded) :
      Moves (.well a ha) (.well b hb)
  | fall {a : WorkerState} (ha : a ≠ .degraded) (reason : DegradedReason) (since : Int) :
      Moves (.well a ha) (.ill a ha reason since)
  | rise {prior : WorkerState} (hprior : prior ≠ .degraded) {reason reason' : DegradedReason}
      (since : Int) (h : reason.rank < reason'.rank) :
      Moves (.ill prior hprior reason since) (.ill prior hprior reason' since)
  | leave {prior b : WorkerState} (hprior : prior ≠ .degraded) (reason : DegradedReason)
      (since : Int) (hb : b ≠ .degraded) :
      Moves (.ill prior hprior reason since) (.well b hb)

/-- The standing of a terminal, or the lack of one, shows a condition. -/
def Shows : Option Standing → Condition → Prop
  | none, .well state _ => state = .starting
  | none, .ill _ _ _ _ => False
  | some x, .well state _ => x.state = state ∧ x.degradedReason = none ∧ x.priorState = none
  | some x, .ill prior _ reason since =>
    x.state = .degraded ∧ x.degradedReason = some reason ∧ x.priorState = some prior ∧
      x.since = since

/-- A row the sequence number of which alone changes shows what it showed. -/
theorem Shows.advance {row : ProjectedState} {c : Condition} (h : Shows (some row.standing) c)
    (seq : Nat) : Shows (some { row with lastEventSeq := seq }.standing) c := by
  cases c with
  | _ => exact h

/-- A terminal without a row is loaded as one that is starting. -/
theorem Shows.load {states : StateStore} {terminalId : String} {c : Condition}
    (h : Shows (states.standing terminalId) c) (at_ : Int) :
    Shows (some (load states terminalId at_).standing) c := by
  unfold StateStore.standing at h
  unfold Truth.load
  cases hget : states.get terminalId with
  | none =>
    rw [hget] at h
    cases c with
    | well state state_ne =>
      obtain rfl : state = .starting := h
      exact ⟨rfl, rfl, rfl⟩
    | ill prior prior_ne reason since => exact h.elim
  | some row =>
    rw [hget] at h
    exact h

/-! ## The rules -/

/-- An event asserts the degraded state exactly with a reason. -/
theorem kindTarget_reason (kind : EventKind) (payload : Payload) :
    (kindTarget kind payload).1 = some .degraded ↔
      (kindTarget kind payload).2.isSome = true := by
  unfold kindTarget
  cases hreason : payloadReason payload <;> cases kind <;> simp [impliedState]

/-- SOURCE: app/worker_truth/mapping.py:195-229 -/
theorem answeredState_ne_degraded (payload : Payload) :
    answeredState payload ≠ some .degraded := by
  intro h
  unfold answeredState at h
  have hclamp := (Option.filter_eq_some_iff.mp h).2
  simp at hclamp

theorem eventTarget_reason (kind : EventKind) (payload : Payload) :
    (eventTarget kind payload).1 = some .degraded ↔
      (eventTarget kind payload).2.isSome = true := by
  unfold eventTarget
  split
  · cases htarget : (payload.str "latched_status").bind legacyState with
    | none => simp
    | some state => cases state <;> simp
  · cases hanswered : answeredState payload with
    | none => exact kindTarget_reason .promptAnswered payload
    | some resolved =>
      have hne : resolved ≠ .degraded := by
        rintro rfl
        exact answeredState_ne_degraded payload hanswered
      simp [hne]
  · exact kindTarget_reason kind payload

/-- SOURCE: app/worker_truth/projector.py:728-776 -/
theorem moves_diagonal {row : ProjectedState} {c : Condition} (h : Shows (some row.standing) c)
    (seq : Nat) (reason : Option DegradedReason) :
    ∃ c', Shows (some (diagonal row seq row.state reason).row.standing) c' ∧ c.Moves c' := by
  cases reason with
  | none => exact ⟨c, h.advance seq, .stay c⟩
  | some incoming =>
    unfold diagonal
    simp only
    split
    · next hrise =>
      obtain ⟨hdegraded, hrank⟩ := hrise
      cases c with
      | well state state_ne =>
        obtain ⟨rfl, -, -⟩ := h
        exact absurd hdegraded state_ne
      | ill prior prior_ne reason since =>
        obtain ⟨hstate, hreason, hprior, hsince⟩ := h
        have hreason : row.degradedReason = some reason := hreason
        have hlt : reason.rank < incoming.rank := by
          rw [hreason] at hrank
          simpa [reasonRises] using hrank
        exact ⟨.ill prior prior_ne incoming since, ⟨hstate, rfl, hprior, hsince⟩,
          .rise prior_ne since hlt⟩
    · exact ⟨c, h.advance seq, .stay c⟩

/-- A change to a state that is not the degraded one ends in a terminal that is well. -/
theorem moves_to_well (c : Condition) {b : WorkerState} (hb : b ≠ .degraded) :
    c.Moves (.well b hb) := by
  cases c with
  | well state state_ne => exact .change state_ne hb
  | ill prior prior_ne reason since => exact .leave prior_ne reason since hb

/-- SOURCE: app/worker_truth/projector.py:678-726 -/
theorem moves_transition {row : ProjectedState} {c : Condition} (h : Shows (some row.standing) c)
    (seq : Nat) (ingestedAt : Int) (target : Option WorkerState × Option DegradedReason)
    (htarget : target.1 = some .degraded ↔ target.2.isSome = true) :
    ∃ c', Shows (some (transition row seq ingestedAt target).row.standing) c' ∧ c.Moves c' := by
  obtain ⟨target, reason⟩ := target
  cases target with
  | none => exact ⟨c, h.advance seq, .stay c⟩
  | some target =>
    unfold transition
    simp only
    split
    · next hnoOp =>
      obtain rfl := (validate_eq_noOp_iff _ _).mp hnoOp
      exact moves_diagonal h seq reason
    · next hmoved =>
      have hne : row.state ≠ target := fun heq =>
        hmoved ((validate_eq_noOp_iff _ _).mpr heq)
      by_cases hdegraded : target = .degraded
      · subst hdegraded
        obtain ⟨incoming, rfl⟩ := Option.isSome_iff_exists.mp (htarget.mp rfl)
        cases c with
        | well state state_ne =>
          obtain ⟨rfl, -, -⟩ := h
          exact ⟨.ill row.state state_ne incoming ingestedAt, ⟨rfl, rfl, rfl, rfl⟩,
            .fall state_ne incoming ingestedAt⟩
        | ill prior prior_ne reason since => exact absurd h.1 hne
      · have hshows : Shows (some { row with
            state := target, since := ingestedAt, lastEventSeq := seq
            degradedReason := if target = WorkerState.degraded then reason else none
            priorState := if target = WorkerState.degraded then some row.state else none }.standing)
            (.well target hdegraded) := ⟨rfl, if_neg hdegraded, if_neg hdegraded⟩
        exact ⟨.well target hdegraded, hshows, moves_to_well c hdegraded⟩

/-- Recovery brings an ill terminal back to the state it fell from.
SOURCE: app/worker_truth/projector.py:778-828 -/
theorem shows_recover_of_ill {row : ProjectedState} {prior : WorkerState}
    {prior_ne : prior ≠ .degraded} {reason : DegradedReason} {since : Int}
    (h : Shows (some row.standing) (.ill prior prior_ne reason since)) (seq : Nat)
    (ingestedAt : Int) :
    Shows (some (recover row seq ingestedAt).row.standing) (.well prior prior_ne) := by
  obtain ⟨hstate, -, hprior, -⟩ := h
  have hstate : row.state = .degraded := hstate
  have hprior : row.priorState = some prior := hprior
  unfold recover
  rw [if_pos hstate, hprior]
  exact ⟨rfl, rfl, rfl⟩

theorem moves_recover {row : ProjectedState} {c : Condition} (h : Shows (some row.standing) c)
    (seq : Nat) (ingestedAt : Int) :
    ∃ c', Shows (some (recover row seq ingestedAt).row.standing) c' ∧ c.Moves c' := by
  cases c with
  | well state state_ne =>
    have hstate : row.state ≠ .degraded := fun heq => state_ne (h.1.symm.trans heq)
    unfold recover
    rw [if_neg hstate]
    exact ⟨.well state state_ne, h.advance seq, .stay _⟩
  | ill prior prior_ne reason since =>
    exact ⟨.well prior prior_ne, shows_recover_of_ill h seq ingestedAt,
      .leave prior_ne reason since prior_ne⟩

/-- SOURCE: app/worker_truth/projector.py:1104-1164 -/
theorem moves_degradeNoSignal {row : ProjectedState} {c : Condition}
    (h : Shows (some row.standing) c) (now : Int) :
    ∃ c', Shows (some (degradeNoSignal row now).row.standing) c' ∧ c.Moves c' := by
  unfold degradeNoSignal
  split
  · exact ⟨c, h, .stay c⟩
  · next hfalls =>
    cases c with
    | well state state_ne =>
      obtain ⟨rfl, -, -⟩ := h
      exact ⟨.ill row.state state_ne .noSignal now, ⟨rfl, rfl, rfl, rfl⟩,
        .fall state_ne .noSignal now⟩
    | ill prior prior_ne reason since =>
      obtain ⟨hstate, hreason, -, -⟩ := h
      have hreason : row.degradedReason = some reason := hreason
      refine absurd ⟨hstate, ?_⟩ hfalls
      rw [hreason]
      exact reasonRises_noSignal reason

theorem moves_rule {row : ProjectedState} {c : Condition} (h : Shows (some row.standing) c)
    (owned : Bool) (kind : EventKind) (event : WorkerEvent) :
    ∃ c', Shows (some (rule owned row kind event).row.standing) c' ∧ c.Moves c' := by
  unfold rule
  split
  · exact ⟨c, h.advance event.seq, .stay c⟩
  · split
    · exact moves_recover h event.seq event.ingestedAt
    · exact moves_transition h event.seq event.ingestedAt _ (eventTarget_reason kind event.payload)

/-! ## The calls -/

/-- A call that moves the projection, or stores the event that a later call reads. A pass of the
sweep is a run of its turns, and other calls may come between two of them.
SOURCE: app/worker_truth/projector.py:449-507, 935-982, adapters/store/state.py:190-238,
adapters/store/event_log.py:85-157 -/
inductive TruthStep
  | append (draft : EventDraft) (eventId : String) (ingestedAt : Int)
  | project (env : Surroundings) (event : WorkerEvent)
  | sweepTerminal (env : Surroundings) (terminalId : String)
  | touchProbe (terminalId : String) (probe : Probe)
  | touchSourceProbe (terminalId : String) (probedAt : Int)

def TruthStep.exec (s : Store) : TruthStep → Store
  | append draft eventId ingestedAt =>
    ((s.events.append draft eventId ingestedAt).map fun x => { s with events := x.2 }).getD s
  | project env event => (Truth.project env s event).2
  | sweepTerminal env terminalId => (Truth.sweepTerminal env s terminalId).2
  | touchProbe terminalId probe => { s with states := s.states.touchProbe terminalId probe }
  | touchSourceProbe terminalId probedAt =>
    { s with states := s.states.touchSourceProbe terminalId probedAt }

/-- A pass of the sweep is a run of turns. -/
theorem sweepAll_eq_run (env : String → Surroundings) (s : Store) (terminalIds : List String) :
    ∃ turns : List TruthStep, sweepAll env s terminalIds = run TruthStep.exec s turns := by
  induction terminalIds generalizing s with
  | nil => exact ⟨[], rfl⟩
  | cons terminalId rest ih =>
    obtain ⟨turns, hturns⟩ := ih (Truth.sweepTerminal (env terminalId) s terminalId).2
    unfold sweepAll
    dsimp only
    split
    · exact ⟨.sweepTerminal (env terminalId) terminalId :: turns, hturns⟩
    · exact ⟨[.sweepTerminal (env terminalId) terminalId], rfl⟩

/-- A row that is written moves the condition of its terminal as its rule does, and no other. -/
theorem moves_upsert {states : StateStore} {terminalId : String} {c : Condition}
    (h : Shows (states.standing terminalId) c) {row : ProjectedState}
    (hrow : terminalId = row.terminalId → ∃ c', Shows (some row.standing) c' ∧ c.Moves c') :
    ∃ c', Shows ((states.upsert row).standing terminalId) c' ∧ c.Moves c' := by
  rw [StateStore.standing_upsert]
  by_cases hid : terminalId = row.terminalId
  · rw [if_pos hid]
    exact hrow hid
  · rw [if_neg hid]
    exact ⟨c, h, .stay c⟩

theorem moves_carryOut {s : Store} {terminalId : String} {c : Condition}
    (h : Shows (s.states.standing terminalId) c) (env : Surroundings) {ruling : Ruling}
    (cause : WorkerEvent)
    (hruling : terminalId = ruling.row.terminalId →
      ∃ c', Shows (some ruling.row.standing) c' ∧ c.Moves c') :
    ∃ c', Shows ((carryOut env s ruling cause).2.states.standing terminalId) c' ∧
      c.Moves c' := by
  rw [carryOut_states]
  split
  · exact ⟨c, h, .stay c⟩
  · exact moves_upsert h hruling

theorem moves_project {s : Store} {terminalId : String} {c : Condition}
    (h : Shows (s.states.standing terminalId) c) (env : Surroundings) (event : WorkerEvent) :
    ∃ c', Shows ((Truth.project env s event).2.states.standing terminalId) c' ∧ c.Moves c' := by
  cases hkind : event.kind with
  | decision kind =>
    rw [project_of_decision env s hkind]
    exact ⟨c, h, .stay c⟩
  | event kind =>
    rw [project_of_event env s hkind]
    split
    · exact ⟨c, h, .stay c⟩
    · apply moves_carryOut h
      intro hid
      rw [rule_terminalId, load_terminalId] at hid
      subst hid
      exact moves_rule (h.load event.ingestedAt) _ kind event

theorem moves_sweepTerminal {s : Store} {terminalId : String} {c : Condition}
    (h : Shows (s.states.standing terminalId) c) (env : Surroundings) (swept : String) :
    ∃ c', Shows ((Truth.sweepTerminal env s swept).2.states.standing terminalId) c' ∧
      c.Moves c' := by
  unfold Truth.sweepTerminal
  split
  · exact ⟨c, h, .stay c⟩
  · cases hget : s.states.get swept with
    | none => exact ⟨c, h, .stay c⟩
    | some row =>
      dsimp only
      split
      · exact ⟨c, h, .stay c⟩
      · split
        · exact ⟨c, h, .stay c⟩
        · cases lastEvent s.events swept row.lastEventSeq with
          | none => exact ⟨c, h, .stay c⟩
          | some event =>
            apply moves_carryOut h
            intro hid
            rw [degradeNoSignal_terminalId] at hid
            have hswept : terminalId = swept := hid.trans (Table.key_of_get hget)
            subst hswept
            have hrow : Shows (some row.standing) c := by
              simpa [StateStore.standing, hget] using h
            exact moves_degradeNoSignal hrow env.now

/-- A probe writes its own columns; a row it makes is one of a terminal that is starting. -/
theorem shows_touch {states : StateStore} {terminalId : String} {c : Condition}
    (h : Shows (states.standing terminalId) c) (made : ProjectedState)
    (columns : Patch ProjectedState.terminalId)
    (hmade : made.state = .starting ∧ made.degradedReason = none ∧ made.priorState = none)
    (hcolumns : ∀ r, (columns.apply r).standing = r.standing) :
    Shows (StateStore.standing (Table.upsert states made columns) terminalId) c := by
  unfold StateStore.standing at h ⊢
  rw [Table.get_upsert]
  split
  · next hid =>
    cases hget : states.get terminalId with
    | none =>
      rw [hget] at h
      cases c with
      | well state state_ne =>
        obtain rfl : state = .starting := h
        exact hmade
      | ill prior prior_ne reason since => exact h.elim
    | some row =>
      rw [hget] at h
      show Shows (some (columns.apply row).standing) c
      rw [hcolumns]
      exact h
  · exact h

/-- Every call moves the condition of every terminal as `Condition.Moves` allows. -/
theorem moves_exec {s : Store} {terminalId : String} {c : Condition}
    (h : Shows (s.states.standing terminalId) c) (step : TruthStep) :
    ∃ c', Shows ((TruthStep.exec s step).states.standing terminalId) c' ∧ c.Moves c' := by
  cases step with
  | append draft eventId ingestedAt =>
    refine ⟨c, ?_, .stay c⟩
    simp only [TruthStep.exec]
    cases s.events.append draft eventId ingestedAt <;> exact h
  | project env event => exact moves_project h env event
  | sweepTerminal env swept => exact moves_sweepTerminal h env swept
  | touchProbe touched probe =>
    exact ⟨c, shows_touch h _ (probePatch probe) ⟨rfl, rfl, rfl⟩ fun _ => rfl, .stay c⟩
  | touchSourceProbe touched probedAt =>
    exact ⟨c, shows_touch h _ (sourceProbePatch probedAt) ⟨rfl, rfl, rfl⟩ fun _ => rfl, .stay c⟩

/-! ## Runs -/

/-- The state of a terminal; one without a row is starting. -/
def StateStore.stateOf (states : StateStore) (terminalId : String) : WorkerState :=
  ((states.standing terminalId).map Standing.state).getD .starting

theorem Shows.stateOf_of_well {states : StateStore} {terminalId : String} {state : WorkerState}
    {state_ne : state ≠ .degraded}
    (h : Shows (states.standing terminalId) (.well state state_ne)) :
    states.stateOf terminalId = state := by
  unfold StateStore.stateOf
  cases hx : states.standing terminalId with
  | none =>
    rw [hx] at h
    exact (show state = .starting from h).symm
  | some x =>
    rw [hx] at h
    exact h.1

theorem Shows.stateOf_of_ill {states : StateStore} {terminalId : String} {prior : WorkerState}
    {prior_ne : prior ≠ .degraded} {reason : DegradedReason} {since : Int}
    (h : Shows (states.standing terminalId) (.ill prior prior_ne reason since)) :
    states.stateOf terminalId = .degraded := by
  unfold StateStore.stateOf
  cases hx : states.standing terminalId with
  | none =>
    rw [hx] at h
    exact h.elim
  | some x =>
    rw [hx] at h
    exact h.1

/-- A terminal that is ill has a row. -/
theorem Shows.exists_standing {x : Option Standing} {prior : WorkerState}
    {prior_ne : prior ≠ .degraded} {reason : DegradedReason} {since : Int}
    (h : Shows x (.ill prior prior_ne reason since)) : ∃ y, x = some y := by
  cases x with
  | none => exact h.elim
  | some y => exact ⟨y, rfl⟩

/-- In every state a run reaches, every terminal shows a condition. -/
theorem exists_shows (steps : List TruthStep) (terminalId : String) :
    ∃ c, Shows ((run TruthStep.exec .empty steps).states.standing terminalId) c := by
  refine run_invariant (fun s : Store => ∃ c, Shows (s.states.standing terminalId) c) ?_ _ ?_ steps
  · rintro s step ⟨c, hc⟩
    obtain ⟨c', hc', -⟩ := moves_exec hc step
    exact ⟨c', hc'⟩
  · exact ⟨.well .starting (by simp), rfl⟩

/-- What the row invariant asks of the half of a row the projector owns. -/
structure Standing.Sound (x : Standing) : Prop where
  degraded_iff_reason : x.state = .degraded ↔ x.degradedReason.isSome = true
  reason_iff_prior : x.degradedReason.isSome = true ↔ x.priorState.isSome = true
  prior_ne_degraded : x.priorState ≠ some .degraded

theorem Shows.sound {x : Standing} {c : Condition} (h : Shows (some x) c) : x.Sound := by
  cases c with
  | well state state_ne =>
    obtain ⟨hstate, hreason, hprior⟩ := h
    have hne : x.state ≠ .degraded := hstate ▸ state_ne
    exact ⟨by simp [hne, hreason], by simp [hreason, hprior], by simp [hprior]⟩
  | ill prior prior_ne reason since =>
    obtain ⟨hstate, hreason, hprior, -⟩ := h
    exact ⟨by simp [hstate, hreason], by simp [hreason, hprior], by simp [hprior, prior_ne]⟩

/-- The rank of the reason a standing gives. -/
def Standing.reasonRank (x : Standing) : Nat := (x.degradedReason.map DegradedReason.rank).getD 0

/-- The terminal is degraded before the first of the steps, between them and after the last. -/
def DegradedThroughout (s : Store) (terminalId : String) (steps : List TruthStep) : Prop :=
  ∀ before after, steps = before ++ after →
    (run TruthStep.exec s before).states.stateOf terminalId = .degraded

theorem DegradedThroughout.tail {s : Store} {terminalId : String} {step : TruthStep}
    {rest : List TruthStep} (h : DegradedThroughout s terminalId (step :: rest)) :
    DegradedThroughout (TruthStep.exec s step) terminalId rest := by
  rintro before after rfl
  exact h (step :: before) after rfl

/-- A terminal that stays ill keeps its prior state and its moment, and its reason rises at
most. -/
theorem ill_throughout (steps : List TruthStep) {s : Store} {terminalId : String}
    {prior : WorkerState} {prior_ne : prior ≠ .degraded} {reason : DegradedReason} {since : Int}
    (h : Shows (s.states.standing terminalId) (.ill prior prior_ne reason since))
    (hthrough : DegradedThroughout s terminalId steps) :
    ∃ reason', reason.rank ≤ reason'.rank ∧
      Shows ((run TruthStep.exec s steps).states.standing terminalId)
        (.ill prior prior_ne reason' since) := by
  induction steps generalizing s reason with
  | nil => exact ⟨reason, le_rfl, h⟩
  | cons step rest ih =>
    obtain ⟨c', hc', hmoves⟩ := moves_exec h step
    have hdegraded : (TruthStep.exec s step).states.stateOf terminalId = .degraded :=
      hthrough [step] rest rfl
    cases hmoves with
    | stay => exact ih hc' hthrough.tail
    | rise _ _ hlt =>
      obtain ⟨reason', hle, hshows⟩ := ih hc' hthrough.tail
      exact ⟨reason', hlt.le.trans hle, hshows⟩
    | leave _ _ _ hb => exact absurd (hc'.stateOf_of_well.symm.trans hdegraded) hb

/-- A terminal that was well and stays degraded from its next step on remembers what it was. -/
theorem ill_of_fallen {s : Store} {terminalId : String} {c : Condition}
    (h : Shows (s.states.standing terminalId) c)
    (hwell : s.states.stateOf terminalId ≠ .degraded) (first : TruthStep)
    (rest : List TruthStep)
    (hthrough : DegradedThroughout (TruthStep.exec s first) terminalId rest) :
    ∃ prior_ne reason since, Shows
      ((run TruthStep.exec s (first :: rest)).states.standing terminalId)
      (.ill (s.states.stateOf terminalId) prior_ne reason since) := by
  cases c with
  | ill prior prior_ne reason since => exact absurd h.stateOf_of_ill hwell
  | well state state_ne =>
    obtain rfl : s.states.stateOf terminalId = state := h.stateOf_of_well
    obtain ⟨c', hc', hmoves⟩ := moves_exec h first
    have hdegraded : (TruthStep.exec s first).states.stateOf terminalId = .degraded :=
      hthrough [] rest rfl
    cases hmoves with
    | stay => exact absurd (hc'.stateOf_of_well.symm.trans hdegraded) state_ne
    | change _ hb => exact absurd (hc'.stateOf_of_well.symm.trans hdegraded) hb
    | fall _ reason since =>
      obtain ⟨reason', -, hshows⟩ := ill_throughout rest hc' hthrough
      exact ⟨state_ne, reason', since, hshows⟩

/-- `pane.recovered` on an ill terminal restores the state it fell from. -/
theorem stateOf_recovered {s : Store} {event : WorkerEvent} {prior : WorkerState}
    {prior_ne : prior ≠ .degraded} {reason : DegradedReason} {since : Int}
    (h : Shows (s.states.standing event.terminalId) (.ill prior prior_ne reason since))
    (env : Surroundings) (hkind : event.kind = .event .paneRecovered)
    (hget : env.raises .get = false) (hupsert : env.raises .upsert = false) :
    (Truth.project env s event).2.states.stateOf event.terminalId = prior := by
  have hshows := shows_recover_of_ill (h.load event.ingestedAt) event.seq event.ingestedAt
  have hrule : ∀ owned row,
      rule owned row .paneRecovered event = recover row event.seq event.ingestedAt := by
    intro owned row
    simp [rule, isMuted, derivedAlwaysKinds]
  have hid : event.terminalId =
      (recover (load s.states event.terminalId event.ingestedAt) event.seq
        event.ingestedAt).row.terminalId := by
    rw [← hrule false, rule_terminalId, load_terminalId]
  rw [project_of_event env s hkind, hrule, hget, if_neg Bool.false_ne_true]
  rw [← StateStore.standing_upsert_self s.states hid] at hshows
  have hafter : Shows ((carryOut env s (recover (load s.states event.terminalId event.ingestedAt)
      event.seq event.ingestedAt) event).2.states.standing event.terminalId)
      (.well prior prior_ne) := by
    rw [carryOut_states, hupsert, if_neg Bool.false_ne_true]
    exact hshows
  exact hafter.stateOf_of_well

/-- Every row of every run satisfies the row invariant; a terminal that stays degraded keeps its
moment and its prior state while its reason at most rises; `pane.recovered` restores the state
the terminal had before it fell; and a decision row moves nothing. -/
theorem projection_row_invariant (steps : List TruthStep) :
    let s := run TruthStep.exec .empty steps
    (∀ row ∈ s.states.rows, row.standing.Sound) ∧
    (∀ before stretch terminalId, steps = before ++ stretch →
      DegradedThroughout (run TruthStep.exec .empty before) terminalId stretch →
      ∃ x y, (run TruthStep.exec .empty before).states.standing terminalId = some x ∧
        s.states.standing terminalId = some y ∧ y.since = x.since ∧
        y.priorState = x.priorState ∧ x.reasonRank ≤ y.reasonRank) ∧
    (∀ before first stretch env (event : WorkerEvent), steps = before ++ first :: stretch →
      (run TruthStep.exec .empty before).states.stateOf event.terminalId ≠ .degraded →
      DegradedThroughout (run TruthStep.exec .empty (before ++ [first])) event.terminalId stretch →
      event.kind = .event .paneRecovered → env.raises .get = false → env.raises .upsert = false →
      (Truth.project env s event).2.states.stateOf event.terminalId =
        (run TruthStep.exec .empty before).states.stateOf event.terminalId) ∧
    (∀ env (event : WorkerEvent), event.decision ≠ none →
      Truth.project env s event = (true, s)) := by
  intro s
  refine ⟨?_, ?_, ?_, ?_⟩
  · intro row hrow
    obtain ⟨c, hc⟩ := exists_shows steps row.terminalId
    have hget : s.states.get row.terminalId = some row := (Table.mem_rows_iff s.states row).mp hrow
    have hstanding : s.states.standing row.terminalId = some row.standing := by
      simp [StateStore.standing, hget]
    rw [hstanding] at hc
    exact hc.sound
  · rintro before stretch terminalId rfl hthrough
    obtain ⟨c, hc⟩ := exists_shows before terminalId
    have hdegraded := hthrough [] stretch rfl
    cases c with
    | well state state_ne => exact absurd (hc.stateOf_of_well.symm.trans hdegraded) state_ne
    | ill prior prior_ne reason since =>
      obtain ⟨reason', hle, hend⟩ := ill_throughout stretch hc hthrough
      rw [← run_append] at hend
      obtain ⟨x, hx⟩ := hc.exists_standing
      obtain ⟨y, hy⟩ := hend.exists_standing
      rw [hx] at hc
      rw [hy] at hend
      obtain ⟨-, hreasonx, hpriorx, hsincex⟩ := hc
      obtain ⟨-, hreasony, hpriory, hsincey⟩ := hend
      refine ⟨x, y, hx, hy, hsincey.trans hsincex.symm, hpriory.trans hpriorx.symm, ?_⟩
      simpa [Standing.reasonRank, hreasonx, hreasony] using hle
  · rintro before first stretch env event rfl hwell hthrough hkind hget hupsert
    obtain ⟨c, hc⟩ := exists_shows before event.terminalId
    rw [run_concat] at hthrough
    obtain ⟨prior_ne, reason, since, hill⟩ := ill_of_fallen hc hwell first stretch hthrough
    rw [← run_append] at hill
    exact stateOf_recovered hill env hkind hget hupsert
  · intro env event hdecision
    cases hkind : event.kind with
    | decision kind => exact project_of_decision env s hkind
    | event kind => simp [EventDraft.decision, hkind, AnyKind.asDecision] at hdecision

private def heardOnce : EventDraft where
  terminalId := "t"
  kind := .event .turnStarted
  producer := .hook
  confidence := .authoritative
  observedAt := 0
  payload := []
  sourceRef := none
  runId := none
  msgId := none
  evidence := none
  idempotencyKey := none
  terminalId_ne := by decide
  evidence_eq_none _ := rfl

/-- The sweep finds the event that was stored, and its terminal falls silent. -/
example :
    let env : Surroundings := ⟨seconds 61, fun _ => false, fun _ => false, "d", 0, fun _ => false⟩
    (run TruthStep.exec .empty [.append heardOnce "e" 0,
      .project env ⟨heardOnce, "e", 1, 0, le_rfl⟩, .sweepTerminal env "t"]).states.stateOf "t" =
      .degraded := by decide

end CliAgentOrchestrator.Truth
