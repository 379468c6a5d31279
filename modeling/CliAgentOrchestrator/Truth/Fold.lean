import CliAgentOrchestrator.Truth.Chain

/-!
# The projection as the fold of the log

What the projection of a terminal would be if its stored worker truth were folded once, in the
order of its numbers, and when the threads that append and fold agree with that. A fold takes
the number of its event without looking at the one the row has, so the two part exactly when a
fold comes with an older event than the row has seen.
-/

set_option autoImplicit false

namespace CliAgentOrchestrator.Truth

open CliAgentOrchestrator.Core Library

/-! ## The fold of the log -/

/-- One event on a row, with the answer whether the projection owns the status. -/
def foldOne (owned : WorkerEvent → Bool) (row : ProjectedState) (event : WorkerEvent) :
    ProjectedState :=
  match event.kind with
  | .decision _ => row
  | .event kind => (rule (owned event) row kind event).row

/-- The worker truth of a terminal, in the order of its numbers. -/
def EventLog.truths (log : EventLog) (terminalId : String) : List WorkerEvent :=
  (log.read terminalId 0).filter fun e => e.decision.isNone

/-- A terminal nothing has been folded for. -/
def freshRow (terminalId : String) : ProjectedState := { terminalId := terminalId, since := 0 }

/-- The worker truth of a terminal, folded once in order. -/
def foldLog (owned : WorkerEvent → Bool) (log : EventLog) (terminalId : String) : Projection :=
  ((log.truths terminalId).foldl (foldOne owned) (freshRow terminalId)).projection

/-! ## A fold looks at three columns -/

/-- The columns a rule reads. -/
def ProjectedState.core (r : ProjectedState) :
    WorkerState × Option DegradedReason × Option WorkerState :=
  (r.state, r.degradedReason, r.priorState)

theorem core_eq_iff (r r' : ProjectedState) :
    r.core = r'.core ↔
      r.state = r'.state ∧ r.degradedReason = r'.degradedReason ∧ r.priorState = r'.priorState := by
  simp [ProjectedState.core]

theorem projection_of_core {r r' : ProjectedState} (h : r.core = r'.core) :
    r.projection = r'.projection := by
  obtain ⟨hstate, hreason, -⟩ := (core_eq_iff r r').mp h
  exact Prod.ext hstate hreason

theorem core_diagonal {r r' : ProjectedState} (h : r.core = r'.core) (seq : Nat)
    (target : WorkerState) (reason : Option DegradedReason) :
    (diagonal r seq target reason).row.core = (diagonal r' seq target reason).row.core := by
  obtain ⟨hstate, hreason, hprior⟩ := (core_eq_iff r r').mp h
  unfold diagonal
  cases reason with
  | none => exact h
  | some incoming =>
    dsimp only
    rw [hreason]
    split <;> simp [ProjectedState.core, hstate, hprior]

theorem core_transition {r r' : ProjectedState} (h : r.core = r'.core) (seq : Nat)
    (ingestedAt : Int) (target : Option WorkerState × Option DegradedReason) :
    (transition r seq ingestedAt target).row.core =
      (transition r' seq ingestedAt target).row.core := by
  obtain ⟨hstate, hreason, hprior⟩ := (core_eq_iff r r').mp h
  obtain ⟨target, reason⟩ := target
  unfold transition
  cases target with
  | none => exact h
  | some target =>
    dsimp only
    rw [hstate]
    split
    · exact core_diagonal h seq target reason
    · simp [ProjectedState.core]

theorem core_recover {r r' : ProjectedState} (h : r.core = r'.core) (seq : Nat)
    (ingestedAt : Int) :
    (recover r seq ingestedAt).row.core = (recover r' seq ingestedAt).row.core := by
  obtain ⟨hstate, hreason, hprior⟩ := (core_eq_iff r r').mp h
  unfold recover
  rw [hstate, hprior]
  split
  · simp [ProjectedState.core]
  · simp [ProjectedState.core, hreason]

theorem core_rule {r r' : ProjectedState} (h : r.core = r'.core) (owned : Bool)
    (kind : EventKind) (event : WorkerEvent) :
    (rule owned r kind event).row.core = (rule owned r' kind event).row.core := by
  unfold rule
  split
  · exact h
  · split
    · exact core_recover h event.seq event.ingestedAt
    · exact core_transition h event.seq event.ingestedAt _

theorem core_foldOne (owned : WorkerEvent → Bool) {r r' : ProjectedState} (h : r.core = r'.core)
    (event : WorkerEvent) : (foldOne owned r event).core = (foldOne owned r' event).core := by
  unfold foldOne
  cases event.kind with
  | decision kind => exact h
  | event kind => exact core_rule h (owned event) kind event

/-! ## A second fold of one event -/

/-- What a target asks is already so: the row is in that state, for a reason at least as strong. -/
def Settled (row : ProjectedState) (target : WorkerState) (reason : Option DegradedReason) : Prop :=
  row.state = target ∧
    ∀ incoming, reason = some incoming → target = .degraded →
      reasonRises row.degradedReason incoming = false

theorem Settled.core_transition {row : ProjectedState} {target : WorkerState}
    {reason : Option DegradedReason} (h : Settled row target reason) (seq : Nat)
    (ingestedAt : Int) :
    (transition row seq ingestedAt (some target, reason)).row.core = row.core := by
  obtain ⟨rfl, hreason⟩ := h
  have hnoOp : validate row.state row.state = .noOp := (validate_eq_noOp_iff _ _).mpr rfl
  unfold transition
  dsimp only
  rw [hnoOp]
  unfold diagonal
  cases reason with
  | none => rfl
  | some incoming =>
    have hnot : ¬ (row.state = .degraded ∧ reasonRises row.degradedReason incoming = true) := by
      rintro ⟨hdegraded, hrise⟩
      rw [hreason incoming rfl hdegraded] at hrise
      cases hrise
    dsimp only
    rw [if_neg hnot]
    rfl

/-- A transition settles what it was asked. -/
theorem settled_transition (row : ProjectedState) (seq : Nat) (ingestedAt : Int)
    (target : WorkerState) (reason : Option DegradedReason) :
    Settled (transition row seq ingestedAt (some target, reason)).row target reason := by
  unfold transition
  dsimp only
  split
  · next hnoOp =>
    obtain rfl := (validate_eq_noOp_iff _ _).mp hnoOp
    unfold diagonal
    cases reason with
    | none => exact ⟨rfl, fun incoming hnone => by cases hnone⟩
    | some incoming =>
      dsimp only
      split
      · refine ⟨rfl, ?_⟩
        intro again hagain _
        cases hagain
        exact reasonRises_self incoming
      · next hlow =>
        refine ⟨rfl, ?_⟩
        intro again hagain hdegraded
        cases hagain
        exact Bool.eq_false_iff.mpr fun hrise => hlow ⟨hdegraded, hrise⟩
  · refine ⟨rfl, ?_⟩
    rintro incoming rfl hdegraded
    show reasonRises (if target = WorkerState.degraded then some incoming else none) incoming = false
    rw [if_pos hdegraded]
    exact reasonRises_self incoming

theorem core_recover_twice {row : ProjectedState} {c : Condition}
    (h : Shows (some row.standing) c) (seq : Nat) (ingestedAt : Int) :
    (recover (recover row seq ingestedAt).row seq ingestedAt).row.core =
      (recover row seq ingestedAt).row.core := by
  have hwell : (recover row seq ingestedAt).row.state ≠ .degraded := by
    cases c with
    | well state state_ne =>
      have hstate : row.state ≠ .degraded := fun heq => state_ne (h.1.symm.trans heq)
      unfold recover
      rw [if_neg hstate]
      exact hstate
    | ill prior prior_ne reason since =>
      have hprior := (shows_recover_of_ill h seq ingestedAt).1
      exact fun heq => prior_ne (hprior.symm.trans heq)
  generalize (recover row seq ingestedAt).row = again at hwell ⊢
  unfold recover
  rw [if_neg hwell]
  rfl

/-- Folding an event a second time changes nothing that a rule reads. -/
theorem core_foldOne_twice (owned : WorkerEvent → Bool) {row : ProjectedState} {c : Condition}
    (h : Shows (some row.standing) c) (event : WorkerEvent) :
    (foldOne owned (foldOne owned row event) event).core = (foldOne owned row event).core := by
  unfold foldOne
  cases event.kind with
  | decision kind => rfl
  | event kind =>
    dsimp only
    unfold rule
    split
    · rfl
    · split
      · exact core_recover_twice h event.seq event.ingestedAt
      · cases htarget : eventTarget kind event.payload with
        | mk target reason =>
          cases target with
          | none => rfl
          | some target => exact (settled_transition row _ _ target reason).core_transition _ _

/-- The fold of any events ends in a row that shows a condition. -/
theorem exists_shows_foldl (owned : WorkerEvent → Bool) (events : List WorkerEvent)
    {row : ProjectedState} (h : ∃ c, Shows (some row.standing) c) :
    ∃ c, Shows (some (events.foldl (foldOne owned) row).standing) c := by
  induction events generalizing row with
  | nil => exact h
  | cons event rest ih =>
    apply ih
    obtain ⟨c, hc⟩ := h
    unfold foldOne
    cases event.kind with
    | decision kind => exact ⟨c, hc⟩
    | event kind =>
      obtain ⟨c', hc', -⟩ := moves_rule hc (owned event) kind event
      exact ⟨c', hc'⟩

theorem exists_shows_fresh (terminalId : String) :
    ∃ c, Shows (some (freshRow terminalId).standing) c :=
  ⟨.well .starting (by simp), rfl, rfl, rfl⟩

/-! ## What a fold writes -/

/-- The number of the event folded last; 0 for a terminal nothing has been folded for. -/
def StateStore.lastSeq (states : StateStore) (terminalId : String) : Nat :=
  ((states.get terminalId).map ProjectedState.lastEventSeq).getD 0

/-- What a rule reads of a terminal. -/
def StateStore.core (states : StateStore) (terminalId : String) :
    WorkerState × Option DegradedReason × Option WorkerState :=
  ((states.get terminalId).map ProjectedState.core).getD (.starting, none, none)

theorem load_core (states : StateStore) (terminalId : String) (at_ : Int) :
    (load states terminalId at_).core = states.core terminalId := by
  unfold StateStore.core Truth.load
  cases states.get terminalId <;> rfl

theorem StateStore.lastSeq_upsert (s : StateStore) (p : ProjectedState) (terminalId : String) :
    (s.upsert p).lastSeq terminalId =
      if terminalId = p.terminalId then p.lastEventSeq else s.lastSeq terminalId := by
  unfold StateStore.lastSeq StateStore.upsert
  rw [Table.get_upsert]
  by_cases h : terminalId = p.terminalId
  · subst h
    cases s.get p.terminalId <;> simp [projectionPatch]
  · simp [h]

theorem StateStore.core_upsert (s : StateStore) (p : ProjectedState) (terminalId : String) :
    (s.upsert p).core terminalId =
      if terminalId = p.terminalId then p.core else s.core terminalId := by
  unfold StateStore.core StateStore.upsert
  rw [Table.get_upsert]
  by_cases h : terminalId = p.terminalId
  · subst h
    cases s.get p.terminalId <;> simp [projectionPatch, ProjectedState.core]
  · simp [h]

/-- A probe touches neither. -/
theorem touch_keeps (s : StateStore) (made : ProjectedState)
    (columns : Patch ProjectedState.terminalId) (hmade : made.core = (.starting, none, none))
    (hseq : made.lastEventSeq = 0)
    (hcolumns : ∀ r, (columns.apply r).core = r.core ∧
      (columns.apply r).lastEventSeq = r.lastEventSeq) (terminalId : String) :
    StateStore.core (Table.upsert s made columns) terminalId = s.core terminalId ∧
      StateStore.lastSeq (Table.upsert s made columns) terminalId = s.lastSeq terminalId := by
  unfold StateStore.core StateStore.lastSeq
  rw [Table.get_upsert]
  split
  · cases s.get terminalId <;> simp [hmade, hseq, hcolumns]
  · exact ⟨rfl, rfl⟩

/-- Every rule takes the number of its event. -/
theorem rule_lastEventSeq (owned : Bool) (row : ProjectedState) (kind : EventKind)
    (event : WorkerEvent) : (rule owned row kind event).row.lastEventSeq = event.seq := by
  unfold rule transition recover
  split
  · rfl
  · split
    · split <;> rfl
    · split
      · rfl
      · split
        · unfold diagonal
          split
          · split <;> rfl
          · rfl
        · rfl

/-- The answer whether the projection owns the status is `owned`'s, and the stores do not raise
when a fold reads and writes the row; nothing sweeps and the process does not stop. -/
def Answers (owned : WorkerEvent → Bool) (s : Emitting) : EmitStep → Prop
  | .fold i env => ∀ event, s.unfolded[i]? = some event →
    projected env (load s.store.states event.terminalId event.ingestedAt) = owned event ∧
      env.raises .get = false ∧ env.raises .upsert = false
  | .sweepTerminal _ _ => False
  | .stop => False
  | _ => True

/-- A fold comes with no older event than the row of its terminal has seen. -/
def ComesInOrder (s : Emitting) : EmitStep → Prop
  | .fold i _ => ∀ event, s.unfolded[i]? = some event → event.decision = none →
    s.store.states.lastSeq event.terminalId ≤ event.seq
  | _ => True

theorem decision_eq_none_iff (e : WorkerEvent) :
    e.decision = none ↔ ∃ kind, e.kind = .event kind := by
  unfold EventDraft.decision
  cases e.kind <;> simp [AnyKind.asDecision]

/-- The row after the fold of one event. -/
theorem fold_states {owned : WorkerEvent → Bool} {s : Emitting} {i : Nat} {env : Surroundings}
    {event : WorkerEvent} (hevent : s.unfolded[i]? = some event)
    (h : Answers owned s (.fold i env)) (hdecision : event.decision = none) :
    (EmitStep.exec s (.fold i env)).store.states =
      s.store.states.upsert
        (foldOne owned (load s.store.states event.terminalId event.ingestedAt) event) := by
  obtain ⟨howned, hget, hupsert⟩ := h event hevent
  obtain ⟨kind, hkind⟩ := (decision_eq_none_iff event).mp hdecision
  simp only [EmitStep.exec, hevent, foldOne, hkind]
  rw [project_of_event env s.store hkind, hget, if_neg Bool.false_ne_true, carryOut_states, hupsert,
    if_neg Bool.false_ne_true, howned]

theorem foldOne_terminalId (owned : WorkerEvent → Bool) (row : ProjectedState)
    (event : WorkerEvent) : (foldOne owned row event).terminalId = row.terminalId := by
  unfold foldOne
  cases event.kind with
  | decision kind => rfl
  | event kind => exact rule_terminalId (owned event) row kind event

theorem foldOne_lastEventSeq (owned : WorkerEvent → Bool) (row : ProjectedState)
    {event : WorkerEvent} (hdecision : event.decision = none) :
    (foldOne owned row event).lastEventSeq = event.seq := by
  obtain ⟨kind, hkind⟩ := (decision_eq_none_iff event).mp hdecision
  unfold foldOne
  rw [hkind]
  exact rule_lastEventSeq (owned event) row kind event

/-- What a fold of worker truth leaves of each terminal. -/
theorem fold_effect {owned : WorkerEvent → Bool} {s : Emitting} {i : Nat} {env : Surroundings}
    {event : WorkerEvent} (hevent : s.unfolded[i]? = some event)
    (h : Answers owned s (.fold i env)) (hdecision : event.decision = none)
    (terminalId : String) :
    (EmitStep.exec s (.fold i env)).store.states.lastSeq terminalId =
        (if terminalId = event.terminalId then event.seq else s.store.states.lastSeq terminalId) ∧
      (EmitStep.exec s (.fold i env)).store.states.core terminalId =
        if terminalId = event.terminalId then
          (foldOne owned (load s.store.states event.terminalId event.ingestedAt) event).core
        else s.store.states.core terminalId := by
  rw [fold_states hevent h hdecision, StateStore.lastSeq_upsert, StateStore.core_upsert,
    foldOne_terminalId, load_terminalId, foldOne_lastEventSeq owned _ hdecision]
  exact ⟨rfl, rfl⟩

/-- Every other step leaves both. -/
theorem unfolding_effect {owned : WorkerEvent → Bool} {s : Emitting} {step : EmitStep}
    (h : Answers owned s step)
    (hnot : ∀ i env event, step = .fold i env → s.unfolded[i]? = some event →
      event.decision ≠ none) (terminalId : String) :
    (EmitStep.exec s step).store.states.lastSeq terminalId =
        s.store.states.lastSeq terminalId ∧
      (EmitStep.exec s step).store.states.core terminalId = s.store.states.core terminalId := by
  cases step with
  | append draft eventId ingestedAt =>
    simp only [EmitStep.exec]
    split <;> exact ⟨rfl, rfl⟩
  | fold i env =>
    simp only [EmitStep.exec]
    cases hevent : s.unfolded[i]? with
    | none => exact ⟨rfl, rfl⟩
    | some event =>
      have hdecision := hnot i env event rfl hevent
      cases hkind : event.kind with
      | event kind => exact absurd ((decision_eq_none_iff event).mpr ⟨kind, hkind⟩) hdecision
      | decision kind =>
        dsimp only
        rw [project_of_decision env s.store hkind]
        exact ⟨rfl, rfl⟩
  | touchProbe touched probe =>
    exact (touch_keeps s.store.states _ (probePatch probe) rfl rfl (fun _ => ⟨rfl, rfl⟩)
      terminalId).symm
  | touchSourceProbe touched probedAt =>
    exact (touch_keeps s.store.states _ (sourceProbePatch probedAt) rfl rfl (fun _ => ⟨rfl, rfl⟩)
      terminalId).symm
  | _ => exact h.elim

/-- A step keeps every `last_event_seq` from falling exactly when it comes in order. -/
theorem lastSeq_le_exec_iff {owned : WorkerEvent → Bool} {s : Emitting} {step : EmitStep}
    (h : Answers owned s step) :
    (∀ id, s.store.states.lastSeq id ≤ (EmitStep.exec s step).store.states.lastSeq id) ↔
      ComesInOrder s step := by
  by_cases hfold : ∃ i env event, step = .fold i env ∧ s.unfolded[i]? = some event ∧
      event.decision = none
  · obtain ⟨i, env, event, rfl, hevent, hdecision⟩ := hfold
    have heffect := fun id => (fold_effect hevent h hdecision id).1
    constructor
    · intro hle other hother _
      cases hevent.symm.trans hother
      have hown := hle event.terminalId
      rw [heffect, if_pos rfl] at hown
      exact hown
    · intro horder id
      rw [heffect]
      split
      · next hid =>
        subst hid
        exact horder event hevent hdecision
      · exact le_rfl
  · have hnot : ∀ i env event, step = .fold i env → s.unfolded[i]? = some event →
        event.decision ≠ none := fun i env event hstep hevent hdecision =>
      hfold ⟨i, env, event, hstep, hevent, hdecision⟩
    refine iff_of_true (fun id => (unfolding_effect h hnot id).1.symm.le) ?_
    cases step with
    | fold i env =>
      intro event hevent hdecision
      exact absurd hdecision (hnot i env event rfl hevent)
    | _ => trivial

/-! ## The worker truth of a log -/

theorem mem_truths_iff (log : EventLog) (terminalId : String) (e : WorkerEvent) :
    e ∈ log.truths terminalId ↔
      e ∈ log.workerEvent.rows ∧ e.terminalId = terminalId ∧ e.decision = none := by
  unfold EventLog.truths EventLog.read
  rw [List.mem_filter, List.mem_insertionSort, List.mem_filter]
  simp [and_assoc]

theorem EventLog.Ordered.truths_rising {log : EventLog} (h : log.Ordered) (terminalId : String) :
    (log.truths terminalId).Pairwise fun a b => a.seq < b.seq := by
  unfold EventLog.truths
  rw [h.read_zero]
  refine ((h.rising.filter _).filter _).imp_of_mem ?_
  intro a b ha hb hlt
  have hida := (List.mem_filter.mp (List.mem_filter.mp ha).1).2
  have hidb := (List.mem_filter.mp (List.mem_filter.mp hb).1).2
  exact hlt ((beq_iff_eq.mp hida).trans (beq_iff_eq.mp hidb).symm)

/-- Within one terminal a number names one event. -/
theorem eq_of_seq_eq {l : List WorkerEvent} (h : l.Pairwise fun a b => a.seq < b.seq)
    {a b : WorkerEvent} (ha : a ∈ l) (hb : b ∈ l) (hseq : a.seq = b.seq) : a = b := by
  have hall := List.Pairwise.forall_of_forall_of_flip (R := fun a b => a.seq = b.seq → a = b)
    (l := l) (fun _ _ _ => rfl) (h.imp fun hlt heq => absurd heq hlt.ne)
    (h.imp fun hlt heq => absurd heq hlt.ne')
  exact hall ha hb hseq

/-- What a step adds to the worker truth of a terminal waits for its fold. -/
theorem mem_truths_exec {owned : WorkerEvent → Bool} {s : Emitting} {step : EmitStep}
    (h : Answers owned s step) {terminalId : String} {e : WorkerEvent}
    (he : e ∈ (EmitStep.exec s step).store.events.truths terminalId) :
    e ∈ s.store.events.truths terminalId ∨ e ∈ (EmitStep.exec s step).unfolded := by
  rw [mem_truths_iff] at he ⊢
  obtain ⟨hmem, hid, hdecision⟩ := he
  cases step with
  | append draft eventId ingestedAt =>
    simp only [EmitStep.exec] at hmem ⊢
    split at hmem
    · exact .inl ⟨hmem, hid, hdecision⟩
    · next row log happend =>
      cases EventLog.appended_of_append happend with
      | known key hkey hstored => exact .inl ⟨hmem, hid, hdecision⟩
      | added hfree hrows hwater =>
        rw [hrows] at hmem
        obtain hold | hnew := List.mem_append.mp hmem
        · exact .inl ⟨hold, hid, hdecision⟩
        · exact .inr (List.mem_append_right _ hnew)
  | fold i env =>
    left
    have hrows : (EmitStep.exec s (.fold i env)).store.events = s.store.events ∨
        ∃ row, row.decision ≠ none ∧
          (EmitStep.exec s (.fold i env)).store.events.workerEvent.rows =
            s.store.events.workerEvent.rows ++ [row] := by
      cases hcarried : (EmitStep.fold i env).carried s with
      | some c =>
        obtain hsame | ⟨decision, payload, -, hrows⟩ := carried_events hcarried
        · exact .inl hsame
        · refine .inr ⟨_, ?_, hrows⟩
          intro hnone
          cases hnone
      | none =>
        left
        simp only [EmitStep.exec]
        cases hevent : s.unfolded[i]? with
        | none => rfl
        | some event =>
          have hnone : foldCarried env s.store event = none := by
            simpa [EmitStep.carried, hevent] using hcarried
          dsimp only
          rw [project_eq_carried, hnone]
          rfl
    obtain hsame | ⟨row, hrow, hrows⟩ := hrows
    · rw [hsame] at hmem
      exact ⟨hmem, hid, hdecision⟩
    · rw [hrows] at hmem
      obtain hold | hnew := List.mem_append.mp hmem
      · exact ⟨hold, hid, hdecision⟩
      · obtain rfl := List.mem_singleton.mp hnew
        exact absurd hdecision hrow
  | sweepTerminal env swept => exact h.elim
  | stop => exact h.elim
  | _ => exact .inl ⟨hmem, hid, hdecision⟩

/-- A row that waits goes on waiting, but for the one that is folded. -/
theorem mem_unfolded_of_mem {owned : WorkerEvent → Bool} {s : Emitting} {step : EmitStep}
    (h : Answers owned s step) {e : WorkerEvent} (he : e ∈ s.unfolded) :
    e ∈ (EmitStep.exec s step).unfolded ∨
      ∃ i env, step = .fold i env ∧ s.unfolded[i]? = some e := by
  cases step with
  | append draft eventId ingestedAt =>
    simp only [EmitStep.exec]
    split
    · exact .inl he
    · exact .inl (List.mem_append_left _ he)
  | fold i env =>
    by_cases hi : s.unfolded[i]? = some e
    · exact .inr ⟨i, env, rfl, hi⟩
    · left
      simp only [EmitStep.exec]
      cases hevent : s.unfolded[i]? with
      | none => exact he
      | some event =>
        obtain ⟨j, hj⟩ := List.mem_iff_getElem?.mp he
        refine List.mem_eraseIdx_iff_getElem?.mpr ⟨j, ?_, hj⟩
        rintro rfl
        exact hi hj
  | sweepTerminal env swept => exact h.elim
  | stop => exact h.elim
  | _ => exact .inl he

/-! ## Runs in order -/

/-- The events `F` of a terminal have been folded, in order; the others wait. -/
structure FoldedUpTo (owned : WorkerEvent → Bool) (s : Emitting) (terminalId : String)
    (F : List WorkerEvent) : Prop where
  rising : F.Pairwise fun a b => a.seq < b.seq
  truths : ∀ e ∈ F, e ∈ s.store.events.truths terminalId
  covered : ∀ e ∈ s.store.events.truths terminalId, e ∈ F ∨ e ∈ s.unfolded
  last : s.store.states.lastSeq terminalId = (F.getLast?.map WorkerEvent.seq).getD 0
  core : s.store.states.core terminalId = (F.foldl (foldOne owned) (freshRow terminalId)).core

theorem FoldedUpTo.start (owned : WorkerEvent → Bool) (terminalId : String) :
    FoldedUpTo owned .start terminalId [] where
  rising := .nil
  truths e he := by cases he
  covered e he := by
    rw [mem_truths_iff] at he
    cases he.1
  last := rfl
  core := rfl

/-- The highest folded number bounds the others. -/
theorem FoldedUpTo.le_lastSeq {owned : WorkerEvent → Bool} {s : Emitting} {terminalId : String}
    {F : List WorkerEvent} (h : FoldedUpTo owned s terminalId F) {e : WorkerEvent} (he : e ∈ F) :
    e.seq ≤ s.store.states.lastSeq terminalId := by
  obtain ⟨G, last, rfl⟩ := List.eq_nil_or_concat' F |>.resolve_left (List.ne_nil_of_mem he)
  rw [h.last, List.getLast?_concat]
  obtain hG | hlast := List.mem_append.mp he
  · exact ((List.pairwise_append.mp h.rising).2.2 e hG last (by simp)).le
  · exact (congrArg WorkerEvent.seq (List.mem_singleton.mp hlast)).le

/-- A step that folds nothing of the terminal leaves what has been folded for it. -/
theorem FoldedUpTo.of_kept {owned : WorkerEvent → Bool} {s : Emitting} {terminalId : String}
    {F : List WorkerEvent} (h : FoldedUpTo owned s terminalId F) {step : EmitStep}
    (hanswers : Answers owned s step)
    (hnot : ∀ i env event, step = .fold i env → s.unfolded[i]? = some event →
      event.decision = none → event.terminalId ≠ terminalId)
    (hlast : (EmitStep.exec s step).store.states.lastSeq terminalId =
      s.store.states.lastSeq terminalId)
    (hcore : (EmitStep.exec s step).store.states.core terminalId =
      s.store.states.core terminalId) :
    FoldedUpTo owned (EmitStep.exec s step) terminalId F where
  rising := h.rising
  truths e he := by
    have hold := h.truths e he
    rw [mem_truths_iff] at hold ⊢
    exact ⟨(step.exec_extends s).rows.subset hold.1, hold.2⟩
  covered e he := by
    obtain hold | hnew := mem_truths_exec hanswers he
    · obtain hfolded | hwaits := h.covered e hold
      · exact .inl hfolded
      · obtain hstill | ⟨i, env, hstep, hevent⟩ := mem_unfolded_of_mem hanswers hwaits
        · exact .inr hstill
        · obtain ⟨-, hid, hdecision⟩ := (mem_truths_iff _ _ e).mp hold
          exact absurd hid (hnot i env e hstep hevent hdecision)
    · exact .inr hnew
  last := hlast.trans h.last
  core := hcore.trans h.core

/-- A fold of the terminal's newest event so far adds it; a fold of the one folded last adds
nothing. -/
theorem FoldedUpTo.fold {owned : WorkerEvent → Bool} {s : Emitting} (hs : s.Ok) {i : Nat}
    {env : Surroundings} {event : WorkerEvent} {F : List WorkerEvent}
    (h : FoldedUpTo owned s event.terminalId F) (hevent : s.unfolded[i]? = some event)
    (hanswers : Answers owned s (.fold i env)) (hdecision : event.decision = none)
    (horder : s.store.states.lastSeq event.terminalId ≤ event.seq) :
    ∃ F', FoldedUpTo owned (EmitStep.exec s (.fold i env)) event.terminalId F' := by
  obtain ⟨hlast, hcore⟩ := fold_effect hevent hanswers hdecision event.terminalId
  rw [if_pos rfl] at hlast hcore
  have htruth : event ∈ s.store.events.truths event.terminalId :=
    (mem_truths_iff _ _ _).mpr ⟨hs.stored event (List.mem_of_getElem? hevent), rfl, hdecision⟩
  have hkept : ∀ e ∈ s.store.events.truths event.terminalId,
      e ∈ (EmitStep.exec s (.fold i env)).store.events.truths event.terminalId := by
    intro e he
    rw [mem_truths_iff] at he ⊢
    exact ⟨((EmitStep.fold i env).exec_extends s).rows.subset he.1, he.2⟩
  have hcovered : ∀ e ∈ (EmitStep.exec s (.fold i env)).store.events.truths event.terminalId,
      e ∈ F ∨ e = event ∨ e ∈ (EmitStep.exec s (.fold i env)).unfolded := by
    intro e he
    obtain hold | hnew := mem_truths_exec hanswers he
    · obtain hfolded | hwaits := h.covered e hold
      · exact .inl hfolded
      · obtain hstill | ⟨j, env', hstep, hj⟩ := mem_unfolded_of_mem hanswers hwaits
        · exact .inr (.inr hstill)
        · cases hstep
          exact .inr (.inl (Option.some.inj (hj.symm.trans hevent)))
    · exact .inr (.inr hnew)
  have hread : (foldOne owned (load s.store.states event.terminalId event.ingestedAt) event).core =
      (foldOne owned (F.foldl (foldOne owned) (freshRow event.terminalId)) event).core :=
    core_foldOne owned ((load_core _ _ _).trans h.core) event
  rw [hread] at hcore
  by_cases hmem : event ∈ F
  · -- the event folded last, a second time
    refine ⟨F, h.rising, fun e he => hkept e (h.truths e he), ?_, ?_, ?_⟩
    · intro e he
      obtain hfolded | rfl | hwaits := hcovered e he
      · exact .inl hfolded
      · exact .inl hmem
      · exact .inr hwaits
    · have hle := h.le_lastSeq hmem
      rw [hlast, ← h.last]
      omega
    · obtain ⟨G, last, rfl⟩ :=
        List.eq_nil_or_concat' F |>.resolve_left (List.ne_nil_of_mem hmem)
      have hseq : event.seq = last.seq := by
        have hle := h.le_lastSeq hmem
        have hnumber := h.last
        rw [List.getLast?_concat] at hnumber
        simp only [Option.map_some, Option.getD_some] at hnumber
        omega
      obtain rfl := eq_of_seq_eq h.rising hmem (by simp) hseq
      obtain ⟨c, hc⟩ := exists_shows_foldl owned G (exists_shows_fresh event.terminalId)
      rw [hcore, List.foldl_concat]
      exact core_foldOne_twice owned hc event
  · -- a newer event
    have hnewer : ∀ e ∈ F, e.seq < event.seq := by
      intro e he
      refine lt_of_le_of_ne ((h.le_lastSeq he).trans horder) ?_
      intro hseq
      exact hmem (eq_of_seq_eq (hs.ordered.truths_rising event.terminalId) (h.truths e he)
        htruth hseq ▸ he)
    refine ⟨F ++ [event], ?_, ?_, ?_, ?_, ?_⟩
    · rw [List.pairwise_append]
      refine ⟨h.rising, List.pairwise_singleton _ _, ?_⟩
      intro a ha b hb
      rw [List.mem_singleton.mp hb]
      exact hnewer a ha
    · intro e he
      obtain hold | hnew := List.mem_append.mp he
      · exact hkept e (h.truths e hold)
      · rw [List.mem_singleton.mp hnew]
        exact hkept event htruth
    · intro e he
      obtain hfolded | rfl | hwaits := hcovered e he
      · exact .inl (List.mem_append_left _ hfolded)
      · exact .inl (by simp)
      · exact .inr hwaits
    · rw [hlast, List.getLast?_concat]
      rfl
    · rw [hcore, List.foldl_concat]

theorem FoldedUpTo.exec {owned : WorkerEvent → Bool} {s : Emitting} (hs : s.Ok)
    (h : ∀ terminalId, ∃ F, FoldedUpTo owned s terminalId F) {step : EmitStep}
    (hanswers : Answers owned s step) (horder : ComesInOrder s step) (terminalId : String) :
    ∃ F, FoldedUpTo owned (EmitStep.exec s step) terminalId F := by
  obtain ⟨F, hF⟩ := h terminalId
  by_cases hfold : ∃ i env event, step = .fold i env ∧ s.unfolded[i]? = some event ∧
      event.decision = none
  · obtain ⟨i, env, event, rfl, hevent, hdecision⟩ := hfold
    by_cases hid : terminalId = event.terminalId
    · subst hid
      exact hF.fold hs hevent hanswers hdecision (horder event hevent hdecision)
    · obtain ⟨hlast, hcore⟩ := fold_effect hevent hanswers hdecision terminalId
      rw [if_neg hid] at hlast hcore
      refine ⟨F, hF.of_kept hanswers ?_ hlast hcore⟩
      intro j env' other hstep hother _ hsame
      cases hstep
      cases hevent.symm.trans hother
      exact hid hsame.symm
  · have hnot : ∀ i env event, step = .fold i env → s.unfolded[i]? = some event →
        event.decision ≠ none := fun i env event hstep hevent hdecision =>
      hfold ⟨i, env, event, hstep, hevent, hdecision⟩
    obtain ⟨hlast, hcore⟩ := unfolding_effect hanswers hnot terminalId
    exact ⟨F, hF.of_kept hanswers
      (fun i env event hstep hevent hdecision => absurd hdecision (hnot i env event hstep hevent))
      hlast hcore⟩

/-- Once no row waits, what is projected is the fold of the log. -/
def FoldsLog (owned : WorkerEvent → Bool) (s : Emitting) : Prop :=
  s.unfolded = [] → ∀ terminalId,
    s.store.states.projection terminalId = foldLog owned s.store.events terminalId

theorem FoldedUpTo.foldsLog {owned : WorkerEvent → Bool} {s : Emitting} (hs : s.Ok)
    (h : ∀ terminalId, ∃ F, FoldedUpTo owned s terminalId F) : FoldsLog owned s := by
  intro hnone terminalId
  obtain ⟨F, hF⟩ := h terminalId
  have hall : F = s.store.events.truths terminalId := by
    refine List.Pairwise.eq_of_mem_iff hF.rising (hs.ordered.truths_rising terminalId) ?_
    intro e
    refine ⟨hF.truths e, fun he => ?_⟩
    obtain hfolded | hwaits := hF.covered e he
    · exact hfolded
    · rw [hnone] at hwaits
      cases hwaits
  have hcore := hF.core
  rw [hall, ← load_core s.store.states terminalId 0] at hcore
  unfold foldLog
  rw [← projection_of_core hcore]
  exact (load_projection s.store.states terminalId 0).symm

/-- In a run whose folds find the same answers, no `last_event_seq` ever falls and the projection
ends as the fold of the log exactly when every fold comes in order. -/
theorem projection_is_fold_iff (owned : WorkerEvent → Bool) (steps : List EmitStep)
    (hanswers : StepsSatisfy EmitStep.exec (Answers owned) .start steps) :
    ((∀ before step after, steps = before ++ step :: after → ∀ terminalId,
        (run EmitStep.exec .start before).store.states.lastSeq terminalId ≤
          (run EmitStep.exec .start (before ++ [step])).store.states.lastSeq terminalId) ∧
      FoldsLog owned (run EmitStep.exec .start steps)) ↔
    StepsSatisfy EmitStep.exec ComesInOrder .start steps := by
  have hanswer := (stepsSatisfy_iff (Answers owned) _ steps).mp hanswers
  constructor
  · rintro ⟨hrises, -⟩
    rw [stepsSatisfy_iff]
    intro before step after hsplit
    have hle := hrises before step after hsplit
    rw [run_concat] at hle
    exact (lastSeq_le_exec_iff (hanswer before step after hsplit)).mp hle
  · intro horder
    have hordered := (stepsSatisfy_iff ComesInOrder _ steps).mp horder
    refine ⟨?_, ?_⟩
    · intro before step after hsplit
      rw [run_concat]
      exact (lastSeq_le_exec_iff (hanswer before step after hsplit)).mpr
        (hordered before step after hsplit)
    · have hboth : StepsSatisfy EmitStep.exec (fun s step => Answers owned s step ∧
          ComesInOrder s step) .start steps := by
        rw [stepsSatisfy_iff]
        intro before step after hsplit
        exact ⟨hanswer before step after hsplit, hordered before step after hsplit⟩
      have hinvariant := run_invariant_of _
        (fun s : Emitting => s.Ok ∧ ∀ id, ∃ F, FoldedUpTo owned s id F)
        (fun s step hstep hs => ⟨hs.1.exec step, FoldedUpTo.exec hs.1 hs.2 hstep.1 hstep.2⟩)
        _ ⟨Emitting.ok_start, fun id => ⟨[], FoldedUpTo.start owned id⟩⟩ steps hboth
      exact FoldedUpTo.foldsLog hinvariant.1 hinvariant.2

/-- Without a registered source the projection owns no status. -/
theorem answers_unsourced (s : Emitting) (i : Nat) (newUlid : String) :
    Answers (fun _ => false) s (.fold i (unsourced newUlid)) := by
  intro event _
  simp [projected, unsourced]

theorem answers_appendMarker (owned : WorkerEvent → Bool) (markerKind idempotencyKey eventId : String)
    (s : Emitting) : ∀ step ∈ appendMarker markerKind idempotencyKey eventId,
      Answers owned s step := by
  intro step hstep
  obtain ⟨draft, -, rfl⟩ := List.mem_map.mp hstep
  trivial

/-- One marker, appended and folded. -/
def emitMarker (markerKind idempotencyKey eventId newUlid : String) : List EmitStep :=
  appendMarker markerKind idempotencyKey eventId ++ [.fold 0 (unsourced newUlid)]

theorem answers_emitMarker (markerKind idempotencyKey eventId newUlid : String) :
    ∀ step ∈ emitMarker markerKind idempotencyKey eventId newUlid, ∀ s,
      Answers (fun _ => false) s step := by
  intro step hstep s
  obtain happend | hfold := List.mem_append.mp hstep
  · exact answers_appendMarker _ markerKind idempotencyKey eventId s step happend
  · obtain rfl := List.mem_singleton.mp hfold
    exact answers_unsourced s 0 newUlid

instance (s : Emitting) : ∀ step, Decidable (ComesInOrder s step)
  | .fold i _ => inferInstanceAs (Decidable (∀ event ∈ s.unfolded[i]?, _ → _ ≤ _))
  | .append .. | .sweepTerminal .. | .touchProbe .. | .touchSourceProbe .. | .stop => .isTrue trivial

/-- A dialog opens and clears. -/
def openedAndCleared : List EmitStep :=
  emitMarker "question_open" "k1" "e1" "d1" ++ emitMarker "question_clear" "k2" "e2" "d2"

theorem answers_openedAndCleared : ∀ step ∈ openedAndCleared, ∀ s,
    Answers (fun _ => false) s step := by
  intro step hstep
  obtain hopen | hclear := List.mem_append.mp hstep
  · exact answers_emitMarker _ _ _ _ step hopen
  · exact answers_emitMarker _ _ _ _ step hclear

/-- Both events have been folded, in their order. -/
theorem projection_is_fold_openedAndCleared :
    (run EmitStep.exec .start openedAndCleared).store.states.projection "t" =
      foldLog (fun _ => false) (run EmitStep.exec .start openedAndCleared).store.events "t" := by
  have hanswers : StepsSatisfy EmitStep.exec (Answers fun _ => false) .start openedAndCleared :=
    stepsSatisfy_of_forall _ _ _ answers_openedAndCleared
  refine ((projection_is_fold_iff _ _ hanswers).mpr (by decide +kernel)).2 ?_ "t"
  rw [← List.isEmpty_iff]
  decide +kernel

/-- The hook's first POST is retried behind them. -/
def retriedMarker : List EmitStep :=
  openedAndCleared ++ emitMarker "question_open" "k1" "e3" "d3"

/-- The retry folds the stored row again: the terminal waits for an answer it has had. -/
theorem retriedMarker_not_fold :
    ¬ ∀ (owned : WorkerEvent → Bool) (steps : List EmitStep),
      StepsSatisfy EmitStep.exec (Answers owned) .start steps →
      (∀ before step after, steps = before ++ step :: after → ∀ terminalId,
        (run EmitStep.exec .start before).store.states.lastSeq terminalId ≤
          (run EmitStep.exec .start (before ++ [step])).store.states.lastSeq terminalId) ∧
      FoldsLog owned (run EmitStep.exec .start steps) := by
  intro h
  have hanswers : StepsSatisfy EmitStep.exec (Answers fun _ => false) .start retriedMarker := by
    apply stepsSatisfy_of_forall
    intro step hstep
    obtain hold | hretry := List.mem_append.mp hstep
    · exact answers_openedAndCleared step hold
    · exact answers_emitMarker _ _ _ _ step hretry
  have hended : (run EmitStep.exec .start retriedMarker).unfolded = [] := by
    rw [← List.isEmpty_iff]
    decide +kernel
  have hparts : (run EmitStep.exec .start retriedMarker).store.states.projection "t" ≠
      foldLog (fun _ => false) (run EmitStep.exec .start retriedMarker).store.events "t" := by
    decide +kernel
  exact hparts ((h _ _ hanswers).2 hended "t")

end CliAgentOrchestrator.Truth
