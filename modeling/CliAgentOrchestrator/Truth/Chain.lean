import CliAgentOrchestrator.Truth.Emit

/-!
# What the log explains

The `status.*` rows of a terminal as an account of its projection: each row leads from the
state and reason before it to those after it. A rule writes the projection and appends its row
in two transactions, so the account breaks exactly at the calls that lose the second.
-/

set_option autoImplicit false

namespace CliAgentOrchestrator.Truth

open CliAgentOrchestrator.Core Library

/-! ## The account -/

/-- What the log accounts for: a state, and the reason for it where it is the degraded one. -/
abbrev Projection := WorkerState × Option DegradedReason

def ProjectedState.projection (r : ProjectedState) : Projection := (r.state, r.degradedReason)

/-- The projection of a terminal; one without a row is starting. -/
def StateStore.projection (states : StateStore) (terminalId : String) : Projection :=
  ((states.get terminalId).map ProjectedState.projection).getD (.starting, none)

/-- A row of this kind and payload tells how `x` became `y`. -/
def Tells (kind : AnyKind) (payload : Payload) (x y : Projection) : Prop :=
  match kind with
  | .decision .statusTransition =>
    payload.str "from" = some x.1.value ∧ payload.str "to" = some y.1.value ∧
      payload.str "degraded_reason" = y.2.map DegradedReason.value
  | .decision .statusReasonChanged =>
    x.1 = .degraded ∧ y.1 = .degraded ∧
      payload.str "from_reason" = x.2.map DegradedReason.value ∧
      payload.str "to_reason" = y.2.map DegradedReason.value
  | .decision .statusRecovered =>
    payload.str "from" = some x.1.value ∧ payload.str "to" = some y.1.value ∧
      payload.str "restored_reason" = x.2.map DegradedReason.value ∧ y.2 = none
  | _ => False

/-- A row leads from one projection to another. -/
def Leads (x : Projection) (row : WorkerEvent) (y : Projection) : Prop :=
  Tells row.kind row.payload x y

/-- The `status.*` rows of a terminal, in the order of their numbers. -/
def EventLog.statusRows (log : EventLog) (terminalId : String) : List WorkerEvent :=
  (log.read terminalId 0).filter fun e => projectorKinds.contains e.kind

/-- The rows form a chain from `starting` to what is projected. -/
def Chained (s : Emitting) : Prop :=
  ∀ terminalId, Walk Leads (.starting, none) (s.store.events.statusRows terminalId)
    (s.store.states.projection terminalId)

theorem reasonValue_injective :
    Function.Injective (Option.map DegradedReason.value) :=
  Option.map_injective fun _ _ h => DegradedReason.value_injective h

/-- A row leads to one projection at most. -/
theorem Leads.unique (x : Projection) (row : WorkerEvent) (y y' : Projection)
    (h : Leads x row y) (h' : Leads x row y') : y = y' := by
  obtain ⟨state, reason⟩ := y
  obtain ⟨state', reason'⟩ := y'
  unfold Leads Tells at h h'
  split at h
  · next hkind =>
    rw [hkind] at h'
    obtain ⟨-, hto, hreason⟩ := h
    obtain ⟨-, hto', hreason'⟩ := h'
    obtain rfl := WorkerState.value_injective (Option.some.inj (hto.symm.trans hto'))
    obtain rfl := reasonValue_injective (hreason.symm.trans hreason')
    rfl
  · next hkind =>
    rw [hkind] at h'
    obtain ⟨-, hto, -, hreason⟩ := h
    obtain ⟨-, hto', -, hreason'⟩ := h'
    obtain rfl := reasonValue_injective (hreason.symm.trans hreason')
    exact Prod.ext (hto.trans hto'.symm) rfl
  · next hkind =>
    rw [hkind] at h'
    obtain ⟨-, hto, -, hreason⟩ := h
    obtain ⟨-, hto', -, hreason'⟩ := h'
    obtain rfl := WorkerState.value_injective (Option.some.inj (hto.symm.trans hto'))
    exact Prod.ext rfl (hreason.trans hreason'.symm)
  · exact h.elim

/-! ## The rules -/

/-- A ruling on a row is told by its decision row, and has one exactly when it moves something. -/
def Ruling.ToldFrom (x : Projection) (ruling : Ruling) : Prop :=
  match ruling.decision with
  | none => ruling.row.projection = x
  | some (kind, payload) =>
    AnyKind.decision kind ∈ projectorKinds ∧
      Tells (.decision kind) payload x ruling.row.projection ∧ ruling.row.projection ≠ x

/-- SOURCE: app/worker_truth/projector.py:728-776 -/
theorem told_diagonal {row : ProjectedState} (seq : Nat) (reason : Option DegradedReason) :
    (diagonal row seq row.state reason).ToldFrom row.projection := by
  unfold diagonal
  cases reason with
  | none => exact rfl
  | some incoming =>
    dsimp only
    split
    · next hrise =>
      obtain ⟨hdegraded, hrank⟩ := hrise
      refine ⟨by simp [projectorKinds], ⟨hdegraded, hdegraded, rfl, rfl⟩, ?_⟩
      · intro hsame
        have hreason : some incoming = row.degradedReason := congrArg Prod.snd hsame
        rw [← hreason, reasonRises_self] at hrank
        cases hrank
    · exact rfl

/-- SOURCE: app/worker_truth/projector.py:678-726 -/
theorem told_transition {row : ProjectedState} (seq : Nat) (ingestedAt : Int)
    (target : Option WorkerState × Option DegradedReason)
    (htarget : target.1 = some .degraded ↔ target.2.isSome = true) :
    (transition row seq ingestedAt target).ToldFrom row.projection := by
  obtain ⟨target, reason⟩ := target
  cases target with
  | none => exact rfl
  | some target =>
    unfold transition
    dsimp only
    split
    · next hnoOp =>
      obtain rfl := (validate_eq_noOp_iff _ _).mp hnoOp
      exact told_diagonal seq reason
    · next hmoved =>
      have hreason : (if target = WorkerState.degraded then reason else none) = reason := by
        by_cases hdegraded : target = .degraded
        · rw [if_pos hdegraded]
        · have hnone : ¬ reason.isSome = true := fun h => hdegraded
            (Option.some.inj (htarget.mpr h))
          rw [if_neg hdegraded, Option.not_isSome_iff_eq_none.mp hnone]
      refine ⟨by simp [projectorKinds], ⟨rfl, rfl, ?_⟩, ?_⟩
      · show _ = (if target = WorkerState.degraded then reason else none).map DegradedReason.value
        rw [hreason]
        rfl
      · intro hsame
        have hstate : target = row.state := congrArg Prod.fst hsame
        exact hmoved ((validate_eq_noOp_iff _ _).mpr hstate.symm)

/-- SOURCE: app/worker_truth/projector.py:778-828 -/
theorem told_recover {row : ProjectedState} {c : Condition} (h : Shows (some row.standing) c)
    (seq : Nat) (ingestedAt : Int) :
    (recover row seq ingestedAt).ToldFrom row.projection := by
  unfold recover
  split
  · next hdegraded =>
    refine ⟨by simp [projectorKinds], ⟨rfl, rfl, rfl, rfl⟩, ?_⟩
    · intro hsame
      cases c with
      | well state state_ne => exact state_ne (h.1.symm.trans hdegraded)
      | ill prior prior_ne reason since =>
        have hprior : row.priorState = some prior := h.2.2.1
        have hstate : row.priorState.getD .idle = row.state := congrArg Prod.fst hsame
        rw [hprior, hdegraded] at hstate
        exact prior_ne hstate
  · exact rfl

/-- SOURCE: app/worker_truth/projector.py:1104-1164 -/
theorem told_degradeNoSignal (row : ProjectedState) (now : Int) :
    (degradeNoSignal row now).ToldFrom row.projection := by
  unfold degradeNoSignal
  split
  · exact rfl
  · next hfalls =>
    refine ⟨by simp [projectorKinds], ⟨rfl, rfl, rfl⟩, ?_⟩
    intro hsame
    have hdegraded : row.state = .degraded := (congrArg Prod.fst hsame).symm
    have hreason : row.degradedReason = some .noSignal := (congrArg Prod.snd hsame).symm
    exact hfalls ⟨hdegraded, by rw [hreason, reasonRises_self]⟩

theorem told_rule {row : ProjectedState} {c : Condition} (h : Shows (some row.standing) c)
    (owned : Bool) (kind : EventKind) (event : WorkerEvent) :
    (rule owned row kind event).ToldFrom row.projection := by
  unfold rule
  split
  · exact rfl
  · split
    · exact told_recover h event.seq event.ingestedAt
    · exact told_transition event.seq event.ingestedAt _ (eventTarget_reason kind event.payload)

/-! ## The rows a step adds -/

theorem EventLog.Ordered.read_zero {log : EventLog} (h : log.Ordered) (terminalId : String) :
    log.read terminalId 0 =
      log.workerEvent.rows.filter fun e => e.terminalId == terminalId := by
  have hall : (fun e : WorkerEvent =>
      e.terminalId == terminalId && ((0 : Nat) == 0 || decide (0 < e.seq))) =
      fun e => e.terminalId == terminalId := by
    funext e
    simp
  unfold EventLog.read
  rw [hall]
  apply List.Pairwise.insertionSort_eq
  refine (h.rising.filter _).imp_of_mem ?_
  intro a b ha hb hlt
  have hida : a.terminalId = terminalId := by simpa using (List.mem_filter.mp ha).2
  have hidb : b.terminalId = terminalId := by simpa using (List.mem_filter.mp hb).2
  exact (hlt (hida.trans hidb.symm)).le

theorem EventLog.Ordered.statusRows {log : EventLog} (h : log.Ordered) (terminalId : String) :
    log.statusRows terminalId = log.workerEvent.rows.filter fun e =>
      projectorKinds.contains e.kind && e.terminalId == terminalId := by
  unfold EventLog.statusRows
  rw [h.read_zero, List.filter_filter]

/-- A row that is added is a `status.*` row of its own terminal if its kind is one of them. -/
theorem statusRows_added {log log' : EventLog} (h : log.Ordered) (h' : log'.Ordered)
    {row : WorkerEvent} (hrows : log'.workerEvent.rows = log.workerEvent.rows ++ [row])
    (terminalId : String) :
    log'.statusRows terminalId = log.statusRows terminalId ++
      if row.kind ∈ projectorKinds ∧ row.terminalId = terminalId then [row] else [] := by
  rw [h.statusRows, h'.statusRows, hrows, List.filter_append]
  congr 1
  by_cases hrow : row.kind ∈ projectorKinds ∧ row.terminalId = terminalId
  · rw [if_pos hrow]
    simp [hrow.1, hrow.2]
  · rw [if_neg hrow]
    simpa using hrow

/-- The `status.*` rows cite an event of their own terminal with a smaller number. -/
def EventLog.Evidenced (log : EventLog) : Prop :=
  ∀ row ∈ log.workerEvent.rows, row.kind ∈ projectorKinds →
    ∃ e ∈ log.workerEvent.rows, row.evidence = some e.eventId ∧
      e.terminalId = row.terminalId ∧ e.seq < row.seq

theorem evidenced_added {log log' : EventLog} (h : log.Evidenced) {row : WorkerEvent}
    (hrows : log'.workerEvent.rows = log.workerEvent.rows ++ [row])
    (hrow : row.kind ∈ projectorKinds → ∃ e ∈ log.workerEvent.rows,
      row.evidence = some e.eventId ∧ e.terminalId = row.terminalId ∧ e.seq < row.seq) :
    log'.Evidenced := by
  have hkept : ∀ e ∈ log.workerEvent.rows, e ∈ log'.workerEvent.rows := by
    intro e he
    rw [hrows]
    exact List.mem_append_left _ he
  intro row' hrow' hkind
  rw [hrows] at hrow'
  obtain hold | hnew := List.mem_append.mp hrow'
  · obtain ⟨e, he, hevidence⟩ := h row' hold hkind
    exact ⟨e, hkept e he, hevidence⟩
  · obtain rfl := List.mem_singleton.mp hnew
    obtain ⟨e, he, hevidence⟩ := hrow hkind
    exact ⟨e, hkept e he, hevidence⟩

/-- The decision row of a stored event is evidenced by it. -/
theorem evidence_of_stored {log : EventLog} (hlog : log.Ordered) {cause : WorkerEvent}
    (hcause : cause ∈ log.workerEvent.rows) (decision : DecisionKind) (payload : Payload)
    (observedAt : Int) (eventId : String) (ingestedAt : Int) :
    let row := storedRow (decisionDraft decision cause payload observedAt) eventId ingestedAt
      (log.highWater cause.terminalId)
    ∃ e ∈ log.workerEvent.rows,
      row.evidence = some e.eventId ∧ e.terminalId = row.terminalId ∧ e.seq < row.seq :=
  ⟨cause, hcause, rfl, rfl, Nat.lt_succ_of_le (hlog.le_highWater cause hcause)⟩

/-! ## The projection a step leaves -/

theorem StateStore.projection_upsert (s : StateStore) (p : ProjectedState) (terminalId : String) :
    (s.upsert p).projection terminalId =
      if terminalId = p.terminalId then p.projection else s.projection terminalId := by
  unfold StateStore.projection StateStore.upsert
  rw [Table.get_upsert]
  by_cases h : terminalId = p.terminalId
  · subst h
    cases s.get p.terminalId <;> simp [projectionPatch, ProjectedState.projection]
  · simp [h]

/-- A probe does not move the projection. -/
theorem projection_touch (s : StateStore) (made : ProjectedState)
    (columns : Patch ProjectedState.terminalId) (hmade : made.projection = (.starting, none))
    (hcolumns : ∀ r, (columns.apply r).projection = r.projection) (terminalId : String) :
    StateStore.projection (Table.upsert s made columns) terminalId = s.projection terminalId := by
  unfold StateStore.projection
  rw [Table.get_upsert]
  split
  · cases s.get terminalId <;> simp [hmade, hcolumns]
  · rfl

theorem load_projection (states : StateStore) (terminalId : String) (at_ : Int) :
    (load states terminalId at_).projection = states.projection terminalId := by
  unfold StateStore.projection Truth.load
  cases states.get terminalId <;> rfl

/-- What a step carries out is told from the projection it finds. -/
theorem Emitting.Ok.toldFrom {s : Emitting} (hs : s.Ok) {step : EmitStep} {c : Carried}
    (h : step.carried s = some c) :
    c.ruling.ToldFrom (s.store.states.projection c.ruling.row.terminalId) := by
  cases step with
  | fold i env =>
    obtain ⟨event, hevent, hcarried⟩ := Option.bind_eq_some_iff.mp h
    obtain ⟨-, hid⟩ := foldCarried_terminalId hcarried
    rw [hid]
    unfold foldCarried at hcarried
    cases hkind : event.kind with
    | decision kind =>
      rw [hkind] at hcarried
      cases hcarried
    | event kind =>
      rw [hkind] at hcarried
      dsimp only at hcarried
      split at hcarried
      · cases hcarried
      · cases hcarried
        obtain ⟨c, hc⟩ := hs.shows event.terminalId
        rw [← load_projection s.store.states event.terminalId event.ingestedAt]
        exact told_rule (hc.load event.ingestedAt) _ kind event
  | sweepTerminal env terminalId =>
    obtain ⟨row, hrow, hruling, -⟩ := sweepCarried_cases h
    have hid : row.terminalId = terminalId := Table.key_of_get hrow
    have hprojection : s.store.states.projection terminalId = row.projection := by
      unfold StateStore.projection
      rw [hrow]
      rfl
    rw [hruling, degradeNoSignal_terminalId, hid, hprojection]
    exact told_degradeNoSignal row env.now
  | _ => cases h

/-! ## One step -/

/-- A step that carries nothing out moves no projection, and adds at most a row that is none of
the projector's. -/
theorem uncarried_effect {s : Emitting} {step : EmitStep} (h : step.carried s = none) :
    (∀ id, (EmitStep.exec s step).store.states.projection id = s.store.states.projection id) ∧
      ((EmitStep.exec s step).store.events = s.store.events ∨
        ∃ row, row.kind ∉ projectorKinds ∧
          (EmitStep.exec s step).store.events.workerEvent.rows =
            s.store.events.workerEvent.rows ++ [row]) := by
  cases step with
  | append draft eventId ingestedAt =>
    simp only [EmitStep.exec]
    split
    · exact ⟨fun _ => rfl, .inl rfl⟩
    · next row log happend =>
      refine ⟨fun _ => rfl, ?_⟩
      cases EventLog.appended_of_append happend with
      | known key hkey hstored => exact .inl rfl
      | added hfree hrows hwater => exact .inr ⟨_, draft.kind_notMem, hrows⟩
  | fold i env =>
    simp only [EmitStep.exec]
    cases hevent : s.unfolded[i]? with
    | none => exact ⟨fun _ => rfl, .inl rfl⟩
    | some event =>
      have hnone : foldCarried env s.store event = none := by
        simpa [EmitStep.carried, hevent] using h
      dsimp only
      rw [project_eq_carried, hnone]
      exact ⟨fun _ => rfl, .inl rfl⟩
  | sweepTerminal env terminalId =>
    have hnone : sweepCarried env s.store terminalId = none := h
    simp only [EmitStep.exec]
    rw [sweepTerminal_eq_carried, hnone]
    exact ⟨fun _ => rfl, .inl rfl⟩
  | touchProbe terminalId probe =>
    exact ⟨projection_touch _ _ (probePatch probe) rfl fun _ => rfl, .inl rfl⟩
  | touchSourceProbe terminalId probedAt =>
    exact ⟨projection_touch _ _ (sourceProbePatch probedAt) rfl fun _ => rfl, .inl rfl⟩
  | stop => exact ⟨fun _ => rfl, .inl rfl⟩

/-- The log after a step that carries something out: the same, or with the decision row. -/
theorem carried_events {s : Emitting} {step : EmitStep} {c : Carried}
    (h : step.carried s = some c) :
    (EmitStep.exec s step).store.events = s.store.events ∨
      ∃ decision payload, c.ruling.decision = some (decision, payload) ∧
        (EmitStep.exec s step).store.events.workerEvent.rows =
          s.store.events.workerEvent.rows ++
            [storedRow (decisionDraft decision c.cause payload c.env.now) c.env.newUlid
              c.env.ingestedAt (s.store.events.highWater c.cause.terminalId)] := by
  rw [EmitStep.exec_of_carried h, carryOut_events]
  split
  · exact .inl rfl
  · cases hdecision : c.ruling.decision with
    | none => exact .inl rfl
    | some d =>
      obtain ⟨-, hsame⟩ | ⟨-, -, happended⟩ :=
        appendDecision_events c.env s.store.events d.1 c.cause d.2
      · exact .inl hsame
      · exact .inr ⟨d.1, d.2, rfl, happended.rows_of_keyless rfl⟩

theorem evidenced_exec {s : Emitting} (hs : s.Ok) (h : s.store.events.Evidenced)
    (step : EmitStep) : (EmitStep.exec s step).store.events.Evidenced := by
  cases hcarried : step.carried s with
  | none =>
    obtain hsame | ⟨row, hkind, hrows⟩ := (uncarried_effect hcarried).2
    · exact hsame ▸ h
    · exact evidenced_added h hrows fun hmem => absurd hmem hkind
  | some c =>
    obtain hsame | ⟨decision, payload, -, hrows⟩ := carried_events hcarried
    · exact hsame ▸ h
    · exact evidenced_added h hrows fun _ =>
        evidence_of_stored hs.ordered (hs.cause_stored hcarried).1 decision payload _ _ _

/-- The decision row of a ruling that wrote its row gets appended: the store does not raise there
and the id is free. -/
def RecordsDecision (s : Emitting) (step : EmitStep) : Prop :=
  ∀ c, step.carried s = some c → c.ruling.decision ≠ none → c.env.raises .upsert = false →
    c.env.raises .append = false ∧ s.store.events.workerEvent.get c.env.newUlid = none

/-- A log that accounts for a projection does not account for another. -/
theorem Chained.unique {s s' : Emitting} (h : Chained s) (h' : Chained s')
    (hlog : s'.store.events = s.store.events) (terminalId : String) :
    s'.store.states.projection terminalId = s.store.states.projection terminalId := by
  have hwalk := h' terminalId
  rw [hlog] at hwalk
  exact Walk.unique Leads.unique hwalk (h terminalId)

theorem Chained.of_same {s s' : Emitting} (h : Chained s)
    (hlog : s'.store.events = s.store.events)
    (hprojection : ∀ id, s'.store.states.projection id = s.store.states.projection id) :
    Chained s' := by
  intro terminalId
  rw [hlog, hprojection]
  exact h terminalId

/-- A ruling that moves something and is recorded extends the account. -/
theorem Chained.of_recorded {s s' : Emitting} (h : Chained s) (hs : s.Ok) (hs' : s'.Ok)
    {ruling : Ruling} {row : WorkerEvent} (hkind : row.kind ∈ projectorKinds)
    (hid : row.terminalId = ruling.row.terminalId)
    (hleads : Leads (s.store.states.projection ruling.row.terminalId) row ruling.row.projection)
    (hstates : s'.store.states = s.store.states.upsert ruling.row)
    (hrows : s'.store.events.workerEvent.rows = s.store.events.workerEvent.rows ++ [row]) :
    Chained s' := by
  intro terminalId
  rw [statusRows_added hs.ordered hs'.ordered hrows, hstates, StateStore.projection_upsert]
  by_cases hmoved : terminalId = ruling.row.terminalId
  · subst hmoved
    rw [if_pos ⟨hkind, hid⟩, if_pos rfl]
    exact (h _).concat hleads
  · rw [if_neg fun hrow => hmoved (hrow.2.symm.trans hid), if_neg hmoved, List.append_nil]
    exact h terminalId

/-- A step keeps the chain exactly when it records the decision it carries out. -/
theorem chained_exec_iff {s : Emitting} (hs : s.Ok) (h : Chained s) (step : EmitStep) :
    Chained (EmitStep.exec s step) ↔ RecordsDecision s step := by
  have hs' := hs.exec step
  cases hcarried : step.carried s with
  | none =>
    obtain ⟨hprojection, hlog⟩ := uncarried_effect hcarried
    refine iff_of_true ?_ ?_
    · obtain hsame | ⟨row, hkind, hrows⟩ := hlog
      · exact h.of_same hsame hprojection
      · intro terminalId
        rw [statusRows_added hs.ordered hs'.ordered hrows, if_neg (fun hrow => hkind hrow.1),
          List.append_nil, hprojection]
        exact h terminalId
    · intro c hc
      rw [hcarried] at hc
      cases hc
  | some c =>
    have htold := hs.toldFrom hcarried
    have hid := (hs.cause_stored hcarried).2
    have hstates := congrArg Store.states (EmitStep.exec_of_carried hcarried)
    have hevents := congrArg Store.events (EmitStep.exec_of_carried hcarried)
    have hrecords : RecordsDecision s step ↔ (c.ruling.decision ≠ none →
        c.env.raises .upsert = false → c.env.raises .append = false ∧
          s.store.events.workerEvent.get c.env.newUlid = none) := by
      unfold RecordsDecision
      simp [hcarried]
    rw [carryOut_states] at hstates
    rw [carryOut_events] at hevents
    rw [hrecords]
    cases hupsert : c.env.raises .upsert with
    | true =>
      -- nothing was written
      rw [hupsert, if_pos rfl] at hstates hevents
      exact iff_of_true (h.of_same hevents fun id => by rw [hstates])
        fun _ habsurd => absurd habsurd.symm Bool.false_ne_true
    | false =>
      rw [hupsert, if_neg Bool.false_ne_true] at hstates hevents
      unfold Ruling.ToldFrom at htold
      cases hdecision : c.ruling.decision with
      | none =>
        rw [hdecision] at htold hevents
        refine iff_of_true (h.of_same hevents fun id => ?_) (fun habsurd => absurd rfl habsurd)
        rw [hstates, StateStore.projection_upsert]
        split
        · next hmoved => rw [hmoved]; exact htold
        · rfl
      | some d =>
        obtain ⟨decision, payload⟩ := d
        rw [hdecision] at htold hevents
        obtain ⟨hkind, htells, hmoves⟩ := htold
        obtain ⟨hlost, hsame⟩ | ⟨hraises, hfree, happended⟩ :=
          appendDecision_events c.env s.store.events decision c.cause payload
        · -- the row was written and its decision lost
          refine iff_of_false ?_ ?_
          · intro hchained
            have hprojection := h.unique hchained (hevents.trans hsame) c.ruling.row.terminalId
            rw [hstates, StateStore.projection_upsert, if_pos rfl] at hprojection
            exact hmoves hprojection
          · intro hrecorded
            obtain ⟨hraises, hfree⟩ := hrecorded (Option.some_ne_none _) rfl
            obtain hraised | htaken := hlost
            · rw [hraises] at hraised
              cases hraised
            · exact htaken hfree
        · refine iff_of_true ?_ fun _ _ => ⟨hraises, hfree⟩
          have hrows := happended.rows_of_keyless rfl
          rw [← show _ = (appendDecision c.env s.store.events decision c.cause payload).2
            from hevents] at hrows
          refine h.of_recorded hs hs' ?_ ?_ ?_ hstates hrows
          · exact hkind
          · exact hid.symm
          · exact htells

/-! ## Runs -/

/-- Every terminal's `status.*` rows form a chain up to what is projected, and each cites an event
of the same terminal with a smaller number. -/
def Explained (s : Emitting) : Prop :=
  Chained s ∧ ∀ terminalId, ∀ row ∈ s.store.events.statusRows terminalId,
    ∃ e ∈ s.store.events.workerEvent.rows, row.evidence = some e.eventId ∧
      e.terminalId = terminalId ∧ e.seq < row.seq

theorem explained_iff_chained {s : Emitting} (hs : s.Ok) (h : s.store.events.Evidenced) :
    Explained s ↔ Chained s := by
  refine ⟨And.left, fun hchained => ⟨hchained, ?_⟩⟩
  intro terminalId row hrow
  rw [hs.ordered.statusRows, List.mem_filter, Bool.and_eq_true, beq_iff_eq,
    List.contains_iff_mem] at hrow
  obtain ⟨hmem, hkind, rfl⟩ := hrow
  exact h row hmem hkind

/-- The log explains the projection after every prefix of exactly the runs in which every rule
that wrote a moved row got its decision row appended. -/
theorem explained_throughout_iff (steps : List EmitStep) :
    (∀ before after, steps = before ++ after → Explained (run EmitStep.exec .start before)) ↔
      StepsSatisfy EmitStep.exec RecordsDecision .start steps := by
  refine forall_states_iff RecordsDecision (fun s => s.Ok ∧ s.store.events.Evidenced) Explained
    ?_ ?_ _ ⟨Emitting.ok_start, fun row hrow => by cases hrow⟩ ?_ steps
  · rintro s step ⟨hs, hevidenced⟩
    exact ⟨hs.exec step, evidenced_exec hs hevidenced step⟩
  · rintro s step ⟨hs, hevidenced⟩ hexplained
    rw [explained_iff_chained (hs.exec step) (evidenced_exec hs hevidenced step)]
    exact chained_exec_iff hs hexplained.1 step
  · exact ⟨fun _ => rfl, fun _ row hrow => by cases hrow⟩

/-- A dialog opens and the append of its decision row raises. -/
def lostDecision : List EmitStep :=
  appendMarker "question_open" "k" "e" ++
    [.fold 0 { unsourced "d" with raises := fun call => call = .append }]

/-- The projection has moved and no row says so. -/
theorem lostDecision_not_explained :
    ¬ ∀ steps : List EmitStep, Explained (run EmitStep.exec .start steps) := by
  intro h
  have hwalk := (h lostDecision).1 "t"
  have hrows : (run EmitStep.exec .start lostDecision).store.events.statusRows "t" = [] := by
    rw [← List.isEmpty_iff]
    decide +kernel
  have hmoved : (run EmitStep.exec .start lostDecision).store.states.projection "t" ≠
      (.starting, none) := by
    decide +kernel
  rw [hrows] at hwalk
  exact hmoved hwalk.symm

end CliAgentOrchestrator.Truth
