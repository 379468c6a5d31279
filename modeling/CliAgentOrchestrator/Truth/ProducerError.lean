import CliAgentOrchestrator.Truth.Liveness

/-!
# The fleet-wide episode

What `PROBE_FAIL_TICKS` failed probes in a row make of a terminal, and what the next probe that
lists its pane makes of it. The row of the episode gives its reason under `reason`; the
projector reads `degraded_reason`.
-/

set_option autoImplicit false

namespace CliAgentOrchestrator.Truth

open CliAgentOrchestrator.Core Library

/-! ## Conditions -/

/-- The state of a terminal, or the one it fell from. -/
def Condition.prior : Condition → WorkerState
  | well state _ => state
  | ill prior _ _ _ => prior

theorem Condition.prior_ne (c : Condition) : c.prior ≠ .degraded := by
  cases c with
  | well state state_ne => exact state_ne
  | ill prior prior_ne reason since => exact prior_ne

/-- A pane that is missing makes its terminal ill, from the state it was in or had fallen from. -/
theorem shows_transition_missing {row : ProjectedState} {c : Condition}
    (h : Shows (some row.standing) c) (seq : Nat) (ingestedAt : Int) :
    ∃ reason since, Shows (some (transition row seq ingestedAt
        (some .degraded, some .paneUnreadable)).row.standing)
      (.ill c.prior c.prior_ne reason since) := by
  cases c with
  | well state state_ne =>
    obtain ⟨rfl, -, -⟩ := h
    have hmoves : validate row.state .degraded ≠ .noOp := fun heq =>
      state_ne ((validate_eq_noOp_iff _ _).mp heq)
    refine ⟨.paneUnreadable, ingestedAt, ?_⟩
    unfold transition
    dsimp only
    split
    · next hnoOp => exact absurd hnoOp hmoves
    · exact ⟨rfl, rfl, rfl, rfl⟩
  | ill prior prior_ne reason since =>
    obtain ⟨hstate, hreason, hprior, hsince⟩ := h
    have hstate : row.state = .degraded := hstate
    have hreason : row.degradedReason = some reason := hreason
    have htransition : transition row seq ingestedAt (some .degraded, some .paneUnreadable) =
        diagonal row seq .degraded (some .paneUnreadable) := by
      unfold transition
      rw [hstate]
      rfl
    rw [htransition]
    unfold diagonal
    dsimp only
    split
    · exact ⟨.paneUnreadable, since, hstate, rfl, hprior, hsince⟩
    · exact ⟨reason, since, hstate, hreason, hprior, hsince⟩

/-- Ill because of its producer. -/
def ProjectedState.ByProducer (row : ProjectedState) : Prop :=
  row.state = .degraded ∧ row.degradedReason = some .producerError

instance (row : ProjectedState) : Decidable row.ByProducer :=
  inferInstanceAs (Decidable (_ ∧ _))

/-- A row that a missing pane leaves ill because of its producer was so before. -/
theorem byProducer_transition_missing (row : ProjectedState) (seq : Nat) (ingestedAt : Int) :
    (transition row seq ingestedAt (some .degraded, some .paneUnreadable)).row.ByProducer ↔
      row.ByProducer := by
  unfold transition ProjectedState.ByProducer
  dsimp only
  split
  · next hnoOp =>
    have hstate := (validate_eq_noOp_iff _ _).mp hnoOp
    unfold diagonal
    dsimp only
    split
    · next hrise =>
      have hrises := hrise.2
      cases hreason : row.degradedReason with
      | none => simp
      | some reason =>
        rw [hreason] at hrises
        revert hrises
        cases reason <;> simp [reasonRises, DegradedReason.rank]
    · rfl
  · next hmoves =>
    have hstate : row.state ≠ .degraded := fun heq =>
      hmoves ((validate_eq_noOp_iff _ _).mpr heq)
    simp [hstate]

/-! ## One emission -/

/-- The tailer's column of the row of a terminal. -/
def StateStore.sourceProbedAt (states : StateStore) (terminalId : String) : Option Int :=
  (states.get terminalId).bind ProjectedState.lastSourceProbeAt

/-- Does the projection own the status of a terminal, so that its derived events are muted? -/
def Muted (env : Surroundings) (states : StateStore) (terminalId : String) : Bool :=
  projected env (load states terminalId 0)

theorem load_lastSourceProbeAt (states : StateStore) (terminalId : String) (at_ : Int) :
    (load states terminalId at_).lastSourceProbeAt = states.sourceProbedAt terminalId := by
  unfold load StateStore.sourceProbedAt
  cases states.get terminalId <;> rfl

/-- The column decides, whatever else the row holds. -/
theorem projected_congr (env : Surroundings) {row row' : ProjectedState}
    (hid : row.terminalId = row'.terminalId)
    (hprobed : row.lastSourceProbeAt = row'.lastSourceProbeAt) :
    projected env row = projected env row' := by
  unfold projected sourceHealthy
  rw [hid, hprobed]

theorem projected_load (env : Surroundings) (states : StateStore) (terminalId : String)
    (at_ : Int) : projected env (load states terminalId at_) = Muted env states terminalId := by
  refine projected_congr env ?_ ?_
  · rw [load_terminalId, load_terminalId]
  · rw [load_lastSourceProbeAt, load_lastSourceProbeAt]

theorem muted_congr (env : Surroundings) {states states' : StateStore} {terminalId : String}
    (h : states'.sourceProbedAt terminalId = states.sourceProbedAt terminalId) :
    Muted env states' terminalId = Muted env states terminalId := by
  refine projected_congr env ?_ ?_
  · rw [load_terminalId, load_terminalId]
  · rw [load_lastSourceProbeAt, load_lastSourceProbeAt, h]

theorem transition_terminalId (row : ProjectedState) (seq : Nat) (ingestedAt : Int)
    (target : Option WorkerState × Option DegradedReason) :
    (transition row seq ingestedAt target).row.terminalId = row.terminalId := by
  unfold transition
  split
  · rfl
  · split
    · exact diagonal_terminalId row seq _ _
    · rfl

/-- What an emission of worker truth that goes through leaves of the projection. -/
theorem emit_states {e : EmitEnv} {s : Store} {draft : EventDraft} {kind : EventKind}
    (hkind : draft.kind = .event kind) (hkey : draft.idempotencyKey = none)
    (hwent : (emit e s draft).1 = true) :
    ∃ event : WorkerEvent, event.toEventDraft = draft ∧
      (emit e s draft).2.states = s.states.upsert
        (rule (Muted e.env s.states draft.terminalId)
          (load s.states draft.terminalId event.ingestedAt) kind event).row := by
  unfold emit at hwent ⊢
  cases happend : s.events.append draft e.eventId e.ingestedAt with
  | none =>
    rw [happend] at hwent
    cases hwent
  | some answer =>
    obtain ⟨event, log⟩ := answer
    rw [happend] at hwent
    have hdraft : event.toEventDraft = draft := by
      cases EventLog.appended_of_append happend with
      | known key hsome hstored => exact absurd (hkey.symm.trans hsome) (by simp)
      | added hfree hrows hwater => rfl
    refine ⟨event, hdraft, ?_⟩
    dsimp only at hwent ⊢
    have hkind' : event.kind = .event kind := by rw [hdraft, hkind]
    have hid : event.terminalId = draft.terminalId := by rw [hdraft]
    rw [project_of_event e.env _ hkind'] at hwent ⊢
    split at hwent
    · cases hwent
    · next hget =>
      rw [if_neg hget, carryOut_states]
      split
      · next hupsert =>
        unfold carryOut at hwent
        rw [if_pos hupsert] at hwent
        cases hwent
      · rw [projected_load, hid]

/-- The draft has no idempotency key, as none of the probe's has. -/
def ProbeWrite.Keyless : ProbeWrite → Prop
  | emit draft => draft.idempotencyKey = none
  | touch _ _ => True

/-- A write is about one terminal. -/
theorem carryOut_get {write : ProbeWrite} (hkey : write.Keyless) (e : EmitEnv) (s : Store)
    {terminalId : String} (hother : terminalId ≠ write.terminalId) :
    (write.carryOut e s).2.states.get terminalId = s.states.get terminalId := by
  cases write with
  | touch touched probe =>
    show (StateStore.touchProbe s.states touched probe).get terminalId = _
    unfold StateStore.touchProbe
    rw [Table.get_upsert]
    exact if_neg hother
  | emit draft =>
    show (emit e s draft).2.states.get terminalId = _
    unfold emit
    cases happend : s.events.append draft e.eventId e.ingestedAt with
    | none => rfl
    | some answer =>
      obtain ⟨event, log⟩ := answer
      have hid : event.terminalId = draft.terminalId := by
        cases EventLog.appended_of_append happend with
        | known key hsome hstored => exact absurd (hkey.symm.trans hsome) (by simp)
        | added hfree hrows hwater => rfl
      dsimp only
      cases hkind : event.kind with
      | decision kind => rw [project_of_decision e.env _ hkind]
      | event kind =>
        rw [project_of_event e.env _ hkind]
        split
        · rfl
        · rw [carryOut_states]
          split
          · rfl
          · unfold StateStore.upsert
            rw [Table.get_upsert, if_neg]
            rw [rule_terminalId, load_terminalId, hid]
            exact hother

/-- A server decision moves no terminal. -/
theorem emit_decision_states (e : EmitEnv) (s : Store) {draft : EventDraft} {kind : DecisionKind}
    (hkind : draft.kind = .decision kind) (hkey : draft.idempotencyKey = none) :
    (emit e s draft).2.states = s.states := by
  unfold emit
  cases happend : s.events.append draft e.eventId e.ingestedAt with
  | none => rfl
  | some answer =>
    obtain ⟨event, log⟩ := answer
    have hdraft : event.kind = .decision kind := by
      cases EventLog.appended_of_append happend with
      | known key hsome hstored => exact absurd (hkey.symm.trans hsome) (by simp)
      | added hfree hrows hwater => exact hkind
    dsimp only
    rw [project_of_decision e.env _ hdraft]

theorem carryOutAll_cons (env : Nat → EmitEnv) (n : Nat) (s : Store) (write : ProbeWrite)
    (rest : List ProbeWrite) :
    carryOutAll env n s (write :: rest) =
      ((write.carryOut (env n) s).1 &&
          (carryOutAll env (n + 1) (write.carryOut (env n) s).2 rest).1,
        (carryOutAll env (n + 1) (write.carryOut (env n) s).2 rest).2) := rfl

theorem carryOutAll_append (env : Nat → EmitEnv) (n : Nat) (s : Store) (xs ys : List ProbeWrite) :
    carryOutAll env n s (xs ++ ys) =
      ((carryOutAll env n s xs).1 &&
          (carryOutAll env (n + xs.length) (carryOutAll env n s xs).2 ys).1,
        (carryOutAll env (n + xs.length) (carryOutAll env n s xs).2 ys).2) := by
  induction xs generalizing n s with
  | nil => simp [carryOutAll]
  | cons write rest ih =>
    rw [List.cons_append, carryOutAll_cons, carryOutAll_cons, ih, List.length_cons,
      Nat.add_right_comm n 1, ← Nat.add_assoc, Bool.and_assoc]

/-- Writes about other terminals leave a row alone. -/
theorem carryOutAll_get (env : Nat → EmitEnv) (n : Nat) (s : Store) {writes : List ProbeWrite}
    {terminalId : String} (h : ∀ w ∈ writes, w.Keyless ∧ terminalId ≠ w.terminalId) :
    (carryOutAll env n s writes).2.states.get terminalId = s.states.get terminalId := by
  induction writes generalizing n s with
  | nil => rfl
  | cons write rest ih =>
    have hwrite := h write (by simp)
    rw [carryOutAll_cons]
    dsimp only
    rw [ih (n + 1) _ fun w hw => h w (by simp [hw])]
    exact carryOut_get hwrite.1 (env n) s hwrite.2

/-- A write after which the others are about other terminals has the last word on its row. -/
theorem carryOutAll_split (env : Nat → EmitEnv) (n : Nat) (s : Store) (before : List ProbeWrite)
    (write : ProbeWrite) {after : List ProbeWrite} {terminalId : String}
    (hafter : ∀ w ∈ after, w.Keyless ∧ terminalId ≠ w.terminalId) :
    ∃ m, (carryOutAll env n s (before ++ write :: after)).2.states.get terminalId =
        (write.carryOut (env m) (carryOutAll env n s before).2).2.states.get terminalId ∧
      ((carryOutAll env n s (before ++ write :: after)).1 = true →
        (write.carryOut (env m) (carryOutAll env n s before).2).1 = true) := by
  refine ⟨n + before.length, ?_, ?_⟩
  · rw [carryOutAll_append]
    dsimp only
    rw [carryOutAll_cons]
    exact carryOutAll_get env _ _ hafter
  · rw [carryOutAll_append]
    dsimp only
    rw [carryOutAll_cons, Bool.and_eq_true, Bool.and_eq_true]
    exact fun h => h.2.1

/-! ## One tick -/

/-- What a verdict writes is about its own terminal. -/
def AboutOwn (verdict : TerminalRef → Track → Verdict) : Prop :=
  ∀ ref track, ∀ w ∈ (verdict ref track).2, w.Keyless ∧ w.terminalId = ref.terminalId

theorem aboutOwn_declareMissing (now : Int) : AboutOwn (declareMissing now) := by
  intro ref track w hw
  obtain rfl := List.mem_singleton.mp hw
  exact ⟨rfl, rfl⟩

theorem aboutOwn_judge (panes : List PaneRecord) (teardownIsLive : String → Bool) (now : Int) :
    AboutOwn (judge panes teardownIsLive now) := by
  intro ref track w hw
  unfold judge at hw
  split at hw
  · unfold onPanePresent at hw
    split at hw
    · simp at hw
      rcases hw with rfl | rfl <;> exact ⟨by first | rfl | trivial, rfl⟩
    · simp at hw
      subst hw
      exact ⟨trivial, rfl⟩
  · split at hw
    · unfold onPaneAbsent at hw
      dsimp only at hw
      split at hw <;> split at hw <;> simp at hw
      · rcases hw with rfl | rfl <;> exact ⟨by first | rfl | trivial, rfl⟩
      · subst hw
        exact ⟨trivial, rfl⟩
      · rcases hw with rfl | rfl | rfl <;> exact ⟨by first | rfl | trivial, rfl⟩
      · rcases hw with rfl | rfl <;> exact ⟨by first | rfl | trivial, rfl⟩
    · unfold onPaneUnreadable at hw
      dsimp only at hw
      split at hw <;> simp at hw
      · subst hw
        exact ⟨trivial, rfl⟩
      · rcases hw with rfl | rfl <;> exact ⟨by first | rfl | trivial, rfl⟩

/-- A tick leaves the probe as it is, fails, or judges the fleet by a listing. -/
theorem probeOnce_cases (st : ProbeState) (tick : Tick) :
    probeOnce st tick = (st, []) ∨ probeOnce st tick = onFailedProbe st tick.fleet tick.now ∨
      ∃ panes, probeOnce st tick =
        onSuccessfulProbe st panes tick.fleet tick.teardownIsLive tick.now := by
  unfold probeOnce
  split
  · exact .inl rfl
  · split
    · exact .inl rfl
    · exact .inr (.inl rfl)
    · exact .inr (.inl rfl)
    · exact .inr (.inr ⟨_, rfl⟩)

/-- A failed probe writes its own row; it declares panes missing when it opens the episode. -/
theorem onFailedProbe_cases (st : ProbeState) (fleet : Roster) (now : Int) :
    ((st.consecutiveFailures + 1 < probeFailTicks ∨ st.producerErrorOpen = true) ∧
        onFailedProbe st fleet now =
          ({ st with consecutiveFailures := st.consecutiveFailures + 1 },
            [.emit (probeFailedDraft now)])) ∨
      probeFailTicks ≤ st.consecutiveFailures + 1 ∧ st.producerErrorOpen = false ∧
        onFailedProbe st fleet now =
          ({ consecutiveFailures := st.consecutiveFailures + 1, producerErrorOpen := true
             tracks := (judgeFleet (declareMissing now) fleet.refs st.tracks).1 },
            .emit (probeFailedDraft now) ::
              (judgeFleet (declareMissing now) fleet.refs st.tracks).2) := by
  unfold onFailedProbe
  by_cases hquiet : st.consecutiveFailures + 1 < probeFailTicks ∨ st.producerErrorOpen = true
  · exact .inl ⟨hquiet, if_pos hquiet⟩
  · obtain ⟨hcount, hclosed⟩ := not_or.mp hquiet
    exact .inr ⟨Nat.not_lt.mp hcount, Bool.not_eq_true _ ▸ hclosed, if_neg hquiet⟩

/-- A terminal that is not in the roster is not judged. -/
theorem judgeFleet_of_notMem {verdict : TerminalRef → Track → Verdict} (hown : AboutOwn verdict)
    {refs : List TerminalRef} {terminalId : String}
    (h : terminalId ∉ refs.map TerminalRef.terminalId) (tracks : String → Track) :
    (judgeFleet verdict refs tracks).1 terminalId = tracks terminalId ∧
      ∀ w ∈ (judgeFleet verdict refs tracks).2, w.Keyless ∧ terminalId ≠ w.terminalId := by
  induction refs generalizing tracks with
  | nil => exact ⟨rfl, fun w hw => by cases hw⟩
  | cons ref rest ih =>
    have hne : terminalId ≠ ref.terminalId := fun heq => h (by simp [heq])
    have hrest : terminalId ∉ rest.map TerminalRef.terminalId := fun hmem => h (by simp [hmem])
    unfold judgeFleet
    dsimp only
    obtain ⟨htrack, hwrites⟩ := ih hrest fun id =>
      if id = ref.terminalId then (verdict ref (tracks ref.terminalId)).1 else tracks id
    refine ⟨htrack.trans (if_neg hne), ?_⟩
    intro w hw
    obtain hw | hw := List.mem_append.mp hw
    · obtain ⟨hkey, hid⟩ := hown ref _ w hw
      exact ⟨hkey, fun heq => hne (heq.trans hid)⟩
    · exact hwrites w hw

/-- A terminal of the roster is judged once. -/
theorem judgeFleet_of_mem {verdict : TerminalRef → Track → Verdict} (hown : AboutOwn verdict)
    {refs : List TerminalRef} (hnodup : (refs.map TerminalRef.terminalId).Nodup)
    {ref : TerminalRef} (h : ref ∈ refs) (tracks : String → Track) :
    (judgeFleet verdict refs tracks).1 ref.terminalId =
        (verdict ref (tracks ref.terminalId)).1 ∧
      ∃ before after, (judgeFleet verdict refs tracks).2 =
          before ++ (verdict ref (tracks ref.terminalId)).2 ++ after ∧
        (∀ w ∈ before, w.Keyless ∧ ref.terminalId ≠ w.terminalId) ∧
        ∀ w ∈ after, w.Keyless ∧ ref.terminalId ≠ w.terminalId := by
  induction refs generalizing tracks with
  | nil => cases h
  | cons first rest ih =>
    rw [List.map_cons, List.nodup_cons] at hnodup
    unfold judgeFleet
    dsimp only
    obtain rfl | hrest := List.mem_cons.mp h
    · obtain ⟨htrack, hwrites⟩ := judgeFleet_of_notMem hown hnodup.1 fun id =>
        if id = ref.terminalId then (verdict ref (tracks ref.terminalId)).1 else tracks id
      refine ⟨htrack.trans (if_pos rfl), [], _, rfl, ?_, hwrites⟩
      intro w hw
      cases hw
    · have hne : ref.terminalId ≠ first.terminalId := fun heq =>
        hnodup.1 (heq ▸ List.mem_map_of_mem hrest)
      obtain ⟨htrack, before, after, hwrites, hbefore, hafter⟩ := ih hnodup.2 hrest fun id =>
        if id = first.terminalId then (verdict first (tracks first.terminalId)).1 else tracks id
      rw [if_neg hne] at htrack hwrites
      refine ⟨htrack, (verdict first (tracks first.terminalId)).2 ++ before, after, ?_, ?_, hafter⟩
      · rw [hwrites]
        simp only [List.append_assoc]
      · intro w hw
        obtain hw | hw := List.mem_append.mp hw
        · obtain ⟨hkey, hid⟩ := hown first _ w hw
          exact ⟨hkey, fun heq => hne (heq.trans hid)⟩
        · exact hbefore w hw

/-! ## The tick that opens the episode -/

/-- The listing says nothing about any pane. -/
def Listing.Failed : Listing → Prop
  | unavailable => False
  | raised => True
  | panes listed => listed = []

/-- What the probe knows after some ticks. -/
def probeAfter (history : List Tick) : ProbeState :=
  run (fun st tick => (probeOnce st tick).1) {} history

/-- The episode is open exactly when enough probes have failed in a row. -/
theorem producerErrorOpen_probeAfter (history : List Tick) :
    (probeAfter history).producerErrorOpen = true ↔
      probeFailTicks ≤ (probeAfter history).consecutiveFailures := by
  refine run_invariant (fun st : ProbeState => st.producerErrorOpen = true ↔
    probeFailTicks ≤ st.consecutiveFailures) ?_ {} (by decide) history
  intro st tick hst
  obtain hsame | hfailed | ⟨panes, hlisted⟩ := probeOnce_cases st tick
  · rw [hsame]
    exact hst
  · rw [hfailed]
    obtain ⟨hquiet, hon⟩ | ⟨hcount, hclosed, hon⟩ := onFailedProbe_cases st tick.fleet tick.now
    · rw [hon]
      constructor
      · intro hopen
        exact Nat.le_succ_of_le (hst.mp hopen)
      · intro hcount
        exact hquiet.resolve_left (Nat.not_lt.mpr hcount)
    · rw [hon]
      exact ⟨fun _ => hcount, fun _ => rfl⟩
  · rw [hlisted]
    simp [onSuccessfulProbe, probeFailTicks]

/-- The tick whose failure is the last that is missing declares every pane missing. -/
theorem probeOnce_opening {st : ProbeState} {tick : Tick} (hfailed : tick.listing.Failed)
    (hcount : st.consecutiveFailures + 1 = probeFailTicks)
    (hclosed : st.producerErrorOpen = false) (hfleet : tick.fleet.refs ≠ []) :
    (probeOnce st tick).1.tracks =
        (judgeFleet (declareMissing tick.now) tick.fleet.refs st.tracks).1 ∧
      (probeOnce st tick).2 = .emit (probeFailedDraft tick.now) ::
        (judgeFleet (declareMissing tick.now) tick.fleet.refs st.tracks).2 := by
  have hon : probeOnce st tick = onFailedProbe st tick.fleet tick.now := by
    unfold probeOnce
    rw [if_neg hfleet]
    cases hlisting : tick.listing with
    | unavailable =>
      rw [hlisting] at hfailed
      exact hfailed.elim
    | raised => rfl
    | panes panes =>
      rw [hlisting] at hfailed
      obtain rfl : panes = [] := hfailed
      rfl
  obtain ⟨hquiet, -⟩ | ⟨-, -, hopens⟩ := onFailedProbe_cases st tick.fleet tick.now
  · rw [hcount, hclosed] at hquiet
    exact absurd hquiet (by simp)
  · rw [hon, hopens]
    exact ⟨rfl, rfl⟩

/-- No emission of a tick finds the derived events of the terminal muted. -/
def Unmuted (env : Nat → EmitEnv) (states : StateStore) (terminalId : String) : Prop :=
  ∀ n, Muted (env n).env states terminalId = false

/-- The draft of a missing pane gives its reason where the projector does not look. -/
theorem eventTarget_missing (ref : TerminalRef) (reason : DegradedReason) (now : Int) :
    eventTarget .paneMissing (missingDraft ref reason now).payload =
      (some .degraded, some .paneUnreadable) := rfl

/-- What folding a missing pane that is not muted writes. -/
theorem emit_missing_get {e : EmitEnv} {s : Store} {ref : TerminalRef} {now : Int}
    (reason : DegradedReason) (hunmuted : Muted e.env s.states ref.terminalId = false)
    (hwent : (emit e s (missingDraft ref reason now)).1 = true) :
    ∃ seq ingestedAt, (emit e s (missingDraft ref reason now)).2.states =
      s.states.upsert (transition (load s.states ref.terminalId ingestedAt) seq ingestedAt
        (some .degraded, some .paneUnreadable)).row := by
  have hkind : (missingDraft ref reason now).kind = .event .paneMissing := rfl
  obtain ⟨event, hdraft, hstates⟩ := emit_states hkind rfl hwent
  refine ⟨event.seq, event.ingestedAt, ?_⟩
  have hunmuted : Muted e.env s.states (missingDraft ref reason now).terminalId = false := hunmuted
  rw [hstates, hunmuted]
  have hmuted : isMuted false .paneMissing event.confidence = false := by
    unfold isMuted
    rw [Bool.and_false]
  have hpayload : event.payload = (missingDraft ref reason now).payload := by rw [hdraft]
  unfold rule
  rw [hmuted, hpayload, eventTarget_missing]
  rfl

theorem StateStore.exists_get_upsert (states : StateStore) {row : ProjectedState}
    {terminalId : String} (h : row.terminalId = terminalId) :
    ∃ row', (states.upsert row).get terminalId = some row' ∧ row'.standing = row.standing := by
  unfold StateStore.upsert
  rw [Table.get_upsert, if_pos h.symm]
  cases states.get terminalId with
  | none => exact ⟨row, rfl, rfl⟩
  | some old => exact ⟨_, rfl, rfl⟩

/-- What the tick that opens the episode makes of a terminal of the roster: its track, and the
row that one missing pane makes of the row it had. -/
theorem tick_opening {s : Probing} {tick : Tick} {env : Nat → EmitEnv} {ref : TerminalRef}
    (hfailed : tick.listing.Failed) (hcount : s.probe.consecutiveFailures + 1 = probeFailTicks)
    (hclosed : s.probe.producerErrorOpen = false) (hfolds : s.folds tick env = true)
    (href : ref ∈ tick.fleet.refs) (hunmuted : Unmuted env s.store.states ref.terminalId) :
    ((s.tick tick env).probe.tracks ref.terminalId).confirmedPresent = some false ∧
      ∃ row seq ingestedAt, (s.tick tick env).store.states.get ref.terminalId = some row ∧
        row.standing = (transition (load s.store.states ref.terminalId ingestedAt) seq ingestedAt
          (some .degraded, some .paneUnreadable)).row.standing := by
  obtain ⟨htracks, hwrites⟩ :=
    probeOnce_opening hfailed hcount hclosed (List.ne_nil_of_mem href)
  obtain ⟨htrack, before, after, hsplit, hbefore, hafter⟩ :=
    judgeFleet_of_mem (aboutOwn_declareMissing tick.now) tick.fleet.nodup href s.probe.tracks
  have hverdict : (declareMissing tick.now ref (s.probe.tracks ref.terminalId)).2 =
      [.emit (missingDraft ref .producerError tick.now)] := rfl
  refine ⟨?_, ?_⟩
  · show ((probeOnce s.probe tick).1.tracks ref.terminalId).confirmedPresent = some false
    rw [htracks, htrack]
    rfl
  · -- the writes of the tick, split at the one that is about the terminal
    have hall : (probeOnce s.probe tick).2 =
        (.emit (probeFailedDraft tick.now) :: before) ++
          (.emit (missingDraft ref .producerError tick.now) :: after) := by
      rw [hwrites, hsplit, hverdict]
      simp
    unfold Probing.folds at hfolds
    obtain ⟨m, hfinal, hwent⟩ := carryOutAll_split env 0 s.store
      (.emit (probeFailedDraft tick.now) :: before)
      (.emit (missingDraft ref .producerError tick.now)) hafter
    rw [← hall] at hfinal hwent
    have hwent := hwent hfolds
    generalize hmid : (carryOutAll env 0 s.store
      (.emit (probeFailedDraft tick.now) :: before)).2 = mid at hfinal hwent
    have hget : mid.states.get ref.terminalId = s.store.states.get ref.terminalId := by
      rw [← hmid, carryOutAll_cons]
      dsimp only
      rw [carryOutAll_get env _ _ hbefore]
      exact congrArg (fun states : StateStore => states.get ref.terminalId)
        (emit_decision_states (env 0) s.store
          (show (probeFailedDraft tick.now).kind = .decision .probeFailed from rfl) rfl)
    have hprobed : mid.states.sourceProbedAt ref.terminalId =
        s.store.states.sourceProbedAt ref.terminalId := by
      unfold StateStore.sourceProbedAt
      rw [hget]
    obtain ⟨seq, ingestedAt, hstates⟩ := emit_missing_get .producerError
      ((muted_congr (env m).env hprobed).trans (hunmuted m)) hwent
    have hload : load mid.states ref.terminalId ingestedAt =
        load s.store.states ref.terminalId ingestedAt := by
      unfold load
      rw [hget]
    have hrowId : (transition (load mid.states ref.terminalId ingestedAt) seq ingestedAt
        (some .degraded, some .paneUnreadable)).row.terminalId = ref.terminalId := by
      rw [transition_terminalId, load_terminalId]
    obtain ⟨row, hrow, hstanding⟩ := mid.states.exists_get_upsert hrowId
    refine ⟨row, seq, ingestedAt, hfinal.trans ?_, ?_⟩
    · show (emit (env m) mid (missingDraft ref .producerError tick.now)).2.states.get _ = _
      rw [hstates]
      exact hrow
    · rw [hstanding, hload]

/-! ## Until the pane is listed -/

/-- Waiting for its pane: the probe holds it for missing, and its row shows the condition. -/
structure Probing.Awaits (s : Probing) (terminalId : String) (c : Condition) : Prop where
  missing : (s.probe.tracks terminalId).confirmedPresent = some false
  shows : Shows (s.store.states.standing terminalId) c

/-- The tick has no event about the terminal. -/
def Probing.Quiet (s : Probing) (terminalId : String) (tick : Tick) : Prop :=
  ∀ draft kind, .emit draft ∈ (probeOnce s.probe tick).2 → draft.kind = .event kind →
    draft.terminalId ≠ terminalId

theorem keyless_judgeFleet {verdict : TerminalRef → Track → Verdict} (hown : AboutOwn verdict)
    (refs : List TerminalRef) (tracks : String → Track) :
    ∀ w ∈ (judgeFleet verdict refs tracks).2, w.Keyless := by
  induction refs generalizing tracks with
  | nil =>
    intro w hw
    cases hw
  | cons ref rest ih =>
    intro w hw
    obtain hw | hw := List.mem_append.mp hw
    · exact (hown ref _ w hw).1
    · exact ih _ w hw

/-- Nothing the probe emits has a key. -/
theorem keyless_probeOnce (st : ProbeState) (tick : Tick) :
    ∀ w ∈ (probeOnce st tick).2, w.Keyless := by
  intro w hw
  obtain hsame | hfailed | ⟨panes, hlisted⟩ := probeOnce_cases st tick
  · rw [hsame] at hw
    cases hw
  · rw [hfailed] at hw
    obtain ⟨-, hon⟩ | ⟨-, -, hon⟩ := onFailedProbe_cases st tick.fleet tick.now
    · rw [hon] at hw
      obtain rfl := List.mem_singleton.mp hw
      exact rfl
    · rw [hon] at hw
      obtain rfl | hw := List.mem_cons.mp hw
      · exact rfl
      · exact keyless_judgeFleet (aboutOwn_declareMissing tick.now) _ _ w hw
  · rw [hlisted] at hw
    exact keyless_judgeFleet (aboutOwn_judge panes tick.teardownIsLive tick.now) _ _ w hw

/-- Writes without an event about the terminal leave what its row shows. -/
theorem shows_carryOutAll (env : Nat → EmitEnv) (n : Nat) {s : Store} {writes : List ProbeWrite}
    {terminalId : String} {c : Condition} (hkeyless : ∀ w ∈ writes, w.Keyless)
    (hquiet : ∀ draft kind, .emit draft ∈ writes → draft.kind = .event kind →
      draft.terminalId ≠ terminalId)
    (h : Shows (s.states.standing terminalId) c) :
    Shows ((carryOutAll env n s writes).2.states.standing terminalId) c := by
  induction writes generalizing n s with
  | nil => exact h
  | cons write rest ih =>
    rw [carryOutAll_cons]
    refine ih (n + 1) (fun w hw => hkeyless w (by simp [hw]))
      (fun draft kind hd => hquiet draft kind (by simp [hd])) ?_
    cases write with
    | touch touched probe => exact shows_touch h _ (probePatch probe) ⟨rfl, rfl, rfl⟩ fun _ => rfl
    | emit draft =>
      have hkey : draft.idempotencyKey = none := hkeyless (.emit draft) (by simp)
      show Shows ((emit (env n) s draft).2.states.standing terminalId) c
      cases hkind : draft.kind with
      | decision kind =>
        rw [emit_decision_states (env n) s hkind hkey]
        exact h
      | event kind =>
        have hother : terminalId ≠ draft.terminalId :=
          (hquiet draft kind (by simp) hkind).symm
        have hget : (emit (env n) s draft).2.states.get terminalId = s.states.get terminalId :=
          carryOut_get (show (ProbeWrite.emit draft).Keyless from hkey) (env n) s hother
        unfold StateStore.standing
        rw [hget]
        exact h

/-- The verdict of a listing on a terminal held for missing: it is held for missing still, or its
pane is listed and its recovery written. -/
theorem judge_missing {panes : List PaneRecord} {teardownIsLive : String → Bool} {now : Int}
    {ref : TerminalRef} {track : Track} (h : track.confirmedPresent = some false) :
    (judge panes teardownIsLive now ref track).1.confirmedPresent = some false ∨
      .emit (recoveredDraft ref track.degradedReason now) ∈
        (judge panes teardownIsLive now ref track).2 := by
  unfold judge
  split
  · right
    unfold onPanePresent
    rw [if_pos h]
    simp
  · left
    split
    · unfold onPaneAbsent
      dsimp only
      rw [if_neg (not_not_intro h)]
      split <;> rfl
    · unfold onPaneUnreadable
      dsimp only
      rw [if_pos h]
      exact h

/-- A terminal that waits for its pane goes on waiting over a tick that has no event about it. -/
theorem Probing.Awaits.tick {s : Probing} {terminalId : String} {c : Condition}
    (h : s.Awaits terminalId c) {tick : Tick} (hquiet : s.Quiet terminalId tick)
    (env : Nat → EmitEnv) : (s.tick tick env).Awaits terminalId c := by
  refine ⟨?_, shows_carryOutAll env 0 (keyless_probeOnce s.probe tick) hquiet h.shows⟩
  show ((probeOnce s.probe tick).1.tracks terminalId).confirmedPresent = some false
  unfold Probing.Quiet at hquiet
  obtain hsame | hfailed | ⟨panes, hlisted⟩ := probeOnce_cases s.probe tick
  · rw [hsame]
    exact h.missing
  · rw [hfailed]
    obtain ⟨-, hon⟩ | ⟨-, -, hon⟩ := onFailedProbe_cases s.probe tick.fleet tick.now
    · rw [hon]
      exact h.missing
    · rw [hon]
      show ((judgeFleet (declareMissing tick.now) tick.fleet.refs
        s.probe.tracks).1 terminalId).confirmedPresent = some false
      by_cases hmem : terminalId ∈ tick.fleet.refs.map TerminalRef.terminalId
      · obtain ⟨ref, href, rfl⟩ := List.mem_map.mp hmem
        rw [(judgeFleet_of_mem (aboutOwn_declareMissing tick.now) tick.fleet.nodup href _).1]
        rfl
      · rw [(judgeFleet_of_notMem (aboutOwn_declareMissing tick.now) hmem _).1]
        exact h.missing
  · rw [hlisted] at hquiet ⊢
    have hown := aboutOwn_judge panes tick.teardownIsLive tick.now
    show ((judgeFleet (judge panes tick.teardownIsLive tick.now) tick.fleet.refs
      s.probe.tracks).1 terminalId).confirmedPresent = some false
    by_cases hmem : terminalId ∈ tick.fleet.refs.map TerminalRef.terminalId
    · obtain ⟨ref, href, rfl⟩ := List.mem_map.mp hmem
      obtain ⟨htrack, before, after, hwrites, -, -⟩ :=
        judgeFleet_of_mem hown tick.fleet.nodup href s.probe.tracks
      rw [htrack]
      refine (judge_missing h.missing).resolve_right fun hrecovers => ?_
      refine hquiet (recoveredDraft ref (s.probe.tracks ref.terminalId).degradedReason tick.now)
        .paneRecovered ?_ rfl rfl
      show _ ∈ (judgeFleet (judge panes tick.teardownIsLive tick.now) tick.fleet.refs
        s.probe.tracks).2
      rw [hwrites]
      exact List.mem_append_left _ (List.mem_append_right _ hrecovers)
    · rw [(judgeFleet_of_notMem hown hmem _).1]
      exact h.missing

/-- Ticks one after the other, each with what its emissions find. -/
def Probing.ticks (s : Probing) (later : List (Tick × (Nat → EmitEnv))) : Probing :=
  run (fun s step => s.tick step.1 step.2) s later

theorem Probing.Awaits.ticks {s : Probing} {terminalId : String} {c : Condition}
    (h : s.Awaits terminalId c) {later : List (Tick × (Nat → EmitEnv))}
    (hquiet : StepsSatisfy (fun s step => Probing.tick s step.1 step.2)
      (fun s step => s.Quiet terminalId step.1) s later) : (s.ticks later).Awaits terminalId c :=
  run_invariant_of (fun s (step : Tick × (Nat → EmitEnv)) => s.Quiet terminalId step.1)
    (fun s => s.Awaits terminalId c) (fun _ step hstep hs => hs.tick hstep step.2) s h later hquiet

/-! ## The probe that lists the pane -/

/-- The tick lists the pane of the terminal. -/
def Tick.Lists (tick : Tick) (terminalId : String) : Prop :=
  ∃ panes ref pane, tick.listing = .panes panes ∧ ref ∈ tick.fleet.refs ∧
    ref.terminalId = terminalId ∧ paneOf panes ref = some pane

/-- Folding a recovery brings an ill terminal back, muted or not. -/
theorem shows_emit_recovered {e : EmitEnv} {s : Store} {ref : TerminalRef}
    {previousReason : Option DegradedReason} {now : Int} {prior : WorkerState}
    {prior_ne : prior ≠ .degraded} {reason : DegradedReason} {since : Int}
    (h : Shows (s.states.standing ref.terminalId) (.ill prior prior_ne reason since))
    (hwent : (emit e s (recoveredDraft ref previousReason now)).1 = true) :
    Shows ((emit e s (recoveredDraft ref previousReason now)).2.states.standing ref.terminalId)
      (.well prior prior_ne) := by
  have hkind : (recoveredDraft ref previousReason now).kind = .event .paneRecovered := rfl
  obtain ⟨event, hdraft, hstates⟩ := emit_states hkind rfl hwent
  have hid : (recoveredDraft ref previousReason now).terminalId = ref.terminalId := rfl
  have hunmuted : ∀ owned, isMuted owned .paneRecovered event.confidence = false := by
    intro owned
    unfold isMuted
    simp [derivedAlwaysKinds]
  have hrule : ∀ owned row, rule owned row .paneRecovered event =
      recover row event.seq event.ingestedAt := by
    intro owned row
    unfold rule
    rw [hunmuted]
    rfl
  rw [hstates, hrule, hid, StateStore.standing_upsert_self]
  · exact shows_recover_of_ill (h.load event.ingestedAt) event.seq event.ingestedAt
  · unfold recover
    split <;> exact (load_terminalId _ _ _).symm

/-- A terminal that waits for its pane is back in its prior state when a probe lists it. -/
theorem Probing.Awaits.recovers {s : Probing} {terminalId : String} {prior : WorkerState}
    {prior_ne : prior ≠ .degraded} {reason : DegradedReason} {since : Int}
    (h : s.Awaits terminalId (.ill prior prior_ne reason since)) {tick : Tick}
    (hlists : tick.Lists terminalId) {env : Nat → EmitEnv} (hfolds : s.folds tick env = true) :
    (s.tick tick env).store.states.stateOf terminalId = prior := by
  obtain ⟨panes, ref, pane, hlisting, href, rfl, hpane⟩ := hlists
  have hon : probeOnce s.probe tick =
      onSuccessfulProbe s.probe panes tick.fleet tick.teardownIsLive tick.now := by
    unfold probeOnce
    rw [if_neg (List.ne_nil_of_mem href), hlisting]
    cases panes with
    | nil => simp [paneOf] at hpane
    | cons first rest => rfl
  obtain ⟨-, before, after, hsplit, hbefore, hafter⟩ :=
    judgeFleet_of_mem (aboutOwn_judge panes tick.teardownIsLive tick.now) tick.fleet.nodup href
      s.probe.tracks
  have hverdict : (judge panes tick.teardownIsLive tick.now ref
      (s.probe.tracks ref.terminalId)).2 =
        [.touch ref.terminalId ⟨tick.now, true, pane.pid, 0⟩,
          .emit (recoveredDraft ref (s.probe.tracks ref.terminalId).degradedReason tick.now)] := by
    unfold judge
    rw [hpane]
    unfold onPanePresent
    rw [if_pos h.missing]
  have hall : (probeOnce s.probe tick).2 =
      (before ++ [.touch ref.terminalId ⟨tick.now, true, pane.pid, 0⟩]) ++
        .emit (recoveredDraft ref (s.probe.tracks ref.terminalId).degradedReason tick.now) ::
          after := by
    rw [hon]
    show (judgeFleet _ _ _).2 = _
    rw [hsplit, hverdict]
    simp
  obtain ⟨m, hfinal, hwent⟩ := carryOutAll_split env 0 s.store
    (before ++ [.touch ref.terminalId ⟨tick.now, true, pane.pid, 0⟩])
    (.emit (recoveredDraft ref (s.probe.tracks ref.terminalId).degradedReason tick.now)) hafter
  rw [← hall] at hfinal hwent
  have hwent := hwent hfolds
  have hmid : Shows ((carryOutAll env 0 s.store
      (before ++ [.touch ref.terminalId ⟨tick.now, true, pane.pid, 0⟩])).2.states.standing
        ref.terminalId) (.ill prior prior_ne reason since) := by
    refine shows_carryOutAll env 0 ?_ ?_ h.shows
    · intro w hw
      obtain hw | hw := List.mem_append.mp hw
      · exact (hbefore w hw).1
      · obtain rfl := List.mem_singleton.mp hw
        trivial
    · intro draft kind hdraft hkind
      obtain hw | hw := List.mem_append.mp hdraft
      · exact (hbefore _ hw).2.symm
      · cases List.mem_singleton.mp hw
  have hback := shows_emit_recovered hmid hwent
  refine @Shows.stateOf_of_well _ _ _ prior_ne ?_
  unfold StateStore.standing at hback ⊢
  rw [show (s.tick tick env).store.states.get ref.terminalId = _ from hfinal]
  exact hback

/-! ## The episode -/

/-- What a fleet-wide failure is to be projected as: every terminal whose derived events are not
muted is degraded because of its producer, and the next probe that lists its pane brings it back
to the state it had before, if no other event comes between. -/
structure Probing.Projects (s : Probing) (tick : Tick) (env : Nat → EmitEnv) : Prop where
  degraded : ∀ ref ∈ tick.fleet.refs, Unmuted env s.store.states ref.terminalId →
    ∃ row, (s.tick tick env).store.states.get ref.terminalId = some row ∧
      row.state = .degraded ∧ row.degradedReason = some .producerError
  recovers : ∀ ref ∈ tick.fleet.refs, Unmuted env s.store.states ref.terminalId →
    ∀ c, Shows (s.store.states.standing ref.terminalId) c → ∀ later,
      StepsSatisfy (fun s step => Probing.tick s step.1 step.2)
        (fun s step => s.Quiet ref.terminalId step.1) (s.tick tick env) later →
      ∀ last lastEnv, last.Lists ref.terminalId →
        ((s.tick tick env).ticks later).folds last lastEnv = true →
        (((s.tick tick env).ticks later).tick last lastEnv).store.states.stateOf ref.terminalId =
          c.prior

/-- The `PROBE_FAIL_TICKS`-th failed probe in a row is projected as the failure of the producer
exactly on the terminals that stand degraded for it already. -/
theorem producer_error_projected_iff (history : List Tick) (store : Store) (tick : Tick)
    (env : Nat → EmitEnv) (hfailed : tick.listing.Failed)
    (hcount : (probeAfter history).consecutiveFailures + 1 = probeFailTicks)
    (hfolds : Probing.folds ⟨probeAfter history, store⟩ tick env = true) :
    Probing.Projects ⟨probeAfter history, store⟩ tick env ↔
      ∀ ref ∈ tick.fleet.refs, Unmuted env store.states ref.terminalId →
        ∃ row, store.states.get ref.terminalId = some row ∧
          row.state = .degraded ∧ row.degradedReason = some .producerError := by
  have hclosed : (probeAfter history).producerErrorOpen = false := by
    rw [← Bool.not_eq_true, producerErrorOpen_probeAfter]
    omega
  have hopening : ∀ ref ∈ tick.fleet.refs, Unmuted env store.states ref.terminalId → _ :=
    fun ref href hunmuted => tick_opening hfailed hcount hclosed hfolds href hunmuted
  constructor
  · intro hprojects ref href hunmuted
    obtain ⟨-, row, seq, ingestedAt, hrow, hstanding⟩ := hopening ref href hunmuted
    obtain ⟨row', hrow', hstate, hreason⟩ := hprojects.degraded ref href hunmuted
    cases hrow'.symm.trans hrow
    have hbefore := (byProducer_transition_missing _ seq ingestedAt).mp
      ⟨(congrArg Standing.state hstanding).symm.trans hstate,
        (congrArg Standing.degradedReason hstanding).symm.trans hreason⟩
    cases hget : store.states.get ref.terminalId with
    | none =>
      unfold load at hbefore
      rw [hget] at hbefore
      exact absurd hbefore.1 (by simp)
    | some before =>
      unfold load at hbefore
      rw [hget] at hbefore
      exact ⟨before, rfl, hbefore⟩
  · intro hbefore
    refine ⟨?_, ?_⟩
    · intro ref href hunmuted
      obtain ⟨before, hget, hproducer⟩ := hbefore ref href hunmuted
      obtain ⟨-, row, seq, ingestedAt, hrow, hstanding⟩ := hopening ref href hunmuted
      have hafter := (byProducer_transition_missing (load store.states ref.terminalId ingestedAt)
        seq ingestedAt).mpr (by
          unfold load
          rw [hget]
          exact hproducer)
      exact ⟨row, hrow, (congrArg Standing.state hstanding).trans hafter.1,
        (congrArg Standing.degradedReason hstanding).trans hafter.2⟩
    · intro ref href hunmuted c hc later hquiet last lastEnv hlists hlast
      obtain ⟨hmissing, row, seq, ingestedAt, hrow, hstanding⟩ := hopening ref href hunmuted
      obtain ⟨reason, since, hill⟩ :=
        shows_transition_missing (hc.load ingestedAt) seq ingestedAt
      have hawaits : (Probing.tick ⟨probeAfter history, store⟩ tick env).Awaits ref.terminalId
          (.ill c.prior c.prior_ne reason since) := by
        refine ⟨hmissing, ?_⟩
        unfold StateStore.standing
        rw [hrow, Option.map_some, hstanding]
        exact hill
      exact (hawaits.ticks hquiet).recovers hlists hlast

theorem pane_ne_empty : "t" ≠ "" := by decide

/-- A tick that fails over a fleet of one terminal. -/
def failedTick : Tick where
  fleet := { refs := [⟨"t", "s", "w", pane_ne_empty⟩], nodup := by decide }
  listing := .raised
  now := 0
  teardownIsLive _ := false

/-- Emissions under fresh ids, with no source registered. -/
def freshEmissions (n : Nat) : EmitEnv where
  eventId := String.ofList (List.replicate (n + 1) 'e')
  ingestedAt := 0
  env := unsourced (String.ofList (List.replicate (n + 1) 'd'))

/-- A projection of the one terminal. -/
def oneRow (row : ProjectedState) : Store := ⟨Table.empty.insert row, .empty⟩

/-- Two failed ticks over a state that is degraded already. -/
theorem producer_error_projected_of_already :
    Probing.Projects ⟨probeAfter [failedTick, failedTick],
        oneRow { terminalId := "t", state := .degraded, since := 0
                 degradedReason := some .producerError, priorState := some .idle }⟩
      failedTick freshEmissions := by
  refine (producer_error_projected_iff [failedTick, failedTick] _ failedTick freshEmissions trivial
    (by decide +kernel) (by decide +kernel)).mpr ?_
  intro ref href _
  obtain rfl := List.mem_singleton.mp href
  exact ⟨_, rfl, rfl, rfl⟩

/-- Three failed probes in a row over a terminal that idles: it is degraded because its pane cannot
be read. -/
theorem third_failure_reads_pane_unreadable :
    Probing.folds ⟨probeAfter [failedTick, failedTick],
        oneRow { terminalId := "t", state := .idle, since := 0 }⟩ failedTick freshEmissions = true ∧
      ¬ Probing.Projects ⟨probeAfter [failedTick, failedTick],
          oneRow { terminalId := "t", state := .idle, since := 0 }⟩ failedTick freshEmissions := by
  refine ⟨by decide +kernel, fun h => ?_⟩
  have hreason : (Probing.tick ⟨probeAfter [failedTick, failedTick],
      oneRow { terminalId := "t", state := .idle, since := 0 }⟩ failedTick
        freshEmissions).store.states.standing "t" = some
          ⟨.degraded, 0, 1, some .paneUnreadable, some .idle⟩ := by
    decide +kernel
  obtain ⟨row, hrow, -, hproducer⟩ := h.degraded ⟨"t", "s", "w", by decide⟩
    (List.mem_singleton.mpr rfl) fun n => rfl
  unfold StateStore.standing at hreason
  rw [hrow] at hreason
  have hunreadable := congrArg Standing.degradedReason (Option.some.inj hreason)
  cases hproducer.symm.trans hunreadable

end CliAgentOrchestrator.Truth
