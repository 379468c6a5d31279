import CliAgentOrchestrator.Workflow.Service

/-!
# What a replay serves

A row's fingerprint is written by begins and its result by settles, and neither write knows of
the other. `Sourced` ties the stored result to the call that settled it, over every run;
`RowSound` says the row replays only what a call dispatched under its stored fingerprint
produced. Each write of the journal keeps `RowSound` exactly when it `Fits` the row it finds.
-/

set_option autoImplicit false

namespace CliAgentOrchestrator.Workflow

open Library

variable {cfg : Settings} {s s' : Service}

/-! ## Where a stored result comes from -/

/-- Every stored result is the envelope of the call its row names as origin, and a call that
settled as a success was dispatched. -/
structure Sourced (cfg : Settings) (s : Service) : Prop where
  named : ∀ k i, s.origin k = some i →
    ∃ c o, s.calls[i]? = some c ∧ c.key = k ∧ c.live = false ∧ c.outcome = some o
  stored : ∀ k, (s.journal.get k).bind StepRow.resultJson =
    ((s.source k).bind Call.outcome).map fun o => serialiseEnvelope (o.envelope cfg.patterns)
  honest : ∀ (i : Nat) (c : Call) (o : Outcome), s.calls[i]? = some c → c.outcome = some o →
    o.isSuccess = true → c.dispatched = true

theorem sourced_init : Sourced cfg {} where
  named := by
    intro k i h
    cases h
  stored := fun _ => rfl
  honest := by
    intro i c o h
    cases h

/-- A call that is over keeps its record. -/
theorem Wrote.call_over {w : Option RowWrite} (h : Wrote cfg s s' w) {i : Nat} {c : Call}
    (hc : s.calls[i]? = some c) (hover : c.live = false) : s'.calls[i]? = some c := by
  obtain ⟨c', hc', hstep⟩ := h.held i c hc
  cases hstep with
  | kept => exact hc'
  | begun hlive | ended hlive =>
    rw [hover] at hlive
    cases hlive
  | settled o outputJson now haccepts =>
    rw [Call.accepts, hover] at haccepts
    cases haccepts

/-- A settle makes its call the source of its row, and no step changes another source. -/
theorem Wrote.source {w : Option RowWrite} (h : Wrote cfg s s' w) (hs : Sourced cfg s)
    (k : StepKey) :
    s'.source k =
      match w.bind RowWrite.settles with
      | some (_, c, o) =>
        if k = c.key then some { c with live := false, outcome := some o } else s.source k
      | none => s.source k := by
  have hkept : s.origin k = s'.origin k → s'.source k = s.source k := by
    intro horigin
    unfold Service.source
    rw [← horigin]
    cases hi : s.origin k with
    | none => rfl
    | some i =>
      obtain ⟨c, o, hc, -, hover, -⟩ := hs.named k i hi
      rw [Option.bind_some, Option.bind_some, hc, h.call_over hc hover]
  cases hw : w.bind RowWrite.settles with
  | none =>
    refine hkept ?_
    rw [h.origin, hw]
  | some settled =>
    obtain ⟨i, c, o⟩ := settled
    dsimp only
    split
    · next hk =>
      unfold Service.source
      rw [h.origin, hw]
      dsimp only
      rw [if_pos hk, Option.bind_some, (h.settled i c o hw).2.2]
    · next hk =>
      refine hkept ?_
      rw [h.origin, hw]
      dsimp only
      rw [if_neg hk]

/-- Only a settle writes the result of a row. -/
theorem RowWrite.resultJson_apply (w : RowWrite) (j : Journal) (k : StepKey) :
    ((w.apply cfg j).get k).bind StepRow.resultJson =
      match w.settles with
      | some (_, c, o) =>
        if k = c.key then some (serialiseEnvelope (o.envelope cfg.patterns))
        else (j.get k).bind StepRow.resultJson
      | none => (j.get k).bind StepRow.resultJson := by
  cases w with
  | begin c now =>
    simp only [RowWrite.apply, RowWrite.settles, get_beginStep]
    split
    · cases j.get k <;> rfl
    · rfl
  | settle i c o outputJson now =>
    simp only [RowWrite.apply, RowWrite.settles, get_settleStep]
    by_cases hk : k = c.key
    · rw [if_pos hk, if_pos (show k = (c.runId, c.stepId) from hk)]
      cases j.get k <;> rfl
    · rw [if_neg hk, if_neg (show ¬ k = (c.runId, c.stepId) from hk)]
  | grant runId resolved =>
    simp only [RowWrite.apply, RowWrite.settles, get_writeDecisions]
    cases j.get k with
    | none => rfl
    | some r =>
      dsimp only [Option.map_some, Option.bind_some]
      split <;> rfl
  | revoke runId granted =>
    simp only [RowWrite.apply, RowWrite.settles, get_revokeUnconsumedDecisions]
    cases j.get k with
    | none => rfl
    | some r =>
      dsimp only [Option.map_some, Option.bind_some]
      split
      · split <;> rfl
      · rfl

/-- A write leaves each row with its source. -/
theorem Wrote.sourced {w : Option RowWrite} (h : Wrote cfg s s' w) (hs : Sourced cfg s) :
    Sourced cfg s' where
  named := by
    intro k i hi
    have hold : s.origin k = some i →
        ∃ c o, s'.calls[i]? = some c ∧ c.key = k ∧ c.live = false ∧ c.outcome = some o := by
      intro hi
      obtain ⟨c, o, hc, hkey, hover, hout⟩ := hs.named k i hi
      exact ⟨c, o, h.call_over hc hover, hkey, hover, hout⟩
    rw [h.origin] at hi
    split at hi
    · next call c o hw =>
      dsimp only at hi
      split at hi
      · next hk =>
        cases hi
        obtain ⟨-, -, hc'⟩ := h.settled i c o hw
        exact ⟨_, o, hc', hk.symm, rfl, rfl⟩
      · exact hold hi
    · exact hold hi
  stored := by
    intro k
    rw [h.source hs, h.journal]
    cases w with
    | none => exact hs.stored k
    | some w =>
      rw [Option.map_some, Option.getD_some, RowWrite.resultJson_apply, Option.bind_some]
      split
      · split
        · rfl
        · exact hs.stored k
      · exact hs.stored k
  honest := by
    intro i c' o hc' hout hsuccess
    cases hc : s.calls[i]? with
    | none =>
      rw [h.fresh i c' hc hc'] at hout
      cases hout
    | some c =>
      obtain ⟨x, hx, hstep⟩ := h.held i c hc
      rw [hc'] at hx
      cases hx
      cases hstep with
      | kept => exact hs.honest i _ o hc hout hsuccess
      | settled o' outputJson now haccepts =>
        cases hout
        rw [Call.accepts, hsuccess, Bool.and_eq_true] at haccepts
        simpa using haccepts.2
      | _ => exact hs.honest i c o hc hout hsuccess

theorem Sourced.exec (hs : Sourced cfg s) (e : Event) : Sourced cfg (s.exec cfg e) :=
  (s.exec_wrote cfg e).sourced hs

/-- A stored result parses to the envelope of its source. -/
theorem Sourced.parse (hs : Sourced cfg s) {k : StepKey} {row : StepRow}
    {e : StepResultEnvelope} (hget : s.journal.get k = some row)
    (hparse : parseEnvelope cfg.reader row.resultJson = some e) :
    ∃ c o, s.source k = some c ∧ c.key = k ∧ c.outcome = some o ∧ e = o.envelope cfg.patterns := by
  have hstored := hs.stored k
  rw [hget, Option.bind_some] at hstored
  cases hsource : s.source k with
  | none =>
    rw [hstored, hsource] at hparse
    cases hparse
  | some c =>
    obtain ⟨i, hi, hc⟩ := Option.bind_eq_some_iff.mp hsource
    obtain ⟨c', o, hc', hkey, -, hout⟩ := hs.named k i hi
    rw [hc] at hc'
    cases hc'
    rw [hstored, hsource, Option.bind_some, hout, Option.map_some,
      parseEnvelope_serialise] at hparse
    exact ⟨c, o, rfl, hkey, hout, (Option.some.inj hparse).symm⟩

/-! ## What a sound row replays -/

/-- Whatever this row replays was built by settling a call dispatched with the fingerprint it is
asked for, and unless a person authorised the skip that call succeeded and returned that text. -/
def RowSound (cfg : Settings) (k : StepKey) (row : StepRow) (source : Option Call) : Prop :=
  ∀ fingerprint policy e, Replays cfg.reader row fingerprint policy e →
    ∃ c o, source = some c ∧ c.key = k ∧ c.dispatched = true ∧ c.fingerprint = fingerprint ∧
      c.outcome = some o ∧ e = o.envelope cfg.patterns ∧
      (row.state = .replayAuthorized ∨ o.Returned e.lastMessage)

/-- Every REPLAY the gate would answer is sound. -/
def ReplaySound (cfg : Settings) (s : Service) : Prop :=
  ∀ runId stepId fingerprint policy d e,
    StepReplay.decide cfg.reader s.journal runId stepId fingerprint policy = .ok d →
    d.verdict = .replay → d.envelope = some e →
    ∃ row c o, getStep s.journal runId stepId = some row ∧ s.source (runId, stepId) = some c ∧
      c.key = (runId, stepId) ∧ c.dispatched = true ∧ c.fingerprint = fingerprint ∧
      c.outcome = some o ∧ e = o.envelope cfg.patterns ∧
      (row.state = .replayAuthorized ∨ o.Returned e.lastMessage)

theorem replaySound_iff_rows : ReplaySound cfg s ↔
    ∀ k row, s.journal.get k = some row → RowSound cfg k row (s.source k) := by
  constructor
  · intro h k row hget fingerprint policy e hreplays
    have hscheme : schemeOf (some fingerprint) = .v2 := by
      rw [← hreplays.same]
      exact hreplays.current
    have hverdict := (decideRow_replay_iff cfg.reader ("run '" ++ k.1 ++ "' step '" ++ k.2 ++ "'")
      (getStep s.journal k.1 k.2) fingerprint policy e).mpr ⟨row, hget, hreplays⟩
    obtain ⟨row', c, o, hrow', hrest⟩ := h k.1 k.2 fingerprint policy _ e
      (by unfold StepReplay.decide; rw [if_neg (not_not.mpr hscheme)]) hverdict.1 hverdict.2
    have hsame : row' = row := by
      have hget' : s.journal.get k = some row' := hrow'
      rw [hget] at hget'
      exact (Option.some.inj hget').symm
    rw [hsame] at hrest
    exact ⟨c, o, hrest⟩
  · intro h runId stepId fingerprint policy d e hdecide hverdict henvelope
    unfold StepReplay.decide at hdecide
    split at hdecide
    · cases hdecide
    · cases hdecide
      obtain ⟨row, hget, hreplays⟩ := (decideRow_replay_iff ..).mp ⟨hverdict, henvelope⟩
      obtain ⟨c, o, hrest⟩ := h (runId, stepId) row hget fingerprint policy e hreplays
      exact ⟨row, c, o, hget, hrest⟩

/-! ## Which writes keep it -/

/-- The state of a row whose result stands: not running, not failed, not a consent. -/
def StepState.settled (s : StepState) : Bool :=
  !(s == .running || s == .failed || s.authorised)

/-- The write meets the row it finds: a settle that succeeded unabridged finds its own
fingerprint, a skip is granted over a result settled under the stored fingerprint, and a revoke
puts a settled state back over the result of such a call that succeeded. A row whose fingerprint
is absent or of another scheme meets every write. -/
def RowWrite.Fits (cfg : Settings) (s : Service) : RowWrite → Prop
  | .begin .. => True
  | .settle _ c outcome _ _ =>
    outcome.isSuccess = true → (outcome.envelope cfg.patterns).truncated = false →
      (outcome.envelope cfg.patterns).redacted = false →
      ∀ row fingerprint, s.journal.get c.key = some row →
        row.callFingerprint = some fingerprint → schemeOf (some fingerprint) = .v2 →
        c.fingerprint = fingerprint
  | .grant runId resolved =>
    ∀ step d row fingerprint, resolved.find step = some d → d.decision = .skip →
      s.journal.get (runId, step) = some row → row.callFingerprint = some fingerprint →
      schemeOf (some fingerprint) = .v2 → row.resultJson.isSome →
      ∃ c, s.source (runId, step) = some c ∧ c.dispatched = true ∧ c.fingerprint = fingerprint
  | .revoke runId granted =>
    ∀ step prior row fingerprint e, granted.find step = some prior →
      s.journal.get (runId, step) = some row → row.state.authorised = true →
      prior.settled = true → row.callFingerprint = some fingerprint →
      schemeOf (some fingerprint) = .v2 → parseEnvelope cfg.reader row.resultJson = some e →
      e.truncated = false → e.redacted = false →
      ∃ c o, s.source (runId, step) = some c ∧ c.dispatched = true ∧
        c.fingerprint = fingerprint ∧ c.outcome = some o ∧ o.isSuccess = true

/-- Whatever the step writes fits. -/
def StepFits (cfg : Settings) (s : Service) (e : Event) : Prop :=
  ∀ w, s.write e = some w → w.Fits cfg s

/-- A row that is running or waits for its rerun replays nothing. -/
theorem rowSound_of_pending {k : StepKey} {row : StepRow} {source : Option Call}
    (h : row.state = .running ∨ row.state = .rerunAuthorized) : RowSound cfg k row source := by
  intro fingerprint policy e hreplays
  rcases h with h | h
  · exact absurd h hreplays.notRunning
  · exact absurd h hreplays.notRerun

/-- A success that reports no loss is served as it was returned. -/
theorem Outcome.returned_of_whole {patterns : List SecretPattern} {o : Outcome}
    (hsuccess : o.isSuccess = true) (htruncated : (o.envelope patterns).truncated = false)
    (hredacted : (o.envelope patterns).redacted = false) :
    o.Returned (o.envelope patterns).lastMessage := by
  cases o with
  | failed error terminal => cases hsuccess
  | succeeded text status terminal validated =>
    refine ⟨status, terminal, validated, ?_⟩
    have htext : (buildEnvelope patterns text status (some terminal)).lastMessage = text :=
      buildEnvelope_faithful htruncated hredacted
    rw [Outcome.envelope, htext]

/-- The row a settle leaves is sound exactly when an unabridged success found its own
fingerprint. -/
theorem rowSound_settled {c : Call} {o : Outcome} {row : StepRow}
    (haccepts : c.accepts o = true) (hstate : row.state = o.state)
    (hresult : row.resultJson = some (serialiseEnvelope (o.envelope cfg.patterns))) :
    RowSound cfg c.key row (some { c with live := false, outcome := some o }) ↔
      (o.isSuccess = true → (o.envelope cfg.patterns).truncated = false →
        (o.envelope cfg.patterns).redacted = false → ∀ fingerprint,
        row.callFingerprint = some fingerprint → schemeOf (some fingerprint) = .v2 →
        c.fingerprint = fingerprint) := by
  obtain ⟨hnotRunning, hnotAuthorised⟩ := Outcome.state_settled (o := o)
  have hskip : row.state ≠ .replayAuthorized := by
    rw [hstate]
    intro h
    rw [h] at hnotAuthorised
    cases hnotAuthorised
  constructor
  · intro hsound hsuccess htruncated hredacted fingerprint hstored hscheme
    have hreplays : Replays cfg.reader row fingerprint none (o.envelope cfg.patterns) := by
      refine ⟨?_, by rw [hstate]; exact hnotRunning, by rw [hresult, parseEnvelope_serialise],
        by rw [hstored]; exact hscheme, hstored, .inr ⟨by simp, ?_, htruncated, hredacted⟩⟩
      · rw [hstate]
        intro h
        rw [h] at hnotAuthorised
        cases hnotAuthorised
      · rw [hstate, ne_eq, Outcome.state_eq_failed_iff, hsuccess]
        simp
    obtain ⟨c', o', hc', -, -, hfingerprint, -⟩ := hsound fingerprint none _ hreplays
    cases hc'
    exact hfingerprint
  · intro hfits fingerprint policy e hreplays
    have he : e = o.envelope cfg.patterns := by
      have hstored := hreplays.stored
      rw [hresult, parseEnvelope_serialise] at hstored
      exact (Option.some.inj hstored).symm
    subst he
    obtain hauth | ⟨-, hnotFailed, htruncated, hredacted⟩ := hreplays.whole
    · exact absurd hauth hskip
    · have hsuccess : o.isSuccess = true := by
        rw [hstate, ne_eq, Outcome.state_eq_failed_iff, Bool.not_eq_false] at hnotFailed
        exact hnotFailed
      have hdispatched : c.dispatched = true := by
        rw [Call.accepts, hsuccess, Bool.and_eq_true] at haccepts
        simpa using haccepts.2
      have hscheme : schemeOf (some fingerprint) = .v2 := by
        rw [← hreplays.same]
        exact hreplays.current
      exact ⟨_, o, rfl, rfl, hdispatched,
        hfits hsuccess htruncated hredacted fingerprint hreplays.same hscheme, rfl, rfl,
        .inr (Outcome.returned_of_whole hsuccess htruncated hredacted)⟩

/-- A row a skip is granted on is sound exactly when its result was settled under its stored
fingerprint. -/
theorem rowSound_granted (hs : Sourced cfg s) {k : StepKey} {row : StepRow}
    (hget : s.journal.get k = some row) :
    RowSound cfg k { row with state := .replayAuthorized } (s.source k) ↔
      ∀ fingerprint, row.callFingerprint = some fingerprint →
        schemeOf (some fingerprint) = .v2 → row.resultJson.isSome →
        ∃ c, s.source k = some c ∧ c.dispatched = true ∧ c.fingerprint = fingerprint := by
  constructor
  · intro hsound fingerprint hstored hscheme hsome
    have hresult := hs.stored k
    rw [hget, Option.bind_some] at hresult
    obtain ⟨text, htext⟩ := Option.isSome_iff_exists.mp hsome
    rw [htext] at hresult
    obtain ⟨o, -, ho⟩ := Option.map_eq_some_iff.mp hresult.symm
    have hreplays : Replays cfg.reader { row with state := .replayAuthorized } fingerprint none
        (o.envelope cfg.patterns) :=
      ⟨by simp, by simp, by rw [htext, ← ho, parseEnvelope_serialise], by rw [hstored]; exact hscheme,
        hstored, .inl rfl⟩
    obtain ⟨c, o', hc, -, hdispatched, hfingerprint, -⟩ := hsound fingerprint none _ hreplays
    exact ⟨c, hc, hdispatched, hfingerprint⟩
  · intro hfits fingerprint policy e hreplays
    have hparse : parseEnvelope cfg.reader row.resultJson = some e := hreplays.stored
    obtain ⟨c, o, hc, hkey, hout, he⟩ := hs.parse hget hparse
    have hscheme : schemeOf (some fingerprint) = .v2 := by
      rw [← hreplays.same]
      exact hreplays.current
    have hsome : row.resultJson.isSome := by
      cases hresult : row.resultJson with
      | none =>
        rw [hresult] at hparse
        cases hparse
      | some text => rfl
    obtain ⟨c', hc', hdispatched, hfingerprint⟩ := hfits fingerprint hreplays.same hscheme hsome
    rw [hc] at hc'
    cases hc'
    exact ⟨c, o, hc, hkey, hdispatched, hfingerprint, hout, he, .inl rfl⟩

/-- A row put back into a settled state is sound exactly when its whole results are those of a
success under its stored fingerprint. -/
theorem rowSound_restored (hs : Sourced cfg s) {k : StepKey} {row : StepRow} {prior : StepState}
    (hget : s.journal.get k = some row) (hprior : prior.settled = true) :
    RowSound cfg k { row with state := prior } (s.source k) ↔
      ∀ fingerprint e, row.callFingerprint = some fingerprint →
        schemeOf (some fingerprint) = .v2 → parseEnvelope cfg.reader row.resultJson = some e →
        e.truncated = false → e.redacted = false →
        ∃ c o, s.source k = some c ∧ c.dispatched = true ∧ c.fingerprint = fingerprint ∧
          c.outcome = some o ∧ o.isSuccess = true := by
  have hstate : prior ≠ .running ∧ prior ≠ .failed ∧ prior ≠ .rerunAuthorized ∧
      prior ≠ .replayAuthorized := by
    revert hprior
    cases prior <;> decide
  obtain ⟨hrunning, hfailed, hrerun, hskip⟩ := hstate
  constructor
  · intro hsound fingerprint e hstored hscheme hparse htruncated hredacted
    have hreplays : Replays cfg.reader { row with state := prior } fingerprint none e :=
      ⟨hrerun, hrunning, hparse, by rw [hstored]; exact hscheme, hstored,
        .inr ⟨by simp, hfailed, htruncated, hredacted⟩⟩
    obtain ⟨c, o, hc, -, hdispatched, hfingerprint, hout, -, hserved⟩ :=
      hsound fingerprint none e hreplays
    obtain habsurd | ⟨status, terminal, validated, rfl⟩ := hserved
    · exact absurd habsurd hskip
    · exact ⟨c, _, hc, hdispatched, hfingerprint, hout, rfl⟩
  · intro hfits fingerprint policy e hreplays
    have hparse : parseEnvelope cfg.reader row.resultJson = some e := hreplays.stored
    obtain habsurd | ⟨-, -, htruncated, hredacted⟩ := hreplays.whole
    · exact absurd habsurd hskip
    obtain ⟨c, o, hc, hkey, hout, he⟩ := hs.parse hget hparse
    have hscheme : schemeOf (some fingerprint) = .v2 := by
      rw [← hreplays.same]
      exact hreplays.current
    obtain ⟨c', o', hc', hdispatched, hfingerprint, hout', hsuccess⟩ :=
      hfits fingerprint e hreplays.same hscheme hparse htruncated hredacted
    rw [hc] at hc'
    cases hc'
    rw [hout] at hout'
    cases hout'
    subst he
    exact ⟨c, o, hc, hkey, hdispatched, hfingerprint, hout, rfl,
      .inr (Outcome.returned_of_whole hsuccess htruncated hredacted)⟩

/-! ## One write -/

section

variable {w : RowWrite}

theorem Wrote.get (h : Wrote cfg s s' (some w)) (k : StepKey) :
    s'.journal.get k = (w.apply cfg s.journal).get k := by
  rw [h.journal]
  rfl

theorem Wrote.source_of_not_settles (h : Wrote cfg s s' (some w)) (hs : Sourced cfg s)
    (hnot : w.settles = none) (k : StepKey) : s'.source k = s.source k := by
  rw [h.source hs, Option.bind_some, hnot]

theorem Wrote.sound_begin {c : Call} {now : String}
    (h : Wrote cfg s s' (some (.begin c now))) (hs : Sourced cfg s) (hsound : ReplaySound cfg s) :
    ReplaySound cfg s' := by
  rw [replaySound_iff_rows] at hsound ⊢
  intro k row hget
  rw [h.get, RowWrite.apply, get_beginStep] at hget
  rw [h.source_of_not_settles hs rfl]
  split at hget
  · refine rowSound_of_pending (.inl ?_)
    cases hold : s.journal.get k with
    | _ =>
      rw [hold] at hget
      cases hget
      rfl
  · exact hsound k row hget

theorem Wrote.sound_settle_iff {i : Nat} {c : Call} {o : Outcome} {outputJson : Option String}
    {now : String} (h : Wrote cfg s s' (some (.settle i c o outputJson now)))
    (hs : Sourced cfg s) (hsound : ReplaySound cfg s) :
    ReplaySound cfg s' ↔ (RowWrite.settle i c o outputJson now).Fits cfg s := by
  have haccepts : c.accepts o = true := (h.settled i c o rfl).2.1
  have hsource : ∀ k, s'.source k =
      if k = c.key then some { c with live := false, outcome := some o } else s.source k :=
    fun k => h.source hs k
  have hgetS : ∀ k, s'.journal.get k = if k = c.key then
      some (((s.journal.get k).map (settlePatch now (o.columns cfg.patterns outputJson)).apply).getD
        ⟨c.runId, c.stepId, o.state, 1, outputJson, (o.columns cfg.patterns outputJson).error, now,
          none, some (serialiseEnvelope (o.envelope cfg.patterns))⟩)
      else s.journal.get k := by
    intro k
    rw [h.get, RowWrite.apply, get_settleStep]
    rfl
  rw [replaySound_iff_rows] at hsound ⊢
  constructor
  · intro hsound' hsuccess htruncated hredacted row fingerprint hget hstored hscheme
    have hnew := hsound' c.key _ (by rw [hgetS, if_pos rfl, hget, Option.map_some,
      Option.getD_some])
    rw [hsource, if_pos rfl] at hnew
    exact (rowSound_settled haccepts rfl rfl).mp hnew hsuccess htruncated hredacted fingerprint
      hstored hscheme
  · intro hfits k row hget
    rw [hgetS] at hget
    rw [hsource]
    split at hget
    · next hk =>
      subst hk
      rw [if_pos rfl]
      cases hold : s.journal.get c.key with
      | none =>
        rw [hold] at hget
        cases hget
        refine (rowSound_settled haccepts rfl rfl).mpr ?_
        intro _ _ _ fingerprint hstored
        cases hstored
      | some r =>
        rw [hold] at hget
        cases hget
        refine (rowSound_settled haccepts rfl rfl).mpr ?_
        intro hsuccess htruncated hredacted fingerprint hstored hscheme
        exact hfits hsuccess htruncated hredacted r fingerprint hold hstored hscheme
    · next hk =>
      rw [if_neg hk]
      exact hsound k row hget

theorem Wrote.sound_grant_iff {runId : String} {resolved : Mapping Resolution}
    (h : Wrote cfg s s' (some (.grant runId resolved))) (hs : Sourced cfg s)
    (hsound : ReplaySound cfg s) :
    ReplaySound cfg s' ↔ (RowWrite.grant runId resolved).Fits cfg s := by
  rw [replaySound_iff_rows] at hsound ⊢
  constructor
  · intro hsound' step d row fingerprint hfind hskip hget hstored hscheme hsome
    have hnew := hsound' (runId, step) { row with state := .replayAuthorized } (by
      rw [h.get, RowWrite.apply, get_writeDecisions, hget, Option.map_some, if_pos rfl, hfind]
      dsimp only
      rw [hskip]
      rfl)
    rw [h.source_of_not_settles hs rfl] at hnew
    exact (rowSound_granted hs hget).mp hnew fingerprint hstored hscheme hsome
  · intro hfits k row hget
    rw [h.get, RowWrite.apply, get_writeDecisions] at hget
    rw [h.source_of_not_settles hs rfl]
    obtain ⟨r, hold, hrow⟩ := Option.map_eq_some_iff.mp hget
    split at hrow
    · next d hfind =>
      subst hrow
      cases hdecision : d.decision with
      | rerun => exact rowSound_of_pending (.inr rfl)
      | skip =>
        split at hfind
        · next hrun =>
          refine (rowSound_granted hs hold).mpr ?_
          obtain ⟨run, step⟩ := k
          subst hrun
          intro fingerprint hstored hscheme hsome
          exact hfits step d r fingerprint hfind hdecision hold hstored hscheme hsome
        · cases hfind
    · subst hrow
      exact hsound k r hold

theorem Wrote.sound_revoke_iff {runId : String} {granted : Mapping StepState}
    (h : Wrote cfg s s' (some (.revoke runId granted))) (hs : Sourced cfg s)
    (hsound : ReplaySound cfg s) :
    ReplaySound cfg s' ↔ (RowWrite.revoke runId granted).Fits cfg s := by
  rw [replaySound_iff_rows] at hsound ⊢
  constructor
  · intro hsound' step prior row fingerprint e hfind hget hauth hprior
    have hunauthorised : prior.authorised = false := by
      revert hprior
      cases prior <;> decide
    have hnew := hsound' (runId, step) { row with state := prior } (by
      rw [h.get, RowWrite.apply, get_revokeUnconsumedDecisions, hget, Option.map_some, if_pos rfl,
        hfind]
      simp [hauth, hunauthorised])
    rw [h.source_of_not_settles hs rfl] at hnew
    exact (rowSound_restored hs hget hprior).mp hnew fingerprint e
  · intro hfits k row hget
    rw [h.get, RowWrite.apply, get_revokeUnconsumedDecisions] at hget
    rw [h.source_of_not_settles hs rfl]
    obtain ⟨r, hold, hrow⟩ := Option.map_eq_some_iff.mp hget
    split at hrow
    · next prior hfind =>
      split at hrow
      · next hrevoked =>
        subst hrow
        rw [Bool.and_eq_true, Bool.not_eq_true'] at hrevoked
        split at hfind
        · next hrun =>
          obtain ⟨run, step⟩ := k
          subst hrun
          by_cases hprior : prior.settled = true
          · refine (rowSound_restored hs hold hprior).mpr ?_
            intro fingerprint e
            exact hfits step prior r fingerprint e hfind hold hrevoked.2 hprior
          · -- a running or failed row replays nothing
            intro fingerprint policy e hreplays
            have hstate : prior = .running ∨ prior = .failed := by
              revert hprior hrevoked
              cases prior <;> simp [StepState.settled, StepState.authorised, decisionStates]
            obtain rfl | rfl := hstate
            · exact absurd rfl hreplays.notRunning
            · obtain habsurd | ⟨-, habsurd, -⟩ := hreplays.whole
              · cases habsurd
              · exact absurd rfl habsurd
        · cases hfind
      · subst hrow
        exact hsound k r hold
    · subst hrow
      exact hsound k r hold

end

/-- A step keeps every replay sound exactly when what it writes fits. -/
theorem replaySound_exec_iff (hs : Sourced cfg s) (hsound : ReplaySound cfg s) (e : Event) :
    ReplaySound cfg (s.exec cfg e) ↔ StepFits cfg s e := by
  have h := s.exec_wrote cfg e
  cases hw : s.write e with
  | none =>
    rw [hw] at h
    have hkept : ReplaySound cfg (s.exec cfg e) := by
      rw [replaySound_iff_rows] at hsound ⊢
      intro k row hget
      rw [h.journal] at hget
      rw [h.source hs]
      exact hsound k row hget
    refine iff_of_true hkept ?_
    intro w hsome
    rw [hw] at hsome
    cases hsome
  | some w =>
    rw [hw] at h
    have hfits : StepFits cfg s e ↔ w.Fits cfg s := by
      constructor
      · intro hfits
        exact hfits w hw
      · intro hfit x hx
        rw [hw] at hx
        cases hx
        exact hfit
    rw [hfits]
    cases w with
    | begin c now => exact iff_of_true (h.sound_begin hs hsound) trivial
    | settle i c o outputJson now => exact h.sound_settle_iff hs hsound
    | grant runId resolved => exact h.sound_grant_iff hs hsound
    | revoke runId granted => exact h.sound_revoke_iff hs hsound

/-- No replay of an empty journal. -/
theorem replaySound_init : ReplaySound cfg {} := by
  rw [replaySound_iff_rows]
  intro k row hget
  cases hget

/-- Over a whole history: every replay the gate would answer in any state of it is sound exactly
when every write of it fits the row it finds. -/
theorem replaySound_iff (cfg : Settings) (history : List Event) :
    (∀ before after, history = before ++ after →
      ReplaySound cfg (run (Service.exec cfg) {} before)) ↔
      StepsSatisfy (Service.exec cfg) (StepFits cfg) {} history := by
  refine forall_states_iff (StepFits cfg) (Sourced cfg) (ReplaySound cfg) ?_ ?_ {} sourced_init
    replaySound_init history
  · intro s e hs
    exact hs.exec e
  · intro s e hs hsound
    exact replaySound_exec_iff hs hsound e

/-! ## Four histories -/

/-- Two calls overlap: the later begin names its own fingerprint, the earlier settle stores its
own result. -/
def overlappingCalls : List Event :=
  [.arrive "r" "s" "v2:a" none false, .arrive "r" "s" "v2:b" none false,
    .ready 0 "t1" true, .ready 1 "t2" true, .settle 0 (returns "a") none "t3" true]

/-- A rerun whose begin was lost settles over the fingerprint of the call before it. -/
def lostBegin : List Event :=
  [.arrive "r" "s" "v2:a" none false, .ready 0 "t1" true, .settle 0 (returns "a") none "t2" true] ++
  resumeWith "s" "rerun" ++
  [.arrive "r" "s" "v2:b" none false, .ready 1 "t3" false, .settle 1 (returns "b") none "t4" true]

/-- A rerun begins, the process ends, and the skip that follows serves the older result under
the newer fingerprint. -/
def skipAfterCrash : List Event :=
  [.arrive "r" "s" "v2:a" none false, .ready 0 "t1" true, .settle 0 (returns "a") none "t2" true] ++
  resumeWith "s" "rerun" ++ [.arrive "r" "s" "v2:b" none false, .ready 1 "t3" true, .crash] ++
  resumeWith "s" "skip"

/-- A failure lands between the read and the transaction of a decision, and the revoke puts the
older success back over it. -/
def staleRevoke : List Event :=
  [.arrive "r" "s" "v2:a" none false, .arrive "r" "s" "v2:a" none false, .ready 0 "t1" true,
    .ready 1 "t2" true, .settle 0 (returns "a") none "t3" true,
    .resume "r" (decided "s" "rerun"), .consent "r", .readDecisions "r",
    .settle 1 (.failed "e" none) none "t4" true, .writeDecisions "r", .finish "r" true]

/-- The envelope the gate replays, if it replays one. -/
def replayed (cfg : Settings) (s : Service) (runId stepId fingerprint : String) :
    Option StepResultEnvelope :=
  (decideRow cfg.reader ("run '" ++ runId ++ "' step '" ++ stepId ++ "'")
    (getStep s.journal runId stepId) fingerprint none).envelope

/-- What a sound replay of an undeclared step comes from. -/
theorem ReplaySound.replayed {runId stepId fingerprint : String} {e : StepResultEnvelope}
    (h : ReplaySound cfg s) (hscheme : schemeOf (some fingerprint) = .v2)
    (he : replayed cfg s runId stepId fingerprint = some e) :
    ∃ row c o, getStep s.journal runId stepId = some row ∧ s.source (runId, stepId) = some c ∧
      c.fingerprint = fingerprint ∧ c.outcome = some o ∧
      (row.state = .replayAuthorized ∨ o.Returned e.lastMessage) := by
  have hverdict := (decideRow_fields cfg.reader ("run '" ++ runId ++ "' step '" ++ stepId ++ "'")
    (getStep s.journal runId stepId) fingerprint none).1.mp
    (Option.isSome_iff_exists.mpr ⟨e, he⟩)
  obtain ⟨row, c, o, hrow, hc, -, -, hfingerprint, hout, -, hserved⟩ :=
    h runId stepId fingerprint none _ e
      (by unfold StepReplay.decide; rw [if_neg (not_not.mpr hscheme)]) hverdict he
  exact ⟨row, c, o, hrow, hc, hfingerprint, hout, hserved⟩

/-- The fingerprint and the result of a row do not always stem from one dispatch: the gate
replays the result of another call, or that of a failed one. -/
theorem not_replaySound_mixed :
    ¬ ReplaySound plainSettings (run (Service.exec plainSettings) {} overlappingCalls) ∧
      ¬ ReplaySound plainSettings (run (Service.exec plainSettings) {} lostBegin) ∧
      ¬ ReplaySound plainSettings (run (Service.exec plainSettings) {} skipAfterCrash) ∧
      ¬ ReplaySound plainSettings (run (Service.exec plainSettings) {} staleRevoke) := by
  -- each history ends in a row that replays `text` for `fingerprint` out of the call `c`
  have hother : ∀ (history : List Event) (fingerprint text : String) (c : Call),
      schemeOf (some fingerprint) = .v2 →
      replayed plainSettings (run (Service.exec plainSettings) {} history) "r" "s" fingerprint =
        some ⟨text, "completed", some "terminal", false, false⟩ →
      (run (Service.exec plainSettings) {} history).source ("r", "s") = some c →
      c.fingerprint ≠ fingerprint →
      ¬ ReplaySound plainSettings (run (Service.exec plainSettings) {} history) := by
    intro history fingerprint text c hscheme hreplayed hsource hne hsound
    obtain ⟨row, c', o, -, hc', hfingerprint, -⟩ := hsound.replayed hscheme hreplayed
    rw [hsource] at hc'
    cases hc'
    exact hne hfingerprint
  refine ⟨?_, ?_, ?_, ?_⟩
  · exact hother overlappingCalls "v2:b" "a" ⟨"r", "s", "v2:a", true, true, false, some (returns "a")⟩
      (by decide +kernel) (by decide +kernel) (by decide +kernel) (by decide)
  · exact hother lostBegin "v2:a" "b" ⟨"r", "s", "v2:b", true, true, false, some (returns "b")⟩
      (by decide +kernel) (by decide +kernel) (by decide +kernel) (by decide)
  · exact hother skipAfterCrash "v2:b" "a" ⟨"r", "s", "v2:a", true, true, false, some (returns "a")⟩
      (by decide +kernel) (by decide +kernel) (by decide +kernel) (by decide)
  · intro hsound
    have hreplayed : replayed plainSettings (run (Service.exec plainSettings) {} staleRevoke) "r" "s"
        "v2:a" = some ⟨"", "failed", none, false, false⟩ := by decide +kernel
    have hsource : (run (Service.exec plainSettings) {} staleRevoke).source ("r", "s") =
        some ⟨"r", "s", "v2:a", true, true, false, some (.failed "e" none)⟩ := by decide +kernel
    have hstate : (getStep (run (Service.exec plainSettings) {} staleRevoke).journal "r" "s").map
        StepRow.state = some .completed := by decide +kernel
    obtain ⟨row, c, o, hrow, hc, -, hout, hserved⟩ :=
      hsound.replayed (by decide +kernel) hreplayed
    rw [hsource] at hc
    cases hc
    cases hout
    rw [hrow, Option.map_some] at hstate
    obtain hskip | ⟨status, terminal, validated, hreturned⟩ := hserved
    · rw [hskip] at hstate
      cases hstate
    · cases hreturned

end CliAgentOrchestrator.Workflow
