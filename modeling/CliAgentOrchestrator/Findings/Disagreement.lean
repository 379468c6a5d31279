import CliAgentOrchestrator.Findings.Store
import CliAgentOrchestrator.Library.Dict
import CliAgentOrchestrator.Truth.Projector

/-!
# Standing disagreements

`app/worker_truth/checks.py`: a muted event that asserts another state than the one projected opens
an episode, and the episode is put on record once. What the check remembers of it is the map
`openEpisodes`, which is written before the record is attempted and not looked at again when a
finding is resolved; so an episode is on record as long as the first attempt went through and nobody
resolved its finding (`standing_on_record_iff`).
-/

set_option autoImplicit false

namespace CliAgentOrchestrator.Findings

open CliAgentOrchestrator.Core Library Truth

/-! ## The check -/

/-- SOURCE: app/worker_truth/checks.py:480-491 -/
def assertedState (event : WorkerEvent) : Option WorkerState :=
  match event.kind with
  | .event .statusLegacyPublished => (event.payload.str "latched_status").bind legacyState
  | .event kind => impliedState kind
  | .decision _ => none

/-- The check beside the store it writes to; `openEpisodes` is the `_open` of the source. -/
structure DisagreementCheck where
  store : FindingStore
  openEpisodes : Dict String (String × String)

/-- The finding of a projected and an asserted state. -/
def disagreementKey (terminalId projected asserted : String) : FindingKey :=
  ⟨.diagProducerDisagree, terminalId, projected ++ "|" ++ asserted⟩

def disagreementDetail (event : WorkerEvent) (projected asserted : WorkerState) : String :=
  "projected " ++ projected.value ++ " from the authoritative source while " ++ event.producer.value
    ++ " asserted " ++ asserted.value ++ " (" ++ event.kind.value ++ ", muted)"

namespace DisagreementCheck

/-- SOURCE: app/worker_truth/checks.py:411-418 -/
def forget (c : DisagreementCheck) (terminalId : String) : DisagreementCheck :=
  { c with openEpisodes := c.openEpisodes.pop terminalId }

/-- The record of an episode, with what it raises caught: whether it went through, and the store it
leaves. `writeFails` is a record that raises for a reason of its own (a locked database). -/
def attempt (store : FindingStore) (event : WorkerEvent) (projected asserted : WorkerState)
    (writeFails : Bool) (now : Int) (newUlid : String) : Bool × FindingStore :=
  if writeFails then (false, store)
  else
    match store.record (disagreementKey event.terminalId projected.value asserted.value)
        (disagreementDetail event projected asserted) (some event.eventId) now newUlid with
    | .ok (_, store) => (true, store)
    | .error _ => (false, store)

/-- SOURCE: app/worker_truth/checks.py:420-477
(`__call__`, `_evaluate`) -/
def evaluate (c : DisagreementCheck) (event : WorkerEvent) (row : ProjectedState)
    (writeFails : Bool) (now : Int) (newUlid : String) : Bool × DisagreementCheck :=
  if event.confidence = .derived then
    match assertedState event with
    | none => (false, c)
    | some asserted =>
      if asserted = row.state then
        (false, { c with openEpisodes := c.openEpisodes.pop event.terminalId })
      else
        let episode := (row.state.value, asserted.value)
        if c.openEpisodes.find event.terminalId = some episode then (false, c)
        else
          let (recorded, store) := attempt c.store event row.state asserted writeFails now newUlid
          (recorded, ⟨store, c.openEpisodes.assign event.terminalId episode⟩)
  else (false, c)

end DisagreementCheck

/-! ## Runs -/

/-- A disagreement that stands: the two states, and when it began. -/
structure Episode where
  projected : WorkerState
  asserted : WorkerState
  began : Nat
deriving DecidableEq

def Episode.pair (e : Episode) : String × String := (e.projected.value, e.asserted.value)

def Episode.key (e : Episode) (terminalId : String) : FindingKey :=
  disagreementKey terminalId e.projected.value e.asserted.value

/-- Beside the check: what the last state-asserting muted event of each terminal left standing, and
when each key was last recorded, both in steps of the run. -/
structure Watch where
  check : DisagreementCheck
  standing : String → Option Episode
  recordedAt : FindingKey → Option Nat
  tick : Nat

def Watch.start : Watch := ⟨⟨.empty, .empty⟩, fun _ => none, fun _ => none, 0⟩

inductive WatchEvent
  | evaluate (event : WorkerEvent) (row : ProjectedState) (writeFails : Bool) (now : Int)
      (newUlid : String)
  | forget (terminalId : String)
  | recordOther (key : FindingKey) (detail : String) (sampleEventId : Option String) (now : Int)
      (newUlid : String)
  | resolve (findingId : String)

/-- What stands of a terminal once a muted event of it has been compared with its row. -/
def nextStanding (tick : Nat) (event : WorkerEvent) (row : ProjectedState)
    (standing : Option Episode) : Option Episode :=
  if event.confidence = .derived then
    match assertedState event with
    | none => standing
    | some asserted =>
      if asserted = row.state then none
      else
        match standing with
        | some e =>
          if e.projected = row.state ∧ e.asserted = asserted then some e
          else some ⟨row.state, asserted, tick⟩
        | none => some ⟨row.state, asserted, tick⟩
  else standing

/-- The finding a muted event is about, where it contradicts the row. -/
def claimedKey (event : WorkerEvent) (row : ProjectedState) : FindingKey :=
  disagreementKey event.terminalId row.state.value
    ((assertedState event).elim "" WorkerState.value)

/-- Other checks record into the same table, and findings are resolved by hand. -/
def watchExec (w : Watch) : WatchEvent → Watch
  | .evaluate event row writeFails now newUlid =>
    let (recorded, check) := w.check.evaluate event row writeFails now newUlid
    { check := check
      standing := Function.update w.standing event.terminalId
        (nextStanding w.tick event row (w.standing event.terminalId))
      recordedAt :=
        if recorded then Function.update w.recordedAt (claimedKey event row) (some w.tick)
        else w.recordedAt
      tick := w.tick + 1 }
  | .forget terminalId =>
    { w with
      check := w.check.forget terminalId
      standing := Function.update w.standing terminalId none
      tick := w.tick + 1 }
  | .recordOther key detail sampleEventId now newUlid =>
    match w.check.store.record key detail sampleEventId now newUlid with
    | .ok (_, store) =>
      { w with
        check := { w.check with store := store }
        recordedAt := Function.update w.recordedAt key (some w.tick)
        tick := w.tick + 1 }
    | .error _ => { w with tick := w.tick + 1 }
  | .resolve findingId =>
    match w.check.store.resolve findingId with
    | .ok (_, store) => { w with check := { w.check with store := store }, tick := w.tick + 1 }
    | .error _ => { w with tick := w.tick + 1 }

/-- The key has an OPEN row, recorded at that step of the run or later. -/
def OnRecord (w : Watch) (key : FindingKey) (began : Nat) : Prop :=
  w.check.store.HasOpen key ∧ ∃ at', w.recordedAt key = some at' ∧ began ≤ at'

/-- Each disagreement that stands is on record. -/
def StandingOnRecord (w : Watch) : Prop :=
  ∀ terminalId e, w.standing terminalId = some e → OnRecord w (e.key terminalId) e.began

/-- The event contradicts the row, and not in the way that stands already. -/
def Begins (w : Watch) (event : WorkerEvent) (row : ProjectedState) : Prop :=
  event.confidence = .derived ∧ ∃ asserted ∈ assertedState event, asserted ≠ row.state
    ∧ ∀ e ∈ w.standing event.terminalId, ¬(e.projected = row.state ∧ e.asserted = asserted)

instance (w : Watch) (event : WorkerEvent) (row : ProjectedState) : Decidable (Begins w event row) :=
  inferInstanceAs (Decidable (_ ∧ _))

/-- Where an episode begins, its record goes through; and the finding of one that stands is not
resolved, unless the resolve is refused. -/
def Undisturbed (w : Watch) : WatchEvent → Prop
  | .evaluate event row writeFails _ newUlid => Begins w event row → writeFails = false
      ∧ (w.check.store.HasOpen (claimedKey event row)
        ∨ ∀ r ∈ w.check.store.finding.rows, r.findingId ≠ newUlid)
  | .resolve findingId => ∀ r ∈ w.check.store.openFinding findingId,
      (∃ x ∈ w.check.store.finding.rows, x.slot = (r.key, .resolved))
        ∨ ∀ e ∈ w.standing r.terminalId, r.key ≠ e.key r.terminalId
  | .forget _ => True
  | .recordOther .. => True

instance (w : Watch) : ∀ event, Decidable (Undisturbed w event)
  | .evaluate event row writeFails _ newUlid => inferInstanceAs (Decidable
      (Begins w event row → writeFails = false ∧ (w.check.store.HasOpen (claimedKey event row)
        ∨ ∀ r ∈ w.check.store.finding.rows, r.findingId ≠ newUlid)))
  | .resolve findingId => inferInstanceAs (Decidable
      (∀ r ∈ w.check.store.openFinding findingId,
        (∃ x ∈ w.check.store.finding.rows, x.slot = (r.key, .resolved))
          ∨ ∀ e ∈ w.standing r.terminalId, r.key ≠ e.key r.terminalId))
  | .forget _ => inferInstanceAs (Decidable True)
  | .recordOther .. => inferInstanceAs (Decidable True)

/-! ## What the map remembers -/

/-- The map holds the pairs that stand, and what is on record was recorded by now. -/
structure Tracks (w : Watch) : Prop where
  episodes : ∀ terminalId,
    w.check.openEpisodes.find terminalId = (w.standing terminalId).map Episode.pair
  past : ∀ key at', w.recordedAt key = some at' → at' < w.tick

theorem tracks_start : Tracks .start where
  episodes _ := rfl
  past _ _ h := nomatch h

theorem Episode.pair_eq_iff (e : Episode) (projected asserted : WorkerState) :
    e.pair = (projected.value, asserted.value) ↔ e.projected = projected ∧ e.asserted = asserted := by
  constructor
  · intro h
    obtain ⟨hprojected, hasserted⟩ := Prod.mk.inj h
    exact ⟨WorkerState.value_injective hprojected, WorkerState.value_injective hasserted⟩
  · rintro ⟨rfl, rfl⟩
    rfl

section Evaluate

variable {w : Watch} (event : WorkerEvent) (row : ProjectedState) (writeFails : Bool) (now : Int)
  (newUlid : String)

/-- Where no episode begins, the store is left alone, and what stood ends at most. -/
theorem evaluate_of_not_begins (h : Tracks w) (hno : ¬Begins w event row) :
    (w.check.evaluate event row writeFails now newUlid).1 = false
      ∧ (w.check.evaluate event row writeFails now newUlid).2.store = w.check.store
      ∧ (w.check.evaluate event row writeFails now newUlid).2.openEpisodes.find event.terminalId
        = (nextStanding w.tick event row (w.standing event.terminalId)).map Episode.pair
      ∧ (nextStanding w.tick event row (w.standing event.terminalId) = none
        ∨ nextStanding w.tick event row (w.standing event.terminalId)
          = w.standing event.terminalId) := by
  have hfind := h.episodes event.terminalId
  unfold DisagreementCheck.evaluate nextStanding
  by_cases hderived : event.confidence = .derived
  · rw [if_pos hderived, if_pos hderived]
    cases hasserted : assertedState event with
    | none => exact ⟨rfl, rfl, hfind, .inr rfl⟩
    | some asserted =>
      by_cases hagrees : asserted = row.state
      · simp only [if_pos hagrees, Dict.find_pop, if_true]
        exact ⟨trivial, trivial, rfl, .inl trivial⟩
      · -- an episode of these two states stands already
        have hstands : ∃ e, w.standing event.terminalId = some e
            ∧ e.projected = row.state ∧ e.asserted = asserted := by
          by_contra hnone
          refine hno ⟨hderived, asserted, hasserted, hagrees, fun e he hsame => hnone ⟨e, he, hsame⟩⟩
        obtain ⟨e, he, hsame⟩ := hstands
        rw [he] at hfind
        have hopen : w.check.openEpisodes.find event.terminalId
            = some (row.state.value, asserted.value) := by
          rw [hfind, Option.map_some, (e.pair_eq_iff row.state asserted).mpr hsame]
        simp only [if_neg hagrees, he, if_pos hsame, if_pos hopen]
        exact ⟨trivial, trivial, hfind, .inr trivial⟩
  · rw [if_neg hderived, if_neg hderived]
    exact ⟨rfl, rfl, hfind, .inr rfl⟩

/-- Where one begins, it stands from now on, whether or not its record goes through. -/
theorem evaluate_of_begins (h : Tracks w) (hbegins : Begins w event row) :
    ∃ asserted, assertedState event = some asserted
      ∧ nextStanding w.tick event row (w.standing event.terminalId)
        = some ⟨row.state, asserted, w.tick⟩
      ∧ w.check.evaluate event row writeFails now newUlid
        = ((DisagreementCheck.attempt w.check.store event row.state asserted writeFails now
              newUlid).1,
          ⟨(DisagreementCheck.attempt w.check.store event row.state asserted writeFails now
              newUlid).2,
            w.check.openEpisodes.assign event.terminalId (row.state.value, asserted.value)⟩) := by
  obtain ⟨hderived, asserted, hasserted, hcontra, hnew⟩ := hbegins
  have hfind := h.episodes event.terminalId
  have hother : w.check.openEpisodes.find event.terminalId
      ≠ some (row.state.value, asserted.value) := by
    intro hopen
    rw [hfind, Option.map_eq_some_iff] at hopen
    obtain ⟨e, he, hpair⟩ := hopen
    exact hnew e he ((e.pair_eq_iff row.state asserted).mp hpair)
  refine ⟨asserted, hasserted, ?_, ?_⟩
  · unfold nextStanding
    rw [if_pos hderived, hasserted]
    simp only [if_neg hcontra]
    cases hstanding : w.standing event.terminalId with
    | none => rfl
    | some e => simp only [if_neg (hnew e hstanding)]
  · unfold DisagreementCheck.evaluate
    rw [if_pos hderived, hasserted]
    simp only [if_neg hcontra, if_neg hother]

/-- An attempt that goes through leaves the key with an OPEN row; another one changes nothing. -/
theorem attempt_cases (store : FindingStore) (projected asserted : WorkerState) :
    ((DisagreementCheck.attempt store event projected asserted writeFails now newUlid).1 = true
        ∧ (writeFails = false
          ∧ (store.HasOpen (disagreementKey event.terminalId projected.value asserted.value)
            ∨ ∀ r ∈ store.finding.rows, r.findingId ≠ newUlid))
        ∧ ∀ key,
          (DisagreementCheck.attempt store event projected asserted writeFails now newUlid).2.HasOpen
              key
            ↔ key = disagreementKey event.terminalId projected.value asserted.value
              ∨ store.HasOpen key)
      ∨ ((DisagreementCheck.attempt store event projected asserted writeFails now newUlid).1 = false
        ∧ ¬(writeFails = false
          ∧ (store.HasOpen (disagreementKey event.terminalId projected.value asserted.value)
            ∨ ∀ r ∈ store.finding.rows, r.findingId ≠ newUlid))
        ∧ (DisagreementCheck.attempt store event projected asserted writeFails now newUlid).2
          = store) := by
  unfold DisagreementCheck.attempt
  cases writeFails with
  | true => exact .inr ⟨rfl, by simp, rfl⟩
  | false =>
    simp only [Bool.false_eq_true, if_false, true_and]
    cases hrecord : store.record (disagreementKey event.terminalId projected.value asserted.value)
        (disagreementDetail event projected asserted) (some event.eventId) now newUlid with
    | ok done =>
      refine .inl ⟨rfl, ?_, fun key => ?_⟩
      · exact FindingStore.record_isOk_iff.mp ⟨done.1, done.2, hrecord⟩
      · exact FindingStore.hasOpen_record hrecord key
    | error e =>
      refine .inr ⟨rfl, fun hok => ?_, rfl⟩
      obtain ⟨row, s', hok⟩ := FindingStore.record_isOk_iff.mpr hok
      rw [hrecord] at hok
      cases hok

theorem find_evaluate_of_ne {terminalId : String} (hne : terminalId ≠ event.terminalId) :
    (w.check.evaluate event row writeFails now newUlid).2.openEpisodes.find terminalId
      = w.check.openEpisodes.find terminalId := by
  unfold DisagreementCheck.evaluate
  by_cases hderived : event.confidence = .derived
  · rw [if_pos hderived]
    cases assertedState event with
    | none => rfl
    | some asserted =>
      simp only
      split_ifs
      · rw [Dict.find_pop, if_neg hne]
      · rfl
      · rw [Dict.find_assign, if_neg hne]
  · rw [if_neg hderived]

end Evaluate

/-- Each event of the watch keeps the accounts. -/
theorem Tracks.exec {w : Watch} (h : Tracks w) (event : WatchEvent) :
    Tracks (watchExec w event) := by
  have hpast : ∀ key at', w.recordedAt key = some at' → at' < w.tick + 1 :=
    fun key at' hat => Nat.lt_succ_of_lt (h.past key at' hat)
  have hrecord : ∀ key key' at',
      Function.update w.recordedAt key (some w.tick) key' = some at' → at' < w.tick + 1 := by
    intro key key' at' hat
    rw [Function.update_apply] at hat
    split_ifs at hat
    · rw [← Option.some.inj hat]
      exact Nat.lt_succ_self _
    · exact hpast key' at' hat
  cases event with
  | evaluate event row writeFails now newUlid =>
    refine ⟨fun terminalId => ?_, fun key at' hat => ?_⟩
    · by_cases hterminal : terminalId = event.terminalId
      · rw [hterminal]
        simp only [watchExec, Function.update_self]
        by_cases hbegins : Begins w event row
        · obtain ⟨asserted, -, hnext, heval⟩ :=
            evaluate_of_begins event row writeFails now newUlid h hbegins
          rw [heval, hnext, Dict.find_assign, if_pos rfl]
          rfl
        · exact (evaluate_of_not_begins event row writeFails now newUlid h hbegins).2.2.1
      · simp only [watchExec, Function.update_of_ne hterminal]
        rw [find_evaluate_of_ne event row writeFails now newUlid hterminal]
        exact h.episodes terminalId
    · simp only [watchExec] at hat
      split_ifs at hat
      · exact hrecord _ key at' hat
      · exact hpast key at' hat
  | forget terminalId =>
    refine ⟨fun other => ?_, hpast⟩
    simp only [watchExec, DisagreementCheck.forget, Dict.find_pop, Function.update_apply]
    split_ifs
    · rfl
    · exact h.episodes other
  | recordOther key detail sampleEventId now newUlid =>
    cases hdone : w.check.store.record key detail sampleEventId now newUlid with
    | ok done =>
      simp only [watchExec, hdone]
      exact ⟨h.episodes, hrecord key⟩
    | error e =>
      simp only [watchExec, hdone]
      exact ⟨h.episodes, hpast⟩
  | resolve findingId =>
    cases hdone : w.check.store.resolve findingId with
    | _ =>
      simp only [watchExec, hdone]
      exact ⟨h.episodes, hpast⟩

/-! ## What a step does to the record -/

/-- What is on record stays so where its key keeps an OPEN row. -/
theorem OnRecord.keep {w w' : Watch} (h : Tracks w) {key : FindingKey} {began : Nat}
    (hrecord : OnRecord w key began) (hopen : w'.check.store.HasOpen key)
    (hlater : w'.recordedAt key = w.recordedAt key ∨ w'.recordedAt key = some w.tick) :
    OnRecord w' key began := by
  obtain ⟨-, at', hat, hle⟩ := hrecord
  obtain hsame | hnow := hlater
  · exact ⟨hopen, at', hsame.trans hat, hle⟩
  · exact ⟨hopen, w.tick, hnow, hle.trans (h.past key at' hat).le⟩

/-- An episode that begins is on record exactly where its record goes through. -/
theorem onRecord_evaluate {w : Watch} (h : Tracks w) (hrecord : StandingOnRecord w)
    (event : WorkerEvent) (row : ProjectedState) (writeFails : Bool) (now : Int)
    (newUlid : String) :
    StandingOnRecord (watchExec w (.evaluate event row writeFails now newUlid)) ↔
      Undisturbed w (.evaluate event row writeFails now newUlid) := by
  by_cases hbegins : Begins w event row
  · obtain ⟨asserted, hasserted, hnext, heval⟩ :=
      evaluate_of_begins event row writeFails now newUlid h hbegins
    have hkey : claimedKey event row
        = disagreementKey event.terminalId row.state.value asserted.value := by
      rw [claimedKey, hasserted]
      rfl
    obtain ⟨hok, hcan, hopen⟩ | ⟨hfailed, hcannot, hstore⟩ :=
      attempt_cases event writeFails now newUlid w.check.store row.state asserted
    · refine ⟨fun _ _ => ?_, fun _ terminalId e he => ?_⟩
      · rw [hkey]
        exact hcan
      · simp only [watchExec, hnext, Function.update_apply] at he
        split_ifs at he with hterminal
        · cases he
          subst hterminal
          refine ⟨?_, w.tick, ?_, le_refl _⟩
          · simp only [watchExec, heval]
            exact (hopen _).mpr (.inl rfl)
          · simp only [watchExec, heval, hok, if_true, hkey]
            exact Function.update_self _ _ _
        · refine (hrecord terminalId e he).keep h ?_ ?_
          · simp only [watchExec, heval]
            exact (hopen _).mpr (.inr (hrecord terminalId e he).1)
          · simp only [watchExec, heval, hok, if_true, Function.update_apply]
            split_ifs
            · exact .inr rfl
            · exact .inl rfl
    · constructor
      · intro hall
        have hnew := hall event.terminalId ⟨row.state, asserted, w.tick⟩ (by
          simp only [watchExec, hnext]
          exact Function.update_self _ _ _)
        obtain ⟨-, at', hat, hle⟩ := hnew
        simp only [watchExec, heval, hfailed] at hat
        exact absurd (h.past _ at' hat) (Nat.not_lt.mpr hle)
      · intro hundisturbed
        have hcan := hundisturbed hbegins
        rw [hkey] at hcan
        exact absurd hcan hcannot
  · obtain ⟨hquiet, hstore, -, hnext⟩ :=
      evaluate_of_not_begins event row writeFails now newUlid h hbegins
    refine ⟨fun _ hb => absurd hb hbegins, fun _ terminalId e he => ?_⟩
    have hstands : w.standing terminalId = some e := by
      simp only [watchExec, Function.update_apply] at he
      split_ifs at he with hterminal
      · obtain hnone | hsame := hnext
        · rw [hnone] at he
          cases he
        · rw [hterminal, ← hsame, he]
      · exact he
    refine (hrecord terminalId e hstands).keep h ?_ ?_
    · simp only [watchExec, hstore]
      exact (hrecord terminalId e hstands).1
    · simp only [watchExec, hquiet]
      exact .inl rfl

/-- A resolve takes the finding of an episode away exactly where it is that one it closes. -/
theorem onRecord_resolve {w : Watch} (h : Tracks w) (hrecord : StandingOnRecord w)
    (findingId : String) :
    StandingOnRecord (watchExec w (.resolve findingId)) ↔ Undisturbed w (.resolve findingId) := by
  cases hopen : w.check.store.openFinding findingId with
  | none =>
    refine ⟨fun _ r hr => ?_, fun _ => ?_⟩
    · rw [hopen] at hr
      cases hr
    · simp only [watchExec, FindingStore.resolve_of_none hopen]
      exact hrecord
  | some r =>
    obtain ⟨hfree, s', hok, -⟩ | ⟨hused, e, herr⟩ := FindingStore.resolve_of_open hopen
    · have hkept := FindingStore.hasOpen_resolve hopen hok
      constructor
      · intro hall x hx
        rw [hopen] at hx
        cases hx
        refine .inr fun e he hkey => ?_
        have hgone := (hall r.terminalId e (by simp only [watchExec, hok]; exact he)).1
        simp only [watchExec, hok] at hgone
        exact ((hkept _).mp hgone).1 hkey.symm
      · intro hundisturbed terminalId e he
        simp only [watchExec, hok] at he
        refine (hrecord terminalId e he).keep h ?_ (.inl (by simp only [watchExec, hok]))
        simp only [watchExec, hok]
        refine (hkept _).mpr ⟨fun hkey => ?_, (hrecord terminalId e he).1⟩
        have hterminal : terminalId = r.terminalId := congrArg FindingKey.terminalId hkey
        subst hterminal
        obtain ⟨x, hx, hslot⟩ | hother := hundisturbed r hopen
        · exact hfree x hx hslot
        · exact hother e he hkey.symm
    · refine ⟨fun _ x hx => ?_, fun _ => ?_⟩
      · rw [hopen] at hx
        cases hx
        exact .inl hused
      · simp only [watchExec, herr]
        exact hrecord

theorem onRecord_exec {w : Watch} (h : Tracks w) (hrecord : StandingOnRecord w)
    (event : WatchEvent) : StandingOnRecord (watchExec w event) ↔ Undisturbed w event := by
  cases event with
  | evaluate event row writeFails now newUlid =>
    exact onRecord_evaluate h hrecord event row writeFails now newUlid
  | forget terminalId =>
    refine iff_of_true (fun other e he => ?_) trivial
    simp only [watchExec, Function.update_apply] at he
    split_ifs at he
    exact hrecord other e he
  | recordOther key detail sampleEventId now newUlid =>
    refine iff_of_true (fun other e he => ?_) trivial
    cases hdone : w.check.store.record key detail sampleEventId now newUlid with
    | ok done =>
      simp only [watchExec, hdone] at he
      refine (hrecord other e he).keep h ?_ ?_
      · simp only [watchExec, hdone]
        exact (FindingStore.hasOpen_record hdone _).mpr (.inr (hrecord other e he).1)
      · simp only [watchExec, hdone, Function.update_apply]
        split_ifs
        · exact .inr rfl
        · exact .inl rfl
    | error e' =>
      simp only [watchExec, hdone] at he
      refine (hrecord other e he).keep h ?_ (.inl (by simp only [watchExec, hdone]))
      simp only [watchExec, hdone]
      exact (hrecord other e he).1
  | resolve findingId => exact onRecord_resolve h hrecord findingId

/-! ## Every run -/

/-- Whenever a disagreement stands it is on record, in exactly the runs in which the record of each
episode goes through where the episode begins and no finding of a standing episode is resolved. -/
theorem standing_on_record_iff (events : List WatchEvent) :
    (∀ before after, events = before ++ after → StandingOnRecord (run watchExec .start before)) ↔
      StepsSatisfy watchExec Undisturbed .start events :=
  forall_states_iff Undisturbed Tracks StandingOnRecord (fun _ event h => h.exec event)
    (fun _ event h hrecord => onRecord_exec h hrecord event) .start tracks_start
    (fun _ _ he => nomatch he) events

/-- The screen of a terminal reads as busy while its own source says idle. -/
def busyScreen : WorkerEvent where
  terminalId := "t1"
  kind := .event .statusLegacyPublished
  producer := .pane
  confidence := .derived
  observedAt := 1
  payload := [("latched_status", some "processing")]
  sourceRef := none
  runId := none
  msgId := none
  evidence := none
  idempotencyKey := none
  terminalId_ne := by decide
  evidence_eq_none _ := rfl
  eventId := "01E"
  seq := 1
  ingestedAt := 1
  one_le_seq := le_refl 1

/-- The first attempt to record it fails, and the reading is repeated. -/
def lostAttempt : List WatchEvent :=
  [.evaluate busyScreen { terminalId := "t1", state := .idle, since := 0 } true 1 "01A",
    .evaluate busyScreen { terminalId := "t1", state := .idle, since := 0 } false 2 "01B"]

/-- The repeated reading is taken for one that is on record. -/
theorem lostAttempt_unrecorded :
    ¬∀ before after, lostAttempt = before ++ after →
      StandingOnRecord (run watchExec .start before) := by
  intro h
  have hopen := (h lostAttempt [] rfl "t1" ⟨.idle, .busy, 0⟩ (by decide +kernel)).1
  exact absurd hopen (by decide +kernel)

end CliAgentOrchestrator.Findings
