import CliAgentOrchestrator.Findings.Store
import Mathlib.Data.List.Induction

/-!
# The life of a finding

A finding is counted on one OPEN row from the first record of its key to the resolve that closes
it. `since` keeps, beside the table, the records of each key that no resolve has closed yet, and
`Counted` says what the OPEN rows have to show for them; every call keeps that.

What does not hold is that every call succeeds. The unique index spans the state, so a key has room
for one RESOLVED row: the second time it is recorded and resolved, the resolve breaks the index and
is rolled back (`calls_answered_iff`).
-/

set_option autoImplicit false

namespace CliAgentOrchestrator.Findings

open Library Truth

/-! ## The calls of a run -/

/-- What is kept of a record call until its key is resolved. -/
structure Recorded where
  sampleEventId : Option String
  recordedAt : Int

/-- The table, and for each key the records since it was last resolved. -/
structure World where
  store : FindingStore
  since : FindingKey → List Recorded

def World.start : World := ⟨.empty, fun _ => []⟩

inductive FindingCall
  | record (key : FindingKey) (detail : String) (sampleEventId : Option String) (now : Int)
      (newUlid : String)
  | resolve (findingId : String)

/-- A call that raises is rolled back. -/
def exec (w : World) : FindingCall → World
  | .record key detail sampleEventId now newUlid =>
    match w.store.record key detail sampleEventId now newUlid with
    | .ok (_, store) =>
      { store := store,
        since := Function.update w.since key (w.since key ++ [⟨sampleEventId, now⟩]) }
    | .error _ => w
  | .resolve findingId =>
    match w.store.resolve findingId with
    | .ok (true, store) =>
      { store := store,
        since := match w.store.openFinding findingId with
          | some r => Function.update w.since r.key []
          | none => w.since }
    | .ok (false, store) => { w with store := store }
    | .error _ => w

/-! ## The law -/

/-- One OPEN row at most for each key, which counts the records since the last resolve and shows
the first of them. -/
structure Counted (w : World) : Prop where
  single : ∀ r ∈ w.store.finding.rows, ∀ r' ∈ w.store.finding.rows,
    r.state = .opened → r'.state = .opened → r.key = r'.key → r = r'
  counts : ∀ r ∈ w.store.finding.rows, r.state = .opened →
    r.count = (w.since r.key).length
      ∧ (w.since r.key).head? = some ⟨r.sampleEventId, r.firstSeenAt⟩
  idle : ∀ key, (∀ r ∈ w.store.finding.rows, r.slot ≠ (key, .opened)) → w.since key = []

/-- The call returns, and a resolve of an OPEN finding returns True and marks it RESOLVED. -/
def Answered (w : World) : FindingCall → Prop
  | .record key detail sampleEventId now newUlid =>
    ∃ r store, w.store.record key detail sampleEventId now newUlid = .ok (r, store)
  | .resolve findingId =>
    ∃ answer store, w.store.resolve findingId = .ok (answer, store)
      ∧ ∀ r, w.store.openFinding findingId = some r →
        answer = true ∧ { r with state := .resolved } ∈ store.finding.rows

/-- An id minted for a new row is new, and no key is resolved that has a RESOLVED row. -/
def Clear (w : World) : FindingCall → Prop
  | .record key _ _ _ newUlid =>
    (∃ r ∈ w.store.finding.rows, r.slot = (key, .opened))
      ∨ ∀ r ∈ w.store.finding.rows, r.findingId ≠ newUlid
  | .resolve findingId =>
    ∀ r ∈ w.store.finding.rows, r.findingId = findingId → r.state = .opened →
      ∀ x ∈ w.store.finding.rows, x.slot ≠ (r.key, .resolved)

instance (w : World) : ∀ call, Decidable (Clear w call)
  | .record key _ _ _ newUlid => inferInstanceAs (Decidable
      ((∃ r ∈ w.store.finding.rows, r.slot = (key, .opened))
        ∨ ∀ r ∈ w.store.finding.rows, r.findingId ≠ newUlid))
  | .resolve findingId => inferInstanceAs (Decidable
      (∀ r ∈ w.store.finding.rows, r.findingId = findingId → r.state = .opened →
        ∀ x ∈ w.store.finding.rows, x.slot ≠ (r.key, .resolved)))

/-! ## One call -/

theorem answered_iff (w : World) (call : FindingCall) : Answered w call ↔ Clear w call := by
  cases call with
  | record key detail sampleEventId now newUlid => exact FindingStore.record_isOk_iff
  | resolve findingId =>
    cases hopen : w.store.openFinding findingId with
    | none =>
      refine ⟨fun _ r hr hid hstate => ?_, fun _ => ?_⟩
      · rw [FindingStore.openFinding_eq_some_iff.mpr ⟨hr, hid, hstate⟩] at hopen
        cases hopen
      · refine ⟨false, w.store, FindingStore.resolve_of_none hopen, fun r hr => ?_⟩
        rw [hopen] at hr
        cases hr
    | some r =>
      obtain ⟨hr, hid, hstate⟩ := FindingStore.openFinding_eq_some_iff.mp hopen
      obtain ⟨hfree, s', hok, hrows⟩ | ⟨⟨x, hx, hslot⟩, e, herr⟩ :=
        FindingStore.resolve_of_open hopen
      · refine ⟨fun _ r' hr' hid' hstate' => ?_, fun _ => ⟨true, s', hok, fun r' hr' => ?_⟩⟩
        · have heq := FindingStore.openFinding_eq_some_iff.mpr ⟨hr', hid', hstate'⟩
          rw [hopen] at heq
          cases heq
          exact hfree
        · rw [hopen] at hr'
          cases hr'
          exact ⟨rfl, (hrows _).mpr (.inr rfl)⟩
      · constructor
        · rintro ⟨answer, store, hok, -⟩
          rw [herr] at hok
          cases hok
        · intro hclear
          exact absurd hslot (hclear r hr hid hstate x hx)

/-- Two OPEN rows of one key hold one slot. -/
theorem single_of_unique (s : FindingStore) {r r' : FindingRow} (hr : r ∈ s.finding.rows)
    (hr' : r' ∈ s.finding.rows) (hopen : r.state = .opened) (hopen' : r'.state = .opened)
    (hkey : r.key = r'.key) : r = r' := by
  refine List.inj_on_of_nodup_map s.finding.unique hr hr' ?_
  rw [FindingRow.slot, FindingRow.slot, hkey, hopen, hopen']

theorem Counted.record_of_open {w : World} (h : Counted w) {key : FindingKey} {detail : String}
    {sampleEventId : Option String} {now : Int} {r : FindingRow} {store : FindingStore}
    (hr : r ∈ w.store.finding.rows) (hslot : r.slot = (key, .opened))
    (hrows : store.finding.rows = w.store.bumped key detail now) :
    Counted ⟨store, Function.update w.since key (w.since key ++ [⟨sampleEventId, now⟩])⟩ where
  single a ha b hb := single_of_unique store ha hb
  counts a ha hopen := by
    rw [hrows] at ha
    obtain ⟨x, hx, rfl⟩ := List.mem_map.mp ha
    split_ifs at hopen ⊢ with hxslot
    · have hxkey : x.key = key := congrArg Prod.fst hxslot
      obtain ⟨hcount, hfirst⟩ := h.counts x hx (congrArg Prod.snd hxslot)
      have hkey : (FindingStore.bump detail now x).key = key := hxkey
      rw [hxkey] at hcount hfirst
      simp only [hkey, Function.update_self, List.length_append, List.length_singleton,
        List.head?_append, hfirst, Option.some_or]
      exact ⟨congrArg (· + 1) hcount, rfl⟩
    · have hxkey : x.key ≠ key := fun heq => hxslot (Prod.ext heq hopen)
      simp only [Function.update_of_ne hxkey]
      exact h.counts x hx hopen
  idle other hnone := by
    have hother : other ≠ key := by
      rintro rfl
      refine hnone (FindingStore.bump detail now r) ?_ hslot
      rw [hrows]
      exact List.mem_map.mpr ⟨r, hr, if_pos hslot⟩
    simp only [Function.update_of_ne hother]
    refine h.idle other fun x hx hxslot => hnone x ?_ hxslot
    rw [hrows]
    refine List.mem_map.mpr ⟨x, hx, if_neg fun hkey => hother ?_⟩
    exact congrArg Prod.fst (hxslot.symm.trans hkey)

theorem Counted.record_of_none {w : World} (h : Counted w) {key : FindingKey} {detail : String}
    {sampleEventId : Option String} {now : Int} {newUlid : String} {store : FindingStore}
    (hnone : ∀ r ∈ w.store.finding.rows, r.slot ≠ (key, .opened))
    (hrows : store.finding.rows = w.store.finding.rows
      ++ [FindingStore.firstRow key detail sampleEventId now newUlid]) :
    Counted ⟨store, Function.update w.since key (w.since key ++ [⟨sampleEventId, now⟩])⟩ where
  single a ha b hb := single_of_unique store ha hb
  counts a ha hopen := by
    rw [hrows] at ha
    obtain ha | ha := List.mem_append.mp ha
    · have hkey : a.key ≠ key := fun heq => hnone a ha (Prod.ext heq hopen)
      simp only [Function.update_of_ne hkey]
      exact h.counts a ha hopen
    · obtain rfl := List.mem_singleton.mp ha
      have hkey : (FindingStore.firstRow key detail sampleEventId now newUlid).key = key := rfl
      simp only [hkey, Function.update_self, h.idle key hnone]
      exact ⟨rfl, rfl⟩
  idle other hfree := by
    have hother : other ≠ key := by
      rintro rfl
      refine hfree (FindingStore.firstRow other detail sampleEventId now newUlid) ?_ rfl
      rw [hrows]
      exact List.mem_append_right _ (List.mem_singleton.mpr rfl)
    simp only [Function.update_of_ne hother]
    refine h.idle other fun x hx => hfree x ?_
    rw [hrows]
    exact List.mem_append_left _ hx

theorem Counted.resolve_of_open {w : World} (h : Counted w) {findingId : String} {r : FindingRow}
    {store : FindingStore} (hopen : w.store.openFinding findingId = some r)
    (hrows : ∀ x, x ∈ store.finding.rows ↔ (x ∈ w.store.finding.rows ∧ x.findingId ≠ findingId)
      ∨ x = { r with state := .resolved }) :
    Counted ⟨store, Function.update w.since r.key []⟩ := by
  obtain ⟨hr, hid, hstate⟩ := FindingStore.openFinding_eq_some_iff.mp hopen
  -- an OPEN row that is left was there before, under another key
  have hleft : ∀ x ∈ store.finding.rows, x.state = .opened →
      x ∈ w.store.finding.rows ∧ x.key ≠ r.key := by
    intro x hx hxopen
    obtain ⟨hx, hne⟩ | rfl := (hrows x).mp hx
    · refine ⟨hx, fun hkey => hne ?_⟩
      rw [h.single x hx r hr hxopen hstate hkey, hid]
    · cases hxopen
  refine ⟨fun a ha b hb => single_of_unique store ha hb, fun x hx hxopen => ?_, fun key hnone => ?_⟩
  · obtain ⟨hx, hkey⟩ := hleft x hx hxopen
    simp only [Function.update_of_ne hkey]
    exact h.counts x hx hxopen
  · by_cases hkey : key = r.key
    · rw [hkey]
      exact Function.update_self r.key [] w.since
    · simp only [Function.update_of_ne hkey]
      refine h.idle key fun x hx hslot => hnone x ((hrows x).mpr (.inl ⟨hx, fun hxid => ?_⟩)) hslot
      cases List.inj_on_of_nodup_map w.store.primaryKey hx hr (hxid.trans hid.symm)
      exact hkey (congrArg Prod.fst hslot).symm

theorem Counted.exec {w : World} (h : Counted w) (call : FindingCall) :
    Counted (exec w call) := by
  cases call with
  | record key detail sampleEventId now newUlid =>
    obtain ⟨r, hr, hslot, s', hok, hrows⟩ | ⟨hnone, -, s', hok, hrows⟩ | ⟨-, -, e, herr⟩ :=
      w.store.record_cases key detail sampleEventId now newUlid
    · simp only [Findings.exec, hok]
      exact h.record_of_open hr hslot hrows
    · simp only [Findings.exec, hok]
      exact h.record_of_none hnone hrows
    · simp only [Findings.exec, herr]
      exact h
  | resolve findingId =>
    cases hopen : w.store.openFinding findingId with
    | none =>
      simp only [Findings.exec, FindingStore.resolve_of_none hopen]
      exact h
    | some r =>
      obtain ⟨-, s', hok, hrows⟩ | ⟨-, e, herr⟩ := FindingStore.resolve_of_open hopen
      · simp only [Findings.exec, hok, hopen]
        exact h.resolve_of_open hopen hrows
      · simp only [Findings.exec, herr]
        exact h

/-! ## Every run -/

theorem counted_start : Counted .start where
  single _ hr := absurd hr List.not_mem_nil
  counts _ hr := absurd hr List.not_mem_nil
  idle _ _ := rfl

/-- The OPEN rows are right whatever is called. -/
theorem counted_run (calls : List FindingCall) : Counted (run exec .start calls) :=
  run_invariant Counted (fun _ call h => h.exec call) .start counted_start calls

/-- Every call of a run is answered and leaves the OPEN rows right exactly where minted ids are new
and no finding is resolved whose key has a RESOLVED row. -/
theorem calls_answered_iff (calls : List FindingCall) :
    ((∀ before call after, calls = before ++ call :: after →
          Answered (run exec .start before) call)
        ∧ ∀ before after, calls = before ++ after → Counted (run exec .start before))
      ↔ StepsSatisfy exec Clear .start calls := by
  rw [stepsSatisfy_iff]
  constructor
  · rintro ⟨hanswered, -⟩ before call after heq
    exact (answered_iff _ call).mp (hanswered before call after heq)
  · intro hclear
    refine ⟨fun before call after heq => ?_, fun before _ _ => counted_run before⟩
    exact (answered_iff _ call).mpr (hclear before call after heq)

/-- One key recorded and resolved, and the same again. -/
def twoRounds : List FindingCall :=
  [.record ⟨.diagBadTransition, "t1", "idle|waiting"⟩ "" none 1 "01A", .resolve "01A",
    .record ⟨.diagBadTransition, "t1", "idle|waiting"⟩ "" none 2 "01B", .resolve "01B"]

/-- The second resolve raises, and the finding stays OPEN. -/
theorem twoRounds_refused :
    ¬((∀ before call after, twoRounds = before ++ call :: after →
          Answered (run exec .start before) call)
        ∧ ∀ before after, twoRounds = before ++ after → Counted (run exec .start before)) := by
  rintro ⟨hanswered, -⟩
  have hlast := hanswered (twoRounds.take 3) (.resolve "01B") [] rfl
  rw [answered_iff] at hlast
  exact absurd hlast (by decide +kernel)

end CliAgentOrchestrator.Findings
