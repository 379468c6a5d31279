import CliAgentOrchestrator.Truth.Sequence

/-!
# The finding table

`adapters/store/findings.py` over the `finding` table of `adapters/store/migrator.py`. A row has a
primary key and a second unique index over `(code, terminal_id, dedupe_key, state)`; both are part
of the type, and a statement that would break one of them is refused whole (`FindingStore.write`).

`record_cases`, `resolve_of_none` and `resolve_of_open` say once what the two calls can do.
-/

set_option autoImplicit false

namespace CliAgentOrchestrator.Findings

open Library Truth

/-! ## Rows -/

/-- SOURCE: core/findings.py:135-188 -/
inductive FindingCode
  | diagBadTransition
  | diagGhostTransition
  | diagLegacyDisagree
  | diagMigrationFailed
  | diagQueueOrphanGuard
  | diagBarrierOpenAtFlip
  | diagPaneDisagree
  | diagProducerDisagree
  | diagStatusGuard
  | diagDeliveryTimeBound
  | diagSeatWakeUnreachable
  | diagShadowRowsRetired
  | diagLegacyRowAdopted
  | diagCertifiedSourceStale
  | diagHerdrStatusUnknown
deriving DecidableEq

/-- What a finding is about: repeats of one key are counted on one row. -/
structure FindingKey where
  code : FindingCode
  terminalId : String
  dedupeKey : String
deriving DecidableEq

/-- SOURCE: adapters/store/migrator.py:66-79 -/
structure FindingRow where
  findingId : String
  code : FindingCode
  terminalId : String
  dedupeKey : String
  detail : String
  sampleEventId : Option String
  count : Nat
  firstSeenAt : Int
  lastSeenAt : Int
  state : FindingState

def FindingRow.key (r : FindingRow) : FindingKey := ⟨r.code, r.terminalId, r.dedupeKey⟩

/-- The columns of the unique index. -/
def FindingRow.slot (r : FindingRow) : FindingKey × FindingState := (r.key, r.state)

/-- The rows under both constraints of the table. -/
structure FindingStore where
  finding : Table FindingRow.slot
  primaryKey : (finding.rows.map FindingRow.findingId).Nodup

namespace FindingStore

def empty : FindingStore := ⟨.empty, by simp [Table.empty]⟩

/-! ## The calls -/

/-- What the SQLite driver or the row conversion raises. -/
inductive StoreError
  | primaryKeyTaken
  | slotTaken
  | noRow

/-- A statement that leaves these rows: kept where both constraints hold, rolled back otherwise. -/
def write (rows : List FindingRow) : Except StoreError FindingStore :=
  if hid : (rows.map FindingRow.findingId).Nodup then
    if hslot : (rows.map FindingRow.slot).Nodup then .ok ⟨⟨rows, hslot⟩, hid⟩
    else .error .slotTaken
  else .error .primaryKeyTaken

/-- UPDATE finding SET count = count + 1, last_seen_at, detail. -/
def bump (detail : String) (now : Int) (r : FindingRow) : FindingRow :=
  { r with count := r.count + 1, lastSeenAt := now, detail := detail }

/-- … WHERE code, terminal_id, dedupe_key name `key` AND state = 'open'. -/
def bumped (s : FindingStore) (key : FindingKey) (detail : String) (now : Int) : List FindingRow :=
  s.finding.rows.map fun r => if r.slot = (key, .opened) then bump detail now r else r

/-- The row of a key that has no OPEN one. -/
def firstRow (key : FindingKey) (detail : String) (sampleEventId : Option String) (now : Int)
    (newUlid : String) : FindingRow :=
  { findingId := newUlid, code := key.code, terminalId := key.terminalId,
    dedupeKey := key.dedupeKey, detail := detail, sampleEventId := sampleEventId, count := 1,
    firstSeenAt := now, lastSeenAt := now, state := .opened }

/-- The answer is the row as the closing SELECT finds it; `newUlid` is the id minted for an insert.

SOURCE: adapters/store/findings.py:48-93 -/
def record (s : FindingStore) (key : FindingKey) (detail : String) (sampleEventId : Option String)
    (now : Int) (newUlid : String) : Except StoreError (FindingRow × FindingStore) := do
  let updated ← write (s.bumped key detail now)
  let s' ← (if s.finding.rows.any fun r => r.slot = (key, .opened) then .ok updated
    else write (updated.finding.rows ++ [firstRow key detail sampleEventId now newUlid]))
  match s'.finding.get (key, .opened) with
  | some row => .ok (row, s')
  | none => .error .noRow

/-- The row that a `WHERE finding_id = ? AND state = 'open'` selects. -/
def openFinding (s : FindingStore) (findingId : String) : Option FindingRow :=
  s.finding.rows.find? fun r => r.findingId = findingId ∧ r.state = .opened

/-- UPDATE finding SET state = 'resolved' WHERE finding_id = ? AND state = 'open'. -/
def markResolved (findingId : String) (r : FindingRow) : FindingRow :=
  if r.findingId = findingId ∧ r.state = .opened then { r with state := .resolved } else r

/-- SOURCE: adapters/store/findings.py:112-121 -/
def resolve (s : FindingStore) (findingId : String) : Except StoreError (Bool × FindingStore) := do
  let s' ← write (s.finding.rows.map (markResolved findingId))
  return ((s.openFinding findingId).isSome, s')

/-! ## What they can do -/

variable {s s' : FindingStore} {rows : List FindingRow} {key : FindingKey} {detail : String}
  {sampleEventId : Option String} {now : Int} {newUlid findingId : String} {r : FindingRow}

/-- A statement goes through exactly where the constraints allow its rows. -/
theorem write_eq_ok_iff : write rows = .ok s ↔ s.finding.rows = rows := by
  constructor
  · intro h
    unfold write at h
    split_ifs at h
    cases h
    rfl
  · rintro rfl
    unfold write
    rw [dif_pos s.primaryKey, dif_pos s.finding.unique]

/-- The UPDATE names no column of a constraint. -/
theorem exists_bumped (s : FindingStore) (key : FindingKey) (detail : String) (now : Int) :
    ∃ s' : FindingStore, s'.finding.rows = s.bumped key detail now := by
  have hid : (s.bumped key detail now).map FindingRow.findingId
      = s.finding.rows.map FindingRow.findingId := by
    rw [bumped, List.map_map]
    refine List.map_congr_left fun r _ => ?_
    simp only [Function.comp_apply]
    split_ifs <;> rfl
  have hslot : (s.bumped key detail now).map FindingRow.slot
      = s.finding.rows.map FindingRow.slot := by
    rw [bumped, List.map_map]
    refine List.map_congr_left fun r _ => ?_
    simp only [Function.comp_apply]
    split_ifs <;> rfl
  exact ⟨⟨⟨s.bumped key detail now, hslot ▸ s.finding.unique⟩, hid ▸ s.primaryKey⟩, rfl⟩

theorem any_slot_iff (s : FindingStore) (slot : FindingKey × FindingState) :
    (s.finding.rows.any fun r => r.slot = slot) = true ↔ ∃ r ∈ s.finding.rows, r.slot = slot := by
  simp

/-- A key with an OPEN row has it counted up. -/
theorem record_of_open (hr : r ∈ s.finding.rows) (hslot : r.slot = (key, .opened)) :
    ∃ s', s.record key detail sampleEventId now newUlid = .ok (bump detail now r, s')
      ∧ s'.finding.rows = s.bumped key detail now := by
  obtain ⟨s', hs'⟩ := s.exists_bumped key detail now
  have hany := (s.any_slot_iff (key, .opened)).mpr ⟨r, hr, hslot⟩
  have hget : s'.finding.get (key, .opened) = some (bump detail now r) := by
    rw [Table.get_eq_some_iff, hs']
    refine ⟨List.mem_map.mpr ⟨r, hr, if_pos hslot⟩, ?_⟩
    rw [← hslot]
    rfl
  refine ⟨s', ?_, hs'⟩
  unfold record
  rw [write_eq_ok_iff.mpr hs', hany]
  simp only [bind, Except.bind, if_true, hget]

/-- A key without one gets a row under the minted id, unless that id is taken. -/
theorem record_of_none (detail : String) (sampleEventId : Option String) (now : Int)
    (newUlid : String) (hnone : ∀ r ∈ s.finding.rows, r.slot ≠ (key, .opened)) :
    s.record key detail sampleEventId now newUlid =
      (write (s.finding.rows ++ [firstRow key detail sampleEventId now newUlid])).map
        fun s' => (firstRow key detail sampleEventId now newUlid, s') := by
  have hsame : s.finding.rows = s.bumped key detail now := by
    unfold bumped
    exact (List.map_id' _).symm.trans
      (List.map_congr_left fun r hr => (if_neg (hnone r hr)).symm)
  have hany : (s.finding.rows.any fun r => r.slot = (key, .opened)) = false := by
    rw [Bool.eq_false_iff, ne_eq, any_slot_iff]
    rintro ⟨r, hr, hslot⟩
    exact hnone r hr hslot
  unfold record
  rw [write_eq_ok_iff.mpr hsame, hany]
  simp only [bind, Except.bind, Bool.false_eq_true, if_false]
  cases hwrite : write (s.finding.rows ++ [firstRow key detail sampleEventId now newUlid]) with
  | error e => rfl
  | ok s' =>
    have hrows := write_eq_ok_iff.mp hwrite
    have hget : s'.finding.get (key, .opened)
        = some (firstRow key detail sampleEventId now newUlid) := by
      rw [Table.get_eq_some_iff, hrows]
      exact ⟨List.mem_append_right _ (List.mem_singleton.mpr rfl), rfl⟩
    simp only [hget, Except.map]

theorem write_firstRow_iff (detail : String) (sampleEventId : Option String) (now : Int)
    (newUlid : String) (hnone : ∀ r ∈ s.finding.rows, r.slot ≠ (key, .opened)) :
    (∃ s', write (s.finding.rows ++ [firstRow key detail sampleEventId now newUlid]) = .ok s') ↔
      ∀ r ∈ s.finding.rows, r.findingId ≠ newUlid := by
  constructor
  · rintro ⟨s', hs'⟩ r hr hid
    have hnodup := s'.primaryKey
    rw [write_eq_ok_iff.mp hs', List.map_append, List.nodup_append] at hnodup
    exact hnodup.2.2 r.findingId (List.mem_map_of_mem hr) newUlid (List.mem_singleton.mpr rfl) hid
  · intro hfresh
    have hid : ((s.finding.rows ++ [firstRow key detail sampleEventId now newUlid]).map
        FindingRow.findingId).Nodup := by
      rw [List.map_append, List.nodup_append]
      refine ⟨s.primaryKey, List.nodup_singleton _, ?_⟩
      intro a ha b hb
      obtain ⟨r, hr, rfl⟩ := List.mem_map.mp ha
      rw [List.mem_singleton.mp hb]
      exact hfresh r hr
    have hslot : ((s.finding.rows ++ [firstRow key detail sampleEventId now newUlid]).map
        FindingRow.slot).Nodup := by
      rw [List.map_append, List.nodup_append]
      refine ⟨s.finding.unique, List.nodup_singleton _, ?_⟩
      intro a ha b hb
      obtain ⟨r, hr, rfl⟩ := List.mem_map.mp ha
      rw [List.mem_singleton.mp hb]
      exact hnone r hr
    exact ⟨⟨⟨_, hslot⟩, hid⟩, write_eq_ok_iff.mpr rfl⟩

/-- A record counts up the OPEN row of its key, or gives the key a first row, or is refused because
the minted id is taken. -/
theorem record_cases (s : FindingStore) (key : FindingKey) (detail : String)
    (sampleEventId : Option String) (now : Int) (newUlid : String) :
    (∃ r ∈ s.finding.rows, r.slot = (key, .opened) ∧ ∃ s',
        s.record key detail sampleEventId now newUlid = .ok (bump detail now r, s')
          ∧ s'.finding.rows = s.bumped key detail now)
      ∨ ((∀ r ∈ s.finding.rows, r.slot ≠ (key, .opened))
        ∧ (∀ r ∈ s.finding.rows, r.findingId ≠ newUlid) ∧ ∃ s',
          s.record key detail sampleEventId now newUlid
              = .ok (firstRow key detail sampleEventId now newUlid, s')
            ∧ s'.finding.rows
              = s.finding.rows ++ [firstRow key detail sampleEventId now newUlid])
      ∨ ((∀ r ∈ s.finding.rows, r.slot ≠ (key, .opened))
        ∧ (∃ r ∈ s.finding.rows, r.findingId = newUlid)
        ∧ ∃ e, s.record key detail sampleEventId now newUlid = .error e) := by
  by_cases hopen : ∃ r ∈ s.finding.rows, r.slot = (key, .opened)
  · obtain ⟨r, hr, hslot⟩ := hopen
    exact .inl ⟨r, hr, hslot, record_of_open hr hslot⟩
  · have hnone : ∀ r ∈ s.finding.rows, r.slot ≠ (key, .opened) :=
      fun r hr hslot => hopen ⟨r, hr, hslot⟩
    have hrecord := record_of_none detail sampleEventId now newUlid hnone
    have hiff := write_firstRow_iff detail sampleEventId now newUlid hnone
    cases hwrite : write (s.finding.rows ++ [firstRow key detail sampleEventId now newUlid]) with
    | ok s' =>
      rw [hwrite] at hrecord hiff
      exact .inr (.inl ⟨hnone, hiff.mp ⟨s', rfl⟩, s', hrecord, write_eq_ok_iff.mp hwrite⟩)
    | error e =>
      rw [hwrite] at hrecord hiff
      refine .inr (.inr ⟨hnone, ?_, e, hrecord⟩)
      by_contra hfresh
      push Not at hfresh
      obtain ⟨s', hs'⟩ := hiff.mpr hfresh
      cases hs'

theorem openFinding_eq_some_iff :
    s.openFinding findingId = some r ↔
      r ∈ s.finding.rows ∧ r.findingId = findingId ∧ r.state = .opened := by
  constructor
  · intro h
    exact ⟨List.mem_of_find?_eq_some h, by simpa using List.find?_some h⟩
  · rintro ⟨hr, hid, hopen⟩
    cases hfind : s.openFinding findingId with
    | none =>
      have := List.find?_eq_none.mp hfind r hr
      simp [hid, hopen] at this
    | some x =>
      have hx : x ∈ s.finding.rows := List.mem_of_find?_eq_some hfind
      have hxid : x.findingId = findingId ∧ x.state = .opened := by
        simpa using List.find?_some hfind
      rw [List.inj_on_of_nodup_map s.primaryKey hx hr (hxid.1.trans hid.symm)]

/-- No OPEN row has the id: nothing to resolve. -/
theorem resolve_of_none (hnone : s.openFinding findingId = none) :
    s.resolve findingId = .ok (false, s) := by
  have hno : ∀ r ∈ s.finding.rows, ¬(r.findingId = findingId ∧ r.state = .opened) := by
    intro r hr hopen
    rw [openFinding_eq_some_iff.mpr ⟨hr, hopen⟩] at hnone
    cases hnone
  have hsame : s.finding.rows = s.finding.rows.map (markResolved findingId) :=
    (List.map_id' _).symm.trans (List.map_congr_left fun r hr => (if_neg (hno r hr)).symm)
  unfold resolve
  rw [write_eq_ok_iff.mpr hsame, hnone]
  rfl

/-- The rows around the OPEN row of an id are the ones the UPDATE leaves alone. -/
theorem resolved_rows {before after : List FindingRow}
    (hrows : s.finding.rows = before ++ r :: after) (hid : r.findingId = findingId)
    (hopen : r.state = .opened) :
    s.finding.rows.map (markResolved findingId)
      = before ++ { r with state := .resolved } :: after := by
  have hnodup := s.primaryKey
  rw [hrows, List.map_append, List.map_cons, List.nodup_middle, List.nodup_cons] at hnodup
  have hother : ∀ x ∈ before ++ after, x.findingId ≠ findingId := by
    intro x hx heq
    refine hnodup.1 ?_
    rw [← List.map_append, hid, ← heq]
    exact List.mem_map_of_mem hx
  have hkeep : ∀ l : List FindingRow, (∀ x ∈ l, x ∈ before ++ after) →
      l.map (markResolved findingId) = l := by
    intro l hl
    refine (List.map_congr_left fun x hx => if_neg ?_).trans (List.map_id' l)
    exact fun h => hother x (hl x hx) h.1
  have hmark : markResolved findingId r = { r with state := .resolved } := if_pos ⟨hid, hopen⟩
  rw [hrows, List.map_append, List.map_cons, hmark,
    hkeep before fun x hx => List.mem_append_left _ hx,
    hkeep after fun x hx => List.mem_append_right _ hx]

/-- The rows around the OPEN row of an id are the ones of another id. -/
theorem mem_others_iff {before after : List FindingRow}
    (hrows : s.finding.rows = before ++ r :: after) (x : FindingRow) :
    x ∈ before ++ after ↔ x ∈ s.finding.rows ∧ x.findingId ≠ r.findingId := by
  have hids := s.primaryKey
  rw [hrows, List.map_append, List.map_cons, List.nodup_middle, List.nodup_cons,
    ← List.map_append] at hids
  rw [hrows]
  constructor
  · intro hx
    refine ⟨?_, fun heq => hids.1 (heq ▸ List.mem_map_of_mem hx)⟩
    obtain hx | hx := List.mem_append.mp hx
    · exact List.mem_append_left _ hx
    · exact List.mem_append_right _ (List.mem_cons_of_mem r hx)
  · rintro ⟨hx, hne⟩
    obtain hx | hx := List.mem_append.mp hx
    · exact List.mem_append_left _ hx
    · obtain rfl | hx := List.mem_cons.mp hx
      · exact absurd rfl hne
      · exact List.mem_append_right _ hx

/-- Marking the row is allowed exactly where its key has no RESOLVED row yet. -/
theorem write_resolved_iff {before after : List FindingRow}
    (hrows : s.finding.rows = before ++ r :: after) (hopen : r.state = .opened) :
    (∃ s', write (before ++ { r with state := .resolved } :: after) = .ok s') ↔
      ∀ x ∈ s.finding.rows, x.slot ≠ (r.key, .resolved) := by
  constructor
  · rintro ⟨s', hs'⟩ x hx hslot
    have hslots := s'.finding.unique
    rw [write_eq_ok_iff.mp hs', List.map_append, List.map_cons, List.nodup_middle, List.nodup_cons,
      ← List.map_append] at hslots
    have hother : x.findingId ≠ r.findingId := by
      intro hid
      have hr : r ∈ s.finding.rows := by
        rw [hrows]
        exact List.mem_append_right _ List.mem_cons_self
      obtain rfl := List.inj_on_of_nodup_map s.primaryKey hx hr hid
      rw [show x.state = .resolved from congrArg Prod.snd hslot] at hopen
      cases hopen
    refine hslots.1 (List.mem_map.mpr ⟨x, (mem_others_iff hrows x).mpr ⟨hx, hother⟩, ?_⟩)
    exact hslot
  · intro hfree
    have hids := s.primaryKey
    have hslots := s.finding.unique
    rw [hrows, List.map_append, List.map_cons, List.nodup_middle, List.nodup_cons,
      ← List.map_append] at hids hslots
    have hid : ((before ++ { r with state := .resolved } :: after).map
        FindingRow.findingId).Nodup := by
      rw [List.map_append, List.map_cons, List.nodup_middle, List.nodup_cons, ← List.map_append]
      exact hids
    have hslot : ((before ++ { r with state := .resolved } :: after).map
        FindingRow.slot).Nodup := by
      rw [List.map_append, List.map_cons, List.nodup_middle, List.nodup_cons, ← List.map_append]
      refine ⟨fun hmem => ?_, hslots.2⟩
      obtain ⟨x, hx, heq⟩ := List.mem_map.mp hmem
      exact hfree x ((mem_others_iff hrows x).mp hx).1 heq
    exact ⟨⟨⟨_, hslot⟩, hid⟩, write_eq_ok_iff.mpr rfl⟩

/-- The OPEN row of an id is marked RESOLVED, or the call is refused and its key has a RESOLVED row
already. -/
theorem resolve_of_open (hopen : s.openFinding findingId = some r) :
    ((∀ x ∈ s.finding.rows, x.slot ≠ (r.key, .resolved))
        ∧ ∃ s', s.resolve findingId = .ok (true, s') ∧ ∀ x, x ∈ s'.finding.rows ↔
          (x ∈ s.finding.rows ∧ x.findingId ≠ findingId) ∨ x = { r with state := .resolved })
      ∨ ((∃ x ∈ s.finding.rows, x.slot = (r.key, .resolved))
        ∧ ∃ e, s.resolve findingId = .error e) := by
  obtain ⟨hr, hid, hstate⟩ := openFinding_eq_some_iff.mp hopen
  obtain ⟨before, after, hrows⟩ := List.append_of_mem hr
  have hwrite : s.resolve findingId =
      (write (before ++ { r with state := .resolved } :: after)).map fun s' => (true, s') := by
    unfold resolve
    rw [resolved_rows hrows hid hstate, hopen]
    cases write (before ++ { r with state := .resolved } :: after) <;> rfl
  have hiff := write_resolved_iff hrows hstate
  cases hdone : write (before ++ { r with state := .resolved } :: after) with
  | ok s' =>
    refine .inl ⟨hiff.mp ⟨s', hdone⟩, s', by rw [hwrite, hdone]; rfl, fun x => ?_⟩
    rw [write_eq_ok_iff.mp hdone, ← hid, ← mem_others_iff hrows x, List.mem_append, List.mem_append,
      List.mem_cons]
    tauto
  | error e =>
    refine .inr ⟨?_, e, by rw [hwrite, hdone]; rfl⟩
    by_contra hfree
    push Not at hfree
    obtain ⟨s', hs'⟩ := hiff.mpr hfree
    rw [hdone] at hs'
    cases hs'

/-! ## Which keys have an OPEN row -/

def HasOpen (s : FindingStore) (key : FindingKey) : Prop :=
  ∃ r ∈ s.finding.rows, r.slot = (key, .opened)

instance (s : FindingStore) (key : FindingKey) : Decidable (s.HasOpen key) :=
  inferInstanceAs (Decidable (∃ r ∈ s.finding.rows, r.slot = (key, .opened)))

theorem record_isOk_iff :
    (∃ row s', s.record key detail sampleEventId now newUlid = .ok (row, s')) ↔
      s.HasOpen key ∨ ∀ r ∈ s.finding.rows, r.findingId ≠ newUlid := by
  obtain ⟨r, hr, hslot, s', hok, -⟩ | ⟨-, hfresh, s', hok, -⟩ | ⟨hnone, ⟨r, hr, hid⟩, e, herr⟩ :=
    s.record_cases key detail sampleEventId now newUlid
  · exact ⟨fun _ => .inl ⟨r, hr, hslot⟩, fun _ => ⟨_, s', hok⟩⟩
  · exact ⟨fun _ => .inr hfresh, fun _ => ⟨_, s', hok⟩⟩
  · constructor
    · rintro ⟨row, s', hok⟩
      rw [herr] at hok
      cases hok
    · rintro (⟨x, hx, hslot⟩ | hfresh)
      · exact absurd hslot (hnone x hx)
      · exact absurd hid (hfresh r hr)

theorem hasOpen_record {row : FindingRow}
    (hok : s.record key detail sampleEventId now newUlid = .ok (row, s')) (other : FindingKey) :
    s'.HasOpen other ↔ other = key ∨ s.HasOpen other := by
  obtain ⟨r, hr, hslot, t, ht, hrows⟩ | ⟨-, -, t, ht, hrows⟩ | ⟨-, -, e, herr⟩ :=
    s.record_cases key detail sampleEventId now newUlid
  · rw [ht] at hok
    obtain ⟨-, rfl⟩ := Prod.mk.inj (Except.ok.inj hok)
    have hsame : t.HasOpen other ↔ s.HasOpen other := by
      have hslots : ∀ x, (if x.slot = (key, .opened) then bump detail now x else x).slot = x.slot := by
        intro x
        split_ifs <;> rfl
      unfold HasOpen
      rw [hrows, bumped]
      simp only [List.mem_map, exists_exists_and_eq_and, hslots]
    rw [hsame]
    refine ⟨.inr, ?_⟩
    rintro (rfl | hopen)
    · exact ⟨r, hr, hslot⟩
    · exact hopen
  · rw [ht] at hok
    cases hok
    unfold HasOpen
    rw [hrows]
    constructor
    · rintro ⟨x, hx, hslot⟩
      obtain hx | hx := List.mem_append.mp hx
      · exact .inr ⟨x, hx, hslot⟩
      · obtain rfl := List.mem_singleton.mp hx
        exact .inl (congrArg Prod.fst hslot).symm
    · rintro (rfl | ⟨x, hx, hslot⟩)
      · exact ⟨_, List.mem_append_right _ (List.mem_singleton.mpr rfl), rfl⟩
      · exact ⟨x, List.mem_append_left _ hx, hslot⟩
  · rw [herr] at hok
    cases hok

theorem hasOpen_resolve {answer : Bool} (hopen : s.openFinding findingId = some r)
    (hok : s.resolve findingId = .ok (answer, s')) (key : FindingKey) :
    s'.HasOpen key ↔ key ≠ r.key ∧ s.HasOpen key := by
  obtain ⟨hr, hid, hstate⟩ := openFinding_eq_some_iff.mp hopen
  obtain ⟨-, t, ht, hrows⟩ | ⟨-, e, herr⟩ := resolve_of_open hopen
  · rw [ht] at hok
    cases hok
    constructor
    · rintro ⟨x, hx, hslot⟩
      obtain ⟨hx, hne⟩ | rfl := (hrows x).mp hx
      · refine ⟨?_, x, hx, hslot⟩
        rintro rfl
        have hsame : x.slot = r.slot := by rw [hslot, FindingRow.slot, hstate]
        cases List.inj_on_of_nodup_map s.finding.unique hx hr hsame
        exact hne hid
      · cases congrArg Prod.snd hslot
    · rintro ⟨hne, x, hx, hslot⟩
      refine ⟨x, (hrows x).mpr (.inl ⟨hx, fun hxid => hne ?_⟩), hslot⟩
      cases List.inj_on_of_nodup_map s.primaryKey hx hr (hxid.trans hid.symm)
      exact (congrArg Prod.fst hslot).symm
  · rw [herr] at hok
    cases hok

end FindingStore

end CliAgentOrchestrator.Findings
