import CliAgentOrchestrator.Library.Dict
import CliAgentOrchestrator.Memory.Format

/-!
# Reading the relationship table

`services/memory_relationship_service.py`: the targets a memory points at, and whether one is
superseded, for one key and for many keys in one query. The batch form takes the sanitised keys
back to what the caller wrote through a dictionary, which has room for one spelling of each key; so
it agrees with the single form exactly where no two spellings of a key with an edge are asked for
(`batched_reads_agree_iff`).

The queries carry no ORDER BY. Both go through the lookup index on the source key, so the rows of
one source come in the order of the table.
-/

set_option autoImplicit false

namespace CliAgentOrchestrator.Memory

open Library

/-! ## The table -/

/-- The columns of an edge that the reads use; `createdAt` counts from the least datetime.

SOURCE: clients/database.py:1387-1459
(`MemoryRelationshipModel`) -/
structure MemoryRelationship where
  id : Text
  scope : Text
  scopeId : Text
  sourceKey : Text
  targetKey : Text
  type : Text
  status : Text
  rank : Option Int
  createdAt : Option Nat

abbrev MemoryRelationships := Table MemoryRelationship.id

/-- The scope id as it is stored.

SOURCE: services/memory_relationship_service.py:194-199 -/
def toSentinel (scopeId : Option Text) : Text := scopeId.getD []

/-- Rows in the order of `(rank, created_at)`, a missing rank last and a missing time first.

SOURCE: services/memory_relationship_service.py:149-179
(`_sort_dt`, `_rank_then_created`) -/
def rankThenCreated (a b : MemoryRelationship) : Prop :=
  a.rank.getD 1000000 < b.rank.getD 1000000
    ∨ (a.rank.getD 1000000 = b.rank.getD 1000000 ∧ a.createdAt.getD 0 ≤ b.createdAt.getD 0)

instance : DecidableRel rankThenCreated := fun _ _ => inferInstanceAs (Decidable (_ ∨ _))

/-- An active edge of a type, within one scope. -/
def activeEdge (scope : Text) (scopeId : Option Text) (type : Text) (r : MemoryRelationship) :
    Bool :=
  r.scope == scope && r.scopeId == toSentinel scopeId && r.type == type
    && r.status == text "active"

/-- The targets of the rows, in their order. -/
def orderedTargets (rows : List MemoryRelationship) : List Text :=
  (rows.insertionSort rankThenCreated).map (·.targetKey)

/-! ## The reads -/

section Reads

variable (rels : MemoryRelationships) (scope : Text) (scopeId : Option Text)

/-- None is the `ValueError` of a key that nothing is left of.

SOURCE: services/memory_relationship_service.py:889-912 -/
def activeTargets (sourceKey type : Text) : Option (List Text) :=
  (sanitizeKey sourceKey).map fun source =>
    orderedTargets (rels.select fun r => activeEdge scope scopeId type r && r.sourceKey == source)

/-- The sanitised keys, each with what the caller wrote. -/
def sanitized (keys : List Text) : Option (Dict Text Text) :=
  (keys.mapM fun k => (sanitizeKey k).map fun s => (s, k)).map Dict.ofList

/-- SOURCE: services/memory_relationship_service.py:914-963 -/
def activeTargetsFor (sourceKeys : List Text) (type : Text) : Option (Dict Text (List Text)) :=
  (sanitized sourceKeys).map fun originals =>
    let rows := rels.select fun r =>
      activeEdge scope scopeId type r && (originals.find r.sourceKey).isSome
    (Dict.group (fun r => originals.find r.sourceKey) rows).mapValues orderedTargets

/-- SOURCE: services/memory_relationship_service.py:965-982 -/
def isSuperseded (key : Text) : Option Bool :=
  (sanitizeKey key).map fun target =>
    rels.rows.any fun r =>
      activeEdge scope scopeId (text "supersedes") r && r.targetKey == target

/-- The members of the set.

SOURCE: services/memory_relationship_service.py:984-1006 -/
def supersededTargets (keys : List Text) : Option (List Text) :=
  (sanitized keys).map fun originals =>
    (rels.select (activeEdge scope scopeId (text "supersedes"))).filterMap fun r =>
      originals.find r.targetKey

/-! ## What the dictionary keeps -/

theorem mem_sanitizedPairs {keys : List Text} (hkeys : ∀ k ∈ keys, (sanitizeKey k).isSome = true) :
    ∃ pairs, (keys.mapM fun k => (sanitizeKey k).map fun s => (s, k)) = some pairs
      ∧ ∀ s k, (s, k) ∈ pairs ↔ k ∈ keys ∧ sanitizeKey k = some s := by
  induction keys with
  | nil => exact ⟨[], rfl, by simp⟩
  | cons key keys ih =>
    obtain ⟨pairs, hpairs, hmem⟩ := ih fun k hk => hkeys k (List.mem_cons_of_mem key hk)
    obtain ⟨source, hsource⟩ := Option.isSome_iff_exists.mp (hkeys key List.mem_cons_self)
    refine ⟨(source, key) :: pairs, ?_, fun s k => ?_⟩
    · rw [List.mapM_cons, hsource, hpairs]
      rfl
    · rw [List.mem_cons, hmem, List.mem_cons, Prod.mk.injEq]
      constructor
      · rintro (⟨rfl, rfl⟩ | ⟨hk, hs⟩)
        · exact ⟨.inl rfl, hsource⟩
        · exact ⟨.inr hk, hs⟩
      · rintro ⟨rfl | hk, hs⟩
        · rw [hsource] at hs
          exact .inl ⟨(Option.some.inj hs).symm, rfl⟩
        · exact .inr ⟨hk, hs⟩

/-- One spelling of each sanitised key is kept, and it is one the caller wrote. -/
theorem sanitized_spec {keys : List Text} (hkeys : ∀ k ∈ keys, (sanitizeKey k).isSome = true) :
    ∃ originals, sanitized keys = some originals
      ∧ (∀ s k, originals.find s = some k → k ∈ keys ∧ sanitizeKey k = some s)
      ∧ ∀ s k, k ∈ keys → sanitizeKey k = some s → ∃ kept, originals.find s = some kept := by
  obtain ⟨pairs, hpairs, hmem⟩ := mem_sanitizedPairs hkeys
  refine ⟨Dict.ofList pairs, by rw [sanitized, hpairs]; rfl, fun s k hfind => ?_, fun s k hk hs => ?_⟩
  · rw [Dict.find_ofList, Option.map_eq_some_iff] at hfind
    obtain ⟨e, hlast, rfl⟩ := hfind
    obtain ⟨he, hkey⟩ := List.mem_filter.mp (List.mem_of_getLast? hlast)
    obtain rfl := of_decide_eq_true hkey
    exact (hmem e.1 e.2).mp he
  · rw [Dict.find_ofList]
    have hne : pairs.filter (fun e => e.1 = s) ≠ [] :=
      List.ne_nil_of_mem (List.mem_filter.mpr ⟨(hmem s k).mpr ⟨hk, hs⟩, by simp⟩)
    exact ⟨_, by rw [List.getLast?_eq_some_getLast hne]; rfl⟩

/-! ## When they agree -/

/-- The batch reads answer for every key of the list as the single reads do. -/
def BatchAgrees (type : Text) (keys : List Text) : Prop :=
  (∃ targets, activeTargetsFor rels scope scopeId keys type = some targets
    ∧ ∀ k ∈ keys, activeTargets rels scope scopeId k type = some ((targets.find k).getD []))
  ∧ ∃ hits, supersededTargets rels scope scopeId keys = some hits
    ∧ ∀ k ∈ keys, isSuperseded rels scope scopeId k = some (decide (k ∈ hits))

/-- No active edge of the type leaves the sanitised key, and none supersedes it. -/
def Unlinked (type key : Text) : Prop :=
  ∀ r ∈ rels.rows, (activeEdge scope scopeId type r = true → some r.sourceKey ≠ sanitizeKey key)
    ∧ (activeEdge scope scopeId (text "supersedes") r = true →
      some r.targetKey ≠ sanitizeKey key)

end Reads

section Agree

variable (rels : MemoryRelationships) (scope : Text) (scopeId : Option Text) (type : Text)
  {keys : List Text} {originals : Dict Text Text}

/-- The batch read answers for a key that was kept as the single one does, and has nothing for one
that was not. -/
theorem activeTargetsFor_spec (horiginals : sanitized keys = some originals)
    (hkept : ∀ s k, originals.find s = some k → k ∈ keys ∧ sanitizeKey k = some s) :
    ∃ targets, activeTargetsFor rels scope scopeId keys type = some targets
      ∧ ∀ s k, sanitizeKey k = some s → (targets.find k).getD []
        = if originals.find s = some k then
            orderedTargets (rels.select fun r =>
              activeEdge scope scopeId type r && r.sourceKey == s)
          else [] := by
  refine ⟨_, by rw [activeTargetsFor, horiginals]; rfl, fun s k hs => ?_⟩
  have hgetD : ∀ group : Option (List MemoryRelationship),
      (group.map orderedTargets).getD [] = orderedTargets (group.getD []) := by
    rintro (_ | group) <;> rfl
  rw [Dict.find_mapValues, hgetD, Dict.find_group, Table.select, List.filter_filter]
  split_ifs with hfind
  · refine congrArg orderedTargets (List.filter_congr fun r _ => ?_)
    by_cases hsource : r.sourceKey = s
    · simp [hsource, hfind]
    · have hother : originals.find r.sourceKey ≠ some k := by
        intro h
        have hk := (hkept _ _ h).2
        rw [hs] at hk
        exact hsource (Option.some.inj hk).symm
      simp [hsource, hother]
  · have hnone : rels.rows.filter (fun r => decide (originals.find r.sourceKey = some k)
        && (activeEdge scope scopeId type r && (originals.find r.sourceKey).isSome)) = [] := by
      refine List.filter_eq_nil_iff.mpr fun r _ h => ?_
      have hk : originals.find r.sourceKey = some k := by
        simp only [Bool.and_eq_true, decide_eq_true_eq] at h
        exact h.1
      have hsource := (hkept _ _ hk).2
      rw [hs] at hsource
      rw [Option.some.inj hsource] at hfind
      exact hfind hk
    rw [hnone]
    rfl

/-- A key is among the hits where it was kept and an edge supersedes it. -/
theorem supersededTargets_spec (horiginals : sanitized keys = some originals)
    (hkept : ∀ s k, originals.find s = some k → k ∈ keys ∧ sanitizeKey k = some s) :
    ∃ hits, supersededTargets rels scope scopeId keys = some hits
      ∧ ∀ s k, sanitizeKey k = some s → (k ∈ hits ↔ originals.find s = some k
        ∧ (rels.rows.any fun r =>
          activeEdge scope scopeId (text "supersedes") r && r.targetKey == s) = true) := by
  refine ⟨_, by rw [supersededTargets, horiginals]; rfl, fun s k hs => ?_⟩
  rw [List.mem_filterMap, List.any_eq_true]
  constructor
  · rintro ⟨r, hr, hfind⟩
    obtain ⟨hr, hactive⟩ := List.mem_filter.mp hr
    have htarget := (hkept _ _ hfind).2
    rw [hs] at htarget
    rw [Option.some.inj htarget]
    exact ⟨hfind, r, hr, by simp [hactive]⟩
  · rintro ⟨hfind, r, hr, hedge⟩
    rw [Bool.and_eq_true, beq_iff_eq] at hedge
    obtain ⟨hactive, rfl⟩ := hedge
    exact ⟨r, List.mem_filter.mpr ⟨hr, hactive⟩, hfind⟩

theorem orderedTargets_eq_nil {rows : List MemoryRelationship} :
    orderedTargets rows = [] ↔ rows = [] := by
  rw [orderedTargets, List.map_eq_nil_iff, ← List.length_eq_zero_iff, List.length_insertionSort,
    List.length_eq_zero_iff]

/-- No edge of either kind: the single reads have nothing. -/
theorem unlinked_iff {s k : Text} (hs : sanitizeKey k = some s) :
    Unlinked rels scope scopeId type k
      ↔ orderedTargets (rels.select fun r => activeEdge scope scopeId type r && r.sourceKey == s)
          = []
        ∧ (rels.rows.any fun r =>
          activeEdge scope scopeId (text "supersedes") r && r.targetKey == s) = false := by
  unfold Unlinked
  rw [hs, orderedTargets_eq_nil, Table.select, List.filter_eq_nil_iff, List.any_eq_false,
    ← forall₂_and]
  refine forall₂_congr fun r _ => ?_
  simp only [Bool.and_eq_true, beq_iff_eq, ne_eq, Option.some.injEq, not_and]

/-- For one key of the list: it was kept, or there is nothing to read. -/
theorem agrees_iff_kept {targets : Dict Text (List Text)} {hits : List Text} {s k : Text}
    (hs : sanitizeKey k = some s)
    (htargets : (targets.find k).getD [] = if originals.find s = some k then
      orderedTargets (rels.select fun r => activeEdge scope scopeId type r && r.sourceKey == s)
      else [])
    (hhits : k ∈ hits ↔ originals.find s = some k ∧ (rels.rows.any fun r =>
      activeEdge scope scopeId (text "supersedes") r && r.targetKey == s) = true) :
    (activeTargets rels scope scopeId k type = some ((targets.find k).getD [])
        ∧ isSuperseded rels scope scopeId k = some (decide (k ∈ hits)))
      ↔ originals.find s = some k ∨ Unlinked rels scope scopeId type k := by
  rw [unlinked_iff rels scope scopeId type hs, activeTargets, isSuperseded, hs, htargets,
    Option.map_some, Option.map_some, Option.some.injEq, Option.some.injEq]
  by_cases hfind : originals.find s = some k
  · rw [if_pos hfind]
    refine iff_of_true ⟨rfl, ?_⟩ (.inl hfind)
    rw [Bool.eq_iff_iff, decide_eq_true_eq, hhits]
    exact (and_iff_right hfind).symm
  · rw [if_neg hfind]
    have hmissed : k ∉ hits := fun h => hfind (hhits.mp h).1
    rw [decide_eq_false hmissed]
    exact (or_iff_right hfind).symm

/-- The batch reads agree with the single ones exactly where the list has no two spellings of a
key that an active edge of the type leaves, or a supersedes edge meets. -/
theorem batched_reads_agree_iff (hkeys : ∀ k ∈ keys, (sanitizeKey k).isSome = true) :
    BatchAgrees rels scope scopeId type keys
      ↔ ∀ k ∈ keys, ∀ k' ∈ keys, sanitizeKey k' = sanitizeKey k →
          k' = k ∨ Unlinked rels scope scopeId type k := by
  obtain ⟨originals, horiginals, hkept, hfound⟩ := sanitized_spec hkeys
  obtain ⟨targets, htargets, htargetsOf⟩ :=
    activeTargetsFor_spec rels scope scopeId type horiginals hkept
  obtain ⟨hits, hhits, hhitsOf⟩ := supersededTargets_spec rels scope scopeId horiginals hkept
  have hagrees : BatchAgrees rels scope scopeId type keys ↔ ∀ k ∈ keys, ∀ s,
      sanitizeKey k = some s → originals.find s = some k ∨ Unlinked rels scope scopeId type k := by
    unfold BatchAgrees
    rw [htargets, hhits]
    simp only [Option.some.injEq, exists_eq_left', ← forall₂_and]
    refine forall₂_congr fun k hk => ?_
    obtain ⟨s, hs⟩ := Option.isSome_iff_exists.mp (hkeys k hk)
    rw [agrees_iff_kept rels scope scopeId type hs (htargetsOf s k hs) (hhitsOf s k hs), hs]
    simp
  rw [hagrees]
  constructor
  · intro h k hk k' hk' hsame
    obtain ⟨s, hs⟩ := Option.isSome_iff_exists.mp (hkeys k hk)
    have hs' : sanitizeKey k' = some s := hsame.trans hs
    obtain hfind | hnone := h k hk s hs
    · obtain hfind' | hnone := h k' hk' s hs'
      · rw [hfind] at hfind'
        exact .inl (Option.some.inj hfind').symm
      · refine .inr ?_
        unfold Unlinked at hnone ⊢
        rwa [hsame] at hnone
    · exact .inr hnone
  · intro h k hk s hs
    obtain ⟨kept, hfind⟩ := hfound s k hk hs
    obtain ⟨hkept, hskept⟩ := hkept s kept hfind
    obtain rfl | hnone := h k hk kept hkept (hskept.trans hs.symm)
    · exact .inl hfind
    · exact .inr hnone

end Agree

/-- Two memories, one pointing at the other. -/
def oneEdge : MemoryRelationships :=
  Table.empty.insert
    { id := text "1", scope := text "global", scopeId := [], sourceKey := text "foo"
      targetKey := text "bar", type := text "relates_to", status := text "active", rank := none
      createdAt := none }

/-- Two keys, one of which has an edge. -/
theorem batched_reads_agree_iff_oneEdge :
    BatchAgrees oneEdge (text "global") none (text "relates_to") [text "foo", text "bar"]
      ↔ ∀ k ∈ [text "foo", text "bar"], ∀ k' ∈ [text "foo", text "bar"],
          sanitizeKey k' = sanitizeKey k →
            k' = k ∨ Unlinked oneEdge (text "global") none (text "relates_to") k :=
  batched_reads_agree_iff oneEdge (text "global") none (text "relates_to") (by decide)

/-- Two spellings of one key: the first is answered for alone, and not in the batch. -/
theorem first_spelling_unanswered :
    activeTargets oneEdge (text "global") none (text "Foo") (text "relates_to")
        = some [text "bar"]
      ∧ (activeTargetsFor oneEdge (text "global") none [text "Foo", text "foo"]
          (text "relates_to")).map (·.find (text "Foo")) = some none := by
  decide

end CliAgentOrchestrator.Memory
