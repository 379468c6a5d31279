import Mathlib.Data.List.Sort

/-!
# Keyed tables

A `Table` is a list of rows in insertion order together with the proof that no two rows
share a key: the primary-key constraint is a field, so a table that breaks it cannot be
built. A `Patch` is the SET clause of an UPDATE that does not name the key.

Everything is read back through `get`: each operation has one lemma that says what `get`
answers afterwards (`get_insert`, `get_update`, `get_upsert`, `get_delete`), and a loop that
patches one key at a time has two (`get_updateEach_of_mem`, `get_updateEach_of_notMem`).
-/

set_option autoImplicit false

namespace Library

/-- Rows in insertion order, no two with the same key. -/
structure Table {ρ κ : Type} (key : ρ → κ) where
  rows : List ρ
  unique : (rows.map key).Nodup

/-- A change of a row that keeps its key. -/
structure Patch {ρ κ : Type} (key : ρ → κ) where
  apply : ρ → ρ
  keeps : ∀ r, key (apply r) = key r

namespace Table

variable {ρ κ : Type} {key : ρ → κ}

/-- The table without rows. -/
def empty : Table key := ⟨[], by simp⟩

instance : Inhabited (Table key) := ⟨empty⟩

/-- The rows a WHERE clause selects, in insertion order. -/
def select (t : Table key) (p : ρ → Bool) : List ρ := t.rows.filter p

/-- UPDATE … SET `f` WHERE `p`. -/
def update (t : Table key) (p : ρ → Bool) (f : Patch key) : Table key where
  rows := t.rows.map fun r => if p r then f.apply r else r
  unique := by
    have hkey : (key ∘ fun r => if p r then f.apply r else r) = key := by
      funext r
      by_cases hp : p r <;> simp [hp, f.keeps]
    rw [List.map_map, hkey]
    exact t.unique

/-- DELETE … WHERE `p`. -/
def delete (t : Table key) (p : ρ → Bool) : Table key where
  rows := t.rows.filter fun r => !p r
  unique := t.unique.sublist (List.filter_sublist.map key)

variable [DecidableEq κ]

/-- The row under a key. -/
def get (t : Table key) (k : κ) : Option ρ := t.rows.find? fun r => key r = k

/-- INSERT … ON CONFLICT(key) DO NOTHING. -/
def insert (t : Table key) (r : ρ) : Table key :=
  if h : (t.get (key r)).isSome then t
  else
    { rows := t.rows ++ [r]
      unique := by
        simp only [get, List.find?_isSome, decide_eq_true_eq, not_exists, not_and] at h
        rw [List.map_append, List.map_singleton, List.nodup_append]
        refine ⟨t.unique, by simp, ?_⟩
        intro a ha b hb
        obtain ⟨x, hx, rfl⟩ := List.mem_map.mp ha
        rw [List.mem_singleton.mp hb]
        exact h x hx }

/-- UPDATE … SET `f` WHERE key = `k` AND `p`. -/
def updateKey (t : Table key) (k : κ) (p : ρ → Bool) (f : Patch key) : Table key :=
  t.update (fun r => decide (key r = k) && p r) f

/-- INSERT … ON CONFLICT(key) DO UPDATE SET `f`. -/
def upsert (t : Table key) (r : ρ) (f : Patch key) : Table key :=
  if (t.get (key r)).isSome then t.updateKey (key r) (fun _ => true) f else t.insert r

/-- DELETE … WHERE key = `k`. -/
def deleteKey (t : Table key) (k : κ) : Table key := t.delete fun r => key r = k

/-! ## What `get` answers -/

theorem get_eq_some_iff (t : Table key) (k : κ) (r : ρ) :
    t.get k = some r ↔ r ∈ t.rows ∧ key r = k := by
  constructor
  · intro h
    exact ⟨List.mem_of_find?_eq_some h, by simpa using List.find?_some h⟩
  · rintro ⟨hr, rfl⟩
    unfold get
    cases hf : t.rows.find? fun x => key x = key r with
    | none =>
      have := List.find?_eq_none.mp hf r hr
      simp at this
    | some x =>
      have hx : x ∈ t.rows := List.mem_of_find?_eq_some hf
      have hk : key x = key r := by simpa using List.find?_some hf
      rw [List.inj_on_of_nodup_map t.unique hx hr hk]

omit [DecidableEq κ] in
/-- A table is its rows. -/
theorem eq_of_rows {t t' : Table key} (h : t.rows = t'.rows) : t = t' := by
  cases t
  cases t'
  cases h
  rfl

theorem mem_rows_iff (t : Table key) (r : ρ) : r ∈ t.rows ↔ t.get (key r) = some r := by
  simp [get_eq_some_iff]

theorem mem_of_get {t : Table key} {k : κ} {r : ρ} (h : t.get k = some r) : r ∈ t.rows :=
  ((t.get_eq_some_iff k r).mp h).1

theorem key_of_get {t : Table key} {k : κ} {r : ρ} (h : t.get k = some r) : key r = k :=
  ((t.get_eq_some_iff k r).mp h).2

theorem get_eq_none_iff (t : Table key) (k : κ) : t.get k = none ↔ ∀ r ∈ t.rows, key r ≠ k := by
  simp [get]

theorem mem_select_iff (t : Table key) (p : ρ → Bool) (r : ρ) :
    r ∈ t.select p ↔ t.get (key r) = some r ∧ p r = true := by
  simp [select, mem_rows_iff]

omit [DecidableEq κ] in
theorem select_nodup (t : Table key) (p : ρ → Bool) : ((t.select p).map key).Nodup :=
  t.unique.sublist (List.filter_sublist.map key)

@[simp] theorem get_empty (k : κ) : (empty : Table key).get k = none := rfl

/-- An insert adds its row when the key is free and changes nothing else. -/
theorem get_insert (t : Table key) (r : ρ) (k : κ) :
    (t.insert r).get k = (t.get k).or (if key r = k then some r else none) := by
  unfold insert
  split
  · next h =>
    by_cases hk : key r = k
    · subst hk
      obtain ⟨x, hx⟩ := Option.isSome_iff_exists.mp h
      simp [hx]
    · simp [hk]
  · simp [get, List.find?_append, List.find?_cons]
    by_cases hk : key r = k <;> simp [hk]

theorem rows_insert {t : Table key} {r : ρ} (h : t.get (key r) = none) :
    (t.insert r).rows = t.rows ++ [r] := by
  unfold insert
  rw [dif_neg (by simp [h])]

theorem get_update (t : Table key) (p : ρ → Bool) (f : Patch key) (k : κ) :
    (t.update p f).get k = (t.get k).map fun r => if p r then f.apply r else r := by
  have hkey : (fun r => decide (key (if p r then f.apply r else r) = k)) =
      fun r => decide (key r = k) := by
    funext r
    by_cases hp : p r <;> simp [hp, f.keeps]
  simp only [get, update, List.find?_map, Function.comp_def, hkey]

theorem get_delete (t : Table key) (p : ρ → Bool) (k : κ) :
    (t.delete p).get k = (t.get k).filter fun r => !p r := by
  ext r
  simp only [get_eq_some_iff, Option.filter_eq_some_iff, delete, List.mem_filter]
  constructor
  · rintro ⟨⟨hr, hp⟩, hk⟩
    exact ⟨⟨hr, hk⟩, hp⟩
  · rintro ⟨⟨hr, hk⟩, hp⟩
    exact ⟨⟨hr, hp⟩, hk⟩

theorem get_deleteKey (t : Table key) (k k' : κ) :
    (t.deleteKey k).get k' = if k' = k then none else t.get k' := by
  unfold deleteKey
  rw [get_delete]
  cases hr : t.get k' with
  | none => simp
  | some r => by_cases hk : k' = k <;> simp [Option.filter, key_of_get hr, hk]

theorem get_updateKey (t : Table key) (k k' : κ) (p : ρ → Bool) (f : Patch key) :
    (t.updateKey k p f).get k' =
      (t.get k').map fun r => if k' = k ∧ p r then f.apply r else r := by
  unfold updateKey
  rw [get_update]
  cases hr : t.get k' with
  | none => rfl
  | some r => simp [key_of_get hr]

/-- An upsert inserts its row or patches the one under its key, and touches no other. -/
theorem get_upsert (t : Table key) (r : ρ) (f : Patch key) (k : κ) :
    (t.upsert r f).get k =
      if k = key r then some (((t.get k).map f.apply).getD r) else t.get k := by
  unfold upsert
  split
  · next hheld =>
    obtain ⟨x, hx⟩ := Option.isSome_iff_exists.mp hheld
    rw [get_updateKey]
    by_cases hk : k = key r
    · subst hk
      simp [hx]
    · cases t.get k <;> simp [hk]
  · next hfree =>
    rw [Option.not_isSome_iff_eq_none] at hfree
    rw [get_insert]
    by_cases hk : k = key r
    · subst hk
      simp [hfree]
    · have hne : ¬ key r = k := fun h => hk h.symm
      simp [hk, hne]

/-! ## Integer keys -/

section IntKeys

variable {key : ρ → Int}

/-- MAX(key). -/
def maxKey (t : Table key) : Option Int := (t.rows.map key).max?

/-- The key an INSERT that names none gets. -/
def nextKey (t : Table key) : Int := t.maxKey.getD 0 + 1

theorem lt_nextKey {t : Table key} {r : ρ} (h : r ∈ t.rows) : key r < t.nextKey := by
  have hmem : key r ∈ t.rows.map key := List.mem_map_of_mem h
  unfold nextKey maxKey
  cases hmax : (t.rows.map key).max? with
  | none =>
    rw [List.max?_eq_none_iff] at hmax
    rw [hmax] at hmem
    cases hmem
  | some v =>
    have hle := (List.max?_eq_some_iff.mp hmax).2 _ hmem
    exact Int.lt_add_one_of_le hle

theorem get_nextKey (t : Table key) : t.get t.nextKey = none := by
  rw [get_eq_none_iff]
  intro r hr heq
  have hlt := lt_nextKey hr
  omega

/-- The first key is 1, and every key after it is positive. -/
theorem nextKey_pos {t : Table key} (hpos : ∀ r ∈ t.rows, 0 < key r) : 0 < t.nextKey := by
  unfold nextKey
  cases hmax : t.maxKey with
  | none => decide
  | some v =>
    obtain ⟨x, hx, rfl⟩ := List.mem_map.mp (List.max?_eq_some_iff.mp hmax).1
    have hv := hpos x hx
    show 0 < key x + 1
    omega

/-- A row inserted under the next key is read back under it, and nothing else changes. -/
theorem get_insert_nextKey (t : Table key) {r : ρ} (hr : key r = t.nextKey) (k : Int) :
    (t.insert r).get k = if k = t.nextKey then some r else t.get k := by
  rw [get_insert, hr]
  by_cases hk : k = t.nextKey
  · subst hk
    rw [get_nextKey]
    simp
  · have hne : ¬ t.nextKey = k := fun h => hk h.symm
    simp [hk, hne]

end IntKeys

/-! ## Loops of keyed updates -/

/-- One pass over `l`, each row patched under its own key. -/
def updateEach {α : Type} (t : Table key) (l : List α) (k : α → κ) (p : α → ρ → Bool)
    (f : α → Patch key) : Table key :=
  l.foldl (fun t a => t.updateKey (k a) (p a) (f a)) t

theorem get_updateEach_of_notMem {α : Type} (t : Table key) (l : List α) (k : α → κ)
    (p : α → ρ → Bool) (f : α → Patch key) (k' : κ) (h : ∀ a ∈ l, k a ≠ k') :
    (t.updateEach l k p f).get k' = t.get k' := by
  induction l generalizing t with
  | nil => rfl
  | cons a l ih =>
    have ha : ¬ k' = k a := fun he => h a (by simp) he.symm
    have hl : ∀ b ∈ l, k b ≠ k' := fun b hb => h b (by simp [hb])
    have := ih (t.updateKey (k a) (p a) (f a)) hl
    simp only [updateEach, List.foldl_cons] at this ⊢
    rw [this, get_updateKey]
    cases t.get k' <;> simp [ha]

theorem get_updateEach_of_mem {α : Type} (t : Table key) (l : List α) (k : α → κ)
    (p : α → ρ → Bool) (f : α → Patch key) (a : α) (ha : a ∈ l) (hl : (l.map k).Nodup) :
    (t.updateEach l k p f).get (k a) =
      (t.get (k a)).map fun r => if p a r then (f a).apply r else r := by
  induction l generalizing t with
  | nil => simp at ha
  | cons b l ih =>
    rw [List.map_cons, List.nodup_cons] at hl
    obtain ⟨hb, hl⟩ := hl
    have hstep : t.updateEach (b :: l) k p f =
        (t.updateKey (k b) (p b) (f b)).updateEach l k p f := rfl
    rw [hstep]
    rcases List.mem_cons.mp ha with rfl | ha
    · rw [get_updateEach_of_notMem, get_updateKey]
      · simp
      · intro c hc he
        exact hb (he ▸ List.mem_map_of_mem hc)
    · have hne : ¬ k a = k b := fun he => hb (he ▸ List.mem_map_of_mem ha)
      rw [ih _ ha hl, get_updateKey]
      cases t.get (k a) <;> simp [hne]

/-- A pass over rows the table holds patches exactly those rows. -/
theorem get_updateEach_rows [DecidableEq ρ] (t : Table key) (l : List ρ) (p : ρ → ρ → Bool)
    (f : ρ → Patch key) (hl : (l.map key).Nodup) (hmem : ∀ r ∈ l, t.get (key r) = some r)
    (k : κ) :
    (t.updateEach l key p f).get k =
      (t.get k).map fun r => if r ∈ l ∧ p r r then (f r).apply r else r := by
  by_cases h : ∃ a ∈ l, key a = k
  · obtain ⟨a, ha, rfl⟩ := h
    rw [get_updateEach_of_mem t l key p f a ha hl, hmem a ha]
    simp [ha]
  · have hne : ∀ a ∈ l, key a ≠ k := fun a ha he => h ⟨a, ha, he⟩
    rw [get_updateEach_of_notMem t l key p f k hne]
    cases hr : t.get k with
    | none => rfl
    | some r =>
      have hnot : r ∉ l := fun hrl => hne r hrl (key_of_get hr)
      simp [hnot]

end Table

end Library
