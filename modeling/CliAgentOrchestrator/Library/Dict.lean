import CliAgentOrchestrator.Library.Table
import Mathlib.Data.List.Induction

/-!
# Dictionaries

A `Dict` is a table of pairs under their first part. `find` reads a key, `assign` is the item
assignment, `pop` removes a key that may be absent. A comprehension keeps the last value of a key
(`find_ofList`), and rows collected under their keys are the rows with that key, in order
(`find_group`).
-/

set_option autoImplicit false

namespace Library

/-- Keys with their values, in insertion order, no key twice. -/
abbrev Dict (κ β : Type) := Table (Prod.fst : κ × β → κ)

namespace Dict

variable {κ β : Type} [DecidableEq κ]

/-- The value under a key. -/
def find (d : Dict κ β) (k : κ) : Option β := (d.get k).map Prod.snd

/-- `d[k] = v`. -/
def assign (d : Dict κ β) (k : κ) (v : β) : Dict κ β :=
  d.upsert (k, v) ⟨fun e => (e.1, v), fun _ => rfl⟩

/-- `d.pop(k, None)`. -/
def pop (d : Dict κ β) (k : κ) : Dict κ β := d.deleteKey k

@[simp] theorem find_empty (k : κ) : find (Table.empty : Dict κ β) k = none := rfl

theorem find_eq_some_iff {d : Dict κ β} {k : κ} {v : β} :
    d.find k = some v ↔ (k, v) ∈ d.rows := by
  rw [find, Option.map_eq_some_iff]
  constructor
  · rintro ⟨⟨key, value⟩, hget, rfl⟩
    obtain ⟨hmem, rfl⟩ := (d.get_eq_some_iff k _).mp hget
    exact hmem
  · intro hmem
    exact ⟨(k, v), (d.get_eq_some_iff k _).mpr ⟨hmem, rfl⟩, rfl⟩

@[simp] theorem find_assign (d : Dict κ β) (k j : κ) (v : β) :
    (d.assign k v).find j = if j = k then some v else d.find j := by
  rw [find, assign, Table.get_upsert]
  by_cases hj : j = k
  · subst hj
    cases d.get j <;> simp
  · simp [hj, find]

@[simp] theorem find_pop (d : Dict κ β) (k j : κ) :
    (d.pop k).find j = if j = k then none else d.find j := by
  rw [find, pop, Table.get_deleteKey]
  by_cases hj : j = k <;> simp [hj, find]

/-- Where a dictionary holds its values under a key of theirs, an assignment to a free one adds the
value. -/
theorem find_assign_own (key : β → κ) {d : Dict κ β} {v : β} (hfree : d.find (key v) = none)
    (w : β) : (d.assign (key v) v).find (key w) = some w ↔ w = v ∨ d.find (key w) = some w := by
  rw [find_assign]
  by_cases hsame : key w = key v
  · rw [if_pos hsame, hsame, hfree]
    simp [eq_comm]
  · simp [hsame, ne_of_apply_ne key hsame]

/-- And a removal takes it out. -/
theorem find_pop_own (key : β → κ) {d : Dict κ β} {v : β} (hheld : d.find (key v) = some v)
    (w : β) : (d.pop (key v)).find (key w) = some w ↔ d.find (key w) = some w ∧ w ≠ v := by
  rw [find_pop]
  by_cases hsame : key w = key v
  · rw [if_pos hsame, hsame, hheld]
    simp [eq_comm]
  · simp [hsame, ne_of_apply_ne key hsame]

theorem forall_assign {P : κ → β → Prop} {d : Dict κ β} {k : κ} {v : β}
    (hd : ∀ j w, d.find j = some w → P j w) (hk : P k v) :
    ∀ j w, (d.assign k v).find j = some w → P j w := by
  intro j w hw
  rw [find_assign] at hw
  split at hw
  · next hj =>
    cases hw
    rw [hj]
    exact hk
  · exact hd j w hw

theorem forall_pop {P : κ → β → Prop} {d : Dict κ β} (hd : ∀ j w, d.find j = some w → P j w)
    (k : κ) : ∀ j w, (d.pop k).find j = some w → P j w := by
  intro j w hw
  rw [find_pop] at hw
  split at hw
  · cases hw
  · exact hd j w hw

/-- The same keys with other values. -/
def mapValues {γ : Type} (d : Dict κ β) (f : β → γ) : Dict κ γ where
  rows := d.rows.map fun e => (e.1, f e.2)
  unique := by
    rw [List.map_map]
    exact d.unique

@[simp] theorem find_mapValues {γ : Type} (d : Dict κ β) (f : β → γ) (k : κ) :
    (d.mapValues f).find k = (d.find k).map f := by
  simp only [find, Table.get, mapValues, List.find?_map, Option.map_map]
  rfl

/-! ## Built from a list -/

/-- `{k: v for k, v in pairs}`. -/
def ofList (pairs : List (κ × β)) : Dict κ β :=
  pairs.foldl (fun d e => d.assign e.1 e.2) Table.empty

/-- The last pair with a key gives its value. -/
theorem find_ofList (pairs : List (κ × β)) (k : κ) :
    (ofList pairs).find k = ((pairs.filter fun e => e.1 = k).getLast?).map Prod.snd := by
  induction pairs using List.reverseRecOn with
  | nil => rfl
  | append_singleton pairs e ih =>
    rw [ofList, List.foldl_append, List.foldl_cons, List.foldl_nil, find_assign,
      List.filter_append]
    by_cases hk : k = e.1
    · rw [if_pos hk, List.filter_cons_of_pos (by simp [hk]), List.filter_nil,
        List.getLast?_concat]
      rfl
    · rw [if_neg hk, List.filter_cons_of_neg (by simpa using Ne.symm hk), List.filter_nil,
        List.append_nil]
      exact ih

/-- The rows that have a key collected under it, `d.setdefault(key(r), []).append(r)`. -/
def group {ρ : Type} (key : ρ → Option κ) (rows : List ρ) : Dict κ (List ρ) :=
  rows.foldl (fun d r =>
    match key r with
    | none => d
    | some k => d.assign k ((d.find k).getD [] ++ [r])) Table.empty

theorem find_group {ρ : Type} (key : ρ → Option κ) (rows : List ρ) (k : κ) :
    ((group key rows).find k).getD [] = rows.filter fun r => key r = some k := by
  induction rows using List.reverseRecOn with
  | nil => rfl
  | append_singleton rows r ih =>
    rw [group, List.foldl_append, List.foldl_cons, List.foldl_nil, List.filter_append]
    change ((match key r with
      | none => group key rows
      | some j => (group key rows).assign j (((group key rows).find j).getD [] ++ [r])).find
        k).getD [] = _
    cases hkey : key r with
    | none =>
      rw [List.filter_cons_of_neg (by simp [hkey]), List.filter_nil, List.append_nil]
      exact ih
    | some j =>
      dsimp only
      rw [find_assign]
      by_cases hk : k = j
      · subst hk
        rw [if_pos rfl, Option.getD_some, ih, List.filter_cons_of_pos (by simp [hkey]),
          List.filter_nil]
      · have hother : key r ≠ some k := by
          rw [hkey]
          exact fun h => hk (Option.some.inj h).symm
        rw [if_neg hk, List.filter_cons_of_neg (by simpa using hother), List.filter_nil,
          List.append_nil]
        exact ih

end Dict

end Library
