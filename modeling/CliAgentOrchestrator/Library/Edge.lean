import CliAgentOrchestrator.Library.Machine

/-!
# Edges

A signal holds a level or nothing, and every label leaves it alone, drops it or sets it to a
level. A label is an edge when it sets a level other than the one held, so a stretch of labels
that set no other level and drop none has one edge at most: its first setter.
-/

set_option autoImplicit false

namespace Library

namespace Edge

/-- What a label does to the signal: nothing, or write. -/
abbrev Writes (α κ : Type) := α → Option (Option κ)

variable {α κ : Type} (writes : Writes α κ)

/-- The level behind a label. -/
def next (m : Option κ) (a : α) : Option κ := (writes a).getD m

/-- The level behind a list of labels. -/
def level (m : Option κ) (xs : List α) : Option κ := run (next writes) m xs

variable [DecidableEq κ]

/-- The label, when it is an edge. -/
def edge (m : Option κ) (a : α) : Option α :=
  match writes a with
  | some (some k) => if m = some k then none else some a
  | _ => none

def edges (m : Option κ) (xs : List α) : List α := observed (next writes) (edge writes) m xs

/-- Nothing in the list drops the signal or sets it to another level. -/
def Stretch (k : κ) (xs : List α) : Prop :=
  ∀ a ∈ xs, writes a = none ∨ writes a = some (some k)

instance (k : κ) (xs : List α) : Decidable (Stretch writes k xs) :=
  inferInstanceAs (Decidable (∀ a ∈ xs, _))

variable {writes} {m : Option κ} {k : κ} {xs : List α}

theorem edges_cons (a : α) (rest : List α) :
    edges writes m (a :: rest) =
      (edge writes m a).toList ++ edges writes (next writes m a) rest := rfl

/-- With its level held, a stretch has no edge. -/
theorem edges_held (h : Stretch writes k xs) : edges writes (some k) xs = [] := by
  induction xs with
  | nil => rfl
  | cons a rest ih =>
    have hrest := ih fun b hb => h b (List.mem_cons_of_mem a hb)
    rw [edges_cons]
    obtain hwrite | hwrite := h a List.mem_cons_self
    · simpa [edge, next, hwrite] using hrest
    · simpa [edge, next, hwrite] using hrest

/-- With another level held or none, its first setter is the one edge of a stretch. -/
theorem edges_stretch (hm : m ≠ some k) (h : Stretch writes k xs) :
    edges writes m xs = (xs.find? fun a => (writes a).isSome).toList := by
  induction xs with
  | nil => rfl
  | cons a rest ih =>
    have hrest : Stretch writes k rest := fun b hb => h b (List.mem_cons_of_mem a hb)
    rw [edges_cons, List.find?_cons]
    obtain hwrite | hwrite := h a List.mem_cons_self
    · simpa [edge, next, hwrite] using ih hrest
    · simpa [edge, next, hwrite, hm] using edges_held hrest

end Edge

end Library
