import Mathlib.Data.List.TakeWhile
import Mathlib.Algebra.BigOperators.Group.List.Basic
import Mathlib.Algebra.GroupWithZero.Nat

/-!
# Lines of a growing text

A text is a list of symbols and a line is what stands before a separator; what follows the last
separator is no line yet. `Whole` texts end with a separator (or are empty): a text read up to a
`Whole` prefix can be read on from there (`lines_append`), and `numbered` gives each line the
place where it begins, so that the two halves of a text number their lines alike
(`numbered_append`).
-/

set_option autoImplicit false

namespace Library

variable {α : Type} [DecidableEq α] {sep : α}

/-- The lines of a text, without their separators and without an unfinished last one. -/
def lines (sep : α) : List α → List (List α)
  | [] => []
  | a :: rest =>
    if a = sep then [] :: lines sep rest
    else
      match lines sep rest with
      | [] => []
      | line :: more => (a :: line) :: more

/-- A text that ends where a line ends. -/
def Whole (sep : α) (text : List α) : Prop := ∀ a, text.getLast? = some a → a = sep

/-- The symbols that lines take up, separators included. -/
def extent (ls : List (List α)) : Nat := (ls.map fun line => line.length + 1).sum

/-- Each line with the place where it begins, the first at `start`. -/
def numbered (start : Nat) : List (List α) → List (Nat × List α)
  | [] => []
  | line :: rest => (start, line) :: numbered (start + line.length + 1) rest

/-- The text up to its last separator. -/
def upToLast (sep : α) (text : List α) : List α :=
  (text.reverse.dropWhile fun a => decide (a ≠ sep)).reverse

omit [DecidableEq α] in
theorem whole_nil : Whole sep [] := by
  intro a ha
  cases ha

omit [DecidableEq α] in
theorem Whole.tail {a : α} {rest : List α} (h : Whole sep (a :: rest)) : Whole sep rest := by
  intro b hb
  apply h b
  cases rest with
  | nil => cases hb
  | cons c rest => simpa using hb

omit [DecidableEq α] in
theorem Whole.drop {xs : List α} (h : Whole sep xs) (n : Nat) : Whole sep (xs.drop n) := by
  induction n generalizing xs with
  | zero => exact h
  | succ n ih =>
    cases xs with
    | nil => exact whole_nil
    | cons a rest => exact ih h.tail

omit [DecidableEq α] in
theorem Whole.append {xs ys : List α} (hx : Whole sep xs) (hy : Whole sep ys) :
    Whole sep (xs ++ ys) := by
  intro a ha
  rw [List.getLast?_append] at ha
  cases hlast : ys.getLast? with
  | none =>
    rw [hlast] at ha
    exact hx a (by simpa using ha)
  | some b =>
    rw [hlast] at ha
    obtain rfl : b = a := by simpa using ha
    exact hy b hlast

/-- A text without a separator has no line. -/
theorem lines_eq_nil_iff (text : List α) : lines sep text = [] ↔ sep ∉ text := by
  induction text with
  | nil => simp [lines]
  | cons a rest ih =>
    unfold lines
    by_cases ha : a = sep
    · simp [ha]
    · have hne : sep ≠ a := fun h => ha h.symm
      rw [if_neg ha]
      cases hrest : lines sep rest with
      | nil => simpa [hne] using ih.mp hrest
      | cons line more =>
        have hmem : sep ∈ rest := by
          by_contra hnot
          rw [ih.mpr hnot] at hrest
          cases hrest
        simp [hmem]

omit [DecidableEq α] in
theorem Whole.mem {text : List α} (h : Whole sep text) (hne : text ≠ []) : sep ∈ text := by
  have hlast := List.getLast?_eq_some_getLast hne
  have hsep := h _ hlast
  rw [← hsep]
  exact List.getLast_mem hne

/-- A line that has begun ends in a whole text. -/
theorem Whole.lines_tail {a : α} {rest : List α} (h : Whole sep (a :: rest)) (ha : a ≠ sep) :
    ∃ line more, lines sep rest = line :: more := by
  have hrest : rest ≠ [] := by
    rintro rfl
    exact ha (h a rfl)
  have hline : lines sep rest ≠ [] := by
    rw [Ne, lines_eq_nil_iff, not_not]
    exact h.tail.mem hrest
  exact List.exists_cons_of_ne_nil hline

/-- What follows a whole text is read on its own. -/
theorem lines_append {xs : List α} (h : Whole sep xs) (ys : List α) :
    lines sep (xs ++ ys) = lines sep xs ++ lines sep ys := by
  induction xs with
  | nil => rfl
  | cons a rest ih =>
    have ih := ih h.tail
    by_cases ha : a = sep
    · simp only [List.cons_append, lines, if_pos ha, ih]
    · obtain ⟨line, more, hlines⟩ := h.lines_tail ha
      simp only [List.cons_append, lines, if_neg ha, ih, hlines]

/-- A whole text is nothing but its lines. -/
theorem extent_lines {xs : List α} (h : Whole sep xs) : extent (lines sep xs) = xs.length := by
  induction xs with
  | nil => rfl
  | cons a rest ih =>
    have ih := ih h.tail
    by_cases ha : a = sep
    · simp only [lines, if_pos ha, extent, List.map_cons, List.sum_cons, List.length_nil,
        List.length_cons] at ih ⊢
      omega
    · obtain ⟨line, more, hlines⟩ := h.lines_tail ha
      simp only [lines, if_neg ha, hlines, extent, List.map_cons, List.sum_cons,
        List.length_cons] at ih ⊢
      omega

omit [DecidableEq α] in
theorem numbered_append (start : Nat) (xs ys : List (List α)) :
    numbered start (xs ++ ys) = numbered start xs ++ numbered (start + extent xs) ys := by
  induction xs generalizing start with
  | nil => simp [numbered, extent]
  | cons line rest ih =>
    have hextent : start + extent (line :: rest) = start + line.length + 1 + extent rest := by
      simp only [extent, List.map_cons, List.sum_cons]
      omega
    simp only [List.cons_append, numbered, ih, hextent]

omit [DecidableEq α] in
theorem length_numbered (start : Nat) (ls : List (List α)) :
    (numbered start ls).length = ls.length := by
  induction ls generalizing start with
  | nil => rfl
  | cons line rest ih => simp [numbered, ih]

/-! ## Up to the last separator -/

theorem upToLast_split (sep : α) (text : List α) :
    ∃ tail, text = upToLast sep text ++ tail ∧ sep ∉ tail := by
  refine ⟨(text.reverse.takeWhile fun a => decide (a ≠ sep)).reverse, ?_, ?_⟩
  · have hsplit := List.takeWhile_append_dropWhile (p := fun a => decide (a ≠ sep))
      (l := text.reverse)
    have hreverse := congrArg List.reverse hsplit
    rw [List.reverse_append, List.reverse_reverse] at hreverse
    exact hreverse.symm
  · intro hmem
    have htaken := List.mem_takeWhile_imp (List.mem_reverse.mp hmem)
    simp at htaken

theorem upToLast_prefixOf (sep : α) (text : List α) : upToLast sep text <+: text := by
  obtain ⟨tail, hsplit, -⟩ := upToLast_split sep text
  exact ⟨tail, hsplit.symm⟩

theorem whole_upToLast (sep : α) (text : List α) : Whole sep (upToLast sep text) := by
  intro a ha
  unfold upToLast at ha
  rw [List.getLast?_reverse] at ha
  have hhead := List.head?_dropWhile_not (fun a => decide (a ≠ sep)) text.reverse
  rw [ha] at hhead
  simpa using hhead

/-- A text with a separator has something up to the last one. -/
theorem upToLast_ne_nil {text : List α} (h : sep ∈ text) : upToLast sep text ≠ [] := by
  intro hnil
  obtain ⟨tail, hsplit, htail⟩ := upToLast_split sep text
  rw [hnil, List.nil_append] at hsplit
  exact htail (hsplit ▸ h)

end Library
