import Mathlib.Algebra.Order.Ring.Int

/-!
# Versioned rows

A row with a version that goes up whenever the row changes: what was read earlier is no newer than
what is there now, and equal versions mean equal rows. That is all a conditional write
`WHERE row_version = ?` relies on.
-/

set_option autoImplicit false

namespace Library

variable {ρ : Type} {version : ρ → Int} {a b c : ρ}

/-- `b` is what became of `a` under versioned writes. -/
def Seen (version : ρ → Int) (a b : ρ) : Prop :=
  version a ≤ version b ∧ (version a = version b → a = b)

theorem Seen.refl (version : ρ → Int) (a : ρ) : Seen version a a := ⟨Int.le_refl _, fun _ => rfl⟩

/-- A write that bumps the version. -/
theorem seen_of_lt (h : version a < version b) : Seen version a b :=
  ⟨Int.le_of_lt h, fun heq => absurd h (by omega)⟩

theorem Seen.trans (hab : Seen version a b) (hbc : Seen version b c) : Seen version a c := by
  refine ⟨Int.le_trans hab.1 hbc.1, ?_⟩
  intro heq
  have hle := hab.1
  have hle' := hbc.1
  have hab' : a = b := hab.2 (by omega)
  have hbc' : b = c := hbc.2 (by omega)
  exact hab'.trans hbc'

/-- A write that is conditional on the version read finds the row that was read. -/
theorem Seen.eq (h : Seen version a b) (heq : version b = version a) : a = b := h.2 heq.symm

end Library
