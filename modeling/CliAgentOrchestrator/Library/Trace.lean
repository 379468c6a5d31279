import CliAgentOrchestrator.Library.Machine

/-!
# Endless runs

A sequence of labels that never ends, and the states it passes through. What each step keeps
holds from then on (`trace_invariant`), and what a rank that cannot fall for ever makes room
for comes about (`exists_of_drops`).
-/

set_option autoImplicit false

namespace Library

variable {σ α : Type} {exec : σ → α → σ} {s : σ} {steps : Nat → α}

/-- The state after the first `n` labels. -/
def trace (exec : σ → α → σ) (s : σ) (steps : Nat → α) : Nat → σ
  | 0 => s
  | n + 1 => exec (trace exec s steps n) (steps n)

theorem trace_succ (n : Nat) :
    trace exec s steps (n + 1) = exec (trace exec s steps n) (steps n) := rfl

/-- What holds at some time and is kept by every step from then on holds at every later time. -/
theorem trace_invariant (I : σ → Prop) {m n : Nat} (hmn : m ≤ n)
    (hstep : ∀ k, m ≤ k → I (trace exec s steps k) → I (exec (trace exec s steps k) (steps k)))
    (hm : I (trace exec s steps m)) : I (trace exec s steps n) := by
  induction n, hmn using Nat.le_induction with
  | base => exact hm
  | succ n hmn ih => exact hstep n hmn ih

/-- Where every time is followed by one at which `Q` holds or the rank is lower, `Q` comes
about. -/
theorem exists_of_drops {Q : Nat → Prop} {rank : Nat → Nat} {start : Nat}
    (h : ∀ n, start ≤ n → ∃ m, n ≤ m ∧ (Q m ∨ rank m < rank n)) : ∃ m, start ≤ m ∧ Q m := by
  have hfrom : ∀ r n, start ≤ n → rank n = r → ∃ m, start ≤ m ∧ Q m := by
    intro r
    induction r using Nat.strong_induction_on with
    | _ r ih =>
      rintro n hn rfl
      obtain ⟨m, hnm, hQ | hdrop⟩ := h n hn
      · exact ⟨m, hn.trans hnm, hQ⟩
      · exact ih (rank m) hdrop m (hn.trans hnm) rfl
  exact hfrom (rank start) start le_rfl rfl

end Library
