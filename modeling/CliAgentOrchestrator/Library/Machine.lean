import Mathlib.Algebra.Order.Ring.Int

/-!
# Runs of a machine

A machine is a function `exec : σ → α → σ`; what the environment decides (which caller
moves, what the clock reads, which call fails) is part of the label `α`, so the lists of
labels are exactly the interleavings. `run` takes a whole list.

The rules are the ones every module uses: an invariant kept by each step is kept by each
run (`run_invariant`), a property a step keeps exactly under a condition holds throughout
exactly the runs that meet it (`forall_states_iff`), a preorder respected by each step relates
the ends of a run (`run_rel`), `observed` lists what the steps of a run report, which one machine
shares with another that it simulates (`observed_simulation`), and `StepsSatisfy` carries a
condition on them. A `Walk` is the counterpart for a relation: it reads a list of labels as the
account of how one state became another.
-/

set_option autoImplicit false

namespace Library

variable {σ α : Type}

/-- The state after a list of steps. -/
def run (exec : σ → α → σ) (s : σ) (steps : List α) : σ := steps.foldl exec s

/-- Every step of the run meets `P` in the state it is taken from. -/
def StepsSatisfy (exec : σ → α → σ) (P : σ → α → Prop) : σ → List α → Prop
  | _, [] => True
  | s, a :: rest => P s a ∧ StepsSatisfy exec P (exec s a) rest

/-- What `obs` reports of the steps of a run, in order. -/
def observed {β : Type} (exec : σ → α → σ) (obs : σ → α → Option β) : σ → List α → List β
  | _, [] => []
  | s, a :: rest => (obs s a).toList ++ observed exec obs (exec s a) rest

variable {exec : σ → α → σ}

instance decidableStepsSatisfy (P : σ → α → Prop) [∀ s a, Decidable (P s a)] :
    ∀ s steps, Decidable (StepsSatisfy exec P s steps)
  | _, [] => inferInstanceAs (Decidable True)
  | s, a :: rest =>
    have := decidableStepsSatisfy P (exec s a) rest
    inferInstanceAs (Decidable (P s a ∧ StepsSatisfy exec P (exec s a) rest))

@[simp] theorem run_nil (s : σ) : run exec s [] = s := rfl

@[simp] theorem run_cons (s : σ) (a : α) (rest : List α) :
    run exec s (a :: rest) = run exec (exec s a) rest := rfl

theorem run_append (s : σ) (xs ys : List α) :
    run exec s (xs ++ ys) = run exec (run exec s xs) ys := by
  simp [run, List.foldl_append]

@[simp] theorem run_singleton (s : σ) (a : α) : run exec s [a] = exec s a := rfl

theorem run_concat (s : σ) (xs : List α) (a : α) :
    run exec s (xs ++ [a]) = exec (run exec s xs) a := by
  rw [run_append, run_singleton]

/-- What every step keeps, every run keeps. -/
theorem run_invariant (I : σ → Prop) (hstep : ∀ s a, I s → I (exec s a)) (s : σ) (hs : I s)
    (steps : List α) : I (run exec s steps) := by
  induction steps generalizing s with
  | nil => exact hs
  | cons a rest ih => exact ih (exec s a) (hstep s a hs)

/-- What every step that meets `P` keeps, every run of such steps keeps. -/
theorem run_invariant_of (P : σ → α → Prop) (I : σ → Prop)
    (hstep : ∀ s a, P s a → I s → I (exec s a)) (s : σ) (hs : I s) (steps : List α)
    (h : StepsSatisfy exec P s steps) : I (run exec s steps) := by
  induction steps generalizing s with
  | nil => exact hs
  | cons a rest ih => exact ih (exec s a) (hstep s a h.1 hs) h.2

/-- A condition that does not look at the state is a condition on the labels. -/
theorem stepsSatisfy_of_forall (P : σ → α → Prop) (s : σ) (steps : List α)
    (h : ∀ a ∈ steps, ∀ s, P s a) : StepsSatisfy exec P s steps := by
  induction steps generalizing s with
  | nil => trivial
  | cons a rest ih =>
    exact ⟨h a (by simp) s, ih (exec s a) fun b hb => h b (by simp [hb])⟩

theorem stepsSatisfy_append (P : σ → α → Prop) (s : σ) (xs ys : List α) :
    StepsSatisfy exec P s (xs ++ ys) ↔
      StepsSatisfy exec P s xs ∧ StepsSatisfy exec P (run exec s xs) ys := by
  induction xs generalizing s with
  | nil => simp [StepsSatisfy]
  | cons a xs ih => simp [StepsSatisfy, ih, and_assoc]

/-- A condition on the steps of a run, spelled out over its prefixes. -/
theorem stepsSatisfy_iff (P : σ → α → Prop) (s : σ) (steps : List α) :
    StepsSatisfy exec P s steps ↔
      ∀ before a after, steps = before ++ a :: after → P (run exec s before) a := by
  constructor
  · rintro h before a after rfl
    rw [stepsSatisfy_append] at h
    exact h.2.1
  · intro h
    induction steps generalizing s with
    | nil => trivial
    | cons a rest ih =>
      refine ⟨h [] a rest rfl, ih (exec s a) ?_⟩
      rintro before b after rfl
      exact h (a :: before) b after rfl

/-- In a run whose steps all meet `F`, a property that such a step keeps exactly when it meets `P`
holds in every state exactly when every step meets `P`; `I` is what every step keeps. -/
theorem forall_states_iff_of (F P : σ → α → Prop) (I J : σ → Prop)
    (hI : ∀ s a, F s a → I s → I (exec s a))
    (hJ : ∀ s a, F s a → I s → J s → (J (exec s a) ↔ P s a)) (s : σ) (hs : I s) (hstart : J s)
    (steps : List α) (hF : StepsSatisfy exec F s steps) :
    (∀ before after, steps = before ++ after → J (run exec s before)) ↔
      StepsSatisfy exec P s steps := by
  induction steps generalizing s with
  | nil =>
    refine ⟨fun _ => trivial, ?_⟩
    rintro - before after heq
    obtain ⟨rfl, -⟩ := List.append_eq_nil_iff.mp heq.symm
    exact hstart
  | cons a rest ih =>
    obtain ⟨hFa, hFrest⟩ := hF
    constructor
    · intro h
      have hnext : J (exec s a) := h [a] rest rfl
      refine ⟨(hJ s a hFa hs hstart).mp hnext,
        (ih (exec s a) (hI s a hFa hs) hnext hFrest).mp ?_⟩
      rintro before after rfl
      exact h (a :: before) after rfl
    · rintro ⟨hstep, hrest⟩ before after heq
      have hnext : J (exec s a) := (hJ s a hFa hs hstart).mpr hstep
      cases before with
      | nil => exact hstart
      | cons b before =>
        cases heq
        exact (ih (exec s a) (hI s a hFa hs) hnext hFrest).mpr hrest before after rfl

/-- A property that a step keeps exactly when it meets `P` holds in every state of exactly the
runs whose steps all meet `P`; `I` is what every step keeps. -/
theorem forall_states_iff (P : σ → α → Prop) (I J : σ → Prop)
    (hI : ∀ s a, I s → I (exec s a)) (hJ : ∀ s a, I s → J s → (J (exec s a) ↔ P s a)) (s : σ)
    (hs : I s) (hstart : J s) (steps : List α) :
    (∀ before after, steps = before ++ after → J (run exec s before)) ↔
      StepsSatisfy exec P s steps :=
  forall_states_iff_of (fun _ _ => True) P I J (fun s a _ => hI s a) (fun s a _ => hJ s a) s hs
    hstart steps (stepsSatisfy_of_forall _ s steps fun _ _ _ => trivial)

/-- Related by every step, the ends of a run are related. -/
theorem run_rel (R : σ → σ → Prop) (hrefl : ∀ s, R s s)
    (htrans : ∀ a b c, R a b → R b c → R a c) (hstep : ∀ s a, R s (exec s a)) (s : σ)
    (steps : List α) : R s (run exec s steps) := by
  induction steps generalizing s with
  | nil => exact hrefl s
  | cons a rest ih => exact htrans _ _ _ (hstep s a) (ih (exec s a))

theorem observed_append {β : Type} (obs : σ → α → Option β) (s : σ) (xs ys : List α) :
    observed exec obs s (xs ++ ys) =
      observed exec obs s xs ++ observed exec obs (run exec s xs) ys := by
  induction xs generalizing s with
  | nil => simp [observed]
  | cons a xs ih => simp [observed, ih, List.append_assoc]

theorem observed_concat {β : Type} (obs : σ → α → Option β) (s : σ) (xs : List α) (a : α) :
    observed exec obs s (xs ++ [a]) =
      observed exec obs s xs ++ (obs (run exec s xs) a).toList := by
  rw [observed_append]
  simp [observed]

/-- What is observed was reported by one step of the run, in the state that step was taken
from. -/
theorem mem_observed {β : Type} {obs : σ → α → Option β} {s : σ} {steps : List α} {b : β}
    (h : b ∈ observed exec obs s steps) :
    ∃ before a after, steps = before ++ a :: after ∧ obs (run exec s before) a = some b := by
  induction steps generalizing s with
  | nil => cases h
  | cons a rest ih =>
    obtain hnow | hlater := List.mem_append.mp h
    · exact ⟨[], a, rest, rfl, by simpa using hnow⟩
    · obtain ⟨before, a', after, rfl, hobs⟩ := ih hlater
      exact ⟨a :: before, a', after, rfl, hobs⟩

/-! ## Simulation -/

/-- A machine whose steps are steps of another one under their labels, or go unseen there and are
silent, reports what the other one reports. -/
theorem observed_simulation {τ β γ : Type} {exec' : τ → β → τ} {obs : σ → α → Option γ}
    {obs' : τ → β → Option γ} (R : σ → τ → Prop) (label : α → Option β)
    (hunseen : ∀ s t a, label a = none → R s t → obs s a = none ∧ R (exec s a) t)
    (hstep : ∀ s t a b, label a = some b → R s t →
      obs s a = obs' t b ∧ R (exec s a) (exec' t b))
    {s : σ} {t : τ} (h : R s t) (steps : List α) :
    observed exec obs s steps = observed exec' obs' t (steps.filterMap label) := by
  induction steps generalizing s t with
  | nil => rfl
  | cons a rest ih =>
    cases hlabel : label a with
    | none =>
      obtain ⟨hsilent, hnext⟩ := hunseen s t a hlabel h
      rw [List.filterMap_cons_none hlabel, ← ih hnext, observed, hsilent]
      rfl
    | some b =>
      obtain ⟨hsame, hnext⟩ := hstep s t a b hlabel h
      rw [List.filterMap_cons_some hlabel, observed, observed, hsame, ih hnext]

/-! ## Walks -/

/-- The labels lead from `s` to `t`, each by `R`. -/
def Walk (R : σ → α → σ → Prop) : σ → List α → σ → Prop
  | s, [], t => s = t
  | s, a :: rest, t => ∃ u, R s a u ∧ Walk R u rest t

theorem walk_append {R : σ → α → σ → Prop} (s : σ) (xs ys : List α) (t : σ) :
    Walk R s (xs ++ ys) t ↔ ∃ u, Walk R s xs u ∧ Walk R u ys t := by
  induction xs generalizing s with
  | nil => simp [Walk]
  | cons a xs ih =>
    simp only [List.cons_append, Walk, ih]
    constructor
    · rintro ⟨v, hv, u, hu, ht⟩
      exact ⟨u, ⟨v, hv, hu⟩, ht⟩
    · rintro ⟨u, ⟨v, hv, hu⟩, ht⟩
      exact ⟨v, hv, u, hu, ht⟩

theorem Walk.concat {R : σ → α → σ → Prop} {s t u : σ} {xs : List α} {a : α}
    (h : Walk R s xs t) (ha : R t a u) : Walk R s (xs ++ [a]) u :=
  (walk_append s xs [a] u).mpr ⟨t, h, u, ha, rfl⟩

/-- Where a label leads to one state at most, so does a walk. -/
theorem Walk.unique {R : σ → α → σ → Prop} (hR : ∀ s a t t', R s a t → R s a t' → t = t')
    {s t t' : σ} {xs : List α} (h : Walk R s xs t) (h' : Walk R s xs t') : t = t' := by
  induction xs generalizing s with
  | nil => exact h.symm.trans h'
  | cons a xs ih =>
    obtain ⟨u, hu, h⟩ := h
    obtain ⟨u', hu', h'⟩ := h'
    obtain rfl := hR s a u u' hu hu'
    exact ih h h'

end Library
