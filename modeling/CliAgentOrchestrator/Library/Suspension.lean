import Mathlib.Tactic.Common

/-!
# A slot that holders suspend

A slot has a state. A holder that enters puts the slot into the state `held`, remembers the state
it displaced, and puts that state back when it leaves. Entering needs that no holder is open; a
holder may stop being open and go on waiting, so several may wait at a time, and then only the
first of them displaced the slot's own state.

`Step` lists the moves that keep the slot honest. A holder that displaced the slot's own state may
leave only as the last one waiting. `Suspends` is the invariant: the slot is held exactly while a
holder waits, and otherwise in its own state.
-/

set_option autoImplicit false

namespace Library

/-- One holder of the slot. -/
structure Holder (σ : Type) where
  prior : σ
  waits : Bool
  isOpen : Bool

/-- The slot and its holders. -/
structure Slot (σ κ : Type) where
  state : σ
  holder : κ → Option (Holder σ)

namespace Slot

variable {σ κ : Type} [DecidableEq σ] [DecidableEq κ] {held base : σ} {l l' : Slot σ κ}

/-- Put back what the holder displaced, if the slot is held. -/
def released (held : σ) (l : Slot σ κ) (k : κ) (w : Holder σ) : Slot σ κ where
  state := if l.state = held then w.prior else l.state
  holder := Function.update l.holder k (some { w with waits := false, isOpen := false })

/-- The moves. -/
inductive Step (held : σ) (l : Slot σ κ) : Slot σ κ → Prop
  | same : Step held l l
  /-- A holder enters. -/
  | entered (k : κ) (hfree : l.holder k = none)
      (hclosed : ∀ j w, l.holder j = some w → w.isOpen = false) :
      Step held l ⟨held, Function.update l.holder k (some ⟨l.state, true, true⟩)⟩
  /-- A holder stops being open and goes on waiting. -/
  | shut (k : κ) (w : Holder σ) (hw : l.holder k = some w) :
      Step held l ⟨l.state, Function.update l.holder k (some { w with isOpen := false })⟩
  /-- An open holder leaves. -/
  | expired (k : κ) (w : Holder σ) (hw : l.holder k = some w) (hopen : w.isOpen = true) :
      Step held l (released held l k w)
  /-- A holder leaves, the last one if it displaced the slot's own state. -/
  | left (k : κ) (w : Holder σ) (hw : l.holder k = some w)
      (hlast : w.prior ≠ held → ∀ j r, l.holder j = some r → r.waits = true → j = k) :
      Step held l (released held l k w)

/-- No holder waits, and the slot is in its own state. -/
def Idle (base : σ) (l : Slot σ κ) : Prop :=
  l.state = base ∧ ∀ k w, l.holder k = some w → w.waits = false

/-- The slot is held, and of the waiting holders exactly `j` displaced the slot's own state. While
`j` is open nobody else waits. -/
def HeldBy (held base : σ) (l : Slot σ κ) (j : κ) (r : Holder σ) : Prop :=
  l.state = held ∧ l.holder j = some r ∧ r.waits = true ∧ r.prior = base ∧
    ∀ k w, l.holder k = some w → w.waits = true → k ≠ j → w.prior = held ∧ r.isOpen = false

/-- The slot is held exactly while a holder waits, and otherwise in its own state `base`. -/
structure Suspends (held base : σ) (l : Slot σ κ) : Prop where
  prior : ∀ k w, l.holder k = some w → w.prior = base ∨ w.prior = held
  openWaits : ∀ k w, l.holder k = some w → w.isOpen = true → w.waits = true
  phase : Idle base l ∨ ∃ j r, HeldBy held base l j r

omit [DecidableEq σ] [DecidableEq κ] in
/-- A slot nobody ever entered. -/
theorem suspends_of_free (h : ∀ k, l.holder k = none) : Suspends held l.state l := by
  have hno : ∀ k w, l.holder k = some w → False := by
    intro k w hw
    rw [h k] at hw
    cases hw
  constructor
  · exact fun k w hw => (hno k w hw).elim
  · exact fun k w hw => (hno k w hw).elim
  · exact .inl ⟨rfl, fun k w hw => (hno k w hw).elim⟩

omit [DecidableEq σ] in
/-- A holder of an updated slot is the new one or an old one. -/
theorem update_eq_some {f : κ → Option (Holder σ)} {k j : κ} {v w : Holder σ}
    (h : Function.update f k (some v) j = some w) : (j = k ∧ w = v) ∨ (j ≠ k ∧ f j = some w) := by
  by_cases hj : j = k
  · subst hj
    rw [Function.update_self] at h
    exact .inl ⟨rfl, (Option.some.inj h).symm⟩
  · rw [Function.update_of_ne hj] at h
    exact .inr ⟨hj, h⟩

namespace Suspends

omit [DecidableEq σ] in
/-- The first holder displaces the slot's own state, a later one finds the slot held. -/
theorem entered (h : Suspends held base l) {k : κ} (hfree : l.holder k = none)
    (hclosed : ∀ j w, l.holder j = some w → w.isOpen = false) :
    Suspends held base ⟨held, Function.update l.holder k (some ⟨l.state, true, true⟩)⟩ := by
  constructor
  · intro j w hw
    obtain ⟨-, rfl⟩ | ⟨-, hw⟩ := update_eq_some hw
    · obtain hidle | ⟨j, r, hheld⟩ := h.phase
      · exact .inl hidle.1
      · exact .inr hheld.1
    · exact h.prior j w hw
  · intro j w hw hopen
    obtain ⟨-, rfl⟩ | ⟨-, hw⟩ := update_eq_some hw
    · rfl
    · exact h.openWaits j w hw hopen
  · right
    obtain ⟨hstate, hnobody⟩ | ⟨j, r, hstate, hr, hwaits, hprior, hothers⟩ := h.phase
    · refine ⟨k, _, rfl, Function.update_self .., rfl, hstate, ?_⟩
      intro j w hw hjwaits hj
      obtain ⟨rfl, -⟩ | ⟨-, hw⟩ := update_eq_some hw
      · exact absurd rfl hj
      · rw [hnobody j w hw] at hjwaits
        cases hjwaits
    · have hj : j ≠ k := by
        rintro rfl
        rw [hfree] at hr
        cases hr
      refine ⟨j, r, rfl, (Function.update_of_ne hj ..).trans hr, hwaits, hprior, ?_⟩
      intro m w hw hmwaits hm
      obtain ⟨-, rfl⟩ | ⟨-, hw⟩ := update_eq_some hw
      · exact ⟨hstate, hclosed j r hr⟩
      · exact hothers m w hw hmwaits hm

omit [DecidableEq σ] in
/-- A holder that is no longer open waits on. -/
theorem shut (h : Suspends held base l) {k : κ} {w : Holder σ} (hw : l.holder k = some w) :
    Suspends held base
      ⟨l.state, Function.update l.holder k (some { w with isOpen := false })⟩ := by
  constructor
  · intro j v hv
    obtain ⟨-, rfl⟩ | ⟨-, hv⟩ := update_eq_some hv
    · exact h.prior k w hw
    · exact h.prior j v hv
  · intro j v hv hopen
    obtain ⟨-, rfl⟩ | ⟨-, hv⟩ := update_eq_some hv
    · cases hopen
    · exact h.openWaits j v hv hopen
  · obtain ⟨hstate, hnobody⟩ | ⟨j, r, hstate, hr, hwaits, hprior, hothers⟩ := h.phase
    · refine .inl ⟨hstate, ?_⟩
      intro j v hv
      obtain ⟨-, rfl⟩ | ⟨-, hv⟩ := update_eq_some hv
      · exact hnobody k w hw
      · exact hnobody j v hv
    · right
      by_cases hj : j = k
      · subst hj
        rw [hw] at hr
        cases hr
        refine ⟨j, _, hstate, Function.update_self .., hwaits, hprior, ?_⟩
        intro m v hv hmwaits hm
        obtain ⟨rfl, -⟩ | ⟨-, hv⟩ := update_eq_some hv
        · exact absurd rfl hm
        · exact ⟨(hothers m v hv hmwaits hm).1, rfl⟩
      · refine ⟨j, r, hstate, (Function.update_of_ne hj ..).trans hr, hwaits, hprior, ?_⟩
        intro m v hv hmwaits hm
        obtain ⟨rfl, rfl⟩ | ⟨-, hv⟩ := update_eq_some hv
        · exact hothers m w hw hmwaits hm
        · exact hothers m v hv hmwaits hm

/-- A holder that leaves frees the slot if it displaced the slot's own state, and is then the last
one waiting. -/
theorem released (h : Suspends held base l) (hbase : base ≠ held) {k : κ} {w : Holder σ}
    (hw : l.holder k = some w)
    (hlast : w.prior ≠ held → ∀ j r, l.holder j = some r → r.waits = true → j = k) :
    Suspends held base (released held l k w) := by
  constructor
  · intro j v hv
    obtain ⟨-, rfl⟩ | ⟨-, hv⟩ := update_eq_some hv
    · exact h.prior k w hw
    · exact h.prior j v hv
  · intro j v hv hopen
    obtain ⟨-, rfl⟩ | ⟨-, hv⟩ := update_eq_some hv
    · cases hopen
    · exact h.openWaits j v hv hopen
  · obtain ⟨hstate, hnobody⟩ | ⟨j, r, hstate, hr, hwaits, hprior, hothers⟩ := h.phase
    · refine .inl ⟨?_, ?_⟩
      · have hnot : l.state ≠ held := fun heq => hbase (hstate.symm.trans heq)
        exact (if_neg hnot).trans hstate
      · intro j v hv
        obtain ⟨-, rfl⟩ | ⟨-, hv⟩ := update_eq_some hv
        · rfl
        · exact hnobody j v hv
    · have hstate' : (Slot.released held l k w).state = w.prior := if_pos hstate
      by_cases hwprior : w.prior = held
      · -- it displaced a held slot, so the root goes on waiting
        have hj : j ≠ k := by
          rintro rfl
          rw [hw] at hr
          cases hr
          exact hbase (hprior.symm.trans hwprior)
        refine .inr ⟨j, r, hstate'.trans hwprior, (Function.update_of_ne hj ..).trans hr, hwaits,
          hprior, ?_⟩
        intro m v hv hmwaits hm
        obtain ⟨-, rfl⟩ | ⟨-, hv⟩ := update_eq_some hv
        · cases hmwaits
        · exact hothers m v hv hmwaits hm
      · have hwbase : w.prior = base := (h.prior k w hw).resolve_right hwprior
        refine .inl ⟨hstate'.trans hwbase, ?_⟩
        intro m v hv
        obtain ⟨-, rfl⟩ | ⟨hm, hv⟩ := update_eq_some hv
        · rfl
        · exact Bool.eq_false_iff.mpr fun hmwaits => hm (hlast hwprior m v hv hmwaits)

omit [DecidableEq σ] in
/-- An open holder that displaced the slot's own state is the only one waiting. -/
theorem openLast (h : Suspends held base l) {k : κ} {w : Holder σ} (hw : l.holder k = some w)
    (hopen : w.isOpen = true) (hprior : w.prior ≠ held) :
    ∀ j r, l.holder j = some r → r.waits = true → j = k := by
  intro m v hv hmwaits
  have hwaits := h.openWaits k w hw hopen
  obtain ⟨-, hnobody⟩ | ⟨j, r, -, hr, -, -, hothers⟩ := h.phase
  · rw [hnobody k w hw] at hwaits
    cases hwaits
  · by_cases hk : k = j
    · subst hk
      rw [hw] at hr
      cases hr
      by_contra hm
      rw [(hothers m v hv hmwaits hm).2] at hopen
      cases hopen
    · exact absurd (hothers k w hw hwaits hk).1 hprior

/-- Every move keeps the slot honest. -/
theorem step (h : Suspends held base l) (hbase : base ≠ held) (hstep : Step held l l') :
    Suspends held base l' := by
  cases hstep with
  | same => exact h
  | entered k hfree hclosed => exact h.entered hfree hclosed
  | shut k w hw => exact h.shut hw
  | expired k w hw hopen => exact h.released hbase hw fun hprior => h.openLast hw hopen hprior
  | left k w hw hlast => exact h.released hbase hw hlast

omit [DecidableEq σ] [DecidableEq κ] in
/-- The slot is held if and only if a holder waits. -/
theorem held_iff (h : Suspends held base l) (hbase : base ≠ held) :
    l.state = held ↔ ∃ k w, l.holder k = some w ∧ w.waits = true := by
  obtain ⟨hstate, hnobody⟩ | ⟨j, r, hstate, hr, hwaits, -⟩ := h.phase
  · constructor
    · exact fun hheld => absurd (hstate.symm.trans hheld) hbase
    · rintro ⟨k, w, hw, hwaits⟩
      rw [hnobody k w hw] at hwaits
      cases hwaits
  · exact ⟨fun _ => ⟨j, r, hr, hwaits⟩, fun _ => hstate⟩

omit [DecidableEq σ] [DecidableEq κ] in
/-- With nobody waiting the slot is in its own state. -/
theorem state_of_nobody (h : Suspends held base l)
    (hnobody : ¬ ∃ k w, l.holder k = some w ∧ w.waits = true) : l.state = base := by
  obtain ⟨hstate, -⟩ | ⟨j, r, -, hr, hwaits, -⟩ := h.phase
  · exact hstate
  · exact absurd ⟨j, r, hr, hwaits⟩ hnobody

end Suspends

end Slot

end Library
