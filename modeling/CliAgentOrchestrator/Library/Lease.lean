import CliAgentOrchestrator.Library.Machine

/-!
# Leases and their history

A lease module hands out a token on request and takes it back. A history keeps beside the
module's own store every acquisition ever granted and whether a release has been called with
its token. `Lawful` is what one operation has to do, and `honest_exec_iff` what a history gets
from it: a call leaves no two conflicting acquisitions held, and each in force until its own
release, exactly when it does not release a token that somebody else holds too.
-/

set_option autoImplicit false

namespace Library

variable {σ ρ ν τ : Type}

/-- `acquire` is given a nonce and answers `none` when it refuses; `release` answers `none` when
it raises. -/
structure LeaseModule (σ ρ ν τ : Type) where
  acquire : σ → ρ → ν → Option (τ × σ)
  release : σ → τ → Option σ

/-- An acquisition: what was asked for, the token handed out, and whether a release has been
called with it. -/
structure Grant (ρ τ : Type) where
  request : ρ
  token : τ
  released : Bool := false
deriving DecidableEq

structure LeaseHistory (σ ρ τ : Type) where
  store : σ
  grants : List (Grant ρ τ) := []

/-- A release is called with the token of the acquisition at `index`, for the first time or
again. -/
inductive LeaseStep (ρ ν : Type)
  | acquire (request : ρ) (nonce : ν)
  | release (index : Nat)

/-- The acquisition at `i` has not been released. -/
def LeaseHistory.Held (h : LeaseHistory σ ρ τ) (i : Nat) (g : Grant ρ τ) : Prop :=
  h.grants[i]? = some g ∧ g.released = false

namespace LeaseModule

/-- One call; one that refuses or raises leaves the store as it was. -/
def exec (m : LeaseModule σ ρ ν τ) (h : LeaseHistory σ ρ τ) :
    LeaseStep ρ ν → LeaseHistory σ ρ τ
  | .acquire request nonce =>
    match m.acquire h.store request nonce with
    | none => h
    | some (token, store) => ⟨store, h.grants ++ [{ request, token }]⟩
  | .release index =>
    match h.grants[index]? with
    | none => h
    | some g =>
      ⟨(m.release h.store g.token).getD h.store,
        h.grants.set index { g with released := true }⟩

/-- What one operation does: `holds` says which tokens the store has in force, `names` what a
token was asked for. -/
structure Lawful (m : LeaseModule σ ρ ν τ) (holds : σ → τ → Prop) (names : τ → ρ)
    (conflicts : ρ → ρ → Prop) : Prop where
  acquired : ∀ {s s' r n t}, m.acquire s r n = some (t, s') →
    names t = r ∧ (∀ t', holds s t' → ¬ conflicts r (names t')) ∧
      ∀ t', holds s' t' ↔ t' = t ∨ holds s t'
  released : ∀ {s s' t}, m.release s t = some s' →
    ∀ t', holds s' t' ↔ holds s t' ∧ t' ≠ t
  raised : ∀ {s t}, m.release s t = none → ¬ holds s t

/-- No two conflicting acquisitions are held, and what is held is in force. -/
structure Honest (holds : σ → τ → Prop) (conflicts : ρ → ρ → Prop) (h : LeaseHistory σ ρ τ) :
    Prop where
  excludes : ∀ i j g g', h.Held i g → h.Held j g' → i ≠ j → ¬ conflicts g.request g'.request
  inForce : ∀ i g, h.Held i g → holds h.store g.token

/-- A release is not called with a token that another acquisition holds too. -/
def SparesOthers (h : LeaseHistory σ ρ τ) : LeaseStep ρ ν → Prop
  | .acquire _ _ => True
  | .release index => ∀ g, h.grants[index]? = some g →
      ∀ j g', h.Held j g' → j ≠ index → g'.token ≠ g.token

variable {m : LeaseModule σ ρ ν τ} {holds : σ → τ → Prop} {names : τ → ρ}
  {conflicts : ρ → ρ → Prop} {h : LeaseHistory σ ρ τ}

theorem exec_refused {r : ρ} {n : ν} (hacquire : m.acquire h.store r n = none) :
    m.exec h (.acquire r n) = h := by
  simp [exec, hacquire]

theorem exec_granted {r : ρ} {n : ν} {t : τ} {s' : σ}
    (hacquire : m.acquire h.store r n = some (t, s')) :
    m.exec h (.acquire r n) = ⟨s', h.grants ++ [{ request := r, token := t }]⟩ := by
  simp [exec, hacquire]

theorem exec_release_of_none {i : Nat} (hget : h.grants[i]? = none) :
    m.exec h (.release i) = h := by
  simp [exec, hget]

theorem exec_release {i : Nat} {g : Grant ρ τ} (hget : h.grants[i]? = some g) :
    m.exec h (.release i) =
      ⟨(m.release h.store g.token).getD h.store,
        h.grants.set i { g with released := true }⟩ := by
  simp [exec, hget]

/-- What is held after an acquisition is the new one or was held. -/
theorem held_append {g : Grant ρ τ} (hnew : g.released = false) {store : σ} {i : Nat}
    {g' : Grant ρ τ} :
    (LeaseHistory.Held ⟨store, h.grants ++ [g]⟩ i g') ↔
      (i = h.grants.length ∧ g' = g) ∨ (i < h.grants.length ∧ h.Held i g') := by
  unfold LeaseHistory.Held
  rcases Nat.lt_trichotomy i h.grants.length with hlt | heq | hgt
  · have hne : i ≠ h.grants.length := Nat.ne_of_lt hlt
    simp [List.getElem?_append_left hlt, hlt, hne]
  · subst heq
    constructor
    · rintro ⟨hget, -⟩
      rw [List.getElem?_concat_length] at hget
      exact .inl ⟨rfl, (Option.some.inj hget).symm⟩
    · rintro (⟨-, rfl⟩ | ⟨hlt, -⟩)
      · exact ⟨List.getElem?_concat_length .., hnew⟩
      · exact absurd hlt (Nat.lt_irrefl _)
  · have hnone : (h.grants ++ [g])[i]? = none := by
      rw [List.getElem?_eq_none_iff, List.length_append, List.length_singleton]
      omega
    have hne : i ≠ h.grants.length := by omega
    have hnlt : ¬ i < h.grants.length := by omega
    simp [hnone, hne, hnlt]

/-- What is held after a release was held, and is not the acquisition released. -/
theorem held_set {g : Grant ρ τ} {store : σ} {i j : Nat} {g' : Grant ρ τ} :
    (LeaseHistory.Held ⟨store, h.grants.set i { g with released := true }⟩ j g') ↔
      h.Held j g' ∧ j ≠ i := by
  unfold LeaseHistory.Held
  by_cases hj : j = i
  · subst hj
    constructor
    · rintro ⟨hget, hunreleased⟩
      rw [List.getElem?_set_self'] at hget
      obtain ⟨w, hw, heq⟩ := Option.map_eq_some_iff.mp hget
      rw [← heq] at hunreleased
      cases hunreleased
    · rintro ⟨-, hne⟩
      exact absurd rfl hne
  · have hne : i ≠ j := fun heq => hj heq.symm
    simp [List.getElem?_set_ne hne, hj]

theorem Honest.acquire (hm : m.Lawful holds names conflicts)
    (hsymm : ∀ r r', conflicts r r' → conflicts r' r)
    (hnamed : ∀ g ∈ h.grants, names g.token = g.request) (hh : Honest holds conflicts h) {r : ρ}
    {n : ν} {t : τ} {s' : σ} (hacquire : m.acquire h.store r n = some (t, s')) :
    Honest holds conflicts ⟨s', h.grants ++ [{ request := r, token := t }]⟩ := by
  obtain ⟨-, hfree, hforce⟩ := hm.acquired hacquire
  -- a held acquisition is in force, so the module has looked at it before granting
  have hold : ∀ i g, h.Held i g → ¬ conflicts r g.request := by
    intro i g hheld
    have hfree := hfree g.token (hh.inForce i g hheld)
    rwa [hnamed g (List.mem_of_getElem? hheld.1)] at hfree
  constructor
  · intro i j g g' hi hj hij
    rw [held_append rfl] at hi hj
    obtain ⟨rfl, rfl⟩ | ⟨-, hi⟩ := hi <;> obtain ⟨rfl, rfl⟩ | ⟨-, hj⟩ := hj
    · exact absurd rfl hij
    · exact hold j g' hj
    · exact fun hconf => hold i g hi (hsymm _ _ hconf)
    · exact hh.excludes i j g g' hi hj hij
  · intro i g hi
    rw [held_append rfl] at hi
    obtain ⟨-, rfl⟩ | ⟨-, hi⟩ := hi
    · exact (hforce t).mpr (.inl rfl)
    · exact (hforce g.token).mpr (.inr (hh.inForce i g hi))

/-- A release keeps the history honest exactly when it spares what others hold. -/
theorem honest_release_iff (hm : m.Lawful holds names conflicts) (hh : Honest holds conflicts h)
    {i : Nat} {g : Grant ρ τ} :
    Honest holds conflicts ⟨(m.release h.store g.token).getD h.store,
        h.grants.set i { g with released := true }⟩ ↔
      ∀ j g', h.Held j g' → j ≠ i → g'.token ≠ g.token := by
  constructor
  · intro hafter j g' hheld hj heq
    have hforce := hafter.inForce j g' (held_set.mpr ⟨hheld, hj⟩)
    rw [heq] at hforce
    cases hrelease : m.release h.store g.token with
    | none => exact hm.raised hrelease (heq ▸ hh.inForce j g' hheld)
    | some s' =>
      dsimp only at hforce
      rw [hrelease] at hforce
      exact ((hm.released hrelease g.token).mp hforce).2 rfl
  · intro hspares
    constructor
    · intro j k g' g'' hj hk
      exact hh.excludes j k g' g'' (held_set.mp hj).1 (held_set.mp hk).1
    · intro j g' hj
      obtain ⟨hheld, hne⟩ := held_set.mp hj
      have hforce := hh.inForce j g' hheld
      dsimp only
      cases hrelease : m.release h.store g.token with
      | none => exact hforce
      | some s' => exact (hm.released hrelease g'.token).mpr ⟨hforce, hspares j g' hheld hne⟩

theorem honest_exec_iff (hm : m.Lawful holds names conflicts)
    (hsymm : ∀ r r', conflicts r r' → conflicts r' r)
    (hnamed : ∀ g ∈ h.grants, names g.token = g.request) (hh : Honest holds conflicts h)
    (step : LeaseStep ρ ν) :
    Honest holds conflicts (m.exec h step) ↔ SparesOthers h step := by
  cases step with
  | acquire r n =>
    refine iff_of_true ?_ trivial
    cases hacquire : m.acquire h.store r n with
    | none => rwa [exec_refused hacquire]
    | some result =>
      rw [exec_granted hacquire]
      exact hh.acquire hm hsymm hnamed hacquire
  | release i =>
    unfold SparesOthers
    cases hget : h.grants[i]? with
    | none =>
      refine iff_of_true (by rwa [exec_release_of_none hget]) ?_
      intro g hg
      rw [hget] at hg
      cases hg
    | some g =>
      rw [exec_release hget, honest_release_iff hm hh]
      constructor
      · intro hspares g' hget'
        rw [hget] at hget'
        cases hget'
        exact hspares
      · exact fun hspares => hspares g hget

/-- The store has in force what is held, and nothing else. -/
def Exact (holds : σ → τ → Prop) (h : LeaseHistory σ ρ τ) : Prop :=
  ∀ t, holds h.store t ↔ ∃ i g, h.Held i g ∧ g.token = t

theorem Exact.exec (hm : m.Lawful holds names conflicts) (hexact : Exact holds h)
    {step : LeaseStep ρ ν} (hspares : SparesOthers h step) : Exact holds (m.exec h step) := by
  cases step with
  | acquire r n =>
    cases hacquire : m.acquire h.store r n with
    | none => rwa [exec_refused hacquire]
    | some result =>
      rw [exec_granted hacquire]
      intro t
      dsimp only
      rw [(hm.acquired hacquire).2.2 t, hexact t]
      constructor
      · rintro (rfl | ⟨i, g, hheld, rfl⟩)
        · exact ⟨_, _, (held_append rfl).mpr (.inl ⟨rfl, rfl⟩), rfl⟩
        · obtain ⟨hlt, -⟩ := List.getElem?_eq_some_iff.mp hheld.1
          exact ⟨i, g, (held_append rfl).mpr (.inr ⟨hlt, hheld⟩), rfl⟩
      · rintro ⟨i, g, hheld, rfl⟩
        obtain ⟨-, rfl⟩ | ⟨-, hheld⟩ := (held_append rfl).mp hheld
        · exact .inl rfl
        · exact .inr ⟨i, g, hheld, rfl⟩
  | release i =>
    cases hget : h.grants[i]? with
    | none => rwa [exec_release_of_none hget]
    | some g =>
      rw [exec_release hget]
      intro t
      -- the tokens that are held after the release
      have hrest : (∃ j g', LeaseHistory.Held ⟨(m.release h.store g.token).getD h.store,
            h.grants.set i { g with released := true }⟩ j g' ∧ g'.token = t) ↔
          holds h.store t ∧ t ≠ g.token := by
        rw [hexact t]
        constructor
        · rintro ⟨j, g', hheld, rfl⟩
          obtain ⟨hheld, hne⟩ := held_set.mp hheld
          exact ⟨⟨j, g', hheld, rfl⟩, hspares g hget j g' hheld hne⟩
        · rintro ⟨⟨j, g', hheld, rfl⟩, hne⟩
          refine ⟨j, g', held_set.mpr ⟨hheld, ?_⟩, rfl⟩
          rintro rfl
          cases hget.symm.trans hheld.1
          exact hne rfl
      rw [hrest]
      dsimp only
      cases hrelease : m.release h.store g.token with
      | none =>
        refine ⟨fun hholds => ⟨hholds, ?_⟩, And.left⟩
        rintro rfl
        exact hm.raised hrelease hholds
      | some s' => exact hm.released hrelease t

end LeaseModule

end Library
