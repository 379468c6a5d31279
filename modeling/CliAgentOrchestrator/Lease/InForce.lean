import CliAgentOrchestrator.Lease.Exclusion

/-!
# What is in force is what is held

A module stores a token under what it was asked for (`Placed`), so a refusal has a holder to point
to. While no released recovery lease is released again, the modules' globals are the acquisitions
that have not been released (`Sound`): nothing leaks, and nothing passes a check after its release.
-/

set_option autoImplicit false

namespace CliAgentOrchestrator.Lease

open Library

variable {m m' : Leases} {t : Token}

/-! ## Where tokens are stored -/

/-- What is stored in a place is in force, and was asked for that place. -/
structure Placed (m : Leases) : Prop where
  rebind : ∀ k t, m.rebind.owners.find k = some t → t.terminalId = k
  exclusive : ∀ k t, m.session.exclusive.find k = some t → t.sessionName = k ∧ t.mode = .exclusive
  shared : ∀ k, ∀ t ∈ m.session.sharedOf k, t.sessionName = k ∧ t.mode = .shared
  terminal : ∀ k t, m.session.terminalExclusive.find k = some t → t.key = k

theorem Placed.acquired (hp : Placed m) {r : Request} {n : String}
    (h : acquire m r n = some (t, m')) : Placed m' := by
  cases r with
  | rebind terminalId =>
    obtain ⟨r, hr, hm⟩ := Option.map_eq_some_iff.mp h
    cases hm
    obtain ⟨-, hid, howners⟩ := acquireRebindLease_eq_some hr
    refine ⟨?_, hp.exclusive, hp.shared, hp.terminal⟩
    rw [howners]
    exact Dict.forall_assign hp.rebind hid
  | shared sessionName =>
    obtain ⟨⟨_, l⟩, hr, hm⟩ := Option.map_eq_some_iff.mp h
    cases hm
    obtain ⟨-, rfl, hl⟩ := acquireSessionLifecycleShared_eq_some hr
    dsimp only at hl
    subst hl
    refine ⟨hp.rebind, hp.exclusive, fun k t ht => ?_, hp.terminal⟩
    rw [sharedOf_assign] at ht
    split at ht
    · next hk =>
      subst hk
      obtain rfl | ht := Finset.mem_insert.mp ht
      · exact ⟨rfl, rfl⟩
      · exact hp.shared _ t ht
    · exact hp.shared k t ht
  | exclusive sessionName =>
    obtain ⟨⟨_, l⟩, hr, hm⟩ := Option.map_eq_some_iff.mp h
    cases hm
    obtain ⟨-, -, -, rfl, hl⟩ := acquireSessionLifecycleExclusive_eq_some hr
    dsimp only at hl
    subst hl
    exact ⟨hp.rebind, Dict.forall_assign hp.exclusive ⟨rfl, rfl⟩, hp.shared, hp.terminal⟩
  | terminalExclusive sessionName terminalId =>
    obtain ⟨⟨_, l⟩, hr, hm⟩ := Option.map_eq_some_iff.mp h
    cases hm
    obtain ⟨-, -, rfl, hl⟩ := acquireSessionLifecycleTerminalExclusive_eq_some hr
    dsimp only at hl
    subst hl
    exact ⟨hp.rebind, hp.exclusive, hp.shared, Dict.forall_assign hp.terminal rfl⟩
  | recovery sessionName baseName =>
    obtain ⟨r, -, hm⟩ := Option.map_eq_some_iff.mp h
    cases hm
    exact ⟨hp.rebind, hp.exclusive, hp.shared, hp.terminal⟩

theorem Placed.released (hp : Placed m) (h : (release m t).toOption = some m') : Placed m' := by
  cases t with
  | rebind t =>
    obtain ⟨l, hl, rfl⟩ := toOption_map_eq_some h
    unfold releaseRebindLease at hl
    split at hl
    · cases hl
    · cases hl
      exact ⟨Dict.forall_pop hp.rebind _, hp.exclusive, hp.shared, hp.terminal⟩
  | session t =>
    obtain ⟨l, hl, rfl⟩ := toOption_map_eq_some h
    unfold releaseSessionLifecycleLease at hl
    split at hl
    · cases hl
      exact ⟨hp.rebind, Dict.forall_pop hp.exclusive _, hp.shared, hp.terminal⟩
    · dsimp only at hl
      split at hl
      · cases hl
        refine ⟨hp.rebind, hp.exclusive, fun k t' ht => hp.shared k t' ?_, hp.terminal⟩
        rw [sharedOf_released] at ht
        split at ht
        · next hk => exact hk ▸ Finset.mem_of_mem_erase ht
        · exact ht
      · cases hl
  | terminal t =>
    obtain ⟨l, hl, rfl⟩ := toOption_map_eq_some h
    unfold releaseSessionLifecycleTerminalExclusive at hl
    split at hl
    · cases hl
      exact ⟨hp.rebind, hp.exclusive, hp.shared, Dict.forall_pop hp.terminal _⟩
    · cases hl
  | recovery t =>
    obtain ⟨l, -, rfl⟩ := toOption_map_eq_some h
    exact ⟨hp.rebind, hp.exclusive, hp.shared, hp.terminal⟩

theorem Placed.exec {h : History} (hp : Placed h.store) (step : Step) :
    Placed (leaseModule.exec h step).store := by
  cases step with
  | acquire r n =>
    cases hacquire : leaseModule.acquire h.store r n with
    | none => rwa [LeaseModule.exec_refused hacquire]
    | some result =>
      rw [LeaseModule.exec_granted hacquire]
      exact hp.acquired hacquire
  | release i =>
    cases hget : h.grants[i]? with
    | none => rwa [LeaseModule.exec_release_of_none hget]
    | some g =>
      rw [LeaseModule.exec_release hget]
      cases hrelease : leaseModule.release h.store g.token with
      | none => exact hp
      | some s' => exact hp.released hrelease

theorem Placed.exclusive_held (hp : Placed m) {s : String}
    (h : (m.session.exclusive.find s).isSome) :
    ∃ t, Holds m t ∧ t.request = .exclusive s := by
  obtain ⟨t, ht⟩ := Option.isSome_iff_exists.mp h
  obtain ⟨hs, hmode⟩ := hp.exclusive s t ht
  rcases t with ⟨s', mode, nonce⟩
  obtain rfl : s' = s := hs
  obtain rfl : mode = .exclusive := hmode
  exact ⟨.session ⟨_, .exclusive, nonce⟩, .inl ⟨rfl, ht⟩, rfl⟩

/-- An acquisition is refused only for a lease in force that conflicts with it. -/
theorem Placed.refused (hp : Placed m) {r : Request} {n : String} (h : acquire m r n = none) :
    ∃ t, Holds m t ∧ Conflicts r t.request := by
  cases r with
  | rebind terminalId =>
    have h := Option.map_eq_none_iff.mp h
    unfold acquireRebindLease at h
    split at h
    · next hheld =>
      obtain ⟨t, ht⟩ := Option.isSome_iff_exists.mp hheld
      have hid := hp.rebind _ t ht
      subst hid
      exact ⟨.rebind t, ht, rfl⟩
    · cases h
  | shared sessionName =>
    have h := Option.map_eq_none_iff.mp h
    unfold acquireSessionLifecycleShared at h
    split at h
    · next hheld =>
      obtain ⟨t, hholds, hrequest⟩ := hp.exclusive_held hheld
      exact ⟨t, hholds, by rw [hrequest]; rfl⟩
    · cases h
  | exclusive sessionName =>
    have h := Option.map_eq_none_iff.mp h
    unfold acquireSessionLifecycleExclusive at h
    split at h
    · next hheld =>
      obtain hheld | hheld := hheld
      · obtain ⟨t, hholds, hrequest⟩ := hp.exclusive_held hheld
        exact ⟨t, hholds, by rw [hrequest]; rfl⟩
      · obtain ⟨t, ht⟩ := Finset.nonempty_iff_ne_empty.mpr hheld
        obtain ⟨hs, hmode⟩ := hp.shared _ t ht
        rcases t with ⟨s', mode, nonce⟩
        obtain rfl : s' = sessionName := hs
        obtain rfl : mode = .shared := hmode
        exact ⟨.session _, .inr ⟨rfl, ht⟩, rfl⟩
    · split at h
      · next hany =>
        obtain ⟨⟨k, t⟩, hmem, hk⟩ := List.any_eq_true.mp hany
        have ht := Dict.find_eq_some_iff.mpr hmem
        have hkey := hp.terminal k t ht
        subst hkey
        exact ⟨.terminal t, ht, (eq_of_beq hk).symm⟩
      · cases h
  | terminalExclusive sessionName terminalId =>
    have h := Option.map_eq_none_iff.mp h
    unfold acquireSessionLifecycleTerminalExclusive at h
    split at h
    · next hheld =>
      obtain ⟨t, hholds, hrequest⟩ := hp.exclusive_held hheld
      exact ⟨t, hholds, by rw [hrequest]; rfl⟩
    · split at h
      · next hheld =>
        obtain ⟨t, ht⟩ := Option.isSome_iff_exists.mp hheld
        have hkey := hp.terminal _ t ht
        refine ⟨.terminal t, by rw [Holds, hkey]; exact ht, ?_⟩
        exact ⟨(congrArg Prod.fst hkey).symm, (congrArg Prod.snd hkey).symm⟩
      · cases h
  | recovery sessionName baseName =>
    have h := Option.map_eq_none_iff.mp h
    unfold acquireEpochRecoveryLease at h
    dsimp only at h
    split at h
    · next hheld => exact ⟨.recovery ⟨sessionName, baseName⟩, hheld, rfl, rfl⟩
    · cases h

/-! ## Histories that spare recovery leases -/

/-- What a history keeps while no released recovery lease is released again. -/
structure Sound (h : History) : Prop where
  minted : Minted h
  honest : LeaseModule.Honest Holds Conflicts h
  exact : LeaseModule.Exact Holds h
  placed : Placed h.store

theorem Sound.exec {h : History} (hs : Sound h) {step : Step} (hfresh : DrawsFresh h step)
    (hspares : SparesRecovery h step) : Sound (leaseModule.exec h step) := by
  have hothers := (sparesOthers_iff hs.minted hs.honest step).mpr hspares
  exact ⟨hs.minted.exec hfresh,
    (LeaseModule.honest_exec_iff lawful conflicts_symm hs.minted.named hs.honest step).mpr hothers,
    hs.exact.exec lawful hothers, hs.placed.exec step⟩

/-- A token of a lease that excludes is handed out once, so it is in force while its acquisition
has not been released. -/
theorem Sound.holds_iff {h : History} (hs : Sound h) {i : Nat} {g : Grant Request Token}
    (hget : h.grants[i]? = some g) (honce : ∀ l, g.token ≠ .recovery l) :
    Holds h.store g.token ↔ g.released = false := by
  rw [hs.exact g.token]
  constructor
  · rintro ⟨j, g', hheld, htoken⟩
    rcases Nat.lt_trichotomy i j with hlt | rfl | hgt
    · obtain ⟨l, hl⟩ := hs.minted.once i j g g' hget hheld.1 hlt htoken.symm
      exact absurd hl (honce l)
    · cases hget.symm.trans hheld.1
      exact hheld.2
    · obtain ⟨l, hl⟩ := hs.minted.once j i g' g hheld.1 hget hgt htoken
      exact absurd (htoken.symm.trans hl) (honce l)
  · exact fun hreleased => ⟨i, g, ⟨hget, hreleased⟩, rfl⟩

theorem sound_loaded : Sound loaded where
  minted := by
    refine ⟨?_, ?_, ?_⟩
    · rintro g ⟨⟩
    · rintro g ⟨⟩
    · intro i j g g' hi
      cases hi
  honest := by
    refine ⟨?_, ?_⟩
    · rintro i j g g' ⟨hget, -⟩
      cases hget
    · rintro i g ⟨hget, -⟩
      cases hget
  exact := by
    intro t
    constructor
    · intro hholds
      rcases t with t | t | t | t <;> simp [Holds, loaded, SessionLeases.sharedOf] at hholds
    · rintro ⟨i, g, ⟨hget, -⟩, -⟩
      cases hget
  placed := by
    refine ⟨?_, ?_, ?_, ?_⟩ <;> simp [loaded, SessionLeases.sharedOf]

/-- An acquisition is refused exactly while a conflicting one is held, and a rebind or shared token
passes its check exactly until a release is called with it. -/
structure Leakproof (h : History) : Prop where
  refused_iff : ∀ r n, acquire h.store r n = none ↔ ∃ i g, h.Held i g ∧ Conflicts r g.request
  rebind_iff : ∀ (i : Nat) g t, h.grants[i]? = some g → g.token = .rebind t →
    (validateRebindLease h.store.rebind t.terminalId t = .ok () ↔ g.released = false)
  shared_iff : ∀ (i : Nat) g t, h.grants[i]? = some g → g.token = .session t → t.mode = .shared →
    (validateSessionLifecycleShared h.store.session t.sessionName t = .ok () ↔
      g.released = false)

/-- Nothing leaks in a history in which no recovery lease that has been released is released again
while its key is held. -/
theorem leases_leakproof (steps : List Step)
    (h : StepsSatisfy leaseModule.exec (fun h step => DrawsFresh h step ∧ SparesRecovery h step)
      loaded steps) :
    Leakproof (run leaseModule.exec loaded steps) := by
  have hs : Sound (run leaseModule.exec loaded steps) :=
    run_invariant_of _ Sound (fun h step hstep hs => hs.exec hstep.1 hstep.2) loaded sound_loaded
      steps h
  refine ⟨fun r n => ⟨fun hnone => ?_, ?_⟩, ?_, ?_⟩
  · obtain ⟨t, hholds, hconf⟩ := hs.placed.refused hnone
    obtain ⟨i, g, hheld, rfl⟩ := (hs.exact t).mp hholds
    rw [hs.minted.named g (List.mem_of_getElem? hheld.1)] at hconf
    exact ⟨i, g, hheld, hconf⟩
  · rintro ⟨i, g, hheld, hconf⟩
    rw [Option.eq_none_iff_forall_ne_some]
    rintro ⟨t, m'⟩ hacquire
    refine (acquired hacquire).2.1 g.token (hs.honest.inForce i g hheld) ?_
    rwa [hs.minted.named g (List.mem_of_getElem? hheld.1)]
  · intro i g t hget htoken
    rw [validateRebindLease_ok_iff, ← htoken]
    exact hs.holds_iff hget (by simp [htoken])
  · intro i g t hget htoken hmode
    rw [validateSessionLifecycleShared_ok_iff, ← htoken, and_iff_right hmode]
    exact hs.holds_iff hget (by simp [htoken])

/-- The second release frees nothing of another holder. -/
theorem leases_leakproof_workerReleasesTwice :
    Leakproof (run leaseModule.exec loaded workerReleasesTwice) :=
  leases_leakproof workerReleasesTwice (by decide)

end CliAgentOrchestrator.Lease
