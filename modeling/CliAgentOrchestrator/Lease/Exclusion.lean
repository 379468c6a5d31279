import CliAgentOrchestrator.Lease.Store

/-!
# Leases exclude, and end by their own release

A rebind token carries a generation and a session token a nonce, so a release called a second
time raises. A recovery token is its key and nothing else: the token of an acquisition that was
released is equal to the token of the next one, and a late release of the first ends the second.
-/

set_option autoImplicit false

namespace CliAgentOrchestrator.Lease

open Library

variable {m m' : Leases} {t : Token}

/-! ## What one call does -/

@[simp] theorem sharedOf_assign (l : SessionLeases) (s x : String)
    (S : Finset SessionLifecycleLeaseToken) :
    SessionLeases.sharedOf { l with shared := l.shared.assign s S } x =
      if x = s then S else l.sharedOf x := by
  unfold SessionLeases.sharedOf
  rw [Dict.find_assign]
  split <;> rfl

theorem sharedOf_released (l : SessionLeases) (s x : String) (token : SessionLifecycleLeaseToken) :
    SessionLeases.sharedOf { l with
        shared :=
          if (l.sharedOf s).erase token = ∅ then l.shared.pop s
          else l.shared.assign s ((l.sharedOf s).erase token) } x =
      if x = s then (l.sharedOf s).erase token else l.sharedOf x := by
  unfold SessionLeases.sharedOf
  by_cases hx : x = s
  · subst hx
    split
    · next hempty => simp [hempty]
    · simp
  · split <;> simp [hx]

theorem acquireRebindLease_eq_some {l : RebindLeases} {terminalId nonce : String}
    {r : RebindLeaseToken × RebindLeases}
    (h : acquireRebindLease l terminalId nonce = some r) :
    l.owners.find terminalId = none ∧ r.1.terminalId = terminalId ∧
      r.2.owners = l.owners.assign terminalId r.1 := by
  unfold acquireRebindLease at h
  split at h
  · cases h
  · next hfree =>
    obtain rfl := (Option.some.inj h).symm
    exact ⟨Option.not_isSome_iff_eq_none.mp hfree, rfl, rfl⟩

theorem acquireSessionLifecycleShared_eq_some {l : SessionLeases} {sessionName nonce : String}
    {r : SessionLifecycleLeaseToken × SessionLeases}
    (h : acquireSessionLifecycleShared l sessionName nonce = some r) :
    l.exclusive.find sessionName = none ∧ r.1 = ⟨sessionName, .shared, nonce⟩ ∧
      r.2 = { l with
        shared := l.shared.assign sessionName (insert r.1 (l.sharedOf sessionName)) } := by
  unfold acquireSessionLifecycleShared at h
  split at h
  · cases h
  · next hfree =>
    obtain rfl := (Option.some.inj h).symm
    exact ⟨Option.not_isSome_iff_eq_none.mp hfree, rfl, rfl⟩

theorem acquireSessionLifecycleExclusive_eq_some {l : SessionLeases} {sessionName nonce : String}
    {r : SessionLifecycleLeaseToken × SessionLeases}
    (h : acquireSessionLifecycleExclusive l sessionName nonce = some r) :
    l.exclusive.find sessionName = none ∧ l.sharedOf sessionName = ∅ ∧
      (∀ terminalId, l.terminalExclusive.find (sessionName, terminalId) = none) ∧
      r.1 = ⟨sessionName, .exclusive, nonce⟩ ∧
      r.2 = { l with exclusive := l.exclusive.assign sessionName r.1 } := by
  unfold acquireSessionLifecycleExclusive at h
  split at h
  · cases h
  · next hfree =>
    rw [not_or, Option.not_isSome_iff_eq_none, not_not] at hfree
    split at h
    · cases h
    · next hterminals =>
      obtain rfl := (Option.some.inj h).symm
      refine ⟨hfree.1, hfree.2, ?_, rfl, rfl⟩
      intro terminalId
      rw [Option.eq_none_iff_forall_ne_some]
      intro token hfind
      refine hterminals (List.any_eq_true.mpr ⟨_, Dict.find_eq_some_iff.mp hfind, ?_⟩)
      exact beq_self_eq_true sessionName

theorem acquireSessionLifecycleTerminalExclusive_eq_some {l : SessionLeases}
    {sessionName terminalId nonce : String}
    {r : TerminalLifecycleLeaseToken × SessionLeases}
    (h : acquireSessionLifecycleTerminalExclusive l sessionName terminalId nonce = some r) :
    l.exclusive.find sessionName = none ∧
      l.terminalExclusive.find (sessionName, terminalId) = none ∧
      r.1 = ⟨sessionName, terminalId, nonce⟩ ∧
      r.2 = { l with
        terminalExclusive := l.terminalExclusive.assign (sessionName, terminalId) r.1 } := by
  unfold acquireSessionLifecycleTerminalExclusive at h
  split at h
  · cases h
  · next hsession =>
    split at h
    · cases h
    · next hterminal =>
      obtain rfl := (Option.some.inj h).symm
      exact ⟨Option.not_isSome_iff_eq_none.mp hsession,
        Option.not_isSome_iff_eq_none.mp hterminal, rfl, rfl⟩

theorem acquireEpochRecoveryLease_eq_some {l : RecoveryLeases} {sessionName baseName : String}
    {r : EpochRecoveryLease × RecoveryLeases}
    (h : acquireEpochRecoveryLease l sessionName baseName = some r) :
    (sessionName, baseName) ∉ l.held ∧ r.1 = ⟨sessionName, baseName⟩ ∧
      r.2.held = insert (sessionName, baseName) l.held := by
  unfold acquireEpochRecoveryLease at h
  dsimp only at h
  split at h
  · cases h
  · next hfree =>
    obtain rfl := (Option.some.inj h).symm
    exact ⟨hfree, rfl, rfl⟩

/-- Nothing in force conflicted, and the token is in force as well. -/
def Granted (m : Leases) (r : Request) (t : Token) (m' : Leases) : Prop :=
  t.request = r ∧ (∀ t', Holds m t' → ¬ Conflicts r t'.request) ∧
    ∀ t', Holds m' t' ↔ t' = t ∨ Holds m t'

theorem granted_rebind {terminalId n : String}
    (h : acquire m (.rebind terminalId) n = some (t, m')) : Granted m (.rebind terminalId) t m' := by
  obtain ⟨r, hr, hm⟩ := Option.map_eq_some_iff.mp h
  cases hm
  obtain ⟨hfree, rfl, howners⟩ := acquireRebindLease_eq_some hr
  refine ⟨rfl, ?_, ?_⟩
  · rintro (t | t | t | t) hheld hconf
    · have hsame : r.1.terminalId = t.terminalId := hconf
      rw [Holds, ← hsame, hfree] at hheld
      cases hheld
    · rcases t with ⟨s, _ | _, n⟩ <;> exact hconf
    · exact hconf
    · exact hconf
  · rintro (t | t | t | t)
    · simp only [Holds, howners, Token.rebind.injEq]
      exact Dict.find_assign_own RebindLeaseToken.terminalId hfree t
    · simp [Holds]
    · simp [Holds]
    · simp [Holds]

theorem granted_shared {sessionName n : String}
    (h : acquire m (.shared sessionName) n = some (t, m')) :
    Granted m (.shared sessionName) t m' := by
  obtain ⟨r, hr, hm⟩ := Option.map_eq_some_iff.mp h
  cases hm
  obtain ⟨hfree, htoken, hstore⟩ := acquireSessionLifecycleShared_eq_some hr
  refine ⟨by rw [Token.request, htoken], ?_, ?_⟩
  · rintro (t | t | t | t) hheld hconf
    · exact hconf
    · rcases t with ⟨s, _ | _, nonce⟩
      · exact hconf
      · have hsame : sessionName = s := hconf
        subst hsame
        simp [Holds, hfree] at hheld
    · exact hconf
    · exact hconf
  · rintro (t | t | t | t)
    · simp [Holds]
    · simp only [Holds, hstore, sharedOf_assign, Token.session.injEq]
      by_cases hsame : t.sessionName = sessionName
      · rw [if_pos hsame, Finset.mem_insert, hsame, hfree]
        by_cases htr : t = r.1
        · simp [htr, htoken]
        · simp [htr]
      · have hne : t ≠ r.1 := by
          rintro rfl
          exact hsame (by rw [htoken])
        simp [hsame, hne]
    · simp [Holds, hstore]
    · simp [Holds]

theorem granted_exclusive {sessionName n : String}
    (h : acquire m (.exclusive sessionName) n = some (t, m')) :
    Granted m (.exclusive sessionName) t m' := by
  obtain ⟨r, hr, hm⟩ := Option.map_eq_some_iff.mp h
  cases hm
  obtain ⟨hfree, hshared, hterminals, htoken, hstore⟩ :=
    acquireSessionLifecycleExclusive_eq_some hr
  refine ⟨by rw [Token.request, htoken], ?_, ?_⟩
  · rintro (t | t | t | t) hheld hconf
    · exact hconf
    · rcases t with ⟨s, _ | _, nonce⟩ <;> (have hsame : sessionName = s := hconf) <;>
        subst hsame
      · simp [Holds, hshared] at hheld
      · simp [Holds, hfree] at hheld
    · have hsame : sessionName = t.sessionName := hconf
      rw [Holds, TerminalLifecycleLeaseToken.key, ← hsame, hterminals] at hheld
      cases hheld
    · exact hconf
  · have hname : r.1.sessionName = sessionName := by rw [htoken]
    have hmode : r.1.mode = .exclusive := by rw [htoken]
    subst hname
    rintro (t | t | t | t)
    · simp [Holds]
    · simp only [Holds, hstore, SessionLeases.sharedOf, Token.session.injEq,
        Dict.find_assign_own SessionLifecycleLeaseToken.sessionName hfree t]
      rw [and_or_left, or_assoc, and_iff_right_of_imp fun htr => htr ▸ hmode]
    · simp [Holds, hstore]
    · simp [Holds]

theorem granted_terminalExclusive {sessionName terminalId n : String}
    (h : acquire m (.terminalExclusive sessionName terminalId) n = some (t, m')) :
    Granted m (.terminalExclusive sessionName terminalId) t m' := by
  obtain ⟨r, hr, hm⟩ := Option.map_eq_some_iff.mp h
  cases hm
  obtain ⟨hfree, hterminal, htoken, hstore⟩ := acquireSessionLifecycleTerminalExclusive_eq_some hr
  have hkey : r.1.key = (sessionName, terminalId) := by
    rw [htoken]
    rfl
  refine ⟨by rw [Token.request, htoken], ?_, ?_⟩
  · rintro (t | t | t | t) hheld hconf
    · exact hconf
    · rcases t with ⟨s, _ | _, nonce⟩
      · exact hconf
      · have hsame : sessionName = s := hconf
        subst hsame
        simp [Holds, hfree] at hheld
    · obtain ⟨hs, ht⟩ : sessionName = t.sessionName ∧ terminalId = t.terminalId := hconf
      rw [Holds, TerminalLifecycleLeaseToken.key, ← hs, ← ht, hterminal] at hheld
      cases hheld
    · exact hconf
  · rw [← hkey] at hterminal hstore
    rintro (t | t | t | t)
    · simp [Holds]
    · simp [Holds, hstore, SessionLeases.sharedOf]
    · simp only [Holds, hstore, Token.terminal.injEq]
      exact Dict.find_assign_own TerminalLifecycleLeaseToken.key hterminal t
    · simp [Holds]

theorem granted_recovery {sessionName baseName n : String}
    (h : acquire m (.recovery sessionName baseName) n = some (t, m')) :
    Granted m (.recovery sessionName baseName) t m' := by
  obtain ⟨r, hr, hm⟩ := Option.map_eq_some_iff.mp h
  cases hm
  obtain ⟨hfree, htoken, hheld'⟩ := acquireEpochRecoveryLease_eq_some hr
  refine ⟨by rw [Token.request, htoken], ?_, ?_⟩
  · rintro (t | t | t | t) hheld hconf
    · exact hconf
    · rcases t with ⟨s, _ | _, nonce⟩ <;> exact hconf
    · exact hconf
    · obtain ⟨hs, hb⟩ : sessionName = t.sessionName ∧ baseName = t.baseName := hconf
      rw [hs, hb] at hfree
      exact hfree hheld
  · rintro (t | t | t | ⟨s, b⟩)
    · simp [Holds]
    · simp [Holds]
    · simp [Holds]
    · simp [Holds, hheld', htoken]

/-- What an acquisition is refused for, and what it puts in force. -/
theorem acquired {r : Request} {n : String} (h : acquire m r n = some (t, m')) :
    Granted m r t m' := by
  cases r with
  | rebind terminalId => exact granted_rebind h
  | shared sessionName => exact granted_shared h
  | exclusive sessionName => exact granted_exclusive h
  | terminalExclusive sessionName terminalId => exact granted_terminalExclusive h
  | recovery sessionName baseName => exact granted_recovery h

/-! ## Releases -/

theorem toOption_map_eq_some {ε α β : Type} {x : Except ε α} {f : α → β} {b : β}
    (h : (x.map f).toOption = some b) : ∃ a, x = .ok a ∧ f a = b := by
  cases x with
  | error e => cases h
  | ok a => exact ⟨a, rfl, Option.some.inj h⟩

theorem released_rebind {t : RebindLeaseToken} (h : (release m (.rebind t)).toOption = some m')
    (t' : Token) : Holds m' t' ↔ Holds m t' ∧ t' ≠ .rebind t := by
  obtain ⟨l, hl, rfl⟩ := toOption_map_eq_some h
  unfold releaseRebindLease at hl
  split at hl
  · cases hl
  · next hheld =>
    cases hl
    rcases t' with t' | t' | t' | t'
    · simp only [Holds, ne_eq, Token.rebind.injEq]
      exact Dict.find_pop_own RebindLeaseToken.terminalId (not_not.mp hheld) t'
    · simp [Holds]
    · simp [Holds]
    · simp [Holds]

theorem released_session {t : SessionLifecycleLeaseToken}
    (h : (release m (.session t)).toOption = some m') (t' : Token) :
    Holds m' t' ↔ Holds m t' ∧ t' ≠ .session t := by
  obtain ⟨l, hl, rfl⟩ := toOption_map_eq_some h
  unfold releaseSessionLifecycleLease at hl
  split at hl
  · next hheld =>
    cases hl
    rcases t' with t' | t' | t' | t'
    · simp [Holds]
    · simp only [Holds, SessionLeases.sharedOf, ne_eq, Token.session.injEq,
        Dict.find_pop_own SessionLifecycleLeaseToken.sessionName hheld.2]
      by_cases heq : t' = t
      · simp [heq, hheld.1]
      · simp [heq]
    · simp [Holds]
    · simp [Holds]
  · dsimp only at hl
    split at hl
    · next hheld =>
      cases hl
      rcases t' with t' | t' | t' | t'
      · simp [Holds]
      · simp only [Holds, sharedOf_released, ne_eq, Token.session.injEq]
        by_cases hsame : t'.sessionName = t.sessionName
        · rw [if_pos hsame, hsame]
          by_cases heq : t' = t
          · simp [heq, hheld.1]
          · simp [heq]
        · simp [hsame, ne_of_apply_ne SessionLifecycleLeaseToken.sessionName hsame]
      · simp [Holds]
      · simp [Holds]
    · cases hl

theorem released_terminal {t : TerminalLifecycleLeaseToken}
    (h : (release m (.terminal t)).toOption = some m') (t' : Token) :
    Holds m' t' ↔ Holds m t' ∧ t' ≠ .terminal t := by
  obtain ⟨l, hl, rfl⟩ := toOption_map_eq_some h
  unfold releaseSessionLifecycleTerminalExclusive at hl
  split at hl
  · next hheld =>
    cases hl
    rcases t' with t' | t' | t' | t'
    · simp [Holds]
    · simp [Holds, SessionLeases.sharedOf]
    · simp only [Holds, ne_eq, Token.terminal.injEq]
      exact Dict.find_pop_own TerminalLifecycleLeaseToken.key hheld t'
    · simp [Holds]
  · cases hl

theorem released_recovery {t : EpochRecoveryLease}
    (h : (release m (.recovery t)).toOption = some m') (t' : Token) :
    Holds m' t' ↔ Holds m t' ∧ t' ≠ .recovery t := by
  obtain ⟨l, hl, rfl⟩ := toOption_map_eq_some h
  unfold releaseEpochRecoveryLease at hl
  dsimp only at hl
  split at hl
  · cases hl
  · cases hl
    rcases t' with t' | t' | t' | ⟨s', b'⟩
    · simp [Holds]
    · simp [Holds]
    · simp [Holds]
    · rcases t with ⟨s, b⟩
      simp [Holds, and_comm]

/-- A release takes its own token out of force and no other. -/
theorem released (h : (release m t).toOption = some m') (t' : Token) :
    Holds m' t' ↔ Holds m t' ∧ t' ≠ t := by
  cases t with
  | rebind t => exact released_rebind h t'
  | session t => exact released_session h t'
  | terminal t => exact released_terminal h t'
  | recovery t => exact released_recovery h t'

/-- A release raises only where its token is not in force. -/
theorem raised (h : (release m t).toOption = none) : ¬ Holds m t := by
  intro hheld
  cases t with
  | rebind t =>
    have hheld : m.rebind.owners.find t.terminalId = some t := hheld
    simp [release, releaseRebindLease, hheld, Except.map, Except.toOption] at h
  | session t =>
    obtain hheld | hheld := hheld
    · simp [release, releaseSessionLifecycleLease, hheld, Except.map, Except.toOption] at h
    · simp [release, releaseSessionLifecycleLease, hheld, Except.map, Except.toOption] at h
  | terminal t =>
    have hheld : m.session.terminalExclusive.find t.key = some t := hheld
    simp [release, releaseSessionLifecycleTerminalExclusive, hheld, Except.map,
      Except.toOption] at h
  | recovery t =>
    have hheld : (t.sessionName, t.baseName) ∈ m.recovery.held := hheld
    simp [release, releaseEpochRecoveryLease, hheld, Except.map, Except.toOption] at h

theorem lawful : leaseModule.Lawful Holds Token.request Conflicts where
  acquired := acquired
  released := released
  raised := raised

/-! ## Checks -/

/-- A rebind token passes its check exactly while it is in force. -/
theorem validateRebindLease_ok_iff (t : RebindLeaseToken) :
    validateRebindLease m.rebind t.terminalId t = .ok () ↔ Holds m (.rebind t) := by
  unfold validateRebindLease Holds
  by_cases hheld : m.rebind.owners.find t.terminalId = some t <;> simp [hheld]

/-- A shared token passes its check exactly while it is in force. -/
theorem validateSessionLifecycleShared_ok_iff (t : SessionLifecycleLeaseToken) :
    validateSessionLifecycleShared m.session t.sessionName t = .ok () ↔
      t.mode = .shared ∧ Holds m (.session t) := by
  unfold validateSessionLifecycleShared Holds
  rcases t with ⟨s, _ | _, n⟩
  · by_cases hheld : (⟨s, .shared, n⟩ : SessionLifecycleLeaseToken) ∈ m.session.sharedOf s <;>
      simp [hheld]
  · simp

/-! ## Histories -/

abbrev History := LeaseHistory Leases Request Token

abbrev Step := LeaseStep Request String

/-- The nonce a session or terminal lease is told apart by. -/
def Token.sessionNonce : Token → Option String
  | .session token => some token.nonce
  | .terminal token => some token.nonce
  | .rebind _ => none
  | .recovery _ => none

/-- `uuid4` draws no nonce twice. -/
def DrawsFresh (h : History) : Step → Prop
  | .acquire _ nonce => ∀ g ∈ h.grants, g.token.sessionNonce ≠ some nonce
  | .release _ => True

/-- The request is for a recovery lease. -/
def Request.recovers : Request → Bool
  | .recovery _ _ => true
  | _ => false

/-- A recovery lease that has been released is not released again while its key is held. -/
def SparesRecovery (h : History) : Step → Prop
  | .acquire _ _ => True
  | .release index => ∀ g ∈ h.grants[index]?, g.released = true → g.request.recovers = true →
      ∀ g' ∈ h.grants, g'.released = false → g'.request ≠ g.request

instance (h : History) (step : Step) : Decidable (DrawsFresh h step) := by
  cases step <;> simp only [DrawsFresh] <;> infer_instance

instance (h : History) (step : Step) : Decidable (SparesRecovery h step) := by
  cases step <;> simp only [SparesRecovery] <;> infer_instance

/-- No token but a recovery lease is handed out twice. -/
structure Minted (h : History) : Prop where
  named : ∀ g ∈ h.grants, g.token.request = g.request
  generations : ∀ g ∈ h.grants, ∀ t, g.token = .rebind t →
    t.generation ≤ (h.store.rebind.generations.find t.terminalId).getD 0
  once : ∀ (i j : Nat) g g', h.grants[i]? = some g → h.grants[j]? = some g' → i < j →
    g.token = g'.token → ∃ t, g.token = .recovery t

/-- A rebind token gets the next generation of its terminal, a session token its nonce. -/
theorem acquire_token {r : Request} {n : String} (h : acquire m r n = some (t, m')) :
    (∃ terminalId generation,
        generation = (m.rebind.generations.find terminalId).getD 0 + 1 ∧
          t = .rebind ⟨terminalId, generation, n⟩ ∧
          m'.rebind.generations = m.rebind.generations.assign terminalId generation) ∨
      (t.sessionNonce = some n ∨ ∃ l, t = .recovery l) ∧ m'.rebind = m.rebind := by
  cases r with
  | rebind terminalId =>
    obtain ⟨r, hr, hm⟩ := Option.map_eq_some_iff.mp h
    cases hm
    unfold acquireRebindLease at hr
    split at hr
    · cases hr
    · obtain rfl := (Option.some.inj hr).symm
      exact .inl ⟨terminalId, _, rfl, rfl, rfl⟩
  | shared sessionName =>
    obtain ⟨r, hr, hm⟩ := Option.map_eq_some_iff.mp h
    cases hm
    obtain ⟨-, htoken, -⟩ := acquireSessionLifecycleShared_eq_some hr
    exact .inr ⟨.inl (by rw [Token.sessionNonce, htoken]), rfl⟩
  | exclusive sessionName =>
    obtain ⟨r, hr, hm⟩ := Option.map_eq_some_iff.mp h
    cases hm
    obtain ⟨-, -, -, htoken, -⟩ := acquireSessionLifecycleExclusive_eq_some hr
    exact .inr ⟨.inl (by rw [Token.sessionNonce, htoken]), rfl⟩
  | terminalExclusive sessionName terminalId =>
    obtain ⟨r, hr, hm⟩ := Option.map_eq_some_iff.mp h
    cases hm
    obtain ⟨-, -, htoken, -⟩ := acquireSessionLifecycleTerminalExclusive_eq_some hr
    exact .inr ⟨.inl (by rw [Token.sessionNonce, htoken]), rfl⟩
  | recovery sessionName baseName =>
    obtain ⟨r, -, hm⟩ := Option.map_eq_some_iff.mp h
    cases hm
    exact .inr ⟨.inr ⟨r.1, rfl⟩, rfl⟩

/-- A release forgets no generation. -/
theorem generations_release (m : Leases) (t : Token) :
    ((release m t).toOption.getD m).rebind.generations = m.rebind.generations := by
  cases hr : (release m t).toOption with
  | none => rfl
  | some m' =>
    cases t with
    | rebind t =>
      obtain ⟨l, hl, rfl⟩ := toOption_map_eq_some hr
      unfold releaseRebindLease at hl
      split at hl
      · cases hl
      · cases hl
        rfl
    | _ =>
      obtain ⟨l, -, rfl⟩ := toOption_map_eq_some hr
      rfl

variable {h : History}

/-- A new token is a recovery lease or one nobody was handed before. -/
theorem Minted.fresh (hm : Minted h) {r : Request} {n : String}
    (hfresh : ∀ g ∈ h.grants, g.token.sessionNonce ≠ some n)
    (hacquire : acquire h.store r n = some (t, m')) {g : Grant Request Token}
    (hg : g ∈ h.grants) (heq : g.token = t) : ∃ l, g.token = .recovery l := by
  obtain ⟨terminalId, generation, hnext, rfl, -⟩ | ⟨hnonce | ⟨l, rfl⟩, -⟩ := acquire_token hacquire
  · have hle := hm.generations g hg _ heq
    dsimp only at hle
    omega
  · exact absurd (heq ▸ hnonce) (hfresh g hg)
  · exact ⟨l, heq⟩

/-- A granted acquisition brings a new token. -/
theorem Minted.granted (hm : Minted h) {r : Request} {n : String}
    (hfresh : ∀ g ∈ h.grants, g.token.sessionNonce ≠ some n)
    (hacquire : acquire h.store r n = some (t, m')) :
    Minted ⟨m', h.grants ++ [{ request := r, token := t }]⟩ where
  named := by
    intro g hg
    rcases List.mem_append.mp hg with hg | hg
    · exact hm.named g hg
    · rw [List.mem_singleton.mp hg]
      exact (acquired hacquire).1
  generations := by
    intro g hg token htoken
    rcases List.mem_append.mp hg with hg | hg
    · have hle := hm.generations g hg token htoken
      obtain ⟨terminalId, generation, hnext, -, hgen⟩ | ⟨-, hsame⟩ := acquire_token hacquire
      · rw [hgen, Dict.find_assign]
        by_cases hid : token.terminalId = terminalId
        · rw [hid] at hle
          simp only [hid, if_true, Option.getD_some]
          omega
        · rwa [if_neg hid]
      · rwa [hsame]
    · obtain rfl := List.mem_singleton.mp hg
      dsimp only at htoken
      obtain ⟨terminalId, generation, -, heq, hgen⟩ | ⟨hother | ⟨l, hl⟩, -⟩ :=
        acquire_token hacquire
      · cases htoken.symm.trans heq
        simp [hgen]
      · rw [htoken] at hother
        cases hother
      · rw [htoken] at hl
        cases hl
  once := by
    intro i j g g' hi hj hij heq
    rcases Nat.lt_or_ge j h.grants.length with hlt | hge
    · rw [List.getElem?_append_left hlt] at hj
      rw [List.getElem?_append_left (Nat.lt_trans hij hlt)] at hi
      exact hm.once i j g g' hi hj hij heq
    · have hlast : j = h.grants.length := by
        have hbound := (List.getElem?_eq_some_iff.mp hj).1
        rw [List.length_append, List.length_singleton] at hbound
        omega
      subst hlast
      rw [List.getElem?_concat_length] at hj
      rw [List.getElem?_append_left hij] at hi
      cases hj
      exact hm.fresh hfresh hacquire (List.mem_of_getElem? hi) heq

theorem Minted.freed (hm : Minted h) {i : Nat} {g : Grant Request Token}
    (hget : h.grants[i]? = some g) :
    Minted ⟨(release h.store g.token).toOption.getD h.store,
      h.grants.set i { g with released := true }⟩ := by
  -- a release changes no token and no request
  have hset : ∀ (j : Nat) g', (h.grants.set i { g with released := true })[j]? = some g' →
      ∃ g₀, h.grants[j]? = some g₀ ∧ g₀.token = g'.token ∧ g₀.request = g'.request := by
    intro j g' hj
    by_cases hij : i = j
    · subst hij
      rw [List.getElem?_set_self', hget] at hj
      cases hj
      exact ⟨g, hget, rfl, rfl⟩
    · rw [List.getElem?_set_ne hij] at hj
      exact ⟨g', hj, rfl, rfl⟩
  constructor
  · intro g' hg'
    obtain ⟨j, hj⟩ := List.mem_iff_getElem?.mp hg'
    obtain ⟨g₀, hg₀, htoken, hrequest⟩ := hset j g' hj
    rw [← htoken, ← hrequest]
    exact hm.named g₀ (List.mem_of_getElem? hg₀)
  · intro g' hg' token htoken
    obtain ⟨j, hj⟩ := List.mem_iff_getElem?.mp hg'
    obtain ⟨g₀, hg₀, hsame, -⟩ := hset j g' hj
    have hle := hm.generations g₀ (List.mem_of_getElem? hg₀) token (hsame.trans htoken)
    rwa [← generations_release h.store g.token] at hle
  · intro j k g' g'' hj hk hjk heq
    obtain ⟨g₀, hg₀, hsame, -⟩ := hset j g' hj
    obtain ⟨g₁, hg₁, hsame', -⟩ := hset k g'' hk
    rw [← hsame]
    exact hm.once j k g₀ g₁ hg₀ hg₁ hjk (by rw [hsame, hsame', heq])

theorem Minted.exec (hm : Minted h) {step : Step} (hfresh : DrawsFresh h step) :
    Minted (leaseModule.exec h step) := by
  cases step with
  | acquire r n =>
    cases hacquire : leaseModule.acquire h.store r n with
    | none => rwa [LeaseModule.exec_refused hacquire]
    | some result =>
      rw [LeaseModule.exec_granted hacquire]
      exact hm.granted hfresh hacquire
  | release i =>
    cases hget : h.grants[i]? with
    | none => rwa [LeaseModule.exec_release_of_none hget]
    | some g =>
      rw [LeaseModule.exec_release hget]
      exact hm.freed hget

/-- The token of a recovery lease is its request and nothing else. -/
theorem token_of_recovers {g : Grant Request Token} (hnamed : g.token.request = g.request)
    (hrecovers : g.request.recovers = true) :
    ∃ s b, g.request = .recovery s b ∧ g.token = .recovery ⟨s, b⟩ := by
  rw [← hnamed] at hrecovers ⊢
  rcases hgt : g.token with t | ⟨_, _ | _, _⟩ | t | ⟨s, b⟩ <;> rw [hgt] at hrecovers
  · cases hrecovers
  · cases hrecovers
  · cases hrecovers
  · cases hrecovers
  · exact ⟨s, b, rfl, rfl⟩

/-- In an honest history a release spares what others hold exactly when it spares the recovery
leases. -/
theorem sparesOthers_iff (hm : Minted h) (hh : LeaseModule.Honest Holds Conflicts h) (step : Step) :
    LeaseModule.SparesOthers h step ↔ SparesRecovery h step := by
  cases step with
  | acquire r n => exact Iff.rfl
  | release i =>
    constructor
    · intro hspares g hget hreleased hrecovers g' hg' hheld hsame
      obtain ⟨j, hj⟩ := List.mem_iff_getElem?.mp hg'
      obtain ⟨s, b, hrequest, htoken⟩ :=
        token_of_recovers (hm.named g (List.mem_of_getElem? hget)) hrecovers
      obtain ⟨s', b', hrequest', htoken'⟩ :=
        token_of_recovers (hm.named g' hg') (by rwa [hsame])
      have hne : j ≠ i := by
        rintro rfl
        cases hget.symm.trans hj
        rw [hheld] at hreleased
        cases hreleased
      refine hspares g hget j g' ⟨hj, hheld⟩ hne ?_
      rw [hrequest, hrequest'] at hsame
      cases hsame
      rw [htoken, htoken']
    · intro hspares g hget j g' hheld hne heq
      have hrecovery : ∃ l, g.token = .recovery l := by
        rcases Nat.lt_or_gt_of_ne hne with hlt | hgt
        · rw [← heq]
          exact hm.once j i g' g hheld.1 hget hlt heq
        · exact hm.once i j g g' hget hheld.1 hgt heq.symm
      obtain ⟨l, hl⟩ := hrecovery
      have hmem := List.mem_of_getElem? hheld.1
      have hrequest : g.request = .recovery l.sessionName l.baseName := by
        rw [← hm.named g (List.mem_of_getElem? hget), hl, Token.request]
      have hsame : g'.request = g.request := by
        rw [← hm.named g' hmem, heq, hm.named g (List.mem_of_getElem? hget)]
      cases hreleased : g.released with
      | true => exact hspares g hget hreleased (by rw [hrequest]; rfl) g' hmem hheld.2 hsame
      | false =>
        -- two holders of one key would conflict
        refine hh.excludes j i g' g hheld ⟨hget, hreleased⟩ hne ?_
        rw [hsame, hrequest]
        exact ⟨rfl, rfl⟩

/-- The modules as they are loaded. -/
def loaded : History where
  store := {}

/-- No two conflicting leases are held at the same moment, and each acquisition stays in force
until a release is called with its own token, in exactly the histories in which no recovery lease
that has been released is released again while its key is held. -/
theorem leases_honest_iff (steps : List Step)
    (hfresh : StepsSatisfy leaseModule.exec DrawsFresh loaded steps) :
    (∀ before after, steps = before ++ after →
        LeaseModule.Honest Holds Conflicts (run leaseModule.exec loaded before)) ↔
      StepsSatisfy leaseModule.exec SparesRecovery loaded steps := by
  refine forall_states_iff_of DrawsFresh SparesRecovery Minted
    (LeaseModule.Honest Holds Conflicts) (fun h step hdraw hm => hm.exec hdraw) ?_ loaded ?_ ?_
    steps hfresh
  · intro h step _ hm hh
    rw [LeaseModule.honest_exec_iff lawful conflicts_symm hm.named hh step]
    exact sparesOthers_iff hm hh step
  · constructor
    · intro g hg
      cases hg
    · intro g hg
      cases hg
    · intro i j g g' hi
      cases hi
  · constructor
    · rintro i j g g' ⟨hget, -⟩
      cases hget
    · rintro i g ⟨hget, -⟩
      cases hget

/-- Two workers on one session and a rebind; the first worker's lease is released twice. -/
def workerReleasesTwice : List Step :=
  [.acquire (.shared "cao-main") "0b7f3c52d1e84a6f9c2e5d7a8b1f4e60",
    .acquire (.shared "cao-main") "5e21c0a94f7d4b3e8a6d1c9f0b2e7d35",
    .release 0,
    .release 0,
    .acquire (.exclusive "cao-main") "d40e9a7c6b5f4e2d8c1b0a3f9e7d6c51",
    .acquire (.rebind "a1b2c3d4") "91c3e5a7b9d14f0e8c6a4b2d0f1e3c57"]

/-- A worker that releases its token a second time. -/
theorem leases_honest_iff_workerReleasesTwice :
    StepsSatisfy leaseModule.exec SparesRecovery loaded workerReleasesTwice ∧
      ∀ before after, workerReleasesTwice = before ++ after →
        LeaseModule.Honest Holds Conflicts (run leaseModule.exec loaded before) :=
  have hspares : StepsSatisfy leaseModule.exec SparesRecovery loaded workerReleasesTwice := by
    decide
  ⟨hspares, (leases_honest_iff workerReleasesTwice (by decide)).mpr hspares⟩

/-- A recovery releases its lease, another one of the same base begins, and the first releases
again. -/
def recoveryReleasesLate : List Step :=
  [.acquire (.recovery "cao-main" "base") "6f1d2c3b4a594e8f9a7b6c5d4e3f2a10",
    .release 0,
    .acquire (.recovery "cao-main" "base") "7e2c3d4a5b684f9e8b6a7d5c3f4e1b20",
    .release 0,
    .acquire (.recovery "cao-main" "base") "8d3b4e5f6c774a0d9c5b8e4f2a1d0c30"]

/-- Two recoveries of one base hold its lease at once. -/
theorem recoveryReleasesLate_not_honest :
    StepsSatisfy leaseModule.exec DrawsFresh loaded recoveryReleasesLate ∧
      ¬ LeaseModule.Honest Holds Conflicts (run leaseModule.exec loaded recoveryReleasesLate) := by
  refine ⟨by decide, ?_⟩
  intro hh
  let g : Grant Request Token :=
    { request := .recovery "cao-main" "base", token := .recovery ⟨"cao-main", "base"⟩ }
  refine hh.excludes 1 2 g g ⟨by decide, rfl⟩ ⟨by decide, rfl⟩ (by decide) ⟨rfl, rfl⟩

end CliAgentOrchestrator.Lease
