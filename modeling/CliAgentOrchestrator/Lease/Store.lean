import Mathlib.Data.Finset.Basic
import CliAgentOrchestrator.Library.Dict
import CliAgentOrchestrator.Library.Lease

/-!
# The lease modules

`services/rebind_lease.py`, `services/session_lifecycle_lease.py` and
`services/epoch_recovery_lease.py`: the module globals and what one call does to them under its
guard. A nonce is what `uuid.uuid4().hex` draws. A blocking acquire is a sequence of attempts.
-/

set_option autoImplicit false

namespace CliAgentOrchestrator.Lease

open Library

/-! ## Rebind leases -/

/-- SOURCE: services/rebind_lease.py:10-14 -/
structure RebindLeaseToken where
  terminalId : String
  generation : Int
  nonce : String
deriving DecidableEq

/-- SOURCE: services/rebind_lease.py:18-19 -/
structure RebindLeases where
  owners : Dict String RebindLeaseToken := .empty
  generations : Dict String Int := .empty

/-- SOURCE: services/rebind_lease.py:22-30 -/
def acquireRebindLease (m : RebindLeases) (terminalId nonce : String) :
    Option (RebindLeaseToken × RebindLeases) :=
  if (m.owners.find terminalId).isSome then none
  else
    let generation := (m.generations.find terminalId).getD 0 + 1
    let token : RebindLeaseToken := { terminalId, generation, nonce }
    some (token,
      { owners := m.owners.assign terminalId token
        generations := m.generations.assign terminalId generation })

/-- SOURCE: services/rebind_lease.py:33-36 -/
def validateRebindLease (m : RebindLeases) (terminalId : String) (token : RebindLeaseToken) :
    Except String Unit :=
  if token.terminalId ≠ terminalId ∨ m.owners.find terminalId ≠ some token then
    .error "invalid_rebind_lease_token"
  else .ok ()

/-- SOURCE: services/rebind_lease.py:39-43 -/
def releaseRebindLease (m : RebindLeases) (token : RebindLeaseToken) :
    Except String RebindLeases :=
  if m.owners.find token.terminalId ≠ some token then .error "invalid_rebind_lease_token"
  else .ok { m with owners := m.owners.pop token.terminalId }

/-! ## Session lifecycle leases -/

inductive LeaseMode
  | shared
  | exclusive
deriving DecidableEq

/-- SOURCE: services/session_lifecycle_lease.py:10-14 -/
structure SessionLifecycleLeaseToken where
  sessionName : String
  mode : LeaseMode
  nonce : String
deriving DecidableEq

/-- SOURCE: services/session_lifecycle_lease.py:17-23 -/
structure TerminalLifecycleLeaseToken where
  sessionName : String
  terminalId : String
  nonce : String
deriving DecidableEq

/-- The key of a terminal-exclusive lease. -/
def TerminalLifecycleLeaseToken.key (t : TerminalLifecycleLeaseToken) : String × String :=
  (t.sessionName, t.terminalId)

/-- SOURCE: services/session_lifecycle_lease.py:27-36 -/
structure SessionLeases where
  shared : Dict String (Finset SessionLifecycleLeaseToken) := .empty
  exclusive : Dict String SessionLifecycleLeaseToken := .empty
  terminalExclusive : Dict (String × String) TerminalLifecycleLeaseToken := .empty

/-- The shared leases of a session. -/
def SessionLeases.sharedOf (m : SessionLeases) (sessionName : String) :
    Finset SessionLifecycleLeaseToken :=
  (m.shared.find sessionName).getD ∅

/-- SOURCE: services/session_lifecycle_lease.py:39-45 -/
def acquireSessionLifecycleShared (m : SessionLeases) (sessionName nonce : String) :
    Option (SessionLifecycleLeaseToken × SessionLeases) :=
  if (m.exclusive.find sessionName).isSome then none
  else
    let token : SessionLifecycleLeaseToken := { sessionName, mode := .shared, nonce }
    some (token,
      { m with shared := m.shared.assign sessionName (insert token (m.sharedOf sessionName)) })

/-- SOURCE: services/session_lifecycle_lease.py:48-59 -/
def acquireSessionLifecycleExclusive (m : SessionLeases) (sessionName nonce : String) :
    Option (SessionLifecycleLeaseToken × SessionLeases) :=
  if (m.exclusive.find sessionName).isSome ∨ m.sharedOf sessionName ≠ ∅ then none
  else if m.terminalExclusive.rows.any fun e => e.1.1 == sessionName then none
  else
    let token : SessionLifecycleLeaseToken := { sessionName, mode := .exclusive, nonce }
    some (token, { m with exclusive := m.exclusive.assign sessionName token })

/-- SOURCE: services/session_lifecycle_lease.py:62-89 -/
def acquireSessionLifecycleTerminalExclusive (m : SessionLeases)
    (sessionName terminalId nonce : String) :
    Option (TerminalLifecycleLeaseToken × SessionLeases) :=
  if (m.exclusive.find sessionName).isSome then none
  else if (m.terminalExclusive.find (sessionName, terminalId)).isSome then none
  else
    let token : TerminalLifecycleLeaseToken := { sessionName, terminalId, nonce }
    some (token,
      { m with
        terminalExclusive := m.terminalExclusive.assign (sessionName, terminalId) token })

/-- SOURCE: services/session_lifecycle_lease.py:120-127 -/
def releaseSessionLifecycleTerminalExclusive (m : SessionLeases)
    (token : TerminalLifecycleLeaseToken) : Except String SessionLeases :=
  if m.terminalExclusive.find token.key = some token then
    .ok { m with terminalExclusive := m.terminalExclusive.pop token.key }
  else .error "invalid_terminal_lifecycle_lease_token"

/-- SOURCE: services/session_lifecycle_lease.py:168-174 -/
def validateSessionLifecycleShared (m : SessionLeases) (sessionName : String)
    (token : SessionLifecycleLeaseToken) : Except String Unit :=
  if token.mode ≠ .shared ∨ token ∉ m.sharedOf sessionName then
    .error "invalid_session_lifecycle_lease_token"
  else .ok ()

/-- SOURCE: services/session_lifecycle_lease.py:177-188 -/
def releaseSessionLifecycleLease (m : SessionLeases) (token : SessionLifecycleLeaseToken) :
    Except String SessionLeases :=
  if token.mode = .exclusive ∧ m.exclusive.find token.sessionName = some token then
    .ok { m with exclusive := m.exclusive.pop token.sessionName }
  else if token.mode = .shared ∧ token ∈ m.sharedOf token.sessionName then
    let rest := (m.sharedOf token.sessionName).erase token
    .ok { m with
      shared :=
        if rest = ∅ then m.shared.pop token.sessionName
        else m.shared.assign token.sessionName rest }
  else .error "invalid_session_lifecycle_lease_token"

/-! ## Epoch recovery leases -/

/-- SOURCE: services/epoch_recovery_lease.py:7-10 -/
structure EpochRecoveryLease where
  sessionName : String
  baseName : String
deriving DecidableEq

/-- SOURCE: services/epoch_recovery_lease.py:14 -/
structure RecoveryLeases where
  held : Finset (String × String) := ∅

/-- SOURCE: services/epoch_recovery_lease.py:17-23 -/
def acquireEpochRecoveryLease (m : RecoveryLeases) (sessionName baseName : String) :
    Option (EpochRecoveryLease × RecoveryLeases) :=
  let key := (sessionName, baseName)
  if key ∈ m.held then none
  else some ({ sessionName, baseName }, { held := insert key m.held })

/-- SOURCE: services/epoch_recovery_lease.py:26-31 -/
def releaseEpochRecoveryLease (m : RecoveryLeases) (token : EpochRecoveryLease) :
    Except String RecoveryLeases :=
  let key := (token.sessionName, token.baseName)
  if key ∉ m.held then .error "invalid_epoch_recovery_lease"
  else .ok { held := m.held.erase key }

/-! ## The modules together -/

/-- What a holder may ask for. -/
inductive Request
  | rebind (terminalId : String)
  | shared (sessionName : String)
  | exclusive (sessionName : String)
  | terminalExclusive (sessionName terminalId : String)
  | recovery (sessionName baseName : String)
deriving DecidableEq

inductive Token
  | rebind (token : RebindLeaseToken)
  | session (token : SessionLifecycleLeaseToken)
  | terminal (token : TerminalLifecycleLeaseToken)
  | recovery (token : EpochRecoveryLease)
deriving DecidableEq

/-- The globals of the three modules. -/
structure Leases where
  rebind : RebindLeases := {}
  session : SessionLeases := {}
  recovery : RecoveryLeases := {}

def acquire (m : Leases) (request : Request) (nonce : String) : Option (Token × Leases) :=
  match request with
  | .rebind terminalId =>
    (acquireRebindLease m.rebind terminalId nonce).map fun r =>
      (.rebind r.1, { m with rebind := r.2 })
  | .shared sessionName =>
    (acquireSessionLifecycleShared m.session sessionName nonce).map fun r =>
      (.session r.1, { m with session := r.2 })
  | .exclusive sessionName =>
    (acquireSessionLifecycleExclusive m.session sessionName nonce).map fun r =>
      (.session r.1, { m with session := r.2 })
  | .terminalExclusive sessionName terminalId =>
    (acquireSessionLifecycleTerminalExclusive m.session sessionName terminalId nonce).map
      fun r => (.terminal r.1, { m with session := r.2 })
  | .recovery sessionName baseName =>
    (acquireEpochRecoveryLease m.recovery sessionName baseName).map fun r =>
      (.recovery r.1, { m with recovery := r.2 })

def release (m : Leases) : Token → Except String Leases
  | .rebind token => (releaseRebindLease m.rebind token).map fun r => { m with rebind := r }
  | .session token =>
    (releaseSessionLifecycleLease m.session token).map fun r => { m with session := r }
  | .terminal token =>
    (releaseSessionLifecycleTerminalExclusive m.session token).map fun r =>
      { m with session := r }
  | .recovery token =>
    (releaseEpochRecoveryLease m.recovery token).map fun r => { m with recovery := r }

def leaseModule : LeaseModule Leases Request String Token where
  acquire := acquire
  release := fun m token => (release m token).toOption

/-! ## What is in force -/

/-- The store has the token in force. -/
def Holds (m : Leases) : Token → Prop
  | .rebind token => m.rebind.owners.find token.terminalId = some token
  | .session token =>
    (token.mode = .exclusive ∧ m.session.exclusive.find token.sessionName = some token) ∨
      (token.mode = .shared ∧ token ∈ m.session.sharedOf token.sessionName)
  | .terminal token => m.session.terminalExclusive.find token.key = some token
  | .recovery token => (token.sessionName, token.baseName) ∈ m.recovery.held

/-- What a token was asked for. -/
def Token.request : Token → Request
  | .rebind token => .rebind token.terminalId
  | .session token =>
    match token.mode with
    | .shared => .shared token.sessionName
    | .exclusive => .exclusive token.sessionName
  | .terminal token => .terminalExclusive token.sessionName token.terminalId
  | .recovery token => .recovery token.sessionName token.baseName

/-- Leases that must not be held at the same moment. -/
def Conflicts : Request → Request → Prop
  | .rebind t, .rebind t' => t = t'
  | .exclusive s, .shared s' => s = s'
  | .shared s, .exclusive s' => s = s'
  | .exclusive s, .exclusive s' => s = s'
  | .exclusive s, .terminalExclusive s' _ => s = s'
  | .terminalExclusive s _, .exclusive s' => s = s'
  | .terminalExclusive s t, .terminalExclusive s' t' => s = s' ∧ t = t'
  | .recovery s b, .recovery s' b' => s = s' ∧ b = b'
  | _, _ => False

/-- Conflicts are mutual. -/
theorem conflicts_symm (r r' : Request) (h : Conflicts r r') : Conflicts r' r := by
  cases r <;> cases r' <;> first | exact h.elim | exact h.symm | exact ⟨h.1.symm, h.2.symm⟩

end CliAgentOrchestrator.Lease
