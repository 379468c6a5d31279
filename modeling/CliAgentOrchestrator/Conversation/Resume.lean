import CliAgentOrchestrator.Conversation.Transition

/-!
# Resuming and ending an incarnation

The services on either side of an attach: a resume attempt up to its spawn and its compensation,
what takes a claim away, and what ends an incarnation.
-/

set_option autoImplicit false

namespace CliAgentOrchestrator.Conversation

open Library

/-! ## Resume attempts -/

/-- SOURCE: services/conversation_transition.py:229-275, services/fork_context_service.py:420-426 -/
def authorizeAndClassifyResume (root : Root) (callerPrincipal : Option String) :
    Except ResumeError ResumeAdmission :=
  if callerPrincipal = none ∨ root.ownerPrincipal = none ∨
      root.ownerPrincipal ≠ callerPrincipal then .error .resumeNotOwner
  else
    match root.lifecycle with
    | .hibernated | .detached =>
      .ok
        { identityKey := root.identityKey
          generation := root.generation
          provider := root.provider
          providerSessionId := root.providerSessionId }
    | .abandoned => .error .sessionAbandoned
    | .live => .error .sessionLiveOwned
    | .expired => .error .sessionExpired
    | .captureUnknown => .error .sessionArtifactMissing

/-- SOURCE: services/conversation_transition.py:278-307 -/
def claimResumeAdmission (admission : ResumeAdmission) (claimant : String) :
    Db (Except ResumeError ResumeAdmission) := do
  let won ← Db.claimResume admission.identityKey admission.generation claimant
  if won then do
    Db.recordConversationEvent admission.identityKey
      (.resumeClaimed claimant (admission.generation + 1)) none
    return .ok { admission with claimedBy := some claimant }
  else return .error .sessionResumeInProgress

/-- What becomes of the spawn of a resume. -/
inductive SpawnOutcome
  | spawned
  | failedBeforeLink
  | failedAfterLink

/-- The compensation of a failed spawn.
SOURCE: api/main.py:4979-4999 -/
def compensateClaim (key : String) : Db Unit := do
  Db.clearResumeClaim key
  Db.recordConversationEvent key (.resumeFailed none) none

/-- One resume attempt, from the root it reads to the terminal it spawns.
SOURCE: api/main.py:4567-4671, 4941-4999 -/
def resumeAttempt (key : String) (callerPrincipal : Option String) (claimant terminalId : String)
    (outcome : SpawnOutcome) : Db Unit := do
  let found ← Db.getConversationIdentity key
  match found.map (authorizeAndClassifyResume · callerPrincipal) with
  | some (.ok admission) =>
    let claimed ← claimResumeAdmission admission claimant
    match claimed, outcome with
    | .error _, _ => return ()
    | .ok _, .spawned => Db.createLinkedTerminal terminalId key
    | .ok _, .failedBeforeLink => compensateClaim key
    | .ok _, .failedAfterLink => do
      Db.createLinkedTerminal terminalId key
      compensateClaim key
  | _ => return ()

/-! ## Claims that are taken away -/

/-- SOURCE: clients/database.py:6019-6021 -/
def recordReconciled : List String → Db Unit
  | [] => return ()
  | key :: keys => do
    Db.recordConversationEvent key .claimReconciled none
    recordReconciled keys

/-- SOURCE: clients/database.py:5990-6021 -/
def reconcileStaleClaims (claimTtl : Int) : Db Unit := do
  let keys ← Db.reconcileStaleResumeClaims claimTtl
  recordReconciled keys

/-- SOURCE: clients/database.py:5742-5813 -/
def releaseOwnedClaim (key ownerPrincipal : String) (claimTtl : Int) : Db ReleaseReason := do
  let reason ← Db.releaseResumeClaimOwned key ownerPrincipal claimTtl
  match reason with
  | .released quiesced =>
    if quiesced then Db.recordConversationEvent key .claimReconciled none
    Db.recordConversationEvent key .claimReleasedByOwner none
    return reason
  | _ => return reason

/-! ## Incarnations that end -/

/-- The first transaction settles the rows of the dead terminal and finds its root; the root is
written in the second.
SOURCE: clients/database.py:8191-8262 -/
def crashDetachTerminal (terminalId : String) : Db Unit := do
  let identity ← Db.getTerminalIdentity terminalId
  match (identity.bind (·.identityKey)).filter (· != "") with
  | none => return ()
  | some key =>
    Db.setConversationLifecycle key .detached none
    Db.recordConversationEvent key .crashDetached (some terminalId)

/-- SOURCE: services/conversation_transition.py:38-49 -/
structure HibernateDecision where
  allowed : Bool
  lifecycle : Option Lifecycle := none
  identityKey : Option String := none
  artifactLocator : Option String := none

/-- `artifact` is what the artifact resolver finds: nothing valid, or a valid one with its
locator.
SOURCE: services/conversation_transition.py:66-143 -/
def evaluatePlannedHibernate (terminalId : String) (artifact : Option (Option String)) :
    Db HibernateDecision := do
  let found ← rootForTerminal terminalId
  match found with
  | none => return { allowed := true }
  | some root =>
    if root.lifecycle = .captureUnknown then
      return { allowed := false, identityKey := some root.identityKey }
    else
      match artifact with
      | some locator =>
        return { allowed := true, lifecycle := some .hibernated
                 identityKey := some root.identityKey, artifactLocator := locator }
      | none => return { allowed := false, identityKey := some root.identityKey }

/-- SOURCE: services/conversation_transition.py:146-176 -/
def commitHibernate (decision : HibernateDecision) : Db Unit :=
  match decision.allowed, decision.lifecycle, decision.identityKey with
  | true, some lifecycle, some key => do
    Db.setConversationLifecycle key lifecycle decision.artifactLocator
    Db.recordConversationEvent key (.hibernated decision.artifactLocator) none
  | _, _, _ => return ()

/-- SOURCE: services/conversation_transition.py:179-201 -/
def commitReap (terminalId : String) : Db (Option String) := do
  let found ← rootForTerminal terminalId
  match found with
  | none => return none
  | some root =>
    Db.setConversationLifecycle root.identityKey .abandoned none
    Db.recordConversationEvent root.identityKey .abandoned (some terminalId)
    return some root.identityKey

end CliAgentOrchestrator.Conversation
