import CliAgentOrchestrator.Library.Table

/-!
# Conversation roots

The `conversation_identity` table of `clients/database.py`, one row for each conversation, with
the terminals that are its incarnations and the timeline of its events. Each function here is one
transaction. An event that is lost changes nothing else, so events are written where the source
writes them and never fail.
-/

set_option autoImplicit false

namespace CliAgentOrchestrator.Conversation

open Library

/-! ## The tables -/

/-- SOURCE: clients/database.py:428-433 -/
inductive Lifecycle
  | live
  | hibernated
  | captureUnknown
  | detached
  | expired
  | abandoned
deriving DecidableEq

/-- SOURCE: clients/database.py:434-437 -/
inductive Origin
  | spawn
  | resume
  | legacyUnknownOwner

/-- SOURCE: clients/database.py:5700-5706 -/
structure ResumeClaim where
  claimant : String
  generation : Int
  startedAt : Int
deriving DecidableEq

/-- SOURCE: clients/database.py:371-409 -/
structure Root where
  identityKey : String
  provider : String
  providerNamespace : Option String := none
  providerSessionId : Option String := none
  artifactLocator : Option String := none
  ownerPrincipal : Option String := none
  currentTerminalId : Option String := none
  generation : Int := 0
  lifecycle : Lifecycle := .live
  resumeClaim : Option ResumeClaim := none
  resumeClaimAt : Option Int := none
  origin : Origin := .spawn

/-- An incarnation, as far as a conversation reads it. -/
structure TerminalIdentity where
  terminalId : String
  identityKey : Option String := none

/-- The reasons a resume is refused for, `snake_case` tokens in the source. -/
inductive ResumeError
  | resumeNotOwner
  | sessionAbandoned
  | sessionLiveOwned
  | sessionExpired
  | sessionArtifactMissing
  | sessionResumeInProgress
  | sessionIdentityMismatch
  | sessionIdentityConflict

/-- What an event says. -/
inductive EventKind
  | resumeClaimed (claimant : String) (generation : Int)
  | resumeFailed (error : Option ResumeError)
  | claudeDivergenceRebound (was : String) (now : Option String)
  | resumePublished (providerSessionId : Option String)
  | resumedBy (principal : String)
  | uuidCaptured (providerSessionId : String)
  | uuidCaptureRejected (providerSessionId : String) (conflictingIdentity : Option String)
  | hibernated (artifactLocator : Option String)
  | abandoned
  | crashDetached
  | claimReconciled
  | claimReleasedByOwner

structure ConversationEvent where
  identityKey : String
  event : EventKind
  terminalId : Option String := none

/-- The tables, and what `_utcnow` reads. -/
structure Conversations where
  roots : Table Root.identityKey
  terminals : Table TerminalIdentity.terminalId
  events : List ConversationEvent
  utcnow : Int := 0

/-! ## Statements -/

/-- UPDATE conversation_identity SET … WHERE identity_key = ?. -/
def Conversations.updateRoot (db : Conversations) (key : String) (f : Patch Root.identityKey) :
    Conversations :=
  { db with roots := db.roots.updateKey key (fun _ => true) f }

/-- SOURCE: clients/database.py:5050-5083 -/
def recordConversationEvent (key : String) (event : EventKind) (terminalId : Option String)
    (db : Conversations) : Conversations :=
  { db with events := db.events ++ [⟨key, event, terminalId⟩] }

/-- Another root has this session. A null namespace is compared by IS NULL.
SOURCE: clients/database.py:5286-5298, 5895-5904 -/
def boundElsewhere (roots : Table Root.identityKey) (provider : String)
    (providerNamespace : Option String) (providerSessionId key : String) : Option Root :=
  roots.rows.find? fun r => r.provider == provider && r.providerNamespace == providerNamespace
    && r.providerSessionId == some providerSessionId && r.identityKey != key

/-- The unique index rejects the row: it is over the rows with a session, and null namespaces are
distinct to it.
SOURCE: clients/database.py:417-424 -/
def uqConversationIdentityBound (roots : Table Root.identityKey) (row : Root) : Bool :=
  match row.providerSessionId, row.providerNamespace with
  | some uuid, some ns => (boundElsewhere roots row.provider (some ns) uuid row.identityKey).isSome
  | _, _ => false

/-! ## Minting and binding -/

/-- The arguments of a spawn. -/
structure Spawn where
  identityKey : String
  provider : String
  providerNamespace : Option String := none
  providerSessionId : Option String := none
  ownerPrincipal : Option String := none
  currentTerminalId : String

inductive MintError
  | principalRefused
  | seededSessionConflict (conflictingIdentityKey : String)

/-- UPDATE terminal_identity SET identity_key = ?. -/
def linkPatch (key : String) : Patch TerminalIdentity.terminalId where
  apply t := { t with identityKey := some key }
  keeps _ := rfl

/-- Link a terminal to its root.
SOURCE: clients/database.py:5247-5250, 5424-5428 -/
def linkTerminal (terminalId key : String) (db : Conversations) : Conversations :=
  { db with terminals := db.terminals.updateKey terminalId (fun _ => true) (linkPatch key) }

/-- SOURCE: clients/database.py:5257-5324 -/
def mintConversationIdentity (spawn : Spawn) (ownerPrincipal : Option String)
    (db : Conversations) : Except MintError Conversations :=
  let conflict := spawn.providerSessionId.bind fun uuid =>
    boundElsewhere db.roots spawn.provider spawn.providerNamespace uuid spawn.identityKey
  match conflict with
  | some root => .error (.seededSessionConflict root.identityKey)
  | none =>
    let root : Root :=
      { identityKey := spawn.identityKey
        provider := spawn.provider
        providerNamespace := spawn.providerNamespace
        providerSessionId := spawn.providerSessionId
        ownerPrincipal := ownerPrincipal
        currentTerminalId := some spawn.currentTerminalId }
    .ok { db with roots := db.roots.insert root }

/-- `callerPrincipal` is what the spawning terminal resolves to, none where that is refused; it
is asked where no owner is named.
SOURCE: clients/database.py:5340-5434 -/
def mintSpawnIdentity (spawn : Spawn) (callerPrincipal : Option (Option String))
    (db : Conversations) : Except MintError Conversations :=
  if (db.roots.get spawn.identityKey).isSome then .ok db
  else
    let owner := match spawn.ownerPrincipal with
      | some principal => some (some principal)
      | none => callerPrincipal
    match owner with
    | none => .error .principalRefused
    | some owner =>
      (mintConversationIdentity spawn owner db).map
        (linkTerminal spawn.currentTerminalId spawn.identityKey)

/-- SET provider_session_id, and the namespace and the locator where they are given. -/
def bindPatch (providerSessionId : String) (providerNamespace artifactLocator : Option String) :
    Patch Root.identityKey where
  apply root := { root with
    providerSessionId := some providerSessionId
    providerNamespace := providerNamespace.or root.providerNamespace
    artifactLocator := artifactLocator.or root.artifactLocator }
  keeps _ := rfl

/-- SOURCE: clients/database.py:5878-5917 -/
def bindProviderSessionId (key providerSessionId : String)
    (providerNamespace artifactLocator : Option String) (db : Conversations) :
    Bool × Conversations :=
  match db.roots.get key with
  | none => (false, db)
  | some root =>
    if (boundElsewhere db.roots root.provider (providerNamespace.or root.providerNamespace)
        providerSessionId key).isSome then (false, db)
    else (true, db.updateRoot key (bindPatch providerSessionId providerNamespace artifactLocator))

/-! ## Claim and publish -/

def claimPatch (claim : ResumeClaim) : Patch Root.identityKey where
  apply root := { root with
    resumeClaim := some claim, resumeClaimAt := some claim.startedAt
    generation := claim.generation }
  keeps _ := rfl

/-- Compare and set of the claim.
SOURCE: clients/database.py:5690-5724 -/
def claimResume (key : String) (expectedGeneration : Int) (claimant : String)
    (db : Conversations) : Bool × Conversations :=
  let free := fun root : Root =>
    root.resumeClaim.isNone && root.generation == expectedGeneration
  let claim : ResumeClaim := ⟨claimant, expectedGeneration + 1, db.utcnow⟩
  ((db.roots.get key).any free,
    { db with roots := db.roots.updateKey key free (claimPatch claim) })

def releasePatch : Patch Root.identityKey where
  apply root := { root with resumeClaim := none, resumeClaimAt := none }
  keeps _ := rfl

/-- SOURCE: clients/database.py:5727-5739 -/
def clearResumeClaim (key : String) (db : Conversations) : Conversations :=
  db.updateRoot key releasePatch

/-- SET current_terminal_id, lifecycle, the claim and the origin, and what is given of the
rest. -/
def publishPatch (terminalId : String)
    (providerSessionId providerNamespace artifactLocator : Option String) (lifecycle : Lifecycle) :
    Patch Root.identityKey where
  apply root := { root with
    currentTerminalId := some terminalId
    lifecycle := lifecycle
    resumeClaim := none
    resumeClaimAt := none
    origin := .resume
    providerSessionId := providerSessionId.or root.providerSessionId
    providerNamespace := providerNamespace.or root.providerNamespace
    artifactLocator := artifactLocator.or root.artifactLocator }
  keeps _ := rfl

inductive IntegrityError
  | uqConversationIdentityBound

/-- False where the unique index rejected the row and the transaction was rolled back.
SOURCE: clients/database.py:5816-5848 -/
def publishCurrentTerminal (key terminalId : String)
    (providerSessionId providerNamespace artifactLocator : Option String) (lifecycle : Lifecycle)
    (db : Conversations) : Except IntegrityError Unit × Conversations :=
  let patch := publishPatch terminalId providerSessionId providerNamespace artifactLocator lifecycle
  match db.roots.get key with
  | none => (.ok (), db)
  | some root =>
    if uqConversationIdentityBound db.roots (patch.apply root) then
      (.error .uqConversationIdentityBound, db)
    else (.ok (), db.updateRoot key patch)

def lifecyclePatch (lifecycle : Lifecycle) (artifactLocator : Option String) :
    Patch Root.identityKey where
  apply root := { root with
    lifecycle := lifecycle, artifactLocator := artifactLocator.or root.artifactLocator }
  keeps _ := rfl

/-- SOURCE: clients/database.py:5851-5875 -/
def setConversationLifecycle (key : String) (lifecycle : Lifecycle)
    (artifactLocator : Option String) (db : Conversations) : Conversations :=
  db.updateRoot key (lifecyclePatch lifecycle artifactLocator)

/-! ## Stale claims -/

/-- A claim is at least this old, or nobody knows how old it is.
SOURCE: clients/database.py:5792-5803, 6003-6012 -/
def staleClaim (claimTtl utcnow : Int) (root : Root) : Bool :=
  root.resumeClaim.isSome && root.resumeClaimAt.all (· ≤ utcnow - claimTtl)

/-- The keys of the roots whose claim was taken away.
SOURCE: clients/database.py:5990-6018 -/
def reconcileStaleResumeClaims (claimTtl : Int) (db : Conversations) :
    List String × Conversations :=
  ((db.roots.select (staleClaim claimTtl db.utcnow)).map (·.identityKey),
    { db with roots := db.roots.update (staleClaim claimTtl db.utcnow) releasePatch })

inductive ReleaseReason
  | released (quiesced : Bool)
  | unknownIdentity
  | notOwner
  | noActiveClaim
  | claimantLive

/-- SOURCE: clients/database.py:5742-5809 -/
def releaseResumeClaimOwned (key ownerPrincipal : String) (claimTtl : Int)
    (db : Conversations) : ReleaseReason × Conversations :=
  match db.roots.get key with
  | none => (.unknownIdentity, db)
  | some root =>
    if root.ownerPrincipal ≠ some ownerPrincipal then (.notOwner, db)
    else if root.resumeClaim = none then (.noActiveClaim, db)
    else if !staleClaim claimTtl db.utcnow root then (.claimantLive, db)
    else (.released root.resumeClaimAt.isSome, db.updateRoot key releasePatch)

/-! ## Spawned terminals -/

/-- The create transaction of a resumed spawn: the incarnation, linked to the claimed root.
SOURCE: clients/database.py:5212-5254 -/
def createLinkedTerminal (terminalId key : String) (db : Conversations) : Conversations :=
  linkTerminal terminalId key { db with terminals := db.terminals.insert ⟨terminalId, none⟩ }

end CliAgentOrchestrator.Conversation
