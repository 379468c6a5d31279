import CliAgentOrchestrator.Conversation.Calls

/-!
# Attach, verify and publish

The two calls of `services/conversation_transition.py` that complete a resume. Each goes to the
database several times, every time in a transaction of its own, so each is a `Program`.

`sameFile` is what the file system says of two paths.
-/

set_option autoImplicit false

namespace CliAgentOrchestrator.Conversation

open Library

/-- SOURCE: services/conversation_transition.py:210-226 -/
structure ResumeAdmission where
  identityKey : String
  generation : Int
  provider : Option String := none
  providerSessionId : Option String := none
  claimedBy : Option String := none

/-- SOURCE: services/conversation_transition.py:311-316 -/
structure VerifyResult where
  error : Option ResumeError
  publishedSessionId : Option String

/-- SOURCE: services/conversation_transition.py:521-612 -/
inductive AttachResult
  | noRoot
  | resumePublished
  | resumeFailed (error : Option ResumeError)
  | captureRejected (conflictingIdentity : Option String)
  | captured

/-- Python's `or`: an empty text counts as none. -/
def orText (a b : Option String) : Option String := if a.any (· != "") then a else b

/-- SOURCE: services/conversation_transition.py:319-330 -/
def isSameFile (sameFile : String → String → Bool) (a b : Option String) : Bool :=
  match a, b with
  | some a, some b => a != "" && b != "" && sameFile a b
  | _, _ => false

/-- SOURCE: services/conversation_transition.py:51-61 -/
def rootForTerminal (terminalId : String) : Db (Option Root) := do
  let identity ← Db.getTerminalIdentity terminalId
  match identity.bind (·.identityKey) with
  | none => return none
  | some key =>
    if key = "" then return none
    else Db.getConversationIdentity key

/-- The claimant of the newest claim on record.
SOURCE: services/conversation_transition.py:460-491 -/
def claimantFromEvents (events : List ConversationEvent) : Option String :=
  events.reverse.findSome? fun e =>
    match e.event with
    | .resumeClaimed claimant _ => some claimant
    | _ => none

/-- A failed resume: the claim goes, and the failure is put on record, twice.
SOURCE: services/conversation_transition.py:365-370 -/
def failResume (key terminalId : String) (error : ResumeError) :
    Db (Except IntegrityError VerifyResult) := do
  Db.clearResumeClaim key
  Db.recordConversationEvent key (.resumeFailed none) none
  Db.recordConversationEvent key (.resumeFailed (some error)) (some terminalId)
  return .ok ⟨some error, none⟩

/-- SOURCE: services/conversation_transition.py:412-451 -/
def publishResume (admission : ResumeAdmission) (terminalId : String)
    (publishUuid reportedArtifactLocator : Option String) :
    Db (Except IntegrityError VerifyResult) := do
  let key := admission.identityKey
  let published ← Db.publishCurrentTerminal key terminalId publishUuid none
    reportedArtifactLocator .live
  match published with
  | .error e => return .error e
  | .ok () =>
    Db.recordConversationEvent key (.resumePublished publishUuid) (some terminalId)
    let recorded ← Db.getConversationEvents key
    match orText admission.claimedBy (claimantFromEvents recorded) with
    | none => return .ok ⟨none, publishUuid⟩
    | some claimant =>
      if claimant ≠ "" then
        Db.recordConversationEvent key (.resumedBy claimant) (some terminalId)
      return .ok ⟨none, publishUuid⟩

/-- SOURCE: services/conversation_transition.py:333-451 -/
def verifyAndPublishResume (sameFile : String → String → Bool) (admission : ResumeAdmission)
    (terminalId : String) (reportedSessionId reportedArtifactLocator provider : Option String) :
    Db (Except IntegrityError VerifyResult) :=
  let key := admission.identityKey
  match admission.providerSessionId with
  | some expected =>
    if reportedSessionId = some expected then
      publishResume admission terminalId (some expected) reportedArtifactLocator
    else if orText provider admission.provider = some "claude_code" then do
      let root ← Db.getConversationIdentity key
      if isSameFile sameFile reportedArtifactLocator (root.bind (·.artifactLocator)) then do
        let rebound := (orText reportedSessionId (some expected)).getD expected
        let bound ← Db.bindProviderSessionId key rebound none reportedArtifactLocator
        if bound then do
          Db.recordConversationEvent key
            (.claudeDivergenceRebound expected reportedSessionId) (some terminalId)
          publishResume admission terminalId reportedSessionId reportedArtifactLocator
        else do
          Db.recordConversationEvent key
            (.resumeFailed (some .sessionIdentityConflict)) (some terminalId)
          Db.clearResumeClaim key
          return .ok ⟨some .sessionIdentityConflict, none⟩
      else failResume key terminalId .sessionIdentityMismatch
    else failResume key terminalId .sessionIdentityMismatch
  | none =>
    -- capture on resume: whatever id is reported becomes the binding
    publishResume admission terminalId (if reportedSessionId.any (· != "") then reportedSessionId
      else none) reportedArtifactLocator

/-- What the terminal reported.
SOURCE: services/conversation_transition.py:499-506 -/
structure Report where
  terminalId : String
  providerSessionId : String
  provider : Option String := none
  providerNamespace : Option String := none
  artifactLocator : Option String := none

/-- The fresh capture of an id.
SOURCE: services/conversation_transition.py:556-612 -/
def captureUuid (report : Report) (root : Root) :
    Db (Except IntegrityError AttachResult) := do
  let key := root.identityKey
  let bound ← Db.bindProviderSessionId key report.providerSessionId
    report.providerNamespace report.artifactLocator
  if bound then do
    Db.recordConversationEvent key (.uuidCaptured report.providerSessionId)
      (some report.terminalId)
    let updated ← Db.getConversationIdentity key
    if updated.any (·.lifecycle == .captureUnknown) then
      Db.setConversationLifecycle key .live none
    return .ok .captured
  else do
    let ns := report.providerNamespace.or root.providerNamespace
    let conflicting ← Db.conflictingIdentity root.provider ns report.providerSessionId key
    Db.recordConversationEvent key
      (.uuidCaptureRejected report.providerSessionId conflicting) (some report.terminalId)
    return .ok (.captureRejected conflicting)

/-- The admission of a reported id, made of the root as it is.
SOURCE: services/conversation_transition.py:538-545 -/
def attachAdmission (report : Report) (root : Root) : ResumeAdmission where
  identityKey := root.identityKey
  generation := root.generation
  provider := orText report.provider (some root.provider)
  providerSessionId := root.providerSessionId

/-- SOURCE: services/conversation_transition.py:499-612 -/
def attachCapturedUuid (sameFile : String → String → Bool) (report : Report) :
    Db (Except IntegrityError AttachResult) := do
  let found ← rootForTerminal report.terminalId
  match found with
  | none => return .ok .noRoot
  | some root =>
    if root.resumeClaim.isSome then do
      let result ← verifyAndPublishResume sameFile (attachAdmission report root) report.terminalId
        (some report.providerSessionId) report.artifactLocator
        (orText report.provider (some root.provider))
      match result with
      | .error e => return .error e
      | .ok verified =>
        return .ok (if verified.error.isNone then .resumePublished
          else .resumeFailed verified.error)
    else captureUuid report root

end CliAgentOrchestrator.Conversation
