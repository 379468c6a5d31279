import CliAgentOrchestrator.Conversation.Root
import CliAgentOrchestrator.Library.Program

/-!
# The database calls

Every transaction that the services make on conversations, as data: `DbCall.exec` runs one, and a
service is a program of them (`Db`).
-/

set_option autoImplicit false

namespace CliAgentOrchestrator.Conversation

open Library

inductive DbCall
  | getTerminalIdentity (terminalId : String)
  | getConversationIdentity (key : String)
  | conflictingIdentity (provider : String) (providerNamespace : Option String)
      (providerSessionId key : String)
  | getConversationEvents (key : String)
  | recordConversationEvent (key : String) (event : EventKind) (terminalId : Option String)
  | bindProviderSessionId (key providerSessionId : String)
      (providerNamespace artifactLocator : Option String)
  | claimResume (key : String) (expectedGeneration : Int) (claimant : String)
  | clearResumeClaim (key : String)
  | reconcileStaleResumeClaims (claimTtl : Int)
  | releaseResumeClaimOwned (key ownerPrincipal : String) (claimTtl : Int)
  | createLinkedTerminal (terminalId key : String)
  | publishCurrentTerminal (key terminalId : String)
      (providerSessionId providerNamespace artifactLocator : Option String)
      (lifecycle : Lifecycle)
  | setConversationLifecycle (key : String) (lifecycle : Lifecycle)
      (artifactLocator : Option String)

namespace DbCall

def Answer : DbCall → Type
  | getTerminalIdentity _ => Option TerminalIdentity
  | getConversationIdentity _ => Option Root
  | conflictingIdentity .. => Option String
  | getConversationEvents _ => List ConversationEvent
  | recordConversationEvent .. => Unit
  | bindProviderSessionId .. => Bool
  | claimResume .. => Bool
  | clearResumeClaim _ => Unit
  | reconcileStaleResumeClaims _ => List String
  | releaseResumeClaimOwned .. => ReleaseReason
  | createLinkedTerminal .. => Unit
  | publishCurrentTerminal .. => Except IntegrityError Unit
  | setConversationLifecycle .. => Unit

/-- SOURCE: clients/database.py:5690-6018, services/conversation_transition.py:571-590 -/
def exec : ∀ call : DbCall, Conversations → call.Answer × Conversations
  | getTerminalIdentity terminalId, db => (db.terminals.get terminalId, db)
  | getConversationIdentity key, db => (db.roots.get key, db)
  | conflictingIdentity provider ns uuid key, db =>
    ((boundElsewhere db.roots provider ns uuid key).map (·.identityKey), db)
  | getConversationEvents key, db => (db.events.filter (·.identityKey == key), db)
  | recordConversationEvent key event terminalId, db =>
    ((), Conversation.recordConversationEvent key event terminalId db)
  | bindProviderSessionId key uuid ns locator, db =>
    Conversation.bindProviderSessionId key uuid ns locator db
  | claimResume key generation claimant, db =>
    Conversation.claimResume key generation claimant db
  | clearResumeClaim key, db => ((), Conversation.clearResumeClaim key db)
  | reconcileStaleResumeClaims claimTtl, db =>
    Conversation.reconcileStaleResumeClaims claimTtl db
  | releaseResumeClaimOwned key owner claimTtl, db =>
    Conversation.releaseResumeClaimOwned key owner claimTtl db
  | createLinkedTerminal terminalId key, db =>
    ((), Conversation.createLinkedTerminal terminalId key db)
  | publishCurrentTerminal key terminalId uuid ns locator lifecycle, db =>
    Conversation.publishCurrentTerminal key terminalId uuid ns locator lifecycle db
  | setConversationLifecycle key lifecycle locator, db =>
    ((), Conversation.setConversationLifecycle key lifecycle locator db)

end DbCall

/-- What a service does, call by call. -/
abbrev Db := Program DbCall DbCall.Answer

namespace Db

/-! ## One call -/

def getTerminalIdentity (terminalId : String) : Db (Option TerminalIdentity) :=
  Program.call (DbCall.getTerminalIdentity terminalId)

def getConversationIdentity (key : String) : Db (Option Root) :=
  Program.call (DbCall.getConversationIdentity key)

def conflictingIdentity (provider : String) (providerNamespace : Option String)
    (providerSessionId key : String) : Db (Option String) :=
  Program.call (DbCall.conflictingIdentity provider providerNamespace providerSessionId key)

def getConversationEvents (key : String) : Db (List ConversationEvent) :=
  Program.call (DbCall.getConversationEvents key)

def recordConversationEvent (key : String) (event : EventKind) (terminalId : Option String) :
    Db Unit :=
  Program.call (DbCall.recordConversationEvent key event terminalId)

def bindProviderSessionId (key providerSessionId : String)
    (providerNamespace artifactLocator : Option String) : Db Bool :=
  Program.call
    (DbCall.bindProviderSessionId key providerSessionId providerNamespace artifactLocator)

def claimResume (key : String) (expectedGeneration : Int) (claimant : String) : Db Bool :=
  Program.call (DbCall.claimResume key expectedGeneration claimant)

def clearResumeClaim (key : String) : Db Unit := Program.call (DbCall.clearResumeClaim key)

def reconcileStaleResumeClaims (claimTtl : Int) : Db (List String) :=
  Program.call (DbCall.reconcileStaleResumeClaims claimTtl)

def releaseResumeClaimOwned (key ownerPrincipal : String) (claimTtl : Int) : Db ReleaseReason :=
  Program.call (DbCall.releaseResumeClaimOwned key ownerPrincipal claimTtl)

def createLinkedTerminal (terminalId key : String) : Db Unit :=
  Program.call (DbCall.createLinkedTerminal terminalId key)

def publishCurrentTerminal (key terminalId : String)
    (providerSessionId providerNamespace artifactLocator : Option String)
    (lifecycle : Lifecycle) : Db (Except IntegrityError Unit) :=
  Program.call (DbCall.publishCurrentTerminal key terminalId providerSessionId
    providerNamespace artifactLocator lifecycle)

def setConversationLifecycle (key : String) (lifecycle : Lifecycle)
    (artifactLocator : Option String) : Db Unit :=
  Program.call (DbCall.setConversationLifecycle key lifecycle artifactLocator)

/-! ## Alone -/

/-- The service with nobody else about. -/
def alone {α : Type} (p : Db α) (db : Conversations) : α × Conversations :=
  Program.alone DbCall.exec p db

section Alone

variable {α β : Type} (db : Conversations)

@[simp] theorem alone_pure (result : α) : Db.alone (pure result) db = (result, db) := rfl

@[simp] theorem alone_bind (p : Db α) (k : α → Db β) :
    Db.alone (p >>= k) db = Db.alone (k (Db.alone p db).1) (Db.alone p db).2 :=
  Program.alone_bind p k db

theorem alone_ite (c : Prop) [Decidable c] (p q : Db α) :
    Db.alone (if c then p else q) db = if c then Db.alone p db else Db.alone q db :=
  Program.alone_ite c p q db

-- by the lemma and not by `rfl`: what is read may be under an `if`, whose instance `simp` has to
-- rewrite
@[simp] theorem alone_getTerminalIdentity (terminalId : String) :
    (getTerminalIdentity terminalId).alone db = (db.terminals.get terminalId, db) :=
  Program.alone_call (DbCall.getTerminalIdentity terminalId) db

@[simp] theorem alone_getConversationIdentity (key : String) :
    (getConversationIdentity key).alone db = (db.roots.get key, db) :=
  Program.alone_call (DbCall.getConversationIdentity key) db

@[simp] theorem alone_conflictingIdentity (provider : String) (ns : Option String)
    (uuid key : String) :
    (conflictingIdentity provider ns uuid key).alone db =
      ((boundElsewhere db.roots provider ns uuid key).map (·.identityKey), db) :=
  Program.alone_call (DbCall.conflictingIdentity provider ns uuid key) db

@[simp] theorem alone_getConversationEvents (key : String) :
    (getConversationEvents key).alone db = (db.events.filter (·.identityKey == key), db) :=
  Program.alone_call (DbCall.getConversationEvents key) db

@[simp] theorem alone_recordConversationEvent (key : String) (event : EventKind)
    (terminalId : Option String) :
    (recordConversationEvent key event terminalId).alone db =
      ((), Conversation.recordConversationEvent key event terminalId db) :=
  Program.alone_call (DbCall.recordConversationEvent key event terminalId) db

@[simp] theorem alone_bindProviderSessionId (key uuid : String) (ns locator : Option String) :
    (bindProviderSessionId key uuid ns locator).alone db =
      Conversation.bindProviderSessionId key uuid ns locator db :=
  Program.alone_call (DbCall.bindProviderSessionId key uuid ns locator) db

@[simp] theorem alone_clearResumeClaim (key : String) :
    (clearResumeClaim key).alone db = ((), Conversation.clearResumeClaim key db) :=
  Program.alone_call (DbCall.clearResumeClaim key) db

@[simp] theorem alone_publishCurrentTerminal (key terminalId : String)
    (uuid ns locator : Option String) (lifecycle : Lifecycle) :
    (publishCurrentTerminal key terminalId uuid ns locator lifecycle).alone db =
      Conversation.publishCurrentTerminal key terminalId uuid ns locator lifecycle db :=
  Program.alone_call (DbCall.publishCurrentTerminal key terminalId uuid ns locator lifecycle) db

@[simp] theorem alone_setConversationLifecycle (key : String) (lifecycle : Lifecycle)
    (locator : Option String) :
    (setConversationLifecycle key lifecycle locator).alone db =
      ((), Conversation.setConversationLifecycle key lifecycle locator db) :=
  Program.alone_call (DbCall.setConversationLifecycle key lifecycle locator) db

end Alone

end Db

end CliAgentOrchestrator.Conversation
