import CliAgentOrchestrator.Conversation.Resume

/-!
# Many services on one database

`World` is the database with every service that is under way on it, one database call of one of
them at a time (`advance`), in any order. Beside it stands what really happened: which resume took
which claim, under which claim a terminal was spawned, whose end was the last one.

A claim carries a generation. Nothing that clears it, publishes, or writes a lifecycle looks at
it, so what these find is left to when they come: before or after the resume they are made for is
over, and another one under way (`Timely`).
-/

set_option autoImplicit false

namespace CliAgentOrchestrator.Conversation

open Library

/-! ## The world -/

/-- On whose behalf a service runs. -/
inductive Actor
  | resume
  | incarnation (terminalId : String)
  | ending (terminalId : String)
  | keeper
deriving DecidableEq

/-- A claim that was taken: by which attempt, and when. -/
structure Take where
  attempt : Nat
  key : String
  generation : Int
  takenAt : Int
deriving DecidableEq

/-- A service under way. -/
structure Thread where
  actor : Actor
  rest : Db Unit

/-- The resume of a take is `past` when its attempt has given the claim up or a terminal spawned
under it has reported; `newest` is the incarnation that was published last. -/
structure World where
  db : Conversations
  threads : List Thread := []
  takes : List Take := []
  past : List Take := []
  spawned : String → Option Take := fun _ => none
  newest : String → Option String := fun _ => none
  ended : String → Option String := fun _ => none

/-- A service that may be called at any time. -/
inductive Task
  | resume (key : String) (callerPrincipal : Option String) (claimant terminalId : String)
      (outcome : SpawnOutcome)
  | attachCapturedUuid (sameFile : String → String → Bool) (report : Report)
  | verifyAndPublishResume (sameFile : String → String → Bool) (admission : ResumeAdmission)
      (terminalId : String) (reportedSessionId reportedArtifactLocator provider : Option String)
  | reconcileStaleClaims
  | releaseOwnedClaim (key ownerPrincipal : String)
  | crashDetachTerminal (terminalId : String)
  | hibernate (terminalId : String) (artifact : Option (Option String))
  | reap (terminalId : String)

def Task.actor : Task → Actor
  | .resume .. => .resume
  | .attachCapturedUuid _ report => .incarnation report.terminalId
  | .verifyAndPublishResume _ _ terminalId _ _ _ => .incarnation terminalId
  | .reconcileStaleClaims => .keeper
  | .releaseOwnedClaim .. => .keeper
  | .crashDetachTerminal terminalId => .ending terminalId
  | .hibernate terminalId _ => .ending terminalId
  | .reap terminalId => .ending terminalId

def Task.program (claimTtl : Int) : Task → Db Unit
  | .resume key callerPrincipal claimant terminalId outcome =>
    resumeAttempt key callerPrincipal claimant terminalId outcome
  | .attachCapturedUuid sameFile report => do
    let _ ← Conversation.attachCapturedUuid sameFile report
    return ()
  | .verifyAndPublishResume sameFile admission terminalId reported locator provider => do
    let _ ← Conversation.verifyAndPublishResume sameFile admission terminalId reported locator
      provider
    return ()
  | .reconcileStaleClaims => Conversation.reconcileStaleClaims claimTtl
  | .releaseOwnedClaim key owner => do
    let _ ← Conversation.releaseOwnedClaim key owner claimTtl
    return ()
  | .crashDetachTerminal terminalId => Conversation.crashDetachTerminal terminalId
  | .hibernate terminalId artifact => do
    let decision ← evaluatePlannedHibernate terminalId artifact
    commitHibernate decision
  | .reap terminalId => do
    let _ ← commitReap terminalId
    return ()

inductive Step
  | begin (task : Task)
  | advance (i : Nat)
  | tick (seconds : Nat)

/-- The terminal whose end a service writes. -/
def Actor.ends : Actor → Option String
  | .ending terminalId => some terminalId
  | _ => none

/-- The resume that a service runs for: its own, or the one its terminal was spawned in. -/
def World.takeOf (w : World) (i : Nat) (key : String) : Actor → Option Take
  | .resume => w.takes.find? fun take => take.attempt == i && take.key == key
  | .incarnation terminalId => (w.spawned terminalId).filter (·.key == key)
  | _ => none

/-- What happened with the call. -/
def World.record (w : World) (i : Nat) (actor : Actor) :
    ∀ call : DbCall, call.Answer → World
  | .claimResume key generation _, true =>
    { w with takes := w.takes ++ [⟨i, key, generation + 1, w.db.utcnow⟩] }
  | .clearResumeClaim key, _ => { w with past := (w.takeOf i key actor).toList ++ w.past }
  | .publishCurrentTerminal key terminalId .., .ok () =>
    { w with
      past := (w.takeOf i key actor).toList ++ w.past
      newest := Function.update w.newest key (some terminalId) }
  | .createLinkedTerminal terminalId key, _ =>
    let take := w.takes.find? fun take => take.attempt == i && take.key == key
    { w with spawned := Function.update w.spawned terminalId take }
  | .setConversationLifecycle key lifecycle _, _ =>
    if lifecycle = .live then w
    else { w with ended := Function.update w.ended key actor.ends }
  | _, _ => w

/-- The next call of a thread. -/
def World.advance (w : World) (i : Nat) (actor : Actor) (call : DbCall)
    (next : call.Answer → Db Unit) : World :=
  let result := call.exec w.db
  { w.record i actor call result.1 with
    db := result.2
    threads := w.threads.set i ⟨actor, next result.1⟩ }

def World.exec (claimTtl : Int) (w : World) : Step → World
  | .begin task => { w with threads := w.threads ++ [⟨task.actor, task.program claimTtl⟩] }
  | .tick seconds => { w with db := { w.db with utcnow := w.db.utcnow + seconds } }
  | .advance i =>
    match w.threads[i]? with
    | some ⟨actor, .step call next⟩ => w.advance i actor call next
    | _ => w

/-! ## What is asked of it -/

/-- The claim that was taken there is held. -/
def World.Holds (w : World) (take : Take) : Prop :=
  take ∈ w.takes ∧ ∃ root claim, w.db.roots.get take.key = some root ∧
    root.resumeClaim = some claim ∧ claim.generation = take.generation

/-- The thread is the attempt that took the claim, or runs for a terminal that was spawned under
it. -/
def World.BelongsTo (w : World) (i : Nat) (actor : Actor) (take : Take) : Prop :=
  i = take.attempt ∨
    ∃ terminalId, actor = .incarnation terminalId ∧ w.spawned terminalId = some take

/-- A claim is held, and younger than this. -/
def Young (claimTtl utcnow : Int) (root : Root) : Prop :=
  ∃ claim ∈ root.resumeClaim, utcnow - claimTtl < claim.startedAt

/-- What a step of a thread makes of one conversation: a young claim is ended by its own resume
only, and the current terminal is moved to one spawned under the claim that is held. -/
structure KeptRoot (claimTtl : Int) (w : World) (i : Nat) (actor : Actor) (key : String)
    (root root' : Root) : Prop where
  claim : Young claimTtl w.db.utcnow root → root'.resumeClaim ≠ root.resumeClaim →
    ∃ take, take.key = key ∧ w.Holds take ∧ w.BelongsTo i actor take
  current : root'.currentTerminalId ≠ root.currentTerminalId →
    ∃ terminalId take, root'.currentTerminalId = some terminalId ∧
      w.spawned terminalId = some take ∧ take.key = key ∧ w.Holds take

/-- No two resumes hold the claim, and a conversation that is not live was ended last with its
current terminal. -/
structure OneIncarnation (w : World) (key : String) : Prop where
  holder : ∀ a b, a.key = key → b.key = key → w.Holds a → w.Holds b → a = b
  ended : ∀ root, w.db.roots.get key = some root → root.lifecycle ≠ .live →
    ∃ terminalId, w.ended key = some terminalId ∧ root.currentTerminalId = some terminalId

def KeptStep (claimTtl : Int) (w : World) (step : Step) : Prop :=
  ∀ key, OneIncarnation (w.exec claimTtl step) key ∧
    ∀ i thread root root', step = .advance i → w.threads[i]? = some thread →
      w.db.roots.get key = some root → (w.exec claimTtl step).db.roots.get key = some root' →
      KeptRoot claimTtl w i thread.actor key root root'

/-! ## When the calls come -/

section Timely

variable (claimTtl : Int) (w : World)

/-- The resume has taken its claim less than the TTL ago, and is not over. -/
def World.UnderWay (take : Take) : Prop :=
  take ∈ w.takes ∧ take ∉ w.past ∧ w.db.utcnow - claimTtl < take.takenAt

/-- No resume of the root is under way, but the one that is given. -/
def World.NoOther (key : String) (own : Option Take) : Prop :=
  ∀ take ∈ w.takes, take.key = key → w.UnderWay claimTtl take → own = some take

/-- A claim is cleared when no other resume of the root is under way. A terminal that is not
rejected is published while the resume that spawned it is under way, or again as the newest
incarnation when none is. A conversation is ended with its newest incarnation. -/
def World.TimelyCall (i : Nat) (actor : Actor) : DbCall → Prop
  | .clearResumeClaim key => w.NoOther claimTtl key (w.takeOf i key actor)
  | .publishCurrentTerminal key terminalId uuid ns locator lifecycle =>
    ∀ root ∈ w.db.roots.get key,
      uqConversationIdentityBound w.db.roots
        ((publishPatch terminalId uuid ns locator lifecycle).apply root) = true ∨
      (∃ take ∈ w.spawned terminalId, take.key = key ∧ w.UnderWay claimTtl take) ∨
      (w.newest key = some terminalId ∧ w.NoOther claimTtl key none)
  | .setConversationLifecycle key lifecycle _ =>
    lifecycle = .live ∨ w.db.roots.get key = none ∨
      ∃ terminalId ∈ actor.ends, w.newest key = some terminalId
  | _ => True

def World.TimelyNext (i : Nat) : Option Thread → Prop
  | some ⟨actor, .step call _⟩ => w.TimelyCall claimTtl i actor call
  | _ => True

def World.Timely : Step → Prop
  | .advance i => w.TimelyNext claimTtl i w.threads[i]?
  | _ => True

instance (take : Take) : Decidable (w.UnderWay claimTtl take) :=
  inferInstanceAs (Decidable (_ ∧ _ ∧ _))

instance (key : String) (own : Option Take) : Decidable (w.NoOther claimTtl key own) :=
  inferInstanceAs (Decidable (∀ _ ∈ w.takes, _))

instance (i : Nat) (actor : Actor) : ∀ call, Decidable (w.TimelyCall claimTtl i actor call)
  | .clearResumeClaim _ => inferInstanceAs (Decidable (w.NoOther ..))
  | .publishCurrentTerminal key _ _ _ _ _ =>
    inferInstanceAs (Decidable (∀ _ ∈ w.db.roots.get key, _))
  | .setConversationLifecycle key lifecycle _ =>
    inferInstanceAs (Decidable (lifecycle = .live ∨ w.db.roots.get key = none ∨
      ∃ _ ∈ actor.ends, _))
  | .getTerminalIdentity _ | .getConversationIdentity _ | .conflictingIdentity ..
  | .getConversationEvents _ | .recordConversationEvent .. | .bindProviderSessionId ..
  | .claimResume .. | .reconcileStaleResumeClaims _ | .releaseResumeClaimOwned ..
  | .createLinkedTerminal .. => .isTrue trivial

instance (i : Nat) : ∀ thread, Decidable (w.TimelyNext claimTtl i thread)
  | some ⟨actor, .step call _⟩ => inferInstanceAs (Decidable (w.TimelyCall claimTtl i actor call))
  | some ⟨_, .done _⟩ | none => .isTrue trivial

instance : ∀ step, Decidable (w.Timely claimTtl step)
  | .advance i => inferInstanceAs (Decidable (w.TimelyNext claimTtl i w.threads[i]?))
  | .begin _ | .tick _ => .isTrue trivial

end Timely

end CliAgentOrchestrator.Conversation
