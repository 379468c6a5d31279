import CliAgentOrchestrator.Conversation.Binding
import CliAgentOrchestrator.Conversation.Incarnation

/-!
# Which runs keep one incarnation

`Touched` says once what a database call can do to a conversation. Two resumes never hold the
claim, in any run at all: a claim is taken where there is none, under the generation that nobody
has (`Tracked`). Where no call comes late the claim of a resume is held as long as the resume is
under way (`Lasting`), so whoever clears or publishes finds its own, and the rest follows
(`one_incarnation`).
-/

set_option autoImplicit false

namespace CliAgentOrchestrator.Conversation

open Library

/-! ## What a call does to a root -/

/-- The root behind a call. -/
inductive Touched (db : Conversations) (key : String) (root : Root) : DbCall → Root → Prop
  | kept {call : DbCall} {root' : Root} (claim : root'.resumeClaim = root.resumeClaim)
      (claimAt : root'.resumeClaimAt = root.resumeClaimAt)
      (generation : root'.generation = root.generation)
      (current : root'.currentTerminalId = root.currentTerminalId)
      (lifecycle : root'.lifecycle = root.lifecycle) : Touched db key root call root'
  | claimed {claimant : String} (free : root.resumeClaim = none) :
      Touched db key root (.claimResume key root.generation claimant)
        ((claimPatch ⟨claimant, root.generation + 1, db.utcnow⟩).apply root)
  | cleared : Touched db key root (.clearResumeClaim key) (releasePatch.apply root)
  | reconciled {claimTtl : Int} (stale : staleClaim claimTtl db.utcnow root = true) :
      Touched db key root (.reconcileStaleResumeClaims claimTtl) (releasePatch.apply root)
  | released {owner : String} {claimTtl : Int}
      (stale : staleClaim claimTtl db.utcnow root = true) :
      Touched db key root (.releaseResumeClaimOwned key owner claimTtl) (releasePatch.apply root)
  | published {terminalId : String} {uuid ns locator : Option String} {lifecycle : Lifecycle}
      (accepted : uqConversationIdentityBound db.roots
        ((publishPatch terminalId uuid ns locator lifecycle).apply root) = false) :
      Touched db key root (.publishCurrentTerminal key terminalId uuid ns locator lifecycle)
        ((publishPatch terminalId uuid ns locator lifecycle).apply root)
  | ended {lifecycle : Lifecycle} {locator : Option String} :
      Touched db key root (.setConversationLifecycle key lifecycle locator)
        ((lifecyclePatch lifecycle locator).apply root)

section Touched

variable {db : Conversations} {key : String} {root : Root}

theorem Touched.same {call : DbCall} : Touched db key root call root := .kept rfl rfl rfl rfl rfl

/-- A patch of one root leaves the others. -/
theorem get_updateRoot (key' : String) (f : Patch Root.identityKey) :
    (db.updateRoot key' f).roots.get key =
      (db.roots.get key).map fun root => if key = key' then f.apply root else root := by
  simp [Conversations.updateRoot, Table.get_updateKey]

/-- What becomes of the conversation in a call. No call makes a root. -/
def Touches (db db' : Conversations) (key : String) (call : DbCall) : Prop :=
  ∃ f : Root → Root, db'.roots.get key = (db.roots.get key).map f ∧
    ∀ root, db.roots.get key = some root → Touched db key root call (f root)

theorem Touches.same {db' : Conversations} {call : DbCall} (h : db'.roots = db.roots) :
    Touches db db' key call := by
  refine ⟨id, ?_, fun _ _ => .same⟩
  rw [h, Option.map_id]
  rfl

theorem Touches.update {key' : String} {f : Patch Root.identityKey} {call : DbCall}
    (h : ∀ root, db.roots.get key = some root → key = key' →
      Touched db key root call (f.apply root)) : Touches db (db.updateRoot key' f) key call := by
  refine ⟨_, get_updateRoot key' f, fun root hget => ?_⟩
  split
  · next hkey => exact h root hget hkey
  · exact .same

/-- What a call writes, by its kind. -/
theorem touches (call : DbCall) : Touches db (call.exec db).2 key call := by
  cases call with
  | bindProviderSessionId key' uuid ns locator =>
    obtain hbind | hbind := bind_cases key' uuid ns locator db
    · exact .same (by simp [DbCall.exec, hbind])
    · simp only [DbCall.exec, hbind]
      exact .update fun _ _ _ => .kept rfl rfl rfl rfl rfl
  | claimResume key' generation claimant =>
    refine ⟨_, by simp [DbCall.exec, claimResume, Table.get_updateKey]; rfl, fun root _ => ?_⟩
    split
    · next hfree =>
      obtain ⟨rfl, hnone, rfl⟩ : key = key' ∧ root.resumeClaim = none ∧
          root.generation = generation := by simpa using hfree
      exact .claimed hnone
    · exact .same
  | clearResumeClaim key' => exact .update fun _ _ hkey => hkey ▸ .cleared
  | reconcileStaleResumeClaims claimTtl =>
    refine ⟨_, by simp [DbCall.exec, reconcileStaleResumeClaims, Table.get_update]; rfl,
      fun root _ => ?_⟩
    split
    · next hstale => exact .reconciled hstale
    · exact .same
  | releaseResumeClaimOwned key' owner claimTtl =>
    unfold DbCall.exec releaseResumeClaimOwned
    dsimp only
    split
    · exact .same rfl
    split
    · exact .same rfl
    split
    · exact .same rfl
    split
    · exact .same rfl
    · next other hget' _ _ hstale =>
      refine .update fun root hget hkey => ?_
      subst hkey
      cases hget.symm.trans hget'
      exact .released (by simpa using hstale)
  | publishCurrentTerminal key' terminalId uuid ns locator lifecycle =>
    unfold DbCall.exec publishCurrentTerminal
    dsimp only
    split
    · exact .same rfl
    split
    · exact .same rfl
    · next other hget' haccepted =>
      refine .update fun root hget hkey => ?_
      subst hkey
      cases hget.symm.trans hget'
      exact .published (by simpa using haccepted)
  | setConversationLifecycle key' lifecycle locator => exact .update fun _ _ hkey => hkey ▸ .ended
  | _ => exact .same rfl

theorem touched (call : DbCall) (hget : db.roots.get key = some root) :
    ∃ root', (call.exec db).2.roots.get key = some root' ∧ Touched db key root call root' := by
  obtain ⟨f, hf, h⟩ := @touches db key call
  exact ⟨f root, by rw [hf, hget]; rfl, h root hget⟩

/-- Every root behind a call is an old one, touched. -/
theorem touched_of_get {call : DbCall} {root' : Root}
    (hget : (call.exec db).2.roots.get key = some root') :
    ∃ root, db.roots.get key = some root ∧ Touched db key root call root' := by
  obtain ⟨f, hf, h⟩ := @touches db key call
  obtain ⟨root, hold, rfl⟩ := Option.map_eq_some_iff.mp (hf.symm.trans hget)
  exact ⟨root, hold, h root hold⟩

end Touched

/-! ## Who makes which call -/

/-- A publish is of the terminal that reports and makes the conversation live, and there is one
TTL. -/
def Fits (claimTtl : Int) (actor : Actor) : DbCall → Prop
  | .publishCurrentTerminal _ terminalId _ _ _ lifecycle =>
    actor = .incarnation terminalId ∧ lifecycle = .live
  | .reconcileStaleResumeClaims ttl => ttl = claimTtl
  | .releaseResumeClaimOwned _ _ ttl => ttl = claimTtl
  | _ => True

section Fits

variable {claimTtl : Int} {actor : Actor}

theorem fits_publishResume (admission : ResumeAdmission) (terminalId : String)
    (published locator : Option String) :
    (publishResume admission terminalId published locator).All
      (Fits claimTtl (.incarnation terminalId)) := by
  unfold publishResume
  refine Program.all_step ⟨rfl, rfl⟩ fun result => ?_
  split
  · exact Program.all_pure _
  · refine Program.all_step trivial fun _ => ?_
    refine Program.all_step trivial fun recorded => ?_
    split
    · exact Program.all_pure _
    · split
      · exact Program.all_step trivial fun _ => Program.all_pure _
      · exact Program.all_pure _

theorem fits_failResume (key terminalId : String) (error : ResumeError) :
    (failResume key terminalId error).All (Fits claimTtl actor) := by
  unfold failResume
  refine Program.all_step trivial fun _ => ?_
  refine Program.all_step trivial fun _ => ?_
  exact Program.all_step trivial fun _ => Program.all_pure _

theorem fits_verifyAndPublishResume (sameFile : String → String → Bool)
    (admission : ResumeAdmission) (terminalId : String)
    (reported locator provider : Option String) :
    (verifyAndPublishResume sameFile admission terminalId reported locator provider).All
      (Fits claimTtl (.incarnation terminalId)) := by
  unfold verifyAndPublishResume
  dsimp only
  split
  · split
    · exact fits_publishResume ..
    split
    · refine Program.all_step trivial fun root => ?_
      split
      · refine Program.all_step trivial fun bound => ?_
        split
        · exact Program.all_step trivial fun _ => fits_publishResume ..
        · refine Program.all_step trivial fun _ => ?_
          exact Program.all_step trivial fun _ => Program.all_pure _
      · exact fits_failResume ..
    · exact fits_failResume ..
  · exact fits_publishResume ..

theorem fits_rootForTerminal (terminalId : String) :
    (rootForTerminal terminalId).All (Fits claimTtl actor) := by
  unfold rootForTerminal
  refine Program.all_step trivial fun identity => ?_
  split
  · exact Program.all_pure _
  · split
    · exact Program.all_pure _
    · exact Program.all_call trivial

theorem fits_captureUuid (report : Report) (root : Root) :
    (captureUuid report root).All (Fits claimTtl actor) := by
  unfold captureUuid
  refine Program.all_step trivial fun bound => ?_
  split
  · refine Program.all_step trivial fun _ => ?_
    refine Program.all_step trivial fun updated => ?_
    split
    · exact Program.all_step trivial fun _ => Program.all_pure _
    · exact Program.all_pure _
  · refine Program.all_step trivial fun conflicting => ?_
    exact Program.all_step trivial fun _ => Program.all_pure _

theorem fits_attachCapturedUuid (sameFile : String → String → Bool) (report : Report) :
    (attachCapturedUuid sameFile report).All (Fits claimTtl (.incarnation report.terminalId)) := by
  unfold attachCapturedUuid
  refine Program.all_bind (fits_rootForTerminal _) fun found => ?_
  split
  · exact Program.all_pure _
  · split
    · refine Program.all_bind (fits_verifyAndPublishResume ..) fun result => ?_
      split <;> exact Program.all_pure _
    · exact fits_captureUuid ..

theorem fits_compensateClaim (key : String) :
    (compensateClaim key).All (Fits claimTtl actor) :=
  Program.all_step trivial fun _ => Program.all_call trivial

theorem fits_resumeAttempt (key : String) (callerPrincipal : Option String)
    (claimant terminalId : String) (outcome : SpawnOutcome) :
    (resumeAttempt key callerPrincipal claimant terminalId outcome).All
      (Fits claimTtl actor) := by
  unfold resumeAttempt
  refine Program.all_step trivial fun found => ?_
  split
  · refine Program.all_bind ?_ fun claimed => ?_
    · unfold claimResumeAdmission
      refine Program.all_step trivial fun won => ?_
      split
      · exact Program.all_step trivial fun _ => Program.all_pure _
      · exact Program.all_pure _
    · split
      · exact Program.all_pure _
      · exact Program.all_call trivial
      · exact fits_compensateClaim key
      · exact Program.all_step trivial fun _ => fits_compensateClaim key
  · exact Program.all_pure _

theorem fits_recordReconciled (keys : List String) :
    (recordReconciled keys).All (Fits claimTtl actor) := by
  induction keys with
  | nil => exact Program.all_pure _
  | cons key keys ih => exact Program.all_step trivial fun _ => ih

theorem fits_releaseOwnedClaim (key owner : String) :
    (releaseOwnedClaim key owner claimTtl).All (Fits claimTtl actor) := by
  unfold releaseOwnedClaim
  refine Program.all_bind (Program.all_call rfl) fun reason => ?_
  split
  · split
    · refine Program.all_step trivial fun _ => ?_
      exact Program.all_step trivial fun _ => Program.all_pure _
    · exact Program.all_step trivial fun _ => Program.all_pure _
  · exact Program.all_pure _

theorem fits_crashDetachTerminal (terminalId : String) :
    (crashDetachTerminal terminalId).All (Fits claimTtl actor) := by
  unfold crashDetachTerminal
  refine Program.all_step trivial fun identity => ?_
  split
  · exact Program.all_pure _
  · exact Program.all_step trivial fun _ => Program.all_call trivial

theorem fits_evaluatePlannedHibernate (terminalId : String) (artifact : Option (Option String)) :
    (evaluatePlannedHibernate terminalId artifact).All (Fits claimTtl actor) := by
  unfold evaluatePlannedHibernate
  refine Program.all_bind (fits_rootForTerminal _) fun found => ?_
  split
  · exact Program.all_pure _
  · split
    · exact Program.all_pure _
    · split <;> exact Program.all_pure _

theorem fits_commitHibernate (decision : HibernateDecision) :
    (commitHibernate decision).All (Fits claimTtl actor) := by
  unfold commitHibernate
  split
  · exact Program.all_step trivial fun _ => Program.all_call trivial
  · exact Program.all_pure _

theorem fits_commitReap (terminalId : String) :
    (commitReap terminalId).All (Fits claimTtl actor) := by
  unfold commitReap
  refine Program.all_bind (fits_rootForTerminal _) fun found => ?_
  split
  · exact Program.all_pure _
  · refine Program.all_step trivial fun _ => ?_
    exact Program.all_step trivial fun _ => Program.all_pure _

theorem fits_task (task : Task) : (task.program claimTtl).All (Fits claimTtl task.actor) := by
  cases task with
  | resume key callerPrincipal claimant terminalId outcome => exact fits_resumeAttempt ..
  | attachCapturedUuid sameFile report =>
    exact Program.all_bind (fits_attachCapturedUuid ..) fun _ => Program.all_pure _
  | verifyAndPublishResume sameFile admission terminalId reported locator provider =>
    exact Program.all_bind (fits_verifyAndPublishResume ..) fun _ => Program.all_pure _
  | reconcileStaleClaims =>
    exact Program.all_step rfl fun keys => fits_recordReconciled keys
  | releaseOwnedClaim key owner =>
    exact Program.all_bind (fits_releaseOwnedClaim ..) fun _ => Program.all_pure _
  | crashDetachTerminal terminalId => exact fits_crashDetachTerminal _
  | hibernate terminalId artifact =>
    exact Program.all_bind (fits_evaluatePlannedHibernate ..) fun decision =>
      fits_commitHibernate decision
  | reap terminalId => exact Program.all_bind (fits_commitReap _) fun _ => Program.all_pure _

end Fits

/-! ## What is tracked of the claims -/

section Tracked

variable {claimTtl : Int} {w : World} {i : Nat} {actor : Actor} {call : DbCall}
  {next : call.Answer → Db Unit}

/-- Each call writes what happened with it, and nothing else. -/
theorem record_frame (answer : call.Answer) :
    ((∀ key generation claimant, call ≠ .claimResume key generation claimant) →
      (w.record i actor call answer).takes = w.takes) ∧
    ((∀ terminalId key, call ≠ .createLinkedTerminal terminalId key) →
      (w.record i actor call answer).spawned = w.spawned) ∧
    ((∀ key lifecycle locator, call = .setConversationLifecycle key lifecycle locator →
      lifecycle = .live) → (w.record i actor call answer).ended = w.ended) ∧
    ((∀ key terminalId uuid ns locator lifecycle,
        call ≠ .publishCurrentTerminal key terminalId uuid ns locator lifecycle) →
      (w.record i actor call answer).newest = w.newest) := by
  cases call with
  | claimResume key generation claimant =>
    cases answer with
    | true => exact ⟨fun h => absurd rfl (h _ _ _), fun _ => rfl, fun _ => rfl, fun _ => rfl⟩
    | false => exact ⟨fun _ => rfl, fun _ => rfl, fun _ => rfl, fun _ => rfl⟩
  | publishCurrentTerminal key terminalId uuid ns locator lifecycle =>
    cases answer with
    | ok =>
      exact ⟨fun _ => rfl, fun _ => rfl, fun _ => rfl, fun h => absurd rfl (h _ _ _ _ _ _)⟩
    | error e => exact ⟨fun _ => rfl, fun _ => rfl, fun _ => rfl, fun _ => rfl⟩
  | createLinkedTerminal terminalId key =>
    exact ⟨fun _ => rfl, fun h => absurd rfl (h _ _), fun _ => rfl, fun _ => rfl⟩
  | setConversationLifecycle key lifecycle locator =>
    simp only [World.record]
    refine ⟨fun _ => ?_, fun _ => ?_, fun h => if_pos (h _ _ _ rfl) ▸ rfl, fun _ => ?_⟩ <;>
      split <;> rfl
  | _ => exact ⟨fun _ => rfl, fun _ => rfl, fun _ => rfl, fun _ => rfl⟩

theorem takes_record_claimResume (key : String) (generation : Int) (claimant : String)
    (won : Bool) :
    (w.record i actor (.claimResume key generation claimant) won).takes =
      if won then w.takes ++ [⟨i, key, generation + 1, w.db.utcnow⟩] else w.takes := by
  cases won
  · rfl
  · rfl

/-- What is over stays so, and with a clear the resume of the caller is. -/
theorem mem_past_advance {take : Take} (h : take ∈ w.past ∨
    ∃ key, call = .clearResumeClaim key ∧ w.takeOf i key actor = some take) :
    take ∈ (w.advance i actor call next).past := by
  show take ∈ (w.record i actor call (call.exec w.db).1).past
  generalize (call.exec w.db).1 = answer
  obtain hover | ⟨key, rfl, hown⟩ := h
  · cases call with
    | claimResume key generation claimant => cases answer <;> exact hover
    | publishCurrentTerminal key terminalId uuid ns locator lifecycle =>
      cases answer with
      | ok => exact List.mem_append_right _ hover
      | error e => exact hover
    | clearResumeClaim key => exact List.mem_append_right _ hover
    | setConversationLifecycle key lifecycle locator =>
      simp only [World.record]
      split <;> exact hover
    | _ => exact hover
  · exact List.mem_append_left _ (Option.mem_toList.mpr hown)

theorem key_of_takeOf {key : String} {take : Take} (h : w.takeOf i key actor = some take) :
    take.key = key := by
  cases actor with
  | resume =>
    have hboth := List.find?_some h
    rw [Bool.and_eq_true] at hboth
    exact eq_of_beq hboth.2
  | incarnation terminalId => exact eq_of_beq (Option.filter_eq_some_iff.mp h).2
  | _ => cases h

theorem belongsTo_of_takeOf {key : String} {take : Take} (h : w.takeOf i key actor = some take) :
    w.BelongsTo i actor take := by
  cases actor with
  | resume =>
    have hboth := List.find?_some h
    rw [Bool.and_eq_true] at hboth
    exact .inl (eq_of_beq hboth.1).symm
  | incarnation terminalId => exact .inr ⟨terminalId, rfl, (Option.filter_eq_some_iff.mp h).1⟩
  | _ => cases h

/-- A publish is rejected, finds no root, or writes it. -/
theorem publish_eq (key terminalId : String) (uuid ns locator : Option String)
    (lifecycle : Lifecycle) (db : Conversations) :
    publishCurrentTerminal key terminalId uuid ns locator lifecycle db =
        (.error .uqConversationIdentityBound, db) ∨
      (db.roots.get key = none ∧
        publishCurrentTerminal key terminalId uuid ns locator lifecycle db = (.ok (), db)) ∨
      publishCurrentTerminal key terminalId uuid ns locator lifecycle db =
        (.ok (), db.updateRoot key (publishPatch terminalId uuid ns locator lifecycle)) := by
  unfold publishCurrentTerminal
  dsimp only
  cases db.roots.get key with
  | none => exact .inr (.inl ⟨rfl, rfl⟩)
  | some root =>
    dsimp only
    split
    · exact .inl rfl
    · exact .inr (.inr rfl)

/-- A resume that is over now has no claim on its root any more. -/
theorem past_advance {take : Take} (h : take ∈ (w.advance i actor call next).past) :
    take ∈ w.past ∨ (∃ key, w.takeOf i key actor = some take) ∧
      ∀ root', (call.exec w.db).2.roots.get take.key = some root' → root'.resumeClaim = none := by
  change take ∈ (w.record i actor call (call.exec w.db).1).past at h
  have hupdate (key : String) (f : Patch Root.identityKey) (hkey : take.key = key)
      (hf : ∀ root, (f.apply root).resumeClaim = none) : ∀ root',
      (w.db.updateRoot key f).roots.get take.key = some root' → root'.resumeClaim = none := by
    subst hkey
    intro root' hget'
    rw [get_updateRoot] at hget'
    obtain ⟨root, -, rfl⟩ := Option.map_eq_some_iff.mp hget'
    simp [hf]
  cases call with
  | claimResume key generation claimant =>
    left
    revert h
    generalize (DbCall.exec (.claimResume key generation claimant) w.db).1 = answer
    cases answer <;> exact id
  | clearResumeClaim key =>
    obtain hnew | hold := List.mem_append.mp h
    · have hown := Option.mem_toList.mp hnew
      exact .inr ⟨⟨key, hown⟩, hupdate key releasePatch (key_of_takeOf hown) fun _ => rfl⟩
    · exact .inl hold
  | publishCurrentTerminal key terminalId uuid ns locator lifecycle =>
    simp only [DbCall.exec] at h ⊢
    obtain hcase | ⟨hnone, hcase⟩ | hcase :=
      publish_eq key terminalId uuid ns locator lifecycle w.db <;> rw [hcase] at h ⊢
    · exact .inl h
    · obtain hnew | hold := List.mem_append.mp h
      · have hown := Option.mem_toList.mp hnew
        rw [key_of_takeOf hown, hnone]
        exact .inr ⟨⟨key, hown⟩, fun _ hget => by cases hget⟩
      · exact .inl hold
    · obtain hnew | hold := List.mem_append.mp h
      · have hown := Option.mem_toList.mp hnew
        exact .inr ⟨⟨key, hown⟩, hupdate key _ (key_of_takeOf hown) fun _ => rfl⟩
      · exact .inl hold
  | setConversationLifecycle key lifecycle locator =>
    left
    simp only [World.record] at h
    split at h <;> exact h
  | _ => exact .inl h

/-- With a publish that is accepted the resume of the caller is over, and its terminal is the
newest. -/
theorem record_publish {key terminalId : String} {uuid ns locator : Option String}
    {lifecycle : Lifecycle} {root : Root} (hget : w.db.roots.get key = some root)
    (haccepted : uqConversationIdentityBound w.db.roots
      ((publishPatch terminalId uuid ns locator lifecycle).apply root) = false)
    {next : (DbCall.publishCurrentTerminal key terminalId uuid ns locator lifecycle).Answer →
      Db Unit} :
    (w.advance i actor (.publishCurrentTerminal key terminalId uuid ns locator lifecycle)
        next).past = (w.takeOf i key actor).toList ++ w.past ∧
      (w.advance i actor (.publishCurrentTerminal key terminalId uuid ns locator lifecycle)
        next).newest = Function.update w.newest key (some terminalId) := by
  have hok : (publishCurrentTerminal key terminalId uuid ns locator lifecycle w.db).1 = .ok () := by
    simp [publishCurrentTerminal, hget, haccepted]
  have hrecord : ∀ answer, answer = Except.ok () →
      (w.record i actor (.publishCurrentTerminal key terminalId uuid ns locator lifecycle)
        answer).past = (w.takeOf i key actor).toList ++ w.past ∧
      (w.record i actor (.publishCurrentTerminal key terminalId uuid ns locator lifecycle)
        answer).newest = Function.update w.newest key (some terminalId) := by
    rintro answer rfl
    exact ⟨rfl, rfl⟩
  exact hrecord _ hok

/-- The clock is nobody's to set. -/
theorem utcnow_exec (call : DbCall) (db : Conversations) : (call.exec db).2.utcnow = db.utcnow := by
  cases call with
  | bindProviderSessionId key uuid ns locator =>
    obtain h | h := bind_cases key uuid ns locator db <;> simp [DbCall.exec, h, Conversations.updateRoot]
  | releaseResumeClaimOwned key owner claimTtl =>
    unfold DbCall.exec releaseResumeClaimOwned
    dsimp only
    repeat' split
    all_goals rfl
  | publishCurrentTerminal key terminalId uuid ns locator lifecycle =>
    unfold DbCall.exec publishCurrentTerminal
    dsimp only
    repeat' split
    all_goals rfl
  | _ => rfl

theorem claimResume_won {db : Conversations} {key : String} {generation : Int}
    {claimant : String} (h : (claimResume key generation claimant db).1 = true) :
    ∃ root, db.roots.get key = some root ∧ root.resumeClaim = none ∧
      root.generation = generation ∧ (claimResume key generation claimant db).2.roots.get key =
        some ((claimPatch ⟨claimant, generation + 1, db.utcnow⟩).apply root) := by
  obtain ⟨root, hget, hfree⟩ := (Option.any_eq_true _ _).mp h
  obtain ⟨hnone, hgeneration⟩ : root.resumeClaim = none ∧ root.generation = generation := by
    simpa using hfree
  refine ⟨root, hget, hnone, hgeneration, ?_⟩
  simp [claimResume, Table.get_updateKey, hget, hnone, hgeneration]

/-- A call takes at most one claim: a free one, under the next generation. -/
theorem mem_takes_advance {take : Take} (h : take ∈ (w.advance i actor call next).takes) :
    take ∈ w.takes ∨ take.attempt = i ∧ ∃ root claimant,
      w.db.roots.get take.key = some root ∧ root.resumeClaim = none ∧
        take.generation = root.generation + 1 ∧ take.takenAt = w.db.utcnow ∧
        (call.exec w.db).2.roots.get take.key =
          some ((claimPatch ⟨claimant, take.generation, w.db.utcnow⟩).apply root) := by
  cases call with
  | claimResume key generation claimant =>
    change take ∈ (w.record i actor (.claimResume key generation claimant)
      (claimResume key generation claimant w.db).1).takes at h
    rw [takes_record_claimResume] at h
    split at h
    · next hwon =>
      obtain hold | hnew := List.mem_append.mp h
      · exact .inl hold
      · obtain rfl := List.mem_singleton.mp hnew
        obtain ⟨root, hget, hnone, rfl, hget'⟩ := claimResume_won hwon
        exact .inr ⟨rfl, root, claimant, hget, hnone, rfl, rfl, hget'⟩
    · exact .inl h
  | _ =>
    left
    rwa [show (w.advance i actor _ next).takes = w.takes from (record_frame _).1 (by simp)] at h

theorem takes_subset_advance : w.takes ⊆ (w.advance i actor call next).takes := by
  intro take h
  cases call with
  | claimResume key generation claimant =>
    show take ∈ (w.record i actor (.claimResume key generation claimant)
      (claimResume key generation claimant w.db).1).takes
    rw [takes_record_claimResume]
    split
    · exact List.mem_append_left _ h
    · exact h
  | _ =>
    rwa [show (w.advance i actor _ next).takes = w.takes from (record_frame _).1 (by simp)]

theorem spawned_advance {terminalId : String} {take : Take}
    (h : (w.advance i actor call next).spawned terminalId = some take) :
    w.spawned terminalId = some take ∨ take ∈ w.takes := by
  cases call with
  | createLinkedTerminal terminalId' key =>
    change Function.update w.spawned terminalId' _ terminalId = some take at h
    by_cases hid : terminalId = terminalId'
    · subst hid
      rw [Function.update_self] at h
      exact .inr (List.mem_of_find?_eq_some h)
    · rw [Function.update_of_ne hid] at h
      exact .inl h
  | _ =>
    left
    rwa [show (w.advance i actor _ next).spawned = w.spawned from (record_frame _).2.1 (by simp)]
      at h

/-- Every claim that was taken has a generation of its own, which its root has reached; every claim
that is held was taken when it says, by a resume that is not over; and the current terminal is the
newest. -/
structure Tracked (claimTtl : Int) (w : World) : Prop where
  taken : ∀ take ∈ w.takes, ∃ root, w.db.roots.get take.key = some root ∧
    take.generation ≤ root.generation
  unique : ∀ a ∈ w.takes, ∀ b ∈ w.takes, a.key = b.key → a.generation = b.generation → a = b
  past : ∀ take ∈ w.past, take ∈ w.takes
  dated : ∀ key root claim, w.db.roots.get key = some root → root.resumeClaim = some claim →
    root.resumeClaimAt = some claim.startedAt
  claimed : ∀ key root claim, w.db.roots.get key = some root → root.resumeClaim = some claim →
    ∃ take ∈ w.takes, take.key = key ∧ take.generation = claim.generation ∧
      take.takenAt = claim.startedAt ∧ take ∉ w.past
  newest : ∀ key root, w.db.roots.get key = some root → root.currentTerminalId = w.newest key
  spawned : ∀ terminalId take, w.spawned terminalId = some take → take ∈ w.takes
  fits : ∀ thread ∈ w.threads, thread.rest.All (Fits claimTtl thread.actor)

/-- The claim that a root holds is of a resume under way. -/
theorem Tracked.claimed_advance (h : Tracked claimTtl w) {key : String} {root' : Root}
    {claim : ResumeClaim} (hget' : (w.advance i actor call next).db.roots.get key = some root')
    (hclaim : root'.resumeClaim = some claim) :
    ∃ take ∈ (w.advance i actor call next).takes, take.key = key ∧
      take.generation = claim.generation ∧ take.takenAt = claim.startedAt ∧
      take ∉ (w.advance i actor call next).past := by
  obtain ⟨root, hget, htouched⟩ := touched_of_get hget'
  have hkept (hsame : root'.resumeClaim = root.resumeClaim) : ∃ take ∈
      (w.advance i actor call next).takes, take.key = key ∧ take.generation = claim.generation ∧
        take.takenAt = claim.startedAt ∧ take ∉ (w.advance i actor call next).past := by
    obtain ⟨take, hmem, rfl, hgeneration, hat, hover⟩ :=
      h.claimed key root claim hget (hsame ▸ hclaim)
    refine ⟨take, takes_subset_advance hmem, rfl, hgeneration, hat, fun hnew => ?_⟩
    obtain hold | ⟨-, hnone⟩ := past_advance hnew
    · exact hover hold
    · rw [hnone root' hget'] at hclaim
      cases hclaim
  cases htouched with
  | kept hsame _ _ _ _ => exact hkept hsame
  | @claimed claimant hnone =>
    cases hclaim
    have hwon : (claimResume key root.generation claimant w.db).1 = true := by
      simp [claimResume, hget, hnone]
    have htakes : (w.advance i actor (.claimResume key root.generation claimant) next).takes =
        w.takes ++ [⟨i, key, root.generation + 1, w.db.utcnow⟩] := by
      show (w.record i actor (.claimResume key root.generation claimant)
        (claimResume key root.generation claimant w.db).1).takes = _
      rw [takes_record_claimResume, if_pos hwon]
    refine ⟨⟨i, key, root.generation + 1, w.db.utcnow⟩, ?_, rfl, rfl, rfl, fun hnew => ?_⟩
    · rw [htakes]
      exact List.mem_append_right _ (List.mem_singleton_self _)
    · obtain hold | ⟨-, hnone'⟩ := past_advance hnew
      · obtain ⟨root₀, hget₀, hle⟩ := h.taken _ (h.past _ hold)
        cases hget.symm.trans hget₀
        exact absurd hle (by simp)
      · cases hnone' _ hget'
  | ended => exact hkept rfl
  | _ => cases hclaim

/-- The current terminal of a root is the one published last. -/
theorem Tracked.newest_advance (h : Tracked claimTtl w) {key : String} {root' : Root}
    (hget' : (w.advance i actor call next).db.roots.get key = some root') :
    root'.currentTerminalId = (w.advance i actor call next).newest key := by
  obtain ⟨root, hget, htouched⟩ := touched_of_get hget'
  have hold := h.newest key root hget
  by_cases hpublish : ∃ key' terminalId uuid ns locator lifecycle,
      call = .publishCurrentTerminal key' terminalId uuid ns locator lifecycle
  · obtain ⟨key', terminalId, uuid, ns, locator, lifecycle, rfl⟩ := hpublish
    change (publishCurrentTerminal key' terminalId uuid ns locator lifecycle
      w.db).2.roots.get key = some root' at hget'
    show _ = (w.record i actor (.publishCurrentTerminal key' terminalId uuid ns locator lifecycle)
      (publishCurrentTerminal key' terminalId uuid ns locator lifecycle w.db).1).newest key
    obtain hcase | ⟨hnone, hcase⟩ | hcase :=
      publish_eq key' terminalId uuid ns locator lifecycle w.db <;> rw [hcase] at hget' ⊢
    · cases hget.symm.trans hget'
      exact hold
    · cases hget.symm.trans hget'
      have hkey : key ≠ key' := by
        rintro rfl
        rw [hget] at hnone
        cases hnone
      exact hold.trans (Function.update_of_ne hkey _ _).symm
    · rw [get_updateRoot, hget] at hget'
      cases hget'
      beta_reduce
      by_cases hkey : key = key'
      · subst hkey
        rw [if_pos rfl]
        exact (Function.update_self key (some terminalId) w.newest).symm
      · rw [if_neg hkey]
        exact hold.trans (Function.update_of_ne hkey _ _).symm
  · have hsame : (w.advance i actor call next).newest = w.newest :=
      (record_frame _).2.2.2 fun key' terminalId uuid ns locator lifecycle hcall =>
        hpublish ⟨key', terminalId, uuid, ns, locator, lifecycle, hcall⟩
    rw [hsame, ← hold]
    cases htouched with
    | kept _ _ _ hcurrent _ => exact hcurrent
    | published _ => exact absurd ⟨_, _, _, _, _, _, rfl⟩ hpublish
    | _ => rfl

/-- An operation of one thread keeps what is tracked of all. -/
theorem Tracked.advance (h : Tracked claimTtl w) (hthread : (⟨actor, .step call next⟩ : Thread) ∈
    w.threads) : Tracked claimTtl (w.advance i actor call next) where
  taken take htake := by
    obtain hold | ⟨-, root, claimant, -, -, -, -, hget'⟩ := mem_takes_advance htake
    · obtain ⟨root, hget, hle⟩ := h.taken take hold
      obtain ⟨root', hget', htouched⟩ := touched call hget
      refine ⟨root', hget', hle.trans ?_⟩
      cases htouched with
      | kept hclaim hat hgeneration _ _ => exact hgeneration.ge
      | claimed _ => exact (Int.le_add_one le_rfl : root.generation ≤ root.generation + 1)
      | _ => exact le_rfl
    · exact ⟨_, hget', le_rfl⟩
  unique a ha b hb hkey hgeneration := by
    -- a new claim has a generation that no old one of its root has
    have hnew : ∀ a b : Take, b ∈ w.takes → a.key = b.key → a.generation = b.generation →
        ∀ root, w.db.roots.get a.key = some root → a.generation = root.generation + 1 → False := by
      intro a b hb hkey hgeneration root hget hnext
      obtain ⟨root', hget', hle⟩ := h.taken b hb
      rw [← hkey] at hget'
      cases hget.symm.trans hget'
      omega
    obtain ha | ⟨hi, root, _, hget, -, hnext, hat, -⟩ := mem_takes_advance ha
    · obtain hb | ⟨-, root, _, hget, -, hnext, -⟩ := mem_takes_advance hb
      · exact h.unique a ha b hb hkey hgeneration
      · exact (hnew b a ha hkey.symm hgeneration.symm root hget hnext).elim
    · obtain hb | ⟨hi', _, _, -, -, -, hat', -⟩ := mem_takes_advance hb
      · exact (hnew a b hb hkey hgeneration root hget hnext).elim
      · cases a
        cases b
        simp_all
  past take hmem := by
    obtain hold | ⟨⟨key, hown⟩, -⟩ := past_advance hmem
    · exact takes_subset_advance (h.past take hold)
    · refine takes_subset_advance ?_
      cases actor with
      | resume => exact List.mem_of_find?_eq_some hown
      | incarnation terminalId => exact h.spawned terminalId take (Option.filter_eq_some_iff.mp hown).1
      | _ => cases hown
  dated key root' claim hget' hclaim := by
    obtain ⟨root, hget, htouched⟩ := touched_of_get hget'
    cases htouched with
    | kept hsame hat _ _ _ =>
      rw [hat]
      exact h.dated key root claim hget (hsame ▸ hclaim)
    | claimed _ =>
      cases hclaim
      rfl
    | ended => exact h.dated key root claim hget hclaim
    | _ => cases hclaim
  claimed _ _ _ hget' hclaim := h.claimed_advance hget' hclaim
  newest _ _ hget' := h.newest_advance hget'
  spawned terminalId take hspawned := by
    obtain hold | htake := spawned_advance hspawned
    · exact takes_subset_advance (h.spawned terminalId take hold)
    · exact takes_subset_advance htake
  fits thread hmem := by
    obtain hmem | rfl := List.mem_or_eq_of_mem_set hmem
    · exact h.fits thread hmem
    · exact (h.fits _ hthread).2 _

/-- Two claims that are held on one root are one claim. -/
theorem Tracked.holder (h : Tracked claimTtl w) {a b : Take} (hkey : a.key = b.key)
    (ha : w.Holds a) (hb : w.Holds b) : a = b := by
  obtain ⟨hmem, root, claim, hget, hclaim, hgeneration⟩ := ha
  obtain ⟨hmem', root', claim', hget', hclaim', hgeneration'⟩ := hb
  rw [← hkey] at hget'
  cases hget.symm.trans hget'
  cases hclaim.symm.trans hclaim'
  exact h.unique a hmem b hmem' hkey (hgeneration.symm.trans hgeneration')

/-- A claim that is stale by its date is not a young one. -/
theorem Tracked.not_young (h : Tracked claimTtl w) {key : String} {root : Root}
    (hget : w.db.roots.get key = some root)
    (hstale : staleClaim claimTtl w.db.utcnow root = true) :
    ¬ Young claimTtl w.db.utcnow root := by
  rintro ⟨claim, hclaim, hyoung⟩
  have hat := h.dated key root claim hget hclaim
  unfold staleClaim at hstale
  rw [hat] at hstale
  simp only [Option.all_some, Bool.and_eq_true, decide_eq_true_eq] at hstale
  omega

/-- A young claim is that of a resume that is under way. -/
theorem Tracked.underWay (h : Tracked claimTtl w) {key : String} {root : Root}
    (hget : w.db.roots.get key = some root) (hyoung : Young claimTtl w.db.utcnow root) :
    ∃ take ∈ w.takes, take.key = key ∧ w.UnderWay claimTtl take := by
  obtain ⟨claim, hclaim, hlt⟩ := hyoung
  obtain ⟨take, hmem, hkey, -, hat, hover⟩ := h.claimed key root claim hget hclaim
  refine ⟨take, hmem, hkey, hmem, hover, ?_⟩
  rw [hat]
  exact hlt

/-! ## Resumes that are under way hold their claim -/

/-- As long as a resume is under way its claim is held. -/
def Lasting (claimTtl : Int) (w : World) : Prop :=
  ∀ take, w.UnderWay claimTtl take → w.Holds take

/-- Where no call comes late, none ends the claim of another resume that is under way. -/
theorem Lasting.advance (h : Lasting claimTtl w) (htracked : Tracked claimTtl w)
    (hfits : Fits claimTtl actor call) (htimely : w.TimelyCall claimTtl i actor call) :
    Lasting claimTtl (w.advance i actor call next) := by
  intro take hunder'
  obtain ⟨hmem', hover', hyoung'⟩ := hunder'
  refine ⟨hmem', ?_⟩
  show ∃ root claim, (call.exec w.db).2.roots.get take.key = some root ∧ _
  obtain hmem | ⟨-, root, claimant, -, -, -, -, hget'⟩ := mem_takes_advance hmem'
  · have hunder : w.UnderWay claimTtl take := by
      refine ⟨hmem, fun hover => hover' (mem_past_advance (.inl hover)), ?_⟩
      rw [← utcnow_exec call w.db]
      exact hyoung'
    obtain ⟨-, root, claim, hget, hclaim, hgeneration⟩ := h take hunder
    obtain ⟨root', hget', htouched⟩ := touched call hget
    refine ⟨root', claim, hget', ?_, hgeneration⟩
    -- the claim is as old as the resume, so no sweep takes it
    have hfresh : Young claimTtl w.db.utcnow root := by
      obtain ⟨other, hother, hkey, hsame, hat, -⟩ := htracked.claimed take.key root claim hget hclaim
      obtain rfl := htracked.unique other hother take hmem hkey (hsame.trans hgeneration)
      exact ⟨claim, hclaim, hat ▸ hunder.2.2⟩
    cases htouched with
    | kept hsame _ _ _ _ => exact hsame.trans hclaim
    | claimed hnone =>
      rw [hnone] at hclaim
      cases hclaim
    | cleared =>
      exact absurd (mem_past_advance (.inr ⟨_, rfl, htimely take hmem rfl hunder⟩)) hover'
    | reconciled hstale | released hstale =>
      obtain rfl := hfits
      exact absurd hfresh (htracked.not_young hget hstale)
    | @published terminalId uuid ns locator lifecycle haccepted =>
      obtain ⟨rfl, -⟩ := hfits
      obtain hrejected | ⟨own, hspawned, hkey, hown⟩ | ⟨-, hnone⟩ := htimely root hget
      · rw [haccepted] at hrejected
        cases hrejected
      · -- two resumes that are under way hold one claim
        obtain rfl := htracked.holder hkey (h own hown) (h take hunder)
        refine absurd ?_ hover'
        rw [(record_publish hget haccepted).1]
        refine List.mem_append_left _ (Option.mem_toList.mpr ?_)
        exact Option.filter_eq_some_iff.mpr ⟨hspawned, beq_self_eq_true _⟩
      · cases hnone take hmem rfl hunder
    | ended => exact hclaim
  · exact ⟨_, _, hget', rfl, rfl⟩

/-- A call that does not come late ends and moves what is its own. -/
theorem Lasting.keptRoot (h : Lasting claimTtl w) (htracked : Tracked claimTtl w)
    (hfits : Fits claimTtl actor call) (htimely : w.TimelyCall claimTtl i actor call)
    {key : String} {root root' : Root} (hget : w.db.roots.get key = some root)
    (htouched : Touched w.db key root call root') :
    KeptRoot claimTtl w i actor key root root' := by
  cases htouched with
  | kept hclaim _ _ hcurrent _ =>
    exact ⟨fun _ hne => absurd hclaim hne, fun hne => absurd hcurrent hne⟩
  | claimed hnone =>
    refine ⟨?_, fun hne => absurd rfl hne⟩
    rintro ⟨claim, hclaim, -⟩
    rw [hnone] at hclaim
    cases hclaim
  | cleared =>
    refine ⟨fun hyoung _ => ?_, fun hne => absurd rfl hne⟩
    obtain ⟨take, hmem, hkey, hunder⟩ := htracked.underWay hget hyoung
    exact ⟨take, hkey, h take hunder, belongsTo_of_takeOf (htimely take hmem hkey hunder)⟩
  | reconciled hstale | released hstale =>
    obtain rfl := hfits
    exact ⟨fun hyoung => absurd hyoung (htracked.not_young hget hstale),
      fun hne => absurd rfl hne⟩
  | @published terminalId uuid ns locator lifecycle haccepted =>
    obtain ⟨rfl, -⟩ := hfits
    obtain hrejected | ⟨own, hspawned, hkey, hown⟩ | ⟨hnewest, hnone⟩ := htimely root hget
    · rw [haccepted] at hrejected
      cases hrejected
    · exact ⟨fun _ _ => ⟨own, hkey, h own hown, .inr ⟨terminalId, rfl, hspawned⟩⟩,
        fun _ => ⟨terminalId, own, rfl, hspawned, hkey, h own hown⟩⟩
    · refine ⟨fun hyoung _ => ?_, fun hmoved => ?_⟩
      · obtain ⟨take, hmem, hsame, hunder⟩ := htracked.underWay hget hyoung
        cases hnone take hmem hsame hunder
      · exact absurd ((htracked.newest key root hget).trans hnewest).symm hmoved
  | ended => exact ⟨fun _ hne => absurd rfl hne, fun hne => absurd rfl hne⟩

/-- A conversation that is not live was ended last with its current terminal. -/
def EndedCurrent (w : World) : Prop :=
  ∀ key root, w.db.roots.get key = some root → root.lifecycle ≠ .live →
    ∃ terminalId, w.ended key = some terminalId ∧ root.currentTerminalId = some terminalId

theorem ended_advance (hcall : ∀ key lifecycle locator,
    call = .setConversationLifecycle key lifecycle locator → lifecycle = .live) :
    (w.advance i actor call next).ended = w.ended :=
  (record_frame _).2.2.1 hcall

theorem EndedCurrent.advance (h : EndedCurrent w) (htracked : Tracked claimTtl w)
    (hfits : Fits claimTtl actor call) (htimely : w.TimelyCall claimTtl i actor call) :
    EndedCurrent (w.advance i actor call next) := by
  intro key root' hget' hlifecycle
  obtain ⟨root, hget, htouched⟩ := touched_of_get hget'
  by_cases hset : ∀ key lifecycle locator,
      call = .setConversationLifecycle key lifecycle locator → lifecycle = .live
  · -- no end is written, so the root keeps its lifecycle
    rw [ended_advance hset]
    cases htouched with
    | kept _ _ _ hcurrent hsame =>
      rw [hcurrent]
      exact h key root hget (hsame ▸ hlifecycle)
    | published _ => exact absurd hfits.2 hlifecycle
    | ended => exact absurd (hset _ _ _ rfl) hlifecycle
    | _ => exact h key root hget hlifecycle
  · push Not at hset
    obtain ⟨key', lifecycle, locator, rfl, hend⟩ := hset
    have hended : (w.advance i actor (.setConversationLifecycle key' lifecycle locator)
        next).ended = Function.update w.ended key' actor.ends := by
      unfold World.advance World.record
      dsimp only
      rw [if_neg hend]
    rw [hended]
    by_cases hkey : key = key'
    · subst hkey
      obtain hnone | ⟨terminalId, hends, hnewest⟩ := htimely.resolve_left hend
      · rw [hget] at hnone
        cases hnone
      have hcurrent := (htracked.newest key root hget).trans hnewest
      rw [Function.update_self]
      refine ⟨terminalId, hends, ?_⟩
      cases htouched with
      | kept _ _ _ hsame _ => exact hsame.trans hcurrent
      | ended => exact hcurrent
    · rw [Function.update_of_ne hkey]
      cases htouched with
      | kept _ _ _ hcurrent hsame =>
        rw [hcurrent]
        exact h key root hget (hsame ▸ hlifecycle)
      | ended => exact absurd rfl hkey

end Tracked

/-! ## Every step, every run -/

section Runs

variable {claimTtl : Int}

theorem Tracked.exec {w : World} (h : Tracked claimTtl w) (step : Step) :
    Tracked claimTtl (w.exec claimTtl step) := by
  cases step with
  | begin task =>
    refine ⟨h.taken, h.unique, h.past, h.dated, h.claimed, h.newest, h.spawned,
      fun thread hthread => ?_⟩
    obtain hold | hnew := List.mem_append.mp hthread
    · exact h.fits thread hold
    · obtain rfl := List.mem_singleton.mp hnew
      exact fits_task task
  | tick seconds =>
    exact ⟨h.taken, h.unique, h.past, h.dated, h.claimed, h.newest, h.spawned, h.fits⟩
  | advance i =>
    unfold World.exec
    dsimp only
    split
    · next hthread => exact h.advance (List.mem_of_getElem? hthread)
    · exact h

theorem Lasting.exec {w : World} (h : Lasting claimTtl w) (htracked : Tracked claimTtl w)
    {step : Step} (htimely : w.Timely claimTtl step) : Lasting claimTtl (w.exec claimTtl step) := by
  cases step with
  | begin task => exact h
  | tick seconds =>
    rintro take ⟨hmem, hover, hyoung⟩
    refine h take ⟨hmem, hover, lt_of_le_of_lt (Int.sub_le_sub_right ?_ _) hyoung⟩
    exact Int.le_add_of_nonneg_right (Int.natCast_nonneg seconds)
  | advance i =>
    unfold World.Timely at htimely
    unfold World.exec
    dsimp only at htimely ⊢
    split
    · next hthread =>
      rw [hthread] at htimely
      exact h.advance htracked (htracked.fits _ (List.mem_of_getElem? hthread)).1 htimely
    · exact h

theorem EndedCurrent.exec {w : World} (h : EndedCurrent w) (htracked : Tracked claimTtl w)
    {step : Step} (htimely : w.Timely claimTtl step) :
    EndedCurrent (w.exec claimTtl step) := by
  cases step with
  | advance i =>
    unfold World.Timely at htimely
    unfold World.exec
    dsimp only at htimely ⊢
    split
    · next hthread =>
      rw [hthread] at htimely
      exact h.advance htracked (htracked.fits _ (List.mem_of_getElem? hthread)).1 htimely
    · exact h
  | _ => exact h

theorem keptStep {w : World} (h : Tracked claimTtl w) (hlasting : Lasting claimTtl w)
    (hended : EndedCurrent w) {step : Step} (htimely : w.Timely claimTtl step) :
    KeptStep claimTtl w step := by
  intro key
  refine ⟨⟨fun a b ha hb => ?_, hended.exec h htimely key⟩, ?_⟩
  · exact (h.exec step).holder (ha.trans hb.symm)
  · rintro i ⟨actor, rest⟩ root root' rfl hthread hget hget'
    unfold World.Timely at htimely
    unfold World.exec at hget'
    dsimp only at htimely hget'
    rw [hthread] at htimely hget'
    cases rest with
    | done result =>
      cases hget.symm.trans hget'
      exact ⟨fun _ hne => absurd rfl hne, fun hne => absurd rfl hne⟩
    | step call next =>
      obtain ⟨root₁, hget₁, htouched⟩ := @touched_of_get w.db key call root' hget'
      cases hget.symm.trans hget₁
      exact hlasting.keptRoot h (h.fits _ (List.mem_of_getElem? hthread)).1 htimely hget htouched

end Runs

/-- Nothing under way; the newest incarnations are the current ones. -/
def Conversations.start (db : Conversations) : World where
  db := db
  newest key := (db.roots.get key).bind (·.currentTerminalId)

/-- One incarnation for each conversation: where no clear, publish or end comes late, no two resumes
hold the claim, a young claim is ended by its own resume, the current terminal is moved to one
spawned under the claim that is held, and the last end was the one of the current terminal. -/
theorem one_incarnation (claimTtl : Int) (db : Conversations)
    (hfresh : ∀ root ∈ db.roots.rows, root.resumeClaim = none ∧ root.lifecycle = .live)
    (steps : List Step)
    (htimely : StepsSatisfy (World.exec claimTtl) (World.Timely claimTtl) db.start steps) :
    StepsSatisfy (World.exec claimTtl) (KeptStep claimTtl) db.start steps := by
  have hroot : ∀ key root, db.roots.get key = some root →
      root.resumeClaim = none ∧ root.lifecycle = .live := fun key root hget =>
    hfresh root (Table.mem_of_get hget)
  have hfree : ∀ key root claim, db.roots.get key = some root →
      root.resumeClaim ≠ some claim := by
    intro key root claim hget hclaim
    rw [(hroot key root hget).1] at hclaim
    cases hclaim
  have htracked : Tracked claimTtl db.start := by
    refine ⟨by rintro take ⟨⟩, by rintro a ⟨⟩, by rintro take ⟨⟩,
      fun key root claim hget hclaim => absurd hclaim (hfree key root claim hget),
      fun key root claim hget hclaim => absurd hclaim (hfree key root claim hget),
      fun key root hget => ?_, by rintro terminalId take ⟨⟩, by rintro thread ⟨⟩⟩
    show _ = (db.roots.get key).bind _
    rw [show db.roots.get key = some root from hget]
    rfl
  have hlasting : Lasting claimTtl db.start := by
    rintro take ⟨hmem, -⟩
    cases hmem
  have hended : EndedCurrent db.start := fun key root hget hne =>
    absurd (hroot key root hget).2 hne
  generalize db.start = w at *
  clear hroot hfree hfresh
  induction steps generalizing w with
  | nil => trivial
  | cons step rest ih =>
    exact ⟨keptStep htracked hlasting hended htimely.1,
      ih _ htimely.2 (htracked.exec step) (hlasting.exec htracked htimely.1)
        (hended.exec htracked htimely.1)⟩

/-! ## Late reports and late ends -/

/-- A conversation with its first terminal. -/
def oneRoot : Conversations where
  roots := Table.empty.insert
    { identityKey := "R", provider := "codex", providerSessionId := some "u"
      ownerPrincipal := some "o", currentTerminalId := some "t1" }
  terminals := Table.empty.insert ⟨"t1", some "R"⟩
  events := []

/-- The next calls of a thread. -/
def advances (i n : Nat) : List Step := List.replicate n (.advance i)

/-- The first terminal is hibernated, and its owner resumes the conversation in a second one. -/
def resumed : List Step :=
  .begin (.hibernate "t1" (some none)) :: advances 0 4 ++
    .begin (.resume "R" (some "o") "o" "t2" .spawned) :: advances 1 4

/-- What a terminal reports. -/
def reports (terminalId : String) : Step :=
  .begin (.attachCapturedUuid (fun _ _ => false) ⟨terminalId, "u", none, none, none⟩)

/-- The second terminal reports, and is published. -/
theorem one_incarnation_resumed :
    StepsSatisfy (World.exec 600) (KeptStep 600) oneRoot.start
      (resumed ++ reports "t2" :: advances 2 6) :=
  one_incarnation 600 oneRoot (by decide +kernel) _ (by decide +kernel)

/-- While the resume waits for its terminal the first terminal reports, is published and ends the
claim; or the first terminal is detached after the second one was published, and the
conversation with it. -/
theorem earlier_incarnation_interferes :
    ¬ StepsSatisfy (World.exec 600) (KeptStep 600) oneRoot.start
        (resumed ++ reports "t1" :: advances 2 3) ∧
      ¬ StepsSatisfy (World.exec 600) (KeptStep 600) oneRoot.start
        (resumed ++ reports "t2" :: advances 2 6 ++
          .begin (.crashDetachTerminal "t1") :: advances 3 2) := by
  constructor
  · intro hkept
    obtain ⟨w, hw⟩ : ∃ w, w = run (World.exec 600) oneRoot.start
        (resumed ++ reports "t1" :: advances 2 2) := ⟨_, rfl⟩
    have hstep : KeptStep 600 w (.advance 2) :=
      hw ▸ (stepsSatisfy_iff _ _ _).mp hkept (resumed ++ reports "t1" :: advances 2 2) _ [] rfl
    -- the claim of the resume is held and young, and the publish of the other terminal ends it
    have hactor : w.threads[2]?.map (·.actor) = some (.incarnation "t1") := by
      rw [hw]
      decide +kernel
    have hclaim : (w.db.roots.get "R").map (·.resumeClaim) = some (some ⟨"o", 1, 0⟩) := by
      rw [hw]
      decide +kernel
    have hcleared : ((w.exec 600 (.advance 2)).db.roots.get "R").map (·.resumeClaim) =
        some none := by
      rw [hw]
      decide +kernel
    have hnow : w.db.utcnow = 0 := by
      rw [hw]
      decide +kernel
    have htakes : w.takes = [⟨1, "R", 1, 0⟩] := by
      rw [hw]
      decide +kernel
    have hspawned : w.spawned "t1" = none := by
      rw [hw]
      decide +kernel
    obtain ⟨⟨_, rest⟩, hthread, rfl⟩ := Option.map_eq_some_iff.mp hactor
    obtain ⟨root, hget, hheld⟩ := Option.map_eq_some_iff.mp hclaim
    obtain ⟨root', hget', hfree⟩ := Option.map_eq_some_iff.mp hcleared
    obtain ⟨take, -, ⟨hmem, -⟩, hbelongs⟩ :=
      ((hstep "R").2 2 _ root root' rfl hthread hget hget').claim
        ⟨_, hheld, by rw [hnow]; decide⟩ (by rw [hheld, hfree]; decide)
    rw [htakes, List.mem_singleton] at hmem
    subst hmem
    obtain hsame | ⟨terminalId, hterminal, hunder⟩ := hbelongs
    · cases hsame
    · cases hterminal
      rw [hspawned] at hunder
      cases hunder
  · intro hkept
    obtain ⟨w, hw⟩ : ∃ w, w = run (World.exec 600) oneRoot.start (resumed ++
        reports "t2" :: advances 2 6 ++ .begin (.crashDetachTerminal "t1") :: advances 3 1) :=
      ⟨_, rfl⟩
    have hstep : KeptStep 600 w (.advance 3) :=
      hw ▸ (stepsSatisfy_iff _ _ _).mp hkept (resumed ++ reports "t2" :: advances 2 6 ++
        .begin (.crashDetachTerminal "t1") :: advances 3 1) _ [] rfl
    have hroot : ((w.exec 600 (.advance 3)).db.roots.get "R").map
        (fun root => (root.lifecycle, root.currentTerminalId)) = some (.detached, some "t2") := by
      rw [hw]
      decide +kernel
    have hended : (w.exec 600 (.advance 3)).ended "R" = some "t1" := by
      rw [hw]
      decide +kernel
    obtain ⟨root, hget, hfields⟩ := Option.map_eq_some_iff.mp hroot
    obtain ⟨hlifecycle, hcurrent⟩ := Prod.mk.inj hfields
    obtain ⟨terminalId, hlast, hsame⟩ :=
      (hstep "R").1.ended root hget (by rw [hlifecycle]; decide)
    rw [hended] at hlast
    rw [hcurrent] at hsame
    cases hlast
    exact absurd hsame (by decide)

end CliAgentOrchestrator.Conversation
