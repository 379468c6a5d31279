import CliAgentOrchestrator.Memory.Index
import CliAgentOrchestrator.Memory.Secrets
import CliAgentOrchestrator.Library.Machine

/-!
# Storing and forgetting

The memory base is the topic files, the index of each container and the metadata rows. `store`
writes the topic file, then the index, then the row; `forget` takes them away again. Calls come
with the arguments the callers give, and what their checks refuse changes nothing.
-/

set_option autoImplicit false

namespace CliAgentOrchestrator.Memory

open Library

/-- A metadata row, as far as `store` fills it from the entry. -/
structure Row where
  type : MemoryType
  tags : Text
  tokenEstimate : Nat

/-- The memory base. Rows are found by scope, scope id and key. -/
structure Base where
  files : TopicId → Option Text
  index : Text → Option Text
  metadata : Scope × Option Text × Text → Option Row

def Base.empty : Base := ⟨fun _ => none, fun _ => none, fun _ => none⟩

/-- The arguments of `store`; `scopeId` is what `resolve_scope_id` gives, `callerScope` what the
terminal context says of the caller, `fresh` the new UUID. -/
structure StoreArgs where
  scope : Scope
  callerScope : Option Text
  scopeId : Option Text
  key : Option Text
  type : MemoryType
  tags : Text
  content : Text
  occurredAt : Option Occurred
  now : Datetime
  fresh : Text

/-- The arguments of `forget`. -/
structure ForgetArgs where
  scope : Scope
  scopeId : Option Text
  key : Text
  now : Datetime

/-- SOURCE: services/memory_service.py:571-580
(`auto_generate_key`) -/
def autoGenerateKey (content : Text) : Text :=
  let slug := [45].intercalate ((words content).take 6)
  let slug := collapseHyphens (slug.flatMap slugOf)
  (rstrip (· == 45) (lstrip (· == 45) slug)).take 60

/-- The topic with these names, where they pass the checks of the path. -/
def TopicId.ofNames (scope : Scope) (scopeId : Option Text) (key : Text) : Option TopicId :=
  if h : key ≠ [] ∧ (∀ c ∈ key, isSlugChar c = true) ∧ scopeId.isSome = scope.hasId
      ∧ ∀ id, scopeId = some id → isComponent id = true then
    some ⟨scope, scopeId, key, h.1, h.2.1, h.2.2.1, h.2.2.2⟩
  else none

/-- SOURCE: services/memory_scoring.py:57-63 (`SCOPE_RANK`) -/
def Scope.rank : Scope → Nat
  | .session => 0
  | .project => 1
  | .agent => 1
  | .global => 2
  | .federated => 0

/-- SOURCE: services/memory_scoring.py:127-147
(`scope_write_allowed`) -/
def scopeWriteAllowed (caller target : Scope) : Bool :=
  caller = target || target.rank < caller.rank

/-- SOURCE: services/memory_service.py:411-436
(`resolve_caller_scope`) -/
def resolveCallerScope (explicit : Option Text) : Scope :=
  (explicit.bind fun name =>
    [Scope.session, .project, .agent, .global, .federated].find? fun s => s.value == name).getD
      .global

/-- `ValueError`: a federated write holds a credential. -/
def StoreArgs.screened (a : StoreArgs) : Bool :=
  a.scope = .federated && (scanForSecrets a.content).isSome

/-- The topic with the names of the call, where they pass the checks. -/
def StoreArgs.named (a : StoreArgs) : Option TopicId :=
  let scopeId := if a.scope.hasId then a.scopeId else none
  let key :=
    match a.key with
    | none => some (autoGenerateKey a.content)
    | some raw => sanitizeKey raw
  key.bind fun key => TopicId.ofNames a.scope scopeId key

/-- The topic a `store` writes; none where it raises `ValueError` for its content or its names, or
`PermissionError` for its caller. -/
def StoreArgs.topic (a : StoreArgs) : Option TopicId :=
  if a.screened then none
  else if scopeWriteAllowed (resolveCallerScope a.callerScope) a.scope then a.named
  else none

/-- The topic whose file a `forget` looks for: global and federated paths do not hold the scope
id, and a project without one falls into the `global` container. None where the names are refused,
or where no topic has the path. -/
def ForgetArgs.topic (a : ForgetArgs) : Option TopicId :=
  (sanitizeKey a.key).bind fun key =>
    if a.scopeId.all isComponent then
      match a.scope with
      | .global => TopicId.ofNames .global none key
      | .federated => TopicId.ofNames .federated none key
      | .project => TopicId.ofNames .project (some (a.scopeId.getD (text "global"))) key
      | .session => TopicId.ofNames .session a.scopeId key
      | .agent => TopicId.ofNames .agent a.scopeId key
    else none

/-- What `store` writes, past its checks. -/
def StoreArgs.entry (a : StoreArgs) : Entry :=
  ⟨a.scope, a.type, normalizeTags a.tags, a.content, a.occurredAt⟩

/-- SOURCE: services/memory_service.py:697-990 (`store`, all writes
succeeding, the compile left out) -/
def storeTopic (a : StoreArgs) (t : TopicId) (b : Base) : Except Fault (Base × Written) :=
  match storeText t.key a.fresh a.entry a.now (b.files t) with
  | .error fault => .error fault
  | .ok w =>
    let line := entryLine t a.type (normalizeTags a.tags) (estTokens a.content) w.time
    .ok ({ files := Function.update b.files t (some w.text)
           index := Function.update b.index t.container
             (some (updateIndex t (some line) w.time (b.index t.container)))
           metadata := Function.update b.metadata (t.scope, t.scopeId, t.key)
             (some ⟨a.type, normalizeTags a.tags, a.content.length / 4⟩) }, w)

/-- SOURCE: services/memory_service.py:2691-2748 (`forget`); the row
is looked for under the names of the call. -/
def forgetTopic (a : ForgetArgs) (t : TopicId) (b : Base) : Base :=
  let metadata := Function.update b.metadata (a.scope, a.scopeId, t.key) none
  match b.files t with
  | none => { b with metadata := metadata }
  | some _ =>
    { files := Function.update b.files t none
      index := Function.update b.index t.container
        (some (updateIndex t none a.now.stamp (b.index t.container)))
      metadata := metadata }

/-- A call of the service. -/
inductive Call where
  | store (args : StoreArgs)
  | forget (args : ForgetArgs)

/-- The base after a call: one that raises leaves it as it is. -/
def exec (b : Base) : Call → Base
  | .store a =>
    match a.topic with
    | none => b
    | some t =>
      match storeTopic a t b with
      | .error _ => b
      | .ok (b', _) => b'
  | .forget a =>
    match a.topic with
    | none => b
    | some t => forgetTopic a t b

/-- What a call does to the files and the indexes: nothing, an update with an entry, or a
removal. -/
theorem exec_cases (b : Base) (call : Call) :
    ((exec b call).files = b.files ∧ (exec b call).index = b.index)
      ∨ (∃ a t w, call = .store a ∧ a.topic = some t
          ∧ storeText t.key a.fresh a.entry a.now (b.files t) = .ok w
          ∧ (exec b call).files = Function.update b.files t (some w.text)
          ∧ (exec b call).index = Function.update b.index t.container
            (some (updateIndex t (some (entryLine t a.type (normalizeTags a.tags)
              (estTokens a.content) w.time)) w.time (b.index t.container))))
      ∨ (∃ a t raw, call = .forget a ∧ a.topic = some t ∧ b.files t = some raw
          ∧ (exec b call).files = Function.update b.files t none
          ∧ (exec b call).index = Function.update b.index t.container
            (some (updateIndex t none a.now.stamp (b.index t.container)))) := by
  cases call with
  | store a =>
    cases ht : a.topic with
    | none =>
      refine .inl ?_
      simp only [exec, ht, and_self]
    | some t =>
      cases hw : storeText t.key a.fresh a.entry a.now (b.files t) with
      | error fault =>
        refine .inl ?_
        simp only [exec, ht, storeTopic, hw, and_self]
      | ok w =>
        refine .inr (.inl ⟨a, t, w, rfl, ht, hw, ?_, ?_⟩)
        · simp only [exec, ht, storeTopic, hw]
        · simp only [exec, ht, storeTopic, hw]
  | forget a =>
    cases ht : a.topic with
    | none =>
      refine .inl ?_
      simp only [exec, ht, and_self]
    | some t =>
      cases hfile : b.files t with
      | none =>
        refine .inl ?_
        simp only [exec, ht, forgetTopic, hfile, and_self]
      | some raw =>
        refine .inr (.inr ⟨a, t, raw, rfl, ht, hfile, ?_, ?_⟩)
        · simp only [exec, ht, forgetTopic, hfile]
        · simp only [exec, ht, forgetTopic, hfile]

end CliAgentOrchestrator.Memory
