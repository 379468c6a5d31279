import CliAgentOrchestrator.Library.Dict
import CliAgentOrchestrator.Library.Machine
import CliAgentOrchestrator.Library.Timestamp

/-!
# Teardown intents

`services/teardown_intent_service.py` over the table `f218_teardown_intents`. A mark in the memory
of the process is keyed by the scope key, a row by kind and key, and the text in `expires_at` is
written by two layers: the INSERT goes through the column type, the UPDATE of a scope that has a
row already binds `isoformat()`.

Times are microseconds. The clock of the marks and the clock of the rows advance together, so
both are read from one. Every transaction is a step of its own, and a step that a caller cannot
take where it stands changes nothing.
-/

set_option autoImplicit false

namespace CliAgentOrchestrator.Teardown

open Library

/-- CHECK ck_f218_teardown_scope_kind. -/
inductive ScopeKind
  | terminal
  | session
deriving DecidableEq

structure TeardownIntent where
  id : Nat
  scopeKind : ScopeKind
  scopeKey : String
  expiresAt : Text

/-- UNIQUE uq_f218_teardown_intent. -/
def TeardownIntent.scope (r : TeardownIntent) : ScopeKind × String := (r.scopeKind, r.scopeKey)

/-- The marks of the process and the rows of the database. -/
structure Intents where
  marks : Dict String Nat
  rows : Table TeardownIntent.scope

variable {epoch : Date}

namespace Intents

/-- SOURCE: services/teardown_intent_service.py:35-42 -/
def markTeardown (s : Intents) (scopeKey : String) (deadline : Nat) : Intents :=
  { s with marks := s.marks.assign scopeKey deadline }

/-- SOURCE: services/teardown_intent_service.py:45-48 -/
def unmarkTeardown (s : Intents) (scopeKey : String) : Intents :=
  { s with marks := s.marks.pop scopeKey }

/-- Expired marks are dropped on the way.
SOURCE: services/teardown_intent_service.py:51-57 -/
def activeMemoryMarks (s : Intents) (now : Nat) : Intents :=
  { s with marks := s.marks.delete fun mark => decide (mark.2 ≤ now) }

/-- The INSERT of `open_intent`; `none` is the IntegrityError.
SOURCE: services/teardown_intent_service.py:74-93 -/
def insertIntent (s : Intents) (id : Nat) (scopeKind : ScopeKind) (scopeKey : String)
    (expires : Moment epoch) : Option Intents :=
  if (s.rows.get (scopeKind, scopeKey)).isSome then none
  else some { s with rows := s.rows.insert ⟨id, scopeKind, scopeKey, stored expires⟩ }

/-- The UPDATE of `open_intent`.
SOURCE: services/teardown_intent_service.py:99-111 -/
def extendIntent (s : Intents) (scopeKind : ScopeKind) (scopeKey : String)
    (expires : Moment epoch) : Intents :=
  { s with
    rows := s.rows.updateKey (scopeKind, scopeKey) (fun _ => true)
      ⟨fun r => { r with expiresAt := iso expires }, fun _ => rfl⟩ }

/-- The id that `open_intent` returns after the UPDATE.
SOURCE: services/teardown_intent_service.py:112-118 -/
def existingId (s : Intents) (id : Nat) (scopeKind : ScopeKind) (scopeKey : String) : Nat :=
  ((s.rows.get (scopeKind, scopeKey)).map TeardownIntent.id).getD id

/-- SOURCE: services/teardown_intent_service.py:121-131 -/
def closeIntent (s : Intents) (id : Nat) : Intents :=
  { s with rows := s.rows.delete fun r => decide (r.id = id) }

/-- The lazy cleanup of `is_teardown_intended`.
SOURCE: services/teardown_intent_service.py:171-176 -/
def deleteExpired (s : Intents) (now : Moment epoch) : Intents :=
  { s with rows := s.rows.delete fun r => decide (¬ stored now < r.expiresAt) }

/-- `readable` says that the database answers.
SOURCE: services/teardown_intent_service.py:181-215 -/
def activeTeardownScopeKeys (s : Intents) (now : Moment epoch) (readable : Bool) : List String :=
  (s.activeMemoryMarks now.1).marks.rows.map Prod.fst ++
    if readable then (s.rows.select fun r => decide (stored now < r.expiresAt)).map (·.scopeKey)
    else []

end Intents

/-! ## Callers -/

/-- Where a bracket stands: it has looked for a mark, it has set its own and `open_intent` has not
returned, the block runs, the row is closed. -/
inductive Stage
  | entered
  | marked
  | inside (intentId : Option Nat)
  | closed
deriving DecidableEq

/-- SOURCE: services/teardown_intent_service.py:218-288 -/
structure Bracket where
  scopeKind : ScopeKind
  scopeKey : String
  resolvedTtl : Nat
  openedAt : Nat
  alreadyMarked : Bool
  stage : Stage
deriving DecidableEq

/-- When the TTL of a bracket has passed. -/
def Bracket.deadline (b : Bracket) : Nat := b.openedAt + b.resolvedTtl

/-- A call of `open_intent` that ran into the row of its scope; `extended` says that its UPDATE is
done. -/
structure Reopening (epoch : Date) where
  scopeKind : ScopeKind
  scopeKey : String
  intentId : Nat
  expires : Moment epoch
  extended : Bool

/-- An opening of a scope key, and when its TTL has passed. -/
structure Opening where
  scopeKey : String
  deadline : Nat

/-- The clock, the store, the brackets and the calls of `open_intent` under way by their callers,
and the openings so far. -/
structure Teardowns (epoch : Date) where
  now : Moment epoch
  store : Intents
  brackets : Dict Nat Bracket
  reopenings : Dict Nat (Reopening epoch)
  openings : List Opening

/-- What happens next. A caller is a number, `readAt` is when it read the clock for the row, `id`
is its uuid; `ok` says whether the transaction of the close goes through. -/
inductive Step
  | elapse (dt : Nat)
  | enter (caller : Nat) (scopeKind : ScopeKind) (scopeKey : String) (ttl : Nat)
  | mark (caller : Nat)
  | openBracket (caller id readAt : Nat)
  | openIntent (caller : Nat) (scopeKind : ScopeKind) (scopeKey : String) (ttl id readAt : Nat)
  | extend (caller : Nat)
  | returned (caller : Nat)
  | raised (caller : Nat)
  | closeBracket (caller : Nat) (ok : Bool)
  | closeIntent (id : Nat)
  | unmark (caller : Nat)
  | cleanup
  | restart

namespace Teardowns

def start (now : Moment epoch) : Teardowns epoch := ⟨now, ⟨.empty, .empty⟩, .empty, .empty, []⟩

/-- The bracket of a caller, where there is one, goes on to `stage`. -/
def advance (h : Teardowns epoch) (caller : Nat) (stage : Stage) : Teardowns epoch :=
  match h.brackets.find caller with
  | none => h
  | some b => { h with brackets := h.brackets.assign caller { b with stage := stage } }

/-- The first transaction of `open_intent`, and what the caller does with its outcome. A sum past
the last date raises. -/
def beginOpen (h : Teardowns epoch) (caller id : Nat) (scopeKind : ScopeKind) (scopeKey : String)
    (expires : Nat) : Teardowns epoch :=
  if hexpires : Representable epoch expires then
    match h.store.insertIntent id scopeKind scopeKey ⟨expires, hexpires⟩ with
    | some store =>
      advance { h with store := store, openings := ⟨scopeKey, expires⟩ :: h.openings } caller
        (.inside (some id))
    | none =>
      { h with
        reopenings := h.reopenings.assign caller
          ⟨scopeKind, scopeKey, id, ⟨expires, hexpires⟩, false⟩ }
  else h.advance caller (.inside none)

/-- The caller has read the clock after `since`, and is in no other call. -/
def mayOpen (h : Teardowns epoch) (caller since readAt : Nat) : Bool :=
  (h.reopenings.find caller).isNone && decide (since ≤ readAt ∧ readAt ≤ h.now.1)

def exec (h : Teardowns epoch) : Step → Teardowns epoch
  | .elapse dt =>
    if hnow : Representable epoch (h.now.1 + dt) then { h with now := ⟨h.now.1 + dt, hnow⟩ } else h
  | .enter caller scopeKind scopeKey ttl =>
    if (h.brackets.find caller).isNone && (h.reopenings.find caller).isNone then
      let store := h.store.activeMemoryMarks h.now.1
      { h with
        store := store
        brackets := h.brackets.assign caller
          ⟨scopeKind, scopeKey, ttl, h.now.1, (store.marks.find scopeKey).isSome, .entered⟩ }
    else h
  | .mark caller =>
    match h.brackets.find caller with
    | some b =>
      if b.stage = .entered then
        { h with
          store := h.store.markTeardown b.scopeKey (h.now.1 + b.resolvedTtl)
          brackets := h.brackets.assign caller { b with openedAt := h.now.1, stage := .marked }
          openings := ⟨b.scopeKey, h.now.1 + b.resolvedTtl⟩ :: h.openings }
      else h
    | none => h
  | .openBracket caller id readAt =>
    match h.brackets.find caller with
    | some b =>
      if b.stage = .marked ∧ h.mayOpen caller b.openedAt readAt then
        h.beginOpen caller id b.scopeKind b.scopeKey (readAt + b.resolvedTtl)
      else h
    | none => h
  | .openIntent caller scopeKind scopeKey ttl id readAt =>
    if (h.brackets.find caller).isNone && h.mayOpen caller 0 readAt then
      h.beginOpen caller id scopeKind scopeKey (readAt + ttl)
    else h
  | .extend caller =>
    match h.reopenings.find caller with
    | some o =>
      if o.extended then h
      else
        { h with
          store := h.store.extendIntent o.scopeKind o.scopeKey o.expires
          reopenings := h.reopenings.assign caller { o with extended := true }
          openings :=
            if (h.store.rows.get (o.scopeKind, o.scopeKey)).isSome then
              ⟨o.scopeKey, o.expires.1⟩ :: h.openings
            else h.openings }
    | none => h
  | .returned caller =>
    match h.reopenings.find caller with
    | some o =>
      if o.extended then
        advance { h with reopenings := h.reopenings.pop caller } caller
          (.inside (some (h.store.existingId o.intentId o.scopeKind o.scopeKey)))
      else h
    | none => h
  | .raised caller =>
    match h.brackets.find caller with
    | some b =>
      if b.stage = .marked then
        advance { h with reopenings := h.reopenings.pop caller } caller (.inside none)
      else h
    | none => { h with reopenings := h.reopenings.pop caller }
  | .closeBracket caller ok =>
    match h.brackets.find caller with
    | some b =>
      match b.stage with
      | .inside none => h.advance caller .closed
      | .inside (some id) =>
        let h := h.advance caller .closed
        { h with store := if ok then h.store.closeIntent id else h.store }
      | _ => h
    | none => h
  | .closeIntent id => { h with store := h.store.closeIntent id }
  | .unmark caller =>
    match h.brackets.find caller with
    | some b =>
      if b.stage = .closed then
        { h with
          store := if b.alreadyMarked then h.store else h.store.unmarkTeardown b.scopeKey
          brackets := h.brackets.pop caller }
      else h
    | none => h
  | .cleanup => { h with store := h.store.deleteExpired h.now }
  | .restart =>
    { h with store := { h.store with marks := .empty }, brackets := .empty, reopenings := .empty }

end Teardowns

end CliAgentOrchestrator.Teardown
