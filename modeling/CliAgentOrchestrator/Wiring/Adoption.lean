import CliAgentOrchestrator.Wiring.Mailroom

/-!
# The adoption of legacy rows

`adopt_orphaned_legacy_rows` of `clients/database.py` over `adopt_enqueue` and
`adopt_legacy_row`. A pass is a sequence of transactions: the scan, then for each candidate the
enqueue on the queue's connection and the update that retires the row. The passes of a process
share the ids it skips; several may be on their way, and each may end where it stands.

`rejects` says which rows the store rejects for good. A warning changes nothing and is left out.
-/

set_option autoImplicit false

namespace CliAgentOrchestrator.Wiring

open CliAgentOrchestrator.Core Library Queue Inbox

/-- Enqueue one row of the inbox; none is a failure that may pass.
SOURCE: app/delivery/wiring.py:217-276 -/
def adoptLegacyRow (sha256 : String → String) (rejects : Int → Bool) (available : Bool)
    (store : Store) (fact : LegacyEnqueue) (newUlid : String) (now : Int) :
    Except EnqueueError (Option (String × Store)) :=
  if !available then .ok none
  else
    match factDraft (adoptedKey fact.legacyMessageId) fact fact.legacyMessageId with
    | none => .ok none
    | some draft =>
      if rejects fact.legacyMessageId then .error .persistentEnqueueRejection
      else
        match enqueue sha256 store draft newUlid now with
        | .ok (message, store') => .ok (some (message.msgId, store'))
        | .error .rowVanished => .ok none
        | .error e => .error e

/-- SOURCE: services/queue_carrier.py:175-192 -/
def adoptEnqueue (sha256 : String → String) (rejects : Int → Bool) (available : Bool)
    (store : Store) (fact : LegacyEnqueue) (newUlid : String) (now : Int) :
    Except EnqueueError (Option (String × Store)) :=
  adoptLegacyRow sha256 rejects available store fact newUlid now

/-- `(legacy_message_id, msg_id, receiver_id)`. -/
structure Adopted where
  legacyMessageId : Int
  msgId : String
  receiverId : String

/-- Where a call of `adopt_orphaned_legacy_rows` stands. -/
inductive Pass
  | ready
  | adopting (rest : List InboxRow) (adopted : List Adopted)
  | retiring (row : InboxRow) (msgId : String) (rest : List InboxRow) (adopted : List Adopted)
  | returned (adopted : List Adopted)
  | died

/-- The next turn of the loop, or the end of it. -/
def Pass.goOn (rest : List InboxRow) (adopted : List Adopted) : Pass :=
  if rest.isEmpty then .returned adopted else .adopting rest adopted

/-- A pass on its way dies with its process. -/
def Pass.kill : Pass → Pass
  | adopting _ _ => died
  | retiring _ _ _ _ => died
  | pass => pass

/-- The two tables, `_ADOPTION_POISON_IDS` and the calls. -/
structure Adoption where
  inbox : Table InboxRow.id
  store : Store
  poisonIds : List Int
  pass : Nat → Pass

/-- One transaction of a call, or the end of one. -/
inductive AdoptionStep
  | scan (call : Nat)
  | scanFails (call : Nat)
  /-- The queue is there and answers, or not. -/
  | enqueue (call : Nat) (available : Bool) (newUlid : String) (now : Int)
  | retire (call : Nat) (commits : Bool)
  | crash (call : Nat)
  | restart

/-- ORDER BY id ASC. -/
def rowOrder (a b : InboxRow) : Prop := a.id ≤ b.id

instance : DecidableRel rowOrder := fun a b => inferInstanceAs (Decidable (a.id ≤ b.id))

namespace Adoption

/-- SOURCE: clients/database.py:11228-11231 -/
def candidates (limit : Int) (a : Adoption) : List InboxRow :=
  ((a.inbox.select fun row => row.status == .pending && !a.poisonIds.contains row.id).insertionSort
    rowOrder).take (max 1 limit).toNat

def setPass (a : Adoption) (call : Nat) (pass : Pass) : Adoption :=
  { a with pass := Function.update a.pass call pass }

/-- `_ADOPTION_POISON_IDS.add`. -/
def poisoned (a : Adoption) (id : Int) : Adoption := { a with poisonIds := id :: a.poisonIds }

/-- SOURCE: clients/database.py:11167-11354 -/
def exec (sha256 contentHash : String → String) (rejects : Int → Bool) (limit : Int)
    (a : Adoption) : AdoptionStep → Adoption
  | .scan call =>
    match a.pass call with
    | .ready => a.setPass call (.goOn (a.candidates limit) [])
    | _ => a
  | .scanFails call =>
    match a.pass call with
    | .ready => a.setPass call (.returned [])
    | _ => a
  | .enqueue call available newUlid now =>
    match a.pass call with
    | .adopting (row :: rest) adopted =>
      if row.effectiveReceiver = "" then
        -- no receiver can be named
        (a.poisoned row.id).setPass call (.goOn rest adopted)
      else
        match adoptEnqueue sha256 rejects available a.store (adoptionFact contentHash row) newUlid
          now with
        | .error _ => (a.poisoned row.id).setPass call (.goOn rest adopted)
        | .ok none => a.setPass call (.goOn rest adopted)
        | .ok (some (msgId, store)) =>
          { a with store := store }.setPass call (.retiring row msgId rest adopted)
    | _ => a
  | .retire call commits =>
    match a.pass call with
    | .retiring row msgId rest adopted =>
      if commits then
        let changed := (a.inbox.get row.id).any fun r => r.status == .pending
        { a with inbox := retireRow a.inbox row.id }.setPass call
          (.goOn rest
            (if changed then adopted.concat ⟨row.id, msgId, row.effectiveReceiver⟩ else adopted))
      else a.setPass call (.goOn rest adopted)
    | _ => a
  | .crash call => a.setPass call (a.pass call).kill
  | .restart => { a with poisonIds := [], pass := fun call => (a.pass call).kill }

end Adoption

end CliAgentOrchestrator.Wiring
