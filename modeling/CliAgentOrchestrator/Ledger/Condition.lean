import CliAgentOrchestrator.Library.Dict
import CliAgentOrchestrator.Library.Machine

/-!
# Condition delivery

`ConditionDelivery` of `providers/condition.py` with the routing and the suppression rule of
`clients/delivery_ledger.py`, over the table `condition_ledger`. The sinks are callables: what
they heard is kept as lists, and a call says which of them raise. `decided_at` nothing reads.
-/

set_option autoImplicit false

namespace CliAgentOrchestrator.Ledger

open Library

/-! ## Conditions -/

inductive ConditionKind
  | capped
  | authExpired
  | netInterrupted
  | contextExhausted
  | dialogBlocked
  | procExited
  | transientOverload
  | busy
  | waitingOnSubagents
deriving DecidableEq

/-- SOURCE: providers/condition.py:51-74 -/
def ConditionKind.value : ConditionKind → String
  | capped => "CAPPED"
  | authExpired => "AUTH_EXPIRED"
  | netInterrupted => "NET_INTERRUPTED"
  | contextExhausted => "CONTEXT_EXHAUSTED"
  | dialogBlocked => "DIALOG_BLOCKED"
  | procExited => "PROC_EXITED"
  | transientOverload => "TRANSIENT_OVERLOAD"
  | busy => "BUSY"
  | waitingOnSubagents => "WAITING_ON_SUBAGENTS"

inductive Confidence
  | high
  | medium
  | low
deriving DecidableEq

structure Condition where
  kind : ConditionKind
  provider : String
  subtype : String
  evidence : String
  confidence : Confidence
  resetHint : Option String := none
  host : Option String := none
  credentialPlane : Option String := none
  scope : String := "provider"

/-- SOURCE: providers/condition.py:1239-1241 -/
def shouldDeliver (cond : Condition) : Bool := [Confidence.high, .medium].contains cond.confidence

/-- SOURCE: providers/condition.py:1522-1530 -/
def fleetLabel (cond : Condition) : String :=
  if cond.kind = .capped then "CAPPED"
  else if cond.kind = .dialogBlocked then "BLOCKED"
  else if cond.kind = .authExpired then "AUTH"
  else cond.kind.value

/-! ## Routing -/

structure Surfaces where
  fleet : Bool
  bus : Bool
  inbox : Bool

/-- SOURCE: clients/delivery_ledger.py:208-224 -/
def kindSurfaces : List (String × Surfaces) :=
  [("BUSY", ⟨true, true, false⟩), ("CAPPED", ⟨true, true, true⟩),
    ("AUTH_EXPIRED", ⟨true, true, true⟩), ("DIALOG_BLOCKED", ⟨true, true, true⟩),
    ("PROC_EXITED", ⟨true, true, true⟩), ("HOST_UNREACHABLE", ⟨true, true, true⟩),
    ("NET_INTERRUPTED", ⟨true, true, false⟩), ("TRANSIENT_OVERLOAD", ⟨true, true, false⟩),
    ("CONTEXT_EXHAUSTED", ⟨true, true, true⟩), ("WAITING_ON_SUBAGENTS", ⟨true, true, false⟩)]

def defaultSurfaces : Surfaces := ⟨true, true, false⟩

/-- SOURCE: clients/delivery_ledger.py:230-232 -/
def surfacesForKind (kind : String) : Surfaces := (kindSurfaces.lookup kind).getD defaultSurfaces

/-- SOURCE: clients/delivery_ledger.py:250-298 -/
def drainClassDeclinesInbox (kind subtype : String) : Bool :=
  kind == "BUSY" || (kind == "PROC_EXITED" && subtype == "command_exit_code") ||
    (kind == "CONTEXT_EXHAUSTED" && subtype == "low_context_tip") ||
    (kind == "CONTEXT_EXHAUSTED" && subtype == "footer_percent_status")

/-- SOURCE: providers/condition.py:1416-1445 -/
def inboxDeclined (kind subtype : String) : Bool :=
  drainClassDeclinesInbox kind subtype || !(surfacesForKind kind).inbox

/-- SOURCE: providers/condition.py:1447-1466 -/
def surfacesStr (kind subtype : String) : String :=
  let surf := surfacesForKind kind
  let inbox := surf.inbox && !drainClassDeclinesInbox kind subtype
  ",".intercalate ((if surf.fleet then ["fleet"] else []) ++ (if surf.bus then ["bus"] else []) ++
    if inbox then ["inbox"] else [])

/-! ## The decision log -/

inductive ConditionDecision
  | delivered
  | deduped
  | gated
  | cleared
deriving DecidableEq

/-- SOURCE: clients/delivery_ledger.py:324-326 -/
def memoryUpdatingDecisions : List ConditionDecision := [.delivered, .cleared]

structure ConditionTuple where
  kind : String
  subtype : String
  epoch : Int
deriving DecidableEq

structure ConditionLogRow where
  id : Int
  decision : ConditionDecision
  tuple : Option ConditionTuple

/-- The later of the row and the best one so far. -/
def laterMemoryRow (best : Option ConditionLogRow) (row : ConditionLogRow) :
    Option ConditionLogRow :=
  if !memoryUpdatingDecisions.contains row.decision then best
  else
    match best with
    | none => some row
    | some b => if b.id < row.id then some row else best

/-- SOURCE: clients/delivery_ledger.py:352-362 -/
def latestMemoryRow (rows : List ConditionLogRow) : Option ConditionLogRow :=
  rows.foldl laterMemoryRow none

/-- SOURCE: clients/delivery_ledger.py:365-392 -/
def shouldSuppressCondition (incoming : ConditionTuple) (rows : List ConditionLogRow) : Bool :=
  match latestMemoryRow rows with
  | none => false
  | some latest =>
    if latest.decision = .delivered then decide (latest.tuple = some incoming) else false

structure ConditionLedgerRow where
  id : Int
  terminalId : String
  kind : Option String
  subtype : Option String
  epoch : Option Int
  decision : ConditionDecision
  surfaces : Option String
  suppressedReason : Option String
  inboxMessageId : Option Int

abbrev ConditionLedger := Table ConditionLedgerRow.id

/-- SOURCE: clients/database.py:15790-15822 -/
def recordConditionDecision (db : ConditionLedger) (terminalId : String)
    (decision : ConditionDecision) (kind subtype : Option String) (epoch : Option Int)
    (surfaces suppressedReason : Option String) (inboxMessageId : Option Int) : ConditionLedger :=
  db.insert
    { id := db.nextKey, terminalId := terminalId, kind := kind, subtype := subtype, epoch := epoch
      decision := decision, surfaces := surfaces, suppressedReason := suppressedReason
      inboxMessageId := inboxMessageId }

/-- A row for the rule; a NULL in it leaves no tuple. -/
def ConditionLedgerRow.project (row : ConditionLedgerRow) : ConditionLogRow :=
  { id := row.id, decision := row.decision
    tuple := do
      let kind ← row.kind
      let subtype ← row.subtype
      let epoch ← row.epoch
      some ⟨kind, subtype, epoch⟩ }

/-- ORDER BY id ASC. -/
def idOrder (r r' : ConditionLedgerRow) : Prop := r.id ≤ r'.id

instance : DecidableRel idOrder := fun r r' => inferInstanceAs (Decidable (r.id ≤ r'.id))

/-- SOURCE: clients/database.py:15825-15843 -/
def conditionLogRows (db : ConditionLedger) (terminalId : String) : List ConditionLogRow :=
  ((db.select fun r => r.terminalId == terminalId).insertionSort idOrder).map
    ConditionLedgerRow.project

/-- SOURCE: clients/database.py:15846-15858 -/
def suppressConditionByLog (db : ConditionLedger) (terminalId kind subtype : String)
    (epoch : Int) : Bool :=
  shouldSuppressCondition ⟨kind, subtype, epoch⟩ (conditionLogRows db terminalId)

/-! ## The delivery seam -/

structure DeliveryResult where
  delivered : Bool
  fleetField : Option String
  inboxPushes : Nat
  reason : String

/-- What the sinks accepted. -/
structure Heard where
  fleet : List (String × Option String) := []
  inbox : List (String × Condition) := []
  cli : List (String × Condition × String) := []

/-- The memory of the process, and which sinks and log it was built with. -/
structure ConditionDelivery where
  last : Dict String ConditionTuple
  fleetSink : Bool
  inboxSink : Bool
  cliSink : Bool
  logStore : Bool

/-- A call of `deliver`, and the sinks that raise in it. -/
structure Call where
  terminalId : String
  cond : Option Condition
  epoch : Int
  fleetRaises : Bool := false
  inboxRaises : Bool := false
  cliRaises : Bool := false

structure Seam where
  delivery : ConditionDelivery
  ledger : ConditionLedger
  heard : Heard

namespace Seam

/-- SOURCE: providers/condition.py:1496-1502 -/
def setFleet (s : Seam) (c : Call) (label : Option String) : Seam :=
  if !s.delivery.fleetSink || c.fleetRaises then s
  else { s with heard := { s.heard with fleet := s.heard.fleet ++ [(c.terminalId, label)] } }

/-- Without a sink the push is a modelled one.
SOURCE: providers/condition.py:1504-1511 -/
def pushInbox (s : Seam) (c : Call) (cond : Condition) : Seam × Nat :=
  if !s.delivery.inboxSink then (s, 1)
  else if c.inboxRaises then (s, 0)
  else
    ({ s with heard := { s.heard with inbox := s.heard.inbox ++ [(c.terminalId, cond)] } }, 1)

/-- SOURCE: providers/condition.py:1513-1519 -/
def projectCli (s : Seam) (c : Call) (cond : Condition) (label : String) : Seam :=
  if !s.delivery.cliSink || c.cliRaises then s
  else { s with heard := { s.heard with cli := s.heard.cli ++ [(c.terminalId, cond, label)] } }

/-- SOURCE: providers/condition.py:1468-1494 -/
def record (s : Seam) (terminalId : String) (decision : ConditionDecision)
    (kind subtype : Option String) (epoch : Option Int)
    (surfaces suppressedReason : Option String) : Seam :=
  if !s.delivery.logStore then s
  else
    { s with
      ledger := recordConditionDecision s.ledger terminalId decision kind subtype epoch surfaces
        suppressedReason none }

/-- SOURCE: providers/condition.py:1403-1414 -/
def isDuplicate (s : Seam) (terminalId : String) (key : ConditionTuple) : Bool :=
  if s.delivery.logStore then
    suppressConditionByLog s.ledger terminalId key.kind key.subtype key.epoch
  else decide (s.delivery.last.find terminalId = some key)

def remember (s : Seam) (terminalId : String) (key : ConditionTuple) : Seam :=
  { s with delivery := { s.delivery with last := s.delivery.last.assign terminalId key } }

def forget (s : Seam) (terminalId : String) : Seam :=
  { s with delivery := { s.delivery with last := s.delivery.last.pop terminalId } }

/-- SOURCE: providers/condition.py:1343-1401 -/
def deliver (s : Seam) (c : Call) : Seam × DeliveryResult :=
  match c.cond with
  | none =>
    (((s.setFleet c none).forget c.terminalId).record c.terminalId .cleared none none none none
        none,
      ⟨false, none, 0, "no_condition"⟩)
  | some cond =>
    if !shouldDeliver cond then
      (s.record c.terminalId .gated cond.kind.value cond.subtype c.epoch none none,
        ⟨false, none, 0, "confidence_below_gate"⟩)
    else
      let label := fleetLabel cond
      let key : ConditionTuple := ⟨cond.kind.value, cond.subtype, c.epoch⟩
      if s.isDuplicate c.terminalId key then
        ((s.setFleet c label).record c.terminalId .deduped key.kind key.subtype key.epoch none
            (some "dedup_epoch"),
          ⟨false, label, 0, "deduped_same_epoch"⟩)
      else
        let s := (s.remember c.terminalId key).setFleet c label
        let declined := inboxDeclined key.kind key.subtype
        let (s, pushes) := if declined then (s, 0) else s.pushInbox c cond
        let s := s.projectCli c cond label
        (s.record c.terminalId .delivered key.kind key.subtype key.epoch
            (some (surfacesStr key.kind key.subtype))
            (if declined then some "busy_class" else none),
          ⟨true, label, pushes, "delivered"⟩)

/-- A fresh `ConditionDelivery` with the same sinks and the same log. -/
def restart (s : Seam) : Seam := { s with delivery := { s.delivery with last := Table.empty } }

end Seam

end CliAgentOrchestrator.Ledger
