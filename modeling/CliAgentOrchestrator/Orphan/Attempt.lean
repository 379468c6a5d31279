import CliAgentOrchestrator.Library.RelyGuarantee
import CliAgentOrchestrator.Orphan.EmptyScan
import CliAgentOrchestrator.Orphan.Jobs
import Mathlib.Algebra.Order.Ring.Rat

/-!
# One reconciliation attempt

`run_reconciliation_attempt_sync` of `services/orphan_reconcile_service.py`: the tombstone barrier,
the scans, TERM, the grace period, KILL and the rounds behind it. Every query, scan, reading of the
clock and call on a process is an operation of its own (`AttemptOp`), between which the rest of the
world moves on. The clock of a `World` is in seconds; its log is what the attempt did so far.

The loop of the grace period reads the clock; fuel bounds it, and `running` stands for an attempt
that has not returned.
-/

set_option autoImplicit false

namespace CliAgentOrchestrator.Orphan

open Library

/-! ## Operations -/

/-- Where in the attempt a scan is made. -/
inductive ScanSite
  | first
  | second
  | grace
  | kill
  | round
  | confirm
  | final
deriving DecidableEq

inductive Signal
  | term
  | kill

/-- The row of `record_degenerate`, as far as the job fills it in. -/
structure DegenerateRow where
  incarnationId : String
  terminalId : String
  terminalGeneration : Nat
  sessionName : String

/-- What becomes of the insert of a tombstone. -/
inductive InsertResult
  | created
  | alreadyExisted
  | failed (error : String)

/-- The parent links that a walk up from the server reads; they lead to the top. -/
structure ParentWalk where
  serverPid : Int
  read : Nat → Int → Option Text
  steps : Nat
  ends : ∀ pid, (ancestorFrom read pid steps 0 serverPid).isSome = true

/-- SOURCE: services/orphan_reconcile_service.py:315-335 -/
def ParentWalk.isServerOrAncestor (walk : ParentWalk) (pid : Int) : Bool :=
  if pid = walk.serverPid then true
  else (ancestorFrom walk.read pid walk.steps 0 walk.serverPid).get (walk.ends pid)

/-- `ESRCH` says that the process is gone. -/
inductive SendResult
  | sent
  | noProcess
  | failed

inductive AttemptOp
  | readBootId
  | requireTombstone
  | findIncarnation
  | findSession (terminalId : String)
  | insertTombstone (row : DegenerateRow)
  | commit
  | sleep
  | monotonic
  | scan (site : ScanSite)
  | parentWalk
  | pidfdOpen (pid : Nat)
  | readStat (pid : Nat)
  | readStatus (pid : Nat)
  | pidfdSend (pid : Nat) (sig : Signal)
  | close (pid : Nat)

namespace AttemptOp

/-- An error is the type of the exception. -/
abbrev Answer : AttemptOp → Type
  | readBootId => Option Text
  | requireTombstone => Except String Bool
  | findIncarnation => Except String (Option (String × Nat))
  | findSession _ => Except String (Option String)
  | insertTombstone _ => InsertResult
  | commit => Except String Unit
  | sleep => Unit
  | monotonic => ℚ
  | scan _ => ProcScanResult
  | parentWalk => ParentWalk
  | pidfdOpen _ => Bool
  | readStat _ => Option Text
  | readStatus _ => Option Text
  | pidfdSend _ _ => SendResult
  | close _ => Unit

end AttemptOp

/-! ## The world -/

/-- What an attempt did that is asked for later. -/
inductive AttemptEvent
  | scanned (site : ScanSite) (result : ProcScanResult)
  | opened (pid : Nat)
  | stat (pid : Nat) (content : Option Text)
  | status (pid : Nat) (content : Option Text)
  | sent (pid : Nat) (sig : Signal)

/-- The clock, the tombstones by their incarnation, the one that the attempt has not committed, and
what the operations would answer now; a fault is the exception that the next statement raises. -/
structure World where
  now : ℚ
  tombstones : List String
  pending : Option String
  bootId : Option Text
  fault : Option String
  incarnation : Option (String × Nat)
  session : Option String
  scanned : ProcScanResult
  walk : ParentWalk
  openable : Bool
  stat : Option Text
  status : Option Text
  sending : SendResult
  log : List AttemptEvent

/-- SOURCE: services/orphan_reconcile_service.py:30 -/
def rescanInterval : ℚ := 1 / 4

def World.note (s : World) (e : AttemptEvent) : World := { s with log := s.log ++ [e] }

/-- The incarnation of a tombstone is unique; an insert that would repeat it is rolled back. A
sleep lasts for the interval at least.

SOURCE: services/pane_tombstone_service.py:442-474 -/
def AttemptOp.exec (tokenHash : String) : ∀ op : AttemptOp, World → op.Answer × World
  | readBootId, s => (s.bootId, s)
  | requireTombstone, s =>
    (match s.fault with
      | some error => .error error
      | none => .ok (decide (tokenHash ∈ s.tombstones)), s)
  | findIncarnation, s =>
    (match s.fault with
      | some error => .error error
      | none => .ok s.incarnation, s)
  | findSession _, s =>
    (match s.fault with
      | some error => .error error
      | none => .ok s.session, s)
  | insertTombstone row, s =>
    match s.fault with
    | some error => (.failed error, { s with pending := none })
    | none =>
      if row.incarnationId ∈ s.tombstones then (.alreadyExisted, { s with pending := none })
      else (.created, { s with pending := some row.incarnationId })
  | commit, s =>
    match s.fault with
    | some error => (.error error, { s with pending := none })
    | none => (.ok (), { s with tombstones := s.pending.toList ++ s.tombstones, pending := none })
  | sleep, s => ((), { s with now := s.now + rescanInterval })
  | monotonic, s => (s.now, s)
  | scan site, s => (s.scanned, s.note (.scanned site s.scanned))
  | parentWalk, s => (s.walk, s)
  | pidfdOpen pid, s => (s.openable, if s.openable then s.note (.opened pid) else s)
  | readStat pid, s => (s.stat, s.note (.stat pid s.stat))
  | readStatus pid, s => (s.status, s.note (.status pid s.status))
  | pidfdSend pid sig, s => (s.sending, s.note (.sent pid sig))
  | close _, s => ((), s)

abbrev Attempt (α : Type) := Program AttemptOp AttemptOp.Answer α

def readBootId : Attempt (Option Text) := Program.call AttemptOp.readBootId

def requireTombstone : Attempt (Except String Bool) := Program.call AttemptOp.requireTombstone

def findIncarnation : Attempt (Except String (Option (String × Nat))) :=
  Program.call AttemptOp.findIncarnation

def findSession (terminalId : String) : Attempt (Except String (Option String)) :=
  Program.call (AttemptOp.findSession terminalId)

def insertTombstone (row : DegenerateRow) : Attempt InsertResult :=
  Program.call (AttemptOp.insertTombstone row)

def commit : Attempt (Except String Unit) := Program.call AttemptOp.commit

def sleepInterval : Attempt Unit := Program.call AttemptOp.sleep

def monotonic : Attempt ℚ := Program.call AttemptOp.monotonic

def scanAt (site : ScanSite) : Attempt ProcScanResult := Program.call (AttemptOp.scan site)

def parentWalk : Attempt ParentWalk := Program.call AttemptOp.parentWalk

def pidfdOpen (pid : Nat) : Attempt Bool := Program.call (AttemptOp.pidfdOpen pid)

def readStat (pid : Nat) : Attempt (Option Text) := Program.call (AttemptOp.readStat pid)

def readStatus (pid : Nat) : Attempt (Option Text) := Program.call (AttemptOp.readStatus pid)

def pidfdSend (pid : Nat) (sig : Signal) : Attempt SendResult :=
  Program.call (AttemptOp.pidfdSend pid sig)

def closePidfd (pid : Nat) : Attempt Unit := Program.call (AttemptOp.close pid)

/-! ## Signals -/

structure SignalResult where
  signaled : Nat
  failed : Nat
  safetyAborts : Nat

/-- The pid is read again behind the pidfd, and a signal goes to the process that the scan saw.

SOURCE: services/orphan_reconcile_service.py:411-442 -/
def signalOpened (sig : Signal) (ownerUid : Int) (r : SignalResult) (m : ProcTokenMatch) :
    Attempt SignalResult := do
  let stat ← readStat m.pid
  let status ← readStatus m.pid
  if readProcStartTicks stat ≠ some m.startTicks ∨ readProcUid status ≠ some ownerUid then
    pure { r with failed := r.failed + 1 }
  else
    match ← pidfdSend m.pid sig with
    | .sent => pure { r with signaled := r.signaled + 1 }
    | .noProcess => pure { r with signaled := r.signaled + 1 }
    | .failed => pure { r with failed := r.failed + 1 }

/-- SOURCE: services/orphan_reconcile_service.py:396-445 -/
def signalMatch (sig : Signal) (ownerUid : Int) (r : SignalResult) (m : ProcTokenMatch) :
    Attempt SignalResult := do
  if m.pid ∈ protectedPids then pure { r with safetyAborts := r.safetyAborts + 1 }
  else
    let walk ← parentWalk
    if walk.isServerOrAncestor m.pid then
      pure { r with safetyAborts := r.safetyAborts + 1 }
    else if ← pidfdOpen m.pid then
      let r ← signalOpened sig ownerUid r m
      closePidfd m.pid
      pure r
    else pure { r with failed := r.failed + 1 }

/-- SOURCE: services/orphan_reconcile_service.py:375-447 -/
def signalExactMatches (found : List ProcTokenMatch) (sig : Signal) (ownerUid : Int) :
    Attempt SignalResult :=
  found.foldlM (signalMatch sig ownerUid) ⟨0, 0, 0⟩

/-! ## The attempt -/

inductive AttemptCode
  | success
  | scanIncomplete
  | residual
  | tombstoneMissing
deriving DecidableEq

/-- SOURCE: services/orphan_reconcile_service.py:114-123 -/
structure ReconcileAttemptResult where
  code : AttemptCode
  completeScan : Bool
  scanned : Nat
  termSignaled : Nat
  killSignaled : Nat
  residual : Nat
  retryDelay : Option Nat
  detail : String

/-- What an attempt comes to. -/
inductive AttemptEnd
  | returned (result : ReconcileAttemptResult)
  | raised (error : String)
  | running

def succeededWith (scanned termSignaled killSignaled : Nat) (detail : String) : AttemptEnd :=
  .returned ⟨.success, true, scanned, termSignaled, killSignaled, 0, none, detail⟩

def tombstoneMissing (detail : String) : AttemptEnd :=
  .returned ⟨.tombstoneMissing, false, 0, 0, 0, 0, retryDelays[0]?, detail⟩

/-- The write of a tombstone from the job side: its result, or the exception.

SOURCE: services/orphan_reconcile_service.py:516-545 -/
def writeDegenerate (tokenHash : String) : Attempt (Except String InsertResult) := do
  match ← findIncarnation with
  | .error error => pure (.error error)
  | .ok incarnation =>
    let resolved := incarnation.getD (tokenHash, 0)
    match ← findSession resolved.1 with
    | .error error => pure (.error error)
    | .ok session =>
      let result ← insertTombstone ⟨tokenHash, resolved.1, resolved.2, session.getD "orphan"⟩
      match ← commit with
      | .error error => pure (.error error)
      | .ok () => pure (.ok result)

/-- The barrier: nothing, or what the attempt ends with.

SOURCE: services/orphan_reconcile_service.py:499-569 -/
def tombstoneBarrier (tokenHash : String) : Attempt (Option AttemptEnd) := do
  match ← requireTombstone with
  | .error error => pure (some (.raised error))
  | .ok true => pure none
  | .ok false =>
    match ← writeDegenerate tokenHash with
    | .error error => pure (some (tombstoneMissing ("tombstone_barrier_error: " ++ error)))
    | .ok (.failed _) => pure (some (tombstoneMissing "tombstone_write_failed"))
    | .ok _ => pure none

/-- SOURCE: services/orphan_reconcile_service.py:28 -/
def orphanTermGrace : ℚ := 5

/-- SOURCE: services/orphan_reconcile_service.py:38 -/
def emptyScanConfirmCount : Nat := 2

/-- SOURCE: services/orphan_reconcile_service.py:31 -/
def postKillRounds : Nat := 3

inductive GraceEnd
  | confirmed
  | expired
  | running

/-- The loop of the grace period.

SOURCE: services/orphan_reconcile_service.py:622-648 -/
def graceLoop (graceStart : ℚ) : Nat → Nat → Attempt GraceEnd
  | 0, _ => pure .running
  | fuel + 1, emptyCount => do
    let now ← monotonic
    if now - graceStart < orphanTermGrace then
      sleepInterval
      let rescan ← scanAt .grace
      if !rescan.complete then graceLoop graceStart fuel emptyCount
      else if rescan.found.isEmpty then
        if emptyScanConfirmCount ≤ emptyCount + 1 then pure .confirmed
        else graceLoop graceStart fuel (emptyCount + 1)
      else graceLoop graceStart fuel 0
    else pure .expired

/-- The rounds behind the KILL: whether two scans confirmed, and how many signals were sent.

SOURCE: services/orphan_reconcile_service.py:657-684 -/
def killRounds (ownerUid : Int) : Nat → Nat → Attempt (Bool × Nat)
  | 0, killSignaled => pure (false, killSignaled)
  | rounds + 1, killSignaled => do
    sleepInterval
    let postScan ← scanAt .round
    if !postScan.complete then killRounds ownerUid rounds killSignaled
    else if !postScan.found.isEmpty then
      let extraKill ← signalExactMatches postScan.found .kill ownerUid
      killRounds ownerUid rounds (killSignaled + extraKill.signaled)
    else
      sleepInterval
      let confirmScan ← scanAt .confirm
      if confirmScan.complete && confirmScan.found.isEmpty then pure (true, killSignaled)
      else killRounds ownerUid rounds killSignaled

/-- Step 7.

SOURCE: services/orphan_reconcile_service.py:686-703 -/
def finalCheck (totalScanned termSignaled killSignaled : Nat) : Attempt AttemptEnd := do
  let finalScan ← scanAt .final
  if finalScan.complete && finalScan.found.isEmpty then
    pure (succeededWith totalScanned termSignaled killSignaled "kill_required_final")
  else
    let residual : Int := if finalScan.complete then finalScan.found.length else -1
    pure (.returned ⟨if finalScan.complete then .residual else .scanIncomplete,
      finalScan.complete, totalScanned, termSignaled, killSignaled, residual.toNat,
      retryDelays[0]?, s!"residual_after_kill_rounds={residual}"⟩)

/-- Steps 2 to 7, for the matches of the scan just made.

SOURCE: services/orphan_reconcile_service.py:613-703 -/
def termAndKill (fuel : Nat) (ownerUid : Int) (scan : ProcScanResult) : Attempt AttemptEnd := do
  let totalScanned := scan.found.length
  let termResult ← signalExactMatches scan.found .term ownerUid
  let graceStart ← monotonic
  match ← graceLoop graceStart fuel 0 with
  | .running => pure .running
  | .confirmed => pure (succeededWith totalScanned termResult.signaled 0 "term_sufficient")
  | .expired =>
    let killScan ← scanAt .kill
    let killResult ← signalExactMatches killScan.found .kill ownerUid
    let (confirmed, killSignaled) ← killRounds ownerUid postKillRounds killResult.signaled
    if confirmed then
      pure (succeededWith totalScanned termResult.signaled killSignaled "kill_required")
    else finalCheck totalScanned termResult.signaled killSignaled

/-- Behind the barrier.

SOURCE: services/orphan_reconcile_service.py:571-703 -/
def scanAndSignal (fuel : Nat) (ownerUid : Int) : Attempt AttemptEnd := do
  let scan ← scanAt .first
  if !scan.complete && scan.found.isEmpty then
    pure (.returned ⟨.scanIncomplete, false, scan.found.length, 0, 0, scan.found.length,
      retryDelays[0]?, "; ".intercalate (scan.errors.take 3)⟩)
  else if scan.complete && scan.found.isEmpty then
    -- two consecutive complete empty scans
    sleepInterval
    let scan2 ← scanAt .second
    if !scan2.complete then
      pure (.returned ⟨.scanIncomplete, false, 0, 0, 0, 0, retryDelays[0]?,
        "second_scan_incomplete"⟩)
    else if scan2.found.isEmpty then pure (succeededWith 0 0 0 "already_clean")
    else termAndKill fuel ownerUid scan2
  else termAndKill fuel ownerUid scan

/-- SOURCE: services/orphan_reconcile_service.py:455-703 -/
def runReconciliationAttempt (fuel : Nat) (ownerUid : Int) (tokenHash : String)
    (issuanceBootId : Option Text) : Attempt AttemptEnd := do
  let bootChanged ← match issuanceBootId with
    | none => pure false
    | some issued => do
      let currentBoot ← readBootId
      pure (currentBoot.any (· != issued))
  if bootChanged then pure (succeededWith 0 0 0 "boot_changed")
  else
    match ← tombstoneBarrier tokenHash with
    | some ended => pure ended
    | none => scanAndSignal fuel ownerUid

end CliAgentOrchestrator.Orphan
