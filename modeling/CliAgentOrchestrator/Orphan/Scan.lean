import CliAgentOrchestrator.Library.Text

/-!
# The token scan over /proc

`services/orphan_reconcile_service.py`, from the reading of one file of `/proc` up to
`scan_incarnation_processes`. Processes come, go and are re-parented while the scan runs, so
every read made for an entry has an answer of its own (`Look`). Bytes and code points are
numbers. A walk up the parent links may not end; the fuel bounds it, and `none` stands for a
call that has not returned.
-/

set_option autoImplicit false

namespace CliAgentOrchestrator.Orphan

open Library

/-! ## Reading /proc -/

/-- The digits of `int()`: `seen` says that the last character was a digit. -/
def readDigits (value : Nat) (seen : Bool) : Text → Option Nat
  | [] => if seen then some value else none
  | c :: rest =>
    match decimal c with
    | some d => readDigits (value * 10 + d) true rest
    | none => if c == 95 && seen then readDigits value false rest else none

/-- `int(text)`. -/
def readInt (t : Text) : Option Int :=
  match strip t with
  | 45 :: digits => (readDigits 0 false digits).map fun n => -(n : Int)
  | 43 :: digits => (readDigits 0 false digits).map Int.ofNat
  | digits => (readDigits 0 false digits).map Int.ofNat

/-- The fields of a stat file behind the command name, which may hold blanks and brackets; `none`
for a file that cannot be read.
SOURCE: services/orphan_reconcile_service.py:160-166 -/
def statFields (stat : Option Text) : Option (List Text) :=
  stat.bind fun t =>
    if 41 ∈ t then some (words ((t.rtakeWhile (· != 41)).drop 1)) else none

/-- SOURCE: services/orphan_reconcile_service.py:157-173 -/
def readProcStartTicks (stat : Option Text) : Option Int :=
  (statFields stat).bind fun fields => fields[19]?.bind readInt

/-- SOURCE: services/orphan_reconcile_service.py:325-329 -/
def readPpid (stat : Option Text) : Option Int :=
  (statFields stat).bind fun fields => fields[1]?.bind readInt

/-- SOURCE: services/orphan_reconcile_service.py:179-183 -/
def uidOfLines : List Text → Option Int
  | [] => none
  | line :: rest =>
    if (text "Uid:").isPrefixOf line then
      match (words line)[1]? with
      | some field => readInt field
      | none => uidOfLines rest
    else uidOfLines rest

/-- SOURCE: services/orphan_reconcile_service.py:176-186 -/
def readProcUid (status : Option Text) : Option Int :=
  status.bind fun t => uidOfLines ((universalNewlines t).splitOn 10)

/-! ## What the scan is given -/

inductive EnvironRead
  | data (bytes : List Nat)
  | permissionError
  | osError

/-- What the reads made for one entry answer: its environ, its status and its stat, and the stat
of a pid at the n-th step of the walk up from the server and of the walk up from the entry. A
text file that cannot be read or decoded is `none`. -/
structure Look where
  environ : EnvironRead
  status : Option Text
  stat : Option Text
  ancestry : Nat → Int → Option Text
  descent : Nat → Int → Option Text

/-- An entry of `/proc`. -/
inductive ProcName
  | process (pid : Nat)
  | other

/-- The process table as one scan gets to see it, and the arguments of the scan. -/
structure ScanInput where
  token : List Nat
  ownerUid : Int
  issuanceTicks : Option Int
  issuanceBootId : Option Text
  serverPid : Int
  currentBootId : Option Text
  listing : Except String (List ProcName)
  look : Nat → Look

/-- SOURCE: services/orphan_reconcile_service.py:52 -/
def protectedPids : List Nat := [0, 1]

/-- SOURCE: services/orphan_reconcile_service.py:203 -/
def ScanInput.target (w : ScanInput) : List Nat := text "CAO_PROCESS_INCARNATION=" ++ w.token

/-! ## Ancestry -/

/-- The loop of `_is_server_or_ancestor`.
SOURCE: services/orphan_reconcile_service.py:321-334 -/
def ancestorFrom (ancestry : Nat → Int → Option Text) (pid : Int) :
    Nat → Nat → Int → Option Bool
  | 0, _, _ => none
  | fuel + 1, n, current =>
    if 1 < current then
      match readPpid (ancestry n current) with
      | none => some false
      | some ppid =>
        if ppid = pid then some true else ancestorFrom ancestry pid fuel (n + 1) ppid
    else some false

/-- SOURCE: services/orphan_reconcile_service.py:315-335 -/
def isServerOrAncestor (w : ScanInput) (fuel : Nat) (l : Look) (pid : Int) : Option Bool :=
  if pid = w.serverPid then some true else ancestorFrom l.ancestry pid fuel 0 w.serverPid

/-- The loop of `_is_descendant_of_server`.
SOURCE: services/orphan_reconcile_service.py:353-372 -/
def descendantFrom (descent : Nat → Int → Option Text) (serverPid : Int) :
    Nat → Nat → List Int → Int → Option Bool
  | 0, _, _, _ => none
  | fuel + 1, n, visited, current =>
    if 1 < current then
      if current ∈ visited then some true
      else
        match readPpid (descent n current) with
        | none => some true
        | some ppid =>
          if ppid = serverPid then some true
          else descendantFrom descent serverPid fuel (n + 1) (current :: visited) ppid
    else some false

/-- SOURCE: services/orphan_reconcile_service.py:338-372 -/
def isDescendantOfServer (w : ScanInput) (fuel : Nat) (l : Look) (pid : Int) : Option Bool :=
  if pid = w.serverPid then some false
  else descendantFrom l.descent w.serverPid fuel 0 [] pid

/-! ## The scan -/

structure ProcTokenMatch where
  pid : Nat
  startTicks : Int
  uid : Int
deriving DecidableEq

structure ProcScanResult where
  found : List ProcTokenMatch
  complete : Bool
  errors : List String
deriving DecidableEq

/-- Nothing is kept of the entry. -/
def ProcScanResult.skip (r : ProcScanResult) : ProcScanResult := r

/-- The entry is annotated, and the scan stays complete. -/
def ProcScanResult.annotate (r : ProcScanResult) (error : String) : ProcScanResult :=
  { r with errors := r.errors ++ [error] }

/-- The scan fails closed on the entry. -/
def ProcScanResult.failClosed (r : ProcScanResult) (error : String) : ProcScanResult :=
  { r with complete := false, errors := r.errors ++ [error] }

/-- The pre-issuance fence: the process is known to be older than the token.
SOURCE: services/orphan_reconcile_service.py:248-264 -/
def predatesIssuance (w : ScanInput) (l : Look) : Bool :=
  match w.issuanceBootId, w.currentBootId with
  | some issued, some current =>
    current == issued &&
      match readProcStartTicks l.stat, w.issuanceTicks with
      | some started, some ticks => decide (started < ticks)
      | _, _ => false
  | _, _ => false

/-- An entry whose environ may not be read.
SOURCE: services/orphan_reconcile_service.py:223-282 -/
def refused (w : ScanInput) (fuel : Nat) (r : ProcScanResult) (pid : Nat) (l : Look) :
    Option ProcScanResult :=
  match readProcUid l.status with
  | none => some (r.failClosed s!"permission_denied_uid_unknown:pid={pid}")
  | some procUid =>
    if procUid ≠ w.ownerUid then some r.skip
    else
      match isServerOrAncestor w fuel l pid with
      | none => none
      | some true => some (r.annotate s!"permission_denied_server_ancestor:pid={pid}")
      | some false =>
        if predatesIssuance w l then some (r.annotate s!"predates_issuance:pid={pid}")
        else
          match isDescendantOfServer w fuel l pid with
          | none => none
          | some false => some (r.annotate s!"not_server_descendant:pid={pid}")
          | some true => some (r.failClosed s!"permission_denied_same_uid:pid={pid}")

/-- An entry whose environ was read.
SOURCE: services/orphan_reconcile_service.py:287-299 -/
def readable (w : ScanInput) (r : ProcScanResult) (pid : Nat) (l : Look) (bytes : List Nat) :
    ProcScanResult :=
  if w.target ∈ bytes.splitOn 0 then
    if readProcUid l.status ≠ some w.ownerUid then r.skip
    else
      match readProcStartTicks l.stat with
      | none => r.annotate s!"no_start_ticks:pid={pid}"
      | some startTicks => { r with found := r.found ++ [⟨pid, startTicks, w.ownerUid⟩] }
  else r.skip

/-- The body of the loop.
SOURCE: services/orphan_reconcile_service.py:213-299 -/
def scanEntry (w : ScanInput) (fuel : Nat) (r : ProcScanResult) : ProcName → Option ProcScanResult
  | .other => some r.skip
  | .process pid =>
    if pid ∈ protectedPids then some r.skip
    else
      match (w.look pid).environ with
      | .permissionError => refused w fuel r pid (w.look pid)
      | .osError => some r.skip
      | .data bytes => some (readable w r pid (w.look pid) bytes)

/-- The loop over the entries. -/
def scanEntries (w : ScanInput) (fuel : Nat) :
    ProcScanResult → List ProcName → Option ProcScanResult
  | r, [] => some r
  | r, name :: rest => (scanEntry w fuel r name).bind fun r => scanEntries w fuel r rest

/-- SOURCE: services/orphan_reconcile_service.py:189-301 -/
def scanIncarnationProcesses (w : ScanInput) (fuel : Nat) : Option ProcScanResult :=
  match w.listing with
  | .error e => some ⟨[], false, ["procfs_unavailable: " ++ e]⟩
  | .ok names => scanEntries w fuel ⟨[], true, []⟩ names

end CliAgentOrchestrator.Orphan
