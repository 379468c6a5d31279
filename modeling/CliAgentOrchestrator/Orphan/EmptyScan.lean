import CliAgentOrchestrator.Orphan.Scan

/-!
# What an empty scan says

A scan that is complete and found nothing passed over every entry. For most entries that is
right; what is decided here is which processes of the incarnation it passes over too. A process
keeps its environment when its parent changes, so one that was re-parented carries the token
outside the tree of the server, and the exemption of what is outside that tree drops it.
-/

set_option autoImplicit false

namespace CliAgentOrchestrator.Orphan

open Library

/-! ## The processes -/

/-- A process, as far as the scan is concerned. The entries of an environment are C strings. -/
structure Process where
  uid : Int
  startTicks : Int
  environment : List (List Nat)
  unbroken : ∀ entry ∈ environment, 0 ∉ entry

/-- The environ file of a process. -/
def Process.environ (p : Process) : List Nat := p.environment.flatMap (· ++ [0])

/-- The reads made for `pid` were made of `p`: any of them may fail, and what one shows is so. -/
structure Shows (w : ScanInput) (pid : Nat) (p : Process) : Prop where
  listed : ∀ names, w.listing = .ok names → .process pid ∈ names
  environ : ∀ bytes, (w.look pid).environ = .data bytes → bytes = p.environ
  uid : ∀ u, readProcUid (w.look pid).status = some u → u = p.uid
  startTicks : ∀ n, readProcStartTicks (w.look pid).stat = some n → n = p.startTicks

/-- The processes that are alive throughout a scan. -/
structure Alive (w : ScanInput) where
  process : Nat → Option Process
  shows : ∀ pid p, process pid = some p → Shows w pid p

/-- The parent links read upwards from `current` come to `pid`. -/
inductive Above (ancestry : Nat → Int → Option Text) (pid : Int) : Nat → Int → Prop
  | parent {n : Nat} {current : Int} (h : 1 < current)
      (hread : readPpid (ancestry n current) = some pid) : Above ancestry pid n current
  | up {n : Nat} {current ppid : Int} (h : 1 < current)
      (hread : readPpid (ancestry n current) = some ppid)
      (hrest : Above ancestry pid (n + 1) ppid) : Above ancestry pid n current

/-- The parent links read upwards from `current` end above the tree of the server: none is missing,
none leads to the server and none leads back. -/
inductive LeavesTree (descent : Nat → Int → Option Text) (serverPid : Int) :
    Nat → List Int → Int → Prop
  | top {n : Nat} {visited : List Int} {current : Int} (h : current ≤ 1) :
      LeavesTree descent serverPid n visited current
  | up {n : Nat} {visited : List Int} {current ppid : Int} (h : 1 < current)
      (hnew : current ∉ visited) (hread : readPpid (descent n current) = some ppid)
      (hserver : ppid ≠ serverPid)
      (hrest : LeavesTree descent serverPid (n + 1) (current :: visited) ppid) :
      LeavesTree descent serverPid n visited current

/-- The process is older than the incarnation. -/
def StartedBefore (w : ScanInput) (p : Process) : Prop :=
  (∃ boot, w.issuanceBootId = some boot ∧ w.currentBootId = some boot) ∧
    ∃ ticks, w.issuanceTicks = some ticks ∧ p.startTicks < ticks

/-- A process of the incarnation that must not go unnoticed. -/
structure Stray (w : ScanInput) (pid : Nat) (p : Process) : Prop where
  owner : p.uid = w.ownerUid
  issued : ¬ StartedBefore w p
  token : w.target ∈ p.environment
  unprotected : pid ∉ protectedPids
  notServer : (pid : Int) ≠ w.serverPid
  notAbove : ¬ Above (w.look pid).ancestry pid 0 w.serverPid

/-! ## What becomes of an entry -/

/-- The scan reports the entry: it is a match, or the scan is not complete for its sake. -/
inductive Reported (w : ScanInput) (pid : Nat) : Prop
  | found {bytes : List Nat} (hpid : pid ∉ protectedPids)
      (henviron : (w.look pid).environ = .data bytes) (htoken : w.target ∈ bytes.splitOn 0)
      (huid : readProcUid (w.look pid).status = some w.ownerUid)
      (hticks : readProcStartTicks (w.look pid).stat ≠ none)
  | uidUnknown (hpid : pid ∉ protectedPids)
      (henviron : (w.look pid).environ = .permissionError)
      (huid : readProcUid (w.look pid).status = none)
  | unreadable (hpid : pid ∉ protectedPids)
      (henviron : (w.look pid).environ = .permissionError)
      (huid : readProcUid (w.look pid).status = some w.ownerUid)
      (hserver : (pid : Int) ≠ w.serverPid)
      (habove : ¬ Above (w.look pid).ancestry pid 0 w.serverPid)
      (hissued : predatesIssuance w (w.look pid) = false)
      (htree : ¬ LeavesTree (w.look pid).descent w.serverPid 0 [] pid)

/-- What the scan passes over although the token may be there: an environ that fails to be read
otherwise than by a refusal, one that was read where the owner or the start of the process was
not, and a refused one of a process whose parent links end above the tree of the server. -/
inductive Dropped (w : ScanInput) (pid : Nat) : Prop
  | unread (henviron : (w.look pid).environ = .osError)
  | noUid {bytes : List Nat} (henviron : (w.look pid).environ = .data bytes)
      (huid : readProcUid (w.look pid).status = none)
  | noStartTicks {bytes : List Nat} (henviron : (w.look pid).environ = .data bytes)
      (hticks : readProcStartTicks (w.look pid).stat = none)
  | reparented (henviron : (w.look pid).environ = .permissionError)
      (huid : readProcUid (w.look pid).status ≠ none)
      (htree : LeavesTree (w.look pid).descent w.serverPid 0 [] pid)

variable {w : ScanInput} {fuel : Nat}

/-! ## The walks -/

theorem ancestorFrom_eq_some {ancestry : Nat → Int → Option Text} {pid current : Int} {n : Nat}
    {b : Bool} (h : ancestorFrom ancestry pid fuel n current = some b) :
    b = true ↔ Above ancestry pid n current := by
  induction fuel generalizing n current with
  | zero => cases h
  | succ fuel ih =>
    unfold ancestorFrom at h
    split at h
    · next hup =>
      split at h
      · next hread =>
        cases h
        refine ⟨fun hb => (Bool.false_ne_true hb).elim, fun habove => ?_⟩
        cases habove with
        | parent _ hread' | up _ hread' => rw [hread] at hread'; cases hread'
      · next ppid hread =>
        split at h
        · next hppid =>
          subst hppid
          cases h
          exact iff_of_true rfl (.parent hup hread)
        · next hppid =>
          rw [ih h]
          refine ⟨.up hup hread, fun habove => ?_⟩
          cases habove with
          | parent _ hread' => exact (hppid (Option.some.inj (hread.symm.trans hread'))).elim
          | up _ hread' hrest =>
            cases hread.symm.trans hread'
            exact hrest
    · next hup =>
      cases h
      refine ⟨fun hb => (Bool.false_ne_true hb).elim, fun habove => ?_⟩
      cases habove with
      | parent h' | up h' => exact (hup h').elim

theorem isServerOrAncestor_eq_some {l : Look} {pid : Int} {b : Bool}
    (h : isServerOrAncestor w fuel l pid = some b) :
    b = true ↔ pid = w.serverPid ∨ Above l.ancestry pid 0 w.serverPid := by
  unfold isServerOrAncestor at h
  split at h
  · next hserver =>
    cases h
    exact iff_of_true rfl (.inl hserver)
  · next hserver =>
    rw [ancestorFrom_eq_some h]
    exact (or_iff_right hserver).symm

/-- The walk to the server says no exactly where it leaves the tree. -/
theorem descendantFrom_eq_some {descent : Nat → Int → Option Text} {serverPid current : Int}
    {n : Nat} {visited : List Int} {b : Bool}
    (h : descendantFrom descent serverPid fuel n visited current = some b) :
    b = false ↔ LeavesTree descent serverPid n visited current := by
  induction fuel generalizing n visited current with
  | zero => cases h
  | succ fuel ih =>
    unfold descendantFrom at h
    split at h
    · next hup =>
      -- inside the tree, in doubt: a link that is missing, leads back or leads to the server
      have hstays (hno : ¬ LeavesTree descent serverPid n visited current) (hb : b = true) :
          b = false ↔ LeavesTree descent serverPid n visited current :=
        iff_of_false (by simp [hb]) hno
      split at h
      · next hseen =>
        refine hstays (fun hleaves => ?_) (Option.some.inj h).symm
        cases hleaves with
        | top h' => omega
        | up _ hnew _ _ _ => exact hnew hseen
      · next hseen =>
        split at h
        · next hread =>
          refine hstays (fun hleaves => ?_) (Option.some.inj h).symm
          cases hleaves with
          | top h' => omega
          | up _ _ hread' _ _ => rw [hread] at hread'; cases hread'
        · next ppid hread =>
          split at h
          · next hppid =>
            refine hstays (fun hleaves => ?_) (Option.some.inj h).symm
            cases hleaves with
            | top h' => omega
            | up _ _ hread' hserver _ =>
              exact hserver ((Option.some.inj (hread'.symm.trans hread)).trans hppid)
          · next hppid =>
            rw [ih h]
            refine ⟨.up hup hseen hread hppid, fun hleaves => ?_⟩
            cases hleaves with
            | top h' => omega
            | up _ _ hread' _ hrest =>
              cases hread.symm.trans hread'
              exact hrest
    · next hup =>
      cases h
      exact iff_of_true rfl (.top (by omega))

theorem isDescendantOfServer_eq_some {l : Look} {pid : Int} {b : Bool}
    (hserver : pid ≠ w.serverPid) (h : isDescendantOfServer w fuel l pid = some b) :
    b = false ↔ LeavesTree l.descent w.serverPid 0 [] pid := by
  rw [isDescendantOfServer, if_neg hserver] at h
  exact descendantFrom_eq_some h

/-! ## The scan -/

/-- So far the scan says that there is nothing. -/
def Clean (r : ProcScanResult) : Prop := r.complete = true ∧ r.found = []

/-- A process in `/proc` that the scan reports. -/
def ReportedName (w : ScanInput) : ProcName → Prop
  | .process pid => Reported w pid
  | .other => False

theorem clean_annotate (r : ProcScanResult) (error : String) : Clean (r.annotate error) ↔ Clean r :=
  Iff.rfl

theorem not_clean_failClosed (r : ProcScanResult) (error : String) :
    ¬ Clean (r.failClosed error) :=
  fun h => Bool.false_ne_true h.1

theorem not_clean_found {r : ProcScanResult} {m : ProcTokenMatch} :
    ¬ Clean { r with found := r.found ++ [m] } :=
  fun h => List.append_ne_nil_of_right_ne_nil _ (List.cons_ne_nil _ _) h.2

/-- An environ that was read is reported as a match or not at all. -/
theorem reported_data_iff {pid : Nat} {bytes : List Nat}
    (henviron : (w.look pid).environ = .data bytes) :
    Reported w pid ↔ pid ∉ protectedPids ∧ w.target ∈ bytes.splitOn 0 ∧
      readProcUid (w.look pid).status = some w.ownerUid ∧
      readProcStartTicks (w.look pid).stat ≠ none := by
  constructor
  · intro h
    cases h with
    | found hpid henviron' htoken huid hticks =>
      cases henviron'.symm.trans henviron
      exact ⟨hpid, htoken, huid, hticks⟩
    | uidUnknown _ henviron' | unreadable _ henviron' => rw [henviron] at henviron'; cases henviron'
  · rintro ⟨hpid, htoken, huid, hticks⟩
    exact .found hpid henviron htoken huid hticks

/-- One that may not be read is reported when its owner is not known, or is the owner of the
incarnation and nothing says that it cannot carry the token. -/
theorem reported_permissionError_iff {pid : Nat}
    (henviron : (w.look pid).environ = .permissionError) :
    Reported w pid ↔ pid ∉ protectedPids ∧
      (readProcUid (w.look pid).status = none ∨
        readProcUid (w.look pid).status = some w.ownerUid ∧ (pid : Int) ≠ w.serverPid ∧
          ¬ Above (w.look pid).ancestry pid 0 w.serverPid ∧
          predatesIssuance w (w.look pid) = false ∧
          ¬ LeavesTree (w.look pid).descent w.serverPid 0 [] pid) := by
  constructor
  · intro h
    cases h with
    | found _ henviron' => rw [henviron] at henviron'; cases henviron'
    | uidUnknown hpid _ huid => exact ⟨hpid, .inl huid⟩
    | unreadable hpid _ huid hserver habove hissued htree =>
      exact ⟨hpid, .inr ⟨huid, hserver, habove, hissued, htree⟩⟩
  · rintro ⟨hpid, huid | ⟨huid, hserver, habove, hissued, htree⟩⟩
    · exact .uidUnknown hpid henviron huid
    · exact .unreadable hpid henviron huid hserver habove hissued htree

theorem not_reported_osError {pid : Nat} (henviron : (w.look pid).environ = .osError) :
    ¬ Reported w pid := by
  intro h
  cases h with
  | found _ henviron' => rw [henviron] at henviron'; cases henviron'
  | uidUnknown _ henviron' => rw [henviron] at henviron'; cases henviron'
  | unreadable _ henviron' => rw [henviron] at henviron'; cases henviron'

theorem readable_clean {r : ProcScanResult} {pid : Nat} {bytes : List Nat}
    (hpid : pid ∉ protectedPids) (henviron : (w.look pid).environ = .data bytes) :
    Clean (readable w r pid (w.look pid) bytes) ↔ Clean r ∧ ¬ Reported w pid := by
  rw [reported_data_iff henviron]
  unfold readable
  split
  · next htoken =>
    split
    · next huid => simp [huid, ProcScanResult.skip]
    · next huid =>
      rw [not_not] at huid
      split
      · next hticks => simp [hticks, clean_annotate]
      · next startTicks hticks => simp [not_clean_found, hpid, htoken, huid, hticks]
  · next htoken => simp [htoken, ProcScanResult.skip]

theorem refused_clean {r r' : ProcScanResult} {pid : Nat} (hpid : pid ∉ protectedPids)
    (henviron : (w.look pid).environ = .permissionError)
    (h : refused w fuel r pid (w.look pid) = some r') : Clean r' ↔ Clean r ∧ ¬ Reported w pid := by
  rw [reported_permissionError_iff henviron]
  unfold refused at h
  split at h
  · next huid =>
    cases h
    simp [not_clean_failClosed, hpid, huid]
  · next procUid huid =>
    split at h
    · next howner =>
      cases h
      simp [ProcScanResult.skip, huid, howner]
    · next howner =>
      rw [not_not] at howner
      subst howner
      split at h
      · cases h
      · next habove =>
        cases h
        have hexempt := (isServerOrAncestor_eq_some habove).mp rfl
        rw [clean_annotate]
        refine (and_iff_left ?_).symm
        rintro ⟨-, hnone | ⟨-, hserver, hnotAbove, -, -⟩⟩
        · rw [huid] at hnone; cases hnone
        · exact hexempt.elim hserver hnotAbove
      · next habove =>
        have hnotAbove := mt (isServerOrAncestor_eq_some habove).mpr Bool.false_ne_true
        rw [not_or] at hnotAbove
        split at h
        · next hold =>
          cases h
          simp [clean_annotate, huid, hold]
        · next hold =>
          split at h
          · cases h
          · next hdescends =>
            cases h
            have htree := (isDescendantOfServer_eq_some hnotAbove.1 hdescends).mp rfl
            simp [clean_annotate, huid, htree]
          · next hdescends =>
            cases h
            have htree := mt (isDescendantOfServer_eq_some hnotAbove.1 hdescends).mpr (by simp)
            simp [not_clean_failClosed, hpid, huid, hnotAbove.1, hnotAbove.2, hold, htree]

theorem scanEntry_clean {r r' : ProcScanResult} {name : ProcName}
    (h : scanEntry w fuel r name = some r') : Clean r' ↔ Clean r ∧ ¬ ReportedName w name := by
  cases name with
  | other =>
    cases h
    exact (and_iff_left id).symm
  | process pid =>
    simp only [scanEntry] at h
    split at h
    · next hpid =>
      cases h
      refine (and_iff_left fun hreport => ?_).symm
      cases hreport with
      | found hpid' | uidUnknown hpid' | unreadable hpid' => exact hpid' hpid
    · next hpid =>
      split at h
      · next henviron => exact refused_clean hpid henviron h
      · next henviron =>
        cases h
        exact (and_iff_left (not_reported_osError henviron)).symm
      · next bytes henviron =>
        cases h
        exact readable_clean hpid henviron

theorem scanEntries_clean {r r' : ProcScanResult} {names : List ProcName}
    (h : scanEntries w fuel r names = some r') :
    Clean r' ↔ Clean r ∧ ∀ name ∈ names, ¬ ReportedName w name := by
  induction names generalizing r with
  | nil =>
    cases h
    simp
  | cons name rest ih =>
    obtain ⟨r₁, hentry, hrest⟩ := Option.bind_eq_some_iff.mp h
    rw [ih hrest, scanEntry_clean hentry]
    simp [and_assoc]

/-- A scan says that there is nothing exactly when it could list the processes and reports none
of them. -/
theorem scan_clean {r : ProcScanResult} (h : scanIncarnationProcesses w fuel = some r) :
    Clean r ↔ ∃ names, w.listing = .ok names ∧ ∀ pid, .process pid ∈ names → ¬ Reported w pid := by
  unfold scanIncarnationProcesses at h
  split at h
  · next e hlisting =>
    cases h
    simp [Clean, hlisting]
  · next names hlisting =>
    rw [scanEntries_clean h]
    constructor
    · rintro ⟨-, hnone⟩
      exact ⟨names, hlisting, fun pid hpid => hnone _ hpid⟩
    · rintro ⟨names', hlisting', hnone⟩
      cases hlisting.symm.trans hlisting'
      refine ⟨⟨rfl, rfl⟩, fun name hname hreport => ?_⟩
      cases name with
      | other => exact hreport
      | process pid => exact hnone pid hname hreport

/-! ## Processes of the incarnation -/

/-- Every C string of an environment is a field of its file. -/
theorem mem_splitOn_environ {p : Process} {entry : List Nat} (h : entry ∈ p.environment) :
    entry ∈ p.environ.splitOn 0 := by
  obtain ⟨_, _, environment, hunbroken⟩ := p
  unfold Process.environ
  induction environment with
  | nil => cases h
  | cons first rest ih =>
    rw [List.flatMap_cons, List.append_assoc, List.singleton_append,
      List.splitOn_append_cons_self_of_not_mem (hunbroken first (by simp))]
    obtain rfl | hrest := List.mem_cons.mp h
    · simp
    · exact List.mem_cons_of_mem _ (ih (fun e he => hunbroken e (by simp [he])) hrest)

theorem predatesIssuance_eq_false {pid : Nat} {p : Process} (hshows : Shows w pid p)
    (hissued : ¬ StartedBefore w p) : predatesIssuance w (w.look pid) = false := by
  unfold predatesIssuance
  split
  · next issued current hissuedBoot hcurrentBoot =>
    rw [Bool.and_eq_false_iff, beq_eq_false_iff_ne]
    by_cases hboot : current = issued
    · subst hboot
      refine .inr ?_
      split
      · next started ticks hstarted hticks =>
        rw [decide_eq_false_iff_not]
        intro hbefore
        rw [hshows.startTicks _ hstarted] at hbefore
        exact hissued ⟨⟨current, hissuedBoot, hcurrentBoot⟩, ticks, hticks, hbefore⟩
      · rfl
    · exact .inl hboot
  · rfl

/-- A process of the incarnation is reported or dropped, and not both. -/
theorem Stray.reported_iff {pid : Nat} {p : Process} (h : Stray w pid p)
    (hshows : Shows w pid p) : Reported w pid ↔ ¬ Dropped w pid := by
  have huid {u : Int} (hread : readProcUid (w.look pid).status = some u) : u = w.ownerUid :=
    (hshows.uid u hread).trans h.owner
  cases henviron : (w.look pid).environ with
  | data bytes =>
    have htoken : w.target ∈ bytes.splitOn 0 := by
      rw [hshows.environ bytes henviron]
      exact mem_splitOn_environ h.token
    rw [reported_data_iff henviron]
    constructor
    · rintro ⟨-, -, huidRead, hticks⟩ hdropped
      cases hdropped with
      | unread henviron' | reparented henviron' => rw [henviron] at henviron'; cases henviron'
      | noUid _ hnone => rw [huidRead] at hnone; cases hnone
      | noStartTicks _ hnone => exact hticks hnone
    · intro hkept
      refine ⟨h.unprotected, htoken, ?_, fun hnone => hkept (.noStartTicks henviron hnone)⟩
      obtain hnone | ⟨u, hread⟩ := Option.eq_none_or_eq_some (readProcUid (w.look pid).status)
      · exact (hkept (.noUid henviron hnone)).elim
      · rw [hread, huid hread]
  | permissionError =>
    rw [reported_permissionError_iff henviron]
    constructor
    · rintro ⟨-, hreport⟩ hdropped
      cases hdropped with
      | unread henviron' => rw [henviron] at henviron'; cases henviron'
      | noUid henviron' => rw [henviron] at henviron'; cases henviron'
      | noStartTicks henviron' => rw [henviron] at henviron'; cases henviron'
      | reparented _ hknown htree =>
        obtain hnone | ⟨-, -, -, -, hstays⟩ := hreport
        · exact hknown hnone
        · exact hstays htree
    · intro hkept
      refine ⟨h.unprotected, ?_⟩
      obtain hnone | ⟨u, hread⟩ := Option.eq_none_or_eq_some (readProcUid (w.look pid).status)
      · exact .inl hnone
      · refine .inr ⟨?_, h.notServer, h.notAbove, predatesIssuance_eq_false hshows h.issued,
          fun htree => hkept (.reparented henviron (by simp [hread]) htree)⟩
        rw [hread, huid hread]
  | osError =>
    exact iff_of_false (not_reported_osError henviron) fun hkept => hkept (.unread henviron)

/-- An empty scan means that no process of the incarnation is there exactly when none of those
that are is dropped, or the scan reports some other entry or has no list of them. -/
theorem empty_scan_iff (alive : Alive w) {r : ProcScanResult}
    (hscan : scanIncarnationProcesses w fuel = some r) :
    (r.complete = true → r.found = [] →
        ∀ pid p, alive.process pid = some p → ¬ Stray w pid p) ↔
      ((∃ pid p, alive.process pid = some p ∧ Stray w pid p ∧ Dropped w pid) →
        ∀ names, w.listing = .ok names → ∃ pid, .process pid ∈ names ∧ Reported w pid) := by
  have hclean := scan_clean hscan
  constructor
  · rintro hsound ⟨pid, p, hp, hstray, -⟩ names hlisting
    by_contra hnone
    have hquiet : Clean r := hclean.mpr
      ⟨names, hlisting, fun pid' hpid' hreport => hnone ⟨pid', hpid', hreport⟩⟩
    exact hsound hquiet.1 hquiet.2 pid p hp hstray
  · rintro hcond hcomplete hfound pid p hp hstray
    obtain ⟨names, hlisting, hnone⟩ := hclean.mp ⟨hcomplete, hfound⟩
    have hshows := alive.shows pid p hp
    have hdropped : Dropped w pid := by
      by_contra hkept
      exact hnone pid (hshows.listed names hlisting) ((hstray.reported_iff hshows).mpr hkept)
    obtain ⟨pid', hpid', hreport⟩ := hcond ⟨pid, p, hp, hstray, hdropped⟩ names hlisting
    exact hnone pid' hpid' hreport

/-- `ssh-agent`, started in the terminal: it went into the background, so that its parent is
`init`, and its environ may not be read. -/
def agentScan : ScanInput where
  token := text "c0ffee"
  ownerUid := 1000
  issuanceTicks := some 100
  issuanceBootId := some (text "b")
  serverPid := 5000
  currentBootId := some (text "b")
  listing := .ok [.process 5000, .process 6000]
  look pid :=
    { environ := if pid = 6000 then .permissionError else .data []
      status := some (text "Uid:\t1000\t1000\t1000\t1000")
      stat := some (text "6000 (ssh-agent) S 1 0 0 0 0 0 0 0 0 0 0 0 0 0 0 0 0 0 200 0")
      ancestry := fun _ _ => some (text "5000 (cao-server) S 1 0")
      descent := fun _ _ => some (text "6000 (ssh-agent) S 1 0") }

/-- What the scan makes of it. -/
def agentResult : ProcScanResult := ⟨[], true, ["not_server_descendant:pid=6000"]⟩

theorem agent_scanned : scanIncarnationProcesses agentScan 5 = some agentResult := by
  decide +kernel

def agent : Process where
  uid := 1000
  startTicks := 200
  environment := [text "CAO_PROCESS_INCARNATION=c0ffee"]
  unbroken := by decide +kernel

theorem agent_shows : Shows agentScan 6000 agent where
  listed := by
    rintro names hlisting
    cases hlisting
    simp
  environ bytes h := by cases h
  uid u h := by
    have hread : readProcUid (agentScan.look 6000).status = some 1000 := by decide +kernel
    exact (Option.some.inj (hread.symm.trans h)).symm
  startTicks n h := by
    have hread : readProcStartTicks (agentScan.look 6000).stat = some 200 := by decide +kernel
    exact (Option.some.inj (hread.symm.trans h)).symm

def agentAlive : Alive agentScan where
  process pid := if pid = 6000 then some agent else none
  shows pid p h := by
    split at h
    · next hpid =>
      subst hpid
      cases h
      exact agent_shows
    · cases h

theorem agent_stray : Stray agentScan 6000 agent where
  owner := rfl
  issued := by
    rintro ⟨-, ticks, hticks, hbefore⟩
    cases hticks
    exact absurd hbefore (by decide)
  token := by decide +kernel
  unprotected := by decide
  notServer := by decide
  notAbove := by
    have hinit : readPpid ((agentScan.look 6000).ancestry 0 5000) = some 1 := by decide +kernel
    intro habove
    cases habove with
    | parent _ hread => exact absurd (hinit.symm.trans hread) (by decide)
    | up _ hread hrest =>
      cases hinit.symm.trans hread
      cases hrest with
      | parent h | up h => exact absurd h (by decide)

/-- An agent that the scan drops. -/
theorem empty_scan_iff_agent :
    (agentResult.complete = true → agentResult.found = [] →
        ∀ pid p, agentAlive.process pid = some p → ¬ Stray agentScan pid p) ↔
      ((∃ pid p, agentAlive.process pid = some p ∧ Stray agentScan pid p ∧ Dropped agentScan pid) →
        ∀ names, agentScan.listing = .ok names →
          ∃ pid, .process pid ∈ names ∧ Reported agentScan pid) :=
  empty_scan_iff agentAlive agent_scanned

/-- The scan of the agent is complete and finds nothing. -/
theorem empty_scan_hides_agent :
    ¬ ∀ (w : ScanInput) (alive : Alive w) (fuel : Nat) (r : ProcScanResult),
      scanIncarnationProcesses w fuel = some r → r.complete = true → r.found = [] →
        ∀ pid p, alive.process pid = some p → ¬ Stray w pid p := by
  intro h
  exact h agentScan agentAlive 5 agentResult agent_scanned rfl rfl 6000 agent rfl agent_stray

end CliAgentOrchestrator.Orphan
