import CliAgentOrchestrator.Library.Machine
import CliAgentOrchestrator.Library.Table
import CliAgentOrchestrator.Library.Text

/-!
# Reconciliation jobs

The tables `process_incarnations` and `orphan_reconcile_jobs`, the functions of
`clients/database.py` that move their rows, and the dispatcher of
`services/orphan_reconcile_service.py`. A transaction is one step. Times are microseconds.

What a notification records about itself on the job is not read by any of them and left out. A
process that ends waits for the threads of its attempts or is killed with them, so that nothing
runs when the next one starts; a dispatcher that is cancelled leaves its threads running.
-/

set_option autoImplicit false

namespace CliAgentOrchestrator.Orphan

open Library

/-! ## The tables -/

/-- CHECK ck_incarnation_state. -/
inductive IncarnationState
  | launching
  | active
  | reconcilePending
  | reconciled
  | abandoned
deriving DecidableEq

def IncarnationState.value : IncarnationState → String
  | launching => "launching"
  | active => "active"
  | reconcilePending => "reconcile_pending"
  | reconciled => "reconciled"
  | abandoned => "abandoned"

/-- CHECK ck_reconcile_job_state. -/
inductive JobState
  | pending
  | leased
  | retryWait
  | succeeded
  | attentionRequired
deriving DecidableEq

def JobState.value : JobState → String
  | pending => "pending"
  | leased => "leased"
  | retryWait => "retry_wait"
  | succeeded => "succeeded"
  | attentionRequired => "attention_required"

structure ProcessIncarnation where
  id : String
  terminalId : String
  terminalGeneration : Int
  state : IncarnationState
  createdAt : Nat

structure OrphanReconcileJob where
  id : String
  incarnationId : String
  terminalId : String
  terminalGeneration : Int
  state : JobState
  attempt : Nat
  leaseOwner : Option String
  leaseExpiresAt : Option Nat
  nextAttemptAt : Option Nat
  source : String
  lastResultJson : Option Text
deriving DecidableEq

structure Jobs where
  incarnations : Table ProcessIncarnation.id
  jobs : Table OrphanReconcileJob.id

namespace Jobs

/-- The job of an incarnation. -/
def jobOf (db : Jobs) (incarnationId : String) : Option OrphanReconcileJob :=
  db.jobs.rows.find? fun job => job.incarnationId = incarnationId

def setIncarnation (db : Jobs) (incarnationId : String) (state : IncarnationState) : Jobs :=
  { db with
    incarnations := db.incarnations.updateKey incarnationId (fun _ => true)
      ⟨fun inc => { inc with state := state }, fun _ => rfl⟩ }

/-- The row of a job is written back; its id and its incarnation stay. -/
def setJob (db : Jobs) (jobId : String) (f : OrphanReconcileJob → OrphanReconcileJob) : Jobs :=
  { db with
    jobs := db.jobs.updateKey jobId (fun _ => true)
      ⟨fun job => { f job with id := job.id, incarnationId := job.incarnationId }, fun _ => rfl⟩ }

/-- SOURCE: clients/database.py:14812-14825 -/
def addJob (db : Jobs) (jobId : String) (inc : ProcessIncarnation) (source : String) : Jobs :=
  { db with
    jobs := db.jobs.insert
      { id := jobId, incarnationId := inc.id, terminalId := inc.terminalId
        terminalGeneration := inc.terminalGeneration, state := .pending, attempt := 0
        leaseOwner := none, leaseExpiresAt := none, nextAttemptAt := none, source := source
        lastResultJson := none } }

end Jobs

structure JobRequestResult where
  created : Bool
  jobId : Option String
  detail : Option String

structure ForceReconcileResult where
  outcome : String
  jobId : Option String
  detail : Option String

/-! ## Queueing -/

/-- `jobId` is the uuid for a new job.
SOURCE: clients/database.py:14785-14831 -/
def requestReconciliation (db : Jobs) (incarnationId source jobId : String) :
    JobRequestResult × Jobs :=
  match db.incarnations.get incarnationId with
  | none => (⟨false, none, some "incarnation_not_found"⟩, db)
  | some inc =>
    if inc.state ≠ .active ∧ inc.state ≠ .reconcilePending then
      (⟨false, none, some s!"incarnation_state={inc.state.value}"⟩, db)
    else
      match db.jobOf incarnationId with
      | some existing => (⟨false, some existing.id, some "job_already_exists"⟩, db)
      | none =>
        let db := if inc.state = .active then db.setIncarnation incarnationId .reconcilePending else db
        (⟨true, some jobId, none⟩, db.addJob jobId inc source)

/-- The states of an incarnation that a job turns into `reconcile_pending`. -/
def IncarnationState.awaits : IncarnationState → Bool
  | .active | .launching | .abandoned => true
  | _ => false

/-- SOURCE: clients/database.py:15253-15254, 15272-15273, 15288-15289 -/
def Jobs.normalize (db : Jobs) (inc : ProcessIncarnation) : Jobs :=
  if inc.state.awaits then db.setIncarnation inc.id .reconcilePending else db

/-- SOURCE: clients/database.py:15187-15311 -/
def forceReconcileIncarnation (db : Jobs) (incarnationId source jobId : String) :
    ForceReconcileResult × Jobs :=
  match db.incarnations.get incarnationId with
  | none => (⟨"non_durable_missing", none, some "incarnation_not_found"⟩, db)
  | some inc =>
    if inc.state = .reconciled then
      match db.jobOf incarnationId with
      | some existing =>
        if existing.state = .succeeded then
          (⟨"reconciled_proven", some existing.id, some "reconciled_with_succeeded_job"⟩, db)
        else (⟨"non_durable_invariant", none, some "reconciled_without_succeeded_job"⟩, db)
      | none => (⟨"non_durable_invariant", none, some "reconciled_without_succeeded_job"⟩, db)
    else
      match db.jobOf incarnationId with
      | none => (⟨"created", some jobId, none⟩, (db.normalize inc).addJob jobId inc source)
      | some existing =>
        match existing.state with
        | .succeeded =>
          (⟨"reconciled_proven", some existing.id, some "repaired_from_succeeded_job"⟩,
            db.setIncarnation incarnationId .reconciled)
        | .attentionRequired =>
          (⟨"created", some existing.id, some "reset_from_attention_required"⟩,
            (db.setJob existing.id fun job =>
              { job with
                state := .pending, attempt := 0, nextAttemptAt := none, leaseOwner := none
                leaseExpiresAt := none }).normalize inc)
        | state =>
          (⟨"job_already_exists", some existing.id, some s!"state={state.value}"⟩,
            db.normalize inc)

/-! ## Leasing and settling -/

/-- SOURCE: clients/database.py:14844-14850 -/
def OrphanReconcileJob.due (job : OrphanReconcileJob) (now : Nat) : Bool :=
  (decide (job.state = .pending) || decide (job.state = .retryWait)) &&
    job.nextAttemptAt.all fun next => decide (next ≤ now)

/-- The due jobs that the query returns: it names no order, so the environment chooses them.
SOURCE: clients/database.py:14834-14865 -/
def claimJobs (db : Jobs) (chosen : List String) (limit : Nat) (now leaseDuration : Nat)
    (leaseOwner : String) : List (String × String) × Jobs :=
  let due := (db.jobs.select fun job => decide (job.id ∈ chosen) && job.due now).take limit
  (due.map fun job => (job.id, job.incarnationId),
    { db with
      jobs := db.jobs.update (fun job => decide (job.id ∈ due.map (·.id)))
        ⟨fun job =>
          { job with
            state := .leased, leaseOwner := some leaseOwner
            leaseExpiresAt := some (now + leaseDuration), attempt := job.attempt + 1 },
          fun _ => rfl⟩ })

/-- SOURCE: clients/database.py:14895-14906 -/
def completeJob (db : Jobs) (jobId : String) (detail : Option Text) : Jobs :=
  db.setJob jobId fun job =>
    { job with
      state := .succeeded, lastResultJson := detail, leaseOwner := none, leaseExpiresAt := none }

/-- SOURCE: clients/database.py:14909-14922 -/
def retryJob (db : Jobs) (jobId : String) (delay now : Nat) : Jobs :=
  db.setJob jobId fun job =>
    { job with
      state := .retryWait, nextAttemptAt := some (now + delay), leaseOwner := none
      leaseExpiresAt := none }

/-- SOURCE: clients/database.py:14925-14937 -/
def markAttentionRequired (db : Jobs) (jobId : String) : Jobs :=
  db.setJob jobId fun job =>
    { job with state := .attentionRequired, leaseOwner := none, leaseExpiresAt := none }

/-- SOURCE: clients/database.py:14951-14958 -/
def markIncarnationReconciled (db : Jobs) (incarnationId : String) : Jobs :=
  db.setIncarnation incarnationId .reconciled

/-! ## Startup -/

/-- What the sweep finds out about a launch that is stale. -/
inductive StaleLaunch
  | missingTerminal
  | gone
  | unproven

def StaleLaunch.source : StaleLaunch → Option String
  | .missingTerminal => some "startup_stale_missing_terminal"
  | .gone => some "startup_stale_gone"
  | .unproven => none

/-- INCARNATION_LAUNCH_STALE_SECONDS. -/
def incarnationLaunchStale : Nat := 120000000

/-- SOURCE: clients/database.py:14965-14980 -/
def expireLeases (db : Jobs) (now : Nat) : Jobs :=
  { db with
    jobs := db.jobs.update
      (fun job => decide (job.state = .leased) && job.leaseExpiresAt.any fun e => decide (e < now))
      ⟨fun job => { job with state := .pending, leaseOwner := none, leaseExpiresAt := none },
        fun _ => rfl⟩ }

/-- The incarnations that are queued after the sweep. -/
def staleLaunches (db : Jobs) (now : Nat) (look : String → StaleLaunch) :
    List (String × String) :=
  (db.incarnations.select fun inc =>
      decide (inc.state = .launching) && decide (inc.createdAt + incarnationLaunchStale < now)
    ).filterMap fun inc => (look inc.id).source.map fun source => (inc.id, source)

/-- Queue one of them; `uuid` answers with an id, or with nothing where the call raises. -/
def forceQueue (uuid : String → Option String) (db : Jobs) (queued : String × String) : Jobs :=
  match uuid queued.1 with
  | none => db
  | some jobId =>
    if (db.jobs.get jobId).isSome then db
    else (forceReconcileIncarnation db queued.1 queued.2 jobId).2

/-- SOURCE: clients/database.py:14961-15045 -/
def startupRecovery (db : Jobs) (now : Nat) (look : String → StaleLaunch)
    (uuid : String → Option String) : Jobs :=
  (staleLaunches (expireLeases db now) now look).foldl (forceQueue uuid) (expireLeases db now)

/-! ## Executions -/

/-- SOURCE: services/orphan_reconcile_service.py:46-49 -/
def permanentFailurePrefixes : List Text :=
  [text "permission_denied_server_ancestor", text "permission_denied_uid_unknown"]

/-- SOURCE: services/orphan_reconcile_service.py:55-71 -/
def isPermanentFailure (detail : Option Text) : Bool :=
  match detail with
  | none => false
  | some t =>
    let errors := ((t.splitOn 59).map strip).filter fun e => !e.isEmpty
    !errors.isEmpty && errors.all fun e => permanentFailurePrefixes.any fun p => p.isPrefixOf e

/-- SOURCE: services/orphan_reconcile_service.py:36 -/
def retryDelays : List Nat :=
  [250000, 500000, 1000000, 2000000, 4000000, 8000000, 16000000, 30000000]

def retryDelay (attempt : Nat) : Nat :=
  retryDelays.getD (min attempt (retryDelays.length - 1)) 0

def leaseDuration : Nat := 30000000

def batchClaimCap : Nat := 10

/-- What `run_reconciliation_attempt_sync` comes to. -/
inductive AttemptOutcome
  | raised
  | result (code : String) (detail : Option Text)

def AttemptOutcome.succeeded : AttemptOutcome → Bool
  | .raised => false
  | .result code _ => decide (code = "success")

/-- The call that settles an execution. -/
inductive Settlement
  | missing
  | complete (detail : Option Text)
  | retry (delay : Nat)
  | attention (code : String)
deriving DecidableEq

/-- Where an execution stands: before it reads the incarnation, before it reads the attempt number,
in the thread of the attempt, and in the calls behind it. -/
inductive Phase
  | begun
  | fetched
  | attempting (attempt : Nat)
  | settling (settlement : Settlement)
  | reconciling
  | notifying
deriving DecidableEq

/-- A run of `_execute_job`. -/
structure Execution where
  jobId : String
  incarnationId : String
  phase : Phase

/-- How `_execute_job` goes on after its attempt.
SOURCE: services/orphan_reconcile_service.py:986-1051 -/
def settlementOf (attempt : Nat) : AttemptOutcome → Settlement
  | .raised => .retry (retryDelay attempt)
  | .result code detail =>
    if code = "success" then .complete detail
    else if retryDelays.length - 1 ≤ attempt ∨ isPermanentFailure detail = true then .attention code
    else .retry (retryDelay attempt)

/-- The transaction of a settlement. -/
def settle (db : Jobs) (jobId : String) (now : Nat) : Settlement → Jobs
  | .missing => completeJob db jobId (some (text "incarnation_missing"))
  | .complete detail => completeJob db jobId detail
  | .retry delay => retryJob db jobId delay now
  | .attention _ => markAttentionRequired db jobId

/-- The phase behind a settlement, where there is one. -/
def Settlement.next : Settlement → Option Phase
  | .complete _ => some .reconciling
  | .attention _ => some .notifying
  | _ => none

/-- How a database call ends: it returns, or it raises without or with its transaction done. -/
inductive CallOutcome
  | returns
  | raises (applied : Bool)
deriving DecidableEq

/-- The transaction of a call that ends so. -/
def CallOutcome.effect {α : Type} : CallOutcome → α → α → α
  | .raises false, before, _ => before
  | _, _, after => after

/-- The tables, whether the dispatcher runs, its executions, the threads that a cancelled one left,
the jobs of which an attempt returned success, and whether the last step was a startup. -/
structure Reconciler where
  db : Jobs
  dispatching : Bool
  executions : List Execution
  detached : List String
  proven : List String
  recovered : Bool

inductive JobStep
  | reserve (incarnation : ProcessIncarnation)
  | activate (incarnationId : String)
  | abandon (incarnationId : String)
  | rebind (incarnationId : String)
  | request (incarnationId source jobId : String) (outcome : CallOutcome)
  | force (incarnationId source jobId : String) (outcome : CallOutcome)
  | claim (chosen : List String) (now : Nat) (leaseOwner : String) (outcome : CallOutcome)
  | fetch (i : Nat) (outcome : CallOutcome)
  | readAttempt (i : Nat) (outcome : CallOutcome)
  | attempted (i : Nat) (outcome : AttemptOutcome)
  | settled (i now : Nat) (outcome : CallOutcome)
  | reconciled (i : Nat) (outcome : CallOutcome)
  | notified (i : Nat)
  | cancel
  | detachedEnds (i : Nat)
  | kill
  | startup (now : Nat) (look : String → StaleLaunch) (uuid : String → Option String)
      (outcome : CallOutcome)

namespace Reconciler

def start : Reconciler := ⟨⟨.empty, .empty⟩, false, [], [], [], false⟩

/-- An incarnation whose state is one of `from` goes to `to`.
SOURCE: clients/database.py:15089-15102, 15105-15113, 15164-15172, 7493-7500 -/
def transition (db : Jobs) (incarnationId : String) (source target : IncarnationState) : Jobs :=
  match db.incarnations.get incarnationId with
  | none => db
  | some inc => if inc.state = source then db.setIncarnation incarnationId target else db

/-- The execution goes on in `phase`, or ends. -/
def goOn (h : Reconciler) (i : Nat) (e : Execution) (phase : Option Phase) : Reconciler :=
  { h with
    executions := match phase with
      | some phase => h.executions.set i { e with phase := phase }
      | none => h.executions.eraseIdx i }

/-- The phase after a call, which ends the execution when it raises. -/
def after (outcome : CallOutcome) (phase : Option Phase) : Option Phase :=
  match outcome with
  | .returns => phase
  | .raises _ => none

/-- A step of one execution, in the phase that it stands in. -/
def ofExecution (h : Reconciler) (i : Nat) (f : Execution → Reconciler) : Reconciler :=
  match h.executions[i]? with
  | none => h
  | some e => f e

/-- The threads in which an attempt runs, by their jobs. -/
def attempts (h : Reconciler) : List String :=
  (h.executions.filter fun e => match e.phase with
    | .attempting _ => true
    | _ => false).map (·.jobId) ++ h.detached

def step (h : Reconciler) : JobStep → Reconciler
  | .reserve inc =>
    { h with
      db := { h.db with incarnations := h.db.incarnations.insert { inc with state := .launching } } }
  | .activate id => { h with db := transition h.db id .launching .active }
  | .abandon id => { h with db := transition h.db id .launching .abandoned }
  | .rebind id => { h with db := transition h.db id .active .reconcilePending }
  | .request id source jobId outcome =>
    if (h.db.jobs.get jobId).isSome then h
    else { h with db := outcome.effect h.db (requestReconciliation h.db id source jobId).2 }
  | .force id source jobId outcome =>
    if (h.db.jobs.get jobId).isSome then h
    else { h with db := outcome.effect h.db (forceReconcileIncarnation h.db id source jobId).2 }
  | .claim chosen now leaseOwner outcome =>
    if h.dispatching ∧ h.executions = [] then
      let claimed := claimJobs h.db chosen batchClaimCap now leaseDuration leaseOwner
      { h with
        db := outcome.effect h.db claimed.2
        -- nothing catches what the claim raises: the dispatcher is gone
        dispatching := decide (outcome = .returns)
        executions :=
          if outcome = .returns then claimed.1.map fun job => ⟨job.1, job.2, .begun⟩ else [] }
    else h
  | .fetch i outcome => h.ofExecution i fun e =>
    match e.phase with
    | .begun =>
      h.goOn i e (after outcome (some (match h.db.incarnations.get e.incarnationId with
        | none => .settling .missing
        | some _ => .fetched)))
    | _ => h
  | .readAttempt i outcome => h.ofExecution i fun e =>
    match e.phase with
    | .fetched =>
      h.goOn i e (after outcome (some (.attempting (((h.db.jobs.get e.jobId).map
        OrphanReconcileJob.attempt).getD 0))))
    | _ => h
  | .attempted i outcome => h.ofExecution i fun e =>
    match e.phase with
    | .attempting attempt =>
      { h.goOn i e (some (.settling (settlementOf attempt outcome))) with
        proven := if outcome.succeeded then e.jobId :: h.proven else h.proven }
    | _ => h
  | .settled i now outcome => h.ofExecution i fun e =>
    match e.phase with
    | .settling settlement =>
      { h.goOn i e (after outcome settlement.next) with
        db := outcome.effect h.db (settle h.db e.jobId now settlement) }
    | _ => h
  | .reconciled i outcome => h.ofExecution i fun e =>
    match e.phase with
    | .reconciling =>
      { h.goOn i e none with
        db := outcome.effect h.db (markIncarnationReconciled h.db e.incarnationId) }
    | _ => h
  | .notified i => h.ofExecution i fun e =>
    match e.phase with
    | .notifying => h.goOn i e none
    | _ => h
  | .cancel => { h with dispatching := false, executions := [], detached := h.attempts }
  | .detachedEnds i => { h with detached := h.detached.eraseIdx i }
  | .kill => { h with dispatching := false, executions := [], detached := [] }
  | .startup now look uuid outcome =>
    { h with
      db := outcome.effect h.db (startupRecovery h.db now look uuid)
      dispatching := decide (outcome = .returns), executions := [], detached := [] }

/-- A step, and whether it was a startup that came through. -/
def exec (h : Reconciler) (a : JobStep) : Reconciler :=
  { h.step a with
    recovered := match a with
      | .startup _ _ _ .returns => true
      | _ => false }

end Reconciler

end CliAgentOrchestrator.Orphan
