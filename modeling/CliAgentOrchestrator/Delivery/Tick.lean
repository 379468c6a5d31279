import CliAgentOrchestrator.Wiring.Drain

/-!
# The delivery tick

`app/delivery/tick.py` and the part of `app/delivery/wake.py` that writes the store. A tick
adopts, reclaims, serves each receiver and closes the epochs that are over. What a tick finds
outside the store, and where it raises, is a `Tick`; `runOnce` is one tick as a whole.
-/

set_option autoImplicit false

namespace CliAgentOrchestrator.Delivery

open CliAgentOrchestrator.Core Library Queue Wiring

/-! ## What a tick finds outside the store -/

/-- Where a mailbox lives, as far as the tick reads it.
SOURCE: core/delivery.py:362-390 -/
structure ReceiverResolution where
  live : Bool := true
  isSupervisor : Bool := true
  panePresent : Bool := false

/-- The call at which the serving of one receiver raises; `record n` is after `n` messages. -/
inductive Stage
  | claim
  | epoch
  | resolve
  | carrier
  | record (n : Nat)
deriving DecidableEq

/-- One receiver in one tick: its resolution, what its carrier answers, and where it raises. -/
structure Serving where
  resolution : ReceiverResolution := {}
  outcome : AttemptOutcome := .delivered
  detail : String := ""
  raises : Option Stage := none

/-- The call at which a tick itself raises; the numbers count the deaths announced and the
epochs examined before it. -/
inductive Halt
  | reclaim
  | announce (n : Nat)
  | readyReceivers
  | close (n : Nat)
deriving DecidableEq

/-- One enqueue: the draft, the id it mints and its clock. -/
structure Arrival where
  draft : EnqueueDraft
  newUlid : String
  now : Int

/-- One tick. `adoptions` are what its adopter enqueues, `notices` the ids and clocks of the
notices it enqueues, `none` where the enqueue raises. -/
structure Tick where
  now : Int
  adoptions : List Arrival := []
  notices : DeadRow → Option (String × Int) := fun row => some ("notice-" ++ row.msgId, 0)
  serving : String → Serving := fun _ => {}
  closing : SeatDigest → ReceiverResolution := fun _ => {}
  halts : Option Halt := none

/-! ## Before the serving -/

/-- SOURCE: app/delivery/tick.py:86 -/
def tickLeaseOwner : String := "delivery-tick"

/-- SOURCE: app/delivery/tick.py:92 -/
def claimLimit : Int := 64

/-- Enqueue; a draft that is refused changes nothing. -/
def arrive (sha256 : String → String) (s : Store) (arrival : Arrival) : Store :=
  exec sha256 s (.enqueue arrival.draft arrival.newUlid arrival.now)

/-- SOURCE: app/delivery/tick.py:215-254 -/
def adopt (sha256 : String → String) (s : Store) (t : Tick) : Store :=
  t.adoptions.foldl (arrive sha256) s

/-- An enqueue that raises is logged, and the death stays without a notice.
SOURCE: app/delivery/tick.py:416-481 -/
def announceDeath (sha256 : String → String) (t : Tick) (s : Store) (row : DeadRow) : Store :=
  match noticeDraft row, t.notices row with
  | some draft, some (newUlid, now) => arrive sha256 s ⟨draft, newUlid, now⟩
  | _, _ => s

/-- The deaths announced before the tick raises, all of them if it does not. -/
def announced (t : Tick) (dead : List DeadRow) : List DeadRow :=
  match t.halts with
  | some (.announce n) => dead.take n
  | _ => dead

/-- SOURCE: app/delivery/tick.py:278-284 -/
def reclaimAndAnnounce (sha256 : String → String) (s : Store) (t : Tick) : Store :=
  let result := reclaim s t.now
  (announced t result.2.dead).foldl (announceDeath sha256 t) result.1

/-- The store when the serving begins. -/
def beforeServing (sha256 : String → String) (s : Store) (t : Tick) : Store :=
  reclaimAndAnnounce sha256 (adopt sha256 s t) t

/-! ## The receivers -/

/-- MIN(created_at) over a receiver's undelivered rows. -/
def firstAt (s : Store) (receiverId : String) : Int :=
  (((s.deliveryMsg.select (undelivered receiverId)).map QueueMessage.createdAt).min?).getD 0

/-- Receivers with an undelivered row, oldest arrival first.
SOURCE: adapters/store/queue.py:891-909 -/
def readyReceivers (s : Store) : List String :=
  (((s.deliveryMsg.select fun r => !r.terminal).map QueueMessage.receiverId).dedup).insertionSort
    fun a b => firstAt s a < firstAt s b ∨ (firstAt s a = firstAt s b ∧ ¬ b < a)

/-- The receiver's open epoch, opened or extended to cover what is owed.
SOURCE: app/delivery/tick.py:355-365 -/
def epochFor (s : Store) (receiverId : String) (now : Int) : Option SeatDigest × Store :=
  let ids := undeliveredIds s receiverId
  if ids = [] then (none, s)
  else
    match openDigestIn s receiverId with
    | none => buildDigest s receiverId ids now
    | some digest =>
      let extended := extendDigest s receiverId digest.epoch ids
      (some (extended.1.getD digest), extended.2)

/-! ## The wake -/

/-- What one wake did, as the tick records it.
SOURCE: app/delivery/wake.py:73-99 -/
structure WakeOutcomeReport where
  carrier : String
  outcome : AttemptOutcome
  recordable : Bool := true
  detail : String := ""
  wakeCount : Int := 0

def carrierSeatWake : String := "seat_wake"
def carrierPane : String := "pane"

/-- Which carrier a receiver's role dictates.
SOURCE: app/delivery/wake.py:177-179 -/
def carrierFor (resolution : ReceiverResolution) : String :=
  if resolution.isSupervisor then carrierSeatWake else carrierPane

/-- Nobody lives there: nothing is composed, and the ordinal stays.
SOURCE: app/delivery/wake.py:146-152 -/
def paneAbsentReport : WakeOutcomeReport :=
  { carrier := carrierPane, outcome := .paneAbsent, detail := "pane_absent" }

/-- Advance the ordinal, then emit; an epoch that is closed by then is not recorded.
SOURCE: app/delivery/wake.py:128-179, 296-317 -/
def deliver (s : Store) (serving : Serving) (digest : SeatDigest) : WakeOutcomeReport × Store :=
  if serving.resolution.live then
    let bumped := bumpWakeCount s digest.receiverId digest.epoch
    if bumped.1 = 0 then
      ({ carrier := carrierFor serving.resolution, outcome := .delivered, recordable := false
         detail := "epoch_closed" }, bumped.2)
    else
      ({ carrier := carrierFor serving.resolution, outcome := serving.outcome
         detail := serving.detail, wakeCount := bumped.1 }, bumped.2)
  else (paneAbsentReport, s)

/-- One attempt row, and the dialog-hold clock.
SOURCE: app/delivery/tick.py:377-393 -/
def recordOne (wake : WakeOutcomeReport) (now : Int) (s : Store) (message : QueueMessage) :
    Store :=
  let s' := recordAttempt s
    { msgId := message.msgId, claimId := message.claimId, carrier := wake.carrier
      startedAt := now, outcome := wake.outcome, detail := wake.detail }
  if wake.outcome = .vetoDialog then
    if message.heldSince.isNone then markDialogHold s' message.msgId (some now) else s'
  else if message.heldSince.isSome then markDialogHold s' message.msgId none
  else s'

/-- SOURCE: app/delivery/tick.py:367-393 -/
def recordAttempts (s : Store) (wake : WakeOutcomeReport) (claimed : List QueueMessage)
    (now : Int) : Store :=
  claimed.foldl (recordOne wake now) s

/-- The messages recorded before the serving raises, all of them if it does not. -/
def recorded (serving : Serving) (claimed : List QueueMessage) : List QueueMessage :=
  match serving.raises with
  | some (.record n) => claimed.take n
  | _ => claimed

/-- The wake of one receiver with claimed rows.
SOURCE: app/delivery/tick.py:320-325 -/
def wakeAndRecord (s : Store) (serving : Serving) (digest : SeatDigest)
    (claimed : List QueueMessage) (now : Int) : Store :=
  if serving.raises = some .resolve then s
  else
    let wake := deliver s serving digest
    if serving.raises = some .carrier then wake.2
    else if wake.1.recordable then recordAttempts wake.2 wake.1 (recorded serving claimed) now
    else wake.2

/-- Claim, open or extend the epoch, wake once if anything was claimed.
SOURCE: app/delivery/tick.py:296-325 -/
def serveReceiver (t : Tick) (s : Store) (receiverId : String) : Store :=
  let serving := t.serving receiverId
  if serving.raises = some .claim then s
  else
    let claimed := claim s tickLeaseOwner t.now claimLimit (some receiverId)
    if serving.raises = some .epoch then claimed.2
    else
      match epochFor claimed.2 receiverId t.now with
      | (none, s') => s'
      | (some digest, s') =>
        if claimed.1 = [] then s' else wakeAndRecord s' serving digest claimed.1 t.now

/-! ## Closing, and the tick -/

/-- An epoch all of whose messages have ended is closed.
SOURCE: app/delivery/tick.py:498-505 -/
def closeFinished (t : Tick) (s : Store) (digest : SeatDigest) : Store :=
  if allTerminal s digest.msgIds then
    let resolution := t.closing digest
    (closeDigest s digest.receiverId digest.epoch
      (if resolution.live && resolution.panePresent then "cancelled" else "abandoned") t.now).2
  else s

/-- Every open epoch, oldest first.
SOURCE: adapters/store/queue.py:878-889 -/
def openDigests (s : Store) : List SeatDigest :=
  (s.seatDigest.select fun d => d.consumedAt.isNone).insertionSort fun a b =>
    a.builtAt < b.builtAt ∨ (a.builtAt = b.builtAt ∧
      (a.receiverId < b.receiverId ∨ (a.receiverId = b.receiverId ∧ a.epoch ≤ b.epoch)))

/-- The epochs examined before the tick raises, all of them if it does not. -/
def examined (t : Tick) (digests : List SeatDigest) : List SeatDigest :=
  match t.halts with
  | some (.close n) => digests.take n
  | _ => digests

/-- SOURCE: app/delivery/tick.py:485-505 -/
def closeFinishedEpochs (t : Tick) (s : Store) : Store :=
  (examined t (openDigests s)).foldl (closeFinished t) s

/-- SOURCE: app/delivery/tick.py:286-292 -/
def serve (t : Tick) (s : Store) : Store :=
  closeFinishedEpochs t ((readyReceivers s).foldl (serveReceiver t) s)

/-- Adopt, reclaim, then build or re-emit.
SOURCE: app/delivery/tick.py:189-213 -/
def runOnce (sha256 : String → String) (s : Store) (t : Tick) : Store :=
  match t.halts with
  | some .reclaim => adopt sha256 s t
  | some (.announce _) => beforeServing sha256 s t
  | some .readyReceivers => beforeServing sha256 s t
  | _ => serve t (beforeServing sha256 s t)

/-- The tick raised nowhere, nor did the serving of a receiver that had its turn. -/
def servedAll (sha256 : String → String) (s : Store) (t : Tick) : Bool :=
  t.halts.isNone && (readyReceivers (beforeServing sha256 s t)).all fun receiverId =>
    (t.serving receiverId).raises.isNone

/-! ## The machine -/

/-- A whole operation of one party. -/
inductive Event
  | enqueue (arrival : Arrival)
  | runOnce (t : Tick)
  | reparent (msgId newReceiverId : String) (now : Int) (messagePrefix : String)
  | ack (mailboxId : String) (upToId now : Int)

def step (sha256 : String → String) (s : Store) : Event → Store
  | .enqueue arrival => arrive sha256 s arrival
  | .runOnce t => runOnce sha256 s t
  | .reparent msgId newReceiverId now messagePrefix =>
    (reparent sha256 s msgId newReceiverId now messagePrefix).2
  | .ack mailboxId upToId now => (ackOnQueue s mailboxId upToId now).2

end CliAgentOrchestrator.Delivery
