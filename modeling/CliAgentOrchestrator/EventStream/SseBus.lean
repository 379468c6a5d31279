import CliAgentOrchestrator.EventStream.EventLog

/-!
# The bus, the stream and its client

The fan-out of `services/sse_bus.py`, the AG-UI stream of `api/main.py` on top of it, and a client
that reads the stream and comes back with the last id it received. A publisher appends an event
and then publishes it, in two steps; the loop runs the deliveries in the order they were
scheduled.
-/

set_option autoImplicit false

namespace CliAgentOrchestrator.EventStream

open Library

/-! ## The bus -/

/-- SOURCE: services/sse_bus.py:31 -/
def sseMaxQueueSize : Nat := 256

/-- What stands in the queue of a subscriber. -/
inductive Item
  | event (event : Event)
  | overflowSentinel

/-- SOURCE: services/sse_bus.py:41-60 -/
structure Subscriber where
  queue : List Item := []
  overflowClose : Bool
  overflowed : Bool := false

/-- One delivery, on the loop of the subscriber.
SOURCE: services/sse_bus.py:90-127 -/
def Subscriber.deliver (sub : Subscriber) (event : Event) : Subscriber :=
  if sub.queue.length < sseMaxQueueSize then
    { sub with queue := sub.queue ++ [.event event] }
  else if !sub.overflowClose then sub
  else if sub.overflowed then sub
  else
    -- the newest event makes room for the sentinel
    { sub with overflowed := true, queue := sub.queue.dropLast ++ [.overflowSentinel] }

/-- `subs` are the registered handles, `sub` the objects behind all handles, `scheduled` the
callbacks the loop has yet to run. -/
structure SseBus where
  subs : List Nat := []
  sub : Nat → Subscriber := fun _ => { overflowClose := false }
  scheduled : List (Nat × Event) := []
  handles : Nat := 0

/-- SOURCE: services/sse_bus.py:75-144 -/
def SseBus.publish (bus : SseBus) (event : Event) : SseBus :=
  { bus with scheduled := bus.scheduled ++ bus.subs.map fun h => (h, event) }

/-- The loop runs the next callback. -/
def SseBus.runCallback (bus : SseBus) : SseBus :=
  match bus.scheduled with
  | [] => bus
  | (h, event) :: rest =>
    { bus with scheduled := rest, sub := Function.update bus.sub h ((bus.sub h).deliver event) }

/-- The new subscriber is under the handle `bus.handles`.
SOURCE: services/sse_bus.py:146-166 -/
def SseBus.register (bus : SseBus) (overflowClose : Bool) : SseBus :=
  { bus with
    subs := bus.subs ++ [bus.handles]
    sub := Function.update bus.sub bus.handles { overflowClose := overflowClose }
    handles := bus.handles + 1 }

/-- SOURCE: services/sse_bus.py:168-172 -/
def SseBus.unregister (bus : SseBus) (h : Nat) : SseBus :=
  { bus with subs := bus.subs.filter (· != h) }

/-- The queue without its first item. -/
def SseBus.get (bus : SseBus) (h : Nat) (rest : List Item) : SseBus :=
  { bus with sub := Function.update bus.sub h { bus.sub h with queue := rest } }

/-! ## The stream and its client -/

/-- Where the connection of the client stands: none, a subscriber and no replay yet, or the replay
and then the live events. -/
inductive Phase
  | offline
  | registered (h : Nat)
  | streaming (h : Nat)
deriving DecidableEq

/-- `replaying` is what is left of the replay and `replayedIds` what the drain has yet to skip;
`lastId` and `seen` are the client's. -/
structure Client where
  phase : Phase := .offline
  replaying : List Event := []
  replayedIds : List String := []
  lastId : Option String := none
  seen : List Event := []

/-- The client receives an event, and skips it where it has seen the id. -/
def Client.receive (client : Client) (event : Event) : Client :=
  { client with
    lastId := some event.id
    seen := if event.id ∈ client.seen.map (·.id) then client.seen else client.seen ++ [event] }

/-- `unpublished` are the events of the publishers that have appended and not published;
`appended` is every event that was appended and `first` how many of them were there when the
client registered first. -/
structure World where
  log : EventLog := .empty
  bus : SseBus := {}
  client : Client := {}
  now : Int := 0
  unpublished : List Event := []
  appended : List Event := []
  first : Option Nat := none

inductive Step
  | append (event : Event)
  | publish (i : Nat)
  | runCallback
  | register
  | replay
  | receiveReplayed
  | drain
  | disconnect
  | registerOther (overflowClose : Bool)
  | unregister (h : Nat)
  | tick (seconds : Nat)

/-- The replay of the stream: nothing on a connection without a last id.
SOURCE: api/main.py:2712-2727 -/
def World.replay (w : World) : List Event :=
  match w.client.lastId with
  | none => []
  | some id => w.log.afterId w.now id

/-- SOURCE: api/main.py:2690-2757 -/
def exec (w : World) : Step → World
  | .append event =>
    { w with
      log := w.log.append event
      unpublished := w.unpublished ++ [event]
      appended := w.appended ++ [event] }
  | .publish i =>
    match w.unpublished[i]? with
    | none => w
    | some event =>
      { w with bus := w.bus.publish event, unpublished := w.unpublished.eraseIdx i }
  | .runCallback => { w with bus := w.bus.runCallback }
  | .register =>
    match w.client.phase with
    | .offline =>
      let client := { w.client with
        phase := .registered w.bus.handles, replaying := [], replayedIds := [] }
      { w with
        bus := w.bus.register true
        client := client
        first := some (w.first.getD w.appended.length) }
    | _ => w
  | .replay =>
    match w.client.phase with
    | .registered h =>
      let client := { w.client with
        phase := .streaming h, replaying := w.replay, replayedIds := w.replay.map (·.id) }
      { w with client := client }
    | _ => w
  | .receiveReplayed =>
    match w.client.phase, w.client.replaying with
    | .streaming _, event :: rest =>
      { w with client := { w.client with replaying := rest }.receive event }
    | _, _ => w
  | .drain =>
    match w.client.phase, w.client.replaying with
    | .streaming h, [] =>
      match (w.bus.sub h).queue with
      | [] => w
      | .overflowSentinel :: rest =>
        { w with bus := w.bus.get h rest, client := { w.client with phase := .offline } }
      | .event event :: rest =>
        let client :=
          -- the overlap of the replay and the live events is skipped by the stream
          if event.id ∈ w.client.replayedIds then
            { w.client with replayedIds := w.client.replayedIds.filter (· != event.id) }
          else w.client.receive event
        { w with bus := w.bus.get h rest, client := client }
    | _, _ => w
  | .disconnect => { w with client := { w.client with phase := .offline } }
  | .registerOther overflowClose => { w with bus := w.bus.register overflowClose }
  | .unregister h =>
    -- a stream unregisters its subscriber once it is over
    if w.client.phase = .registered h ∨ w.client.phase = .streaming h then w
    else { w with bus := w.bus.unregister h }
  | .tick seconds => { w with now := w.now + seconds }

end CliAgentOrchestrator.EventStream
