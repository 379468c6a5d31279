import CliAgentOrchestrator.Core.Worker
import CliAgentOrchestrator.Library.Table

/-!
# The two stores of worker truth

`adapters/store/state.py` and `adapters/store/event_log.py`: the projection, one row to a
terminal, and the append-only log with a sequence of its own for each terminal. The projector
writes six columns of a row and the probes the other five.
-/

set_option autoImplicit false

namespace CliAgentOrchestrator.Truth

open CliAgentOrchestrator.Core Library

/-! ## The projection -/

/-- One `worker_state_shadow` row.
SOURCE: app/worker_truth/projector.py:297-347, adapters/store/migrator.py:136-149 -/
structure ProjectedState where
  terminalId : String
  state : WorkerState := .starting
  since : Int
  lastEventSeq : Nat := 0
  degradedReason : Option DegradedReason := none
  priorState : Option WorkerState := none
  lastProbeAt : Option Int := none
  lastSourceProbeAt : Option Int := none
  panePid : Option Int := none
  panePresent : Bool := false
  missCount : Int := 0

abbrev StateStore := Table ProjectedState.terminalId

/-- The columns the projector owns. -/
def projectionPatch (p : ProjectedState) : Patch ProjectedState.terminalId where
  apply r := { r with
    state := p.state, since := p.since, lastEventSeq := p.lastEventSeq
    degradedReason := p.degradedReason, priorState := p.priorState }
  keeps _ := rfl

/-- SOURCE: adapters/store/state.py:122-188 -/
def StateStore.upsert (s : StateStore) (p : ProjectedState) : StateStore :=
  Table.upsert s p (projectionPatch p)

/-- What a liveness probe saw. -/
structure Probe where
  probedAt : Int
  panePresent : Bool
  panePid : Option Int
  missCount : Int

/-- The columns the liveness probe owns. -/
def probePatch (probe : Probe) : Patch ProjectedState.terminalId where
  apply r := { r with
    lastProbeAt := some probe.probedAt, panePresent := probe.panePresent
    panePid := probe.panePid, missCount := probe.missCount }
  keeps _ := rfl

/-- SOURCE: adapters/store/state.py:190-220 -/
def StateStore.touchProbe (s : StateStore) (terminalId : String) (probe : Probe) : StateStore :=
  Table.upsert s
    { terminalId := terminalId, since := probe.probedAt, lastProbeAt := some probe.probedAt
      panePresent := probe.panePresent, panePid := probe.panePid, missCount := probe.missCount }
    (probePatch probe)

/-- The column the tailer owns. -/
def sourceProbePatch (probedAt : Int) : Patch ProjectedState.terminalId where
  apply r := { r with lastSourceProbeAt := some probedAt }
  keeps _ := rfl

/-- SOURCE: adapters/store/state.py:222-238 -/
def StateStore.touchSourceProbe (s : StateStore) (terminalId : String) (probedAt : Int) :
    StateStore :=
  Table.upsert s
    { terminalId := terminalId, since := probedAt, lastSourceProbeAt := some probedAt }
    (sourceProbePatch probedAt)

/-- The half of a row that the projector owns. -/
structure Standing where
  state : WorkerState
  since : Int
  lastEventSeq : Nat
  degradedReason : Option DegradedReason
  priorState : Option WorkerState
deriving DecidableEq

def ProjectedState.standing (r : ProjectedState) : Standing :=
  ⟨r.state, r.since, r.lastEventSeq, r.degradedReason, r.priorState⟩

/-- The half of a row that the projector owns, of the row a terminal has. -/
def StateStore.standing (s : StateStore) (terminalId : String) : Option Standing :=
  (s.get terminalId).map ProjectedState.standing

theorem StateStore.standing_upsert (s : StateStore) (p : ProjectedState) (terminalId : String) :
    (s.upsert p).standing terminalId =
      if terminalId = p.terminalId then some p.standing else s.standing terminalId := by
  unfold StateStore.standing StateStore.upsert
  rw [Table.get_upsert]
  by_cases h : terminalId = p.terminalId
  · subst h
    cases s.get p.terminalId <;> simp [projectionPatch, ProjectedState.standing]
  · rw [if_neg h]
    simp [h]

theorem StateStore.standing_upsert_self (s : StateStore) {p : ProjectedState}
    {terminalId : String} (h : terminalId = p.terminalId) :
    (s.upsert p).standing terminalId = some p.standing := by
  rw [StateStore.standing_upsert, if_pos h]

/-! ## The event log -/

/-- The rows of the log and the highest sequence number each terminal was given. -/
structure EventLog where
  workerEvent : Table (fun e : WorkerEvent => e.eventId)
  workerEventSeq : Table (Prod.fst : String × Nat → String)

def EventLog.empty : EventLog := ⟨.empty, .empty⟩

/-- SOURCE: adapters/store/event_log.py:224-233 -/
def EventLog.highWater (log : EventLog) (terminalId : String) : Nat :=
  ((log.workerEventSeq.get terminalId).map Prod.snd).getD 0

/-- The row that was stored under an idempotency key. -/
def EventLog.stored (log : EventLog) (idempotencyKey : String) : Option WorkerEvent :=
  log.workerEvent.rows.find? fun e => e.idempotencyKey = some idempotencyKey

def highWaterPatch (seq : Nat) : Patch (Prod.fst : String × Nat → String) where
  apply r := (r.1, seq)
  keeps _ := rfl

/-- The row a draft becomes. -/
def storedRow (draft : EventDraft) (eventId : String) (ingestedAt : Int) (highWater : Nat) :
    WorkerEvent where
  toEventDraft := draft
  eventId := eventId
  seq := highWater + 1
  ingestedAt := ingestedAt
  one_le_seq := Nat.le_add_left 1 highWater

/-- Store a draft under the next number of its terminal. A draft whose idempotency key is known is
answered with the row stored under it; an event id that is taken raises.
SOURCE: adapters/store/event_log.py:85-157 -/
def EventLog.append (log : EventLog) (draft : EventDraft) (eventId : String) (ingestedAt : Int) :
    Option (WorkerEvent × EventLog) :=
  match draft.idempotencyKey.bind log.stored with
  | some existing => some (existing, log)
  | none =>
    let row := storedRow draft eventId ingestedAt (log.highWater draft.terminalId)
    if (log.workerEvent.get eventId).isSome then none
    else some (row,
      { workerEvent := log.workerEvent.insert row
        workerEventSeq := log.workerEventSeq.upsert (draft.terminalId, row.seq)
          (highWaterPatch row.seq) })

/-- What an append does: it answers with a stored row, or adds one above the terminal's highest
number. -/
inductive EventLog.Appended (log : EventLog) (draft : EventDraft) (eventId : String)
    (ingestedAt : Int) : WorkerEvent → EventLog → Prop
  | known {row : WorkerEvent} (key : String) (hkey : draft.idempotencyKey = some key)
      (hstored : log.stored key = some row) : Appended log draft eventId ingestedAt row log
  | added {log' : EventLog}
      (hfree : log.workerEvent.get eventId = none)
      (hrows : log'.workerEvent.rows = log.workerEvent.rows ++
        [storedRow draft eventId ingestedAt (log.highWater draft.terminalId)])
      (hwater : ∀ id, log'.highWater id =
        if id = draft.terminalId then log.highWater draft.terminalId + 1 else log.highWater id) :
      Appended log draft eventId ingestedAt
        (storedRow draft eventId ingestedAt (log.highWater draft.terminalId)) log'

theorem EventLog.appended_of_append {log log' : EventLog} {draft : EventDraft} {eventId : String}
    {ingestedAt : Int} {row : WorkerEvent}
    (h : log.append draft eventId ingestedAt = some (row, log')) :
    Appended log draft eventId ingestedAt row log' := by
  unfold EventLog.append at h
  split at h
  · next existing hexisting =>
    obtain ⟨key, hkey, hstored⟩ := Option.bind_eq_some_iff.mp hexisting
    cases h
    exact .known key hkey hstored
  · dsimp only at h
    split at h
    · cases h
    · next htaken =>
      have hfree : log.workerEvent.get eventId = none := by simpa using htaken
      cases h
      refine .added hfree (Table.rows_insert hfree) ?_
      intro id
      unfold EventLog.highWater
      rw [Table.get_upsert]
      by_cases hid : id = draft.terminalId
      · subst hid
        rw [if_pos rfl, if_pos rfl]
        cases log.workerEventSeq.get draft.terminalId <;> rfl
      · simp only [if_neg hid]

/-- Without an idempotency key, an append goes through exactly when its event id is free. -/
theorem EventLog.isSome_append_iff (log : EventLog) {draft : EventDraft} (eventId : String)
    (ingestedAt : Int) (hkey : draft.idempotencyKey = none) :
    (log.append draft eventId ingestedAt).isSome = true ↔ log.workerEvent.get eventId = none := by
  unfold EventLog.append
  rw [hkey]
  cases log.workerEvent.get eventId <;> simp

/-- The numbers of a terminal rise along the log and stay at or below its highest one. -/
structure EventLog.Ordered (log : EventLog) : Prop where
  le_highWater : ∀ e ∈ log.workerEvent.rows, e.seq ≤ log.highWater e.terminalId
  rising : log.workerEvent.rows.Pairwise fun a b => a.terminalId = b.terminalId → a.seq < b.seq

theorem EventLog.ordered_empty : EventLog.empty.Ordered where
  le_highWater e he := by cases he
  rising := .nil

theorem EventLog.Ordered.append {log log' : EventLog} {draft : EventDraft} {eventId : String}
    {ingestedAt : Int} {row : WorkerEvent} (h : log.Ordered)
    (happend : Appended log draft eventId ingestedAt row log') : log'.Ordered := by
  cases happend with
  | known key hkey hstored => exact h
  | added hfree hrows hwater =>
    refine ⟨?_, ?_⟩
    · intro e he
      rw [hrows] at he
      rw [hwater]
      obtain hold | hnew := List.mem_append.mp he
      · have hle := h.le_highWater e hold
        split
        · next hid =>
          rw [hid] at hle
          omega
        · exact hle
      · obtain rfl := List.mem_singleton.mp hnew
        simp [storedRow]
    · rw [hrows, List.pairwise_append]
      refine ⟨h.rising, List.pairwise_singleton _ _, ?_⟩
      intro a ha b hb hid
      obtain rfl := List.mem_singleton.mp hb
      have hle := h.le_highWater a ha
      have hid : a.terminalId = draft.terminalId := hid
      rw [hid] at hle
      exact Nat.lt_succ_of_le hle

/-- The rows of a terminal after `sinceSeq`, oldest first.
SOURCE: adapters/store/event_log.py:176-213 -/
def EventLog.read (log : EventLog) (terminalId : String) (sinceSeq : Nat) : List WorkerEvent :=
  (log.workerEvent.rows.filter fun e =>
    e.terminalId == terminalId && (sinceSeq == 0 || decide (sinceSeq < e.seq))).insertionSort
      fun a b => a.seq ≤ b.seq

end CliAgentOrchestrator.Truth
