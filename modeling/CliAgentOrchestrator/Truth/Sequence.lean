import CliAgentOrchestrator.Library.Machine
import CliAgentOrchestrator.Truth.Store

/-!
# Sequences of the event log

`adapters/store/event_log.py`: appends and prunes as `BEGIN IMMEDIATE` transactions, statement by
statement, any of which may raise or be the last the process comes to. The numbers a terminal
was ever given are 1 up to its high-water mark, each given once; a row that is gone went by a
prune that was allowed to take it.
-/

set_option autoImplicit false

namespace CliAgentOrchestrator.Truth

open CliAgentOrchestrator.Core Library

/-! ## The tables -/

/-- SOURCE: core/findings.py:213-222 -/
inductive FindingState
  | opened
  | resolved
deriving DecidableEq

/-- What retention reads of a `finding` row.
SOURCE: adapters/store/migrator.py:67-80 -/
structure Finding where
  findingId : String
  sampleEventId : Option String
  state : FindingState

/-- The log beside the findings that name its rows. -/
structure LogTables where
  log : EventLog
  finding : Table Finding.findingId

def LogTables.empty : LogTables := ⟨.empty, .empty⟩

/-! ## The transactions -/

/-- Where a call raises, or the process stops: at a statement of the transaction, at its COMMIT,
or when the COMMIT is through. -/
inductive Stop
  | begin_
  | lookup
  | highWater
  | bump
  | afterSeqBump
  | insert
  | delete
  | commit
  | after
deriving DecidableEq

/-- Run a block in one transaction: what raises in it rolls the whole block back.
SOURCE: adapters/store/connection.py:158-176 -/
def immediateTransaction {β : Type} (stop : Option Stop) (log : EventLog)
    (block : Option (β × EventLog)) : Option β × EventLog :=
  if stop = some .begin_ then (none, log)
  else
    match block with
    | none => (none, log)
    | some (answer, log') => if stop = some .commit then (none, log) else (some answer, log')

/-- The INSERT into `worker_event`, which its primary key and its two unique indexes can refuse.
SOURCE: adapters/store/event_log.py:128-148, adapters/store/migrator.py:82-99, 604-607 -/
def EventLog.insertEvent (log : EventLog) (row : WorkerEvent) : Option EventLog :=
  if (log.workerEvent.get row.eventId).isSome then none
  else if log.workerEvent.rows.any fun e => e.terminalId == row.terminalId && e.seq == row.seq then
    none
  else if (row.idempotencyKey.bind log.stored).isSome then none
  else some { log with workerEvent := log.workerEvent.insert row }

/-- The statements of `append` between BEGIN and COMMIT.
SOURCE: adapters/store/event_log.py:104-149 -/
def EventLog.appendBlock (stop : Option Stop) (log : EventLog) (draft : EventDraft)
    (eventId : String) (ingestedAt : Int) : Option (WorkerEvent × EventLog) :=
  if stop = some .lookup then none
  else
    match draft.idempotencyKey.bind log.stored with
    | some existing => some (existing, log)
    | none =>
      if stop = some .highWater ∨ stop = some .bump ∨ stop = some .afterSeqBump then none
      else
        let row := storedRow draft eventId ingestedAt (log.highWater draft.terminalId)
        let bumped := { log with
          workerEventSeq := log.workerEventSeq.upsert (draft.terminalId, row.seq)
            (highWaterPatch row.seq) }
        if stop = some .insert then none
        else (bumped.insertEvent row).map fun log' => (row, log')

/-- The answer of an append, if it comes to one, and the log it leaves.
SOURCE: adapters/store/event_log.py:85-157 -/
def EventLog.appendCall (stop : Option Stop) (log : EventLog) (draft : EventDraft)
    (eventId : String) (ingestedAt : Int) : Option WorkerEvent × EventLog :=
  let (answer, log') := immediateTransaction stop log (log.appendBlock stop draft eventId ingestedAt)
  (if stop = some .after then none else answer, log')

/-- Does an open finding name the event?
SOURCE: adapters/store/event_log.py:248-250 -/
def LogTables.isEvidence (s : LogTables) (eventId : String) : Bool :=
  s.finding.rows.any fun f => f.state == .opened && f.sampleEventId == some eventId

/-- The DELETE of a prune. The high-water marks stay.
SOURCE: adapters/store/event_log.py:247-252 -/
def LogTables.deleteOlder (s : LogTables) (olderThan : Int) : EventLog where
  workerEvent := s.log.workerEvent.delete fun e =>
    decide (e.ingestedAt < olderThan) && !s.isEvidence e.eventId
  workerEventSeq := s.log.workerEventSeq

/-- SOURCE: adapters/store/event_log.py:237-255 -/
def LogTables.prune (stop : Option Stop) (s : LogTables) (olderThan : Int) : LogTables :=
  let block := if stop = some .delete then none else some ((), s.deleteOlder olderThan)
  { s with log := (immediateTransaction stop s.log block).2 }

/-- The calls that come upon the log, in the order BEGIN IMMEDIATE puts them in. The findings are
written by others, and may stand in any way between two calls. -/
inductive LogStep
  | append (stop : Option Stop) (draft : EventDraft) (eventId : String) (ingestedAt : Int)
  | prune (stop : Option Stop) (olderThan : Int)
  | findings (finding : Table Finding.findingId)

def LogTables.exec (s : LogTables) : LogStep → LogTables
  | .append stop draft eventId ingestedAt =>
    { s with log := (s.log.appendCall stop draft eventId ingestedAt).2 }
  | .prune stop olderThan => s.prune stop olderThan
  | .findings finding => { s with finding := finding }

/-- The row a call stores: its id is taken after the call and was free before. -/
def LogTables.stores (s : LogTables) : LogStep → Option WorkerEvent
  | .append stop draft eventId ingestedAt =>
    if (s.log.workerEvent.get eventId).isSome then none
    else (s.log.appendCall stop draft eventId ingestedAt).2.workerEvent.get eventId
  | .prune _ _ => none
  | .findings _ => none

/-! ## What the calls do -/

theorem immediateTransaction_snd {β : Type} (stop : Option Stop) (log : EventLog)
    (block : Option (β × EventLog)) :
    (immediateTransaction stop log block).2 = log ∨
      ∃ answer, block = some (answer, (immediateTransaction stop log block).2) := by
  unfold immediateTransaction
  split
  · exact .inl rfl
  · cases block with
    | none => exact .inl rfl
    | some result =>
      dsimp only
      split
      · exact .inl rfl
      · exact .inr ⟨result.1, rfl⟩

/-- What an append finds when its INSERT goes through. -/
structure EventLog.Free (log : EventLog) (draft : EventDraft) (eventId : String) : Prop where
  eventId : log.workerEvent.get eventId = none
  key : draft.idempotencyKey.bind log.stored = none

/-- The log with a row of the draft under the next number of its terminal. -/
def EventLog.added (log : EventLog) (draft : EventDraft) (eventId : String) (ingestedAt : Int) :
    EventLog where
  workerEvent := log.workerEvent.insert
    (storedRow draft eventId ingestedAt (log.highWater draft.terminalId))
  workerEventSeq := log.workerEventSeq.upsert
    (draft.terminalId, log.highWater draft.terminalId + 1)
    (highWaterPatch (log.highWater draft.terminalId + 1))

theorem EventLog.rows_added {log : EventLog} {draft : EventDraft} {eventId : String}
    (h : log.workerEvent.get eventId = none) (ingestedAt : Int) :
    (log.added draft eventId ingestedAt).workerEvent.rows = log.workerEvent.rows ++
      [storedRow draft eventId ingestedAt (log.highWater draft.terminalId)] :=
  Table.rows_insert h

theorem EventLog.highWater_added (log : EventLog) (draft : EventDraft) (eventId : String)
    (ingestedAt : Int) (id : String) :
    (log.added draft eventId ingestedAt).highWater id =
      if id = draft.terminalId then log.highWater draft.terminalId + 1 else log.highWater id := by
  show ((Table.get _ id).map Prod.snd).getD 0 = _
  rw [EventLog.added, Table.get_upsert]
  by_cases hid : id = draft.terminalId
  · subst hid
    rw [if_pos rfl, if_pos rfl]
    cases log.workerEventSeq.get draft.terminalId <;> rfl
  · rw [if_neg hid, if_neg hid]
    rfl

/-- An append changes nothing, or adds one row where its id and its key are free. -/
theorem EventLog.appendCall_snd (stop : Option Stop) (log : EventLog) (draft : EventDraft)
    (eventId : String) (ingestedAt : Int) :
    (log.appendCall stop draft eventId ingestedAt).2 = log ∨
      log.Free draft eventId ∧
        (log.appendCall stop draft eventId ingestedAt).2 = log.added draft eventId ingestedAt := by
  show (immediateTransaction stop log (log.appendBlock stop draft eventId ingestedAt)).2 = log ∨ _ ∧
    (immediateTransaction stop log (log.appendBlock stop draft eventId ingestedAt)).2 = _
  obtain hsame | ⟨answer, hblock⟩ := immediateTransaction_snd stop log
    (log.appendBlock stop draft eventId ingestedAt)
  · exact .inl hsame
  · generalize (immediateTransaction stop log (log.appendBlock stop draft eventId ingestedAt)).2 =
      log' at hblock ⊢
    unfold EventLog.appendBlock at hblock
    split at hblock
    · cases hblock
    · split at hblock
      · exact .inl (Prod.mk.inj (Option.some.inj hblock)).2.symm
      · next hkey =>
        split at hblock
        · cases hblock
        · dsimp only at hblock
          split at hblock
          · cases hblock
          · obtain ⟨log'', hinsert, heq⟩ := Option.map_eq_some_iff.mp hblock
            obtain rfl := (Prod.mk.inj heq).2
            unfold EventLog.insertEvent at hinsert
            split at hinsert
            · cases hinsert
            · next htaken =>
              split at hinsert
              · cases hinsert
              · split at hinsert
                · cases hinsert
                · right
                  cases hinsert
                  exact ⟨⟨Option.not_isSome_iff_eq_none.mp htaken, hkey⟩, rfl⟩

theorem LogTables.prune_log (stop : Option Stop) (s : LogTables) (olderThan : Int) :
    (s.prune stop olderThan).log = s.log ∨ (s.prune stop olderThan).log = s.deleteOlder olderThan := by
  show (immediateTransaction stop s.log
      (if stop = some .delete then none else some ((), s.deleteOlder olderThan))).2 = s.log ∨
    (immediateTransaction stop s.log
      (if stop = some .delete then none else some ((), s.deleteOlder olderThan))).2 = _
  obtain hsame | ⟨answer, hblock⟩ := immediateTransaction_snd stop s.log
    (if stop = some .delete then none else some ((), s.deleteOlder olderThan))
  · exact .inl hsame
  · right
    generalize (immediateTransaction stop s.log
      (if stop = some .delete then none else some ((), s.deleteOlder olderThan))).2 = log' at hblock ⊢
    split at hblock
    · cases hblock
    · exact (Prod.mk.inj (Option.some.inj hblock)).2.symm

/-- What a call does to the rows: nothing, one new row, or rows gone that the horizon and the
findings let go. -/
inductive LogTables.Moved (s : LogTables) : LogStep → LogTables → Prop
  | same {step : LogStep} {s' : LogTables} (hlog : s'.log = s.log) : Moved s step s'
  | added {stop : Option Stop} {draft : EventDraft} {eventId : String} {ingestedAt : Int}
      {s' : LogTables} (hfree : s.log.Free draft eventId)
      (hlog : s'.log = s.log.added draft eventId ingestedAt) :
      Moved s (.append stop draft eventId ingestedAt) s'
  | pruned {stop : Option Stop} {olderThan : Int} {s' : LogTables}
      (hlog : s'.log = s.deleteOlder olderThan) : Moved s (.prune stop olderThan) s'

theorem LogTables.moved_exec (s : LogTables) (step : LogStep) : Moved s step (s.exec step) := by
  cases step with
  | append stop draft eventId ingestedAt =>
    obtain hsame | ⟨hfree, hadded⟩ := s.log.appendCall_snd stop draft eventId ingestedAt
    · exact .same hsame
    · exact .added hfree hadded
  | prune stop olderThan =>
    obtain hsame | hpruned := s.prune_log stop olderThan
    · exact .same hsame
    · exact .pruned hpruned
  | findings finding => exact .same rfl

theorem LogTables.stores_prune (s : LogTables) (stop : Option Stop) (olderThan : Int) :
    s.stores (.prune stop olderThan) = none := rfl

/-- A call stores a row exactly when it adds one. -/
theorem LogTables.stores_of_same {s : LogTables} (step : LogStep)
    (hlog : (s.exec step).log = s.log) : s.stores step = none := by
  cases step with
  | append stop draft eventId ingestedAt =>
    have hlog : (s.log.appendCall stop draft eventId ingestedAt).2 = s.log := hlog
    unfold LogTables.stores
    dsimp only
    rw [hlog]
    split
    · rfl
    · next htaken => simpa using htaken
  | _ => rfl

theorem LogTables.stores_of_added {s : LogTables} (stop : Option Stop) {draft : EventDraft}
    {eventId : String} {ingestedAt : Int} (hfree : s.log.Free draft eventId)
    (hlog : (s.exec (.append stop draft eventId ingestedAt)).log =
      s.log.added draft eventId ingestedAt) :
    s.stores (.append stop draft eventId ingestedAt) =
      some (storedRow draft eventId ingestedAt (s.log.highWater draft.terminalId)) := by
  have hlog : (s.log.appendCall stop draft eventId ingestedAt).2 =
      s.log.added draft eventId ingestedAt := hlog
  unfold LogTables.stores
  dsimp only
  rw [hlog, hfree.eventId]
  show Table.get _ eventId = _
  rw [Table.get_eq_some_iff]
  exact ⟨by rw [EventLog.rows_added hfree.eventId]; simp, rfl⟩

/-! ## Over a run -/

/-- What the rows ever stored say of the log: they number each terminal from 1 to its mark, the
rows that are there are among them in their order, and no two have one key. -/
structure LogTables.Numbered (s : LogTables) (ever : List WorkerEvent) : Prop where
  seqs : ∀ id, (ever.filter fun e => e.terminalId = id).map WorkerEvent.seq =
    List.range' 1 (s.log.highWater id)
  rows : s.log.workerEvent.rows.Sublist ever
  keys : s.log.workerEvent.rows.Pairwise fun a b =>
    a.idempotencyKey = b.idempotencyKey → a.idempotencyKey = none

theorem LogTables.numbered_empty : LogTables.empty.Numbered [] where
  seqs _ := rfl
  rows := .slnil
  keys := .nil

/-- A key that finds no row is in no row. -/
theorem EventLog.stored_eq_none_iff (log : EventLog) (key : String) :
    log.stored key = none ↔ ∀ e ∈ log.workerEvent.rows, e.idempotencyKey ≠ some key := by
  unfold EventLog.stored
  simp

/-- Each step keeps the numbers. -/
theorem LogTables.Numbered.exec {s : LogTables} {ever : List WorkerEvent} (h : s.Numbered ever)
    (step : LogStep) : (s.exec step).Numbered (ever ++ (s.stores step).toList) := by
  generalize hs' : s.exec step = s'
  have hmoved := s.moved_exec step
  rw [hs'] at hmoved
  cases hmoved with
  | same hlog =>
    have hstores := LogTables.stores_of_same step (hs' ▸ hlog)
    rw [hstores, Option.toList_none, List.append_nil]
    exact ⟨by rw [hlog]; exact h.seqs, by rw [hlog]; exact h.rows, by rw [hlog]; exact h.keys⟩
  | @added stop draft eventId ingestedAt _ hfree hlog =>
    have hstores := LogTables.stores_of_added stop hfree (hs' ▸ hlog)
    rw [hstores, Option.toList_some]
    have hrows : s'.log.workerEvent.rows = s.log.workerEvent.rows ++
        [storedRow draft eventId ingestedAt (s.log.highWater draft.terminalId)] := by
      rw [hlog]
      exact EventLog.rows_added hfree.eventId ingestedAt
    refine ⟨?_, ?_, ?_⟩
    · intro id
      rw [hlog, EventLog.highWater_added, List.filter_append, List.map_append, h.seqs]
      by_cases hid : id = draft.terminalId
      · subst hid
        rw [if_pos rfl, List.range'_concat]
        simp [storedRow, Nat.add_comm]
      · have hother : draft.terminalId ≠ id := fun heq => hid heq.symm
        simp [storedRow, hid, hother]
    · rw [hrows]
      exact h.rows.append (List.Sublist.refl _)
    · rw [hrows, List.pairwise_append]
      refine ⟨h.keys, List.pairwise_singleton _ _, ?_⟩
      intro a ha b hb heq
      obtain rfl := List.mem_singleton.mp hb
      have heq : a.idempotencyKey = draft.idempotencyKey := heq
      cases hkey : draft.idempotencyKey with
      | none => rw [heq, hkey]
      | some key =>
        have hnone : s.log.stored key = none := by
          have hfreeKey := hfree.key
          rw [hkey] at hfreeKey
          exact hfreeKey
        exact absurd (heq.trans hkey) ((s.log.stored_eq_none_iff key).mp hnone a ha)
  | pruned hlog =>
    rw [LogTables.stores_prune, Option.toList_none, List.append_nil]
    have hsub : s'.log.workerEvent.rows.Sublist s.log.workerEvent.rows := by
      rw [hlog]
      exact List.filter_sublist
    refine ⟨?_, hsub.trans h.rows, h.keys.sublist hsub⟩
    intro id
    rw [hlog]
    exact h.seqs id

/-- Every run numbers the rows it stores. -/
theorem LogTables.Numbered.run {s : LogTables} {ever : List WorkerEvent} (h : s.Numbered ever)
    (steps : List LogStep) :
    (Library.run LogTables.exec s steps).Numbered
      (ever ++ observed LogTables.exec LogTables.stores s steps) := by
  induction steps generalizing s ever with
  | nil =>
    rw [run_nil, observed, List.append_nil]
    exact h
  | cons step rest ih =>
    rw [run_cons, observed, ← List.append_assoc]
    exact ih (h.exec step)

theorem LogTables.numbered_run (steps : List LogStep) :
    (Library.run LogTables.exec .empty steps).Numbered
      (observed LogTables.exec LogTables.stores .empty steps) :=
  LogTables.numbered_empty.run steps

/-- A row is there until a prune takes it. -/
theorem LogTables.mem_exec {s : LogTables} {row : WorkerEvent}
    (hrow : row ∈ s.log.workerEvent.rows) (step : LogStep) :
    row ∈ (s.exec step).log.workerEvent.rows ∨
      ∃ stop olderThan, step = .prune stop olderThan ∧ row.ingestedAt < olderThan ∧
        s.isEvidence row.eventId = false := by
  generalize hs' : s.exec step = s'
  have hmoved := s.moved_exec step
  rw [hs'] at hmoved
  cases hmoved with
  | same hlog =>
    left
    rw [hlog]
    exact hrow
  | added hfree hlog =>
    left
    rw [hlog, EventLog.rows_added hfree.eventId]
    exact List.mem_append_left _ hrow
  | @pruned stop olderThan _ hlog =>
    by_cases hgone : row.ingestedAt < olderThan ∧ s.isEvidence row.eventId = false
    · exact .inr ⟨stop, olderThan, rfl, hgone⟩
    · left
      rw [hlog]
      refine List.mem_filter.mpr ⟨hrow, ?_⟩
      cases hevidence : s.isEvidence row.eventId with
      | true => simp [hevidence]
      | false =>
        have hyoung : ¬ row.ingestedAt < olderThan := fun hold => hgone ⟨hold, hevidence⟩
        simp [hyoung]

/-- A row that a run leaves behind went by a prune that could take it. -/
theorem LogTables.pruned_of_run {s : LogTables} {row : WorkerEvent}
    (hrow : row ∈ s.log.workerEvent.rows) (steps : List LogStep)
    (hgone : row ∉ (Library.run LogTables.exec s steps).log.workerEvent.rows) :
    ∃ before stop olderThan after, steps = before ++ .prune stop olderThan :: after ∧
      row ∈ (Library.run LogTables.exec s before).log.workerEvent.rows ∧
      row.ingestedAt < olderThan ∧
      (Library.run LogTables.exec s before).isEvidence row.eventId = false := by
  induction steps generalizing s with
  | nil => exact absurd hrow hgone
  | cons step rest ih =>
    obtain hstays | ⟨stop, olderThan, rfl, hold, hevidence⟩ := LogTables.mem_exec hrow step
    · obtain ⟨before, stop, olderThan, after, rfl, hthere, hold, hevidence⟩ := ih hstays hgone
      exact ⟨step :: before, stop, olderThan, after, rfl, hthere, hold, hevidence⟩
    · exact ⟨[], stop, olderThan, rest, rfl, hrow, hold, hevidence⟩

/-- What a call stores is there after it. -/
theorem LogTables.mem_of_stores {s : LogTables} {step : LogStep} {row : WorkerEvent}
    (h : s.stores step = some row) : row ∈ (s.exec step).log.workerEvent.rows := by
  cases step with
  | append stop draft eventId ingestedAt =>
    unfold LogTables.stores at h
    dsimp only at h
    split at h
    · cases h
    · exact (Table.get_eq_some_iff _ _ _).mp h |>.1
  | _ => cases h

/-! ## Retries -/

/-- In a log whose keys differ, the row that has a key is the row stored under it. -/
theorem LogTables.Numbered.stored_of_mem {s : LogTables} {ever : List WorkerEvent}
    (h : s.Numbered ever) {row : WorkerEvent} {key : String}
    (hrow : row ∈ s.log.workerEvent.rows) (hkey : row.idempotencyKey = some key) :
    s.log.stored key = some row := by
  unfold EventLog.stored
  have hkeys := h.keys
  generalize s.log.workerEvent.rows = rows at hrow hkeys ⊢
  induction rows with
  | nil => cases hrow
  | cons e rest ih =>
    rw [List.pairwise_cons] at hkeys
    obtain rfl | hrest := List.mem_cons.mp hrow
    · simp [hkey]
    · have hne : e.idempotencyKey ≠ some key := by
        intro heq
        have hnone := hkeys.1 row hrest (heq.trans hkey.symm)
        rw [heq] at hnone
        cases hnone
      rw [List.find?_cons_of_neg (by simpa using hne)]
      exact ih hrest hkeys.2

/-- An append under a key that is stored leaves the log alone, and answers with the row stored
unless it raises. -/
theorem EventLog.appendCall_of_stored {log : EventLog} {draft : EventDraft} {key : String}
    {row : WorkerEvent} (hkey : draft.idempotencyKey = some key)
    (hstored : log.stored key = some row) (stop : Option Stop) (eventId : String)
    (ingestedAt : Int) :
    (log.appendCall stop draft eventId ingestedAt).2 = log ∧
      ((log.appendCall stop draft eventId ingestedAt).1 = some row ∨
        stop ≠ none ∧ (log.appendCall stop draft eventId ingestedAt).1 = none) := by
  have hblock : log.appendBlock stop draft eventId ingestedAt =
      if stop = some .lookup then none else some (row, log) := by
    unfold EventLog.appendBlock
    rw [hkey, Option.bind_some, hstored]
  unfold EventLog.appendCall immediateTransaction
  rw [hblock]
  cases stop with
  | none => simp
  | some stop => cases stop <;> simp

theorem LogTables.exec_append_of_same {s : LogTables} {stop : Option Stop} {draft : EventDraft}
    {eventId : String} {ingestedAt : Int}
    (h : (s.log.appendCall stop draft eventId ingestedAt).2 = s.log) :
    s.exec (.append stop draft eventId ingestedAt) = s := by
  show LogTables.mk (s.log.appendCall stop draft eventId ingestedAt).2 s.finding = s
  rw [h]

theorem LogTables.Numbered.appendCall_eq {s : LogTables} {ever : List WorkerEvent}
    (h : s.Numbered ever) (draft : EventDraft) (eventId : String) (ingestedAt : Int) :
    s.log.appendCall none draft eventId ingestedAt =
      match s.log.append draft eventId ingestedAt with
      | none => (none, s.log)
      | some (row, log') => (some row, log') := by
  have hseq : (s.log.workerEvent.rows.any fun e =>
      e.terminalId == draft.terminalId && e.seq == s.log.highWater draft.terminalId + 1) =
        false := by
    rw [List.any_eq_false]
    intro e he hclash
    rw [Bool.and_eq_true, beq_iff_eq, beq_iff_eq] at hclash
    have hmem : e.seq ∈ List.range' 1 (s.log.highWater draft.terminalId) := by
      rw [← h.seqs]
      exact List.mem_map_of_mem (List.mem_filter.mpr ⟨h.rows.subset he, by simpa using hclash.1⟩)
    rw [List.mem_range'_1] at hmem
    omega
  unfold EventLog.appendCall EventLog.appendBlock EventLog.append
  cases hkey : draft.idempotencyKey.bind s.log.stored with
  | some existing => simp [immediateTransaction]
  | none =>
    have hkey' : (draft.idempotencyKey.bind s.log.stored).isSome = false := by rw [hkey]; rfl
    by_cases htaken : (s.log.workerEvent.get eventId).isSome
    · simp [immediateTransaction, EventLog.insertEvent, storedRow, htaken]
    · have hinsert : ∀ water, EventLog.insertEvent ⟨s.log.workerEvent, water⟩
          (storedRow draft eventId ingestedAt (s.log.highWater draft.terminalId)) =
            some ⟨s.log.workerEvent.insert
              (storedRow draft eventId ingestedAt (s.log.highWater draft.terminalId)), water⟩ := by
        intro water
        unfold EventLog.insertEvent
        refine (if_neg htaken).trans ((if_neg ?_).trans (if_neg ?_))
        · rw [Bool.not_eq_true]
          exact hseq
        · rw [Bool.not_eq_true]
          exact hkey'
      simp [immediateTransaction, hinsert, htaken]

/-- The event log is contiguous: the numbers a terminal was ever given are 1 up to its mark, each
once, over any appends and prunes; what is gone went by a prune that could take it; a retry under
a key that is stored answers with its row and changes no table. -/
theorem event_log_contiguous (steps : List LogStep) :
    (∀ id, ((observed LogTables.exec LogTables.stores .empty steps).filter
        fun e => e.terminalId = id).map WorkerEvent.seq =
          List.range' 1 ((Library.run LogTables.exec .empty steps).log.highWater id)) ∧
    (∀ row ∈ (Library.run LogTables.exec .empty steps).log.workerEvent.rows,
      row ∈ observed LogTables.exec LogTables.stores .empty steps) ∧
    (∀ row ∈ observed LogTables.exec LogTables.stores .empty steps,
      row ∉ (Library.run LogTables.exec .empty steps).log.workerEvent.rows →
        ∃ before stop olderThan after, steps = before ++ .prune stop olderThan :: after ∧
          row ∈ (Library.run LogTables.exec .empty before).log.workerEvent.rows ∧
          row.ingestedAt < olderThan ∧
          ∀ f ∈ (Library.run LogTables.exec .empty before).finding.rows,
            f.state = .opened → f.sampleEventId ≠ some row.eventId) ∧
    (∀ row ∈ (Library.run LogTables.exec .empty steps).log.workerEvent.rows,
      ∀ (key : String) (draft : EventDraft), row.idempotencyKey = some key →
        draft.idempotencyKey = some key → ∀ stop eventId ingestedAt,
          (Library.run LogTables.exec .empty steps).exec
              (.append stop draft eventId ingestedAt) =
            Library.run LogTables.exec .empty steps ∧
          (((Library.run LogTables.exec .empty steps).log.appendCall stop draft eventId
              ingestedAt).1 = some row ∨
            stop ≠ none ∧ ((Library.run LogTables.exec .empty steps).log.appendCall stop draft
              eventId ingestedAt).1 = none)) := by
  have hnumbered := LogTables.numbered_run steps
  refine ⟨hnumbered.seqs, fun row hrow => hnumbered.rows.subset hrow, ?_, ?_⟩
  · intro row hrow hgone
    obtain ⟨before, step, after, rfl, hstores⟩ := mem_observed hrow
    have hthere := LogTables.mem_of_stores hstores
    rw [run_append, run_cons] at hgone
    obtain ⟨between, stop, olderThan, after, rfl, hlast, hold, hevidence⟩ :=
      LogTables.pruned_of_run hthere after hgone
    have hbefore : Library.run LogTables.exec .empty (before ++ step :: between) =
        Library.run LogTables.exec ((Library.run LogTables.exec .empty before).exec step)
          between := by
      rw [run_append, run_cons]
    refine ⟨before ++ step :: between, stop, olderThan, after, by simp, ?_, hold, ?_⟩
    · rw [hbefore]
      exact hlast
    · intro f hf hopened hsample
      rw [hbefore] at hf
      unfold LogTables.isEvidence at hevidence
      exact List.any_eq_false.mp hevidence f hf (by simp [hopened, hsample])
  · intro row hrow key draft hrowKey hdraftKey stop eventId ingestedAt
    have hstored := hnumbered.stored_of_mem hrow hrowKey
    obtain ⟨hsame, hanswer⟩ :=
      EventLog.appendCall_of_stored hdraftKey hstored stop eventId ingestedAt
    exact ⟨LogTables.exec_append_of_same hsame, hanswer⟩

/-- After any appends and prunes, stopped wherever they were, an append that nothing stops is the
append of the other modules: the unique indexes refuse nothing that the primary key lets through,
and an event id that is taken changes no table. -/
theorem append_unhindered (steps : List LogStep) (draft : EventDraft) (eventId : String)
    (ingestedAt : Int) :
    (Library.run LogTables.exec .empty steps).log.appendCall none draft eventId ingestedAt =
      match (Library.run LogTables.exec .empty steps).log.append draft eventId ingestedAt with
      | none => (none, (Library.run LogTables.exec .empty steps).log)
      | some (row, log') => (some row, log') :=
  (LogTables.numbered_run steps).appendCall_eq draft eventId ingestedAt

end CliAgentOrchestrator.Truth
