import CliAgentOrchestrator.Library.Machine
import CliAgentOrchestrator.Workflow.Journal

/-!
# The numbered events of a run

`services/workflow_journal.py`, the event log of one run: the stored events, the high water of
the numbers ever allocated, and the reader that declares a marker for every hole it sees. A
read is three selects, so it takes three journals: the one its events, the one its run state
and the one its high water come from.
-/

set_option autoImplicit false

namespace CliAgentOrchestrator.Workflow

open Library

/-! ## Rows -/

/-- One stored event; the readers' numbering looks at `seq` alone.
SOURCE: services/workflow_journal.py:170-199 -/
structure EventRow where
  seq : Nat
  eventType : String

/-- `workflow_run_event` of one run, keyed by `seq`. -/
abbrev EventTable := Table EventRow.seq

/-- What the journal holds of one run: its events, its row of `workflow_run_seq` and the state
column of its row of `workflow_run`. -/
structure EventJournal where
  events : EventTable := Table.empty
  highWater : Option Nat := none
  state : Option RunState := none

/-- The event under a number has landed. -/
def EventJournal.Stored (j : EventJournal) (n : Nat) : Prop := (j.events.get n).isSome = true

/-- SOURCE: services/workflow_journal.py:1669-1686 -/
def persistedHighWater (j : EventJournal) : Nat := j.highWater.getD 0

/-- SOURCE: services/workflow_journal.py:1689-1706 -/
def maxEventSeq (j : EventJournal) : Nat := (j.events.rows.map EventRow.seq).max?.getD 0

/-- SOURCE: services/workflow_journal.py:1440-1455 -/
def persistHighWater (j : EventJournal) (seq : Nat) : EventJournal :=
  { j with highWater := some ((j.highWater.elim seq fun held => max held seq)) }

/-- An INSERT; a number that is there already raises, and the caller swallows it.
SOURCE: services/workflow_journal.py:1374-1437 -/
def appendEvent (j : EventJournal) (e : EventRow) : EventJournal :=
  { j with events := j.events.insert e }

/-- An UPDATE, which does nothing where there is no row.
SOURCE: services/workflow_journal.py:549-566 -/
def updateRunState (j : EventJournal) (state : RunState) : EventJournal :=
  { j with state := j.state.map fun _ => state }

/-! ## The reader -/

/-- ORDER BY seq. -/
def seqOrder (a b : EventRow) : Prop := a.seq ≤ b.seq

instance : DecidableRel seqOrder := fun a b => by unfold seqOrder; infer_instance

/-- SOURCE: services/workflow_journal.py:1489-1504 -/
def readEvents (j : EventJournal) (afterSeq : Option Int) : List EventRow :=
  match afterSeq with
  | none => j.events.rows.insertionSort seqOrder
  | some after => (j.events.select fun r => decide (after < r.seq)).insertionSort seqOrder

/-- SOURCE: services/workflow_journal.py:1510-1541 -/
def isTerminalRun (j : EventJournal) : Bool := j.state.any RunState.terminal

/-- SOURCE: services/workflow_journal.py:203-215 -/
structure GapMarker where
  afterSeq : Nat
  beforeSeq : Nat
  missingCount : Nat
  reason : String

/-- The numbers a marker spans. -/
def GapMarker.numbers (g : GapMarker) : List Nat :=
  List.range' (g.afterSeq + 1) (g.beforeSeq - g.afterSeq - 1)

/-- Where the comparison starts: the cursor, clamped at 0. -/
def seedOf (afterSeq : Option Int) : Nat := afterSeq.elim 0 fun after => (max after 0).toNat

/-- The adjacency scan: the markers between the rows, and the last number compared.
SOURCE: services/workflow_journal.py:1633-1643 -/
def scanRows : Nat → List EventRow → List GapMarker × Nat
  | prev, [] => ([], prev)
  | prev, row :: rest =>
    let (gaps, last) := scanRows row.seq rest
    (if prev + 1 < row.seq then
        ⟨prev, row.seq, row.seq - prev - 1, "append_failed"⟩ :: gaps
      else gaps, last)

/-- SOURCE: services/workflow_journal.py:1544-1666 -/
def readEventsWithGaps (atEvents atState atHighWater : EventJournal) (afterSeq : Option Int) :
    List EventRow × List GapMarker :=
  let rows := readEvents atEvents afterSeq
  let (gaps, prev) := scanRows (seedOf afterSeq) rows
  if isTerminalRun atState && decide (prev < persistedHighWater atHighWater) then
    let highWater := persistedHighWater atHighWater
    (rows, gaps ++ [⟨prev, highWater + 1, highWater - prev, "append_failed_trailing"⟩])
  else (rows, gaps)

/-- The numbers the markers of a read span, in order. -/
def lostNumbers (read : List EventRow × List GapMarker) : List Nat :=
  read.2.flatMap GapMarker.numbers

/-! ## What the writes leave -/

section Writes

variable (j : EventJournal) (n : Nat)

theorem persistedHighWater_persistHighWater (seq : Nat) :
    persistedHighWater (persistHighWater j seq) = max (persistedHighWater j) seq := by
  unfold persistHighWater persistedHighWater
  cases j.highWater with
  | _ => simp

theorem stored_appendEvent (e : EventRow) :
    (appendEvent j e).Stored n ↔ j.Stored n ∨ n = e.seq := by
  unfold EventJournal.Stored appendEvent
  dsimp only
  rw [Table.get_insert]
  cases hget : j.events.get n with
  | some held => simp
  | none => simpa using eq_comm

theorem stored_iff : j.Stored n ↔ ∃ row ∈ j.events.rows, row.seq = n := by
  unfold EventJournal.Stored
  rw [Option.isSome_iff_exists]
  constructor
  · rintro ⟨row, hrow⟩
    rw [Table.get_eq_some_iff] at hrow
    exact ⟨row, hrow.1, hrow.2⟩
  · rintro ⟨row, hrow, rfl⟩
    exact ⟨row, (Table.mem_rows_iff _ _).mp hrow⟩

end Writes

variable {j : EventJournal}

theorem le_maxEventSeq {n : Nat} (h : j.Stored n) : n ≤ maxEventSeq j := by
  obtain ⟨row, hrow, rfl⟩ := (stored_iff j n).mp h
  exact List.le_max?_getD_of_mem (List.mem_map_of_mem hrow)

theorem maxEventSeq_mem (j : EventJournal) : maxEventSeq j = 0 ∨ j.Stored (maxEventSeq j) := by
  unfold maxEventSeq
  cases hmax : (j.events.rows.map EventRow.seq).max? with
  | none => exact .inl rfl
  | some n =>
    obtain ⟨row, hrow, rfl⟩ := List.mem_map.mp (List.max?_mem hmax)
    exact .inr ((stored_iff j _).mpr ⟨row, hrow, rfl⟩)

/-! ## What the scan declares -/

theorem GapMarker.mem_numbers {g : GapMarker} {n : Nat} :
    n ∈ g.numbers ↔ g.afterSeq < n ∧ n < g.beforeSeq := by
  unfold GapMarker.numbers
  rw [List.mem_range'_1]
  omega

theorem GapMarker.pairwise_numbers (g : GapMarker) : g.numbers.Pairwise (· < ·) :=
  List.pairwise_lt_range'

/-- The rows are ascending and lie above a number. -/
structure Ascends (prev : Nat) (rows : List EventRow) : Prop where
  above : ∀ row ∈ rows, prev < row.seq
  order : rows.Pairwise fun a b => a.seq < b.seq

theorem Ascends.tail {prev : Nat} {row : EventRow} {rest : List EventRow}
    (h : Ascends prev (row :: rest)) : Ascends row.seq rest :=
  ⟨(List.pairwise_cons.mp h.order).1, (List.pairwise_cons.mp h.order).2⟩

/-- Where the scan ends: at the last row, or where it began. -/
theorem scanRows_last {prev : Nat} {rows : List EventRow} (h : Ascends prev rows) :
    prev ≤ (scanRows prev rows).2 ∧ (∀ row ∈ rows, row.seq ≤ (scanRows prev rows).2) ∧
      ((scanRows prev rows).2 = prev ∨ ∃ row ∈ rows, row.seq = (scanRows prev rows).2) := by
  induction rows generalizing prev with
  | nil => exact ⟨le_rfl, by simp, .inl rfl⟩
  | cons row rest ih =>
    obtain ⟨hle, hrest, hlast⟩ := ih h.tail
    have hprev := h.above row (by simp)
    refine ⟨le_of_lt (lt_of_lt_of_le hprev hle), ?_, ?_⟩
    · intro r hr
      obtain rfl | hr := List.mem_cons.mp hr
      · exact hle
      · exact hrest r hr
    · obtain hlast | ⟨r, hr, hlast⟩ := hlast
      · exact .inr ⟨row, by simp, hlast.symm⟩
      · exact .inr ⟨r, List.mem_cons_of_mem _ hr, hlast⟩

/-- The scan declares exactly the numbers between its seed and its end that no row has. -/
theorem mem_scanRows {prev n : Nat} {rows : List EventRow} (h : Ascends prev rows) :
    n ∈ (scanRows prev rows).1.flatMap GapMarker.numbers ↔
      prev < n ∧ n < (scanRows prev rows).2 ∧ ∀ row ∈ rows, row.seq ≠ n := by
  induction rows generalizing prev with
  | nil =>
    simp only [scanRows, List.flatMap_nil, List.not_mem_nil, false_iff, not_and]
    intro hlow hhigh
    omega
  | cons row rest ih =>
    have hprev := h.above row (by simp)
    obtain ⟨hle, -, -⟩ := scanRows_last h.tail
    have hrest := ih h.tail
    have hlater : ∀ r ∈ rest, row.seq < r.seq := h.tail.above
    have hhead : n ∈ (scanRows prev (row :: rest)).1.flatMap GapMarker.numbers ↔
        (prev < n ∧ n < row.seq) ∨ n ∈ (scanRows row.seq rest).1.flatMap GapMarker.numbers := by
      simp only [scanRows]
      split
      · rw [List.flatMap_cons, List.mem_append, GapMarker.mem_numbers]
      · next hnone =>
        constructor
        · exact .inr
        · rintro (⟨hlow, hhigh⟩ | hmem)
          · omega
          · exact hmem
    rw [hhead, hrest]
    show _ ↔ prev < n ∧ n < (scanRows row.seq rest).2 ∧ _
    constructor
    · rintro (⟨hlow, hhigh⟩ | ⟨hlow, hhigh, hnot⟩)
      · refine ⟨hlow, by omega, ?_⟩
        intro r hr
        obtain rfl | hr := List.mem_cons.mp hr
        · omega
        · have := hlater r hr
          omega
      · refine ⟨by omega, hhigh, ?_⟩
        intro r hr
        obtain rfl | hr := List.mem_cons.mp hr
        · omega
        · exact hnot r hr
    · rintro ⟨hlow, hhigh, hnot⟩
      have hrow := hnot row (by simp)
      obtain hbelow | habove := Nat.lt_or_gt_of_ne hrow
      · exact .inr ⟨hbelow, hhigh, fun r hr => hnot r (List.mem_cons_of_mem _ hr)⟩
      · exact .inl ⟨hlow, habove⟩

theorem pairwise_scanRows {prev : Nat} {rows : List EventRow} (h : Ascends prev rows) :
    ((scanRows prev rows).1.flatMap GapMarker.numbers).Pairwise (· < ·) := by
  induction rows generalizing prev with
  | nil => exact List.Pairwise.nil
  | cons row rest ih =>
    simp only [scanRows]
    split
    · rw [List.flatMap_cons, List.pairwise_append]
      refine ⟨GapMarker.pairwise_numbers _, ih h.tail, ?_⟩
      intro a ha b hb
      have hlow := (GapMarker.mem_numbers.mp ha).2
      have hhigh := ((mem_scanRows h.tail).mp hb).1
      exact lt_trans hlow hhigh
    · exact ih h.tail

/-! ## What a read answers -/

theorem mem_readEvents {afterSeq : Option Int} {row : EventRow} :
    row ∈ readEvents j afterSeq ↔
      row ∈ j.events.rows ∧ ∀ after, afterSeq = some after → after < row.seq := by
  cases afterSeq with
  | none => simp [readEvents]
  | some after => simp [readEvents, Table.select]

theorem pairwise_readEvents (j : EventJournal) (afterSeq : Option Int) :
    (readEvents j afterSeq).Pairwise fun a b => a.seq < b.seq := by
  have : Std.Total seqOrder := ⟨fun a b => Nat.le_total a.seq b.seq⟩
  have : IsTrans EventRow seqOrder := ⟨fun _ _ _ hab hbc => Nat.le_trans hab hbc⟩
  have hsorted : (readEvents j afterSeq).Pairwise seqOrder := by
    cases afterSeq with
    | _ => exact List.pairwise_insertionSort seqOrder _
  have hdistinct : (readEvents j afterSeq).Pairwise fun a b => a.seq ≠ b.seq := by
    rw [← List.pairwise_map (f := EventRow.seq)]
    cases afterSeq with
    | none =>
      exact (((List.perm_insertionSort seqOrder _).map EventRow.seq).nodup_iff).mpr j.events.unique
    | some after =>
      exact (((List.perm_insertionSort seqOrder _).map EventRow.seq).nodup_iff).mpr
        (j.events.select_nodup _)
  exact (hsorted.and hdistinct).imp fun hab => Nat.lt_of_le_of_ne hab.1 hab.2

/-- Every stored number is one the counter gave out: the first is 1. -/
def EventJournal.Positive (j : EventJournal) : Prop := ∀ n, j.Stored n → 0 < n

theorem seedOf_lt_iff {afterSeq : Option Int} {n : Nat} (hn : 0 < n) :
    seedOf afterSeq < n ↔ ∀ after, afterSeq = some after → after < n := by
  cases afterSeq with
  | none => simpa [seedOf] using hn
  | some after =>
    simp only [seedOf, Option.elim, Option.some.injEq, forall_eq']
    omega

theorem EventJournal.Positive.ascends (h : j.Positive) (afterSeq : Option Int) :
    Ascends (seedOf afterSeq) (readEvents j afterSeq) where
  above := by
    intro row hrow
    obtain ⟨hmem, hafter⟩ := mem_readEvents.mp hrow
    exact (seedOf_lt_iff (h row.seq ((stored_iff j _).mpr ⟨row, hmem, rfl⟩))).mpr hafter
  order := pairwise_readEvents j afterSeq

/-- The rows of a read are the stored numbers above the cursor. -/
theorem EventJournal.Positive.mem_rows (h : j.Positive) (afterSeq : Option Int) (n : Nat) :
    n ∈ (readEvents j afterSeq).map EventRow.seq ↔ j.Stored n ∧ seedOf afterSeq < n := by
  rw [List.mem_map, stored_iff]
  constructor
  · rintro ⟨row, hrow, rfl⟩
    exact ⟨⟨row, (mem_readEvents.mp hrow).1, rfl⟩, (h.ascends afterSeq).above row hrow⟩
  · rintro ⟨⟨row, hrow, rfl⟩, hlow⟩
    have hpos : 0 < row.seq := h row.seq ((stored_iff j _).mpr ⟨row, hrow, rfl⟩)
    exact ⟨row, mem_readEvents.mpr ⟨hrow, (seedOf_lt_iff hpos).mp hlow⟩, rfl⟩

section Read

variable {atState atHighWater : EventJournal} {afterSeq : Option Int}

/-- The numbers a read declares lost: those above the cursor that no event had at its first
select, and that lie below an event or, for a run seen terminal, within the high water. -/
theorem EventJournal.Positive.mem_lostNumbers (h : j.Positive) (n : Nat) :
    n ∈ lostNumbers (readEventsWithGaps j atState atHighWater afterSeq) ↔
      seedOf afterSeq < n ∧ ¬ j.Stored n ∧
        ((∃ m, j.Stored m ∧ n < m) ∨
          isTerminalRun atState = true ∧ n ≤ persistedHighWater atHighWater) := by
  have hasc := h.ascends afterSeq
  obtain ⟨hseed, hbound, hend⟩ := scanRows_last hasc
  have hscan := mem_scanRows (n := n) hasc
  have hrows : (∀ row ∈ readEvents j afterSeq, row.seq ≠ n) ↔ ¬ (j.Stored n ∧
      seedOf afterSeq < n) := by
    rw [← h.mem_rows, List.mem_map]
    simp
  have habove : seedOf afterSeq < n →
      (n < (scanRows (seedOf afterSeq) (readEvents j afterSeq)).2 ↔
        ∃ m, j.Stored m ∧ n < m) := by
    intro hlow
    constructor
    · intro hlt
      obtain heq | ⟨row, hrow, heq⟩ := hend
      · omega
      · exact ⟨row.seq, (stored_iff j _).mpr ⟨row, (mem_readEvents.mp hrow).1, rfl⟩, by omega⟩
    · rintro ⟨m, hm, hlt⟩
      obtain ⟨row, hrow, rfl⟩ := List.mem_map.mp
        ((h.mem_rows afterSeq m).mpr ⟨hm, lt_trans hlow hlt⟩)
      exact lt_of_lt_of_le hlt (hbound row hrow)
  have hnear : seedOf afterSeq < n → ¬ j.Stored n →
      ¬ (scanRows (seedOf afterSeq) (readEvents j afterSeq)).2 < n →
        n < (scanRows (seedOf afterSeq) (readEvents j afterSeq)).2 := by
    intro hlow hnot hlast
    obtain heq | ⟨row, hrow, heq⟩ := hend
    · omega
    · have hne : row.seq ≠ n := by
        rintro rfl
        exact hnot ((stored_iff j _).mpr ⟨row, (mem_readEvents.mp hrow).1, rfl⟩)
      omega
  have hfree : (scanRows (seedOf afterSeq) (readEvents j afterSeq)).2 < n →
      seedOf afterSeq < n → ¬ j.Stored n := by
    intro hlast hlow hstored
    obtain ⟨row, hrow, rfl⟩ := List.mem_map.mp ((h.mem_rows afterSeq n).mpr ⟨hstored, hlow⟩)
    have := hbound row hrow
    omega
  unfold lostNumbers readEventsWithGaps
  dsimp only
  split
  · next htrail =>
    rw [Bool.and_eq_true, decide_eq_true_eq] at htrail
    obtain ⟨hterminal, hhigh⟩ := htrail
    dsimp only
    rw [List.flatMap_append, List.mem_append, hscan, List.flatMap_singleton,
      GapMarker.mem_numbers, hrows]
    dsimp only
    constructor
    · rintro (⟨hlow, hlt, hnot⟩ | ⟨hlast, hle⟩)
      · exact ⟨hlow, fun hs => hnot ⟨hs, hlow⟩, .inl ((habove hlow).mp hlt)⟩
      · have hlow : seedOf afterSeq < n := lt_of_le_of_lt hseed hlast
        exact ⟨hlow, hfree hlast hlow, .inr ⟨hterminal, by omega⟩⟩
    · rintro ⟨hlow, hnot, hbelow | ⟨-, hle⟩⟩
      · exact .inl ⟨hlow, (habove hlow).mpr hbelow, fun hs => hnot hs.1⟩
      · by_cases hlast : (scanRows (seedOf afterSeq) (readEvents j afterSeq)).2 < n
        · exact .inr ⟨hlast, by omega⟩
        · exact .inl ⟨hlow, hnear hlow hnot hlast, fun hs => hnot hs.1⟩
  · next htrail =>
    rw [Bool.and_eq_true, decide_eq_true_eq, not_and] at htrail
    rw [hscan, hrows]
    constructor
    · rintro ⟨hlow, hlt, hnot⟩
      exact ⟨hlow, fun hs => hnot ⟨hs, hlow⟩, .inl ((habove hlow).mp hlt)⟩
    · rintro ⟨hlow, hnot, hbelow | ⟨hterminal, hle⟩⟩
      · exact ⟨hlow, (habove hlow).mpr hbelow, fun hs => hnot hs.1⟩
      · have hhigh := htrail hterminal
        exact ⟨hlow, hnear hlow hnot (by omega), fun hs => hnot hs.1⟩

theorem EventJournal.Positive.pairwise_lostNumbers (h : j.Positive) :
    (lostNumbers (readEventsWithGaps j atState atHighWater afterSeq)).Pairwise (· < ·) := by
  have hasc := h.ascends afterSeq
  unfold lostNumbers readEventsWithGaps
  dsimp only
  split
  · dsimp only
    rw [List.flatMap_append, List.flatMap_singleton, List.pairwise_append]
    refine ⟨pairwise_scanRows hasc, GapMarker.pairwise_numbers _, ?_⟩
    intro a ha b hb
    have hlow := ((mem_scanRows hasc).mp ha).2.1
    have hhigh := (GapMarker.mem_numbers.mp hb).1
    exact lt_trans hlow hhigh
  · exact pairwise_scanRows hasc

end Read

end CliAgentOrchestrator.Workflow
