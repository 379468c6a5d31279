import CliAgentOrchestrator.Workflow.Events

/-!
# Declared gaps

The writer of a run's events and a reader between its steps. An emission allocates its number,
records it as the high water and appends its event, in that order and each of the two writes
on its own; a drive ends with the terminal state, a resume rebuilds the counter from the
journal. A trailing gap is declared for a terminal run up to the high water, so it is a loss
unless the events it spans land after the rows were read.
-/

set_option autoImplicit false

namespace CliAgentOrchestrator.Workflow

open Library

/-! ## The writer -/

/-- Where the one drive of the run stands: none, a resume that has rebuilt its record, between
two emissions, or inside one. -/
inductive WriterPhase
  | gone
  | reopening
  | idle
  | allocated (seq : Nat)
  | persisted (seq : Nat)

/-- The journal of the run, the counter of the record registered for it, and its drive. -/
structure EventWriter where
  journal : EventJournal := {}
  eventSeq : Option Nat := none
  phase : WriterPhase := .idle

/-- A run just started; its row may have failed to be written.
SOURCE: services/workflow_service.py:287-311, 1197-1209 -/
def EventWriter.started (inserted : Bool) : EventWriter where
  journal := { state := if inserted then some .running else none }
  eventSeq := some 0

/-- The counter a rebuild starts from.
SOURCE: services/workflow_service.py:1458-1490 -/
def EventWriter.reseed (w : EventWriter) : Nat :=
  max (persistedHighWater w.journal) (max (maxEventSeq w.journal) (w.eventSeq.getD 0))

/-- The steps of a writer; `ok` says whether the write behind the step goes through. A
`stateWrite` is one a cancel, its recovery or the background backstop makes. -/
inductive WriterStep
  | allocate
  | persistHighWater (ok : Bool)
  | append (eventType : String) (ok : Bool)
  | settle (state : RunState) (ok : Bool)
  | stateWrite (state : RunState) (ok : Bool)
  | resume
  | reopen (ok : Bool)
  | rebuild
  | crash

/-- A write that may fail. -/
def attempt (ok : Bool) (write : EventJournal → EventJournal) (j : EventJournal) : EventJournal :=
  if ok then write j else j

/-- SOURCE: services/workflow_service.py:438-508, 1083-1120, 1586-1720 -/
def EventWriter.exec (w : EventWriter) : WriterStep → EventWriter
  | .allocate =>
    match w.phase, w.eventSeq with
    | .idle, some seq => { w with eventSeq := some (seq + 1), phase := .allocated (seq + 1) }
    | _, _ => w
  | .persistHighWater ok =>
    match w.phase with
    | .allocated seq =>
      { w with
        journal := attempt ok (persistHighWater · seq) w.journal
        phase := .persisted seq }
    | _ => w
  | .append eventType ok =>
    match w.phase with
    | .persisted seq =>
      { w with
        journal := attempt ok (appendEvent · ⟨seq, eventType⟩) w.journal
        phase := .idle }
    | _ => w
  | .settle state ok =>
    match w.phase with
    | .idle =>
      { w with journal := attempt ok (updateRunState · state) w.journal, phase := .gone }
    | _ => w
  | .stateWrite state ok => { w with journal := attempt ok (updateRunState · state) w.journal }
  | .resume =>
    match w.phase, w.journal.state with
    | .gone, some state =>
      if state = .completed then w
      else { w with eventSeq := some w.reseed, phase := .reopening }
    | _, _ => w
  | .reopen ok =>
    match w.phase with
    | .reopening =>
      { w with journal := attempt ok (updateRunState · .running) w.journal, phase := .idle }
    | _ => w
  | .rebuild =>
    match w.phase, w.eventSeq, w.journal.state with
    | .gone, none, some _ => { w with eventSeq := some w.reseed }
    | _, _, _ => w
  | .crash => { w with eventSeq := none, phase := .gone }

/-! ## What a run keeps -/

/-- The counter is at or above every number that reached the journal, and the number of an
emission under way is above all of them until its own writes. -/
structure EventWriter.Numbered (w : EventWriter) : Prop where
  positive : w.journal.Positive
  counter : ∀ c, w.eventSeq = some c →
    persistedHighWater w.journal ≤ c ∧ ∀ n, w.journal.Stored n → n ≤ c
  allocated : ∀ n, w.phase = .allocated n →
    w.eventSeq = some n ∧ persistedHighWater w.journal < n ∧ ∀ m, w.journal.Stored m → m < n
  persisted : ∀ n, w.phase = .persisted n →
    w.eventSeq = some n ∧ 0 < n ∧ ∀ m, w.journal.Stored m → m < n

/-- A number that reached the journal, or lies below one, and whose event neither landed nor is
on its way. -/
structure EventWriter.Lost (w : EventWriter) (n : Nat) : Prop where
  spent : n ≤ persistedHighWater w.journal ∨ ∃ m, w.journal.Stored m ∧ n < m
  unstored : ¬ w.journal.Stored n
  idle : w.phase ≠ .persisted n

variable {w : EventWriter} {n : Nat}

theorem EventWriter.numbered_started (inserted : Bool) :
    (EventWriter.started inserted).Numbered where
  positive := by
    intro n hn
    cases hn
  counter := by
    intro c hc
    refine ⟨Nat.zero_le c, ?_⟩
    intro n hn
    cases hn
  allocated := by
    intro n hn
    cases hn
  persisted := by
    intro n hn
    cases hn

theorem EventWriter.le_reseed (w : EventWriter) :
    persistedHighWater w.journal ≤ w.reseed ∧ ∀ n, w.journal.Stored n → n ≤ w.reseed := by
  unfold EventWriter.reseed
  refine ⟨le_max_left _ _, ?_⟩
  intro n hn
  exact le_max_of_le_right (le_max_of_le_left (le_maxEventSeq hn))

/-- A write of the state leaves the numbers alone. -/
theorem stored_attempt_state (ok : Bool) (state : RunState) (j : EventJournal) (n : Nat) :
    (attempt ok (updateRunState · state) j).Stored n ↔ j.Stored n := by
  cases ok <;> rfl

theorem highWater_attempt_state (ok : Bool) (state : RunState) (j : EventJournal) :
    persistedHighWater (attempt ok (updateRunState · state) j) = persistedHighWater j := by
  cases ok <;> rfl

theorem stored_attempt_highWater (ok : Bool) (seq : Nat) (j : EventJournal) (n : Nat) :
    (attempt ok (persistHighWater · seq) j).Stored n ↔ j.Stored n := by
  cases ok <;> rfl

theorem highWater_attempt_highWater (ok : Bool) (seq : Nat) (j : EventJournal) :
    persistedHighWater j ≤ persistedHighWater (attempt ok (persistHighWater · seq) j) ∧
      persistedHighWater (attempt ok (persistHighWater · seq) j) ≤
        max (persistedHighWater j) seq := by
  cases ok with
  | false => exact ⟨le_rfl, le_max_left _ _⟩
  | true =>
    show _ ≤ persistedHighWater (persistHighWater j seq) ∧
      persistedHighWater (persistHighWater j seq) ≤ _
    rw [persistedHighWater_persistHighWater]
    exact ⟨le_max_left _ _, le_rfl⟩

theorem highWater_attempt_append (ok : Bool) (e : EventRow) (j : EventJournal) :
    persistedHighWater (attempt ok (appendEvent · e) j) = persistedHighWater j := by
  cases ok <;> rfl

theorem stored_attempt_append {ok : Bool} {e : EventRow} {j : EventJournal} {n : Nat}
    (h : (attempt ok (appendEvent · e) j).Stored n) : j.Stored n ∨ n = e.seq := by
  cases ok with
  | false => exact .inl h
  | true => exact (stored_appendEvent j n e).mp h

theorem stored_attempt_append_of {ok : Bool} {e : EventRow} {j : EventJournal} {n : Nat}
    (h : j.Stored n) : (attempt ok (appendEvent · e) j).Stored n := by
  cases ok with
  | false => exact h
  | true => exact (stored_appendEvent j n e).mpr (.inl h)

/-- A step that writes at most the state, and leaves no emission under way. -/
theorem EventWriter.Numbered.of_state (h : w.Numbered) {w' : EventWriter}
    (hstored : ∀ n, w'.journal.Stored n ↔ w.journal.Stored n)
    (hhigh : persistedHighWater w'.journal = persistedHighWater w.journal)
    (hcounter : ∀ c, w'.eventSeq = some c →
      persistedHighWater w.journal ≤ c ∧ ∀ n, w.journal.Stored n → n ≤ c)
    (hphase : w'.phase = .gone ∨ w'.phase = .idle ∨ w'.phase = .reopening) : w'.Numbered where
  positive := by
    intro n hn
    exact h.positive n ((hstored n).mp hn)
  counter := by
    intro c hc
    obtain ⟨hle, hall⟩ := hcounter c hc
    rw [hhigh]
    exact ⟨hle, fun n hn => hall n ((hstored n).mp hn)⟩
  allocated := by
    intro n hn
    rw [hn] at hphase
    obtain hphase | hphase | hphase := hphase <;> cases hphase
  persisted := by
    intro n hn
    rw [hn] at hphase
    obtain hphase | hphase | hphase := hphase <;> cases hphase

/-- A number that reaches the journal lies above every stored event. -/
theorem EventWriter.Numbered.persistHighWater (h : w.Numbered) (ok : Bool) :
    (w.exec (.persistHighWater ok)).Numbered := by
  simp only [EventWriter.exec]
  split
  · next seq hphase =>
    obtain ⟨hseq, hhigh, hall⟩ := h.allocated seq hphase
    obtain ⟨-, hmax⟩ := highWater_attempt_highWater ok seq w.journal
    refine ⟨?_, ?_, ?_, ?_⟩
    · intro n hn
      exact h.positive n ((stored_attempt_highWater ok seq w.journal n).mp hn)
    · intro c hc
      cases hseq.symm.trans hc
      refine ⟨hmax.trans (max_le hhigh.le le_rfl), ?_⟩
      intro n hn
      exact (hall n ((stored_attempt_highWater ok seq w.journal n).mp hn)).le
    · intro n hn
      cases hn
    · intro n hn
      cases hn
      refine ⟨hseq, Nat.zero_lt_of_lt hhigh, ?_⟩
      intro m hm
      exact hall m ((stored_attempt_highWater ok seq w.journal m).mp hm)
  · exact h

/-- An event that lands takes the highest number so far. -/
theorem EventWriter.Numbered.append (h : w.Numbered) (eventType : String) (ok : Bool) :
    (w.exec (.append eventType ok)).Numbered := by
  simp only [EventWriter.exec]
  split
  · next seq hphase =>
    obtain ⟨hseq, hpos, hall⟩ := h.persisted seq hphase
    obtain ⟨hhigh, -⟩ := h.counter seq hseq
    refine ⟨?_, ?_, ?_, ?_⟩
    · intro n hn
      obtain hold | rfl := stored_attempt_append hn
      · exact h.positive n hold
      · exact hpos
    · intro c hc
      cases hseq.symm.trans hc
      dsimp only
      rw [highWater_attempt_append]
      refine ⟨hhigh, ?_⟩
      intro n hn
      obtain hold | rfl := stored_attempt_append hn
      · exact (hall n hold).le
      · exact le_rfl
    · intro n hn
      cases hn
    · intro n hn
      cases hn
  · exact h

/-- Each step of the writer keeps the numbers. -/
theorem EventWriter.Numbered.exec (h : w.Numbered) (a : WriterStep) : (w.exec a).Numbered := by
  cases a with
  | allocate =>
    simp only [EventWriter.exec]
    split
    · next seq hphase hseq =>
      obtain ⟨hhigh, hall⟩ := h.counter seq hseq
      refine ⟨h.positive, ?_, ?_, ?_⟩
      · intro c hc
        cases hc
        exact ⟨Nat.le_succ_of_le hhigh, fun n hn => Nat.le_succ_of_le (hall n hn)⟩
      · intro n hn
        cases hn
        exact ⟨rfl, Nat.lt_succ_of_le hhigh, fun m hm => Nat.lt_succ_of_le (hall m hm)⟩
      · intro n hn
        cases hn
    · exact h
  | persistHighWater ok => exact h.persistHighWater ok
  | append eventType ok => exact h.append eventType ok
  | settle state ok =>
    simp only [EventWriter.exec]
    split
    · exact h.of_state (stored_attempt_state ok state w.journal)
        (highWater_attempt_state ok state w.journal) h.counter (.inl rfl)
    · exact h
  | stateWrite state ok =>
    refine ⟨?_, ?_, ?_, ?_⟩
    · intro n hn
      exact h.positive n ((stored_attempt_state ok state w.journal n).mp hn)
    · intro c hc
      obtain ⟨hle, hall⟩ := h.counter c hc
      refine ⟨(highWater_attempt_state ok state w.journal).trans_le hle, ?_⟩
      intro n hn
      exact hall n ((stored_attempt_state ok state w.journal n).mp hn)
    · intro n hn
      obtain ⟨hseq, hhigh, hall⟩ := h.allocated n hn
      refine ⟨hseq, (highWater_attempt_state ok state w.journal).trans_lt hhigh, ?_⟩
      intro m hm
      exact hall m ((stored_attempt_state ok state w.journal m).mp hm)
    · intro n hn
      obtain ⟨hseq, hpos, hall⟩ := h.persisted n hn
      refine ⟨hseq, hpos, ?_⟩
      intro m hm
      exact hall m ((stored_attempt_state ok state w.journal m).mp hm)
  | resume =>
    simp only [EventWriter.exec]
    split
    · split
      · exact h
      · refine h.of_state (fun _ => Iff.rfl) rfl ?_ (.inr (.inr rfl))
        intro c hc
        cases hc
        exact w.le_reseed
    · exact h
  | reopen ok =>
    simp only [EventWriter.exec]
    split
    · exact h.of_state (stored_attempt_state ok .running w.journal)
        (highWater_attempt_state ok .running w.journal) h.counter (.inr (.inl rfl))
    · exact h
  | rebuild =>
    simp only [EventWriter.exec]
    split
    · next hphase _ _ =>
      refine h.of_state (fun _ => Iff.rfl) rfl ?_ (.inl hphase)
      intro c hc
      cases hc
      exact w.le_reseed
    · exact h
  | crash =>
    refine h.of_state (fun _ => Iff.rfl) rfl ?_ (.inl rfl)
    intro c hc
    cases hc

/-- What is lost stays lost while the journal grows beside it. -/
theorem EventWriter.Lost.of_grown (h : w.Lost n) {w' : EventWriter}
    (hhigh : persistedHighWater w.journal ≤ persistedHighWater w'.journal)
    (hkept : ∀ m, w.journal.Stored m → w'.journal.Stored m)
    (hnew : w'.journal.Stored n → w.journal.Stored n) (hphase : w'.phase ≠ .persisted n) :
    w'.Lost n where
  spent := by
    obtain hspent | ⟨m, hm, hlt⟩ := h.spent
    · exact .inl (hspent.trans hhigh)
    · exact .inr ⟨m, hkept m hm, hlt⟩
  unstored := fun hn => h.unstored (hnew hn)
  idle := hphase

/-- The counter never comes back to a number that is lost. -/
theorem EventWriter.Lost.exec (hw : w.Numbered) (h : w.Lost n) (a : WriterStep) :
    (w.exec a).Lost n := by
  have hallocated : w.phase ≠ .allocated n := by
    intro hphase
    obtain ⟨-, hhigh, hall⟩ := hw.allocated n hphase
    obtain hspent | ⟨m, hm, hlt⟩ := h.spent
    · omega
    · have := hall m hm
      omega
  have hstate : ∀ (ok : Bool) (state : RunState) (phase : WriterPhase), phase ≠ .persisted n →
      EventWriter.Lost { w with journal := attempt ok (updateRunState · state) w.journal
                                phase := phase } n := by
    intro ok state phase hphase
    refine h.of_grown (highWater_attempt_state ok state w.journal).ge ?_ ?_ hphase
    · exact fun m hm => (stored_attempt_state ok state w.journal m).mpr hm
    · exact fun hn => (stored_attempt_state ok state w.journal n).mp hn
  cases a with
  | allocate =>
    simp only [EventWriter.exec]
    split
    · exact h.of_grown le_rfl (fun _ => id) id (by simp)
    · exact h
  | persistHighWater ok =>
    simp only [EventWriter.exec]
    split
    · next seq hphase =>
      refine h.of_grown (highWater_attempt_highWater ok seq w.journal).1 ?_ ?_ ?_
      · exact fun m hm => (stored_attempt_highWater ok seq w.journal m).mpr hm
      · exact fun hn => (stored_attempt_highWater ok seq w.journal n).mp hn
      · intro heq
        cases heq
        exact hallocated hphase
    · exact h
  | append eventType ok =>
    simp only [EventWriter.exec]
    split
    · next seq hphase =>
      refine h.of_grown (highWater_attempt_append ok _ w.journal).ge ?_ ?_ (by simp)
      · exact fun m hm => stored_attempt_append_of hm
      · intro hn
        obtain hold | rfl := stored_attempt_append hn
        · exact hold
        · exact absurd hphase h.idle
    · exact h
  | settle state ok =>
    simp only [EventWriter.exec]
    split
    · exact hstate ok state .gone (by simp)
    · exact h
  | stateWrite state ok => exact hstate ok state w.phase h.idle
  | resume =>
    simp only [EventWriter.exec]
    split
    · split
      · exact h
      · exact h.of_grown le_rfl (fun _ => id) id (by simp)
    · exact h
  | reopen ok =>
    simp only [EventWriter.exec]
    split
    · exact hstate ok .running .idle (by simp)
    · exact h
  | rebuild =>
    simp only [EventWriter.exec]
    split
    · exact h.of_grown le_rfl (fun _ => id) id h.idle
    · exact h
  | crash => exact h.of_grown le_rfl (fun _ => id) id (by simp [EventWriter.exec])

/-- Rows are never taken away. -/
theorem EventWriter.stored_exec (a : WriterStep) (h : w.journal.Stored n) :
    (w.exec a).journal.Stored n := by
  cases a with
  | persistHighWater ok =>
    simp only [EventWriter.exec]
    split
    · exact (stored_attempt_highWater ..).mpr h
    · exact h
  | append eventType ok =>
    simp only [EventWriter.exec]
    split
    · exact stored_attempt_append_of h
    · exact h
  | stateWrite state ok => exact (stored_attempt_state ..).mpr h
  | crash => exact h
  | allocate | rebuild =>
    simp only [EventWriter.exec]
    split <;> exact h
  | resume =>
    simp only [EventWriter.exec]
    split
    · split <;> exact h
    · exact h
  | _ =>
    simp only [EventWriter.exec]
    split
    · exact (stored_attempt_state ..).mpr h
    · exact h

/-- Without a writer, and with none resumed, the numbers of the journal stand. -/
theorem EventWriter.exec_of_gone {a : WriterStep} (h : w.phase = .gone) (ha : a ≠ .resume) :
    (w.exec a).phase = .gone ∧ (∀ n, (w.exec a).journal.Stored n ↔ w.journal.Stored n) ∧
      persistedHighWater (w.exec a).journal = persistedHighWater w.journal := by
  cases a with
  | stateWrite state ok =>
    exact ⟨h, stored_attempt_state ok state w.journal, highWater_attempt_state ok state w.journal⟩
  | resume => exact absurd rfl ha
  | crash => exact ⟨rfl, fun _ => Iff.rfl, rfl⟩
  | rebuild =>
    simp only [EventWriter.exec]
    split <;> exact ⟨h, fun _ => Iff.rfl, rfl⟩
  | allocate | persistHighWater ok | append eventType ok | settle state ok | reopen ok =>
    simp [EventWriter.exec, h]

theorem EventWriter.run_of_gone (h : w.phase = .gone) {steps : List WriterStep}
    (hsteps : .resume ∉ steps) :
    (∀ n, (run EventWriter.exec w steps).journal.Stored n ↔ w.journal.Stored n) ∧
      persistedHighWater (run EventWriter.exec w steps).journal =
        persistedHighWater w.journal := by
  induction steps generalizing w with
  | nil => exact ⟨fun _ => Iff.rfl, rfl⟩
  | cons a rest ih =>
    rw [List.mem_cons, not_or] at hsteps
    obtain ⟨hphase, hstored, hhigh⟩ := exec_of_gone h (Ne.symm hsteps.1)
    obtain ⟨hstored', hhigh'⟩ := ih hphase hsteps.2
    exact ⟨fun n => (hstored' n).trans (hstored n), hhigh'.trans hhigh⟩

theorem EventWriter.Numbered.run (h : w.Numbered) (steps : List WriterStep) :
    (run EventWriter.exec w steps).Numbered :=
  run_invariant EventWriter.Numbered (fun _ a hs => hs.exec a) w h steps

theorem EventWriter.Lost.run (hw : w.Numbered) (h : w.Lost n) (steps : List WriterStep) :
    (run EventWriter.exec w steps).Lost n :=
  (run_invariant (fun s => s.Numbered ∧ s.Lost n) (fun _ a hs => ⟨hs.1.exec a, hs.2.exec hs.1 a⟩)
    w ⟨hw, h⟩ steps).2

/-! ## A read between the steps -/

/-- Every number a read declares lost is one whose event never lands. -/
def GapsAreLosses (atEvents atState atHighWater : EventWriter) (afterSeq : Option Int) : Prop :=
  ∀ n ∈ lostNumbers (readEventsWithGaps atEvents.journal atState.journal atHighWater.journal
    afterSeq), ∀ later, ¬ (run EventWriter.exec atHighWater later).journal.Stored n

/-- Rows and gaps share out the numbers above the cursor, each once, and a read from the start
is what lies within the cursor followed by the read from it. -/
structure ReadPartitions (atEvents atState atHighWater : EventJournal) (afterSeq : Option Int) :
    Prop where
  distinct : ((readEvents atEvents afterSeq).map EventRow.seq ++
    lostNumbers (readEventsWithGaps atEvents atState atHighWater afterSeq)).Nodup
  covered : ∀ n, n ∈ (readEvents atEvents afterSeq).map EventRow.seq ++
      lostNumbers (readEventsWithGaps atEvents atState atHighWater afterSeq) ↔
    seedOf afterSeq < n ∧ n ≤ max (persistedHighWater atHighWater) (maxEventSeq atEvents)
  rows : readEvents atEvents none =
    (readEvents atEvents none).filter (fun row => decide (row.seq ≤ seedOf afterSeq)) ++
      readEvents atEvents afterSeq
  gaps : lostNumbers (readEventsWithGaps atEvents atState atHighWater none) =
    (lostNumbers (readEventsWithGaps atEvents atState atHighWater none)).filter
        (fun n => decide (n ≤ seedOf afterSeq)) ++
      lostNumbers (readEventsWithGaps atEvents atState atHighWater afterSeq)

/-- For a run seen terminal, no event up to the high water lands between the first and the
last select, nor is one about to. -/
def ReadUndisturbed (atEvents atState atHighWater : EventWriter) (afterSeq : Option Int) : Prop :=
  isTerminalRun atState.journal = true → ∀ n, seedOf afterSeq < n →
    n ≤ persistedHighWater atHighWater.journal →
      (atHighWater.journal.Stored n → atEvents.journal.Stored n) ∧
        atHighWater.phase ≠ .persisted n

/-- An ascending list is what lies within a bound followed by the rest. -/
theorem eq_filter_append {α : Type} (f : α → ℕ) {l m : List α} {c : ℕ}
    (hl : l.Pairwise fun a b => f a < f b) (hm : m.Pairwise fun a b => f a < f b)
    (hmem : ∀ a, a ∈ m ↔ a ∈ l ∧ c < f a) :
    l = l.filter (fun a => decide (f a ≤ c)) ++ m := by
  have : Std.Irrefl fun a b : α => f a < f b := ⟨fun a => lt_irrefl (f a)⟩
  refine hl.eq_of_mem_iff ?_ ?_
  · refine List.pairwise_append.mpr ⟨hl.filter _, hm, ?_⟩
    intro a ha b hb
    have hlow := of_decide_eq_true (List.mem_filter.mp ha).2
    exact lt_of_le_of_lt hlow ((hmem b).mp hb).2
  · intro a
    rw [List.mem_append, List.mem_filter, hmem, decide_eq_true_eq]
    constructor
    · intro ha
      obtain hle | hlt := le_or_gt (f a) c
      · exact .inl ⟨ha, hle⟩
      · exact .inr ⟨ha, hlt⟩
    · rintro (⟨ha, -⟩ | ⟨ha, -⟩) <;> exact ha

/-- A read of a terminal run whose numbers stood still. -/
theorem readPartitions {j atState atHighWater : EventJournal} (hj : j.Positive)
    (hterminal : isTerminalRun atState = true) (afterSeq : Option Int) :
    ReadPartitions j atState atHighWater afterSeq where
  distinct := by
    rw [List.nodup_append]
    refine ⟨?_, hj.pairwise_lostNumbers.imp fun h => Nat.ne_of_lt h, ?_⟩
    · exact List.Pairwise.map _ (fun _ _ h => Nat.ne_of_lt h) (pairwise_readEvents j afterSeq)
    · rintro n hrow _ hlost rfl
      exact ((hj.mem_lostNumbers n).mp hlost).2.1 ((hj.mem_rows afterSeq n).mp hrow).1
  covered := by
    intro n
    rw [List.mem_append, hj.mem_rows, hj.mem_lostNumbers, le_max_iff]
    have hmax : n ≤ maxEventSeq j ↔ n = 0 ∨ j.Stored n ∨ ∃ m, j.Stored m ∧ n < m := by
      constructor
      · intro hle
        obtain hzero | hstored := maxEventSeq_mem j
        · exact .inl (by omega)
        · obtain rfl | hlt := Nat.eq_or_lt_of_le hle
          · exact .inr (.inl hstored)
          · exact .inr (.inr ⟨_, hstored, hlt⟩)
      · rintro (rfl | hstored | ⟨m, hm, hlt⟩)
        · exact Nat.zero_le _
        · exact le_maxEventSeq hstored
        · exact hlt.le.trans (le_maxEventSeq hm)
    rw [hmax]
    constructor
    · rintro (⟨hstored, hlow⟩ | ⟨hlow, -, hbelow | ⟨-, hle⟩⟩)
      · exact ⟨hlow, .inr (.inr (.inl hstored))⟩
      · exact ⟨hlow, .inr (.inr (.inr hbelow))⟩
      · exact ⟨hlow, .inl hle⟩
    · rintro ⟨hlow, hbound⟩
      by_cases hstored : j.Stored n
      · exact .inl ⟨hstored, hlow⟩
      · refine .inr ⟨hlow, hstored, ?_⟩
        obtain hle | rfl | hstored' | hbelow := hbound
        · exact .inr ⟨hterminal, hle⟩
        · omega
        · exact absurd hstored' hstored
        · exact .inl hbelow
  rows := by
    refine eq_filter_append EventRow.seq (pairwise_readEvents j none)
      (pairwise_readEvents j afterSeq) ?_
    intro row
    rw [mem_readEvents, mem_readEvents]
    constructor
    · rintro ⟨hrow, hafter⟩
      have hpos := hj row.seq ((stored_iff j _).mpr ⟨row, hrow, rfl⟩)
      exact ⟨⟨hrow, by simp⟩, (seedOf_lt_iff hpos).mpr hafter⟩
    · rintro ⟨⟨hrow, -⟩, hlow⟩
      have hpos := hj row.seq ((stored_iff j _).mpr ⟨row, hrow, rfl⟩)
      exact ⟨hrow, (seedOf_lt_iff hpos).mp hlow⟩
  gaps := by
    refine eq_filter_append id hj.pairwise_lostNumbers hj.pairwise_lostNumbers ?_
    intro n
    rw [hj.mem_lostNumbers, hj.mem_lostNumbers]
    show seedOf afterSeq < n ∧ _ ↔ (0 < n ∧ _) ∧ seedOf afterSeq < n
    constructor
    · rintro ⟨hlow, hrest⟩
      exact ⟨⟨Nat.zero_lt_of_lt hlow, hrest⟩, hlow⟩
    · rintro ⟨⟨-, hrest⟩, hlow⟩
      exact ⟨hlow, hrest⟩

/-- What a read between the steps declares lost is lost exactly when the read is undisturbed. -/
theorem gapsAreLosses_iff (hw : w.Numbered) (mid late : List WriterStep) (afterSeq : Option Int) :
    GapsAreLosses w (run EventWriter.exec w mid)
        (run EventWriter.exec (run EventWriter.exec w mid) late) afterSeq ↔
      ReadUndisturbed w (run EventWriter.exec w mid)
        (run EventWriter.exec (run EventWriter.exec w mid) late) afterSeq := by
  rw [← run_append]
  have hlast : (run EventWriter.exec w (mid ++ late)).Numbered := hw.run _
  have hkept : ∀ n, w.journal.Stored n →
      (run EventWriter.exec w (mid ++ late)).journal.Stored n := by
    intro n hn
    exact run_invariant (fun s => s.journal.Stored n) (fun _ a hs => EventWriter.stored_exec a hs)
      w hn _
  constructor
  · intro hreal hterminal n hlow hle
    have hlost : ¬ w.journal.Stored n →
        ∀ later, ¬ (run EventWriter.exec (run EventWriter.exec w (mid ++ late))
          later).journal.Stored n := by
      intro hnot
      exact hreal n ((hw.positive.mem_lostNumbers n).mpr
        ⟨hlow, hnot, .inr ⟨hterminal, hle⟩⟩)
    refine ⟨?_, ?_⟩
    · intro hstored
      by_contra hnot
      exact hlost hnot [] hstored
    · intro hphase
      have hfree : ¬ w.journal.Stored n := by
        intro hn
        exact lt_irrefl n ((hlast.persisted n hphase).2.2 n (hkept n hn))
      refine hlost hfree [.append "" true] ?_
      rw [run_singleton]
      simp only [EventWriter.exec, hphase]
      exact (stored_appendEvent _ n ⟨n, ""⟩).mpr (.inr rfl)
  · intro hquiet n hn later
    obtain ⟨hlow, hnot, hbelow | ⟨hterminal, hle⟩⟩ := (hw.positive.mem_lostNumbers n).mp hn
    · have hlost : w.Lost n := by
        refine ⟨.inr hbelow, hnot, ?_⟩
        intro hphase
        obtain ⟨m, hm, hlt⟩ := hbelow
        exact absurd ((hw.persisted n hphase).2.2 m hm) (by omega)
      exact ((hlost.run hw (mid ++ late)).run hlast later).unstored
    · obtain ⟨hstood, hphase⟩ := hquiet hterminal n hlow hle
      have hlost : (run EventWriter.exec w (mid ++ late)).Lost n :=
        ⟨.inl hle, fun hs => hnot (hstood hs), hphase⟩
      exact (hlost.run hlast later).unstored

/-- In every run and at every three moments of it, a read declares losses only, and for a
terminal run without a writer shares out the numbers, exactly when no event up to the high
water lands during the read or is about to. -/
theorem declared_gaps_real_iff (inserted : Bool) (before mid late : List WriterStep)
    (afterSeq : Option Int) :
    let atEvents := run EventWriter.exec (EventWriter.started inserted) before
    let atState := run EventWriter.exec atEvents mid
    let atHighWater := run EventWriter.exec atState late
    (GapsAreLosses atEvents atState atHighWater afterSeq ∧
        (atEvents.phase = .gone → .resume ∉ mid ++ late →
          isTerminalRun atState.journal = true →
          (∀ n, atHighWater.journal.Stored n ↔ atEvents.journal.Stored n) ∧
            ReadPartitions atEvents.journal atState.journal atHighWater.journal afterSeq)) ↔
      ReadUndisturbed atEvents atState atHighWater afterSeq := by
  intro atEvents atState atHighWater
  have hw : atEvents.Numbered := (EventWriter.numbered_started inserted).run before
  rw [gapsAreLosses_iff hw mid late afterSeq, and_iff_left]
  intro hgone hresume hterminal
  refine ⟨?_, readPartitions hw.positive hterminal afterSeq⟩
  show ∀ n, (run EventWriter.exec (run EventWriter.exec atEvents mid) late).journal.Stored n ↔ _
  rw [← run_append]
  exact (EventWriter.run_of_gone hgone hresume).1

/-- A run that starts, is read, completes, and is asked for its state and high water. -/
theorem landed_event_declared_lost :
    ¬ ∀ (inserted : Bool) (before mid late : List WriterStep) (afterSeq : Option Int),
      GapsAreLosses (run EventWriter.exec (EventWriter.started inserted) before)
        (run EventWriter.exec (run EventWriter.exec (EventWriter.started inserted) before) mid)
        (run EventWriter.exec (run EventWriter.exec
          (run EventWriter.exec (EventWriter.started inserted) before) mid) late) afterSeq := by
  intro h
  have hlost := h true [.allocate, .persistHighWater true, .append "run.started" true]
    [.allocate, .persistHighWater true, .append "run.completed" true, .settle .completed true]
    [] none 2 (by decide) []
  exact hlost (by unfold EventJournal.Stored; decide)

end CliAgentOrchestrator.Workflow
