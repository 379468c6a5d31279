import CliAgentOrchestrator.Memory.Topic
import CliAgentOrchestrator.Library.Machine

/-!
# Stores, forgets and compiles of one topic

Calls of one topic in any interleaving. A store and a background compile hold the topic's lock from
before they read the file until after their last write; a forget takes no lock. File, index entry
and metadata row are written one after another, so between the first and the last write of a call
they need not agree. The header a store rewrites is the first text of its shape in the file: a
content that looks like one can be written over.
-/

set_option autoImplicit false

namespace CliAgentOrchestrator.Memory

open Library

/-- A call of `store`, past its checks: the clock is read before the lock is taken. -/
structure StoreCall where
  entry : Entry
  now : Datetime
  fresh : Text

/-- The file `store` makes of the one it read; none where it raises. -/
def StoreCall.write (key : Text) (c : StoreCall) (existing : Option Text) : Option Text :=
  (storeText key c.fresh c.entry c.now existing).toOption.map Written.text

/-! ## Calls in progress -/

/-- Where a call stands, with what it has read. -/
inductive Thread where
  | idle
  | storeCalled (c : StoreCall)
  | storeLocked (c : StoreCall)
  | storeRead (c : StoreCall) (existing : Option Text)
  | storeWritten
  | storeIndexed
  | forgetCalled
  | forgetFound
  | forgetMissing
  | forgetUnlinked
  | forgetUnindexed
  | compileCalled (job : Text) (output : Text)
  | compileLocked (job : Text) (output : Text)
  | compileMatched (job : Text) (output : Text)
  | compileWritten
  | leaving

/-- The topic and the calls on it. A job of a compile is the text it starts from, the article with
the new entry under it, which is what the file must still read as when it is done. `owed` are the
contents stored since the file was last unlinked, `inputs` what the compiles that were written back
started from; no call looks at either. -/
structure World where
  file : Option Text
  indexed : Bool
  recorded : Bool
  lock : Option Nat
  threads : Nat → Thread
  jobs : List Text
  owed : List Text
  inputs : List Text

/-- A topic nobody works on. -/
def World.start (file : Option Text) : World :=
  ⟨file, file.isSome, file.isSome, none, fun _ => .idle, [], [], []⟩

def World.set (w : World) (i : Nat) (thread : Thread) : World :=
  { w with threads := Function.update w.threads i thread }

/-- A call begins, a scheduled compile begins with what the model will answer, or a call takes its
next step. -/
inductive Act where
  | store (i : Nat) (c : StoreCall)
  | forget (i : Nat)
  | compile (i job : Nat) (output : Text)
  | step (i : Nat)

/-- The next step of a call.

SOURCE: services/memory_service.py:807-983 (`store`), 2706-2740
(`forget`), 1227-1275 (`_run_background_compile`) -/
def World.advance (key : Text) (w : World) (i : Nat) : World :=
  match w.threads i with
  | .idle => w
  | .storeCalled c =>
    match w.lock with
    | none => { w with lock := some i }.set i (.storeLocked c)
    | some _ => w
  | .storeLocked c => w.set i (.storeRead c w.file)
  | .storeRead c existing =>
    match c.write key existing with
    | none => w.set i .leaving
    | some t =>
      { w with
        file := some t
        owed := w.owed ++ [c.entry.content]
        jobs := if existing.isSome then w.jobs ++ [t] else w.jobs }.set i .storeWritten
  | .storeWritten => { w with indexed := true }.set i .storeIndexed
  | .storeIndexed => { w with recorded := true }.set i .leaving
  | .forgetCalled =>
    match w.file with
    | none => w.set i .forgetMissing
    | some _ => w.set i .forgetFound
  | .forgetFound =>
    match w.file with
    -- the file went in between: `unlink` raises
    | none => w.set i .idle
    | some _ => { w with file := none, owed := [] }.set i .forgetUnlinked
  | .forgetMissing => { w with recorded := false }.set i .idle
  | .forgetUnlinked => { w with indexed := false }.set i .forgetUnindexed
  | .forgetUnindexed => { w with recorded := false }.set i .idle
  | .compileCalled job output =>
    match w.lock with
    | none => { w with lock := some i }.set i (.compileLocked job output)
    | some _ => w
  | .compileLocked job output =>
    if w.file.map universalNewlines = some job then w.set i (.compileMatched job output)
    else w.set i .leaving
  | .compileMatched job output =>
    { w with file := some output, inputs := w.inputs ++ [job] }.set i .compileWritten
  | .compileWritten => { w with recorded := true }.set i .leaving
  | .leaving => { w with lock := none }.set i .idle

def World.act (key : Text) (w : World) : Act → World
  | .store i c =>
    match w.threads i with
    | .idle => w.set i (.storeCalled c)
    | _ => w
  | .forget i =>
    match w.threads i with
    | .idle => w.set i .forgetCalled
    | _ => w
  | .compile i job output =>
    match w.threads i, w.jobs[job]? with
    | .idle, some t => { w with jobs := w.jobs.eraseIdx job }.set i (.compileCalled t output)
    | _, _ => w
  | .step i => w.advance key i

/-! ## The property -/

/-- No call is in progress. -/
def World.Quiet (w : World) : Prop := ∀ i, w.threads i = .idle

/-- File, index entry and metadata row are there together. -/
def World.Agrees (w : World) : Prop :=
  (w.file.isSome = true ↔ w.indexed = true) ∧ (w.file.isSome = true ↔ w.recorded = true)

/-- A compile that was written back started from a text with the content in it. -/
def World.Taken (w : World) (content : Text) : Prop := ∃ t ∈ w.inputs, content <:+: t

/-- What was stored since the last unlink is in the file, or a compile took it in. -/
def World.Keeps (w : World) : Prop :=
  ∀ content ∈ w.owed, (∃ t, w.file = some t ∧ content <:+: t) ∨ w.Taken content

/-! ## The condition -/

/-- The call is still to write the index entry. -/
def Thread.willIndex : Thread → Bool
  | .storeWritten => true
  | _ => false

/-- The call is still to remove the index entry. -/
def Thread.willUnindex : Thread → Bool
  | .forgetUnlinked => true
  | _ => false

/-- The call is still to write the metadata row. -/
def Thread.willRecord : Thread → Bool
  | .storeWritten | .storeIndexed | .compileWritten => true
  | _ => false

/-- The call is still to delete the metadata row. -/
def Thread.willUnrecord : Thread → Bool
  | .forgetMissing | .forgetUnlinked | .forgetUnindexed => true
  | _ => false

/-- Some call is of this kind. -/
def World.Pending (w : World) (p : Thread → Bool) : Prop := ∃ i, p (w.threads i) = true

/-- What a later store brings back as it stands, wherever the header it rewrites is: a content
without a carriage return, without a line feed at its end, and without the end of a header line. -/
def StoreCall.Plain (c : StoreCall) : Prop :=
  13 ∉ c.entry.content ∧ rstrip (· == 10) c.entry.content = c.entry.content ∧
    NoHeaderEnd c.entry.content

/-- The next write of the call does not contradict the file, or another call is still to undo it;
a compile is not written over a file that is gone; and what a store writes is plain. -/
def World.Harmless (w : World) : Act → Prop
  | .store _ _ | .forget _ | .compile _ _ _ => True
  | .step i =>
    match w.threads i with
    | .storeWritten => w.file = none → w.Pending Thread.willUnindex
    | .storeIndexed | .compileWritten => w.file = none → w.Pending Thread.willUnrecord
    | .forgetUnlinked => w.file ≠ none → w.Pending Thread.willIndex
    | .forgetMissing | .forgetUnindexed => w.file ≠ none → w.Pending Thread.willRecord
    | .compileMatched _ _ => w.file ≠ none
    | .storeRead c _ => c.Plain
    | _ => True

/-! ## What a step changes -/

@[simp] theorem World.set_file (w : World) (i : Nat) (thread : Thread) :
    (w.set i thread).file = w.file := rfl

@[simp] theorem World.set_indexed (w : World) (i : Nat) (thread : Thread) :
    (w.set i thread).indexed = w.indexed := rfl

@[simp] theorem World.set_recorded (w : World) (i : Nat) (thread : Thread) :
    (w.set i thread).recorded = w.recorded := rfl

@[simp] theorem World.set_lock (w : World) (i : Nat) (thread : Thread) :
    (w.set i thread).lock = w.lock := rfl

@[simp] theorem World.set_owed (w : World) (i : Nat) (thread : Thread) :
    (w.set i thread).owed = w.owed := rfl

@[simp] theorem World.set_inputs (w : World) (i : Nat) (thread : Thread) :
    (w.set i thread).inputs = w.inputs := rfl

@[simp] theorem World.set_threads_self (w : World) (i : Nat) (thread : Thread) :
    (w.set i thread).threads i = thread := Function.update_self ..

theorem World.set_threads_of_ne (w : World) {i j : Nat} (h : j ≠ i) (thread : Thread) :
    (w.set i thread).threads j = w.threads j := Function.update_of_ne h ..

/-- Only the call that took the step stands elsewhere. -/
theorem World.threads_set (w : World) (i j : Nat) (thread : Thread) :
    (j = i ∧ (w.set i thread).threads j = thread) ∨ (w.set i thread).threads j = w.threads j := by
  by_cases h : j = i
  · subst h
    exact .inl ⟨rfl, w.set_threads_self j thread⟩
  · exact .inr (w.set_threads_of_ne h thread)

/-- What the next step of a call can do, by where the call stands. -/
inductive Move (key : Text) (w : World) (i : Nat) : Thread → World → Prop where
  | waits (thread : Thread) : Move key w i thread w
  | storeLocks (c : StoreCall) (hlock : w.lock = none) :
      Move key w i (.storeCalled c) ({ w with lock := some i }.set i (.storeLocked c))
  | storeReads (c : StoreCall) : Move key w i (.storeLocked c) (w.set i (.storeRead c w.file))
  | storeRaises (c : StoreCall) (existing : Option Text) :
      Move key w i (.storeRead c existing) (w.set i .leaving)
  | storeWrites (c : StoreCall) (existing : Option Text) (t : Text) (jobs : List Text)
      (hwrite : c.write key existing = some t) :
      Move key w i (.storeRead c existing)
        ({ w with
            file := some t, owed := w.owed ++ [c.entry.content], jobs := jobs }.set i
          .storeWritten)
  | storeIndexes : Move key w i .storeWritten ({ w with indexed := true }.set i .storeIndexed)
  | storeRecords : Move key w i .storeIndexed ({ w with recorded := true }.set i .leaving)
  | forgetMisses : Move key w i .forgetCalled (w.set i .forgetMissing)
  | forgetFinds : Move key w i .forgetCalled (w.set i .forgetFound)
  | forgetRaises : Move key w i .forgetFound (w.set i .idle)
  | forgetUnlinks : Move key w i .forgetFound
      ({ w with file := none, owed := [] }.set i .forgetUnlinked)
  | forgetCleans : Move key w i .forgetMissing ({ w with recorded := false }.set i .idle)
  | forgetUnindexes :
      Move key w i .forgetUnlinked ({ w with indexed := false }.set i .forgetUnindexed)
  | forgetUnrecords : Move key w i .forgetUnindexed ({ w with recorded := false }.set i .idle)
  | compileLocks (job : Text) (output : Text) (hlock : w.lock = none) :
      Move key w i (.compileCalled job output)
        ({ w with lock := some i }.set i (.compileLocked job output))
  | compileMatches (job : Text) (output : Text)
      (hfile : w.file.map universalNewlines = some job) :
      Move key w i (.compileLocked job output) (w.set i (.compileMatched job output))
  | compileDrops (job : Text) (output : Text) :
      Move key w i (.compileLocked job output) (w.set i .leaving)
  | compileWrites (job : Text) (output : Text) :
      Move key w i (.compileMatched job output)
        ({ w with file := some output, inputs := w.inputs ++ [job] }.set i .compileWritten)
  | compileRecords : Move key w i .compileWritten ({ w with recorded := true }.set i .leaving)
  | leaves : Move key w i .leaving ({ w with lock := none }.set i .idle)

/-- The next step of a call is one of these. -/
theorem move_advance (key : Text) (w : World) (i : Nat) :
    Move key w i (w.threads i) (w.advance key i) := by
  unfold World.advance
  cases w.threads i with
  | idle => exact .waits _
  | storeCalled c =>
    cases hlock : w.lock with
    | none => exact .storeLocks c hlock
    | some holder => exact .waits _
  | storeLocked c => exact .storeReads c
  | storeRead c existing =>
    cases hwrite : c.write key existing with
    | none =>
      simp only [hwrite]
      exact .storeRaises c existing
    | some t =>
      simp only [hwrite]
      exact .storeWrites c existing t _ hwrite
  | storeWritten => exact .storeIndexes
  | storeIndexed => exact .storeRecords
  | forgetCalled =>
    cases w.file with
    | none => exact .forgetMisses
    | some d => exact .forgetFinds
  | forgetFound =>
    cases w.file with
    | none => exact .forgetRaises
    | some d => exact .forgetUnlinks
  | forgetMissing => exact .forgetCleans
  | forgetUnlinked => exact .forgetUnindexes
  | forgetUnindexed => exact .forgetUnrecords
  | compileCalled job output =>
    cases hlock : w.lock with
    | none => exact .compileLocks job output hlock
    | some holder => exact .waits _
  | compileLocked job output =>
    by_cases hfile : w.file.map universalNewlines = some job
    · simp only [if_pos hfile]
      exact .compileMatches job output hfile
    · simp only [if_neg hfile]
      exact .compileDrops job output
  | compileMatched job output => exact .compileWrites job output
  | compileWritten => exact .compileRecords
  | leaving => exact .leaves

/-- A call that begins takes an idle thread and writes nothing. -/
theorem act_begins (key : Text) (w : World) {act : Act} (h : ∀ i, act ≠ .step i) :
    w.act key act = w ∨ ∃ i thread jobs, w.threads i = .idle
      ∧ (thread = .forgetCalled ∨ (∃ c, thread = .storeCalled c)
        ∨ ∃ job output, thread = .compileCalled job output)
      ∧ w.act key act = { w with jobs := jobs }.set i thread := by
  cases act with
  | step i => exact absurd rfl (h i)
  | store i c =>
    cases hi : w.threads i with
    | idle => exact .inr ⟨i, .storeCalled c, w.jobs, hi, .inr (.inl ⟨c, rfl⟩), by
        simp only [World.act, hi]⟩
    | _ => exact .inl (by simp only [World.act, hi])
  | forget i =>
    cases hi : w.threads i with
    | idle => exact .inr ⟨i, .forgetCalled, w.jobs, hi, .inl rfl, by simp only [World.act, hi]⟩
    | _ => exact .inl (by simp only [World.act, hi])
  | compile i job output =>
    cases hi : w.threads i with
    | idle =>
      cases hjob : w.jobs[job]? with
      | none => exact .inl (by simp only [World.act, hi, hjob])
      | some a => exact .inr ⟨i, .compileCalled a output, w.jobs.eraseIdx job, hi,
          .inr (.inr ⟨a, output, rfl⟩), by simp only [World.act, hi, hjob]⟩
    | _ => exact .inl (by simp only [World.act, hi])

/-! ## Pending writes -/

variable {p : Thread → Bool}

/-- A call that is of this kind after its step. -/
theorem World.pending_set (w : World) (i : Nat) {thread : Thread} (h : p thread = true) :
    (w.set i thread).Pending p := ⟨i, by rw [w.set_threads_self, h]⟩

/-- What was pending still is, unless it was this call's to do and is done. -/
theorem World.Pending.set {w w' : World} {i : Nat} {thread : Thread} (hw : w'.threads = w.threads)
    (h : w.Pending p) (hthread : p (w.threads i) = true → p thread = true) :
    (w'.set i thread).Pending p := by
  obtain ⟨j, hj⟩ := h
  by_cases hi : j = i
  · subst hi
    exact w'.pending_set j (hthread hj)
  · refine ⟨j, ?_⟩
    rw [w'.set_threads_of_ne hi, hw, hj]

/-- With no call in progress nothing is pending. -/
theorem World.Quiet.not_pending {w : World} (h : w.Quiet) (hp : p .idle = false) :
    ¬ w.Pending p := by
  rintro ⟨i, hi⟩
  rw [h i, hp] at hi
  cases hi

/-- A projection follows the file, or a call that will set it right is pending. -/
structure Follows (file : Option Text) (projection : Bool) (writes deletes : Prop) : Prop where
  present : file ≠ none → projection = true ∨ writes
  absent : file = none → projection = false ∨ deletes

/-- Index entry and metadata row follow the file. -/
structure Settling (w : World) : Prop where
  index : Follows w.file w.indexed (w.Pending Thread.willIndex) (w.Pending Thread.willUnindex)
  row : Follows w.file w.recorded (w.Pending Thread.willRecord) (w.Pending Thread.willUnrecord)

/-- More may be pending. -/
theorem Follows.mono {file : Option Text} {projection : Bool} {writes deletes writes' deletes' : Prop}
    (h : Follows file projection writes deletes) (hwrites : writes → writes')
    (hdeletes : deletes → deletes') : Follows file projection writes' deletes' :=
  ⟨fun hfile => (h.present hfile).imp_right hwrites,
    fun hfile => (h.absent hfile).imp_right hdeletes⟩

/-- A call that writes the file is still to write the projection. -/
theorem follows_written {t : Text} {projection : Bool} {writes deletes : Prop} (h : writes) :
    Follows (some t) projection writes deletes :=
  ⟨fun _ => .inr h, fun hfile => by cases hfile⟩

/-- A call that unlinks the file is still to delete the projection. -/
theorem follows_unlinked {projection : Bool} {writes deletes : Prop} (h : deletes) :
    Follows none projection writes deletes :=
  ⟨fun hfile => absurd rfl hfile, fun _ => .inr h⟩

/-- The projection is written where the file is, or a delete is pending. -/
theorem follows_set {file : Option Text} {writes deletes : Prop} (h : file = none → deletes) :
    Follows file true writes deletes :=
  ⟨fun _ => .inl rfl, fun hfile => .inr (h hfile)⟩

/-- The projection is deleted where the file is gone, or a write is pending. -/
theorem follows_cleared {file : Option Text} {writes deletes : Prop} (h : file ≠ none → writes) :
    Follows file false writes deletes :=
  ⟨fun hfile => .inr (h hfile), fun _ => .inl rfl⟩

/-- A step that writes neither the file nor a projection keeps what is pending. -/
theorem Settling.set {w w' : World} (h : Settling w) {i : Nat} {thread : Thread}
    (hfile : w'.file = w.file) (hindexed : w'.indexed = w.indexed)
    (hrecorded : w'.recorded = w.recorded) (hthreads : w'.threads = w.threads)
    (hindex : (w.threads i).willIndex = true → thread.willIndex = true)
    (hunindex : (w.threads i).willUnindex = true → thread.willUnindex = true)
    (hrecord : (w.threads i).willRecord = true → thread.willRecord = true)
    (hunrecord : (w.threads i).willUnrecord = true → thread.willUnrecord = true) :
    Settling (w'.set i thread) := by
  constructor
  · rw [w'.set_file, w'.set_indexed, hfile, hindexed]
    exact h.index.mono (fun hp => hp.set hthreads hindex) fun hp => hp.set hthreads hunindex
  · rw [w'.set_file, w'.set_recorded, hfile, hrecorded]
    exact h.row.mono (fun hp => hp.set hthreads hrecord) fun hp => hp.set hthreads hunrecord

/-- A call that begins, or that takes a step without a write, in a state that settles. -/
theorem Settling.quiet {w w' : World} (h : Settling w) {i : Nat} {old thread : Thread}
    (hi : w.threads i = old) (hfile : w'.file = w.file) (hindexed : w'.indexed = w.indexed)
    (hrecorded : w'.recorded = w.recorded) (hthreads : w'.threads = w.threads)
    (hindex : old.willIndex = false) (hunindex : old.willUnindex = false)
    (hrecord : old.willRecord = false) (hunrecord : old.willUnrecord = false) :
    Settling (w'.set i thread) := by
  refine h.set hfile hindexed hrecorded hthreads ?_ ?_ ?_ ?_ <;> rw [hi] <;> intro hpending
  · rw [hindex] at hpending
    cases hpending
  · rw [hunindex] at hpending
    cases hpending
  · rw [hrecord] at hpending
    cases hpending
  · rw [hunrecord] at hpending
    cases hpending

/-- A harmless step of a call leaves a state that settles. -/
theorem settling_advance {key : Text} {w : World} {i : Nat} (hharmless : w.Harmless (.step i))
    (h : Settling w) : Settling (w.advance key i) := by
  have hpending : ∀ {p : Thread → Bool} {w' : World} {thread : Thread},
      w'.threads = w.threads → p (w.threads i) = false → w.Pending p →
        (w'.set i thread).Pending p := by
    intro p w' thread hthreads hp hw
    refine hw.set hthreads fun hi => ?_
    rw [hp] at hi
    cases hi
  have hmove := move_advance key w i
  simp only [World.Harmless] at hharmless
  generalize hi : w.threads i = thread at hmove hharmless hpending
  generalize w.advance key i = w' at hmove
  cases hmove with
  | waits => exact h
  | storeWrites c existing t jobs hwrite =>
    exact ⟨follows_written (World.pending_set _ i rfl), follows_written (World.pending_set _ i rfl)⟩
  | storeIndexes =>
    exact ⟨follows_set fun hfile => hpending rfl rfl (hharmless hfile),
      h.row.mono (fun hw => hw.set rfl fun _ => rfl) (hpending rfl rfl)⟩
  | storeRecords | compileRecords =>
    exact ⟨h.index.mono (hpending rfl rfl) (hpending rfl rfl),
      follows_set fun hfile => hpending rfl rfl (hharmless hfile)⟩
  | forgetUnlinks =>
    exact ⟨follows_unlinked (World.pending_set _ i rfl),
      follows_unlinked (World.pending_set _ i rfl)⟩
  | forgetCleans | forgetUnrecords =>
    exact ⟨h.index.mono (hpending rfl rfl) (hpending rfl rfl),
      follows_cleared fun hfile => hpending rfl rfl (hharmless hfile)⟩
  | forgetUnindexes =>
    exact ⟨follows_cleared fun hfile => hpending rfl rfl (hharmless hfile),
      h.row.mono (hpending rfl rfl) fun hw => hw.set rfl fun _ => rfl⟩
  | compileWrites job output =>
    -- the index is still right: the file was there before
    refine ⟨⟨fun _ => ?_, fun hfile => by cases hfile⟩,
      follows_written (World.pending_set _ i rfl)⟩
    exact (h.index.present hharmless).imp_right (hpending rfl rfl)
  | _ => exact h.quiet hi rfl rfl rfl rfl rfl rfl rfl rfl

/-- A harmless act leaves a state that settles. -/
theorem settling_act {key : Text} {w : World} {act : Act} (hharmless : w.Harmless act)
    (h : Settling w) : Settling (w.act key act) := by
  by_cases hstep : ∃ i, act = .step i
  · obtain ⟨i, rfl⟩ := hstep
    exact settling_advance hharmless h
  · obtain hsame | ⟨i, thread, jobs, hi, hthread, heq⟩ :=
      act_begins key w fun i heq => hstep ⟨i, heq⟩
    · rw [hsame]
      exact h
    · rw [heq]
      exact h.quiet hi rfl rfl rfl rfl rfl rfl rfl rfl

/-- A topic nobody works on has settled. -/
theorem settling_start (file : Option Text) : Settling (World.start file) := by
  cases file with
  | none => exact ⟨⟨fun hfile => absurd rfl hfile, fun _ => .inl rfl⟩,
      ⟨fun hfile => absurd rfl hfile, fun _ => .inl rfl⟩⟩
  | some d => exact ⟨⟨fun _ => .inl rfl, fun hfile => by cases hfile⟩,
      ⟨fun _ => .inl rfl, fun hfile => by cases hfile⟩⟩

/-- With no call left to write, the projections are what the file says. -/
theorem Settling.agrees {w : World} (h : Settling w) (hquiet : w.Quiet) : w.Agrees := by
  have hfollows : ∀ {projection : Bool} {p q : Thread → Bool}, p .idle = false → q .idle = false →
      Follows w.file projection (w.Pending p) (w.Pending q) →
        (w.file.isSome = true ↔ projection = true) := by
    intro projection p q hp hq h
    rw [Option.isSome_iff_ne_none]
    refine ⟨fun hfile => (h.present hfile).resolve_right (hquiet.not_pending hp), fun hset hfile => ?_⟩
    have hclear := (h.absent hfile).resolve_right (hquiet.not_pending hq)
    rw [hset] at hclear
    cases hclear
  exact ⟨hfollows rfl rfl h.index, hfollows rfl rfl h.row⟩

/-! ## Contents -/

/-- The call holds the lock of the topic. -/
def Thread.inside : Thread → Bool
  | .storeLocked _ | .storeRead _ _ | .storeWritten | .storeIndexed => true
  | .compileLocked _ _ | .compileMatched _ _ | .compileWritten | .leaving => true
  | _ => false

/-- What a call that will write over the file has read is the file. -/
def Thread.Saw (file : Option Text) : Thread → Prop
  | .storeRead _ existing => file = existing
  | .compileMatched job _ => file.map universalNewlines = some job
  | _ => True

/-- The contents that are owed and no compile took in stand in what stores have put on the file. -/
def World.Stands (w : World) : Prop :=
  ∃ tail, (∀ t, w.file = some t → Ends t tail) ∧
    ∀ content ∈ w.owed, rstrip (· == 10) content = content ∧ content <:+: tail ∨ w.Taken content

/-- Only one call is inside the lock, what it has seen is still there unless the file was
unlinked, and nothing is owed of a file that is gone. -/
structure Keeping (w : World) : Prop where
  locked : ∀ i, (w.threads i).inside = true → w.lock = some i
  saw : ∀ i, (w.threads i).Saw w.file ∨ w.file = none
  gone : w.file = none → w.owed = []
  stands : w.Stands

/-- A call outside the lock has read nothing. -/
theorem Thread.saw_of_outside {thread : Thread} (h : thread.inside = false) (file : Option Text) :
    thread.Saw file := by
  cases thread <;> trivial

/-- A step that leaves the file as it is. -/
theorem Keeping.set {w w' : World} (h : Keeping w) {i : Nat} {thread : Thread}
    (hfile : w'.file = w.file) (howed : w'.owed = w.owed) (hinputs : w'.inputs = w.inputs)
    (hthreads : w'.threads = w.threads)
    (hlocked : ∀ j, j ≠ i → (w.threads j).inside = true → w'.lock = some j)
    (hinside : thread.inside = true → w'.lock = some i)
    (hsaw : thread.Saw w.file) : Keeping (w'.set i thread) := by
  refine ⟨fun j hj => ?_, fun j => ?_, ?_, ?_⟩
  · by_cases hji : j = i
    · subst hji
      rw [w'.set_threads_self] at hj
      exact hinside hj
    · rw [w'.set_threads_of_ne hji, hthreads] at hj
      exact hlocked j hji hj
  · rw [w'.set_file, hfile]
    by_cases hji : j = i
    · subst hji
      rw [w'.set_threads_self]
      exact .inl hsaw
    · rw [w'.set_threads_of_ne hji, hthreads]
      exact h.saw j
  · rw [w'.set_file, w'.set_owed, hfile, howed]
    exact h.gone
  · unfold World.Stands World.Taken
    rw [w'.set_file, w'.set_owed, w'.set_inputs, hfile, howed, hinputs]
    exact h.stands

/-- A step of a call that takes or gives up no lock. -/
theorem Keeping.walk {w w' : World} (h : Keeping w) {i : Nat} {old thread : Thread}
    (hi : w.threads i = old) (hfile : w'.file = w.file) (howed : w'.owed = w.owed)
    (hinputs : w'.inputs = w.inputs) (hthreads : w'.threads = w.threads)
    (hlock : w'.lock = w.lock) (hinside : thread.inside = true → old.inside = true)
    (hsaw : thread.Saw w.file) : Keeping (w'.set i thread) := by
  refine h.set hfile howed hinputs hthreads (fun j _ hj => ?_) (fun hthread => ?_) hsaw
  · rw [hlock]
    exact h.locked j hj
  · rw [hlock]
    exact h.locked i (by rw [hi, hinside hthread])

/-- The lock is taken by a call that finds it free. -/
theorem Keeping.enter {w : World} (h : Keeping w) {i : Nat} {thread : Thread}
    (hlock : w.lock = none) (hsaw : thread.Saw w.file) :
    Keeping ({ w with lock := some i }.set i thread) := by
  refine h.set rfl rfl rfl rfl (fun j _ hj => ?_) (fun _ => rfl) hsaw
  have hheld := h.locked j hj
  rw [hlock] at hheld
  cases hheld

/-- No other call is inside the lock, so none has seen the file that is written over. -/
theorem Keeping.write {w w' : World} (h : Keeping w) {i : Nat} {old thread : Thread}
    (hi : w.threads i = old) (hold : old.inside = true) (hlock : w'.lock = w.lock)
    (hthreads : w'.threads = w.threads) (hsaw : thread.Saw w'.file)
    (hfile : w'.file ≠ none) (hstands : w'.Stands) : Keeping (w'.set i thread) := by
  have hheld : w.lock = some i := h.locked i (by rw [hi, hold])
  refine ⟨fun j hj => ?_, fun j => .inl ?_, fun hnone => absurd hnone hfile, hstands⟩
  · by_cases hji : j = i
    · subst hji
      rw [w'.set_lock, hlock, hheld]
    · rw [w'.set_threads_of_ne hji, hthreads] at hj
      rw [w'.set_lock, hlock]
      exact h.locked j hj
  · by_cases hji : j = i
    · subst hji
      rw [w'.set_threads_self]
      exact hsaw
    · rw [w'.set_threads_of_ne hji, hthreads]
      refine Thread.saw_of_outside (Bool.eq_false_iff.mpr fun hj => ?_) _
      have hother := h.locked j hj
      rw [hheld] at hother
      exact hji (Option.some.inj hother).symm

/-- The write of a store: what stood in the file it read stands in the file it leaves. -/
theorem Keeping.storeWrites {key : Text} {w : World} (h : Keeping w) {i : Nat} {c : StoreCall}
    {existing : Option Text} (hi : w.threads i = .storeRead c existing) (hplain : c.Plain)
    {t : Text} (hwrite : c.write key existing = some t) (jobs : List Text) :
    Keeping ({ w with
      file := some t, owed := w.owed ++ [c.entry.content], jobs := jobs }.set i .storeWritten) := by
  obtain ⟨hcr, hend, hfree⟩ := hplain
  obtain ⟨tail, hends, hstands⟩ := h.stands
  obtain ⟨written, hok, rfl⟩ := Option.map_eq_some_iff.mp hwrite
  have hok : storeText key c.fresh c.entry c.now existing = .ok written := by
    revert hok
    cases storeText key c.fresh c.entry c.now existing with
    | error fault => exact fun hno => by cases hno
    | ok w' => exact fun heq => congrArg _ (Option.some.inj heq)
  have hsaw : w.file = existing ∨ w.file = none := by
    have hsaw := h.saw i
    rwa [hi] at hsaw
  -- the file was unlinked, and nothing is owed, or it is the one the store has read
  obtain hfile | hgone := hsaw
  · subst hfile
    obtain ⟨tail', hends', hcontent, hkept⟩ := storeText_ends hok hcr hfree hends
    refine h.write hi rfl rfl rfl trivial (Option.some_ne_none _) ⟨tail', ?_, ?_⟩
    · exact fun t ht => Option.some.inj ht ▸ hends'
    · intro content hmem
      obtain hmem | hmem := List.mem_append.mp hmem
      · have hne : w.file ≠ none := by
          intro hnone
          rw [h.gone hnone] at hmem
          cases hmem
        exact (hstands content hmem).imp_left fun hin => ⟨hin.1, hkept hne content hin.1 hin.2⟩
      · obtain rfl := List.mem_singleton.mp hmem
        exact .inl ⟨hend, hcontent⟩
  · obtain ⟨tail', hends', hcontent, -⟩ := storeText_ends hok hcr hfree
      fun _ _ => (.inl rfl : Ends _ [])
    refine h.write hi rfl rfl rfl trivial (Option.some_ne_none _) ⟨tail', ?_, ?_⟩
    · exact fun t ht => Option.some.inj ht ▸ hends'
    · intro content hmem
      rw [h.gone hgone, List.nil_append] at hmem
      obtain rfl := List.mem_singleton.mp hmem
      exact .inl ⟨hend, hcontent⟩

/-- What stands in a file is in the text it is read as. -/
theorem Ends.holds {t tail word : Text} (h : Ends t tail) (hword : word <:+: tail) :
    word <:+: t ∧ word <:+: universalNewlines t := by
  have hread := h.read
  have hin : ∀ {u : Text}, Ends u tail → word <:+: u := by
    rintro u (rfl | ⟨⟨front, rfl⟩, -, -⟩)
    · rw [List.infix_nil.mp hword]
      exact List.nil_infix
    · exact hword.trans ⟨front ++ [10], [], by simp⟩
  exact ⟨hin h, hin hread⟩

/-- The write-back of a compile: what stood in the file is in the text it started from. -/
theorem Keeping.compileWrites {w : World} (h : Keeping w) {i : Nat} {job output : Text}
    (hi : w.threads i = .compileMatched job output) :
    Keeping ({ w with file := some output, inputs := w.inputs ++ [job] }.set i .compileWritten) := by
  obtain ⟨tail, hends, hstands⟩ := h.stands
  refine h.write hi rfl rfl rfl trivial (Option.some_ne_none _)
    ⟨[], fun _ _ => .inl rfl, fun content hmem => .inr ?_⟩
  obtain ⟨-, hin⟩ | ⟨t, ht, htaken⟩ := hstands content hmem
  · have hsaw := h.saw i
    rw [hi] at hsaw
    obtain hsaw | hgone := hsaw
    · obtain ⟨t, ht, rfl⟩ := Option.map_eq_some_iff.mp hsaw
      exact ⟨_, List.mem_append_right _ (List.mem_singleton_self _),
        ((hends t ht).holds hin).2⟩
    · rw [h.gone hgone] at hmem
      cases hmem
  · exact ⟨t, List.mem_append_left _ ht, htaken⟩

/-- A harmless step of a call loses nothing. -/
theorem keeping_advance {key : Text} {w : World} {i : Nat} (hharmless : w.Harmless (.step i))
    (h : Keeping w) : Keeping (w.advance key i) := by
  have hmove := move_advance key w i
  simp only [World.Harmless] at hharmless
  generalize hi : w.threads i = thread at hmove hharmless
  generalize w.advance key i = w' at hmove
  cases hmove with
  | waits => exact h
  | storeLocks _ hlock | compileLocks _ _ hlock => exact h.enter hlock trivial
  | storeReads c => exact h.walk hi rfl rfl rfl rfl rfl (fun _ => rfl) rfl
  | storeWrites c existing t jobs hwrite => exact h.storeWrites hi hharmless hwrite jobs
  | forgetUnlinks =>
    refine ⟨fun j hj => ?_, fun j => .inr rfl, fun _ => rfl, [], fun _ _ => .inl rfl, ?_⟩
    · obtain ⟨-, hnew⟩ | hsame := World.threads_set { w with file := none, owed := [] } i j
        .forgetUnlinked
      · rw [hnew] at hj
        cases hj
      · rw [hsame] at hj
        exact h.locked j hj
    · intro content hcontent
      cases hcontent
  | compileMatches job output hfile => exact h.walk hi rfl rfl rfl rfl rfl (fun _ => rfl) hfile
  | compileWrites job output => exact h.compileWrites hi
  | leaves =>
    have hheld : w.lock = some i := h.locked i (by rw [hi]; rfl)
    refine h.set rfl rfl rfl rfl (fun j hji hj => ?_) (fun hin => by cases hin) trivial
    have hother := h.locked j hj
    rw [hheld] at hother
    exact absurd (Option.some.inj hother).symm hji
  | _ => exact h.walk hi rfl rfl rfl rfl rfl id trivial

/-- A harmless act loses nothing. -/
theorem keeping_act {key : Text} {w : World} {act : Act} (hharmless : w.Harmless act)
    (h : Keeping w) : Keeping (w.act key act) := by
  by_cases hstep : ∃ i, act = .step i
  · obtain ⟨i, rfl⟩ := hstep
    exact keeping_advance hharmless h
  · obtain hsame | ⟨i, thread, jobs, hi, hthread, heq⟩ :=
      act_begins key w fun i heq => hstep ⟨i, heq⟩
    · rw [hsame]
      exact h
    · rw [heq]
      obtain rfl | ⟨c, rfl⟩ | ⟨job, output, rfl⟩ := hthread
      · exact h.walk hi rfl rfl rfl rfl rfl id trivial
      · exact h.walk hi rfl rfl rfl rfl rfl id trivial
      · exact h.walk hi rfl rfl rfl rfl rfl id trivial

/-- Nothing is owed of a topic nobody works on. -/
theorem keeping_start (file : Option Text) : Keeping (World.start file) :=
  ⟨fun i hi => (by cases hi), fun i => .inl trivial, fun _ => rfl,
    [], fun _ _ => .inl rfl, fun content hcontent => (by cases hcontent)⟩

/-- What is owed is in the file, or a compile took it in. -/
theorem Keeping.keeps {w : World} (h : Keeping w) : w.Keeps := by
  obtain ⟨tail, hends, hstands⟩ := h.stands
  intro content hmem
  obtain ⟨-, hin⟩ | htaken := hstands content hmem
  · cases hfile : w.file with
    | none =>
      rw [h.gone hfile] at hmem
      cases hmem
    | some t => exact .inl ⟨t, rfl, ((hends t hfile).holds hin).1⟩
  · exact .inr htaken

/-! ## Runs -/

/-- In every state of a run of harmless steps in which no call is in progress, file, index entry
and metadata row agree and nothing stored is lost. -/
theorem agrees_of_harmless (key : Text) (file : Option Text) (acts : List Act)
    (h : StepsSatisfy (World.act key) World.Harmless (World.start file) acts)
    {before after : List Act} (hacts : acts = before ++ after)
    (hquiet : (run (World.act key) (World.start file) before).Quiet) :
    (run (World.act key) (World.start file) before).Agrees
      ∧ (run (World.act key) (World.start file) before).Keeps := by
  subst hacts
  rw [stepsSatisfy_append] at h
  have hsettling : Settling (run (World.act key) (World.start file) before) :=
    run_invariant_of World.Harmless Settling (fun _ _ hharmless hs => settling_act hharmless hs) _
      (settling_start file) before h.1
  have hkeeping : Keeping (run (World.act key) (World.start file) before) :=
    run_invariant_of World.Harmless Keeping (fun _ _ hharmless hs => keeping_act hharmless hs) _
      (keeping_start file) before h.1
  exact ⟨hsettling.agrees hquiet, hkeeping.keeps⟩

/-- The call an act belongs to. -/
def Act.thread : Act → Nat
  | .store i _ | .forget i | .compile i _ _ | .step i => i

/-- An act moves its own call alone. -/
theorem threads_act_of_ne (key : Text) (w : World) {act : Act} {j : Nat} (h : j ≠ act.thread) :
    (w.act key act).threads j = w.threads j := by
  cases act with
  | step i =>
    have hmove := move_advance key w i
    simp only [World.act]
    generalize w.threads i = thread at hmove
    generalize w.advance key i = w' at hmove
    cases hmove with
    | waits => rfl
    | _ => exact World.set_threads_of_ne _ h _
  | store i | forget i =>
    simp only [World.act]
    cases w.threads i with
    | idle => exact World.set_threads_of_ne _ h _
    | _ => rfl
  | compile i job output =>
    simp only [World.act]
    cases w.threads i with
    | idle =>
      cases w.jobs[job]? with
      | none => rfl
      | some a => exact World.set_threads_of_ne _ h _
    | _ => rfl

/-- A run is quiet once the calls it is about are. -/
theorem quiet_of_threads {key : Text} {file : Option Text} {acts : List Act} (n : Nat)
    (hacts : ∀ act ∈ acts, act.thread < n)
    (h : ∀ i < n, (run (World.act key) (World.start file) acts).threads i = .idle) :
    (run (World.act key) (World.start file) acts).Quiet := by
  intro j
  by_cases hj : j < n
  · exact h j hj
  · have huntouched : ∀ (w : World) (acts : List Act), (∀ act ∈ acts, act.thread < n) →
        (run (World.act key) w acts).threads j = w.threads j := by
      intro w acts hacts
      induction acts generalizing w with
      | nil => rfl
      | cons act rest ih =>
        have hne : j ≠ act.thread := fun heq => hj (heq ▸ hacts act List.mem_cons_self)
        rw [run_cons, ih _ fun a ha => hacts a (List.mem_cons_of_mem _ ha),
          threads_act_of_ne key w hne]
    exact huntouched (World.start file) acts hacts

/-- A store of `hi` on the first day of 2026. -/
def storeHi : StoreCall :=
  { entry := ⟨.global, .project, [], text "hi", none⟩
    now := Stamp.at newYear2026
    fresh := text "0" }

/-- A store from its first step to its last. -/
def storeSteps (i : Nat) : List Act := .store i storeHi :: List.replicate 6 (.step i)

/-- The file it makes. -/
def hiText : Text :=
  text "# a\n<!-- id: 0 | scope: global | type: project | tags:  -->\n\n## 2026-01-01T00:00:00Z\nhi\n"

theorem storeHi_write : storeHi.write (text "a") none = some hiText := by decide +kernel

/-- One store on its own. -/
theorem agrees_of_harmless_store :
    (run (World.act (text "a")) (World.start none) (storeSteps 0)).Agrees
      ∧ (run (World.act (text "a")) (World.start none) (storeSteps 0)).Keeps := by
  have hplain : storeHi.Plain := ⟨by decide, by decide, noHeaderEnd_of_notMem (by decide)⟩
  have hsafe : StepsSatisfy (World.act (text "a")) World.Harmless (World.start none)
      (storeSteps 0) := by
    simp [storeSteps, StepsSatisfy, World.act, World.advance, World.start, World.set,
      World.Harmless, storeHi_write, hplain]
  have hquiet : (run (World.act (text "a")) (World.start none) (storeSteps 0)).Quiet := by
    refine quiet_of_threads 1 (by decide) fun i hi => ?_
    obtain rfl : i = 0 := by omega
    simp [storeSteps, World.act, World.advance, World.start, World.set, storeHi_write]
  exact agrees_of_harmless _ _ _ hsafe (List.append_nil _).symm hquiet

/-- A forget between the file write of a store and its index update leaves an index entry and a
metadata row without a file. -/
theorem forget_overlaps_store :
    ¬ ∀ (key : Text) (file : Option Text) (acts : List Act),
      (run (World.act key) (World.start file) acts).Quiet →
        (run (World.act key) (World.start file) acts).Agrees
          ∧ (run (World.act key) (World.start file) acts).Keeps := by
  intro h
  have hquiet : (run (World.act (text "a")) (World.start none)
      (.store 0 storeHi :: List.replicate 3 (.step 0)
        ++ .forget 1 :: List.replicate 4 (.step 1) ++ List.replicate 3 (.step 0))).Quiet := by
    refine quiet_of_threads 2 (by decide) fun i hi => ?_
    obtain rfl | rfl : i = 0 ∨ i = 1 := by omega
    · simp [World.act, World.advance, World.start, World.set, storeHi_write]
    · simp [World.act, World.advance, World.start, World.set, storeHi_write]
  have hagrees := (h _ _ _ hquiet).1.1
  simp [World.act, World.advance, World.start, World.set, storeHi_write] at hagrees

end CliAgentOrchestrator.Memory
