import CliAgentOrchestrator.Truth.Tail

/-!
# Every line once

What the stored drafts of a tailed file are: the lines from the attach offset on, each given
once, in order and with its own offset, to the source that read it. That is so as long as the
polls of the file take turns, the file is attached where a line begins, every emit stores, no
line makes the decoder raise but with a `ValueError`, and every record can be given its provenance.
-/

set_option autoImplicit false

namespace CliAgentOrchestrator.Truth

open CliAgentOrchestrator.Core Library

/-! ## The account of the stored drafts -/

/-- What a draft says; its time stamp is left out. -/
abbrev Content := String × AnyKind × Option String × Payload

def contentOf (d : EventDraft) : Content := (d.terminalId, d.kind, d.sourceRef, d.payload)

/-- What an emission says once it is stored. -/
def Emission.content (e : Emission) (source : Source) : Content :=
  (source.terminalId, .event e.kind, some e.sourceRef, e.payload)

/-- A line that was read, with the source object that read it. -/
abbrev ReadLine := Nat × Nat × List UInt8

/-- What one line comes to. -/
def readLine (cfg : Tailer) (sources : List Source) (memory : Memory) (line : ReadLine) :
    Memory × List Content :=
  match sources[line.1]?, decode cfg.py line.2.2 with
  | some source, .record record =>
    let (memory, emissions) :=
      cfg.adapter cfg.py cfg.path line.1 source memory line.2.1 record
    (memory, (emissions.getD []).map fun e => e.content source)
  | _, _ => (memory, [])

/-- What lines come to, one after the other. -/
def readAll (cfg : Tailer) (sources : List Source) : Memory → List ReadLine → Memory × List Content
  | memory, [] => (memory, [])
  | memory, line :: rest =>
    let (memory, contents) := readLine cfg sources memory line
    let (memory, later) := readAll cfg sources memory rest
    (memory, contents ++ later)

theorem readAll_concat (cfg : Tailer) (sources : List Source) (memory : Memory)
    (done : List ReadLine) (line : ReadLine) :
    readAll cfg sources memory (done ++ [line]) =
      ((readLine cfg sources (readAll cfg sources memory done).1 line).1,
        (readAll cfg sources memory done).2 ++
          (readLine cfg sources (readAll cfg sources memory done).1 line).2) := by
  induction done generalizing memory with
  | nil => simp [readAll]
  | cons first rest ih => simp [readAll, ih]

/-- A source that is attached later has read none of the lines so far. -/
theorem readAll_attach (cfg : Tailer) (sources : List Source) (source : Source) (memory : Memory)
    (done : List ReadLine) (hdone : ∀ line ∈ done, line.1 < sources.length) :
    readAll cfg (sources ++ [source]) memory done = readAll cfg sources memory done := by
  induction done generalizing memory with
  | nil => rfl
  | cons line rest ih =>
    have hline : (sources ++ [source])[line.1]? = sources[line.1]? :=
      List.getElem?_append_left (hdone line (by simp))
    have hrest : ∀ l ∈ rest, l.1 < sources.length := fun l hl => hdone l (by simp [hl])
    simp only [readAll, readLine, hline, ih _ hrest]

/-! ## Runs in turn -/

/-- Every stretch of a file that is as long as a poll's window has a line end in it. -/
def Short (bytes : List UInt8) : Prop :=
  ∀ window, window <:+: bytes → window.length = maxPollBytes → newline ∈ window

/-- The polls take turns, the file is attached where a line begins, every emit stores, every line
is decoded or refused, and every record is given its provenance; the lines of the file stay shorter
than a poll's window. -/
def Orderly (cfg : Tailer) (t : Tail) : TailStep → Prop
  | .grow bytes => Short (t.file.getD [] ++ bytes)
  | .attach _ => t.cursor.seeded = false → Whole newline (t.file.getD [])
  | .stat _ => t.polls = []
  | .record i _ fails =>
    (∀ k, fails k = false) ∧
      ∀ reader line rest stop, t.polls[i]? = some ⟨reader, .reading (line :: rest) stop⟩ →
        decode cfg.py line.2 ≠ .raised ∧
        ∀ source record, t.sources[reader]? = some source → decode cfg.py line.2 = .record record →
          (cfg.adapter cfg.py cfg.path reader source t.memory line.1 record).2 ≠ none
  | _ => True

/-- The lines between the attach offset and the cursor. -/
def Tail.gone (t : Tail) : List (Nat × List UInt8) :=
  numbered t.seededAt
    (lines newline (((t.file.getD []).take t.cursor.offset).drop t.seededAt))

/-- Where a poll stands, `done` being the lines gone through. -/
def Phase.At (t : Tail) (done : List (Nat × List UInt8)) : Phase → Prop
  | statted size => t.cursor.offset ≤ size ∧ done = t.gone
  | opened startOffset => startOffset = t.cursor.offset ∧ done = t.gone
  | reading records stop =>
    ∃ complete, complete <+: (t.file.getD []).drop t.cursor.offset ∧ Whole newline complete ∧
      stop = t.cursor.offset + complete.length ∧
      done ++ records = t.gone ++ numbered t.cursor.offset (lines newline complete)

/-- At most one poll is under way, and stands where it should. -/
def Position (t : Tail) (done : List (Nat × List UInt8)) : List Poll → Prop
  | [] => done = t.gone
  | [p] => p.phase.At t done
  | _ :: _ :: _ => False

/-- What every orderly run keeps. -/
structure Tail.Ok (cfg : Tailer) (t : Tail) : Prop where
  unseeded : t.cursor.seeded = false → t.sources = []
  seeded_le : t.seededAt ≤ t.cursor.offset
  cursor_le : t.cursor.offset ≤ (t.file.getD []).length
  whole_cursor : Whole newline ((t.file.getD []).take t.cursor.offset)
  inode : ∀ inode, t.cursor.inode = some inode → inode = cfg.inode
  short : Short (t.file.getD [])
  reader_lt : ∀ p ∈ t.polls, p.reader < t.sources.length
  account : ∃ done, (∀ line ∈ done, line.1 < t.sources.length) ∧
    readAll cfg t.sources {} done = (t.memory, t.stored.map contentOf) ∧
    Position t (done.map Prod.snd) t.polls

theorem Tail.ok_start (cfg : Tailer) : ({} : Tail).Ok cfg where
  unseeded _ := rfl
  seeded_le := le_rfl
  cursor_le := le_rfl
  whole_cursor := whole_nil
  inode inode h := by cases h
  short window hwindow hlength := by
    rw [List.infix_nil.mp hwindow] at hlength
    simp [maxPollBytes] at hlength
  reader_lt p hp := by cases hp
  account := ⟨[], by simp, rfl, rfl⟩

/-! ## One step -/

/-- The bytes before a place inside the file stay what they are when the file grows. -/
theorem take_grow {bytes : List UInt8} {n : Nat} (h : n ≤ bytes.length) (more : List UInt8) :
    (bytes ++ more).take n = bytes.take n := List.take_append_of_le_length h

theorem Tail.Ok.grow {cfg : Tailer} {t : Tail} (h : t.Ok cfg) (bytes : List UInt8)
    (hshort : Short (t.file.getD [] ++ bytes)) : (TailStep.exec cfg t (.grow bytes)).Ok cfg := by
  have hgone : (TailStep.exec cfg t (.grow bytes)).gone = t.gone := by
    simp only [Tail.gone, TailStep.exec, Option.getD_some]
    rw [take_grow h.cursor_le]
  obtain ⟨done, hreaders, haccount, hposition⟩ := h.account
  refine ⟨h.unseeded, h.seeded_le, ?_, ?_, h.inode, hshort, h.reader_lt, done, hreaders, haccount,
    ?_⟩
  · show t.cursor.offset ≤ (t.file.getD [] ++ bytes).length
    rw [List.length_append]
    exact Nat.le_add_right_of_le h.cursor_le
  · show Whole newline ((t.file.getD [] ++ bytes).take t.cursor.offset)
    rw [take_grow h.cursor_le]
    exact h.whole_cursor
  · have hmatch : (t.file.getD []).drop t.cursor.offset <+:
        (t.file.getD [] ++ bytes).drop t.cursor.offset := by
      rw [List.drop_append_of_le_length h.cursor_le]
      exact List.prefix_append _ _
    have hphase : ∀ phase : Phase, phase.At t (done.map Prod.snd) →
        phase.At (TailStep.exec cfg t (.grow bytes)) (done.map Prod.snd) := by
      intro phase hat
      cases phase with
      | reading records stop =>
        obtain ⟨complete, hcomplete, hwhole, hstop, hdone⟩ := hat
        exact ⟨complete, hcomplete.trans hmatch, hwhole, hstop, by rw [hgone]; exact hdone⟩
      | _ => exact ⟨hat.1, hat.2.trans hgone.symm⟩
    show Position (TailStep.exec cfg t (.grow bytes)) _ t.polls
    cases hpolls : t.polls with
    | nil =>
      rw [hpolls] at hposition
      exact hposition.trans hgone.symm
    | cons p rest =>
      rw [hpolls] at hposition
      cases rest with
      | nil => exact hphase p.phase hposition
      | cons q rest => exact hposition.elim

/-- Right where the cursor is first put, no line has gone. -/
theorem gone_of_seededAt {t : Tail} (h : t.seededAt = t.cursor.offset) : t.gone = [] := by
  unfold Tail.gone
  rw [h, List.drop_take_self]
  rfl

theorem Tail.Ok.of_unseeded {cfg : Tailer} {t : Tail} (h : t.Ok cfg)
    (hunseeded : t.cursor.seeded = false) :
    t.polls = [] ∧ t.memory = {} ∧ t.stored.map contentOf = [] := by
  have hsources := h.unseeded hunseeded
  obtain ⟨done, hreaders, haccount, -⟩ := h.account
  have hnone : done = [] := by
    refine List.eq_nil_iff_forall_not_mem.mpr fun line hline => ?_
    have hlt := hreaders line hline
    rw [hsources] at hlt
    exact absurd hlt (Nat.not_lt_zero _)
  have hidle : t.polls = [] := by
    refine List.eq_nil_iff_forall_not_mem.mpr fun p hp => ?_
    have hlt := h.reader_lt p hp
    rw [hsources] at hlt
    exact absurd hlt (Nat.not_lt_zero _)
  rw [hnone] at haccount
  obtain ⟨hmemory, hstored⟩ := Prod.mk.inj haccount
  exact ⟨hidle, hmemory.symm, hstored.symm⟩

/-- A source is attached, and seeds the cursor if none has. -/
theorem Tail.Ok.attach {cfg : Tailer} {t : Tail} (h : t.Ok cfg) (source : Source)
    (hwhole : t.cursor.seeded = false → Whole newline (t.file.getD [])) :
    (TailStep.exec cfg t (.attach source)).Ok cfg := by
  cases hseeded : t.cursor.seeded with
  | true =>
    have hseed : t.seedCursor cfg.inode = t := by
      unfold Tail.seedCursor
      rw [if_pos hseeded]
    obtain ⟨done, hreaders, haccount, hposition⟩ := h.account
    have hmore : ∀ n, n < t.sources.length → n < (t.sources ++ [source]).length := by
      intro n hn
      rw [List.length_append]
      exact Nat.lt_add_right _ hn
    simp only [TailStep.exec, hseed]
    refine ⟨fun hnot => ?_, h.seeded_le, h.cursor_le, h.whole_cursor, h.inode, h.short,
      fun p hp => hmore _ (h.reader_lt p hp), done, fun line hline => hmore _ (hreaders line hline),
      ?_, hposition⟩
    · rw [hseeded] at hnot
      cases hnot
    · rw [readAll_attach cfg t.sources source {} done hreaders]
      exact haccount
  | false =>
    obtain ⟨hidle, hmemory, hstored⟩ := h.of_unseeded hseeded
    simp only [TailStep.exec, Tail.seedCursor, hseeded, Bool.false_eq_true, if_false]
    cases hfile : t.file with
    | none =>
      refine ⟨by simp, le_rfl, Nat.zero_le _, whole_nil, by simp, ?_, ?_, [], by simp, ?_, ?_⟩
      · have hshort := h.short
        rwa [hfile] at hshort
      · rw [hidle]
        simp
      · rw [hmemory, hstored]
        rfl
      · rw [hidle]
        exact (gone_of_seededAt rfl).symm
    | some bytes =>
      refine ⟨by simp, le_rfl, ?_, ?_, ?_, ?_, ?_, [], by simp, ?_, ?_⟩
      · simp
      · have hbytes := hwhole hseeded
        rw [hfile] at hbytes
        simpa [hfile] using hbytes
      · intro inode hinode
        exact (Option.some.inj hinode).symm
      · have hshort := h.short
        rwa [hfile] at hshort
      · rw [hidle]
        simp
      · rw [hmemory, hstored]
        rfl
      · rw [hidle]
        exact (gone_of_seededAt rfl).symm

theorem Tail.Ok.stat {cfg : Tailer} {t : Tail} (h : t.Ok cfg) (reader : Nat)
    (hidle : t.polls = []) : (TailStep.exec cfg t (.stat reader)).Ok cfg := by
  simp only [TailStep.exec]
  split
  · next bytes source hfile hsource =>
    obtain ⟨done, hreaders, haccount, hposition⟩ := h.account
    rw [hidle] at hposition
    refine ⟨h.unseeded, h.seeded_le, h.cursor_le, h.whole_cursor, h.inode, h.short, ?_, done,
      hreaders, haccount, ?_⟩
    · intro p hp
      rw [hidle, List.nil_append, List.mem_singleton] at hp
      rw [hp]
      exact (List.getElem?_eq_some_iff.mp hsource).1
    · rw [hidle]
      have hle := h.cursor_le
      rw [hfile] at hle
      exact ⟨hle, hposition⟩
  · exact h

/-- With one poll under way at most, the one a step names is the only one. -/
theorem Position.single {t : Tail} {done : List (Nat × List UInt8)} {polls : List Poll} {p : Poll}
    {i : Nat} (h : Position t done polls) (hi : polls[i]? = some p) : polls = [p] ∧ i = 0 := by
  cases polls with
  | nil => cases hi
  | cons q rest =>
    cases rest with
    | cons r rest => exact h.elim
    | nil =>
      cases i with
      | zero => exact ⟨by rw [Option.some.inj hi], rfl⟩
      | succ i => cases hi

/-- A file that only grew does not look rotated. -/
theorem lockCursor_of_grown {inode size : Nat} {c : FileCursor} (memory : Memory)
    (hinode : ∀ known, c.inode = some known → known = inode) (hsize : c.offset ≤ size) :
    lockCursor inode size c memory = ({ c with inode := some inode, size := size }, memory) := by
  have hsame : c.inode.isSome = true → c.inode = some inode := by
    intro hknown
    obtain ⟨known, heq⟩ := Option.isSome_iff_exists.mp hknown
    rw [heq, hinode known heq]
  have hnot : (c.inode.isSome && (decide (c.inode ≠ some inode) || decide (size < c.offset))) =
      false := by
    cases hknown : c.inode.isSome with
    | false => rfl
    | true => simp [hsame hknown, hsize]
  unfold lockCursor
  simp only [hnot, Bool.false_eq_true, if_false]

theorem Tail.Ok.lock {cfg : Tailer} {t : Tail} (h : t.Ok cfg) (i : Nat) :
    (TailStep.exec cfg t (.lock i)).Ok cfg := by
  simp only [TailStep.exec]
  split
  · next reader size hpoll =>
    obtain ⟨done, hreaders, haccount, hposition⟩ := h.account
    obtain ⟨hpolls, rfl⟩ := hposition.single hpoll
    have hreader := h.reader_lt ⟨reader, .statted size⟩ (by simp [hpolls])
    rw [hpolls] at hposition
    obtain ⟨hsize, hdone⟩ := hposition
    rw [lockCursor_of_grown t.memory h.inode hsize]
    have hinode : ∀ known, some cfg.inode = some known → known = cfg.inode :=
      fun known hknown => (Option.some.inj hknown).symm
    dsimp only
    split
    · refine ⟨h.unseeded, h.seeded_le, h.cursor_le, h.whole_cursor, hinode, h.short, ?_, done,
        hreaders, haccount, ?_⟩
      · simp [hpolls]
      · rw [hpolls]
        exact hdone
    · refine ⟨h.unseeded, h.seeded_le, h.cursor_le, h.whole_cursor, hinode, h.short, ?_, done,
        hreaders, haccount, ?_⟩
      · simpa [hpolls] using hreader
      · rw [hpolls]
        exact ⟨rfl, hdone⟩
  · exact h

/-- A poll reads its window. -/
theorem Tail.Ok.read {cfg : Tailer} {t : Tail} (h : t.Ok cfg) (i : Nat) :
    (TailStep.exec cfg t (.read i)).Ok cfg := by
  simp only [TailStep.exec]
  split
  · next reader startOffset hpoll =>
    obtain ⟨done, hreaders, haccount, hposition⟩ := h.account
    obtain ⟨hpolls, rfl⟩ := hposition.single hpoll
    have hreader := h.reader_lt ⟨reader, .opened startOffset⟩ (by simp [hpolls])
    rw [hpolls] at hposition
    obtain ⟨rfl, hdone⟩ := hposition
    have hwindow : ((t.file.getD []).drop t.cursor.offset).take maxPollBytes <:+: t.file.getD [] :=
      (List.take_prefix _ _).isInfix.trans (List.drop_suffix _ _).isInfix
    have hidle : ∀ (hdone : done.map Prod.snd = t.gone),
        ({ t with polls := t.polls.eraseIdx 0 } : Tail).Ok cfg := by
      intro hdone
      refine ⟨h.unseeded, h.seeded_le, h.cursor_le, h.whole_cursor, h.inode, h.short, ?_, done,
        hreaders, haccount, ?_⟩
      · simp [hpolls]
      · rw [hpolls]
        exact hdone
    split
    · next hlong =>
      -- no line is as long as the window
      obtain ⟨hnot, hlength⟩ := hlong
      have hfull : (((t.file.getD []).drop t.cursor.offset).take maxPollBytes).length =
          maxPollBytes := le_antisymm (List.length_take_le _ _) hlength
      exact absurd (h.short _ hwindow hfull) hnot
    · split
      · exact hidle hdone
      · refine ⟨h.unseeded, h.seeded_le, h.cursor_le, h.whole_cursor, h.inode, h.short, ?_, done,
          hreaders, haccount, ?_⟩
        · simpa [hpolls] using hreader
        · rw [hpolls]
          refine ⟨upToLast newline (((t.file.getD []).drop t.cursor.offset).take maxPollBytes),
            (upToLast_prefixOf newline _).trans (List.take_prefix _ _), whole_upToLast newline _, rfl,
            ?_⟩
          exact congrArg (· ++ _) hdone
  · exact h

/-! ## Going through the lines -/

/-- Every emit of a record stores. -/
theorem keptDrafts_of_none {fails : Nat → Bool} (hfails : ∀ k, fails k = false) (source : Source)
    (now : Int) (emissions : List Emission) :
    ((keptDrafts source now fails emissions).map Prod.snd).map contentOf =
      emissions.map fun e => e.content source := by
  unfold keptDrafts
  have hall : (emissions.zipIdx).filter (fun e => !fails e.2) = emissions.zipIdx := by
    apply List.filter_eq_self.mpr
    intro e _
    rw [hfails]
    rfl
  rw [hall, List.map_map, List.map_map]
  have hfst : emissions = emissions.zipIdx.map Prod.fst := by
    rw [List.zipIdx_map_fst]
  conv_rhs => rw [hfst, List.map_map]
  rfl

/-- One more line is gone through. -/
theorem Tail.Ok.record {cfg : Tailer} {t : Tail} (h : t.Ok cfg) {i : Nat} {now : Int}
    {fails : Nat → Bool} (horderly : Orderly cfg t (.record i now fails)) :
    (TailStep.exec cfg t (.record i now fails)).Ok cfg := by
  obtain ⟨hfails, hprovenance⟩ := horderly
  simp only [TailStep.exec]
  split
  · next reader line rest stop hpoll =>
    split
    · next source hsource =>
      obtain ⟨done, hreaders, haccount, hposition⟩ := h.account
      obtain ⟨hpolls, rfl⟩ := hposition.single hpoll
      have hreader := h.reader_lt ⟨reader, .reading (line :: rest) stop⟩ (by simp [hpolls])
      rw [hpolls] at hposition
      obtain ⟨complete, hcomplete, hwhole, hstop, hdone⟩ := hposition
      have hreaders' : ∀ l ∈ done ++ [(reader, line)], l.1 < t.sources.length := by
        intro l hl
        obtain hold | hnew := List.mem_append.mp hl
        · exact hreaders l hold
        · rw [List.mem_singleton.mp hnew]
          exact hreader
      have hat : Phase.At t ((done ++ [(reader, line)]).map Prod.snd) (.reading rest stop) := by
        refine ⟨complete, hcomplete, hwhole, hstop, ?_⟩
        rw [List.map_append, List.append_assoc]
        exact hdone
      have hline : readAll cfg t.sources {} (done ++ [(reader, line)]) =
          ((readLine cfg t.sources t.memory (reader, line)).1,
            t.stored.map contentOf ++ (readLine cfg t.sources t.memory (reader, line)).2) := by
        rw [readAll_concat, haccount]
      unfold Tail.record
      cases hdecode : decode cfg.py line.2 with
      | raised => exact absurd hdecode (hprovenance reader line rest stop hpoll).1
      | skipped =>
        have hread : readLine cfg t.sources t.memory (reader, line) = (t.memory, []) := by
          simp [readLine, hsource, hdecode]
        rw [hread, List.append_nil] at hline
        refine ⟨h.unseeded, h.seeded_le, h.cursor_le, h.whole_cursor, h.inode, h.short, ?_,
          done ++ [(reader, line)], hreaders', hline, ?_⟩
        · simpa [hpolls] using hreader
        · dsimp only
          rw [hpolls]
          exact hat
      | record record =>
        have hsome := (hprovenance reader line rest stop hpoll).2 source record hsource hdecode
        cases hadapter : cfg.adapter cfg.py cfg.path reader source t.memory line.1 record with
        | mk memory emissions =>
          rw [hadapter] at hsome
          obtain ⟨emitted, rfl⟩ := Option.ne_none_iff_exists'.mp hsome
          have hread : readLine cfg t.sources t.memory (reader, line) =
              (memory, emitted.map fun e => e.content source) := by
            simp [readLine, hsource, hdecode, hadapter]
          rw [hread] at hline
          simp only [hadapter]
          refine ⟨h.unseeded, h.seeded_le, h.cursor_le, h.whole_cursor, h.inode, h.short, ?_,
            done ++ [(reader, line)], hreaders', ?_, ?_⟩
          · simpa [hpolls] using hreader
          · rw [hline, List.map_append, keptDrafts_of_none hfails]
          · rw [hpolls]
            exact hat
    · exact h
  · exact h

/-- A poll that has gone through its lines leaves the cursor behind the last one. -/
theorem Tail.Ok.finish {cfg : Tailer} {t : Tail} (h : t.Ok cfg) (i : Nat) :
    (TailStep.exec cfg t (.finish i)).Ok cfg := by
  simp only [TailStep.exec]
  split
  · next reader stop hpoll =>
    obtain ⟨done, hreaders, haccount, hposition⟩ := h.account
    obtain ⟨hpolls, rfl⟩ := hposition.single hpoll
    rw [hpolls] at hposition
    obtain ⟨complete, ⟨more, hcomplete⟩, hwhole, rfl, hdone⟩ := hposition
    rw [List.append_nil] at hdone
    have hsplit : t.file.getD [] =
        (t.file.getD []).take t.cursor.offset ++ complete ++ more := by
      rw [List.append_assoc, hcomplete, List.take_append_drop]
    have hlength : ((t.file.getD []).take t.cursor.offset).length = t.cursor.offset :=
      List.length_take_of_le h.cursor_le
    have htake : (t.file.getD []).take (t.cursor.offset + complete.length) =
        (t.file.getD []).take t.cursor.offset ++ complete := by
      have hboth : ((t.file.getD []).take t.cursor.offset ++ complete).length =
          t.cursor.offset + complete.length := by
        rw [List.length_append, hlength]
      conv_lhs => rw [hsplit]
      rw [← hboth, List.take_left']
      rfl
    refine ⟨h.unseeded, ?_, ?_, ?_, h.inode, h.short, ?_, done, hreaders, haccount, ?_⟩
    · exact h.seeded_le.trans (Nat.le_add_right _ _)
    · have hle := congrArg List.length hsplit
      rw [List.length_append, List.length_append, hlength] at hle
      show t.cursor.offset + complete.length ≤ (t.file.getD []).length
      omega
    · show Whole newline ((t.file.getD []).take (t.cursor.offset + complete.length))
      rw [htake]
      exact h.whole_cursor.append hwhole
    · simp [hpolls]
    · rw [hpolls]
      show done.map Prod.snd = numbered t.seededAt (lines newline
        (((t.file.getD []).take (t.cursor.offset + complete.length)).drop t.seededAt))
      rw [hdone, htake, List.drop_append_of_le_length (by rw [hlength]; exact h.seeded_le)]
      have hgone : Whole newline (((t.file.getD []).take t.cursor.offset).drop t.seededAt) :=
        h.whole_cursor.drop t.seededAt
      have hextent := extent_lines hgone
      rw [List.length_drop, hlength] at hextent
      have hle := h.seeded_le
      have hoffset : t.seededAt + extent (lines newline
          (((t.file.getD []).take t.cursor.offset).drop t.seededAt)) = t.cursor.offset := by
        omega
      rw [lines_append hgone, numbered_append, hoffset]
      rfl
  · exact h

theorem Tail.Ok.exec {cfg : Tailer} {t : Tail} {step : TailStep} (horderly : Orderly cfg t step)
    (h : t.Ok cfg) : (TailStep.exec cfg t step).Ok cfg := by
  cases step with
  | grow bytes => exact h.grow bytes horderly
  | attach source => exact h.attach source horderly
  | stat reader => exact h.stat reader horderly
  | lock i => exact h.lock i
  | read i => exact h.read i
  | record i now fails => exact h.record horderly
  | finish i => exact h.finish i

theorem Tail.ok_run {cfg : Tailer} {steps : List TailStep}
    (h : StepsSatisfy (TailStep.exec cfg) (Orderly cfg) {} steps) :
    (run (TailStep.exec cfg) {} steps).Ok cfg :=
  run_invariant_of (Orderly cfg) (Tail.Ok cfg) (fun _ _ horderly hok => hok.exec horderly) {}
    (Tail.ok_start cfg) steps h

/-! ## A poll with nothing else under way -/

/-- The steps of a poll that goes through `n` lines, every emit of which stores. -/
def soloPoll (reader n : Nat) (now : Int) : List TailStep :=
  [.stat reader, .lock 0, .read 0] ++ List.replicate n (.record 0 now fun _ => false) ++
    [.finish 0]

/-- One line of the poll under way. -/
theorem record_effect {cfg : Tailer} {t : Tail} {now : Int} {reader : Nat}
    {line : Nat × List UInt8} {rest : List (Nat × List UInt8)} {stop : Nat}
    (hpolls : t.polls = [⟨reader, .reading (line :: rest) stop⟩])
    (hreader : reader < t.sources.length)
    (horderly : Orderly cfg t (.record 0 now fun _ => false)) :
    let t' := TailStep.exec cfg t (.record 0 now fun _ => false)
    t'.polls = [⟨reader, .reading rest stop⟩] ∧ t'.cursor = t.cursor ∧ t'.file = t.file ∧
      t'.sources = t.sources := by
  obtain ⟨source, hsource⟩ : ∃ source, t.sources[reader]? = some source :=
    ⟨_, List.getElem?_eq_getElem hreader⟩
  have hpoll : t.polls[0]? = some ⟨reader, .reading (line :: rest) stop⟩ := by
    rw [hpolls]
    rfl
  simp only [TailStep.exec, hpoll, hsource]
  unfold Tail.record
  cases hdecode : decode cfg.py line.2 with
  | raised => exact absurd hdecode (horderly.2 reader line rest stop hpoll).1
  | skipped =>
    refine ⟨?_, rfl, rfl, rfl⟩
    rw [hpolls]
    rfl
  | record record =>
    have hsome := (horderly.2 reader line rest stop hpoll).2 source record hsource hdecode
    cases hadapter : cfg.adapter cfg.py cfg.path reader source t.memory line.1 record with
    | mk memory emissions =>
      rw [hadapter] at hsome
      obtain ⟨emitted, rfl⟩ := Option.ne_none_iff_exists'.mp hsome
      simp only [hadapter, and_true]
      rw [hpolls]
      rfl

/-- All lines of the poll under way. -/
theorem run_records {cfg : Tailer} {now : Int} {reader stop : Nat}
    (records : List (Nat × List UInt8)) {t : Tail}
    (hpolls : t.polls = [⟨reader, .reading records stop⟩]) (hreader : reader < t.sources.length)
    (horderly : StepsSatisfy (TailStep.exec cfg) (Orderly cfg) t
      (List.replicate records.length (.record 0 now fun _ => false))) :
    let t' := run (TailStep.exec cfg) t
      (List.replicate records.length (.record 0 now fun _ => false))
    t'.polls = [⟨reader, .reading [] stop⟩] ∧ t'.cursor = t.cursor ∧ t'.file = t.file := by
  induction records generalizing t with
  | nil => exact ⟨hpolls, rfl, rfl⟩
  | cons line rest ih =>
    obtain ⟨hfirst, hlater⟩ := horderly
    obtain ⟨hpolls', hcursor, hfile, hsources⟩ := record_effect hpolls hreader hfirst
    obtain ⟨hend, hcursor', hfile'⟩ := ih hpolls' (hsources ▸ hreader) hlater
    exact ⟨hend, hcursor'.trans hcursor, hfile'.trans hfile⟩

/-- The window of a poll reaches a line end as long as there is one. -/
theorem newline_mem_window {bytes : List UInt8} (hshort : Short bytes) {offset : Nat}
    (hmem : newline ∈ bytes.drop offset) :
    newline ∈ (bytes.drop offset).take maxPollBytes := by
  by_cases hlong : maxPollBytes ≤ (bytes.drop offset).length
  · have hwithin : (bytes.drop offset).take maxPollBytes <:+: bytes :=
      (List.take_prefix _ _).isInfix.trans (List.drop_suffix _ _).isInfix
    exact hshort _ hwithin (List.length_take_of_le hlong)
  · rw [List.take_of_length_le (Nat.le_of_not_le hlong)]
    exact hmem

/-- The lines a poll's window holds. -/
def windowLines (t : Tail) : List UInt8 :=
  upToLast newline (((t.file.getD []).drop t.cursor.offset).take maxPollBytes)

/-- A poll that is left alone moves the cursor behind the last line of its window. -/
theorem run_soloPoll {cfg : Tailer} {t : Tail} (h : t.Ok cfg) (hidle : t.polls = [])
    {reader : Nat} (hreader : reader < t.sources.length) (now : Int)
    (hmem : newline ∈ (t.file.getD []).drop t.cursor.offset)
    (horderly : StepsSatisfy (TailStep.exec cfg) (Orderly cfg) t
      (soloPoll reader (lines newline (windowLines t)).length now)) :
    let t' := run (TailStep.exec cfg) t
      (soloPoll reader (lines newline (windowLines t)).length now)
    t'.polls = [] ∧ t'.cursor.offset = t.cursor.offset + (windowLines t).length := by
  obtain ⟨bytes, hfile⟩ : ∃ bytes, t.file = some bytes := by
    cases hfile : t.file with
    | none =>
      rw [hfile] at hmem
      simp at hmem
    | some bytes => exact ⟨bytes, rfl⟩
  obtain ⟨source, hsource⟩ : ∃ source, t.sources[reader]? = some source :=
    ⟨_, List.getElem?_eq_getElem hreader⟩
  have hle := h.cursor_le
  rw [hfile] at hle hmem
  have hlt : ¬ bytes.length ≤ t.cursor.offset := by
    intro hshort
    rw [Option.getD_some, List.drop_of_length_le hshort] at hmem
    cases hmem
  have hwindow : newline ∈ (bytes.drop t.cursor.offset).take maxPollBytes := by
    have hshort := h.short
    rw [hfile] at hshort
    exact newline_mem_window hshort hmem
  have hopened : run (TailStep.exec cfg) t [.stat reader, .lock 0, .read 0] =
      { t with
        cursor := { t.cursor with inode := some cfg.inode, size := bytes.length }
        polls := [⟨reader, .reading
          (numbered t.cursor.offset (lines newline (windowLines t)))
          (t.cursor.offset + (windowLines t).length)⟩] } := by
    have hlock := lockCursor_of_grown t.memory h.inode hle
    rw [Option.getD_some] at hlock
    simp [TailStep.exec, hidle, hfile, hsource, hlock, hlt, hwindow, windowLines]
  unfold soloPoll at horderly ⊢
  rw [List.append_assoc, stepsSatisfy_append, stepsSatisfy_append, hopened] at horderly
  rw [List.append_assoc, run_append, run_append, hopened]
  obtain ⟨-, hrecords, -⟩ := horderly
  have hlength := length_numbered t.cursor.offset (lines newline (windowLines t))
  rw [← hlength] at hrecords ⊢
  obtain ⟨hpolls, hcursor, -⟩ := run_records (t := { t with
      cursor := { t.cursor with inode := some cfg.inode, size := bytes.length }
      polls := [⟨reader, .reading
        (numbered t.cursor.offset (lines newline (windowLines t)))
        (t.cursor.offset + (windowLines t).length)⟩] }) _ rfl hreader hrecords
  simp only [run_singleton, TailStep.exec, hpolls]
  exact ⟨rfl, rfl⟩

/-! ## Runs -/

/-- What a draft cites: a rollout line by its offset, a transcript record by its uuid, its parent's
uuid or its offset. -/
def Cites (cfg : Tailer) (line : Nat × List UInt8) (ref : Option String) : Prop :=
  (cfg.adapter = codex → ref = some (codexSourceRef cfg.path line.1)) ∧
    (cfg.adapter = claude → ∃ record, decode cfg.py line.2 = .record record ∧
      ref = claudeSourceRef cfg.py cfg.path record line.1)

theorem codex_cites {py : Python} {path : String} {id : Nat} {source : Source} {memory : Memory}
    {offset : Nat} {record : Record} {emissions : List Emission} {e : Emission}
    (h : (codex py path id source memory offset record).2 = some emissions)
    (he : e ∈ emissions) : e.sourceRef = codexSourceRef path offset := by
  cases h
  obtain ⟨kind, -, rfl⟩ := List.mem_map.mp he
  rfl

theorem claude_cites {py : Python} {path : String} {id : Nat} {source : Source} {memory : Memory}
    {offset : Nat} {record : Record} {emissions : List Emission} {e : Emission}
    (h : (claude py path id source memory offset record).2 = some emissions)
    (he : e ∈ emissions) : some e.sourceRef = claudeSourceRef py path record offset := by
  unfold claude at h
  split at h
  · split at h
    · cases h
      cases he
    · obtain ⟨ref, href, rfl⟩ := Option.map_eq_some_iff.mp h
      obtain ⟨kind, -, rfl⟩ := List.mem_map.mp he
      exact href.symm
  · cases h
    cases he

/-- What one line comes to cites the line. -/
theorem cites_readLine {cfg : Tailer} {sources : List Source} {memory : Memory} {line : ReadLine}
    {content : Content} (h : content ∈ (readLine cfg sources memory line).2) :
    Cites cfg line.2 content.2.2.1 := by
  unfold readLine at h
  split at h
  · next source record hsource hdecode =>
    obtain ⟨e, he, rfl⟩ := List.mem_map.mp h
    cases hemissions :
        (cfg.adapter cfg.py cfg.path line.1 source memory line.2.1 record).2 with
    | none =>
      rw [hemissions] at he
      cases he
    | some emissions =>
      rw [hemissions, Option.getD_some] at he
      refine ⟨fun hcodex => ?_, fun hclaude => ⟨record, hdecode, ?_⟩⟩
      · rw [hcodex] at hemissions
        exact congrArg some (codex_cites hemissions he)
      · rw [hclaude] at hemissions
        exact claude_cites hemissions he
  · cases h

theorem cites_readAll {cfg : Tailer} {sources : List Source} {memory : Memory}
    {done : List ReadLine} {content : Content}
    (h : content ∈ (readAll cfg sources memory done).2) :
    ∃ line ∈ done, Cites cfg line.2 content.2.2.1 := by
  induction done generalizing memory with
  | nil => cases h
  | cons line rest ih =>
    obtain hnow | hlater := List.mem_append.mp h
    · exact ⟨line, by simp, cites_readLine hnow⟩
    · obtain ⟨l, hl, hcites⟩ := ih hlater
      exact ⟨l, by simp [hl], hcites⟩

/-- In an orderly run, whenever no poll is under way: the cursor stands behind a line end; the
stored drafts are what the lines from the attach offset to the cursor come to, each line read
once, in order, by some source; each draft cites the line it is of; and a poll that is left alone
moves the cursor on as long as a line ends behind it. -/
theorem tailed_lines_once (cfg : Tailer) (steps : List TailStep)
    (horderly : StepsSatisfy (TailStep.exec cfg) (Orderly cfg) {} steps)
    (hidle : (run (TailStep.exec cfg) {} steps).polls = []) :
    let t := run (TailStep.exec cfg) {} steps
    Whole newline ((t.file.getD []).take t.cursor.offset) ∧
    (∃ readers : List Nat, readers.length = t.gone.length ∧
      t.stored.map contentOf = (readAll cfg t.sources {} (readers.zip t.gone)).2) ∧
    (∀ d ∈ t.stored, ∃ line ∈ t.gone, Cites cfg line d.sourceRef) ∧
    (∀ reader now, reader < t.sources.length → newline ∈ (t.file.getD []).drop t.cursor.offset →
      StepsSatisfy (TailStep.exec cfg) (Orderly cfg) t
        (soloPoll reader (lines newline (windowLines t)).length now) →
      let t' := run (TailStep.exec cfg) t
        (soloPoll reader (lines newline (windowLines t)).length now)
      t'.polls = [] ∧ t.cursor.offset < t'.cursor.offset) := by
  intro t
  have hok : t.Ok cfg := Tail.ok_run horderly
  obtain ⟨done, -, haccount, hposition⟩ := hok.account
  have hdone : done.map Prod.snd = t.gone := by
    rw [show t.polls = [] from hidle] at hposition
    exact hposition
  have hstored : t.stored.map contentOf = (readAll cfg t.sources {} done).2 := by
    rw [haccount]
  refine ⟨hok.whole_cursor, ⟨done.map Prod.fst, ?_, ?_⟩, ?_, ?_⟩
  · rw [← hdone, List.length_map, List.length_map]
  · rw [← hdone, ← List.unzip_fst, ← List.unzip_snd, List.zip_unzip]
    exact hstored
  · intro d hd
    have hcontent : contentOf d ∈ (readAll cfg t.sources {} done).2 := by
      rw [← hstored]
      exact List.mem_map_of_mem hd
    obtain ⟨line, hline, hcites⟩ := cites_readAll hcontent
    exact ⟨line.2, hdone ▸ List.mem_map_of_mem hline, hcites⟩
  · intro reader now hreader hmem hsolo
    obtain ⟨hpolls, hoffset⟩ := run_soloPoll hok hidle hreader now hmem hsolo
    refine ⟨hpolls, ?_⟩
    rw [hoffset]
    have hwindow := upToLast_ne_nil (newline_mem_window hok.short hmem)
    exact Nat.lt_add_of_pos_right (List.length_pos_iff.mpr hwindow)

/-- A file smaller than a poll's window has no stretch as long as one. -/
theorem short_of_length_lt {bytes : List UInt8} (h : bytes.length < maxPollBytes) :
    Short bytes := by
  intro window hwindow hlength
  have hle := hwindow.length_le
  omega

/-- The bytes of an ASCII text. -/
def asciiBytes (text : String) : List UInt8 := text.toList.map fun c => UInt8.ofNat c.toNat

/-- Python, as far as one record of each file goes. -/
def samplePython : Python where
  loads text :=
    if text = asciiBytes "\x7b\"type\":\"event_msg\",\"payload\":\x7b\"type\":\"task_started\"\x7d\x7d" then
      .value (.obj [("type", .str "event_msg"), ("payload", .obj [("type", .str "task_started")])])
    else if text = asciiBytes
        "\x7b\"type\":\"system\",\"subtype\":\"turn_duration\",\"uuid\":\"u\"\x7d" then
      .value (.obj [("type", .str "system"), ("subtype", .str "turn_duration"), ("uuid", .str "u")])
    else .refused
  str := Json.asStr

theorem decode_samplePython (raw : List UInt8) : decode samplePython raw ≠ .raised := by
  intro h
  simp only [decode, samplePython] at h
  split at h
  · cases h
  · split_ifs at h

/-- A source on a file that is not there yet, one line, and one poll. -/
def oneLine (text : String) (terminalId : String) (terminalId_ne : terminalId ≠ "") :
    List TailStep :=
  [.attach ⟨terminalId, terminalId_ne, "", false⟩, .grow (asciiBytes text ++ [newline])] ++
    soloPoll 0 1 0

theorem t_ne_empty : "t" ≠ "" := by decide

/-- A turn that starts in a rollout. -/
def oneTurnStarted : List TailStep :=
  oneLine "\x7b\"type\":\"event_msg\",\"payload\":\x7b\"type\":\"task_started\"\x7d\x7d" "t"
    t_ne_empty

def sampleRollout : Tailer := ⟨samplePython, "p", 1, codex⟩

/-- The turn it stores cites its line. -/
theorem tailed_lines_once_of_oneTurnStarted :
    let t := run (TailStep.exec sampleRollout) {} oneTurnStarted
    ∀ d ∈ t.stored, ∃ line ∈ t.gone, Cites sampleRollout line d.sourceRef := by
  refine (tailed_lines_once sampleRollout oneTurnStarted ?_ ?_).2.2.1
  · refine ⟨fun _ => whole_nil, short_of_length_lt (by decide +kernel), rfl, trivial, trivial,
      ⟨fun _ => rfl, ?_⟩, trivial, trivial⟩
    intro reader line rest stop hpoll
    exact ⟨decode_samplePython _, fun source record _ _ hnone => by cases hnone⟩
  · rw [← List.isEmpty_iff]
    decide +kernel

/-- What a draft cites, if it cites the offset of its line. -/
def CitesOffset (path : String) (line : Nat × List UInt8) (ref : Option String) : Prop :=
  ref = some (codexSourceRef path line.1) ∨
    ref = sourceRef "transcript" path (toString line.1) ∨
    ref = sourceRef "transcript" path ("@" ++ toString line.1)

/-- A turn that ends in a transcript. -/
def oneTurnEnded : List TailStep :=
  oneLine "\x7b\"type\":\"system\",\"subtype\":\"turn_duration\",\"uuid\":\"u\"\x7d" "t" t_ne_empty

def sampleTranscript : Tailer := ⟨samplePython, "p", 1, claude⟩

/-- A transcript record is cited by its uuid. -/
theorem transcript_not_cited_by_offset :
    ¬ ∀ cfg : Tailer, cfg.adapter = codex ∨ cfg.adapter = claude → ∀ steps : List TailStep,
      let t := run (TailStep.exec cfg) {} steps
      t.polls = [] →
        Whole newline ((t.file.getD []).take t.cursor.offset) ∧
        (∃ readers : List Nat, readers.length = t.gone.length ∧
          t.stored.map contentOf = (readAll cfg t.sources {} (readers.zip t.gone)).2) ∧
        ∀ d ∈ t.stored, ∃ line ∈ t.gone, CitesOffset cfg.path line d.sourceRef := by
  intro h
  have hidle : (run (TailStep.exec sampleTranscript) {} oneTurnEnded).polls = [] := by
    rw [← List.isEmpty_iff]
    decide +kernel
  have hcited := (h sampleTranscript (.inr rfl) oneTurnEnded hidle).2.2
  have hnone : ¬ ∀ ref ∈ (run (TailStep.exec sampleTranscript) {} oneTurnEnded).stored.map
        fun d => d.sourceRef,
      ∃ line ∈ (run (TailStep.exec sampleTranscript) {} oneTurnEnded).gone,
        CitesOffset "p" line ref := by
    unfold CitesOffset
    decide +kernel
  apply hnone
  intro ref href
  obtain ⟨d, hd, rfl⟩ := List.mem_map.mp href
  exact hcited d hd

end CliAgentOrchestrator.Truth
