import CliAgentOrchestrator.Library.Decimal
import CliAgentOrchestrator.Library.JsonReader

/-!
# The output of a run

`services/script_runner.py`: the bytes a script prints pass in chunks through a buffer that keeps the
last of them, and the output is read from the last line of what was kept that begins with the sentinel.
The buffer keeps the same bytes however they were cut (`pump_eq`). A cut within a line may leave a line
that was never printed, and a cut within a character may take the line break that stood before the
sentinel: apart from these the output is that of the last such line (`runOutput_iff`).
-/

set_option autoImplicit false

namespace CliAgentOrchestrator.Workflow.RunOutput

open Library

/-! ## The buffer -/

/-- SOURCE: services/script_runner.py:137-170 (`_RingBuffer`) -/
structure RingBuffer where
  buf : List Nat := []
  cap : Nat
  truncated : Bool := false

/-- SOURCE: services/script_runner.py:153-159 -/
def RingBuffer.append (ring : RingBuffer) (chunk : List Nat) : RingBuffer :=
  let buf := ring.buf ++ chunk
  if ring.cap < buf.length then
    { ring with buf := buf.drop (buf.length - ring.cap), truncated := true }
  else { ring with buf := buf }

/-- The line in front of a tail. -/
def outputMarker (cap : Nat) : Text :=
  text "[... output truncated: exceeded " ++ digits cap ++ text " bytes; showing tail only ...]"

/-- SOURCE: services/script_runner.py:161-169 -/
def RingBuffer.text (ring : RingBuffer) : Text :=
  let tail := decodeReplace ring.buf
  if ring.truncated then outputMarker ring.cap ++ 10 :: tail else tail

/-- An empty chunk is the end of the stream.
SOURCE: services/script_runner.py:172-187 (`_pump`) -/
def pump : List (List Nat) → RingBuffer → RingBuffer
  | [], ring => ring
  | chunk :: rest, ring => if chunk.isEmpty then ring else pump rest (ring.append chunk)

/-! ## The sentinel -/

/-- SOURCE: services/script_runner.py:77 -/
def sentinelPrefix : Text := text "CAO_WORKFLOW_OUTPUT:"

def malformedWarning : Text :=
  text "malformed sentinel payload: CAO_WORKFLOW_OUTPUT: line present but "
    ++ text "not valid JSON — output recorded as null"

/-- What stands behind the prefix: a value, or a note that it is none. -/
def readPayload (payload : Text) : JsonTree × List Text :=
  match JsonTree.loads payload with
  | some value => (value, [])
  | none => (.null, [malformedWarning])

/-- What a line with the prefix is read as. -/
def readLine (line : Text) : JsonTree × List Text :=
  readPayload (line.drop sentinelPrefix.length)

/-- The lines with the prefix. -/
def sentinels (stdoutText : Text) : List Text :=
  (splitlines stdoutText).filter sentinelPrefix.isPrefixOf

/-- SOURCE: services/script_runner.py:193-216 (`_scan_sentinel`) -/
def scanSentinel (stdoutText : Text) : JsonTree × List Text :=
  match (sentinels stdoutText).getLast? with
  | none => (.null, [])
  | some line => readLine line

/-- SOURCE: src/src/cao_workflow/__init__.py:266-272 (`emit_output`) -/
def emitOutput (value : JsonTree) : List Nat :=
  utf8 (sentinelPrefix ++ value.dumpsWith [32] ++ [10])

/-! ## What is kept -/

def dropped (cap : Nat) (out : List Nat) : List Nat := out.take (out.length - cap)

def kept (cap : Nat) (out : List Nat) : List Nat := out.drop (out.length - cap)

/-- The buffer that bytes have passed through. -/
def held (cap : Nat) (out : List Nat) : RingBuffer where
  buf := kept cap out
  cap := cap
  truncated := cap < out.length

theorem append_held (cap : Nat) (out chunk : List Nat) :
    (held cap out).append chunk = held cap (out ++ chunk) := by
  have hbuf : kept cap out ++ chunk = (out ++ chunk).drop (out.length - cap) :=
    (List.drop_append_of_le_length (by omega)).symm
  have hlength : (kept cap out ++ chunk).length
      = out.length + chunk.length - (out.length - cap) := by
    rw [hbuf, List.length_drop, List.length_append]
  have hkept : ∀ k, k = (out ++ chunk).length - cap →
      (out ++ chunk).drop k = kept cap (out ++ chunk) := fun k hk => by rw [hk, kept]
  rw [List.length_append] at hkept
  unfold RingBuffer.append
  simp only [held, hlength, List.length_append]
  split_ifs with hover
  · have htruncated : cap < out.length + chunk.length := by omega
    rw [hbuf, List.drop_drop, hkept _ (by omega), decide_eq_true htruncated]
  · have htruncated : cap < out.length ↔ cap < out.length + chunk.length := by omega
    rw [hbuf, hkept _ (by omega), decide_eq_decide.mpr htruncated]

/-- However the bytes are cut, the same of them are kept. -/
theorem pump_eq {chunks : List (List Nat)} (hchunks : ∀ chunk ∈ chunks, chunk ≠ []) (cap : Nat) :
    pump chunks { cap := cap } = held cap chunks.flatten := by
  have hrun : ∀ out, pump chunks (held cap out) = held cap (out ++ chunks.flatten) := by
    induction chunks with
    | nil =>
      intro out
      rw [List.flatten_nil, List.append_nil]
      rfl
    | cons chunk chunks ih =>
      intro out
      obtain ⟨hchunk, hchunks⟩ := List.forall_mem_cons.mp hchunks
      rw [pump, if_neg (by simpa using hchunk), append_held, ih hchunks, List.flatten_cons,
        List.append_assoc]
  have hnew : held cap [] = { cap := cap } := by simp [held, kept]
  rw [← hnew, hrun, List.nil_append]

/-! ## Lines of bytes -/

/-- The lines that bytes are read as. -/
def lines (out : List Nat) : List Text := splitlines (decodeReplace out)

/-- What follows the bytes begins a line. -/
def BeginsLine (before : List Nat) : Prop :=
  ∀ c ∈ (decodeReplace before).getLast?, isLineBreak c = true

theorem unbroken_replacement (n : Nat) : Unbroken (List.replicate n 0xFFFD) := by
  intro c hc
  rw [(List.mem_replicate.mp hc).2]
  decide

/-- All lines but the first are lines wherever the bytes are cut. -/
theorem mem_lines_of_mem_tail {before after : List Nat} {line : Text}
    (h : line ∈ (lines after).tail) : line ∈ lines (before ++ after) := by
  obtain ⟨a, rest, rfl, ha, hrest⟩ := exists_continuations after
  rw [lines, decodeReplace_continuations ha, tail_splitlines_append (unbroken_replacement _)] at h
  cases rest with
  | nil => cases h
  | cons b rest =>
    rw [← List.append_assoc, lines, decodeReplace_append_start (hrest b rfl)]
    obtain ⟨first, front, heq⟩ := splitlines_append_tail (decodeReplace (before ++ a))
      (decodeReplace_ne_nil (List.cons_ne_nil b rest))
    rw [heq]
    exact List.mem_append_right _ h

/-- A line with the prefix that is first begins with its first byte. -/
theorem head_of_prefix {after : List Nat} {line : Text} (hline : (lines after).head? = some line)
    (hmatch : sentinelPrefix <+: line) :
    ∃ b rest, after = b :: rest ∧ isContinuation b = false
      ∧ (decodeReplace after).head? = some 67 := by
  obtain ⟨more, rfl⟩ := hmatch
  have hhead : (decodeReplace after).head? = some 67 := head_splitlines hline
  obtain ⟨a, rest, rfl, ha, hrest⟩ := exists_continuations after
  cases a with
  | nil =>
    cases rest with
    | nil => cases hhead
    | cons b rest => exact ⟨b, rest, rfl, hrest b rfl, hhead⟩
  | cons b a =>
    rw [decodeReplace_continuations ha, List.length_cons, List.replicate_succ] at hhead
    cases hhead

/-- Where the bytes begin a line, so do the lines with the prefix. -/
theorem mem_lines_of_beginsLine {before after : List Nat} {line : Text}
    (hbegins : BeginsLine before) (hline : (lines after).head? = some line)
    (hmatch : sentinelPrefix <+: line) : line ∈ lines (before ++ after) := by
  obtain ⟨b, rest, rfl, hb, hhead⟩ := head_of_prefix hline hmatch
  rw [lines, decodeReplace_append_start hb,
    splitlines_append_of_break hbegins (by rw [hhead]; decide)]
  exact List.mem_append_right _ (List.mem_of_mem_head? hline)

/-! ## What the scan reads -/

theorem marker_unbroken (cap : Nat) : Unbroken (outputMarker cap) := by
  refine unbroken_append.mpr ⟨unbroken_append.mpr ⟨by decide, fun c hc => ?_⟩, by decide⟩
  have hdigit := mem_digits hc
  simp only [isLineBreak, Bool.or_eq_false_iff, Bool.and_eq_false_iff, decide_eq_false_iff_not,
    beq_eq_false_iff_ne]
  omega

/-- The marker is a line of its own, and has no prefix. -/
theorem sentinels_held (cap : Nat) (out : List Nat) :
    sentinels (held cap out).text = (lines (kept cap out)).filter sentinelPrefix.isPrefixOf := by
  unfold RingBuffer.text sentinels held
  dsimp only
  split_ifs with hover
  · rw [splitlines_unbroken_append (marker_unbroken cap), List.filter_cons_of_neg]
    · rfl
    · have hfirst : ∃ rest, outputMarker cap = 91 :: rest := ⟨_, rfl⟩
      obtain ⟨rest, heq⟩ := hfirst
      rw [heq, List.isPrefixOf_iff_prefix]
      rintro ⟨more, hmore⟩
      exact absurd (List.cons.inj hmore).1 (by decide)
  · rfl

/-- What is left of a line that was cut, and begins with the prefix, is the last such line: it is JSON
for something, but no line with the prefix says so. -/
def StrayFragment (cap : Nat) (out : List Nat) : Prop :=
  ¬BeginsLine (dropped cap out) ∧ ∃ line, (lines (kept cap out)).head? = some line
    ∧ sentinelPrefix <+: line
    ∧ (∀ later ∈ (lines (kept cap out)).tail, ¬sentinelPrefix <+: later)
    ∧ readLine line ≠ (.null, [])
    ∧ ∀ full ∈ lines out, sentinelPrefix <+: full → readLine full ≠ readLine line

/-- The scan reads no line, or one that was printed. -/
def ReadsALine (out : List Nat) (read : JsonTree × List Text) : Prop :=
  read = (.null, []) ∨ ∃ line ∈ lines out, sentinelPrefix <+: line ∧ read = readLine line

theorem dropped_append_kept (cap : Nat) (out : List Nat) : dropped cap out ++ kept cap out = out :=
  List.take_append_drop _ out

theorem scanSentinel_held (cap : Nat) (out : List Nat) :
    scanSentinel (held cap out).text
      = match ((lines (kept cap out)).filter sentinelPrefix.isPrefixOf).getLast? with
        | none => (.null, [])
        | some line => readLine line := by
  rw [scanSentinel, sentinels_held]
  rfl

theorem filter_eq_nil {ls : List Text} (h : ∀ line ∈ ls, ¬sentinelPrefix <+: line) :
    ls.filter sentinelPrefix.isPrefixOf = [] := by
  refine List.filter_eq_nil_iff.mpr fun line hline => ?_
  rw [List.isPrefixOf_iff_prefix]
  exact h line hline

/-- The last line with the prefix is among the later lines, or it is the first, or there is none. -/
theorem scan_cases (cap : Nat) (out : List Nat) :
    (∃ line ∈ (lines (kept cap out)).tail, sentinelPrefix <+: line
        ∧ scanSentinel (held cap out).text = readLine line)
      ∨ (∀ later ∈ (lines (kept cap out)).tail, ¬sentinelPrefix <+: later)
        ∧ ((∃ line, (lines (kept cap out)).head? = some line ∧ sentinelPrefix <+: line
            ∧ scanSentinel (held cap out).text = readLine line)
          ∨ (∀ line ∈ lines (kept cap out), ¬sentinelPrefix <+: line)
            ∧ scanSentinel (held cap out).text = (.null, [])) := by
  rw [scanSentinel_held]
  generalize lines (kept cap out) = ls
  by_cases hlater : ∀ later ∈ ls.tail, ¬sentinelPrefix <+: later
  · refine .inr ⟨hlater, ?_⟩
    cases ls with
    | nil => exact .inr ⟨fun line hline => (nomatch hline), rfl⟩
    | cons first rest =>
      rw [List.tail_cons] at hlater
      by_cases hfirst : sentinelPrefix <+: first
      · refine .inl ⟨first, rfl, hfirst, ?_⟩
        rw [List.filter_cons_of_pos (List.isPrefixOf_iff_prefix.mpr hfirst),
          filter_eq_nil hlater]
        rfl
      · refine .inr ⟨List.forall_mem_cons.mpr ⟨hfirst, hlater⟩, ?_⟩
        rw [filter_eq_nil (List.forall_mem_cons.mpr ⟨hfirst, hlater⟩)]
        rfl
  · cases ls with
    | nil => exact absurd (fun later hmem => (nomatch hmem)) hlater
    | cons first rest =>
      rw [List.tail_cons] at hlater ⊢
      have hne : rest.filter sentinelPrefix.isPrefixOf ≠ [] := by
        intro hnil
        refine hlater fun later hmem hmatch => ?_
        have hmem := List.mem_filter.mpr ⟨hmem, List.isPrefixOf_iff_prefix.mpr hmatch⟩
        rw [hnil] at hmem
        cases hmem
      obtain ⟨hmem, hmatch⟩ := List.mem_filter.mp (List.getLast_mem hne)
      refine .inl ⟨_, hmem, List.isPrefixOf_iff_prefix.mp hmatch, ?_⟩
      have hlast : ((first :: rest).filter sentinelPrefix.isPrefixOf).getLast?
          = some ((rest.filter sentinelPrefix.isPrefixOf).getLast hne) := by
        rw [← List.singleton_append, List.filter_append, List.getLast?_append_of_ne_nil _ hne,
          List.getLast?_eq_some_getLast hne]
      rw [hlast]

theorem readsALine_iff (cap : Nat) (out : List Nat) :
    ReadsALine out (scanSentinel (held cap out).text) ↔ ¬StrayFragment cap out := by
  have hwhole := dropped_append_kept cap out
  constructor
  · rintro hreads ⟨-, line, hline, hmatch, hlater, hread, hnone⟩
    have hscan : scanSentinel (held cap out).text = readLine line := by
      obtain ⟨later, hmem, hlaterPrefix, -⟩ | ⟨-, hcase⟩ := scan_cases cap out
      · exact absurd hlaterPrefix (hlater later hmem)
      · obtain ⟨first, hfirst, -, hscan⟩ | ⟨hno, -⟩ := hcase
        · rw [hscan, Option.some.inj (hfirst.symm.trans hline)]
        · exact absurd hmatch (hno line (List.mem_of_mem_head? hline))
    rw [hscan] at hreads
    obtain hnull | ⟨full, hfull, hfullPrefix, heq⟩ := hreads
    · exact hread hnull
    · exact hnone full hfull hfullPrefix heq.symm
  · intro hstray
    obtain ⟨line, hmem, hmatch, hscan⟩ | ⟨hlater, hcase⟩ := scan_cases cap out
    · exact .inr ⟨line, hwhole ▸ mem_lines_of_mem_tail hmem, hmatch, hscan⟩
    · obtain ⟨line, hline, hmatch, hscan⟩ | ⟨-, hscan⟩ := hcase
      · by_cases hbegins : BeginsLine (dropped cap out)
        · exact .inr ⟨line, hwhole ▸ mem_lines_of_beginsLine hbegins hline hmatch, hmatch, hscan⟩
        · by_contra hreads
          refine hstray ⟨hbegins, line, hline, hmatch, hlater, fun hnull => ?_,
            fun full hfull hfullPrefix heq => ?_⟩
          · exact hreads (.inl (hscan.trans hnull))
          · exact hreads (.inr ⟨full, hfull, hfullPrefix, hscan.trans heq.symm⟩)
      · exact .inl hscan

/-! ## What was printed last -/

/-- The value is printed on the last line with the prefix. It is made of finite numbers and texts of
code points, and no key of an object comes twice. -/
structure LastEmitted (out before after : List Nat) (v : JsonTree) : Prop where
  printed : out = before ++ (emitOutput v ++ after)
  begins : BeginsLine before
  last : ∀ line ∈ lines after, ¬sentinelPrefix <+: line
  printable : v.Printable
  texts : v.AllTexts fun t => ∀ c ∈ t, c < 0x110000

/-- The cut is within the line break in front of the line. -/
def CutInBreak (cap : Nat) (out after : List Nat) (v : JsonTree) : Prop :=
  ∃ rest, rest ≠ [] ∧ (∀ b ∈ rest, isContinuation b = true)
    ∧ kept cap out = rest ++ (emitOutput v ++ after)

/-- What is printed behind the prefix is read back, unless a text in it holds a pair of
surrogates. -/
theorem readPayload_dumps_iff {v : JsonTree} (hv : v.Printable)
    (htexts : v.AllTexts fun t => ∀ c ∈ t, c < 0x110000) :
    readPayload (v.dumpsWith [32]) = (v, []) ↔ v.AllTexts JsonTree.Joined := by
  constructor
  · intro h
    unfold readPayload at h
    split at h
    · next w hloads =>
      cases h
      exact JsonTree.joined_of_loads hloads
    · cases (Prod.mk.inj h).2
  · intro hjoined
    rw [readPayload, JsonTree.loads_dumpsWith (by decide) hv (hjoined.and v htexts)]

theorem line_plain {v : JsonTree} (hv : v.Printable) :
    JsonTree.Plain (sentinelPrefix ++ v.dumpsWith [32]) :=
  JsonTree.plain_append (by decide) (JsonTree.plain_dumpsWith (by decide) v hv)

theorem unbroken_of_plain {t : Text} (ht : JsonTree.Plain t) : Unbroken t := by
  intro c hc
  have hrange := ht c hc
  simp only [isLineBreak, Bool.or_eq_false_iff, Bool.and_eq_false_iff, decide_eq_false_iff_not,
    beq_eq_false_iff_ne]
  omega

/-- A printed line is read as it stands, whatever is in front of it and behind it. -/
theorem decodeReplace_emitOutput {v : JsonTree} (hv : v.Printable) (before after : List Nat) :
    decodeReplace (before ++ (emitOutput v ++ after))
      = decodeReplace before
        ++ ((sentinelPrefix ++ v.dumpsWith [32]) ++ 10 :: decodeReplace after) := by
  have hascii : ∀ c ∈ sentinelPrefix ++ v.dumpsWith [32] ++ [10], c < 0x80 := by
    intro c hc
    obtain hc | hc := List.mem_append.mp hc
    · have hrange := line_plain hv c hc
      omega
    · rw [List.mem_singleton.mp hc]
      decide
  have hfirst : ∃ rest, emitOutput v ++ after = 67 :: rest := by
    rw [emitOutput, utf8_ascii hascii]
    exact ⟨_, rfl⟩
  obtain ⟨rest, hrest⟩ := hfirst
  rw [hrest, decodeReplace_append_start (by decide), ← hrest, emitOutput,
    decodeReplace_utf8_append (isScalar_of_ascii hascii)]
  simp only [List.append_assoc, List.singleton_append]

/-- The line is the last that is read with the prefix, where it begins one. -/
theorem scan_emitted {cap : Nat} {out rest after : List Nat} {v : JsonTree}
    (hkept : kept cap out = rest ++ (emitOutput v ++ after)) (hrest : BeginsLine rest)
    (hlast : ∀ line ∈ lines after, ¬sentinelPrefix <+: line) (hv : v.Printable) :
    scanSentinel (held cap out).text = readPayload (v.dumpsWith [32]) := by
  have hlines : lines (kept cap out)
      = lines rest ++ (sentinelPrefix ++ v.dumpsWith [32]) :: lines after := by
    rw [lines, hkept, decodeReplace_emitOutput hv, splitlines_append_of_break hrest,
      splitlines_unbroken_append (unbroken_of_plain (line_plain hv))]
    · rfl
    · exact fun h => absurd (Option.some.inj h) (by decide)
  have hmatch : sentinelPrefix.isPrefixOf (sentinelPrefix ++ v.dumpsWith [32]) = true :=
    List.isPrefixOf_iff_prefix.mpr (List.prefix_append _ _)
  rw [scanSentinel_held, hlines, List.filter_append, List.filter_cons_of_pos hmatch,
    filter_eq_nil hlast, List.getLast?_append_of_ne_nil _ (List.cons_ne_nil _ _),
    List.getLast?_singleton]
  dsimp only
  rw [readLine, List.drop_left]

/-- Behind what is left of a character it begins no line, and there is no other. -/
theorem scan_cutInBreak {cap : Nat} {out after : List Nat} {v : JsonTree}
    (hcut : CutInBreak cap out after v)
    (hlast : ∀ line ∈ lines after, ¬sentinelPrefix <+: line) (hv : v.Printable) :
    scanSentinel (held cap out).text = (.null, []) := by
  obtain ⟨rest, hne, hrest, hkept⟩ := hcut
  have hreplaced : decodeReplace rest = List.replicate rest.length 0xFFFD := by
    have h := decodeReplace_continuations hrest []
    rwa [List.append_nil, show decodeReplace [] = [] from rfl, List.append_nil] at h
  have hline : Unbroken (List.replicate rest.length 0xFFFD
      ++ (sentinelPrefix ++ v.dumpsWith [32])) :=
    unbroken_append.mpr ⟨unbroken_replacement _, unbroken_of_plain (line_plain hv)⟩
  have hlines : lines (kept cap out)
      = (List.replicate rest.length 0xFFFD ++ (sentinelPrefix ++ v.dumpsWith [32]))
        :: lines after := by
    rw [lines, hkept, decodeReplace_emitOutput hv, hreplaced, ← List.append_assoc,
      splitlines_unbroken_append hline]
    rfl
  have hnone : ∀ line ∈ lines (kept cap out), ¬sentinelPrefix <+: line := by
    rw [hlines, List.forall_mem_cons]
    refine ⟨?_, hlast⟩
    obtain ⟨b, rest, rfl⟩ := List.exists_cons_of_ne_nil hne
    rintro ⟨more, hmore⟩
    exact absurd (List.cons.inj hmore).1 (by decide)
  rw [scanSentinel_held, filter_eq_nil hnone]
  rfl

/-- A cut in front of the last character leaves the line it begins. -/
theorem beginsLine_of_append {before rest : List Nat} (h : BeginsLine (before ++ rest))
    (hrest : rest = [] ∨ ¬∀ b ∈ rest, isContinuation b = true) : BeginsLine rest := by
  obtain rfl | hstart := hrest
  · exact fun c hc => (nomatch hc)
  · obtain ⟨a, r, rfl, ha, hr⟩ := exists_continuations rest
    cases r with
    | nil => exact absurd (by rwa [List.append_nil]) hstart
    | cons b r =>
      have hne := decodeReplace_ne_nil (List.cons_ne_nil b r)
      unfold BeginsLine at h ⊢
      rw [← List.append_assoc, decodeReplace_append_start (hr b rfl),
        List.getLast?_append_of_ne_nil _ hne] at h
      rw [decodeReplace_append_start (hr b rfl), List.getLast?_append_of_ne_nil _ hne]
      exact h

theorem scan_lastEmitted_iff {cap : Nat} {out before after : List Nat} {v : JsonTree}
    (h : LastEmitted out before after v) (hfits : (emitOutput v ++ after).length ≤ cap) :
    scanSentinel (held cap out).text = (v, []) ↔
      v.AllTexts JsonTree.Joined ∧ (CutInBreak cap out after v → v = .null) := by
  obtain ⟨rfl, hbegins, hlast, hv, htexts⟩ := h
  generalize hk : (before ++ (emitOutput v ++ after)).length - cap = k
  have hkept : kept cap (before ++ (emitOutput v ++ after))
      = before.drop k ++ (emitOutput v ++ after) := by
    rw [kept, hk]
    refine List.drop_append_of_le_length ?_
    rw [List.length_append] at hk
    omega
  by_cases hcut : CutInBreak cap (before ++ (emitOutput v ++ after)) after v
  · rw [scan_cutInBreak hcut hlast hv]
    constructor
    · intro heq
      cases heq
      exact ⟨trivial, fun _ => rfl⟩
    · rintro ⟨-, hnull⟩
      rw [hnull hcut]
  · have hrest : before.drop k = [] ∨ ¬∀ b ∈ before.drop k, isContinuation b = true := by
      by_contra hboth
      obtain ⟨hne, hall⟩ := not_or.mp hboth
      exact hcut ⟨before.drop k, hne, not_not.mp hall, hkept⟩
    rw [← List.take_append_drop k before] at hbegins
    rw [scan_emitted hkept (beginsLine_of_append hbegins hrest) hlast hv,
      readPayload_dumps_iff hv htexts]
    exact ⟨fun hjoined => ⟨hjoined, fun hc => absurd hc hcut⟩, fun hboth => hboth.1⟩

/-! ## The output as a whole -/

/-- The output is the value that was printed last, where the buffer holds its line, and it is always
read from a line that was printed, exactly where the value holds no pair of surrogates, no cut is within
the line break in front of its line, and no cut leaves a fragment that passes for a line. -/
theorem runOutput_iff {chunks : List (List Nat)} (hchunks : ∀ chunk ∈ chunks, chunk ≠ [])
    (cap : Nat) :
    ((∀ v before after, LastEmitted chunks.flatten before after v →
        (emitOutput v ++ after).length ≤ cap →
          scanSentinel (pump chunks { cap := cap }).text = (v, []))
      ∧ ReadsALine chunks.flatten (scanSentinel (pump chunks { cap := cap }).text)) ↔
      (∀ v before after, LastEmitted chunks.flatten before after v →
        (emitOutput v ++ after).length ≤ cap →
          v.AllTexts JsonTree.Joined ∧ (CutInBreak cap chunks.flatten after v → v = .null))
        ∧ ¬StrayFragment cap chunks.flatten := by
  rw [pump_eq hchunks, readsALine_iff]
  refine and_congr ?_ Iff.rfl
  constructor
  · intro h v before after hlast hfits
    exact (scan_lastEmitted_iff hlast hfits).mp (h v before after hlast hfits)
  · intro h v before after hlast hfits
    exact (scan_lastEmitted_iff hlast hfits).mpr (h v before after hlast hfits)

/-- A sentinel line cut in two. -/
theorem runOutput_twoChunks :
    ((∀ v before after, LastEmitted [text "CAO_WORKFLOW_", text "OUTPUT:5\n"].flatten before after v →
        (emitOutput v ++ after).length ≤ 64 →
          scanSentinel (pump [text "CAO_WORKFLOW_", text "OUTPUT:5\n"] { cap := 64 }).text = (v, []))
      ∧ ReadsALine [text "CAO_WORKFLOW_", text "OUTPUT:5\n"].flatten
        (scanSentinel (pump [text "CAO_WORKFLOW_", text "OUTPUT:5\n"] { cap := 64 }).text)) ↔
      (∀ v before after,
        LastEmitted [text "CAO_WORKFLOW_", text "OUTPUT:5\n"].flatten before after v →
        (emitOutput v ++ after).length ≤ 64 →
          v.AllTexts JsonTree.Joined ∧ (CutInBreak 64
            [text "CAO_WORKFLOW_", text "OUTPUT:5\n"].flatten after v → v = .null))
        ∧ ¬StrayFragment 64 [text "CAO_WORKFLOW_", text "OUTPUT:5\n"].flatten :=
  runOutput_iff (by decide) 64

/-- The buffer cuts a line behind its first character, and what is left passes for a sentinel. -/
theorem fragment_read :
    ¬∀ (chunks : List (List Nat)) (cap : Nat), (∀ chunk ∈ chunks, chunk ≠ []) →
      ReadsALine chunks.flatten (scanSentinel (pump chunks { cap := cap }).text) := by
  intro h
  obtain hnull | ⟨line, hline, hmatch, -⟩ :=
    h [text "xCAO_WORKFLOW_OUTPUT:5\n"] 22 (by decide)
  · revert hnull
    decide +kernel
  · have hall : ∀ line ∈ lines [text "xCAO_WORKFLOW_OUTPUT:5\n"].flatten,
        sentinelPrefix.isPrefixOf line = false := by decide +kernel
    have hmarked := List.isPrefixOf_iff_prefix.mpr hmatch
    rw [hall line hline] at hmarked
    cases hmarked

end CliAgentOrchestrator.Workflow.RunOutput
