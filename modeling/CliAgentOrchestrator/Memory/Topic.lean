import CliAgentOrchestrator.Memory.Format

/-!
# What `store` writes into a topic file

The text `store` leaves in a topic file, from the text it finds there: a new file, or the old one
with its header line rewritten and one more section. The time of the section is the entry's own
where it is in order, else the clock's, with the time the entry came with in the first line of
its body.
-/

set_option autoImplicit false

namespace CliAgentOrchestrator.Memory

open Library

/-- SOURCE: models/memory.py (MemoryScope) -/
inductive Scope where
  | global
  | project
  | session
  | agent
  | federated
deriving DecidableEq

def Scope.value : Scope → Text
  | .global => text "global"
  | .project => text "project"
  | .session => text "session"
  | .agent => text "agent"
  | .federated => text "federated"

/-- SOURCE: models/memory.py (MemoryType) -/
inductive MemoryType where
  | user
  | feedback
  | project
  | reference
deriving DecidableEq

def MemoryType.value : MemoryType → Text
  | .user => text "user"
  | .feedback => text "feedback"
  | .project => text "project"
  | .reference => text "reference"

/-- The time an entry comes with, in UTC; one that no `datetime` holds overflows there. -/
inductive Occurred where
  | utc (time : Datetime)
  | outOfRange

/-- What the write of a topic file raises. -/
inductive Fault where
  /-- `OverflowError`: the time has no UTC form. -/
  | overflow
  /-- `ValueError` of `strptime`. -/
  | badTime
  /-- `re.error`, or the `IndexError` of an unknown group. -/
  | badTemplate
  /-- `UnicodeEncodeError`, a `ValueError`. -/
  | notEncodable
deriving DecidableEq

/-- What one call writes, past its validation. -/
structure Entry where
  scope : Scope
  type : MemoryType
  /-- Normalised. -/
  tags : Text
  content : Text
  occurredAt : Option Occurred

/-- What came of a write. -/
structure Written where
  text : Text
  memoryId : Text
  createdAt : Datetime
  /-- The time in the heading of the new section. -/
  time : Stamp
  /-- What stands under the heading. -/
  body : Text
  clamped : Bool

/-- SOURCE: services/memory_service.py:677-695
(`_occurred_at_would_clamp`) -/
def occurredAtWouldClamp (occurredAt : Option Datetime) (latest : Option Stamp)
    (now : Datetime) : Bool :=
  match occurredAt with
  | none => false
  | some time =>
    decide (now.rank < time.rank) ||
      match latest with
      | none => false
      | some stamp => decide (time.rank < stamp.at.rank)

/-- The time of entry in UTC. -/
def Entry.time (e : Entry) : Except Fault (Option Datetime) :=
  match e.occurredAt with
  | none => .ok none
  | some (.utc time) => .ok (some time)
  | some .outOfRange => .error .overflow

/-- The first and the last section time of a topic file. -/
def sectionTimes (existing : Text) : Except Fault (Option (Stamp × Stamp)) :=
  match timestamps existing with
  | [] => .ok none
  | first :: rest =>
    match strptime first with
    | none => .error .badTime
    | some created =>
      match strptime ((first :: rest).getLast (List.cons_ne_nil _ _)) with
      | none => .error .badTime
      | some latest => .ok (some (created, latest))

/-- The first line of a clamped entry's body. -/
def provenance (time : Datetime) : Text :=
  text "_Originally recorded: " ++ time.stamp.iso ++ text "_\n"

/-- The heading's time, the section's body and whether the time was clamped. -/
def placed (occurredAt : Option Datetime) (latest : Option Stamp) (now : Datetime)
    (content : Text) : Stamp × Text × Bool :=
  match occurredAt with
  | none => (now.stamp, content, false)
  | some time =>
    if occurredAtWouldClamp (some time) latest now then
      (now.stamp, provenance time ++ content, true)
    else (time.stamp, content, false)

/-- A section under its heading. -/
def sectionText (time : Stamp) (body : Text) : Text := time.heading ++ 10 :: body ++ [10]

/-- A file of one section. -/
def freshText (key id : Text) (e : Entry) (time : Stamp) (body : Text) : Text :=
  text "# " ++ key ++ [10] ++ header id e.scope.value e.type.value e.tags ++ [10, 10]
    ++ sectionText time body

/-- The file with one more section. -/
def appendedText (existing : Text) (time : Stamp) (body : Text) : Text :=
  rstrip (· == 10) existing ++ [10, 10] ++ sectionText time body

/-- The write itself: text that has no UTF-8 form is refused. -/
def encoded (w : Written) : Except Fault Written :=
  if Encodable w.text then .ok w else .error .notEncodable

/-- The id in the header of a topic file, else the one just made. -/
def memoryId (fresh existing : Text) : Text :=
  (runAfter (text "<!-- id: ") isIdChar existing).getD fresh

/-- SOURCE: services/memory_service.py:783-908 (`store`, from the
clock reading to the write of the topic file) -/
def storeText (key fresh : Text) (e : Entry) (now : Datetime) (file : Option Text) :
    Except Fault Written :=
  match e.time with
  | .error fault => .error fault
  | .ok occurredAt =>
    match file with
    | none =>
      let (time, body, clamped) := placed occurredAt none now e.content
      let createdAt := if clamped then now else occurredAt.getD now
      encoded ⟨freshText key fresh e time body, fresh, createdAt, time, body, clamped⟩
    | some raw =>
      let existing := universalNewlines raw
      match sectionTimes existing with
      | .error fault => .error fault
      | .ok times =>
        let id := memoryId fresh existing
        match rewriteHeader (header id e.scope.value e.type.value e.tags) existing with
        | none => .error .badTemplate
        | some rewritten =>
          let (time, body, clamped) := placed occurredAt (times.map Prod.snd) now e.content
          encoded ⟨appendedText rewritten time body, id,
            (times.map fun t => t.1.at).getD now, time, body, clamped⟩

theorem encoded_ok {w w' : Written} (h : encoded w = .ok w') : w' = w ∧ Encodable w.text := by
  unfold encoded at h
  split_ifs at h with hutf
  exact ⟨(Except.ok.inj h).symm, hutf⟩

theorem encoded_of_encodable {w : Written} (h : Encodable w.text) : encoded w = .ok w := by
  rw [encoded, if_pos h]

/-- A new file. -/
theorem storeText_fresh {key fresh : Text} {e : Entry} {now : Datetime} {w : Written}
    (h : storeText key fresh e now none = .ok w) :
    ∃ occurredAt, e.time = .ok occurredAt ∧ w.memoryId = fresh
      ∧ (w.time, w.body, w.clamped) = placed occurredAt none now e.content
      ∧ w.text = freshText key fresh e w.time w.body ∧ Encodable w.text := by
  unfold storeText at h
  cases htime : e.time with
  | error fault =>
    rw [htime] at h
    cases h
  | ok occurredAt =>
    simp only [htime] at h
    obtain ⟨rfl, hutf⟩ := encoded_ok h
    exact ⟨occurredAt, rfl, rfl, rfl, rfl, hutf⟩

/-- An old file with one more section. -/
theorem storeText_update {key fresh raw : Text} {e : Entry} {now : Datetime} {w : Written}
    (h : storeText key fresh e now (some raw) = .ok w) :
    ∃ occurredAt times rewritten, e.time = .ok occurredAt
      ∧ sectionTimes (universalNewlines raw) = .ok times
      ∧ w.memoryId = memoryId fresh (universalNewlines raw)
      ∧ rewriteHeader (header w.memoryId e.scope.value e.type.value e.tags)
          (universalNewlines raw) = some rewritten
      ∧ (w.time, w.body, w.clamped) = placed occurredAt (times.map Prod.snd) now e.content
      ∧ w.text = appendedText rewritten w.time w.body ∧ Encodable w.text := by
  unfold storeText at h
  cases htime : e.time with
  | error fault =>
    rw [htime] at h
    cases h
  | ok occurredAt =>
    cases htimes : sectionTimes (universalNewlines raw) with
    | error fault =>
      simp only [htime, htimes] at h
      cases h
    | ok times =>
      cases hrewrite : rewriteHeader (header (memoryId fresh (universalNewlines raw))
          e.scope.value e.type.value e.tags) (universalNewlines raw) with
      | none =>
        simp only [htime, htimes, hrewrite] at h
        cases h
      | some rewritten =>
        simp only [htime, htimes, hrewrite] at h
        obtain ⟨rfl, hutf⟩ := encoded_ok h
        exact ⟨occurredAt, times, rewritten, rfl, rfl, rfl, hrewrite, rfl, rfl, hutf⟩

/-- Where the text has a UTF-8 form a new file is written. -/
theorem storeText_fresh_ok {key fresh : Text} {e : Entry} {now : Datetime}
    {occurredAt : Option Datetime} (htime : e.time = .ok occurredAt)
    (hutf : Encodable (freshText key fresh e (placed occurredAt none now e.content).1
      (placed occurredAt none now e.content).2.1)) :
    ∃ w, storeText key fresh e now none = .ok w := by
  unfold storeText
  simp only [htime]
  exact ⟨_, encoded_of_encodable hutf⟩

/-- Where the section times are read, the template is taken and the text has a UTF-8 form, a
section is added. -/
theorem storeText_update_ok {key fresh raw rewritten : Text} {e : Entry} {now : Datetime}
    {occurredAt : Option Datetime} {times : Option (Stamp × Stamp)}
    (htime : e.time = .ok occurredAt) (htimes : sectionTimes (universalNewlines raw) = .ok times)
    (hrewrite : rewriteHeader (header (memoryId fresh (universalNewlines raw)) e.scope.value
      e.type.value e.tags) (universalNewlines raw) = some rewritten)
    (hutf : Encodable (appendedText rewritten
      (placed occurredAt (times.map Prod.snd) now e.content).1
      (placed occurredAt (times.map Prod.snd) now e.content).2.1)) :
    ∃ w, storeText key fresh e now (some raw) = .ok w := by
  unfold storeText
  simp only [htime, htimes, hrewrite]
  exact ⟨_, encoded_of_encodable hutf⟩

/-! ## The header -/

theorem Scope.notMem_value {c : Nat} (hc : isAsciiLetter c = false) (s : Scope) :
    c ∉ s.value := by
  intro hmem
  have hall : ∀ d ∈ s.value, isAsciiLetter d = true := by cases s <;> decide
  rw [hall c hmem] at hc
  cases hc

theorem MemoryType.notMem_value {c : Nat} (hc : isAsciiLetter c = false) (t : MemoryType) :
    c ∉ t.value := by
  intro hmem
  have hall : ∀ d ∈ t.value, isAsciiLetter d = true := by cases t <;> decide
  rw [hall c hmem] at hc
  cases hc

theorem memoryId_chars {fresh : Text} (h : ∀ c ∈ fresh, isIdChar c = true) (existing : Text) :
    ∀ c ∈ memoryId fresh existing, isIdChar c = true := by
  unfold memoryId
  cases hrun : runAfter (text "<!-- id: ") isIdChar existing with
  | none => exact h
  | some run => exact (runAfter_spec hrun).2

/-- As a template the header of an entry does what its tags do. -/
theorem notMem_entryFront {id : Text} (hid : ∀ c ∈ id, isIdChar c = true) (scope : Scope)
    (type : MemoryType) : 92 ∉ headerFront id scope.value type.value :=
  notMem_headerFront (by decide) (fun hmem => absurd (hid 92 hmem) (by decide))
    (scope.notMem_value (by decide)) (type.notMem_value (by decide))

/-- A header whose tags stand for themselves replaces the one in the file as it is. -/
theorem rewriteHeader_quiet {id tags existing before line rest : Text}
    (hid : ∀ c ∈ id, isIdChar c = true) (scope : Scope) (type : MemoryType)
    (hquiet : quiet (tags ++ text " -->") = true)
    (hfind : findHeader existing = some (before, line, rest)) :
    rewriteHeader (header id scope.value type.value tags) existing
      = some (before ++ header id scope.value type.value tags ++ rest) := by
  have htemplate : quiet (header id scope.value type.value tags) = true := by
    rw [header_eq, quiet_append_of_notMem (notMem_entryFront hid scope type), hquiet]
  simp only [rewriteHeader, hfind, expand_quiet line htemplate, Option.map_some]

/-! ## UTF-8 -/

theorem encodable_of_ascii {t : Text} (h : ∀ c ∈ t, c < 128) : Encodable t := by
  intro c hc
  have hlt := h c hc
  simp only [isSurrogate, Bool.and_eq_false_iff, decide_eq_false_iff_not]
  omega

theorem Stamp.encodable_iso (s : Stamp) : Encodable s.iso := by
  refine encodable_of_ascii fun c hc => ?_
  have h := s.iso_chars c hc
  omega

/-- The body of a section has a UTF-8 form where its content has one. -/
theorem encodable_placed {occurredAt : Option Datetime} {latest : Option Stamp} {now : Datetime}
    {content : Text} (h : Encodable content) :
    Encodable (placed occurredAt latest now content).2.1 := by
  unfold placed
  cases occurredAt with
  | none => exact h
  | some time =>
    simp only
    split
    · simp only [provenance, encodable_append]
      exact ⟨⟨⟨by decide, time.stamp.encodable_iso⟩, by decide⟩, h⟩
    · exact h

theorem encodable_sectionText {time : Stamp} {body : Text} (h : Encodable body) :
    Encodable (sectionText time body) := by
  have hshape : sectionText time body
      = text "## " ++ time.iso ++ text "\n" ++ body ++ text "\n" := by
    simp [sectionText, Stamp.heading, text]
  rw [hshape]
  simp only [encodable_append]
  exact ⟨⟨⟨⟨by decide, time.encodable_iso⟩, by decide⟩, h⟩, by decide⟩

theorem encodable_header {id tags : Text} (hid : ∀ c ∈ id, isIdChar c = true)
    (htags : Encodable tags) (scope : Scope) (type : MemoryType) :
    Encodable (header id scope.value type.value tags) := by
  have hidAscii : Encodable id := by
    refine encodable_of_ascii fun c hc => ?_
    have h := hid c hc
    simp only [isIdChar, Bool.or_eq_true, Bool.and_eq_true, decide_eq_true_eq, beq_iff_eq] at h
    omega
  have hscope : Encodable scope.value := by cases scope <;> decide
  have htype : Encodable type.value := by cases type <;> decide
  simp only [header, encodable_append]
  exact ⟨⟨⟨⟨⟨⟨⟨⟨by decide, hidAscii⟩, by decide⟩, hscope⟩, by decide⟩, htype⟩, by decide⟩,
    htags⟩, by decide⟩

theorem encodable_freshText {key id : Text} (hkey : ∀ c ∈ key, isSlugChar c = true)
    (hid : ∀ c ∈ id, isIdChar c = true) {e : Entry} (htags : Encodable e.tags) {time : Stamp}
    {body : Text} (hbody : Encodable body) : Encodable (freshText key id e time body) := by
  have hkeyAscii : Encodable key := by
    refine encodable_of_ascii fun c hc => ?_
    have h := hkey c hc
    simp only [isSlugChar, Bool.or_eq_true, Bool.and_eq_true, decide_eq_true_eq, beq_iff_eq] at h
    omega
  simp only [freshText, encodable_append]
  exact ⟨⟨⟨⟨⟨by decide, hkeyAscii⟩, by decide⟩, encodable_header hid htags _ _⟩, by decide⟩,
    encodable_sectionText hbody⟩

theorem encodable_appendedText {existing : Text} (h : Encodable existing) {time : Stamp}
    {body : Text} (hbody : Encodable body) : Encodable (appendedText existing time body) := by
  have hstrip : Encodable (rstrip (· == 10) existing) :=
    fun c hc => h c ((List.rdropWhile_prefix _ _).subset hc)
  simp only [appendedText, encodable_append]
  exact ⟨⟨hstrip, by decide⟩, encodable_sectionText hbody⟩

/-! ## The sections of the text -/

/-- The header of an entry holds the headings of its tags. -/
theorem headings_entryHeader {id : Text} (hid : ∀ c ∈ id, isIdChar c = true) (e : Entry) :
    headings (header id e.scope.value e.type.value e.tags) = headings e.tags :=
  headings_header (fun hmem => absurd (hid 35 hmem) (by decide))
    (e.scope.notMem_value (by decide)) (e.type.notMem_value (by decide)) e.tags

theorem headings_sectionText (time : Stamp) (body : Text) :
    headings (sectionText time body) = time.heading :: headings body := by
  have hlf : stopsHeading 10 = true := by decide
  have hbody : headings (body ++ [10]) = headings body := by
    rw [headings_append_stop hlf]
    exact List.append_nil _
  have hshape : sectionText time body = time.heading ++ 10 :: (body ++ [10]) := by
    simp [sectionText]
  rw [hshape, headings_heading, hbody]

theorem headings_provenance (time : Datetime) (content : Text) :
    headings (provenance time ++ content) = headings content := by
  refine headings_append_of_notMem ?_ content
  simp only [provenance, List.mem_append, not_or]
  exact ⟨⟨by decide, notMem_iso time.stamp⟩, by decide⟩

/-- The body of a section has the headings of its content. -/
theorem headings_placed (occurredAt : Option Datetime) (latest : Option Stamp) (now : Datetime)
    (content : Text) : headings (placed occurredAt latest now content).2.1 = headings content := by
  unfold placed
  cases occurredAt with
  | none => rfl
  | some time =>
    simp only
    split
    · exact headings_provenance time content
    · rfl

/-- A new file has the headings of its tags, one of its own, and those of its body. -/
theorem headings_freshText {key id : Text} (hkey : ∀ c ∈ key, isSlugChar c = true)
    (hid : ∀ c ∈ id, isIdChar c = true) (e : Entry) (time : Stamp) (body : Text) :
    headings (freshText key id e time body)
      = headings e.tags ++ time.heading :: headings body := by
  have hlf : stopsHeading 10 = true := by decide
  have hfirst : headings (text "# " ++ key ++ [10]) = [] := by
    have hno : 35 ∉ 32 :: (key ++ [10]) := by
      simp only [List.mem_cons, List.mem_append, List.not_mem_nil, or_false, not_or]
      exact ⟨by decide, fun hmem => absurd (hkey 35 hmem) (by decide), by decide⟩
    have hshape : text "# " ++ key ++ [10] = 35 :: 32 :: (key ++ [10]) := by simp [text]
    rw [hshape]
    have hhead : fits headingShape (35 :: 32 :: (key ++ [10])) = false := rfl
    rw [headings, occurrences, if_neg (by simp [hhead])]
    exact headings_of_notMem hno
  have hsection : headings ([10, 10] ++ sectionText time body) = time.heading :: headings body := by
    show headings (10 :: 10 :: sectionText time body) = _
    rw [headings_cons_stop hlf, headings_cons_stop hlf, headings_sectionText]
  rw [freshText, List.append_assoc _ [10, 10], headings_between (header_brackets _ _ _ _), hfirst,
    hsection, headings_entryHeader hid, List.nil_append]

/-- One more section brings one heading, beside those of its body. -/
theorem headings_appendedText (existing : Text) (time : Stamp) (body : Text) :
    headings (appendedText existing time body)
      = headings existing ++ time.heading :: headings body := by
  have hlf : stopsHeading 10 = true := by decide
  have hstrip : headings (rstrip (· == 10) existing) = headings existing := by
    unfold rstrip
    induction existing using List.reverseRecOn with
    | nil => rfl
    | append_singleton t c ih =>
      rw [List.rdropWhile_concat]
      split
      · rename_i hc
        obtain rfl : c = 10 := beq_iff_eq.mp hc
        rw [ih, headings_append_stop hlf]
        exact (List.append_nil _).symm
      · rfl
  have hshape : appendedText existing time body
      = rstrip (· == 10) existing ++ 10 :: (10 :: sectionText time body) := by
    simp [appendedText]
  rw [hshape, headings_append_stop hlf, headings_cons_stop hlf, hstrip, headings_sectionText]

/-- A text without headings has no section times. -/
theorem sectionTimes_of_headings {existing : Text} (h : headings existing = []) :
    sectionTimes existing = .ok none := by
  have htimestamps : timestamps existing = [] := by rw [timestamps, h, List.map_nil]
  rw [sectionTimes, htimestamps]

/-- Two files that got the same section differ where the old files do, but for line feeds at the
end. -/
theorem appendedText_inj {a b : Text} {time : Stamp} {body : Text}
    (h : appendedText a time body = appendedText b time body) :
    rstrip (· == 10) a = rstrip (· == 10) b := by
  simp only [appendedText] at h
  exact List.append_cancel_right (List.append_cancel_right h)

/-! ## What a store leaves in place -/

/-- No line of the text has the end of a header line in it. -/
def NoHeaderEnd (t : Text) : Prop := ∀ tags, 10 ∉ tags → ¬ headerEnd tags <:+: t

/-- A header line ends within a line. -/
theorem notMem_headerEnd {tags : Text} (h : 10 ∉ tags) : 10 ∉ headerEnd tags := by
  simp only [headerEnd, List.mem_append, not_or]
  exact ⟨⟨by decide, h⟩, by decide⟩

/-- A text without a bar has no header line. -/
theorem noHeaderEnd_of_notMem {t : Text} (h : 124 ∉ t) : NoHeaderEnd t := by
  intro tags _ hwithin
  exact h (hwithin.subset (by simp [headerEnd, text]))

/-- What has no header line end has none in any part. -/
theorem NoHeaderEnd.of_infix {t t' : Text} (h : NoHeaderEnd t) (hpart : t' <:+: t) :
    NoHeaderEnd t' := fun tags hline hwithin => h tags hline (hwithin.trans hpart)

/-- Two texts a line feed apart. -/
theorem NoHeaderEnd.append_lf {t t' : Text} (h : NoHeaderEnd t) (h' : NoHeaderEnd t') :
    NoHeaderEnd (t ++ 10 :: t') := by
  intro tags hline hwithin
  obtain hfront | hback := infix_of_lf (notMem_headerEnd hline) hwithin
  · exact h tags hline hfront
  · exact h' tags hline hback

/-- The file ends in what stores have put on, which no rewrite of a header touches. -/
def Ends (t tail : Text) : Prop :=
  tail = [] ∨ (∃ front, t = front ++ 10 :: tail) ∧ 13 ∉ tail ∧ NoHeaderEnd tail

/-- Reading the file keeps such an end. -/
theorem Ends.read {t tail : Text} (h : Ends t tail) :
    Ends (universalNewlines t) tail := by
  obtain hnil | ⟨⟨front, rfl⟩, hcr, hfree⟩ := h
  · exact .inl hnil
  · exact .inr ⟨universalNewlines_append_lf front hcr, hcr, hfree⟩

/-- A rewritten header stands in front of such an end: the line it replaces cannot reach into it. -/
theorem Ends.rewritten {new t tail rewritten : Text} (h : Ends t tail)
    (hrewrite : rewriteHeader new t = some rewritten) : Ends rewritten tail := by
  obtain hnil | ⟨⟨front, rfl⟩, hcr, hfree⟩ := h
  · exact .inl hnil
  · refine .inr ⟨?_, hcr, hfree⟩
    unfold rewriteHeader at hrewrite
    split at hrewrite
    · obtain ⟨_, -, rfl⟩ := Option.map_eq_some_iff.mp hrewrite
      exact ⟨front, rfl⟩
    · next before found rest hfind =>
      obtain ⟨line, -, rfl⟩ := Option.map_eq_some_iff.mp hrewrite
      obtain ⟨hsplit, inner, tags, hline, rfl⟩ := findHeader_spec hfind
      obtain ⟨mid, -, hrest⟩ | ⟨mid, hmid, hrest⟩ := List.append_eq_append_iff.mp hsplit.symm
      · exact ⟨before ++ line ++ mid, by rw [hrest]; simp⟩
      · cases mid with
        | nil => exact ⟨before ++ line, congrArg _ hrest.symm⟩
        | cons c mid =>
          cases hrest
          have hsuffix : headerEnd tags <:+ front ++ 10 :: mid := by
            rw [← hmid]
            exact ⟨before ++ 60 :: inner, by simp⟩
          exact absurd ((suffix_of_lf (notMem_headerEnd hline) hsuffix).isInfix.trans
            (List.prefix_append mid rest).isInfix) (hfree tags hline)

/-- What a section holds: its heading, and the body of which the content is the end. -/
theorem section_ends (occurredAt : Option Datetime) (latest : Option Stamp) (now : Datetime)
    {content : Text} (hcr : 13 ∉ content) (hfree : NoHeaderEnd content) :
    let p := placed occurredAt latest now content
    content <:+ p.2.1 ∧ 13 ∉ sectionText p.1 p.2.1 ∧ NoHeaderEnd (sectionText p.1 p.2.1) := by
  have hiso : ∀ (s : Stamp) (c : Nat), c = 13 ∨ c = 124 → c ∉ s.iso := by
    intro s c hc hmem
    have h := s.iso_chars c hmem
    omega
  have hheading : ∀ (s : Stamp) (c : Nat), c = 13 ∨ c = 124 → c ∉ s.heading := by
    intro s c hc
    simp only [Stamp.heading, List.mem_append, not_or]
    refine ⟨?_, hiso s c hc⟩
    obtain rfl | rfl := hc <;> decide
  have hsection : ∀ (s : Stamp) (body : Text), 13 ∉ body → NoHeaderEnd body →
      13 ∉ sectionText s body ∧ NoHeaderEnd (sectionText s body) := by
    intro s body hbody hbodyFree
    have hshape : sectionText s body = s.heading ++ 10 :: (body ++ 10 :: []) := by
      simp [sectionText]
    rw [hshape]
    refine ⟨by simp [hheading s 13 (.inl rfl), hbody], ?_⟩
    exact (noHeaderEnd_of_notMem (hheading s 124 (.inr rfl))).append_lf
      (hbodyFree.append_lf (noHeaderEnd_of_notMem List.not_mem_nil))
  intro p
  simp only [p, placed]
  split
  · exact ⟨List.suffix_refl _, hsection _ _ hcr hfree⟩
  · next time =>
    split
    · have hshape : provenance time ++ content
          = (text "_Originally recorded: " ++ time.stamp.iso ++ text "_") ++ 10 :: content := by
        simp [provenance, text]
      have hline : ∀ c, c = 13 ∨ c = 124 →
          c ∉ text "_Originally recorded: " ++ time.stamp.iso ++ text "_" := by
        intro c hc
        simp only [List.mem_append, not_or]
        refine ⟨⟨?_, hiso _ c hc⟩, ?_⟩ <;> obtain rfl | rfl := hc <;> decide
      refine ⟨List.suffix_append _ _, hsection _ _ ?_ ?_⟩
      · rw [hshape, List.mem_append, not_or]
        exact ⟨hline 13 (.inl rfl), List.not_mem_cons_of_ne_of_not_mem (by decide) hcr⟩
      · rw [hshape]
        exact (noHeaderEnd_of_notMem (hline 124 (.inr rfl))).append_lf hfree
    · exact ⟨List.suffix_refl _, hsection _ _ hcr hfree⟩

/-- One more section after such an end. -/
theorem Ends.appended {t tail : Text} (h : Ends t tail) {time : Stamp} {body : Text}
    (hcr : 13 ∉ sectionText time body) (hfree : NoHeaderEnd (sectionText time body)) :
    ∃ tail', Ends (appendedText t time body) tail' ∧ body <:+: tail' ∧
      ∀ word, rstrip (· == 10) word = word → word <:+: tail → word <:+: tail' := by
  have hbody : body <:+: sectionText time body :=
    ⟨time.heading ++ [10], [10], by simp [sectionText]⟩
  have hsection : 13 ∉ 10 :: sectionText time body ∧ NoHeaderEnd (10 :: sectionText time body) :=
    ⟨List.not_mem_cons_of_ne_of_not_mem (by decide) hcr,
      (noHeaderEnd_of_notMem List.not_mem_nil).append_lf hfree⟩
  have hnew : Ends (rstrip (· == 10) t ++ [10, 10] ++ sectionText time body)
      (10 :: sectionText time body) := .inr ⟨⟨rstrip (· == 10) t, by simp⟩, hsection⟩
  have hlost : rstrip (· == 10) tail = [] → ∀ word, rstrip (· == 10) word = word →
      word <:+: tail → word <:+: 10 :: sectionText time body := by
    intro hnil word hword hin
    have hword := infix_rstrip hword hin
    rw [hnil, List.infix_nil] at hword
    rw [hword]
    exact List.nil_infix
  obtain rfl | ⟨⟨front, rfl⟩, htailCr, htailFree⟩ := h
  · exact ⟨_, hnew, hbody.trans (List.suffix_cons _ _).isInfix, hlost rfl⟩
  · by_cases hnil : rstrip (· == 10) tail = []
    · exact ⟨_, hnew, hbody.trans (List.suffix_cons _ _).isInfix, hlost hnil⟩
    · have hpart : rstrip (· == 10) tail <:+: tail := (List.rdropWhile_prefix _ _).isInfix
      have hstrip : rstrip (· == 10) (front ++ 10 :: tail)
          = front ++ 10 :: rstrip (· == 10) tail := by
        have hstrip := @rstrip_append _ (front ++ [10]) _ hnil
        simpa using hstrip
      refine ⟨rstrip (· == 10) tail ++ 10 :: 10 :: sectionText time body,
        .inr ⟨⟨front, ?_⟩, ?_, ?_⟩, ?_, ?_⟩
      · simp [appendedText, hstrip]
      · rw [List.mem_append, not_or]
        exact ⟨fun hmem => htailCr (hpart.subset hmem),
          List.not_mem_cons_of_ne_of_not_mem (by decide) hsection.1⟩
      · exact (htailFree.of_infix hpart).append_lf hsection.2
      · exact hbody.trans ⟨rstrip (· == 10) tail ++ [10, 10], [], by simp⟩
      · exact fun word hword hin => (infix_rstrip hword hin).trans (List.prefix_append _ _).isInfix

/-- A store leaves what stores before it have put on, and puts its content behind it. -/
theorem storeText_ends {key fresh tail : Text} {e : Entry} {now : Datetime} {file : Option Text}
    {w : Written} (h : storeText key fresh e now file = .ok w) (hcr : 13 ∉ e.content)
    (hfree : NoHeaderEnd e.content) (htail : ∀ t, file = some t → Ends t tail) :
    ∃ tail', Ends w.text tail' ∧ e.content <:+: tail' ∧
      (file ≠ none → ∀ word, rstrip (· == 10) word = word → word <:+: tail → word <:+: tail') := by
  cases file with
  | none =>
    obtain ⟨occurredAt, -, -, hplaced, htext, -⟩ := storeText_fresh h
    obtain ⟨hsuffix, hsection, hsectionFree⟩ := section_ends occurredAt none now hcr hfree
    rw [← hplaced] at hsuffix hsection hsectionFree
    refine ⟨10 :: sectionText w.time w.body, .inr ⟨⟨text "# " ++ key ++ [10]
      ++ header fresh e.scope.value e.type.value e.tags, by rw [htext]; simp [freshText]⟩,
      List.not_mem_cons_of_ne_of_not_mem (by decide) hsection,
      (noHeaderEnd_of_notMem List.not_mem_nil).append_lf hsectionFree⟩, ?_, fun hne => absurd rfl hne⟩
    exact hsuffix.isInfix.trans ⟨10 :: w.time.heading ++ [10], [10], by simp [sectionText]⟩
  | some t =>
    obtain ⟨occurredAt, times, rewritten, -, -, -, hrewrite, hplaced, htext, -⟩ := storeText_update h
    obtain ⟨hsuffix, hsection, hsectionFree⟩ :=
      section_ends occurredAt (times.map Prod.snd) now hcr hfree
    rw [← hplaced] at hsuffix hsection hsectionFree
    obtain ⟨tail', hends, hbody, hkept⟩ :=
      ((htail t rfl).read.rewritten hrewrite).appended hsection hsectionFree
    rw [htext]
    exact ⟨tail', hends, hsuffix.isInfix.trans hbody, fun _ => hkept⟩

end CliAgentOrchestrator.Memory
