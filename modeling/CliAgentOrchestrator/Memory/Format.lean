import CliAgentOrchestrator.Library.Pattern
import CliAgentOrchestrator.Library.Timestamp

/-!
# The text of a topic file

A topic file is a heading with the key, a comment line that carries id, scope, type and tags, and
one section for each store, each under a heading with its time. The times are those of `datetime`:
fields within their ranges, written with four and two digits and read back by `strptime`, which
takes every decimal digit where its pattern says `\d`. The header line is found by the pattern
`store` rewrites it with.
-/

set_option autoImplicit false

namespace CliAgentOrchestrator.Memory

open Library

/-! ## Times -/

/-- The fields of a `datetime` without its microseconds, each within its range. -/
structure Stamp where
  year : Nat
  month : Nat
  day : Nat
  hour : Nat
  minute : Nat
  second : Nat
  year_range : 1 ≤ year ∧ year ≤ 9999
  month_range : 1 ≤ month ∧ month ≤ 12
  day_range : 1 ≤ day ∧ day ≤ monthLength year month
  hour_lt : hour < 24
  minute_lt : minute < 60
  second_lt : second < 60
deriving DecidableEq

/-- The first second of 2026. -/
def newYear2026 : Stamp :=
  ⟨2026, 1, 1, 0, 0, 0, by decide, by decide, by decide, by decide, by decide, by decide⟩

/-- The fields packed in order, which is how two datetimes are compared. -/
def Stamp.rank (s : Stamp) : Nat :=
  ((((s.year * 13 + s.month) * 32 + s.day) * 24 + s.hour) * 60 + s.minute) * 60 + s.second

/-- Microseconds of a second. -/
def microseconds : Nat := 1000000

/-- A UTC `datetime`. -/
structure Datetime where
  stamp : Stamp
  micro : Nat
  micro_lt : micro < microseconds

def Datetime.rank (d : Datetime) : Nat := d.stamp.rank * microseconds + d.micro

/-- The datetime a stamp is read back as: no microseconds. -/
def Stamp.at (s : Stamp) : Datetime := ⟨s, 0, by unfold microseconds; omega⟩

theorem Datetime.nonempty : Nonempty Datetime := by
  have hrange : 0 < microseconds := by
    unfold microseconds
    omega
  exact ⟨⟨⟨1970, 1, 1, 0, 0, 0, by decide, by decide, by decide, by decide, by decide, by decide⟩,
    0, hrange⟩⟩

/-- `strftime("%Y-%m-%dT%H:%M:%SZ")`. -/
def Stamp.iso (s : Stamp) : Text :=
  pad 4 s.year ++ [45] ++ pad 2 s.month ++ [45] ++ pad 2 s.day ++ [84] ++ pad 2 s.hour ++ [58]
    ++ pad 2 s.minute ++ [58] ++ pad 2 s.second ++ [90]

/-! ### Reading a time -/

/-- A digit between two bounds. -/
def digitIn (lo hi c : Nat) : Option Nat :=
  if 48 + lo ≤ c ∧ c ≤ 48 + hi then some (c - 48) else none

/-- `1[0-2]|0[1-9]`. -/
def readMonth (a b : Nat) : Option Nat :=
  if a = 49 then (digitIn 0 2 b).map (10 + ·)
  else if a = 48 then digitIn 1 9 b else none

/-- `3[0-1]|[1-2]\d|0[1-9]`. -/
def readDay (a b : Nat) : Option Nat :=
  if a = 51 then (digitIn 0 1 b).map (30 + ·)
  else if a = 49 ∨ a = 50 then (decimal b).map ((a - 48) * 10 + ·)
  else if a = 48 then digitIn 1 9 b else none

/-- `2[0-3]|[0-1]\d`. -/
def readHour (a b : Nat) : Option Nat :=
  if a = 50 then (digitIn 0 3 b).map (20 + ·)
  else if a = 48 ∨ a = 49 then (decimal b).map ((a - 48) * 10 + ·) else none

/-- `[0-5]\d`; the pattern's seconds 60 and 61 are then refused by `datetime`. -/
def readSixty (a b : Nat) : Option Nat :=
  if 48 ≤ a ∧ a ≤ 53 then (decimal b).map ((a - 48) * 10 + ·) else none

def readYear (a b c d : Nat) : Option Nat :=
  (decimal a).bind fun w => (decimal b).bind fun x => (decimal c).bind fun y =>
    (decimal d).map fun z => ((w * 10 + x) * 10 + y) * 10 + z

/-- The fields as a stamp, where each is within its range. -/
def Stamp.ofFields (year month day hour minute second : Nat) : Option Stamp :=
  if h : (1 ≤ year ∧ year ≤ 9999) ∧ (1 ≤ month ∧ month ≤ 12)
      ∧ (1 ≤ day ∧ day ≤ monthLength year month) ∧ hour < 24 ∧ minute < 60 ∧ second < 60 then
    some ⟨year, month, day, hour, minute, second, h.1, h.2.1, h.2.2.1, h.2.2.2.1, h.2.2.2.2.1,
      h.2.2.2.2.2⟩
  else none

/-- `datetime.strptime(text, "%Y-%m-%dT%H:%M:%SZ")` on what a section heading holds; none is its
`ValueError`. -/
def strptime : Text → Option Stamp
  | [y, y', y'', y''', 45, m, m', 45, d, d', 84, h, h', 58, n, n', 58, s, s', 90] =>
    (readYear y y' y'' y''').bind fun year => (readMonth m m').bind fun month =>
      (readDay d d').bind fun day => (readHour h h').bind fun hour =>
        (readSixty n n').bind fun minute => (readSixty s s').bind fun second =>
          Stamp.ofFields year month day hour minute second
  | _ => none

theorem decimal_ascii {d : Nat} (h : d < 10) : decimal (48 + d) = some d := by
  have hfirst : decide (48 ≤ 48 + d ∧ 48 + d < 48 + 10) = true := by
    rw [decide_eq_true_eq]
    omega
  unfold decimal decimalZeros
  rw [List.find?_cons, hfirst]
  simp

/-! ## Section headings -/

/-- `\d{4}-\d{2}-\d{2}T\d{2}:\d{2}:\d{2}Z`. -/
def stampShape : List (Nat → Bool) :=
  [isDecimal, isDecimal, isDecimal, isDecimal, (· == 45), isDecimal, isDecimal, (· == 45),
    isDecimal, isDecimal, (· == 84), isDecimal, isDecimal, (· == 58), isDecimal, isDecimal,
    (· == 58), isDecimal, isDecimal, (· == 90)]

/-- The heading of a section: `## ` and a time. -/
def headingShape : List (Nat → Bool) :=
  (· == 35) :: (· == 35) :: (· == 32) :: stampShape

theorem headingShape_ne : headingShape ≠ [] := List.cons_ne_nil _ _

/-- The headings `re.finditer` comes to: no match begins inside another, since `##` stands only
at the start of one. -/
def headings (t : Text) : List Text := occurrences headingShape t

/-- What `re.findall` gives of them: the times alone. -/
def timestamps (t : Text) : List Text := (headings t).map (·.drop 3)

def Stamp.heading (s : Stamp) : Text := text "## " ++ s.iso

/-- Characters no heading holds. -/
def stopsHeading (c : Nat) : Bool := headingShape.all fun p => !p c

theorem rejects_of_stopsHeading {c : Nat} (h : stopsHeading c = true) :
    ∀ p ∈ headingShape, p c = false := by
  intro p hp
  have := List.all_eq_true.mp h p hp
  simpa using this

theorem headings_append_stop {s : Nat} (hstop : stopsHeading s = true) (a b : Text) :
    headings (a ++ s :: b) = headings a ++ headings b :=
  occurrences_append_stop headingShape_ne (rejects_of_stopsHeading hstop) a b

theorem headings_cons_stop {s : Nat} (hstop : stopsHeading s = true) (b : Text) :
    headings (s :: b) = headings b :=
  occurrences_cons_stop headingShape_ne (rejects_of_stopsHeading hstop) b

theorem isDecimal_digit (n : Nat) : isDecimal (48 + n % 10) = true := by
  rw [isDecimal, decimal_ascii (Nat.mod_lt n (by omega))]
  rfl

/-- A written time has the shape of one. -/
theorem fits_iso (s : Stamp) (t : Text) : fits stampShape (s.iso ++ t) = true := by
  simp only [Stamp.iso, pad, List.cons_append, List.nil_append, stampShape, fits,
    isDecimal_digit, beq_self_eq_true, Bool.and_self]

theorem Stamp.length_heading (s : Stamp) : s.heading.length = 23 := rfl

/-- Where the first class takes no character of a text, nothing begins in it. -/
theorem headings_append_of_notMem {a : Text} (ha : 35 ∉ a) (b : Text) :
    headings (a ++ b) = headings b := by
  induction a with
  | nil => rfl
  | cons c a ih =>
    have hc : (c == 35) = false := by
      rw [beq_eq_false_iff_ne]
      rintro rfl
      exact ha (by simp)
    have hno : fits headingShape (c :: (a ++ b)) = false := fits_cons_stop hc _
    unfold headings at ih ⊢
    rw [List.cons_append, occurrences, if_neg (by simp [hno])]
    exact ih fun h => ha (by simp [h])

theorem headings_of_notMem {a : Text} (ha : 35 ∉ a) : headings a = [] := by
  have h := headings_append_of_notMem ha []
  rwa [List.append_nil] at h

/-- A blank that no digit follows ends a heading. -/
theorem headings_append_blank {c : Nat} (hc : isDecimal c = false) (t rest : Text) :
    headings (t ++ 32 :: c :: rest) = headings t ++ headings (c :: rest) := by
  have hfits : ∀ u, fits headingShape (u ++ 32 :: c :: rest) = fits headingShape u := by
    intro u
    rcases u with _ | ⟨a, _ | ⟨b, _ | ⟨d, u⟩⟩⟩
    · rfl
    · simp [headingShape, fits]
    · simp [headingShape, stampShape, fits, hc]
    · have hstop : ∀ p ∈ stampShape, p 32 = false := by
        have hall : (stampShape.all fun p => !p 32) = true := by decide
        intro p hp
        simpa using List.all_eq_true.mp hall p hp
      have hrest := fits_append_stop hstop u (c :: rest)
      simp only [List.cons_append, headingShape, fits, hrest]
  unfold headings
  induction t with
  | nil =>
    have hno : fits headingShape (32 :: c :: rest) = false := rfl
    show occurrences headingShape (32 :: c :: rest) = occurrences headingShape (c :: rest)
    rw [occurrences, if_neg (by simp [hno])]
  | cons a t ih =>
    have hhere := hfits (a :: t)
    rw [List.cons_append] at hhere ⊢
    rw [occurrences, occurrences, hhere, ih]
    by_cases h : fits headingShape (a :: t) = true
    · have htake : (a :: t ++ 32 :: c :: rest).take headingShape.length
          = (a :: t).take headingShape.length :=
        List.take_append_of_le_length (length_le_of_fits h)
      rw [List.cons_append] at htake
      rw [if_pos h, if_pos h, htake, List.cons_append]
    · rw [if_neg h, if_neg h]

/-- Which characters a written time holds. -/
theorem Stamp.iso_chars (s : Stamp) :
    ∀ c ∈ s.iso, (48 ≤ c ∧ c < 58) ∨ c = 45 ∨ c = 58 ∨ c = 84 ∨ c = 90 := by
  intro c hc
  simp only [Stamp.iso, List.mem_append, List.mem_singleton] at hc
  rcases hc with ((((((((((h | h) | h) | h) | h) | h) | h) | h) | h) | h) | h) | h
  all_goals first | exact .inl (mem_pad h) | omega

theorem notMem_iso (s : Stamp) : 35 ∉ s.iso := by
  intro hmem
  have h := s.iso_chars 35 hmem
  omega

theorem Stamp.heading_append (s : Stamp) (t : Text) :
    s.heading ++ t = 35 :: 35 :: 32 :: (s.iso ++ t) := by
  have hmark : text "## " = [35, 35, 32] := by decide
  simp only [Stamp.heading, hmark, List.cons_append, List.nil_append]

/-- A heading and what follows it on its own. -/
theorem headings_heading (s : Stamp) (t : Text) :
    headings (s.heading ++ 10 :: t) = s.heading :: headings t := by
  have hfits : fits headingShape (35 :: 35 :: 32 :: (s.iso ++ 10 :: t)) = true := by
    simp only [headingShape, fits, beq_self_eq_true, Bool.true_and, fits_iso]
  have hsecond : fits headingShape (35 :: 32 :: (s.iso ++ 10 :: t)) = false := rfl
  have htake : (35 :: 35 :: 32 :: (s.iso ++ 10 :: t)).take headingShape.length = s.heading := by
    rw [← s.heading_append]
    exact List.take_left' s.length_heading
  have hrest : headings (32 :: (s.iso ++ 10 :: t)) = headings t := by
    have hstart : 35 ∉ 32 :: (s.iso ++ [10]) := by
      simp [notMem_iso s]
    have h := headings_append_of_notMem hstart t
    simpa using h
  unfold headings at hrest ⊢
  rw [s.heading_append, occurrences, if_pos hfits, htake, occurrences, if_neg (by simp [hsecond])]
  exact congrArg _ hrest

/-- Reading with universal newlines changes no heading. -/
theorem headings_universalNewlines (t : Text) : headings (universalNewlines t) = headings t :=
  occurrences_universalNewlines headingShape_ne (rejects_of_stopsHeading (by decide))
    (rejects_of_stopsHeading (by decide)) t

/-! ## The header line -/

/-- The header line `store` writes. -/
def header (id scope type tags : Text) : Text :=
  text "<!-- id: " ++ id ++ text " | scope: " ++ scope ++ text " | type: " ++ type
    ++ text " | tags: " ++ tags ++ text " -->"

/-- `[a-f0-9\-]`. -/
def isIdChar (c : Nat) : Bool := (97 ≤ c && c ≤ 102) || (48 ≤ c && c ≤ 57) || c == 45

/-- `[^|]+ \|`: the text behind the bar, where a blank and something else stand before it. -/
def pastField (t : Text) : Option Text :=
  let field := t.takeWhile (· != 124)
  if 2 ≤ field.length ∧ field.getLast? = some 32 then (t.dropWhile (· != 124)).dropPrefix? [124]
  else none

/-- What follows a header line the text begins with:
`<!-- id: [a-f0-9\-]+ \| scope: [^|]+ \| type: [^|]+ \| tags: .*? -->`. -/
def pastHeader (t : Text) : Option Text :=
  (t.dropPrefix? (text "<!-- id: ")).bind fun t =>
    if (t.takeWhile isIdChar).isEmpty then none
    else
      ((t.dropWhile isIdChar).dropPrefix? (text " | scope: ")).bind fun t =>
        (pastField t).bind fun t =>
          (t.dropPrefix? (text " type: ")).bind fun t =>
            (pastField t).bind fun t =>
              (t.dropPrefix? (text " tags: ")).bind fun t =>
                (upTo (text " -->") t).map Prod.snd

/-- The first header line of a text, with what stands before and behind it. -/
def findHeader : Text → Option (Text × Text × Text)
  | [] => none
  | c :: t =>
    match pastHeader (c :: t) with
    | some rest => some ([], (c :: t).take ((c :: t).length - rest.length), rest)
    | none => (findHeader t).map fun (before, found, rest) => (c :: before, found, rest)

/-- `re.sub(pattern, new, text, count=1)`: none where the template is refused, which it is before
anything is looked for. -/
def rewriteHeader (new t : Text) : Option Text :=
  match findHeader t with
  | none => (expand [] new).map fun _ => t
  | some (before, found, rest) => (expand found new).map fun line => before ++ line ++ rest

theorem dropPrefix_spec {t lit rest : Text} (h : t.dropPrefix? lit = some rest) :
    t = lit ++ rest := by
  obtain ⟨lit', hsplit, hlit⟩ := List.dropPrefix?_eq_some_iff.mp h
  rw [hsplit, beq_iff_eq.mp hlit]

theorem dropPrefix_append (lit rest : Text) : (lit ++ rest).dropPrefix? lit = some rest :=
  List.dropPrefix?_append_of_beq rest (beq_self_eq_true lit)

theorem pastField_spec {t rest : Text} (h : pastField t = some rest) :
    ∃ field, t = field ++ 124 :: rest := by
  simp only [pastField] at h
  split_ifs at h
  have hsplit := List.takeWhile_append_dropWhile (p := (· != 124)) (l := t)
  rw [dropPrefix_spec h] at hsplit
  exact ⟨_, hsplit.symm⟩

/-- A field of at least one character, with the blanks and the bar around it. -/
theorem pastField_append {field : Text} (hne : field ≠ []) (hbar : 124 ∉ field) (rest : Text) :
    pastField (field ++ 32 :: 124 :: rest) = some rest := by
  have htake : (field ++ 32 :: 124 :: rest).takeWhile (· != 124) = field ++ [32] := by
    rw [List.takeWhile_append_of_pos]
    · rfl
    · intro c hc
      simp only [bne_iff_ne, ne_eq]
      rintro rfl
      exact hbar hc
  have hdrop : (field ++ 32 :: 124 :: rest).dropWhile (· != 124) = 124 :: rest := by
    rw [List.dropWhile_append_of_pos]
    · rfl
    · intro c hc
      simp only [bne_iff_ne, ne_eq]
      rintro rfl
      exact hbar hc
  have hlen := List.length_pos_iff.mpr hne
  simp only [pastField, htake, hdrop]
  rw [if_pos ⟨by rw [List.length_append]; simp; omega, by simp⟩]
  exact dropPrefix_append [124] rest

/-- The end of a header line, from the bar before its tags on. -/
def headerEnd (tags : Text) : Text := text "| tags: " ++ tags ++ text " -->"

/-- A header line begins with an angle bracket, and from the bar before its tags on it is within
a line. -/
theorem pastHeader_spec {t rest : Text} (h : pastHeader t = some rest) :
    ∃ front tags, 10 ∉ tags ∧ t = 60 :: (front ++ headerEnd tags ++ rest) := by
  simp only [pastHeader, Option.bind_eq_some_iff] at h
  obtain ⟨t₁, h₁, h⟩ := h
  split_ifs at h with hid
  simp only [Option.bind_eq_some_iff, Option.map_eq_some_iff] at h
  obtain ⟨t₂, h₂, t₃, h₃, t₄, h₄, t₅, h₅, t₆, h₆, ⟨piece, rest'⟩, h₇, rfl⟩ := h
  have e₁ := dropPrefix_spec h₁
  have e₂ := dropPrefix_spec h₂
  obtain ⟨f₃, e₃⟩ := pastField_spec h₃
  have e₄ := dropPrefix_spec h₄
  obtain ⟨f₅, e₅⟩ := pastField_spec h₅
  have e₆ := dropPrefix_spec h₆
  obtain ⟨e₇, hline⟩ := upTo_spec h₇
  have hrun := List.takeWhile_append_dropWhile (p := isIdChar) (l := t₁)
  rw [e₂, e₃, e₄, e₅, e₆, e₇] at hrun
  generalize t₁.takeWhile isIdChar = run at hrun
  refine ⟨text "!-- id: " ++ run ++ text " | scope: " ++ f₃ ++ [124] ++ text " type: " ++ f₅,
    piece, hline, ?_⟩
  rw [e₁, ← hrun]
  simp [text, headerEnd]

/-- What `pastHeader` needs of the fields to take a header line whole. -/
structure HeaderFields (id scope type tags : Text) : Prop where
  id_ne : id ≠ []
  id_chars : ∀ c ∈ id, isIdChar c = true
  scope_ne : scope ≠ []
  scope_bar : 124 ∉ scope
  type_ne : type ≠ []
  type_bar : 124 ∉ type
  tags_line : 10 ∉ tags
  tags_close : ¬ text " -->" <:+: tags

/-- The header line that was written is the one found at its place. -/
theorem pastHeader_header {id scope type tags : Text} (h : HeaderFields id scope type tags)
    (rest : Text) : pastHeader (header id scope type tags ++ rest) = some rest := by
  have hshape : header id scope type tags ++ rest
      = text "<!-- id: " ++ (id ++ (text " | scope: " ++ (scope ++ 32 :: 124 ::
        (text " type: " ++ (type ++ 32 :: 124 :: (text " tags: " ++ (tags ++
          (text " -->" ++ rest)))))))) := by
    simp [header, text]
  have hblank : isIdChar 32 = false := rfl
  have htake : ∀ u, (id ++ (text " | scope: " ++ u)).takeWhile isIdChar = id := by
    intro u
    rw [List.takeWhile_append_of_pos h.id_chars]
    show id ++ (32 :: _).takeWhile isIdChar = id
    rw [List.takeWhile_cons_of_neg (by simp [hblank]), List.append_nil]
  have hdrop : ∀ u, (id ++ (text " | scope: " ++ u)).dropWhile isIdChar
      = text " | scope: " ++ u := by
    intro u
    rw [List.dropWhile_append_of_pos h.id_chars]
    show (32 :: _).dropWhile isIdChar = _
    rw [List.dropWhile_cons_of_neg (by simp [hblank])]
    rfl
  have htags : upTo (text " -->") (tags ++ (text " -->" ++ rest)) = some (tags, rest) :=
    upTo_append (by decide) h.tags_line h.tags_close rest
  have hid : id.isEmpty = false := List.isEmpty_eq_false_iff.mpr h.id_ne
  rw [hshape, pastHeader]
  simp only [dropPrefix_append, Option.bind_some, htake, hdrop, hid, Bool.false_eq_true,
    if_false, pastField_append h.scope_ne h.scope_bar, pastField_append h.type_ne h.type_bar,
    htags, Option.map_some]

/-- A text between angle brackets keeps its headings to itself. -/
theorem headings_between {line : Text} (h : ∃ inner, line = 60 :: (inner ++ [62]))
    (before rest : Text) :
    headings (before ++ line ++ rest) = headings before ++ headings line ++ headings rest := by
  obtain ⟨inner, rfl⟩ := h
  have hopen : stopsHeading 60 = true := by decide
  have hclose : stopsHeading 62 = true := by decide
  have hline : headings (60 :: (inner ++ [62])) = headings inner := by
    rw [headings_cons_stop hopen, headings_append_stop hclose]
    exact List.append_nil _
  have hshape : before ++ 60 :: (inner ++ [62]) ++ rest
      = before ++ 60 :: (inner ++ 62 :: rest) := by simp
  rw [hshape, headings_append_stop hopen, headings_append_stop hclose, hline, List.append_assoc]

/-- The header line up to its tags. -/
def headerFront (id scope type : Text) : Text :=
  text "<!-- id: " ++ id ++ text " | scope: " ++ scope ++ text " | type: " ++ type
    ++ text " | tags: "

theorem header_eq (id scope type tags : Text) :
    header id scope type tags = headerFront id scope type ++ (tags ++ text " -->") := by
  rw [header, headerFront, List.append_assoc _ tags]

theorem notMem_headerFront {c : Nat} {id scope type : Text}
    (hlit : c ∉ text "<!-- id: | scope: | type: | tags: ") (hid : c ∉ id) (hscope : c ∉ scope)
    (htype : c ∉ type) : c ∉ headerFront id scope type := by
  have hparts : ∀ lit, lit ⊆ text "<!-- id: | scope: | type: | tags: " → c ∉ lit :=
    fun lit hsub hmem => hlit (hsub hmem)
  simp only [headerFront, List.mem_append, not_or]
  exact ⟨⟨⟨⟨⟨⟨hparts _ (by decide), hid⟩, hparts _ (by decide)⟩, hscope⟩, hparts _ (by decide)⟩,
    htype⟩, hparts _ (by decide)⟩

/-- The headings of a header line are those of its tags. -/
theorem headings_header {id scope type : Text} (hid : 35 ∉ id) (hscope : 35 ∉ scope)
    (htype : 35 ∉ type) (tags : Text) : headings (header id scope type tags) = headings tags := by
  have hfront : 35 ∉ headerFront id scope type :=
    notMem_headerFront (by decide) hid hscope htype
  have hback : headings (45 :: text "->") = [] := by decide
  rw [header_eq, headings_append_of_notMem hfront]
  show headings (tags ++ 32 :: 45 :: text "->") = headings tags
  rw [headings_append_blank (by decide), hback, List.append_nil]

theorem header_brackets (id scope type tags : Text) :
    ∃ inner, header id scope type tags = 60 :: (inner ++ [62]) := by
  refine ⟨text "!-- id: " ++ id ++ text " | scope: " ++ scope ++ text " | type: " ++ type
    ++ text " | tags: " ++ tags ++ text " --", ?_⟩
  simp [header, text]

/-- A text that begins with a header line has it for its first. -/
theorem findHeader_header {id scope type tags : Text} (h : HeaderFields id scope type tags)
    (rest : Text) :
    findHeader (header id scope type tags ++ rest) = some ([], header id scope type tags, rest) := by
  obtain ⟨inner, hinner⟩ := header_brackets id scope type tags
  have hpast := pastHeader_header h rest
  rw [hinner] at hpast ⊢
  rw [List.cons_append] at hpast ⊢
  have hlen : (60 :: (inner ++ [62] ++ rest)).length - rest.length
      = (60 :: (inner ++ [62])).length := by
    rw [← List.cons_append, List.length_append, Nat.add_sub_cancel]
  have htake : (60 :: (inner ++ [62] ++ rest)).take (60 :: (inner ++ [62])).length
      = 60 :: (inner ++ [62]) := by
    rw [← List.cons_append]
    exact List.take_left' rfl
  simp only [findHeader, hpast, hlen, htake]

/-- What stands around the first header line makes up the text with it. -/
theorem findHeader_spec {t before found rest : Text}
    (h : findHeader t = some (before, found, rest)) :
    t = before ++ found ++ rest ∧
      ∃ front tags, 10 ∉ tags ∧ found = 60 :: (front ++ headerEnd tags) := by
  induction t generalizing before with
  | nil => cases h
  | cons c t ih =>
    rw [findHeader] at h
    cases hpast : pastHeader (c :: t) with
    | some tail =>
      simp only [hpast, Option.some.injEq, Prod.mk.injEq] at h
      obtain ⟨rfl, rfl, rfl⟩ := h
      obtain ⟨front, tags, hline, hfront⟩ := pastHeader_spec hpast
      have hsplit : c :: t = (60 :: (front ++ headerEnd tags)) ++ tail := hfront
      have hlen : (c :: t).length - tail.length = (60 :: (front ++ headerEnd tags)).length := by
        rw [hsplit, List.length_append, Nat.add_sub_cancel]
      rw [hlen, hsplit, List.take_left']
      · exact ⟨rfl, front, tags, hline, rfl⟩
      · rfl
    | none =>
      simp only [hpast, Option.map_eq_some_iff] at h
      obtain ⟨⟨before', found', rest'⟩, hrest, hsame⟩ := h
      simp only [Prod.mk.injEq] at hsame
      obtain ⟨rfl, rfl, rfl⟩ := hsame
      obtain ⟨hsplit, hfront⟩ := ih hrest
      exact ⟨congrArg _ hsplit, hfront⟩

/-- The line it finds is between angle brackets. -/
theorem findHeader_brackets {t before found rest : Text}
    (h : findHeader t = some (before, found, rest)) : ∃ inner, found = 60 :: (inner ++ [62]) := by
  obtain ⟨-, front, tags, -, rfl⟩ := findHeader_spec h
  exact ⟨front ++ text "| tags: " ++ tags ++ text " --", by simp [headerEnd, text]⟩

/-- The run of characters behind the first place of `lead` that one follows. -/
def runAfter (lead : Text) (p : Nat → Bool) : Text → Option Text
  | [] => none
  | c :: t =>
    let run := ((c :: t).drop lead.length).takeWhile p
    if lead.isPrefixOf (c :: t) && !run.isEmpty then some run else runAfter lead p t

/-- `<!--\s*id:` at the start of a text. -/
def opensHeader (t : Text) : Bool :=
  fits (shape (text "<!--")) t && fits (shape (text "id:")) ((t.drop 4).dropWhile isSpace)

theorem runAfter_spec {lead run : Text} {p : Nat → Bool} {t : Text}
    (h : runAfter lead p t = some run) : run ≠ [] ∧ ∀ c ∈ run, p c = true := by
  induction t with
  | nil => cases h
  | cons c t ih =>
    simp only [runAfter] at h
    split_ifs at h with hhere
    · cases h
      rw [Bool.and_eq_true, Bool.not_eq_true', List.isEmpty_eq_false_iff] at hhere
      exact ⟨hhere.2, fun d hd => List.mem_takeWhile_imp hd⟩
    · exact ih h

/-- The run behind a lead at the start of the text. -/
theorem runAfter_here {lead run : Text} {p : Nat → Bool} {c : Nat} (hlead : lead ≠ [])
    (hne : run ≠ []) (hall : ∀ d ∈ run, p d = true) (hc : p c = false) (tail : Text) :
    runAfter lead p (lead ++ (run ++ c :: tail)) = some run := by
  obtain ⟨d, more, rfl⟩ := List.exists_cons_of_ne_nil hlead
  have hpre : (d :: more).isPrefixOf (d :: (more ++ (run ++ c :: tail))) = true :=
    List.isPrefixOf_iff_prefix.mpr ⟨run ++ c :: tail, rfl⟩
  have hdrop : (d :: (more ++ (run ++ c :: tail))).drop (d :: more).length = run ++ c :: tail := by
    rw [← List.cons_append]
    exact List.drop_left' rfl
  have hrun : (run ++ c :: tail).takeWhile p = run := by
    rw [List.takeWhile_append_of_pos hall, List.takeWhile_cons_of_neg (by simp [hc]),
      List.append_nil]
  have hid : run.isEmpty = false := List.isEmpty_eq_false_iff.mpr hne
  rw [List.cons_append, runAfter]
  simp only [hpre, hdrop, hrun, hid, Bool.not_false, Bool.and_self, if_true]

/-- The id of a header line is the run behind its lead. -/
theorem runAfter_header {id : Text} (hne : id ≠ []) (hchars : ∀ c ∈ id, isIdChar c = true)
    (scope type tags rest : Text) :
    runAfter (text "<!-- id: ") isIdChar (header id scope type tags ++ rest) = some id := by
  have hshape : header id scope type tags ++ rest
      = text "<!-- id: " ++ (id ++ 32 :: (text "| scope: " ++ scope ++ text " | type: " ++ type
        ++ text " | tags: " ++ tags ++ text " -->" ++ rest)) := by
    simp [header, text]
  rw [hshape]
  exact runAfter_here (by decide) hne hchars rfl _

/-! ## Tags -/

/-- SOURCE: services/memory_format.py:20-22 -/
def normalizeTags (tags : Text) : Text :=
  [44].intercalate (((tags.splitOn 44).map strip).filter fun part => !part.isEmpty)

/-! ## Keys -/

/-- `[a-z0-9\-]`. -/
def isSlugChar (c : Nat) : Bool := (97 ≤ c && c ≤ 122) || (48 ≤ c && c ≤ 57) || c == 45

/-- What `lower()` and the removal of everything but slug characters leave of one character: the
Kelvin sign and the dotted capital I are the two outside ASCII that come down to a letter. -/
def slugOf (c : Nat) : Text :=
  if isSlugChar c then [c] else if 65 ≤ c ∧ c ≤ 90 then [c + 32]
  else if c = 0x212A then [107] else if c = 0x130 then [105] else []

/-- `re.sub(r"-+", "-", key)`. -/
def collapseHyphens : Text → Text
  | [] => []
  | c :: t => if c = 45 ∧ t.head? = some 45 then collapseHyphens t else c :: collapseHyphens t

/-- SOURCE: services/memory_service.py:582-599 (`_sanitize_key`;
none is its `ValueError`) -/
def sanitizeKey (key : Text) : Option Text :=
  let key := key.filter (· != 0)
  let key := (key.reverse.takeWhile (· != 47)).reverse
  let key := collapseHyphens (key.flatMap slugOf)
  let key := rstrip (· == 45) (lstrip (· == 45) key)
  if key.isEmpty then none else some (key.take 60)

theorem isSlugChar_of_mem_slugOf {c d : Nat} (h : d ∈ slugOf c) : isSlugChar d = true := by
  unfold slugOf at h
  split_ifs at h with hslug hupper hkelvin hdotted
  · obtain rfl := List.mem_singleton.mp h
    exact hslug
  · obtain rfl := List.mem_singleton.mp h
    simp only [isSlugChar, Bool.or_eq_true, Bool.and_eq_true, decide_eq_true_eq, beq_iff_eq]
    omega
  · obtain rfl := List.mem_singleton.mp h
    rfl
  · obtain rfl := List.mem_singleton.mp h
    rfl
  · cases h

theorem collapseHyphens_subset {t : Text} : collapseHyphens t ⊆ t := by
  induction t with
  | nil => exact List.Subset.refl _
  | cons c t ih =>
    rw [collapseHyphens]
    split_ifs
    · exact List.subset_cons_of_subset c ih
    · exact List.cons_subset_cons c ih

/-- A key is made of slug characters alone. -/
theorem isSlugChar_of_mem_key {raw key : Text} (h : sanitizeKey raw = some key) :
    ∀ c ∈ key, isSlugChar c = true := by
  intro c hc
  simp only [sanitizeKey] at h
  split at h
  · cases h
  · cases h
    have hstripped := List.mem_of_mem_take hc
    have hleft := (List.rdropWhile_prefix _ _).subset hstripped
    have hcollapsed := (List.dropWhile_suffix _).subset hleft
    obtain ⟨d, -, hd⟩ := List.mem_flatMap.mp (collapseHyphens_subset hcollapsed)
    exact isSlugChar_of_mem_slugOf hd

end CliAgentOrchestrator.Memory
