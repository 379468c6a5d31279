import Mathlib.Data.List.DropRight
import Mathlib.Data.List.Infix

/-!
# Text as code points

A text is the list of its code points, lone surrogates included; one that holds none of those has
a UTF-8 form. Beside the character classes stand the operations on whole texts: stripping,
splitting into lines, reading with universal newlines, replacing, and finding fixed shapes. What
stands on the two sides of a line break is looked at separately (`fits_append_stop`), and lines
that hold no break come back from the text that joins them (`splitlines_joined`).
-/

set_option autoImplicit false

namespace Library

/-- Code points, in order. -/
abbrev Text := List Nat

/-- One proof for every decision of a membership in a list of texts. -/
instance : LawfulBEq Text := inferInstance

/-- A text that is written out. -/
def text (s : String) : Text := s.toList.map Char.toNat

theorem text_injective {a b : String} (h : text a = text b) : a = b := by
  refine String.toList_inj.mp ?_
  exact List.map_injective_iff.mpr (fun _ _ => Char.toNat_inj.mp) h

/-- Lists that one reading takes for the same are the same in every reading that follows it. -/
theorem map_eq_of_map_eq {β γ γ' : Type} {m : β → γ} {p : β → γ'} {xs ys : List β}
    (h : ∀ x ∈ xs, ∀ y ∈ ys, m x = m y → p x = p y) (hmap : xs.map m = ys.map m) :
    xs.map p = ys.map p := by
  induction xs generalizing ys with
  | nil => rw [List.map_eq_nil_iff.mp hmap.symm]
  | cons x xs ih =>
    cases ys with
    | nil => cases hmap
    | cons y ys =>
      obtain ⟨hxy, hrest⟩ := List.cons.inj hmap
      rw [List.map_cons, List.map_cons, h x List.mem_cons_self y List.mem_cons_self hxy,
        ih (fun x hx y hy => h x (List.mem_cons_of_mem _ hx) y (List.mem_cons_of_mem _ hy)) hrest]

/-! ## Characters -/

/-- White space: `str.isspace`, and `\s` of a pattern. -/
def isSpace (c : Nat) : Bool :=
  (9 ≤ c && c ≤ 13) || (28 ≤ c && c ≤ 32) || c == 133 || c == 160 || c == 5760 ||
    (8192 ≤ c && c ≤ 8202) || c == 8232 || c == 8233 || c == 8239 || c == 8287 || c == 12288

/-- Where `str.splitlines` ends a line. -/
def isLineBreak (c : Nat) : Bool :=
  (10 ≤ c && c ≤ 13) || (28 ≤ c && c ≤ 30) || c == 133 || c == 8232 || c == 8233

/-- The zeros of the decimal digits; each is followed by the other nine. -/
def decimalZeros : List Nat :=
  [48, 1632, 1776, 1984, 2406, 2534, 2662, 2790, 2918, 3046, 3174, 3302, 3430, 3558, 3664, 3792,
    3872, 4160, 4240, 6112, 6160, 6470, 6608, 6784, 6800, 6992, 7088, 7232, 7248, 42528, 43216,
    43264, 43472, 43504, 43600, 44016, 65296, 66720, 68912, 68928, 69734, 69872, 69942, 70096,
    70384, 70736, 70864, 71248, 71360, 71376, 71386, 71472, 71904, 72016, 72688, 72784, 73040,
    73120, 73552, 90416, 92768, 92864, 93008, 93552, 118000, 120782, 120792, 120802, 120812,
    120822, 123200, 123632, 124144, 124401, 125264, 130032]

/-- The value of a decimal digit: `\d` of a pattern is what has one. -/
def decimal (c : Nat) : Option Nat :=
  (decimalZeros.find? fun z => decide (z ≤ c ∧ c < z + 10)).map fun z => c - z

def isDecimal (c : Nat) : Bool := (decimal c).isSome

def isSurrogate (c : Nat) : Bool := 0xD800 ≤ c && c ≤ 0xDFFF

/-- The text has a UTF-8 form. -/
def Encodable (t : Text) : Prop := ∀ c ∈ t, isSurrogate c = false

instance (t : Text) : Decidable (Encodable t) := inferInstanceAs (Decidable (∀ c ∈ t, _))

theorem isSpace_of_isLineBreak {c : Nat} (h : isLineBreak c = true) : isSpace c = true := by
  unfold isLineBreak at h
  unfold isSpace
  simp only [Bool.or_eq_true, Bool.and_eq_true, decide_eq_true_eq, beq_iff_eq] at h ⊢
  omega

theorem encodable_append {a b : Text} : Encodable (a ++ b) ↔ Encodable a ∧ Encodable b := by
  unfold Encodable
  simp only [List.mem_append]
  exact ⟨fun h => ⟨fun c hc => h c (.inl hc), fun c hc => h c (.inr hc)⟩,
    fun h c hc => hc.elim (h.1 c) (h.2 c)⟩

/-- What a run takes, up to the first character that ends it. -/
theorem takeWhile_append_stop {p : Nat → Bool} {a : Text} {s : Nat} (ha : ∀ c ∈ a, p c = true)
    (hs : p s = false) (b : Text) : (a ++ s :: b).takeWhile p = a := by
  rw [List.takeWhile_append_of_pos ha, List.takeWhile_cons_of_neg (by simp [hs]), List.append_nil]

theorem dropWhile_append_stop {p : Nat → Bool} {a : Text} {s : Nat} (ha : ∀ c ∈ a, p c = true)
    (hs : p s = false) (b : Text) : (a ++ s :: b).dropWhile p = s :: b := by
  rw [List.dropWhile_append_of_pos ha, List.dropWhile_cons_of_neg (by simp [hs])]

theorem bne_of_notMem {a : Text} {s : Nat} (h : s ∉ a) : ∀ c ∈ a, (c != s) = true := by
  intro c hc
  rw [bne_iff_ne]
  rintro rfl
  exact h hc

/-- The pieces in front of the first stop are the same, and so is what follows it. -/
theorem append_stop_inj {a b u v : Text} {s : Nat} (ha : s ∉ a) (hb : s ∉ b)
    (h : a ++ s :: u = b ++ s :: v) : a = b ∧ u = v := by
  have hstop : (s != s) = false := by simp
  have hfront := congrArg (List.takeWhile (· != s)) h
  have hrest := congrArg (List.dropWhile (· != s)) h
  rw [takeWhile_append_stop (bne_of_notMem ha) hstop, takeWhile_append_stop (bne_of_notMem hb) hstop]
    at hfront
  rw [dropWhile_append_stop (bne_of_notMem ha) hstop, dropWhile_append_stop (bne_of_notMem hb) hstop]
    at hrest
  exact ⟨hfront, (List.cons.inj hrest).2⟩

/-! ## Stripping -/

def lstrip (p : Nat → Bool) (t : Text) : Text := t.dropWhile p

def rstrip (p : Nat → Bool) (t : Text) : Text := t.rdropWhile p

/-- `str.strip()`. -/
def strip (t : Text) : Text := rstrip isSpace (lstrip isSpace t)

/-- `str.split()`. -/
def words (t : Text) : List Text := (t.splitOnP isSpace).filter fun w => !w.isEmpty

/-- What stripping takes away is white space. -/
theorem isSpace_or_mem_strip {t : Text} {c : Nat} (h : c ∈ t) : isSpace c = true ∨ c ∈ strip t := by
  rw [← List.takeWhile_append_dropWhile (p := isSpace) (l := t), List.mem_append] at h
  obtain hfront | hrest := h
  · exact .inl (List.mem_takeWhile_imp hfront)
  · rw [← List.rdropWhile_append_rtakeWhile (p := isSpace) (l := t.dropWhile isSpace),
      List.mem_append] at hrest
    obtain hkept | hback := hrest
    · exact .inr hkept
    · exact .inl (List.mem_rtakeWhile_imp hback)

/-- What does not begin with white space keeps its first character. -/
theorem strip_cons {c : Nat} (hc : isSpace c = false) (t : Text) :
    ∃ rest, strip (c :: t) = c :: rest := by
  have hleft : lstrip isSpace (c :: t) = c :: t := by
    rw [lstrip, List.dropWhile_cons_of_neg (by simp [hc])]
  obtain ⟨tail, htail⟩ := List.rdropWhile_prefix isSpace (c :: t)
  rw [strip, hleft, rstrip]
  cases hstrip : (c :: t).rdropWhile isSpace with
  | nil =>
    have hall := List.rdropWhile_eq_nil_iff.mp hstrip c (by simp)
    rw [hc] at hall
    cases hall
  | cons d rest =>
    rw [hstrip, List.cons_append] at htail
    exact ⟨rest, by rw [(List.cons.inj htail).1]⟩

/-! ## Lines -/

/-- Reading in text mode: every line ending becomes a line feed. -/
def universalNewlines : Text → Text
  | [] => []
  | 13 :: 10 :: rest => 10 :: universalNewlines rest
  | c :: rest => (if c = 13 then 10 else c) :: universalNewlines rest

/-- `str.splitlines()`. -/
def splitlines : Text → List Text
  | [] => []
  | 13 :: 10 :: rest => [] :: splitlines rest
  | c :: rest =>
    if isLineBreak c then [] :: splitlines rest
    else
      match splitlines rest with
      | [] => [[c]]
      | line :: more => (c :: line) :: more

/-- `"\n".join(lines)`. -/
def joinLines (ls : List Text) : Text := [10].intercalate ls

/-- Every line ended by a line feed. -/
def joined (ls : List Text) : Text := ls.flatMap fun line => line ++ [10]

/-- A text within one line. -/
def Unbroken (t : Text) : Prop := ∀ c ∈ t, isLineBreak c = false

instance (t : Text) : Decidable (Unbroken t) := inferInstanceAs (Decidable (∀ c ∈ t, _))

theorem unbroken_append {a b : Text} : Unbroken (a ++ b) ↔ Unbroken a ∧ Unbroken b := by
  unfold Unbroken
  simp only [List.mem_append]
  exact ⟨fun h => ⟨fun c hc => h c (.inl hc), fun c hc => h c (.inr hc)⟩,
    fun h c hc => hc.elim (h.1 c) (h.2 c)⟩

/-- A text without carriage returns is read as it stands. -/
theorem universalNewlines_of_notMem {t : Text} (h : 13 ∉ t) : universalNewlines t = t := by
  induction t with
  | nil => rfl
  | cons c rest ih =>
    have hc : c ≠ 13 := fun heq => h (by simp [heq])
    rw [universalNewlines, if_neg hc, ih fun hmem => h (by simp [hmem])]
    intro rest' hcr
    exact absurd hcr hc

theorem joinLines_append_lf {ls : List Text} (h : ls ≠ []) : joinLines ls ++ [10] = joined ls := by
  induction ls with
  | nil => exact absurd rfl h
  | cons line rest ih =>
    cases rest with
    | nil => simp [joinLines, joined]
    | cons next more =>
      have hrest := ih (by simp)
      unfold joinLines joined at hrest ⊢
      rw [List.intercalate_cons_cons, List.flatMap_cons, ← hrest]
      simp

theorem universalNewlines_cons_of_ne {c : Nat} (hc : c ≠ 13) (t : Text) :
    universalNewlines (c :: t) = c :: universalNewlines t := by
  rw [universalNewlines, if_neg hc]
  intro rest hcr
  exact absurd hcr hc

theorem universalNewlines_cr (t : Text) : ∃ rest, universalNewlines (13 :: t) = 10 :: rest := by
  by_cases h : ∃ rest, t = 10 :: rest
  · obtain ⟨rest, rfl⟩ := h
    exact ⟨universalNewlines rest, rfl⟩
  · refine ⟨universalNewlines t, ?_⟩
    rw [universalNewlines, if_pos rfl]
    intro rest _ heq
    exact h ⟨rest, heq⟩

/-- A word within a line that a text with a line feed ends in stands behind the line feed. -/
theorem suffix_of_lf {w x y : Text} (hw : 10 ∉ w) (h : w <:+ x ++ 10 :: y) : w <:+ y := by
  have htail : 10 :: y <:+ x ++ 10 :: y := List.suffix_append _ _
  by_cases hlen : w.length ≤ y.length
  · exact List.suffix_of_suffix_length_le h ((List.suffix_cons _ _).trans htail) hlen
  · have hcover : 10 :: y <:+ w :=
      List.suffix_of_suffix_length_le htail h (by rw [List.length_cons]; omega)
    exact absurd (hcover.subset List.mem_cons_self) hw

/-- A word within a line stands in front of a line feed or behind it. -/
theorem infix_of_lf {w x y : Text} (hw : 10 ∉ w) (h : w <:+: x ++ 10 :: y) :
    w <:+: x ∨ w <:+: y := by
  obtain ⟨a, b, hab⟩ := h
  obtain ⟨rest, hx, -⟩ | ⟨rest, haw, hy⟩ := List.append_eq_append_iff.mp hab
  · exact .inl ⟨a, rest, hx.symm⟩
  · cases rest with
    | nil => exact .inl ⟨a, [], by simpa using haw⟩
    | cons c rest =>
      cases hy
      have hsuffix : w <:+ x ++ 10 :: rest := ⟨a, haw⟩
      exact .inr ((suffix_of_lf hw hsuffix).isInfix.trans (List.prefix_append _ _).isInfix)

/-- Reading in text mode leaves what follows a line feed, where it has no carriage returns. -/
theorem universalNewlines_append_lf (front : Text) {t : Text} (h : 13 ∉ t) :
    ∃ front', universalNewlines (front ++ 10 :: t) = front' ++ 10 :: t := by
  induction front using universalNewlines.induct with
  | case1 =>
    refine ⟨[], ?_⟩
    rw [List.nil_append, universalNewlines_of_notMem (List.not_mem_cons_of_ne_of_not_mem
      (by decide) h)]
  | case2 rest ih =>
    obtain ⟨front', hfront'⟩ := ih
    exact ⟨10 :: front', by simp [universalNewlines, hfront']⟩
  | case3 c rest hcrlf ih =>
    obtain ⟨front', hfront'⟩ := ih
    by_cases hc : c = 13
    · subst hc
      cases rest with
      | nil =>
        refine ⟨[], ?_⟩
        rw [List.cons_append, List.nil_append, universalNewlines, universalNewlines_of_notMem h]
      | cons d rest =>
        refine ⟨10 :: front', ?_⟩
        rw [List.cons_append, universalNewlines, hfront']
        · rfl
        · intro rest' _ hrest'
          cases hrest'
          exact hcrlf rest rfl rfl
    · refine ⟨c :: front', ?_⟩
      rw [List.cons_append, universalNewlines_cons_of_ne hc, hfront', List.cons_append]

/-- Stripping at the end does not reach past what it leaves. -/
theorem rstrip_append {p : Nat → Bool} {front t : Text} (h : rstrip p t ≠ []) :
    rstrip p (front ++ t) = front ++ rstrip p t := by
  unfold rstrip List.rdropWhile at h ⊢
  rw [List.reverse_append, List.dropWhile_append, if_neg]
  · simp
  · simpa using h

/-- Stripping at the end keeps a beginning that does not end in what is stripped. -/
theorem prefix_rstrip {p : Nat → Bool} {front t : Text} (hfront : rstrip p front = front)
    (h : front <+: t) : front <+: rstrip p t := by
  induction t using List.reverseRecOn with
  | nil =>
    rw [List.prefix_nil.mp h]
    exact List.nil_prefix
  | append_singleton t c ih =>
    obtain heq | hpre := List.prefix_concat_iff.mp h
    · rw [← heq, hfront]
    · unfold rstrip at ih ⊢
      rw [List.rdropWhile_concat]
      split
      · exact ih hpre
      · exact h

/-- Stripping at the end keeps what does not end in what is stripped. -/
theorem infix_rstrip {p : Nat → Bool} {word t : Text} (hword : rstrip p word = word)
    (h : word <:+: t) : word <:+: rstrip p t := by
  obtain ⟨a, b, rfl⟩ := h
  by_cases hne : word = []
  · rw [hne]
    exact List.nil_infix
  · have hlast : rstrip p (a ++ word) = a ++ word := by
      refine List.rdropWhile_eq_self_iff.mpr fun _ => ?_
      rw [List.getLast_append_of_ne_nil _ hne]
      exact List.rdropWhile_eq_self_iff.mp hword hne
    exact (List.suffix_append a word).isInfix.trans
      (prefix_rstrip hlast (List.prefix_append _ b)).isInfix

theorem joined_cons (line : Text) (rest : List Text) :
    joined (line :: rest) = line ++ 10 :: joined rest := by
  simp [joined]

theorem splitlines_unbroken_append {line : Text} (h : Unbroken line) (rest : Text) :
    splitlines (line ++ 10 :: rest) = line :: splitlines rest := by
  induction line with
  | nil =>
    rw [List.nil_append, splitlines]
    · rfl
    · intro rest' heq
      cases heq
  | cons c line ih =>
    have hc : isLineBreak c = false := h c (by simp)
    have hne : c ≠ 13 := by
      rintro rfl
      exact absurd hc (by decide)
    rw [List.cons_append, splitlines, hc, ih fun d hd => h d (by simp [hd])]
    · rfl
    · intro rest' heq
      exact absurd heq hne

/-- A character within a line joins the first line of what follows it. -/
theorem splitlines_cons {c : Nat} (hc : isLineBreak c = false) (t : Text) :
    splitlines (c :: t) = (c :: (splitlines t).headD []) :: (splitlines t).tail := by
  rw [splitlines]
  · rw [hc]
    cases splitlines t <;> rfl
  · rintro rest rfl
    exact absurd hc (by decide)

/-- A text within one line adds to the first line of what follows it only. -/
theorem tail_splitlines_append {u : Text} (hu : Unbroken u) (r : Text) :
    (splitlines (u ++ r)).tail = (splitlines r).tail := by
  induction u with
  | nil => rfl
  | cons c u ih =>
    rw [List.cons_append, splitlines_cons (hu c List.mem_cons_self)]
    exact ih fun d hd => hu d (List.mem_cons_of_mem c hd)

theorem splitlines_break {c : Nat} (hc : isLineBreak c = true) {t : Text}
    (ht : ¬(c = 13 ∧ t.head? = some 10)) : splitlines (c :: t) = [] :: splitlines t := by
  rw [splitlines, if_pos hc]
  rintro rest rfl rfl
  exact ht ⟨rfl, rfl⟩

/-- A carriage return in front of a line feed ends no line of its own. -/
theorem splitlines_crlf {t : Text} (ht : t.head? = some 10) :
    splitlines (13 :: t) = splitlines t := by
  obtain ⟨rest, rfl⟩ := List.head?_eq_some_iff.mp ht
  rw [splitlines, splitlines_break rfl (by simp)]

/-- A text begins with the first character of its first line. -/
theorem head_splitlines {t line : Text} {c : Nat} (h : (splitlines t).head? = some (c :: line)) :
    t.head? = some c := by
  cases t with
  | nil => cases h
  | cons d t =>
    cases hd : isLineBreak d with
    | false =>
      rw [splitlines_cons hd] at h
      rw [(List.cons.inj (Option.some.inj h)).1]
      rfl
    | true =>
      by_cases hpair : d = 13 ∧ t.head? = some 10
      · obtain ⟨rfl, hhead⟩ := hpair
        obtain ⟨rest, rfl⟩ := List.head?_eq_some_iff.mp hhead
        rw [splitlines] at h
        cases h
      · rw [splitlines_break hd hpair] at h
        cases h

theorem splitlines_ne_nil {t : Text} (ht : t ≠ []) : splitlines t ≠ [] := by
  induction t with
  | nil => exact absurd rfl ht
  | cons c t ih =>
    cases hc : isLineBreak c with
    | false =>
      rw [splitlines_cons hc]
      exact List.cons_ne_nil _ _
    | true =>
      by_cases hpair : c = 13 ∧ t.head? = some 10
      · obtain ⟨rfl, hhead⟩ := hpair
        rw [splitlines_crlf hhead]
        refine ih ?_
        rintro rfl
        cases hhead
      · rw [splitlines_break hc hpair]
        exact List.cons_ne_nil _ _

/-- Of two texts put together, the lines of the second but its first are the last lines. -/
theorem splitlines_append_tail (a : Text) {r : Text} (hr : r ≠ []) :
    ∃ line front, splitlines (a ++ r) = (line :: front) ++ (splitlines r).tail := by
  induction a with
  | nil =>
    obtain ⟨line, more, hlines⟩ := List.exists_cons_of_ne_nil (splitlines_ne_nil hr)
    exact ⟨line, [], by rw [List.nil_append, hlines]; rfl⟩
  | cons c a ih =>
    obtain ⟨line, front, heq⟩ := ih
    cases hc : isLineBreak c with
    | false =>
      refine ⟨c :: line, front, ?_⟩
      rw [List.cons_append, splitlines_cons hc, heq]
      rfl
    | true =>
      by_cases hpair : c = 13 ∧ (a ++ r).head? = some 10
      · obtain ⟨rfl, hhead⟩ := hpair
        exact ⟨line, front, by rw [List.cons_append, splitlines_crlf hhead, heq]⟩
      · refine ⟨[], line :: front, ?_⟩
        rw [List.cons_append, splitlines_break hc hpair, heq]
        rfl

/-- Behind a line break a text begins a line. -/
theorem splitlines_append_of_break {a r : Text} (ha : ∀ c ∈ a.getLast?, isLineBreak c = true)
    (hr : r.head? ≠ some 10) : splitlines (a ++ r) = splitlines a ++ splitlines r := by
  induction a with
  | nil => rfl
  | cons c a ih =>
    cases a with
    | nil =>
      have hc := ha c rfl
      rw [List.singleton_append, splitlines_break hc (fun h => hr h.2),
        splitlines_break hc (by simp)]
      rfl
    | cons d a =>
      have ih := ih fun e he => ha e (by simpa using he)
      rw [List.cons_append]
      cases hc : isLineBreak c with
      | false =>
        obtain ⟨line, more, hlines⟩ :=
          List.exists_cons_of_ne_nil (splitlines_ne_nil (List.cons_ne_nil d a))
        rw [splitlines_cons hc, splitlines_cons hc, ih, hlines]
        rfl
      | true =>
        by_cases hpair : c = 13 ∧ (d :: a).head? = some 10
        · obtain ⟨rfl, hhead⟩ := hpair
          rw [splitlines_crlf hhead, splitlines_crlf (t := d :: a ++ r) (by simpa using hhead), ih]
        · rw [splitlines_break hc hpair, splitlines_break hc (by simpa using hpair), ih]
          rfl

/-- Lines that hold no break come back from the text they are joined to. -/
theorem splitlines_joined {ls : List Text} (h : ∀ line ∈ ls, Unbroken line) :
    splitlines (joined ls) = ls := by
  induction ls with
  | nil => rfl
  | cons line rest ih =>
    rw [joined_cons, splitlines_unbroken_append (h line (by simp)),
      ih fun l hl => h l (by simp [hl])]

/-- A line holds no break. -/
theorem unbroken_of_mem_splitlines {t line : Text} (h : line ∈ splitlines t) : Unbroken line := by
  induction t using splitlines.induct generalizing line with
  | case1 => cases h
  | case2 rest ih =>
    rw [splitlines] at h
    obtain rfl | h := List.mem_cons.mp h
    · intro c hc
      cases hc
    · exact ih h
  | case3 c rest hcr hbreak ih =>
    rw [splitlines, if_pos hbreak] at h
    · obtain rfl | h := List.mem_cons.mp h
      · intro d hd
        cases hd
      · exact ih h
    · exact hcr
  | case4 c rest hcr hbreak hrest ih =>
    rw [splitlines, if_neg hbreak, hrest] at h
    · obtain rfl := List.mem_singleton.mp h
      intro d hd
      obtain rfl := List.mem_singleton.mp hd
      simpa using hbreak
    · exact hcr
  | case5 c rest hcr hbreak first more hrest ih =>
    rw [splitlines, if_neg hbreak, hrest] at h
    · rw [hrest] at ih
      obtain rfl | h := List.mem_cons.mp h
      · intro d hd
        obtain rfl | hd := List.mem_cons.mp hd
        · simpa using hbreak
        · exact ih (by simp) d hd
      · exact ih (by simp [h])
    · exact hcr

/-- Where line feeds are the only breaks, the lines make up the text again. -/
theorem joined_splitlines {t : Text} (h : ∀ c ∈ t, isLineBreak c = true → c = 10) :
    joined (splitlines t) = t ∨ joined (splitlines t) = t ++ [10] := by
  induction t using splitlines.induct with
  | case1 => exact .inl rfl
  | case2 rest ih => exact absurd (h 13 (by simp) rfl) (by decide)
  | case3 c rest hcr hbreak ih =>
    obtain rfl := h c (by simp) hbreak
    have hjoined : joined ([] :: splitlines rest) = 10 :: joined (splitlines rest) := rfl
    rw [splitlines, if_pos hbreak, hjoined]
    · obtain hrest | hrest := ih fun d hd => h d (by simp [hd])
      · exact .inl (congrArg _ hrest)
      · exact .inr (congrArg _ hrest)
    · exact hcr
  | case4 c rest hcr hbreak hrest ih =>
    have hnil : rest = [] := by
      obtain hnone | hnone := ih fun d hd => h d (by simp [hd])
      · rw [hrest] at hnone
        exact hnone.symm
      · rw [hrest] at hnone
        simp [joined] at hnone
    rw [splitlines, if_neg hbreak, hrest, hnil]
    · exact .inr rfl
    · exact hcr
  | case5 c rest hcr hbreak first more hrest ih =>
    have hjoined : joined ((c :: first) :: more) = c :: joined (first :: more) := rfl
    rw [splitlines, if_neg hbreak, hrest]
    · rw [hrest] at ih
      show joined ((c :: first) :: more) = _ ∨ joined ((c :: first) :: more) = _
      rw [hjoined]
      obtain hsame | hsame := ih fun d hd => h d (by simp [hd])
      · exact .inl (congrArg _ hsame)
      · exact .inr (congrArg _ hsame)
    · exact hcr

/-- Between unbroken lines the only breaks are the line feeds that join them. -/
theorem lf_of_mem_joined {ls : List Text} (h : ∀ line ∈ ls, Unbroken line) :
    ∀ c ∈ joined ls, isLineBreak c = true → c = 10 := by
  intro c hc hbreak
  obtain ⟨line, hline, hmem⟩ := List.mem_flatMap.mp hc
  obtain hin | hend := List.mem_append.mp hmem
  · have hno := h line hline c hin
    rw [hbreak] at hno
    cases hno
  · exact List.mem_singleton.mp hend

theorem joinLines_subset (ls : List Text) : joinLines ls ⊆ joined ls := by
  cases ls with
  | nil => exact List.Subset.refl _
  | cons line rest =>
    rw [← joinLines_append_lf (List.cons_ne_nil line rest)]
    exact List.subset_append_left _ _

/-- The characters of a joined text are those of the pieces and the separators. -/
theorem mem_intercalate {sep c : Nat} {ls : List Text} (h : c ∈ [sep].intercalate ls) :
    c = sep ∨ ∃ l ∈ ls, c ∈ l := by
  induction ls with
  | nil => cases h
  | cons l ls ih =>
    cases ls with
    | nil => exact .inr ⟨l, by simp, by simpa using h⟩
    | cons next more =>
      rw [List.intercalate_cons_cons, List.append_assoc, List.mem_append, List.mem_append] at h
      obtain h | h | h := h
      · exact .inr ⟨l, by simp, h⟩
      · exact .inl (List.mem_singleton.mp h)
      · obtain hsep | ⟨l', hl', hc⟩ := ih h
        · exact .inl hsep
        · exact .inr ⟨l', by simp [hl'], hc⟩

theorem mem_intercalate_of_mem {sep c : Nat} {ls : List Text} {l : Text} (hl : l ∈ ls)
    (hc : c ∈ l) : c ∈ [sep].intercalate ls := by
  induction ls with
  | nil => cases hl
  | cons l' ls ih =>
    cases ls with
    | nil =>
      obtain rfl := List.mem_singleton.mp hl
      simpa using hc
    | cons next more =>
      rw [List.intercalate_cons_cons, List.append_assoc, List.mem_append, List.mem_append]
      obtain rfl | hl := List.mem_cons.mp hl
      · exact .inl hc
      · exact .inr (.inr (ih hl))

end Library
