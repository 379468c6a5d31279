import CliAgentOrchestrator.Library.Text

/-!
# Shapes in a text

A shape fixes one class of characters for each place. It is looked for at every place of a text,
and a character that no class of it holds keeps what stands before apart from what stands behind
(`occurrences_append_stop`). Beside it stand the other ways a text is searched and rewritten: a
written-out text replaced wherever it stands, the last place of a separator, the shortest piece
up to a stop, and the template of a substitution with its escapes.
-/

set_option autoImplicit false

namespace Library

/-! ## Finding -/

/-- The text begins with a piece of the shape. -/
def fits : List (Nat → Bool) → Text → Bool
  | [], _ => true
  | _ :: _, [] => false
  | p :: ps, c :: t => p c && fits ps t

/-- The shape of a text that is written out. -/
def shape (lit : Text) : List (Nat → Bool) := lit.map fun c d => d == c

/-- Something that begins the text, or begins it further on. -/
def found (m : Text → Bool) : Text → Bool
  | [] => m []
  | c :: t => m (c :: t) || found m t

/-- Every piece of the text that has the shape. -/
def occurrences (ps : List (Nat → Bool)) : Text → List Text
  | [] => []
  | c :: t =>
    if fits ps (c :: t) then (c :: t).take ps.length :: occurrences ps t else occurrences ps t

theorem found_iff {m : Text → Bool} {t : Text} :
    found m t = true ↔ ∃ s, s <:+ t ∧ m s = true := by
  induction t with
  | nil => simp [found]
  | cons c t ih =>
    rw [found, Bool.or_eq_true, ih]
    constructor
    · rintro (h | ⟨s, hs, hm⟩)
      · exact ⟨c :: t, List.suffix_rfl, h⟩
      · exact ⟨s, hs.trans (List.suffix_cons c t), hm⟩
    · rintro ⟨s, hs, hm⟩
      obtain rfl | hs := List.suffix_cons_iff.mp hs
      · exact .inl hm
      · exact .inr ⟨s, hs, hm⟩

theorem found_of_suffix {m : Text → Bool} {s t : Text} (hs : s <:+ t) (h : found m s = true) :
    found m t = true := by
  obtain ⟨r, hr, hm⟩ := found_iff.mp h
  exact found_iff.mpr ⟨r, hr.trans hs, hm⟩

theorem fits_shape_iff {lit t : Text} : fits (shape lit) t = true ↔ lit <+: t := by
  induction lit generalizing t with
  | nil => simp [shape, fits]
  | cons c lit ih =>
    cases t with
    | nil => simp [shape, fits]
    | cons d t =>
      show (d == c && fits (shape lit) t) = true ↔ c :: lit <+: d :: t
      rw [Bool.and_eq_true, ih, beq_iff_eq, List.cons_prefix_cons, eq_comm]

/-- A character outside every class of the shape hides what stands behind it. -/
theorem fits_append_stop {ps : List (Nat → Bool)} {s : Nat} (hstop : ∀ p ∈ ps, p s = false)
    (a b : Text) : fits ps (a ++ s :: b) = fits ps a := by
  induction ps generalizing a with
  | nil => cases a <;> rfl
  | cons p ps ih =>
    cases a with
    | nil => simp [fits, hstop p (by simp)]
    | cons c a =>
      rw [List.cons_append, fits, fits, ih fun q hq => hstop q (by simp [hq])]

theorem fits_cons_stop {p : Nat → Bool} {ps : List (Nat → Bool)} {s : Nat} (hstop : p s = false)
    (b : Text) : fits (p :: ps) (s :: b) = false := by
  simp [fits, hstop]

/-- What fits is as long as the shape. -/
theorem length_le_of_fits {ps : List (Nat → Bool)} {t : Text} (h : fits ps t = true) :
    ps.length ≤ t.length := by
  induction ps generalizing t with
  | nil => exact Nat.zero_le _
  | cons p ps ih =>
    cases t with
    | nil => cases h
    | cons c t =>
      rw [fits, Bool.and_eq_true] at h
      exact Nat.succ_le_succ (ih h.2)

theorem occurrences_append_stop {ps : List (Nat → Bool)} {s : Nat} (hps : ps ≠ [])
    (hstop : ∀ p ∈ ps, p s = false) (a b : Text) :
    occurrences ps (a ++ s :: b) = occurrences ps a ++ occurrences ps b := by
  obtain ⟨p, ps', rfl⟩ := List.exists_cons_of_ne_nil hps
  induction a with
  | nil =>
    have hno : fits (p :: ps') (s :: b) = false := fits_cons_stop (hstop p (by simp)) b
    simp [occurrences, hno]
  | cons c a ih =>
    have hfits := fits_append_stop hstop (c :: a) b
    rw [List.cons_append] at hfits ⊢
    rw [occurrences, occurrences, hfits]
    by_cases h : fits (p :: ps') (c :: a) = true
    · have htake : (c :: a ++ s :: b).take (p :: ps').length
          = (c :: a).take (p :: ps').length :=
        List.take_append_of_le_length (length_le_of_fits h)
      rw [List.cons_append] at htake
      rw [if_pos h, if_pos h, ih, htake, List.cons_append]
    · rw [if_neg h, if_neg h, ih]

theorem found_fits_iff {ps : List (Nat → Bool)} (hps : ps ≠ []) {t : Text} :
    found (fits ps) t = true ↔ occurrences ps t ≠ [] := by
  obtain ⟨p, ps', rfl⟩ := List.exists_cons_of_ne_nil hps
  induction t with
  | nil => simp [found, fits, occurrences]
  | cons c t ih =>
    rw [found, occurrences, Bool.or_eq_true, ih]
    by_cases h : fits (p :: ps') (c :: t) = true
    · simp [h]
    · simp [h]

theorem found_fits_append_stop {ps : List (Nat → Bool)} {s : Nat} (hps : ps ≠ [])
    (hstop : ∀ p ∈ ps, p s = false) (a b : Text) :
    found (fits ps) (a ++ s :: b) = (found (fits ps) a || found (fits ps) b) := by
  rw [Bool.eq_iff_iff, Bool.or_eq_true, found_fits_iff hps, found_fits_iff hps,
    found_fits_iff hps, occurrences_append_stop hps hstop]
  simp only [ne_eq, List.append_eq_nil_iff, not_and_or]

/-- What begins with a stop holds only what stands behind it. -/
theorem occurrences_cons_stop {ps : List (Nat → Bool)} {s : Nat} (hps : ps ≠ [])
    (hstop : ∀ p ∈ ps, p s = false) (b : Text) :
    occurrences ps (s :: b) = occurrences ps b := by
  have h := occurrences_append_stop hps hstop [] b
  simpa [occurrences] using h

/-- A character the last class of a shape refuses adds no piece at the end of a text. -/
theorem fits_concat_refused {q : Nat → Bool} {s : Nat} (hq : q s = false)
    (ps : List (Nat → Bool)) (t : Text) : fits (ps ++ [q]) (t ++ [s]) = fits (ps ++ [q]) t := by
  induction ps generalizing t with
  | nil =>
    cases t with
    | nil => simp [fits, hq]
    | cons c t => rfl
  | cons p ps ih =>
    cases t with
    | nil => cases ps <;> simp [fits]
    | cons c t =>
      rw [List.cons_append, List.cons_append, fits, fits, ih]

/-- What no place of the added text begins is found where it was. -/
theorem found_concat {m : Text → Bool} {s : Nat} (hend : ∀ t, m (t ++ [s]) = m t) (t : Text) :
    found m (t ++ [s]) = found m t := by
  induction t with
  | nil =>
    have h := hend []
    rw [List.nil_append] at h
    rw [List.nil_append, found, found, found, h, Bool.or_self]
  | cons c t ih =>
    have h := hend (c :: t)
    rw [List.cons_append] at h
    rw [List.cons_append, found, found, ih, h]

theorem found_cons_of_false {m : Text → Bool} {c : Nat} {t : Text} (h : m (c :: t) = false) :
    found m (c :: t) = found m t := by
  rw [found, h, Bool.false_or]

/-- Stripping white space that the thing looked for neither begins nor ends with. -/
theorem found_strip {m : Text → Bool} (hstart : ∀ s t, isSpace s = true → m (s :: t) = false)
    (hend : ∀ s t, isSpace s = true → m (t ++ [s]) = m t) (t : Text) :
    found m (strip t) = found m t := by
  have hleft : ∀ t, found m (lstrip isSpace t) = found m t := by
    intro t
    unfold lstrip
    induction t with
    | nil => rfl
    | cons c t ih =>
      by_cases hc : isSpace c = true
      · rw [List.dropWhile_cons_of_pos hc, ih, found_cons_of_false (hstart c t hc)]
      · rw [List.dropWhile_cons_of_neg hc]
  have hright : ∀ t, found m (rstrip isSpace t) = found m t := by
    intro t
    unfold rstrip
    induction t using List.reverseRecOn with
    | nil => rfl
    | append_singleton t c ih =>
      by_cases hc : isSpace c = true
      · rw [List.rdropWhile_concat_pos _ _ _ hc, ih, found_concat fun t => hend c t hc]
      · rw [List.rdropWhile_concat_neg _ _ _ hc]
  rw [strip, hright, hleft]

/-- Reading with universal newlines does not change the pieces of a shape that holds no line
ending. -/
theorem fits_universalNewlines {ps : List (Nat → Bool)} (hcr : ∀ p ∈ ps, p 13 = false)
    (hlf : ∀ p ∈ ps, p 10 = false) (t : Text) :
    fits ps (universalNewlines t) = fits ps t
      ∧ (fits ps t = true → (universalNewlines t).take ps.length = t.take ps.length) := by
  induction ps generalizing t with
  | nil => cases t <;> simp [fits]
  | cons p ps ih =>
    cases t with
    | nil => exact ⟨rfl, fun h => rfl⟩
    | cons c t =>
      by_cases hc : c = 13
      · subst hc
        obtain ⟨rest, hrest⟩ := universalNewlines_cr t
        have hno : fits (p :: ps) (13 :: t) = false := fits_cons_stop (hcr p (by simp)) t
        refine ⟨?_, fun h => absurd h (by simp [hno])⟩
        rw [hrest, hno]
        exact fits_cons_stop (hlf p (by simp)) rest
      · obtain ⟨hfits, htake⟩ := ih (fun q hq => hcr q (by simp [hq]))
          (fun q hq => hlf q (by simp [hq])) t
        rw [universalNewlines_cons_of_ne hc]
        refine ⟨by rw [fits, fits, hfits], fun h => ?_⟩
        rw [fits, Bool.and_eq_true] at h
        rw [List.length_cons, List.take_succ_cons, List.take_succ_cons, htake h.2]

theorem occurrences_universalNewlines {ps : List (Nat → Bool)} (hps : ps ≠ [])
    (hcr : ∀ p ∈ ps, p 13 = false) (hlf : ∀ p ∈ ps, p 10 = false) (t : Text) :
    occurrences ps (universalNewlines t) = occurrences ps t := by
  induction t using universalNewlines.induct with
  | case1 => rfl
  | case2 rest ih =>
    rw [universalNewlines, occurrences_cons_stop hps hlf, occurrences_cons_stop hps hcr,
      occurrences_cons_stop hps hlf, ih]
  | case3 c rest hend ih =>
    by_cases hc : c = 13
    · subst hc
      rw [universalNewlines, if_pos rfl, occurrences_cons_stop hps hlf,
        occurrences_cons_stop hps hcr, ih]
      exact hend
    · obtain ⟨hfits, htake⟩ := fits_universalNewlines hcr hlf (c :: rest)
      rw [universalNewlines_cons_of_ne hc] at hfits htake ⊢
      rw [occurrences, occurrences, hfits, ih]
      by_cases h : fits ps (c :: rest) = true
      · rw [if_pos h, if_pos h, htake h]
      · rw [if_neg h, if_neg h]

theorem found_shape_iff {lit t : Text} : found (fits (shape lit)) t = true ↔ lit <:+: t := by
  rw [found_iff, List.infix_iff_prefix_suffix]
  constructor
  · rintro ⟨s, hs, hfits⟩
    exact ⟨s, fits_shape_iff.mp hfits, hs⟩
  · rintro ⟨s, hpre, hs⟩
    exact ⟨s, hs, fits_shape_iff.mpr hpre⟩

theorem shape_stops {lit : Text} {c : Nat} (hc : c ∉ lit) : ∀ p ∈ shape lit, p c = false := by
  intro p hp
  obtain ⟨d, hd, rfl⟩ := List.mem_map.mp hp
  rw [beq_eq_false_iff_ne]
  rintro rfl
  exact hc hd

/-- A written-out text without the separator stands in one of the pieces that are joined. -/
theorem infix_intercalate_iff {lit : Text} {sep : Nat} (hlit : lit ≠ []) (hsep : sep ∉ lit)
    (ls : List Text) : lit <:+: [sep].intercalate ls ↔ ∃ l ∈ ls, lit <:+: l := by
  have hshape : shape lit ≠ [] := by simpa [shape] using hlit
  induction ls with
  | nil => simp [hlit]
  | cons l ls ih =>
    cases ls with
    | nil => simp
    | cons next more =>
      have hsplit : [sep].intercalate (l :: next :: more)
          = l ++ sep :: [sep].intercalate (next :: more) := by
        rw [List.intercalate_cons_cons]
        simp
      rw [hsplit, ← found_shape_iff, found_fits_append_stop hshape (shape_stops hsep),
        Bool.or_eq_true, found_shape_iff, found_shape_iff]
      constructor
      · rintro (hin | hin)
        · exact ⟨l, by simp, hin⟩
        · obtain ⟨l', hl', hin⟩ := ih.mp hin
          exact ⟨l', by simp [hl'], hin⟩
      · rintro ⟨l', hl', hin⟩
        obtain rfl | hl' := List.mem_cons.mp hl'
        · exact .inl hin
        · exact .inr (ih.mpr ⟨l', hl', hin⟩)

/-! ## Replacing -/

/-- `str.replace(old, new)`; the number says how many characters a match still covers. -/
def replaceFrom (old new : Text) : Nat → Text → Text
  | _, [] => []
  | n + 1, _ :: t => replaceFrom old new n t
  | 0, c :: t =>
    if old.isPrefixOf (c :: t) then new ++ replaceFrom old new (old.length - 1) t
    else c :: replaceFrom old new 0 t

def replaceAll (old new t : Text) : Text := replaceFrom old new 0 t

theorem replaceFrom_eq (old new : Text) (n : Nat) (t : Text) :
    replaceFrom old new n t = replaceAll old new (t.drop n) := by
  induction t generalizing n with
  | nil => cases n <;> rfl
  | cons c t ih =>
    cases n with
    | zero => rfl
    | succ n => exact ih n

theorem replaceAll_match {old : Text} (hold : old ≠ []) (new t : Text) :
    replaceAll old new (old ++ t) = new ++ replaceAll old new t := by
  obtain ⟨c, rest, rfl⟩ := List.exists_cons_of_ne_nil hold
  have hpre : (c :: rest).isPrefixOf (c :: (rest ++ t)) = true :=
    List.isPrefixOf_iff_prefix.mpr ⟨t, rfl⟩
  rw [List.cons_append, replaceAll, replaceFrom, if_pos hpre, replaceFrom_eq]
  simp

theorem replaceAll_skip {old : Text} (new : Text) {c : Nat} {t : Text}
    (h : old.isPrefixOf (c :: t) = false) :
    replaceAll old new (c :: t) = c :: replaceAll old new t := by
  rw [replaceAll, replaceFrom, if_neg (by simp [h])]
  rfl

/-- A text is one match after another, with characters in between where none begins. -/
theorem replaceAll_induction {old : Text} (hold : old ≠ []) {motive : Text → Prop}
    (nil : motive []) (found : ∀ t, motive t → motive (old ++ t))
    (skipped : ∀ c t, old.isPrefixOf (c :: t) = false → motive t → motive (c :: t))
    (t : Text) : motive t := by
  induction hn : t.length using Nat.strong_induction_on generalizing t with
  | _ n ih =>
    subst hn
    cases t with
    | nil => exact nil
    | cons c t =>
      by_cases hpre : old.isPrefixOf (c :: t) = true
      · obtain ⟨rest, hrest⟩ := List.isPrefixOf_iff_prefix.mp hpre
        rw [← hrest]
        refine found rest (ih rest.length ?_ rest rfl)
        have hlen := congrArg List.length hrest
        have hpos := List.length_pos_iff.mpr hold
        rw [List.length_append] at hlen
        omega
      · exact skipped c t (Bool.eq_false_iff.mpr hpre) (ih t.length (by simp) t rfl)

/-- A written-out text without the character a match begins with is passed over. -/
theorem replaceAll_append_of_notMem {old lit : Text} (hold : old ≠ [])
    (h : ∀ o, old.head? = some o → o ∉ lit) (new t : Text) :
    replaceAll old new (lit ++ t) = lit ++ replaceAll old new t := by
  obtain ⟨o, olds, rfl⟩ := List.exists_cons_of_ne_nil hold
  induction lit with
  | nil => rfl
  | cons c lit ih =>
    have hne : (o == c) = false := by
      rw [beq_eq_false_iff_ne]
      rintro rfl
      exact h o rfl (by simp)
    have hpre : (o :: olds).isPrefixOf (c :: (lit ++ t)) = false := by
      rw [List.isPrefixOf_cons_cons, hne, Bool.false_and]
    rw [List.cons_append, replaceAll_skip _ hpre, ih fun p hp hmem => h p hp (by simp [hmem])]
    rfl

theorem mem_replaceAll {old new : Text} (hold : old ≠ []) {c : Nat} {t : Text}
    (h : c ∈ replaceAll old new t) : c ∈ new ∨ c ∈ t := by
  induction t using replaceAll_induction hold with
  | nil => cases h
  | found t ih =>
    rw [replaceAll_match hold, List.mem_append] at h
    rw [List.mem_append]
    obtain h | h := h
    · exact .inl h
    · exact (ih h).imp_right .inr
  | skipped d t hskip ih =>
    rw [replaceAll_skip _ hskip, List.mem_cons] at h
    rw [List.mem_cons]
    obtain h | h := h
    · exact .inr (.inl h)
    · exact (ih h).imp_right .inr

/-- A shape that holds the first character of neither text is not touched at the place where it
stands. -/
theorem fits_replaceAll {o n : Nat} {olds news : Text} {ps : List (Nat → Bool)}
    (ho : ∀ p ∈ ps, p o = false) (hn : ∀ p ∈ ps, p n = false) (t : Text) :
    fits ps (replaceAll (o :: olds) (n :: news) t) = fits ps t := by
  induction ps generalizing t with
  | nil => cases t <;> rfl
  | cons p ps ih =>
    cases t with
    | nil => rfl
    | cons c t =>
      by_cases hpre : (o :: olds).isPrefixOf (c :: t) = true
      · obtain ⟨rest, hrest⟩ := List.isPrefixOf_iff_prefix.mp hpre
        rw [← hrest, replaceAll_match (List.cons_ne_nil o olds)]
        rw [List.cons_append, List.cons_append, fits_cons_stop (hn p (by simp)),
          fits_cons_stop (ho p (by simp))]
      · rw [replaceAll_skip _ (Bool.eq_false_iff.mpr hpre), fits, fits,
          ih (fun q hq => ho q (by simp [hq])) (fun q hq => hn q (by simp [hq]))]

/-- White space in front stays in front. -/
theorem dropWhile_replaceAll {q : Nat → Bool} {o n : Nat} (olds news : Text) (ho : q o = false)
    (hn : q n = false) (t : Text) :
    (replaceAll (o :: olds) (n :: news) t).dropWhile q
      = replaceAll (o :: olds) (n :: news) (t.dropWhile q) := by
  induction t with
  | nil => rfl
  | cons c t ih =>
    by_cases hc : q c = true
    · have hne : o ≠ c := by
        rintro rfl
        rw [ho] at hc
        cases hc
      have hpre : (o :: olds).isPrefixOf (c :: t) = false := by
        simp [List.isPrefixOf_cons_cons, hne]
      rw [replaceAll_skip _ hpre, List.dropWhile_cons_of_pos hc, List.dropWhile_cons_of_pos hc, ih]
    · rw [List.dropWhile_cons_of_neg hc]
      by_cases hpre : (o :: olds).isPrefixOf (c :: t) = true
      · obtain ⟨rest, hrest⟩ := List.isPrefixOf_iff_prefix.mp hpre
        rw [← hrest, replaceAll_match (List.cons_ne_nil o olds), List.cons_append,
          List.dropWhile_cons_of_neg (by simp [hn])]
      · rw [replaceAll_skip _ (Bool.eq_false_iff.mpr hpre), List.dropWhile_cons_of_neg hc]

/-- The shortest piece, within a line, that ends where `stop` begins, and what follows `stop`. -/
def upTo (stop : Text) : Text → Option (Text × Text)
  | [] => if stop = [] then some ([], []) else none
  | c :: t =>
    if stop.isPrefixOf (c :: t) then some ([], (c :: t).drop stop.length)
    else if c = 10 then none
    else (upTo stop t).map fun (piece, rest) => (c :: piece, rest)

theorem upTo_spec {stop t piece rest : Text} (h : upTo stop t = some (piece, rest)) :
    t = piece ++ stop ++ rest ∧ 10 ∉ piece := by
  induction t generalizing piece with
  | nil =>
    rw [upTo] at h
    split_ifs at h with hstop
    cases h
    exact ⟨by simp [hstop], List.not_mem_nil⟩
  | cons c t ih =>
    rw [upTo] at h
    split_ifs at h with hpre hlf
    · cases h
      obtain ⟨tail, htail⟩ := List.isPrefixOf_iff_prefix.mp hpre
      rw [← htail]
      exact ⟨by simp, List.not_mem_nil⟩
    · obtain ⟨⟨piece', rest'⟩, hrest, hsame⟩ := Option.map_eq_some_iff.mp h
      cases hsame
      obtain ⟨hsplit, hline⟩ := ih hrest
      exact ⟨congrArg _ hsplit, List.not_mem_cons_of_ne_of_not_mem (Ne.symm hlf) hline⟩

/-- A stop whose first character does not come again in it is found where it was put. -/
theorem upTo_append {s : Nat} {more t : Text} (hs : s ∉ more) (hlf : 10 ∉ t)
    (hno : ¬ (s :: more) <:+: t) (rest : Text) :
    upTo (s :: more) (t ++ (s :: more ++ rest)) = some (t, rest) := by
  induction t with
  | nil =>
    have hpre : (s :: more).isPrefixOf (s :: (more ++ rest)) = true :=
      List.isPrefixOf_iff_prefix.mpr ⟨rest, rfl⟩
    rw [List.nil_append, List.cons_append, upTo, if_pos hpre]
    simp
  | cons c t ih =>
    have hpre : (s :: more).isPrefixOf (c :: (t ++ (s :: more ++ rest))) = false := by
      rw [Bool.eq_false_iff]
      intro hpre
      obtain ⟨tail, htail⟩ := List.isPrefixOf_iff_prefix.mp hpre
      have hsplit : s :: more ++ tail = (c :: t) ++ (s :: more ++ rest) := htail
      obtain ⟨w, hw, hrest⟩ | ⟨w, hw, hrest⟩ := List.append_eq_append_iff.mp hsplit
      · exact hno ⟨[], w, by simp [hw]⟩
      · cases w with
        | nil => exact hno ⟨[], [], by simpa using hw⟩
        | cons d w =>
          obtain rfl : d = s := by
            rw [List.cons_append, List.cons_append] at hrest
            exact (List.cons.inj hrest).1.symm
          rw [List.cons_append] at hw
          exact hs (by rw [(List.cons.inj hw).2]; simp)
    have hc : c ≠ 10 := fun heq => hlf (by simp [heq])
    rw [List.cons_append, upTo, if_neg (Bool.eq_false_iff.mp hpre), if_neg hc,
      ih (fun hmem => hlf (by simp [hmem])) fun hin => hno (hin.trans (List.suffix_cons c t).isInfix)]
    rfl

/-! ## Substitution templates -/

def isOctal (c : Nat) : Bool := 48 ≤ c && c ≤ 55

def isDigit (c : Nat) : Bool := 48 ≤ c && c ≤ 57

def isAsciiLetter (c : Nat) : Bool := (65 ≤ c && c ≤ 90) || (97 ≤ c && c ≤ 122)

/-- What a one-letter escape of a template stands for. -/
def escapeLetter (c : Nat) : Option Nat :=
  if c = 97 then some 7 else if c = 98 then some 8 else if c = 102 then some 12
  else if c = 110 then some 10 else if c = 114 then some 13 else if c = 116 then some 9
  else if c = 118 then some 11 else if c = 92 then some 92 else none

/-- A reference to the whole match behind `\\g`: the pattern has no other group. -/
def groupReference (whole : Text) : Text → Option (Text × Nat)
  | [] => none
  | c :: t =>
    let name := t.takeWhile fun d => d != 62
    if c = 60 ∧ 62 ∈ t ∧ name ≠ [] ∧ ∀ d ∈ name, d = 48 then some (whole, name.length + 3)
    else none

/-- What a backslash and the characters behind it stand for, and how many of these it takes. -/
def escape (whole : Text) : Text → Option (Text × Nat)
  | [] => none
  | c :: t =>
    if c = 103 then groupReference whole t
    else if c = 48 then
      let digits := (t.take 2).takeWhile isOctal
      some ([digits.foldl (fun v d => 8 * v + (d - 48)) 0], digits.length + 1)
    else if isDigit c then
      match t with
      | d :: e :: _ =>
        let v := 64 * (c - 48) + 8 * (d - 48) + (e - 48)
        if isOctal c && isOctal d && isOctal e && decide (v ≤ 255) then some ([v], 3) else none
      | _ => none
    else
      match escapeLetter c with
      | some v => some ([v], 1)
      | none => if isAsciiLetter c then none else some ([92, c], 1)

/-- The template with its escapes expanded; none where the template is refused. The number says
how many characters an escape still covers. -/
def expandFrom (whole : Text) : Nat → Text → Option Text
  | _, [] => some []
  | n + 1, _ :: t => expandFrom whole n t
  | 0, c :: t =>
    if c = 92 then
      match escape whole t with
      | none => none
      | some (out, n) => (expandFrom whole n t).map (out ++ ·)
    else (expandFrom whole 0 t).map (c :: ·)

def expand (whole template : Text) : Option Text := expandFrom whole 0 template

/-- A backslash in front of this is not an escape that is kept as it stands. -/
def startsEscape : Text → Bool
  | [] => true
  | c :: _ => isAsciiLetter c || isDigit c || c == 92

/-- No backslash of the template begins an escape. -/
def quiet : Text → Bool
  | [] => true
  | c :: t => !(c == 92 && startsEscape t) && quiet t

theorem escape_of_not_startsEscape (whole : Text) {t : Text} (h : startsEscape t = false) :
    ∃ c rest, t = c :: rest ∧ escape whole t = some ([92, c], 1) := by
  cases t with
  | nil => cases h
  | cons c rest =>
    refine ⟨c, rest, rfl, ?_⟩
    simp only [startsEscape, isAsciiLetter, isDigit, Bool.or_eq_false_iff, Bool.and_eq_false_iff,
      decide_eq_false_iff_not, beq_eq_false_iff_ne, not_le, ne_eq] at h
    have hg : c ≠ 103 := by omega
    have hz : c ≠ 48 := by omega
    have hd : isDigit c = false := by
      simp only [isDigit, Bool.and_eq_false_iff, decide_eq_false_iff_not]
      omega
    have hl : isAsciiLetter c = false := by
      simp only [isAsciiLetter, Bool.or_eq_false_iff, Bool.and_eq_false_iff,
        decide_eq_false_iff_not]
      omega
    have he : escapeLetter c = none := by
      unfold escapeLetter
      simp only [show c ≠ 97 by omega, show c ≠ 98 by omega, show c ≠ 102 by omega,
        show c ≠ 110 by omega, show c ≠ 114 by omega, show c ≠ 116 by omega,
        show c ≠ 118 by omega, show c ≠ 92 by omega, if_false]
    simp only [escape, hg, hz, hd, he, hl, if_false, Bool.false_eq_true]

/-- Where no backslash begins an escape, the template stands for itself. -/
theorem expand_quiet (whole : Text) : ∀ {t : Text}, quiet t = true → expand whole t = some t
  | [], _ => rfl
  | c :: t, h => by
    rw [quiet, Bool.and_eq_true, Bool.not_eq_true', Bool.and_eq_false_iff] at h
    obtain ⟨hc, ht⟩ := h
    by_cases hb : c = 92
    · have hno : startsEscape t = false := by simpa [hb] using hc
      obtain ⟨d, rest, rfl, hesc⟩ := escape_of_not_startsEscape whole hno
      have hrest : quiet rest = true := by
        rw [quiet, Bool.and_eq_true] at ht
        exact ht.2
      have ih := expand_quiet whole hrest
      rw [expand] at ih ⊢
      rw [expandFrom, if_pos hb, hesc]
      simp [expandFrom, ih, hb]
    · have ih := expand_quiet whole ht
      rw [expand] at ih ⊢
      rw [expandFrom, if_neg hb, ih]
      rfl

theorem quiet_append_of_notMem {a : Text} (h : 92 ∉ a) (t : Text) : quiet (a ++ t) = quiet t := by
  induction a with
  | nil => rfl
  | cons c a ih =>
    have hc : (c == 92) = false := by
      rw [beq_eq_false_iff_ne]
      rintro rfl
      exact h (by simp)
    rw [List.cons_append, quiet, ih fun hmem => h (by simp [hmem]), hc, Bool.false_and,
      Bool.not_false, Bool.true_and]

theorem expand_append_of_notMem {a : Text} (h : 92 ∉ a) (whole t : Text) :
    expand whole (a ++ t) = (expand whole t).map (a ++ ·) := by
  induction a with
  | nil => simp
  | cons c a ih =>
    have hc : c ≠ 92 := fun heq => h (by simp [heq])
    have hrest := ih fun hmem => h (by simp [hmem])
    rw [expand] at hrest ⊢
    rw [List.cons_append, expandFrom, if_neg hc, hrest, Option.map_map]
    rfl

/-- An escape that begins at a backslash and is not refused stands for one character in place of
two or more, or for the whole match. -/
theorem escape_of_startsEscape {whole t out : Text} {n : Nat} (hstart : startsEscape t = true)
    (h : escape whole t = some (out, n)) :
    1 ≤ n ∧ n ≤ t.length ∧ (out.length = 1 ∨ out = whole) := by
  cases t with
  | nil => cases h
  | cons c t =>
    simp only [escape] at h
    split at h
    · cases t with
      | nil => cases h
      | cons d t =>
        simp only [groupReference] at h
        split at h
        · rename_i hname
          obtain ⟨-, hclose, -, -⟩ := hname
          simp only [Option.some.injEq, Prod.mk.injEq] at h
          obtain ⟨rfl, rfl⟩ := h
          have hlen : (t.takeWhile fun d => d != 62).length < t.length := by
            by_contra hge
            have hall : t.takeWhile (fun d => d != 62) = t :=
              (List.takeWhile_prefix _).eq_of_length_le (by omega)
            have := List.takeWhile_eq_self_iff.mp hall 62 hclose
            simp at this
          refine ⟨by omega, ?_, .inr rfl⟩
          simp only [List.length_cons]
          omega
        · cases h
    · split at h
      · simp only [Option.some.injEq, Prod.mk.injEq] at h
        obtain ⟨rfl, rfl⟩ := h
        have hlen := (List.takeWhile_prefix isOctal (l := t.take 2)).length_le
        simp only [List.length_take] at hlen
        simp only [List.length_cons]
        exact ⟨by omega, by omega, .inl rfl⟩
      · split at h
        · cases t with
          | nil => cases h
          | cons d t =>
            cases t with
            | nil => cases h
            | cons e t =>
              simp only at h
              split at h
              · simp only [Option.some.injEq, Prod.mk.injEq] at h
                obtain ⟨rfl, rfl⟩ := h
                simp only [List.length_cons]
                exact ⟨by omega, by omega, .inl rfl⟩
              · cases h
        · rename_i hdigit
          split at h
          · simp only [Option.some.injEq, Prod.mk.injEq] at h
            obtain ⟨rfl, rfl⟩ := h
            simp only [List.length_cons]
            exact ⟨by omega, by omega, .inl rfl⟩
          · rename_i hletter
            split at h
            · cases h
            · rename_i hascii
              have hb : c ≠ 92 := by
                rintro rfl
                cases hletter
              simp [startsEscape, hascii, hdigit, hb] at hstart

/-- An expansion that changes something makes the text shorter, or puts the whole match in. -/
theorem expandFrom_length {whole : Text} {t t' : Text} {n : Nat} (hn : n ≤ t.length)
    (h : expandFrom whole n t = some t') :
    (quiet (t.drop n) = true ∧ t' = t.drop n) ∨ t'.length + n < t.length
      ∨ whole.length ≤ t'.length := by
  induction t generalizing n t' with
  | nil =>
    obtain rfl : n = 0 := by simpa using hn
    obtain rfl : [] = t' := by simpa [expandFrom] using h
    exact .inl ⟨rfl, rfl⟩
  | cons c t ih =>
    cases n with
    | succ n =>
      rw [expandFrom] at h
      rw [List.drop_succ_cons, List.length_cons]
      obtain hsame | hshort | hlong := ih (by simpa using hn) h
      · exact .inl hsame
      · exact .inr (.inl (by omega))
      · exact .inr (.inr hlong)
    | zero =>
      rw [expandFrom] at h
      rw [List.drop_zero, List.length_cons]
      by_cases hc : c = 92
      · rw [if_pos hc] at h
        cases hesc : escape whole t with
        | none =>
          rw [hesc] at h
          cases h
        | some got =>
          obtain ⟨out, n⟩ := got
          simp only [hesc, Option.map_eq_some_iff] at h
          obtain ⟨tail, htail, rfl⟩ := h
          simp only [List.length_append]
          by_cases hstart : startsEscape t = true
          · obtain ⟨hpos, hle, hout⟩ := escape_of_startsEscape hstart hesc
            obtain hout | rfl := hout
            · obtain ⟨-, rfl⟩ | hshort | hlong := ih hle htail
              · simp only [List.length_drop]
                exact .inr (.inl (by omega))
              · exact .inr (.inl (by omega))
              · exact .inr (.inr (by omega))
            · exact .inr (.inr (by omega))
          · obtain ⟨d, rest, rfl, hkept⟩ := escape_of_not_startsEscape whole (by simpa using hstart)
            rw [hkept] at hesc
            simp only [Option.some.injEq, Prod.mk.injEq] at hesc
            obtain ⟨rfl, rfl⟩ := hesc
            have hd : d ≠ 92 := by
              rintro rfl
              exact hstart rfl
            obtain ⟨hq, rfl⟩ | hshort | hlong := ih (by simp) htail
            · refine .inl ⟨?_, by simp [hc]⟩
              rw [List.drop_succ_cons, List.drop_zero] at hq
              simp [quiet, hq, hd, hstart]
            · simp only [List.length_cons, List.length_nil] at hshort ⊢
              exact .inr (.inl (by omega))
            · exact .inr (.inr (by omega))
      · rw [if_neg hc, Option.map_eq_some_iff] at h
        obtain ⟨tail, htail, rfl⟩ := h
        simp only [List.length_cons]
        obtain ⟨hq, rfl⟩ | hshort | hlong := ih (Nat.zero_le _) htail
        · refine .inl ⟨?_, rfl⟩
          rw [List.drop_zero] at hq
          simp [quiet, hq, hc]
        · exact .inr (.inl (by omega))
        · exact .inr (.inr (by omega))

/-- Against a match longer than itself, only a template without escapes stands for itself. -/
theorem quiet_of_expand {whole t : Text} (hlen : t.length < whole.length)
    (h : expand whole t = some t) : quiet t = true := by
  obtain ⟨hq, -⟩ | hshort | hlong := expandFrom_length (Nat.zero_le _) h
  · exact hq
  · omega
  · omega

theorem isSurrogate_of_lt {c : Nat} (h : c < 256) : isSurrogate c = false := by
  simp only [isSurrogate, Bool.and_eq_false_iff, decide_eq_false_iff_not]
  omega

/-- At most two octal digits make a small number. -/
theorem octal_lt {t : Text} :
    ((t.take 2).takeWhile isOctal).foldl (fun v d => 8 * v + (d - 48)) 0 < 256 := by
  have hlen : ((t.take 2).takeWhile isOctal).length ≤ 2 := by
    have hmatch := (List.takeWhile_prefix isOctal (l := t.take 2)).length_le
    rw [List.length_take] at hmatch
    omega
  have hdigit : ∀ d ∈ (t.take 2).takeWhile isOctal, d ≤ 55 := by
    intro d hd
    have h := List.mem_takeWhile_imp hd
    simp only [isOctal, Bool.and_eq_true, decide_eq_true_eq] at h
    exact h.2
  generalize (t.take 2).takeWhile isOctal = digits at hlen hdigit
  rcases digits with _ | ⟨d, _ | ⟨e, _ | ⟨f, more⟩⟩⟩
  · decide
  · have hd := hdigit d (by simp)
    simp only [List.foldl_cons, List.foldl_nil]
    omega
  · have hd := hdigit d (by simp)
    have he := hdigit e (by simp)
    simp only [List.foldl_cons, List.foldl_nil]
    omega
  · simp only [List.length_cons] at hlen
    omega

theorem encodable_singleton {c : Nat} (h : isSurrogate c = false) : Encodable [c] := by
  intro d hd
  obtain rfl := List.mem_singleton.mp hd
  exact h

theorem encodable_escape {whole t out : Text} {n : Nat} (hwhole : Encodable whole)
    (ht : Encodable t) (h : escape whole t = some (out, n)) : Encodable out := by
  cases t with
  | nil => cases h
  | cons c t =>
    simp only [escape] at h
    split at h
    · cases t with
      | nil => cases h
      | cons d t =>
        simp only [groupReference] at h
        split at h
        · cases h
          exact hwhole
        · cases h
    · split at h
      · cases h
        exact encodable_singleton (isSurrogate_of_lt octal_lt)
      · split at h
        · cases t with
          | nil => cases h
          | cons d t =>
            cases t with
            | nil => cases h
            | cons e t =>
              simp only at h
              split at h
              · rename_i hoctal
                cases h
                rw [Bool.and_eq_true, decide_eq_true_eq] at hoctal
                exact encodable_singleton (isSurrogate_of_lt (by omega))
              · cases h
        · split at h
          · rename_i v hletter
            cases h
            refine encodable_singleton (isSurrogate_of_lt ?_)
            unfold escapeLetter at hletter
            split_ifs at hletter <;> simp only [Option.some.injEq] at hletter <;> omega
          · split at h
            · cases h
            · cases h
              intro d hd
              obtain rfl | hd := List.mem_cons.mp hd
              · rfl
              · obtain rfl := List.mem_singleton.mp hd
                exact ht d (by simp)

/-- What a template expands to has a UTF-8 form where the template and the match have one. -/
theorem encodable_expandFrom {whole : Text} (hwhole : Encodable whole) {t t' : Text} {n : Nat}
    (ht : Encodable t) (h : expandFrom whole n t = some t') : Encodable t' := by
  induction t generalizing n t' with
  | nil =>
    obtain rfl : [] = t' := by cases n <;> simpa [expandFrom] using h
    exact ht
  | cons c t ih =>
    have htail : Encodable t := fun d hd => ht d (by simp [hd])
    cases n with
    | succ n => exact ih htail h
    | zero =>
      rw [expandFrom] at h
      by_cases hc : c = 92
      · rw [if_pos hc] at h
        cases hesc : escape whole t with
        | none =>
          rw [hesc] at h
          cases h
        | some got =>
          obtain ⟨out, n⟩ := got
          simp only [hesc, Option.map_eq_some_iff] at h
          obtain ⟨tail, htail', rfl⟩ := h
          exact encodable_append.mpr ⟨encodable_escape hwhole htail hesc, ih htail htail'⟩
      · rw [if_neg hc, Option.map_eq_some_iff] at h
        obtain ⟨tail, htail', rfl⟩ := h
        intro d hd
        obtain rfl | hd := List.mem_cons.mp hd
        · exact ht d (by simp)
        · exact ih htail htail' d hd

theorem groupReference_taken (whole other t : Text) :
    (groupReference whole t).map Prod.snd = (groupReference other t).map Prod.snd := by
  cases t with
  | nil => rfl
  | cons c t =>
    simp only [groupReference]
    split <;> rfl

/-- How much an escape takes does not depend on the match. -/
theorem escape_taken (whole other t : Text) :
    (escape whole t).map Prod.snd = (escape other t).map Prod.snd := by
  cases t with
  | nil => rfl
  | cons c t =>
    simp only [escape]
    by_cases hg : c = 103
    · rw [if_pos hg, if_pos hg]
      exact groupReference_taken whole other t
    · rw [if_neg hg, if_neg hg]

/-- Whether a template is refused does not depend on the match. -/
theorem expandFrom_isSome (whole other : Text) {t : Text} {n : Nat} :
    (expandFrom whole n t).isSome = (expandFrom other n t).isSome := by
  induction t generalizing n with
  | nil => cases n <;> rfl
  | cons c t ih =>
    cases n with
    | succ n => exact ih
    | zero =>
      rw [expandFrom, expandFrom]
      by_cases hc : c = 92
      · rw [if_pos hc, if_pos hc]
        have htaken := escape_taken whole other t
        cases hw : escape whole t with
        | none =>
          cases ho : escape other t with
          | none => rfl
          | some got => simp [hw, ho] at htaken
        | some got =>
          cases ho : escape other t with
          | none => simp [hw, ho] at htaken
          | some got' =>
            have hn : got.2 = got'.2 := by simpa [hw, ho] using htaken
            simp only [Option.isSome_map, hn]
            exact ih
      · rw [if_neg hc, if_neg hc, Option.isSome_map, Option.isSome_map]
        exact ih

end Library
