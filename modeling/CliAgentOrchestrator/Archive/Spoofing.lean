import CliAgentOrchestrator.Archive.Import

/-!
# What an imported file can still spoof

The escapes of the import leave two ways to fake the structure of a topic file. Replacing `##`
pairs off the number signs from the left, so a heading whose run of them is odd keeps its last
two (`found_heading_replaceAll`); and a comment opener at the end of one line with `id:` at the
start of a later one is in no line of its own (`found_opensHeader_joined`). Everything else the
escapes break. The tags are not escaped at all.
-/

set_option autoImplicit false

namespace CliAgentOrchestrator.Archive

open Library Memory

theorem escapeSigns_pair (t : Text) :
    escapeSigns (text "##" ++ t) = text "\\#\\#" ++ escapeSigns t := replaceAll_match (by decide) _ t

theorem escapeSigns_skip {c : Nat} {t : Text} (h : (text "##").isPrefixOf (c :: t) = false) :
    escapeSigns (c :: t) = c :: escapeSigns t := replaceAll_skip _ h

theorem escapeOpeners_opener (t : Text) :
    escapeOpeners (text "<!--" ++ t) = text "<!\\--" ++ escapeOpeners t :=
  replaceAll_match (by decide) _ t

theorem escapeOpeners_skip {c : Nat} {t : Text}
    (h : (text "<!--").isPrefixOf (c :: t) = false) :
    escapeOpeners (c :: t) = c :: escapeOpeners t := replaceAll_skip _ h

/-! ## Headings -/

/-- A heading whose run of number signs is odd and longer than two; the number counts the signs
right before the text. -/
def oddHeading : Nat → Text → Bool
  | _, [] => false
  | n, c :: t =>
    if c = 35 then oddHeading (n + 1) t
    else (decide (3 ≤ n) && n % 2 == 1 && fits ((· == 32) :: stampShape) (c :: t))
      || oddHeading 0 t

/-- What is left of a run of number signs. -/
def escapedSigns : Nat → Text
  | 0 => []
  | 1 => [35]
  | n + 2 => text "\\#\\#" ++ escapedSigns n

/-- A text that does not begin with a number sign. -/
def NoSign (t : Text) : Prop := t.head? ≠ some 35

theorem replaceAll_signs {t : Text} (ht : NoSign t) (n : Nat) :
    escapeSigns (List.replicate n 35 ++ t)
      = escapedSigns n ++ escapeSigns t := by
  induction n using Nat.twoStepInduction with
  | zero => rfl
  | one =>
    have hpre : (text "##").isPrefixOf (35 :: t) = false := by
      cases t with
      | nil => rfl
      | cons c t =>
        have hc : (35 == c) = false := by
          rw [beq_eq_false_iff_ne]
          rintro rfl
          exact ht rfl
        show (35 == 35 && (35 == c && [].isPrefixOf t)) = false
        rw [hc, Bool.false_and, Bool.and_false]
    exact replaceAll_skip _ hpre
  | more n ih _ =>
    have hpair : List.replicate (n + 2) 35 ++ t = text "##" ++ (List.replicate n 35 ++ t) := rfl
    rw [hpair, escapeSigns_pair, ih, escapedSigns, List.append_assoc]

/-- Behind an escaped run only its last two signs can begin a heading, and those are left where
the run is odd. -/
theorem found_heading_escapedSigns {t : Text} (ht : NoSign t) (n : Nat) :
    found (fits headingShape) (escapedSigns n ++ t)
      = ((decide (3 ≤ n) && n % 2 == 1 && fits ((· == 32) :: stampShape) t)
        || found (fits headingShape) t) := by
  induction n using Nat.twoStepInduction with
  | zero => rfl
  | one =>
    have hno : fits headingShape (35 :: t) = false := by
      cases t with
      | nil => rfl
      | cons c t =>
        have hc : (c == 35) = false := by
          rw [beq_eq_false_iff_ne]
          rintro rfl
          exact ht rfl
        simp [headingShape, fits, hc]
    show found (fits headingShape) (35 :: t) = _
    rw [found_cons_of_false hno]
    rfl
  | more n ih _ =>
    have hlast : fits headingShape (35 :: (escapedSigns n ++ t))
        = (n == 1 && fits ((· == 32) :: stampShape) t) := by
      rcases n with _ | _ | n
      · cases t with
        | nil => rfl
        | cons c t =>
          have hc : (c == 35) = false := by
            rw [beq_eq_false_iff_ne]
            rintro rfl
            exact ht rfl
          simp [escapedSigns, headingShape, fits, hc]
      · rfl
      · rfl
    show found (fits headingShape) (92 :: 35 :: 92 :: 35 :: (escapedSigns n ++ t)) = _
    repeat rw [found_cons_of_false rfl]
    rw [found, hlast, ih, ← Bool.or_assoc]
    congr 1
    have hparity : (n == 1 || decide (3 ≤ n) && n % 2 == 1)
        = (decide (3 ≤ n + 2) && (n + 2) % 2 == 1) := by
      rw [Bool.eq_iff_iff]
      simp only [Bool.or_eq_true, Bool.and_eq_true, beq_iff_eq, decide_eq_true_eq]
      omega
    rw [← hparity]
    exact (Bool.and_or_distrib_right _ _ _).symm

theorem tail_stops {p : Nat → Bool} (hp : p ∈ (· == 32) :: stampShape) :
    p 35 = false ∧ p 92 = false := by
  have hall : ∀ q ∈ (· == 32) :: stampShape, q 35 = false ∧ q 92 = false := by
    simp only [stampShape, List.mem_cons, List.not_mem_nil, or_false]
    rintro q (rfl | rfl | rfl | rfl | rfl | rfl | rfl | rfl | rfl | rfl | rfl | rfl | rfl | rfl
      | rfl | rfl | rfl | rfl | rfl | rfl | rfl) <;> exact ⟨rfl, rfl⟩
  exact hall p hp

/-- The escape of number signs leaves the headings whose run is odd. -/
theorem found_heading_replaceAll (n : Nat) (t : Text) :
    found (fits headingShape)
        (escapeSigns (List.replicate n 35 ++ t))
      = oddHeading n t := by
  induction t generalizing n with
  | nil =>
    have ht : NoSign [] := by simp [NoSign]
    have hnone : escapeSigns [] = [] := rfl
    rw [replaceAll_signs ht, hnone, found_heading_escapedSigns ht]
    simp [fits, found, headingShape, oddHeading]
  | cons c t ih =>
    by_cases hc : c = 35
    · have hrun : List.replicate n 35 ++ c :: t = List.replicate (n + 1) 35 ++ t := by
        rw [hc, List.replicate_succ', List.append_assoc]
        rfl
      rw [hrun, ih, oddHeading, if_pos hc]
    · have ht : NoSign (c :: t) := by simpa [NoSign] using hc
      have hskip : escapeSigns (c :: t)
          = c :: escapeSigns t := by
        refine replaceAll_skip _ ?_
        show (35 == c && (text "#").isPrefixOf t) = false
        rw [beq_eq_false_iff_ne.mpr (Ne.symm hc), Bool.false_and]
      have hfits : fits ((· == 32) :: stampShape)
            (c :: escapeSigns t)
          = fits ((· == 32) :: stampShape) (c :: t) := by
        rw [← hskip]
        exact fits_replaceAll (fun p hp => (tail_stops hp).1) (fun p hp => (tail_stops hp).2) _
      have hhead : NoSign (c :: escapeSigns t) := by
        simpa [NoSign] using hc
      have hno : ∀ u, fits headingShape (c :: u) = false := by
        intro u
        have hne : (c == 35) = false := beq_eq_false_iff_ne.mpr hc
        simp [headingShape, fits, hne]
      have hrest := ih 0
      rw [List.replicate_zero, List.nil_append] at hrest
      rw [replaceAll_signs ht, hskip, found_heading_escapedSigns hhead, hfits,
        found_cons_of_false (hno _), hrest, oddHeading, if_neg hc]

/-- Such a heading is a heading. -/
theorem found_heading_of_oddHeading {n : Nat} {t : Text} (h : oddHeading n t = true) :
    found (fits headingShape) (List.replicate n 35 ++ t) = true := by
  induction t generalizing n with
  | nil => cases h
  | cons c t ih =>
    rw [oddHeading] at h
    by_cases hc : c = 35
    · rw [if_pos hc] at h
      have hrun : List.replicate n 35 ++ c :: t = List.replicate (n + 1) 35 ++ t := by
        rw [hc, List.replicate_succ', List.append_assoc]
        rfl
      rw [hrun]
      exact ih h
    · rw [if_neg hc, Bool.or_eq_true, Bool.and_eq_true, Bool.and_eq_true, decide_eq_true_eq] at h
      obtain ⟨⟨hn, -⟩, hfits⟩ | h := h
      · obtain ⟨m, rfl⟩ := Nat.exists_eq_add_of_le hn
        have hrun : List.replicate (3 + m) 35 ++ c :: t
            = List.replicate (m + 1) 35 ++ (35 :: 35 :: c :: t) := by
          rw [show 3 + m = (m + 1) + 2 by omega, List.replicate_add, List.append_assoc]
          rfl
        rw [hrun]
        refine found_of_suffix (List.suffix_append _ _) ?_
        have hstart : fits headingShape (35 :: 35 :: c :: t) = true := hfits
        rw [found, hstart, Bool.true_or]
      · have hsuffix : t <:+ List.replicate n 35 ++ c :: t :=
          (List.suffix_cons c t).trans (List.suffix_append _ _)
        exact found_of_suffix hsuffix (ih h)

/-! ## Comment openers -/

/-- A comment opener with something about what follows it. -/
def opener (g : Text → Bool) (t : Text) : Bool := fits (shape (text "<!--")) t && g (t.drop 4)

/-- The rest of a header comment. -/
def continuesHeader (t : Text) : Bool := fits (shape (text "id:")) (t.dropWhile isSpace)

theorem opensHeader_eq : opensHeader = opener continuesHeader := rfl

/-- The line ends with a comment opener, but for white space. -/
def endsOpen (line : Text) : Bool := found (opener fun rest => rest.all isSpace) line

theorem all_replaceAll {q : Nat → Bool} {o n : Nat} (olds news : Text) (ho : q o = false)
    (hn : q n = false) (t : Text) :
    (replaceAll (o :: olds) (n :: news) t).all q = t.all q := by
  have hall : ∀ u : Text, u.all q = (u.dropWhile q).isEmpty := by
    intro u
    induction u with
    | nil => rfl
    | cons c u ih =>
      by_cases hc : q c = true
      · rw [List.all_cons, hc, Bool.true_and, ih, List.dropWhile_cons_of_pos hc]
      · rw [List.all_cons, Bool.eq_false_iff.mpr hc, Bool.false_and,
          List.dropWhile_cons_of_neg hc]
        rfl
  rw [hall, hall, dropWhile_replaceAll olds news ho hn]
  cases hrest : t.dropWhile q with
  | nil => rfl
  | cons c u =>
    by_cases hpre : (o :: olds).isPrefixOf (c :: u) = true
    · obtain ⟨rest, hmatch⟩ := List.isPrefixOf_iff_prefix.mp hpre
      rw [← hmatch, replaceAll_match (List.cons_ne_nil o olds)]
      rfl
    · rw [replaceAll_skip _ (Bool.eq_false_iff.mpr hpre)]
      rfl

theorem continuesHeader_replaceAll {o n : Nat} (olds news : Text) (ho : isSpace o = false)
    (hn : isSpace n = false) (ho' : o ∉ text "id:") (hn' : n ∉ text "id:") (t : Text) :
    continuesHeader (replaceAll (o :: olds) (n :: news) t) = continuesHeader t := by
  rw [continuesHeader, dropWhile_replaceAll olds news ho hn,
    fits_replaceAll (shape_stops ho') (shape_stops hn')]
  rfl

/-- The escape of number signs does not touch comment openers. -/
theorem found_opener_escapeSigns {g : Text → Bool} (hg : ∀ t, g (escapeSigns t) = g t)
    (t : Text) : found (opener g) (escapeSigns t) = found (opener g) t := by
  induction t using replaceAll_induction (show text "##" ≠ [] by decide) with
  | nil => rfl
  | found t ih =>
    rw [escapeSigns_pair]
    show found (opener g) (92 :: 35 :: 92 :: 35 :: escapeSigns t)
      = found (opener g) (35 :: 35 :: t)
    repeat rw [found_cons_of_false rfl]
    exact ih
  | skipped c t hskip ih =>
    have hopener : opener g (escapeSigns (c :: t)) = opener g (c :: t) := by
      have hfits : fits (shape (text "<!--")) (escapeSigns (c :: t))
          = fits (shape (text "<!--")) (c :: t) :=
        fits_replaceAll (shape_stops (by decide)) (shape_stops (by decide)) _
      rw [opener, opener, hfits]
      by_cases hopen : fits (shape (text "<!--")) (c :: t) = true
      · obtain ⟨rest, hrest⟩ := fits_shape_iff.mp hopen
        have hpass : escapeSigns (text "<!--" ++ rest) = text "<!--" ++ escapeSigns rest :=
          replaceAll_append_of_notMem (by decide) (by decide) _ rest
        rw [← hrest, hpass]
        exact congrArg _ (hg rest)
      · rw [Bool.eq_false_iff.mpr hopen, Bool.false_and, Bool.false_and]
    rw [escapeSigns_skip hskip] at hopener ⊢
    rw [found, found, hopener, ih]

/-- The escape of comment openers does not touch headings. -/
theorem found_heading_escapeOpeners (t : Text) :
    found (fits headingShape) (escapeOpeners t) = found (fits headingShape) t := by
  induction t using replaceAll_induction (show text "<!--" ≠ [] by decide) with
  | nil => rfl
  | found t ih =>
    rw [escapeOpeners_opener]
    show found (fits headingShape) (60 :: 33 :: 92 :: 45 :: 45 :: escapeOpeners t)
      = found (fits headingShape) (60 :: 33 :: 45 :: 45 :: t)
    repeat rw [found_cons_of_false rfl]
    exact ih
  | skipped c t hskip ih =>
    have hstop : ∀ p ∈ headingShape, p 60 = false := rejects_of_stopsHeading (by decide)
    have hfits : fits headingShape (escapeOpeners (c :: t)) = fits headingShape (c :: t) :=
      fits_replaceAll hstop hstop _
    rw [escapeOpeners_skip hskip] at hfits ⊢
    rw [found, found, hfits, ih]

/-- It leaves no comment opener. -/
theorem found_opener_escapeOpeners (g : Text → Bool) (t : Text) :
    found (opener g) (escapeOpeners t) = false := by
  induction t using replaceAll_induction (show text "<!--" ≠ [] by decide) with
  | nil => rfl
  | found t ih =>
    rw [escapeOpeners_opener]
    show found (opener g) (60 :: 33 :: 92 :: 45 :: 45 :: escapeOpeners t) = false
    repeat rw [found_cons_of_false rfl]
    exact ih
  | skipped c t hskip ih =>
    have hno : fits (shape (text "<!--")) (c :: escapeOpeners t) = false := by
      rw [Bool.eq_false_iff]
      intro hopen
      have hparts : (c == 60 && fits (shape (text "!--")) (escapeOpeners t)) = true := hopen
      have hrest : fits (shape (text "!--")) (escapeOpeners t) = fits (shape (text "!--")) t :=
        fits_replaceAll (shape_stops (by decide)) (shape_stops (by decide)) _
      rw [hrest] at hparts
      have hwas : fits (shape (text "<!--")) (c :: t) = true := hparts
      have hpre := List.isPrefixOf_iff_prefix.mpr (fits_shape_iff.mp hwas)
      rw [hskip] at hpre
      cases hpre
    rw [escapeOpeners_skip hskip, found_cons_of_false, ih]
    rw [opener, hno, Bool.false_and]

/-! ## One line -/

theorem continuesHeader_escapeSigns (t : Text) :
    continuesHeader (escapeSigns t) = continuesHeader t :=
  continuesHeader_replaceAll _ _ rfl rfl (by decide) (by decide) t

theorem continuesHeader_escapeOpeners (t : Text) :
    continuesHeader (escapeOpeners t) = continuesHeader t :=
  continuesHeader_replaceAll _ _ rfl rfl (by decide) (by decide) t

theorem all_isSpace_escapeSigns (t : Text) : (escapeSigns t).all isSpace = t.all isSpace :=
  all_replaceAll _ _ rfl rfl t

theorem all_isSpace_escapeOpeners (t : Text) : (escapeOpeners t).all isSpace = t.all isSpace :=
  all_replaceAll _ _ rfl rfl t

/-- What neither escape changes, an escaped line has where the line has it. -/
theorem escapeLine_keeps {α : Type} {f : Text → α} (hsigns : ∀ t, f (escapeSigns t) = f t)
    (hopeners : ∀ t, f (escapeOpeners t) = f t) (line : Text) :
    f (escapeLine line).1 = f line := by
  have hfirst : f (signsEscaped line) = f line := by
    unfold signsEscaped
    split
    · exact hsigns line
    · rfl
  show f (openersEscaped (signsEscaped line)) = f line
  unfold openersEscaped
  split
  · rw [hopeners, hfirst]
  · exact hfirst

/-- An escaped line holds the headings whose run of number signs was odd. -/
theorem found_heading_escapeLine (line : Text) :
    found (fits headingShape) (escapeLine line).1 = oddHeading 0 line := by
  have hsigns : found (fits headingShape) (signsEscaped line) = oddHeading 0 line := by
    unfold signsEscaped
    by_cases h : found (fits headingShape) line = true
    · rw [if_pos h]
      exact found_heading_replaceAll 0 line
    · rw [if_neg h, Bool.eq_false_iff.mpr h, eq_comm, Bool.eq_false_iff]
      intro hodd
      exact h (found_heading_of_oddHeading hodd)
  show found (fits headingShape) (openersEscaped (signsEscaped line)) = oddHeading 0 line
  unfold openersEscaped
  split
  · rw [found_heading_escapeOpeners, hsigns]
  · exact hsigns

/-- The first escape leaves the comment openers. -/
theorem found_opener_signsEscaped {g : Text → Bool} (hg : ∀ t, g (escapeSigns t) = g t)
    (line : Text) : found (opener g) (signsEscaped line) = found (opener g) line := by
  unfold signsEscaped
  split
  · exact found_opener_escapeSigns hg line
  · rfl

/-- An escaped line holds no header comment. -/
theorem found_opensHeader_escapeLine (line : Text) :
    found opensHeader (escapeLine line).1 = false := by
  show found opensHeader (openersEscaped (signsEscaped line)) = false
  unfold openersEscaped
  split
  · exact found_opener_escapeOpeners continuesHeader _
  · rename_i h
    exact Bool.eq_false_iff.mpr h

/-- It ends with a comment opener where it did and was not escaped for a header comment. -/
theorem endsOpen_escapeLine (line : Text) :
    endsOpen (escapeLine line).1 = (endsOpen line && !found opensHeader line) := by
  have hheader : found opensHeader (signsEscaped line) = found opensHeader line :=
    found_opener_signsEscaped continuesHeader_escapeSigns line
  have hblank : endsOpen (signsEscaped line) = endsOpen line :=
    found_opener_signsEscaped all_isSpace_escapeSigns line
  show endsOpen (openersEscaped (signsEscaped line)) = _
  rw [openersEscaped, hheader]
  by_cases h : found opensHeader line = true
  · rw [if_pos h, h, Bool.not_true, Bool.and_false]
    exact found_opener_escapeOpeners _ _
  · rw [if_neg h, Bool.eq_false_iff.mpr h, Bool.not_false, Bool.and_true, hblank]

theorem unbroken_escapeLine {line : Text} (h : Unbroken line) : Unbroken (escapeLine line).1 := by
  have hsigns : Unbroken (signsEscaped line) := by
    unfold signsEscaped
    split
    · intro c hc
      obtain hnew | hold := mem_replaceAll (by decide) hc
      · exact (show Unbroken (text "\\#\\#") by decide) c hnew
      · exact h c hold
    · exact h
  show Unbroken (openersEscaped (signsEscaped line))
  unfold openersEscaped
  split
  · intro c hc
    obtain hnew | hold := mem_replaceAll (by decide) hc
    · exact (show Unbroken (text "<!\\--") by decide) c hnew
    · exact hsigns c hold
  · exact hsigns

/-! ## Lines together -/

/-- The first line that is not blank goes on with `id:`. -/
def continues : List Text → Bool
  | [] => false
  | line :: rest => if line.all isSpace then continues rest else continuesHeader line

/-- A comment opener ends one line and `id:` begins the next that is not blank. -/
def straddles (ends : Text → Bool) : List Text → Bool
  | [] => false
  | line :: rest => (ends line && continues rest) || straddles ends rest

/-- What follows a line goes on with the first line that is not blank. -/
theorem continuesHeader_append_lf (line rest : Text) :
    continuesHeader (line ++ 10 :: rest)
      = if line.all isSpace then continuesHeader rest else continuesHeader line := by
  rw [continuesHeader, List.dropWhile_append]
  by_cases hall : line.all isSpace = true
  · have hnil : line.dropWhile isSpace = [] :=
      List.dropWhile_eq_nil_iff.mpr (List.all_eq_true.mp hall)
    rw [if_pos hall, hnil]
    rfl
  · have hne : (line.dropWhile isSpace).isEmpty = false := by
      rw [List.isEmpty_eq_false_iff]
      intro hnil
      exact hall (List.all_eq_true.mpr (List.dropWhile_eq_nil_iff.mp hnil))
    rw [if_neg hall, hne, if_neg (by simp), fits_append_stop (shape_stops (by decide))]
    rfl

theorem continuesHeader_blank {line : Text} (h : line.all isSpace = true) :
    continuesHeader line = false := by
  rw [continuesHeader, List.dropWhile_eq_nil_iff.mpr (List.all_eq_true.mp h)]
  rfl

theorem opensHeader_append_lf (line rest : Text) :
    opensHeader (line ++ 10 :: rest)
      = (opensHeader line
        || opener (fun rest => rest.all isSpace) line && continuesHeader rest) := by
  rw [opensHeader_eq, opener, opener, opener,
    fits_append_stop (shape_stops (show 10 ∉ text "<!--" by decide))]
  by_cases hopen : fits (shape (text "<!--")) line = true
  · obtain ⟨tail, rfl⟩ := fits_shape_iff.mp hopen
    have hdrop : (text "<!--" ++ tail ++ 10 :: rest).drop 4 = tail ++ 10 :: rest := rfl
    have htail : (text "<!--" ++ tail).drop 4 = tail := rfl
    rw [hopen, hdrop, htail, Bool.true_and, Bool.true_and, Bool.true_and,
      continuesHeader_append_lf]
    by_cases hall : tail.all isSpace = true
    · rw [if_pos hall, hall, continuesHeader_blank hall, Bool.false_or, Bool.true_and]
    · rw [if_neg hall, Bool.eq_false_iff.mpr hall, Bool.false_and, Bool.or_false]
  · rw [Bool.eq_false_iff.mpr hopen, Bool.false_and, Bool.false_and, Bool.false_and,
      Bool.false_and, Bool.or_false]

/-- A header comment stands in a line, in the lines behind it, or across the break. -/
theorem found_opensHeader_append_lf (line rest : Text) :
    found opensHeader (line ++ 10 :: rest)
      = (found opensHeader line || endsOpen line && continuesHeader rest
        || found opensHeader rest) := by
  induction line with
  | nil =>
    rw [List.nil_append, found_cons_of_false rfl]
    rfl
  | cons c line ih =>
    have hhere := opensHeader_append_lf (c :: line) rest
    rw [List.cons_append] at hhere ⊢
    rw [found, ih, hhere, found, endsOpen, endsOpen, found]
    cases opensHeader (c :: line) <;>
      cases opener (fun rest => rest.all isSpace) (c :: line) <;>
      cases continuesHeader rest <;> simp

theorem continuesHeader_joined (ls : List Text) : continuesHeader (joined ls) = continues ls := by
  induction ls with
  | nil => rfl
  | cons line rest ih => rw [joined_cons, continuesHeader_append_lf, ih, continues]

/-- In lines that hold none themselves, header comments stand across line breaks. -/
theorem found_opensHeader_joined {ls : List Text}
    (h : ∀ line ∈ ls, found opensHeader line = false) :
    found opensHeader (joined ls) = straddles endsOpen ls := by
  induction ls with
  | nil => rfl
  | cons line rest ih =>
    rw [joined_cons, found_opensHeader_append_lf, h line (by simp), continuesHeader_joined,
      ih fun l hl => h l (by simp [hl]), Bool.false_or]
    rfl

theorem found_heading_joined (ls : List Text) :
    found (fits headingShape) (joined ls) = ls.any (found (fits headingShape)) := by
  induction ls with
  | nil => rfl
  | cons line rest ih =>
    have hstop : ∀ p ∈ headingShape, p 10 = false := rejects_of_stopsHeading (by decide)
    rw [joined_cons, found_fits_append_stop headingShape_ne hstop, ih, List.any_cons]

/-- The escaped lines hold a header comment where a line that was not escaped ends with an
opener. -/
theorem straddles_escaped (ls : List Text) :
    straddles endsOpen (ls.map fun line => (escapeLine line).1)
      = straddles (fun line => endsOpen line && !found opensHeader line) ls := by
  have hcontinues : ∀ ls : List Text,
      continues (ls.map fun line => (escapeLine line).1) = continues ls := by
    intro ls
    induction ls with
    | nil => rfl
    | cons line rest ih =>
      rw [List.map_cons, continues, continues, ih,
        escapeLine_keeps (f := fun t => t.all isSpace) all_isSpace_escapeSigns
          all_isSpace_escapeOpeners line,
        escapeLine_keeps continuesHeader_escapeSigns continuesHeader_escapeOpeners line]
  induction ls with
  | nil => rfl
  | cons line rest ih =>
    rw [List.map_cons, straddles, straddles, endsOpen_escapeLine, hcontinues, ih]

/-! ## The heading with the key, and blanks at the ends -/

theorem found_joined {m : Text → Bool} (hend : ∀ t, m (t ++ [10]) = m t) (ls : List Text) :
    found m (joined ls) = found m (joinLines ls) := by
  cases ls with
  | nil => rfl
  | cons line rest =>
    rw [← joinLines_append_lf (List.cons_ne_nil line rest), found_concat hend]

/-- Dropping the heading with the key takes nothing away that could be found. -/
theorem found_stripLeadingH1 {m : Text → Bool} {key : Text} {ls : List Text}
    (hls : ∀ line ∈ ls, Unbroken line) (hlf : ∀ t, m (10 :: t) = false)
    (hend : ∀ t, m (t ++ [10]) = m t)
    (hfirst : ∀ first rest, strip first = text "# " ++ key →
      found m (first ++ 10 :: rest) = found m rest) :
    found m (stripLeadingH1 (joinLines ls) key) = found m (joinLines ls) := by
  have hleft : ∀ t, found m (lstrip (· == 10) t) = found m t := by
    intro t
    unfold lstrip
    induction t with
    | nil => rfl
    | cons c t ih =>
      by_cases hc : (c == 10) = true
      · have hceq : c = 10 := beq_iff_eq.mp hc
        subst hceq
        rw [List.dropWhile_cons_of_pos (p := (· == 10)) hc, ih, found_cons_of_false (hlf t)]
      · rw [List.dropWhile_cons_of_neg (p := (· == 10)) hc]
  have hbreaks : ∀ c ∈ lstrip (· == 10) (joinLines ls), isLineBreak c = true → c = 10 := by
    intro c hc
    exact lf_of_mem_joined hls c (joinLines_subset ls ((List.dropWhile_suffix _).subset hc))
  have hlines := joined_splitlines hbreaks
  unfold stripLeadingH1
  cases hsplit : splitlines (lstrip (· == 10) (joinLines ls)) with
  | nil => rfl
  | cons first rest =>
    rw [hsplit, joined_cons] at hlines
    by_cases hkey : strip first = text "# " ++ key
    · rw [← hleft (joinLines ls)]
      simp only [hkey, if_true]
      rw [← found_joined hend, ← hfirst first (joined rest) hkey]
      obtain hsame | hsame := hlines
      · rw [hsame]
      · rw [hsame, found_concat hend]
    · simp only [hkey, if_false]

theorem heading_not_space {s : Nat} (hs : isSpace s = true) (t : Text) :
    fits headingShape (s :: t) = false := by
  have hne : (s == 35) = false := by
    rw [beq_eq_false_iff_ne]
    rintro rfl
    cases hs
  simp [headingShape, fits, hne]

theorem heading_concat_space {s : Nat} (hs : isSpace s = true) (t : Text) :
    fits headingShape (t ++ [s]) = fits headingShape t := by
  have hne : (s == 90) = false := by
    rw [beq_eq_false_iff_ne]
    rintro rfl
    cases hs
  exact fits_concat_refused (q := (· == 90)) hne (headingShape.take 22) t

theorem opener_not_space {g : Text → Bool} {s : Nat} (hs : isSpace s = true) (t : Text) :
    opener g (s :: t) = false := by
  have hne : (s == 60) = false := by
    rw [beq_eq_false_iff_ne]
    rintro rfl
    cases hs
  show ((s == 60 && fits (shape (text "!--")) t) && _) = false
  rw [hne, Bool.false_and, Bool.false_and]

theorem opensHeader_not_space {s : Nat} (hs : isSpace s = true) (t : Text) :
    opensHeader (s :: t) = false := by
  rw [opensHeader_eq]
  exact opener_not_space hs t

theorem opensHeader_concat_space {s : Nat} (hs : isSpace s = true) (t : Text) :
    opensHeader (t ++ [s]) = opensHeader t := by
  have hdash : (s == 45) = false := by
    rw [beq_eq_false_iff_ne]
    rintro rfl
    cases hs
  have hcolon : (s == 58) = false := by
    rw [beq_eq_false_iff_ne]
    rintro rfl
    cases hs
  have hopen : fits (shape (text "<!--")) (t ++ [s]) = fits (shape (text "<!--")) t :=
    fits_concat_refused (q := (· == 45)) hdash (shape (text "<!-")) t
  rw [opensHeader_eq, opener, opener, hopen]
  by_cases h : fits (shape (text "<!--")) t = true
  · obtain ⟨rest, rfl⟩ := fits_shape_iff.mp h
    have hdrop : (text "<!--" ++ rest ++ [s]).drop 4 = rest ++ [s] := rfl
    have hrest : (text "<!--" ++ rest).drop 4 = rest := rfl
    rw [hdrop, hrest]
    congr 1
    rw [continuesHeader, List.dropWhile_append]
    by_cases hall : (rest.dropWhile isSpace).isEmpty = true
    · have hnil := List.isEmpty_iff.mp hall
      rw [if_pos hall, continuesHeader, hnil, List.dropWhile_cons_of_pos hs]
      rfl
    · rw [if_neg hall]
      exact fits_concat_refused (q := (· == 58)) hcolon (shape (text "id")) _
  · rw [Bool.eq_false_iff.mpr h, Bool.false_and, Bool.false_and]

/-- The line with the key holds no heading. -/
theorem found_heading_keyLine {key first : Text} (hkey : ∀ c ∈ key, isSlugChar c = true)
    (hfirst : strip first = text "# " ++ key) :
    found (fits headingShape) first = false := by
  have hsign : 35 ∉ 32 :: key := by
    rw [List.mem_cons, not_or]
    exact ⟨by decide, fun hmem => absurd (hkey 35 hmem) (by decide)⟩
  have hrest : found (fits headingShape) (32 :: key) = false := by
    rw [Bool.eq_false_iff, ne_eq, found_fits_iff headingShape_ne, ne_eq, not_not]
    exact headings_of_notMem hsign
  rw [← found_strip (fun s t hs => heading_not_space hs t)
    (fun s t hs => heading_concat_space hs t), hfirst]
  show found (fits headingShape) (35 :: 32 :: key) = false
  rw [found_cons_of_false rfl, hrest]

theorem found_opener_of_notMem {g : Text → Bool} {t : Text} (h : 60 ∉ t) :
    found (opener g) t = false := by
  rw [Bool.eq_false_iff]
  intro hfound
  obtain ⟨s, hs, hopen⟩ := found_iff.mp hfound
  rw [opener, Bool.and_eq_true] at hopen
  obtain ⟨rest, rfl⟩ := fits_shape_iff.mp hopen.1
  exact h (hs.subset (by simp [text]))

/-- Nor does it begin a comment. -/
theorem notMem_keyLine {key first : Text} (hkey : ∀ c ∈ key, isSlugChar c = true)
    (hfirst : strip first = text "# " ++ key) : 60 ∉ first := by
  intro hmem
  obtain hspace | hin := isSpace_or_mem_strip hmem
  · cases hspace
  · rw [hfirst, List.mem_append] at hin
    obtain hlit | hin := hin
    · exact absurd hlit (by decide)
    · exact absurd (hkey 60 hin) (by decide)

/-! ## The body that is handed on -/

section Body

variable {key : Text} (hkey : ∀ c ∈ key, isSlugChar c = true) (content : Text)

/-- The lines the escapes go over. -/
def bodyLines (content : Text) : List Text := splitlines (stripSeeAlsoBlock content).1

theorem unbroken_escaped :
    ∀ line ∈ (bodyLines content).map fun line => (escapeLine line).1, Unbroken line := by
  intro line hline
  obtain ⟨raw, hraw, rfl⟩ := List.mem_map.mp hline
  exact unbroken_escapeLine (unbroken_of_mem_splitlines hraw)

theorem importedBody_eq :
    importedBody key content
      = strip (stripLeadingH1
          (joinLines ((bodyLines content).map fun line => (escapeLine line).1)) key) := by
  simp only [importedBody, escapeStructuralMarkers, bodyLines, List.map_map]
  rfl

include hkey

/-- The body holds the headings whose run of number signs was odd. -/
theorem found_heading_importedBody :
    found (fits headingShape) (importedBody key content)
      = (bodyLines content).any (oddHeading 0) := by
  have hspace : isSpace 10 = true := by decide
  rw [importedBody_eq, found_strip (fun s t hs => heading_not_space hs t)
    (fun s t hs => heading_concat_space hs t),
    found_stripLeadingH1 (unbroken_escaped content) (fun t => heading_not_space hspace t)
      (fun t => heading_concat_space hspace t),
    ← found_joined (fun t => heading_concat_space hspace t), found_heading_joined, List.any_map]
  · exact congrArg (fun f => (bodyLines content).any f) (funext found_heading_escapeLine)
  · intro first rest hfirst
    have hstop : ∀ p ∈ headingShape, p 10 = false := rejects_of_stopsHeading (by decide)
    rw [found_fits_append_stop headingShape_ne hstop, found_heading_keyLine hkey hfirst, Bool.false_or]

/-- The body holds a header comment where one straddles its lines. -/
theorem found_opensHeader_importedBody :
    found opensHeader (importedBody key content)
      = straddles (fun line => endsOpen line && !found opensHeader line) (bodyLines content) := by
  have hspace : isSpace 10 = true := by decide
  rw [importedBody_eq, found_strip (fun s t hs => opensHeader_not_space hs t)
    (fun s t hs => opensHeader_concat_space hs t),
    found_stripLeadingH1 (unbroken_escaped content) (fun t => opensHeader_not_space hspace t)
      (fun t => opensHeader_concat_space hspace t),
    ← found_joined (fun t => opensHeader_concat_space hspace t), found_opensHeader_joined,
    straddles_escaped]
  · intro line hline
    obtain ⟨raw, -, rfl⟩ := List.mem_map.mp hline
    exact found_opensHeader_escapeLine raw
  · intro first rest hfirst
    have hnone := notMem_keyLine hkey hfirst
    rw [found_opensHeader_append_lf, opensHeader_eq, found_opener_of_notMem hnone, endsOpen,
      found_opener_of_notMem hnone, Bool.false_and, Bool.or_false, Bool.false_or]

end Body

end CliAgentOrchestrator.Archive
