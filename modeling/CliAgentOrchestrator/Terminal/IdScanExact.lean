import CliAgentOrchestrator.Terminal.IdScan
import Mathlib.Data.List.GetD

/-!
# Which ids the guard refuses

What is addressed is said here of places in the message: the line of a place, whether it lies in a
fenced block, and the id that a match of a rule puts there. No match of a rule begins inside another
one, so the scan comes by every match. But it takes the line of a match from where the match begins,
and white space between the words of a rule may hold a line feed: the guard refuses exactly the
stale addresses, each with its line, if and only if a match of the same id begins on the line of
each of them (`guard_exact_iff`).
-/

set_option autoImplicit false

namespace CliAgentOrchestrator.Terminal

open Library

/-! ## The line of a place -/

/-- The line around a place. -/
def lineAt (t : Text) (pos : Nat) : Text := around (· != 10) t pos

/-- One more than the line feeds in front of a place. -/
def lineNumber (t : Text) (pos : Nat) : Nat := (t.take pos).count 10 + 1

/-- A line of a Markdown quote. -/
def isQuote (line : Text) : Bool := (line.dropWhile isBlank).head? == some 62

/-- A line that opens or closes a fenced block. -/
def isFence (line : Text) : Bool := [96, 96, 96].isPrefixOf (line.dropWhile isBlank)

/-- A fence begins at this place, the start of a line. -/
def fenceAt (t : Text) (a : Nat) : Bool :=
  (before t a).all (· == 10) && isFence ((t.drop a).takeWhile (· != 10))

/-- Inside a fenced block: an odd number of fences has begun, or the line is one. -/
def InFence (t : Text) (pos : Nat) : Prop :=
  (List.range (pos + 1)).countP (fenceAt t) % 2 = 1 ∨ isFence (lineAt t pos) = true

instance (t : Text) (pos : Nat) : Decidable (InFence t pos) :=
  inferInstanceAs (Decidable (_ ∨ _))

/-- The line of a place begins at `a`. -/
structure LineStart (t : Text) (pos a : Nat) : Prop where
  le : a ≤ pos
  edge : a = 0 ∨ before t a = some 10
  clear : ∀ i, a ≤ i → i < pos → t[i]? ≠ some 10

section Lines

variable {t : Text} {pos a : Nat}

theorem mem_lineStartsFrom {n x : Nat} :
    x ∈ lineStartsFrom n t ↔ ∃ i, t[i]? = some 10 ∧ x = n + i + 1 := by
  induction t generalizing n with
  | nil => simp [lineStartsFrom]
  | cons c t ih =>
    have hrest : x ∈ lineStartsFrom (n + 1) t
        ↔ ∃ i, (c :: t)[i + 1]? = some 10 ∧ x = n + (i + 1) + 1 := by
      rw [ih]
      simp only [List.getElem?_cons_succ, Nat.add_assoc, Nat.add_comm 1]
    rw [lineStartsFrom]
    split_ifs with hc
    · rw [List.mem_cons, hrest]
      constructor
      · rintro (rfl | ⟨i, hi, hx⟩)
        · exact ⟨0, by simp [hc], rfl⟩
        · exact ⟨i + 1, hi, hx⟩
      · rintro ⟨i, hi, hx⟩
        cases i with
        | zero => exact .inl hx
        | succ i => exact .inr ⟨i, hi, hx⟩
    · rw [hrest]
      constructor
      · rintro ⟨i, hi, hx⟩
        exact ⟨i + 1, hi, hx⟩
      · rintro ⟨i, hi, hx⟩
        cases i with
        | zero => exact absurd (by simpa using hi) hc
        | succ i => exact ⟨i, hi, hx⟩

theorem mem_lineStarts {x : Nat} : x ∈ lineStarts t ↔ x = 0 ∨ before t x = some 10 := by
  rw [lineStarts, List.mem_cons, mem_lineStartsFrom]
  refine or_congr_right ⟨?_, fun h => ?_⟩
  · rintro ⟨i, hi, rfl⟩
    rw [Nat.zero_add]
    exact hi
  · cases x with
    | zero => cases h
    | succ i => exact ⟨i, h, by rw [Nat.zero_add]⟩

theorem lineStartsFrom_sorted (n : Nat) (t : Text) : (lineStartsFrom n t).Pairwise (· < ·) := by
  induction t generalizing n with
  | nil => exact List.Pairwise.nil
  | cons c t ih =>
    rw [lineStartsFrom]
    split_ifs
    · refine List.pairwise_cons.mpr ⟨fun x hx => ?_, ih (n + 1)⟩
      obtain ⟨i, -, rfl⟩ := mem_lineStartsFrom.mp hx
      omega
    · exact ih (n + 1)

theorem lineStarts_sorted (t : Text) : (lineStarts t).Pairwise (· < ·) := by
  refine List.pairwise_cons.mpr ⟨fun x hx => ?_, lineStartsFrom_sorted 0 t⟩
  obtain ⟨i, -, rfl⟩ := mem_lineStartsFrom.mp hx
  omega

theorem countP_lineStartsFrom (n : Nat) (t : Text) (pos : Nat) :
    (lineStartsFrom n t).countP (· ≤ n + pos) = (t.take pos).count 10 := by
  induction t generalizing n pos with
  | nil => simp [lineStartsFrom]
  | cons c t ih =>
    cases pos with
    | zero =>
      rw [List.take_zero, List.count_nil, List.countP_eq_zero]
      intro x hx hle
      obtain ⟨i, -, rfl⟩ := mem_lineStartsFrom.mp hx
      rw [decide_eq_true_eq] at hle
      omega
    | succ pos =>
      have hnext := ih (n + 1) pos
      rw [Nat.add_assoc, Nat.add_comm 1] at hnext
      rw [lineStartsFrom, List.take_succ_cons]
      split_ifs with hc
      · rw [List.countP_cons_of_pos (by simp), hnext, hc, List.count_cons_self]
      · rw [hnext, List.count_cons_of_ne (by simpa using hc)]

/-- The search ends at the last start that is not behind the place. -/
theorem bisect_spec {starts : List Nat} (hsorted : starts.Pairwise (· < ·)) {fuel low high : Nat}
    (hfuel : high - low ≤ fuel) (hle : low ≤ high) (hhigh : high < starts.length)
    (hlow : starts.getD low 0 ≤ pos)
    (hbehind : ∀ k, high < k → k < starts.length → pos < starts.getD k 0) :
    bisect starts pos fuel low high < starts.length
      ∧ starts.getD (bisect starts pos fuel low high) 0 ≤ pos
      ∧ ∀ k, bisect starts pos fuel low high < k → k < starts.length → pos < starts.getD k 0 := by
  induction fuel generalizing low high with
  | zero =>
    obtain rfl : low = high := by omega
    exact ⟨hhigh, hlow, hbehind⟩
  | succ fuel ih =>
    rw [bisect]
    dsimp only
    split_ifs with hlt hmid
    · exact ih (by omega) (by omega) hhigh hmid hbehind
    · refine ih (by omega) (by omega) (by omega) hlow fun k hk hlen => ?_
      have hmidlen : (low + high + 1) / 2 < starts.length := by omega
      rw [List.getD_eq_getElem _ _ hmidlen, Nat.not_le] at hmid
      rw [List.getD_eq_getElem _ _ hlen]
      obtain heq | hgt := Nat.eq_or_lt_of_le (show (low + high + 1) / 2 ≤ k by omega)
      · subst heq
        exact hmid
      · exact Nat.lt_trans hmid (List.pairwise_iff_getElem.mp hsorted _ _ hmidlen hlen hgt)
    · obtain rfl : low = high := by omega
      exact ⟨hhigh, hlow, hbehind⟩

/-- The place at which the search of `_line_of` ends. -/
theorem lineOf_spec (t : Text) (pos : Nat) :
    lineOf t pos - 1 < (lineStarts t).length
      ∧ (lineStarts t).getD (lineOf t pos - 1) 0 ≤ pos
      ∧ ∀ k, lineOf t pos - 1 < k → k < (lineStarts t).length → pos < (lineStarts t).getD k 0 :=
  bisect_spec (lineStarts_sorted t) (Nat.le_trans (Nat.sub_le _ _) (Nat.sub_le _ _))
    (Nat.zero_le _) (Nat.sub_lt (by simp [lineStarts]) Nat.one_pos) (Nat.zero_le _)
    fun k hk hlen => by omega

theorem lineOf_eq (t : Text) (pos : Nat) : lineOf t pos = lineNumber t pos := by
  obtain ⟨hlen, hle, hbehind⟩ := lineOf_spec t pos
  have hsorted := lineStarts_sorted t
  have hcount : (lineStarts t).countP (· ≤ pos) = (t.take pos).count 10 + 1 := by
    rw [lineStarts, List.countP_cons_of_pos (by simp)]
    have h := countP_lineStartsFrom 0 t pos
    rw [Nat.zero_add] at h
    rw [h]
  have hfront : ((lineStarts t).take (lineOf t pos)).countP (· ≤ pos) = lineOf t pos := by
    have hall : ∀ x ∈ (lineStarts t).take (lineOf t pos), decide (x ≤ pos) = true := by
      intro x hx
      obtain ⟨k, hk, rfl⟩ := List.mem_take_iff_getElem.mp hx
      rw [decide_eq_true_eq]
      rw [List.getD_eq_getElem _ _ hlen] at hle
      obtain heq | hlt := Nat.eq_or_lt_of_le (show k ≤ lineOf t pos - 1 by omega)
      · subst heq
        exact hle
      · exact Nat.le_trans
          (Nat.le_of_lt (List.pairwise_iff_getElem.mp hsorted k _ (by omega) hlen hlt)) hle
    rw [List.countP_eq_length.mpr hall, List.length_take]
    unfold lineOf at hlen ⊢
    omega
  have hback : ((lineStarts t).drop (lineOf t pos)).countP (· ≤ pos) = 0 := by
    rw [List.countP_eq_zero]
    intro x hx hxle
    obtain ⟨k, hk, rfl⟩ := List.mem_drop_iff_getElem.mp hx
    have hgt := hbehind (lineOf t pos + k) (by unfold lineOf; omega) (by omega)
    rw [List.getD_eq_getElem _ _ (by omega)] at hgt
    rw [decide_eq_true_eq] at hxle
    omega
  rw [lineNumber, ← hcount, ← List.take_append_drop (lineOf t pos) (lineStarts t),
    List.countP_append, hfront, hback, Nat.add_zero]

/-- The line start that the source looks up is that of the place. -/
theorem lineStart_lineOf (t : Text) (pos : Nat) :
    LineStart t pos ((lineStarts t).getD (lineOf t pos - 1) 0) := by
  obtain ⟨hlen, hle, hbehind⟩ := lineOf_spec t pos
  have hsorted := lineStarts_sorted t
  refine ⟨hle, ?_, fun i hai hip hi => ?_⟩
  · rw [List.getD_eq_getElem _ _ hlen]
    exact mem_lineStarts.mp (List.getElem_mem hlen)
  · have hmem : i + 1 ∈ lineStarts t := mem_lineStarts.mpr (.inr hi)
    obtain ⟨k, hk, heq⟩ := List.mem_iff_getElem.mp hmem
    obtain hgt | hle' := Nat.lt_or_ge (lineOf t pos - 1) k
    · have := hbehind k hgt hk
      rw [List.getD_eq_getElem _ _ hk] at this
      omega
    · rw [List.getD_eq_getElem _ _ hlen] at hai
      obtain heq' | hlt := Nat.eq_or_lt_of_le hle'
      · subst heq'
        omega
      · have := List.pairwise_iff_getElem.mp hsorted k _ hk hlen hlt
        omega

/-- The rest of the text from the start of the line. -/
theorem LineStart.drop_eq (h : LineStart t pos a) :
    t.drop a = (t.take pos).drop a ++ t.drop pos := by
  conv_lhs => rw [← List.take_append_drop pos t]
  rw [List.drop_append]
  rcases le_or_gt pos t.length with hle | hlt
  · rw [List.length_take, Nat.min_eq_left hle, Nat.sub_eq_zero_of_le h.le, List.drop_zero]
  · rw [List.drop_eq_nil_of_le (Nat.le_of_lt hlt), List.drop_nil]

/-- No line feed stands between the start of the line and the place. -/
theorem LineStart.notMem (h : LineStart t pos a) : 10 ∉ (t.take pos).drop a := by
  intro hmem
  obtain ⟨k, hk⟩ := List.mem_iff_getElem?.mp hmem
  rw [List.getElem?_drop] at hk
  obtain ⟨hlt, -⟩ := List.getElem?_eq_some_iff.mp hk
  have hpos : a + k < pos := Nat.lt_of_lt_of_le hlt (List.length_take_le pos t)
  rw [List.getElem?_take_of_lt hpos] at hk
  exact h.clear (a + k) (Nat.le_add_right _ _) hpos hk

/-- The line of a place, from its start. -/
theorem LineStart.lineAt_eq (h : LineStart t pos a) :
    lineAt t pos = (t.drop a).takeWhile (· != 10) := by
  have hfree := bne_of_notMem h.notMem
  have hback : (t.take pos).reverse.takeWhile (· != 10) = ((t.take pos).drop a).reverse := by
    have hsplit : (t.take pos).reverse
        = ((t.take pos).drop a).reverse ++ ((t.take pos).take a).reverse := by
      rw [← List.reverse_append, List.take_append_drop]
    have hrev : ∀ c ∈ ((t.take pos).drop a).reverse, (c != 10) = true :=
      fun c hc => hfree c (List.mem_reverse.mp hc)
    rw [hsplit, List.takeWhile_append_of_pos hrev, List.take_take, Nat.min_eq_left h.le]
    obtain rfl | hedge := h.edge
    · rw [List.take_zero, List.reverse_nil, List.takeWhile_nil, List.append_nil]
    · obtain ⟨i, rfl⟩ : ∃ i, a = i + 1 := by
        cases a with
        | zero => cases hedge
        | succ i => exact ⟨i, rfl⟩
      have hedge : t[i]? = some 10 := hedge
      rw [List.take_add_one, hedge, Option.toList_some, List.reverse_append]
      rw [List.reverse_singleton, List.singleton_append, List.takeWhile_cons_of_neg (by simp),
        List.append_nil]
  rw [lineAt, around, hback, List.reverse_reverse, h.drop_eq,
    List.takeWhile_append_of_pos hfree]

/-- Blanks do not lead out of a line. -/
theorem head_dropWhile_takeWhile (t : Text) {c : Nat} (hc : c ≠ 10) :
    ((t.takeWhile (· != 10)).dropWhile isBlank).head? = some c
      ↔ (t.dropWhile isBlank).head? = some c := by
  induction t with
  | nil => rfl
  | cons d t ih =>
    by_cases hd : d = 10
    · subst hd
      rw [List.takeWhile_cons_of_neg (by simp), List.dropWhile_cons_of_neg (by decide)]
      simp [Ne.symm hc]
    · rw [List.takeWhile_cons_of_pos (by simpa using hd), List.dropWhile_cons, List.dropWhile_cons]
      split_ifs
      · exact ih
      · rfl

/-- Places on one line have the same line around them. -/
theorem lineAt_eq_of_lineNumber {i : Nat} (h : lineNumber t i = lineNumber t pos) :
    lineAt t i = lineAt t pos := by
  rw [← lineOf_eq, ← lineOf_eq] at h
  rw [(lineStart_lineOf t i).lineAt_eq, (lineStart_lineOf t pos).lineAt_eq, h]

/-- The source judges the line of the place. -/
theorem isQuotedLine_lineOf (t : Text) (pos : Nat) :
    isQuotedLine t ((lineStarts t).getD (lineOf t pos - 1) 0) = isQuote (lineAt t pos) := by
  rw [isQuotedLine, isQuote, (lineStart_lineOf t pos).lineAt_eq, Bool.eq_iff_iff, beq_iff_eq,
    beq_iff_eq]
  exact (head_dropWhile_takeWhile _ (by decide)).symm

end Lines

/-! ## Fenced blocks -/

section Fences

variable {t : Text} {pos : Nat}

theorem isBlank_ne {c : Nat} (h : isBlank c = true) : (c != 10) = true := by
  rw [bne_iff_ne]
  rintro rfl
  cases h

/-- The text from here on begins with blanks and a fence. -/
theorem isFence_line_iff {u : Text} :
    isFence (u.takeWhile (· != 10)) = true
      ↔ ∃ blanks rest, u = blanks ++ 96 :: 96 :: 96 :: rest ∧ ∀ c ∈ blanks, isBlank c = true := by
  rw [isFence, List.isPrefixOf_iff_prefix]
  constructor
  · rintro ⟨rest, hrest⟩
    refine ⟨(u.takeWhile (· != 10)).takeWhile isBlank, rest ++ u.dropWhile (· != 10), ?_,
      fun c hc => List.mem_takeWhile_imp hc⟩
    have hline := List.takeWhile_append_dropWhile (p := isBlank) (l := u.takeWhile (· != 10))
    rw [← hrest] at hline
    conv_lhs => rw [← List.takeWhile_append_dropWhile (p := (· != 10)) (l := u), ← hline]
    simp
  · rintro ⟨blanks, rest, rfl, hblanks⟩
    have hfree : ∀ c ∈ blanks, (c != 10) = true := fun c hc => isBlank_ne (hblanks c hc)
    rw [List.takeWhile_append_of_pos hfree]
    have hmarks : (96 :: 96 :: 96 :: rest).takeWhile (· != 10)
        = 96 :: 96 :: 96 :: rest.takeWhile (· != 10) := rfl
    rw [hmarks, dropWhile_append_stop hblanks rfl]
    exact ⟨_, rfl⟩

/-- A fence matches up to the end of its line. -/
theorem mem_ends_fenceLine {a j : Nat} :
    j ∈ fenceLine.ends t a
      ↔ fenceAt t a = true ∧ j = a + ((t.drop a).takeWhile (· != 10)).length := by
  have hshape : ∀ {n : Nat} {blanks rest : Text}, blanks.length = n →
      t.drop a = blanks ++ 96 :: 96 :: 96 :: rest → (∀ c ∈ blanks, isBlank c = true) →
      ((t.drop a).takeWhile (· != 10)).length = n + 3 + (rest.takeWhile (· != 10)).length
        ∧ t.drop (a + n) = 96 :: 96 :: 96 :: rest ∧ t.drop (a + n + 3) = rest := by
    rintro n blanks rest rfl hdrop hblanks
    have hfree : ∀ c ∈ blanks, (c != 10) = true := fun c hc => isBlank_ne (hblanks c hc)
    have hmark : t.drop (a + blanks.length) = 96 :: 96 :: 96 :: rest := by
      rw [← List.drop_drop, hdrop, List.drop_left]
    refine ⟨?_, hmark, by rw [← List.drop_drop, hmark]; rfl⟩
    rw [hdrop, List.takeWhile_append_of_pos hfree, List.length_append, Nat.add_assoc]
    exact congrArg (blanks.length + ·) (Nat.add_comm _ 3)
  rw [fenceAt, Bool.and_eq_true, isFence_line_iff, fenceLine]
  simp only [Regex.chain, List.foldr_cons, List.foldr_nil, mem_ends_seq, mem_ends_look,
    mem_ends_run, mem_ends_word, mem_ends_nothing, reads_exactLetters_iff, runLength_none]
  constructor
  · rintro ⟨a, ⟨hedge, rfl⟩, _, ⟨n, -, hn, rfl⟩, _, ⟨⟨rest, hrest⟩, rfl⟩, _, ⟨m, -, hm, rfl⟩,
      _, ⟨hend, rfl⟩, rfl⟩
    have hstarts : (t.drop a).take n <+: (t.drop a).takeWhile isBlank :=
      List.prefix_of_prefix_length_le (List.take_prefix _ _) (List.takeWhile_prefix _)
        (Nat.le_trans (List.length_take_le _ _) hn)
    have hlen : n ≤ (t.drop a).length := Nat.le_trans hn (List.takeWhile_prefix _).length_le
    have hblanks : ∀ x ∈ (t.drop a).take n, isBlank x = true :=
      fun x hx => List.mem_takeWhile_imp (hstarts.subset hx)
    have hdrop : t.drop a = (t.drop a).take n ++ 96 :: 96 :: 96 :: rest := by
      conv_lhs => rw [← List.take_append_drop n (t.drop a), List.drop_drop, ← hrest]
      rfl
    obtain ⟨hline, -, hback⟩ := hshape (List.length_take_of_le hlen) hdrop hblanks
    have hm' : m = (rest.takeWhile (· != 10)).length := by
      rw [← hback]
      refine eq_length_takeWhile_iff.mpr ⟨hm, fun x hx => ?_⟩
      rw [List.getElem?_drop] at hx
      have hx' : t[a + n + (exactLetters [96, 96, 96]).length + m]? = some x := hx
      rw [List.head?_drop, hx'] at hend
      simpa using hend
    refine ⟨⟨hedge, _, rest, hdrop, hblanks⟩, ?_⟩
    rw [hline, ← hm', exactLetters, List.length_map, List.length_cons, List.length_cons,
      List.length_cons, List.length_nil]
    omega
  · rintro ⟨⟨hedge, blanks, rest, hdrop, hblanks⟩, rfl⟩
    obtain ⟨hline, hmark, hback⟩ := hshape rfl hdrop hblanks
    have htake : blanks.length ≤ ((t.drop a).takeWhile isBlank).length := by
      rw [hdrop, List.takeWhile_append_of_pos hblanks, List.length_append]
      exact Nat.le_add_right _ _
    obtain ⟨m, hm⟩ : ∃ m, m = (rest.takeWhile (· != 10)).length := ⟨_, rfl⟩
    obtain ⟨hle, hend⟩ := eq_length_takeWhile_iff.mp hm
    rw [← hback] at hle hend
    refine ⟨a, ⟨hedge, rfl⟩, _, ⟨blanks.length, Nat.zero_le _, htake, rfl⟩, _,
      ⟨⟨rest, hmark.symm⟩, rfl⟩, _, ⟨m, Nat.zero_le _, hle, rfl⟩, _, ⟨?_, rfl⟩, ?_⟩
    · rw [Option.all_eq_true]
      intro x hx
      rw [List.head?_drop] at hx
      rw [List.getElem?_drop] at hend
      simpa using hend x hx
    · rw [hline, ← hm, exactLetters, List.length_map, List.length_cons, List.length_cons,
        List.length_cons, List.length_nil]
      omega

/-- A character of a line that is followed to its end. -/
theorem get_of_lt_line {a k : Nat} (hak : a ≤ k)
    (hk : k < a + ((t.drop a).takeWhile (· != 10)).length) : ∃ c, t[k]? = some c ∧ c ≠ 10 := by
  have hlt : k - a < runLength t (· != 10) none a := by
    rw [runLength_none]
    omega
  obtain ⟨c, hc, hne⟩ := get_of_lt_runLength hlt
  rw [Nat.add_sub_cancel' hak] at hc
  exact ⟨c, hc, by simpa using hne⟩

theorem fenceLine_alone (t : Text) : fenceLine.Alone t := by
  intro i j k hj hik hkj
  refine List.eq_nil_iff_forall_not_mem.mpr fun e he => ?_
  obtain ⟨-, rfl⟩ := mem_ends_fenceLine.mp hj
  have hfence := (mem_ends_fenceLine.mp he).1
  rw [fenceAt, Bool.and_eq_true] at hfence
  obtain ⟨n, rfl⟩ : ∃ n, k = n + 1 := ⟨k - 1, by omega⟩
  obtain ⟨c, hc, hne⟩ := get_of_lt_line (Nat.le_of_lt_succ hik) (Nat.lt_of_succ_lt hkj)
  rw [before, hc, Option.all_some, beq_iff_eq] at hfence
  exact hne hfence.1

theorem head_ends_fenceLine {a j : Nat} :
    (fenceLine.ends t a).head? = some j
      ↔ fenceAt t a = true ∧ j = a + ((t.drop a).takeWhile (· != 10)).length := by
  rw [← mem_ends_fenceLine]
  refine ⟨List.mem_of_mem_head?, fun h => ?_⟩
  obtain ⟨k, rest, hends⟩ := List.exists_cons_of_ne_nil (List.ne_nil_of_mem h)
  have hk := (mem_ends_fenceLine.mp (hends ▸ List.mem_cons_self : k ∈ fenceLine.ends t a)).2
  rw [hends, List.head?_cons, hk, (mem_ends_fenceLine.mp h).2]

theorem matchAt_fenceLine_isSome (a : Nat) : (matchAt t fenceLine a).isSome = fenceAt t a := by
  rw [Bool.eq_iff_iff, matchAt, Option.isSome_map, Option.isSome_iff_exists]
  simp only [head_ends_fenceLine]
  constructor
  · rintro ⟨_, h, _⟩
    exact h
  · intro h
    exact ⟨_, h, rfl⟩

/-- A place lies within a fence line that is a match if its line is one. -/
theorem exists_fence_iff {c : Nat} (hpos : t[pos]? = some c) (hc : c ≠ 10) :
    (∃ m ∈ finditer t fenceLine, m.1 ≤ pos ∧ pos < m.2) ↔ isFence (lineAt t pos) = true := by
  constructor
  · rintro ⟨⟨a, b⟩, hm, hle, hlt⟩
    obtain ⟨hfence, rfl⟩ := head_ends_fenceLine.mp
      ((mem_finditer_iff (fenceLine_alone t)).mp hm).2
    rw [fenceAt, Bool.and_eq_true] at hfence
    have hstart : LineStart t pos a := by
      refine ⟨hle, ?_, fun i hai hip hi => ?_⟩
      · cases a with
        | zero => exact .inl rfl
        | succ n =>
          obtain ⟨d, hd⟩ : ∃ d, t[n]? = some d := by
            have hlen := (List.getElem?_eq_some_iff.mp hpos).1
            exact ⟨t[n], List.getElem?_eq_getElem (by omega)⟩
          have hedge := hfence.1
          rw [before, hd, Option.all_some, beq_iff_eq] at hedge
          exact .inr (by rw [before, hd, hedge])
      · obtain ⟨d, hd, hne⟩ := get_of_lt_line hai (Nat.lt_trans hip hlt)
        rw [hd] at hi
        exact hne (Option.some.inj hi)
    rw [hstart.lineAt_eq]
    exact hfence.2
  · intro h
    have hstart := lineStart_lineOf t pos
    obtain ⟨a, ha⟩ : ∃ a, a = (lineStarts t).getD (lineOf t pos - 1) 0 := ⟨_, rfl⟩
    rw [← ha] at hstart
    have hlen := (List.getElem?_eq_some_iff.mp hpos).1
    have hfence : fenceAt t a = true := by
      rw [fenceAt, Bool.and_eq_true, ← hstart.lineAt_eq]
      refine ⟨?_, h⟩
      obtain rfl | hedge := hstart.edge
      · rfl
      · rw [hedge]
        rfl
    refine ⟨(a, a + ((t.drop a).takeWhile (· != 10)).length),
      (mem_finditer_iff (fenceLine_alone t)).mpr
        ⟨Nat.le_trans hstart.le (Nat.le_of_lt hlen), head_ends_fenceLine.mpr ⟨hfence, rfl⟩⟩,
      hstart.le, ?_⟩
    by_contra hge
    obtain ⟨-, hend⟩ := eq_length_takeWhile_iff.mp
      (Eq.refl ((t.drop a).takeWhile (· != 10)).length)
    rw [List.getElem?_drop] at hend
    obtain ⟨d, hd⟩ : ∃ d, t[a + ((t.drop a).takeWhile (· != 10)).length]? = some d :=
      ⟨_, List.getElem?_eq_getElem (by omega)⟩
    obtain rfl : d = 10 := by simpa using hend d hd
    have hend_le : a + ((t.drop a).takeWhile (· != 10)).length ≤ pos := Nat.not_lt.mp hge
    obtain heq | hlt := Nat.eq_or_lt_of_le hend_le
    · rw [heq, hpos] at hd
      exact hc (Option.some.inj hd)
    · exact hstart.clear _ (Nat.le_add_right _ _) hlt hd

/-- Being in one of the spans: an odd number of fences has begun, or the place is in one. -/
theorem inAnySpan_spansFrom {size : Nat} (hpos : pos < size) {ms : List (Nat × Nat)}
    (hsorted : ms.Pairwise fun m m' => m.2 ≤ m'.1) (hle : ∀ m ∈ ms, m.1 ≤ m.2) :
    (inAnySpan pos (spansFrom size none ms) = true
      ↔ ms.countP (·.1 ≤ pos) % 2 = 1 ∨ ∃ m ∈ ms, m.1 ≤ pos ∧ pos < m.2)
    ∧ ∀ a, (∀ m ∈ ms, a ≤ m.1) → (inAnySpan pos (spansFrom size (some a) ms) = true
      ↔ a ≤ pos ∧ (ms.countP (·.1 ≤ pos) % 2 = 0 ∨ ∃ m ∈ ms, m.1 ≤ pos ∧ pos < m.2)) := by
  induction ms with
  | nil => simp [spansFrom, inAnySpan, hpos]
  | cons m ms ih =>
    obtain ⟨hfirst, hsorted⟩ := List.pairwise_cons.mp hsorted
    obtain ⟨hnone, hsome⟩ := ih hsorted fun m' hm' => hle m' (List.mem_cons_of_mem _ hm')
    have hm := hle m List.mem_cons_self
    -- nothing behind `m` begins before it ends
    have hlate : pos < m.2 → ms.countP (·.1 ≤ pos) = 0 ∧ ¬∃ m' ∈ ms, m'.1 ≤ pos ∧ pos < m'.2 := by
      intro hlt
      refine ⟨List.countP_eq_zero.mpr fun m' hm' hdec => ?_, ?_⟩
      · rw [decide_eq_true_eq] at hdec
        exact absurd (Nat.le_trans (hfirst m' hm') hdec) (Nat.not_le.mpr hlt)
      · rintro ⟨m', hm', hle', -⟩
        exact absurd (Nat.le_trans (hfirst m' hm') hle') (Nat.not_le.mpr hlt)
    have hcons : (∃ m' ∈ m :: ms, m'.1 ≤ pos ∧ pos < m'.2)
        ↔ (m.1 ≤ pos ∧ pos < m.2) ∨ ∃ m' ∈ ms, m'.1 ≤ pos ∧ pos < m'.2 := by
      simp only [List.mem_cons, exists_eq_or_imp]
    have hcount : (m :: ms).countP (·.1 ≤ pos)
        = ms.countP (·.1 ≤ pos) + if m.1 ≤ pos then 1 else 0 := by
      simp only [List.countP_cons, decide_eq_true_eq]
    rw [hcons, hcount]
    refine ⟨?_, fun a ha => ?_⟩
    · rw [spansFrom, hsome m.1 fun m' hm' => Nat.le_trans hm (hfirst m' hm')]
      split_ifs with hbegun
      · by_cases hlt : pos < m.2
        · simp [hlate hlt, hbegun, hlt]
        · simp only [hbegun, hlt, true_and, and_false, false_or]
          exact or_congr_left (by omega)
      · simp [hlate (by omega), hbegun]
    · have ham := ha m List.mem_cons_self
      have hspan : inAnySpan pos ((a, m.2) :: spansFrom size none ms)
          = ((decide (a ≤ pos) && decide (pos < m.2))
            || inAnySpan pos (spansFrom size none ms)) := rfl
      rw [spansFrom, hspan, Bool.or_eq_true, hnone, Bool.and_eq_true, decide_eq_true_eq,
        decide_eq_true_eq]
      split_ifs with hbegun
      · have hapos : a ≤ pos := Nat.le_trans ham hbegun
        by_cases hlt : pos < m.2
        · simp [hapos, hbegun, hlt]
        · simp only [hbegun, hlt, hapos, true_and, and_false, false_or]
          exact or_congr_left (by omega)
      · have hlt : pos < m.2 := by omega
        simp [hlate hlt, hbegun, hlt]

/-- The spans of the source are the fenced blocks. -/
theorem inAnySpan_fencedSpans {c : Nat} (hpos : t[pos]? = some c) (hc : c ≠ 10) :
    inAnySpan pos (fencedSpans t) = true ↔ InFence t pos := by
  have hlen := (List.getElem?_eq_some_iff.mp hpos).1
  have hle : ∀ m ∈ finditer t fenceLine, m.1 ≤ m.2 := by
    rintro ⟨i, j⟩ hm
    have hhead := ((mem_finditer_iff (fenceLine_alone t)).mp hm).2
    exact le_of_mem_ends (List.mem_of_mem_head? hhead)
  rw [fencedSpans,
    (inAnySpan_spansFrom hlen (finditer_sorted (fenceLine_alone t)) hle).1,
    exists_fence_iff hpos hc, countP_finditer (fenceLine_alone t) (Nat.le_of_lt hlen), InFence]
  simp only [matchAt_fenceLine_isSome]

end Fences

/-! ## Matches of the rules -/

section Matches

variable (w : CharTable) {t : Text}

/-- At `i` begins a match of a rule whose id is at `pos`. -/
def Matched (t : Text) (i pos : Nat) : Prop :=
  ∃ rule ∈ citationRules w, ∃ j, (rule.2.ends t i).head? = some j ∧ pos = idPos (i, j)

/-- Every match of the pattern ends with an id. -/
def EndsInId (r : Regex) : Prop :=
  ∀ (t : Text) (i j : Nat), j ∈ r.ends t i →
    i + 8 ≤ j ∧ reads t (List.replicate 8 hexDigits) (j - 8) = true

theorem endsInId_quotedId : EndsInId (Regex.chain [quotedId]) := by
  intro t i j hj
  simp only [Regex.chain, quotedId, hex8, List.foldr_cons, List.foldr_nil, mem_ends_seq,
    mem_ends_look, mem_ends_word, mem_ends_nothing] at hj
  obtain ⟨_, ⟨k, hk, _, ⟨-, rfl⟩, _, ⟨hread, rfl⟩, _, ⟨-, rfl⟩, rfl⟩, rfl⟩ := hj
  rw [List.length_replicate, Nat.add_sub_cancel]
  exact ⟨Nat.add_le_add_right (le_of_mem_ends hk) 8, hread⟩

theorem EndsInId.seq {a b : Regex} (hb : EndsInId b) : EndsInId (.seq a b) := by
  intro t i j hj
  obtain ⟨k, hk, hj⟩ := mem_ends_seq.mp hj
  obtain ⟨h8, hread⟩ := hb t k j hj
  exact ⟨Nat.le_trans (Nat.add_le_add_right (le_of_mem_ends hk) 8) h8, hread⟩

theorem endsInId_chain (rs : List Regex) : EndsInId (Regex.chain (rs ++ [quotedId])) := by
  induction rs with
  | nil => exact endsInId_quotedId
  | cons r rs ih => exact ih.seq

/-- What every rule is: a pattern behind a word boundary that is quiet about its own beginnings,
takes no quote mark of Markdown and ends with an id. -/
theorem rule_shape {rule : Text × Regex} (h : rule ∈ citationRules w) :
    ∃ body, rule.2 = .seq (Regex.boundary w) body ∧ body.selfQuiet knownWord = true
      ∧ body.avoids 62 = true ∧ EndsInId body := by
  simp only [citationRules, ruleBodies, List.map_cons, List.map_nil, List.mem_cons,
    List.not_mem_nil, or_false] at h
  obtain rfl | rfl | rfl | rfl := h
  · exact ⟨_, rfl, rfl, rfl, endsInId_chain [Regex.caseless "terminal",
      (Regex.caseless "s").optional, Regex.boundary w, .run isAddressMark 0 (some 3),
      (Regex.caseless "id").optional,
      .run isAddressMark 0 (some 3)]⟩
  · exact ⟨_, rfl, rfl, rfl, endsInId_chain [_, Regex.boundary w, .run isAssignMark 0 (some 3)]⟩
  · exact ⟨_, rfl, rfl, rfl, endsInId_chain [callbackWords, Regex.boundary w, .run isSpace 1 none,
      Regex.boundary w, Regex.caseless "to", Regex.boundary w, .run isSpace 1 none, _]⟩
  · exact ⟨_, rfl, rfl, rfl, endsInId_chain [Regex.caseless "seat", (Regex.caseless "s").optional,
      Regex.boundary w, .run isAssignMark 0 (some 3)]⟩

/-- No match of a rule begins inside another match of it. -/
theorem rule_alone {rule : Text × Regex} (h : rule ∈ citationRules w) : rule.2.Alone t := by
  obtain ⟨body, heq, hquiet, -, -⟩ := rule_shape w h
  rw [heq]
  exact alone_of_selfQuiet (fun c hc => w.isWord_of_known hc) hquiet

/-- Where an id is, a hexadecimal digit is, and the match ends within the text. -/
theorem get_idPos {rule : Text × Regex} (h : rule ∈ citationRules w) {i j : Nat}
    (hj : j ∈ rule.2.ends t i) :
    j ≤ t.length ∧ ∃ c ∈ hexDigits, t[idPos (i, j)]? = some c := by
  obtain ⟨body, heq, -, -, hid⟩ := rule_shape w h
  rw [heq] at hj
  obtain ⟨h8, hread⟩ := hid.seq t i j hj
  obtain ⟨c, hc, hget⟩ := reads_get hread (k := 0) (l := hexDigits) rfl
  obtain ⟨d, -, hlast⟩ := reads_get hread (k := 7) (l := hexDigits) rfl
  have hlt := (List.getElem?_eq_some_iff.mp hlast).1
  exact ⟨by omega, c, hc, hget⟩

/-- The scan comes by every match. -/
theorem mem_ruleMatches_iff {i pos : Nat} :
    (∃ c ∈ ruleMatches w t, c.2.1 = i ∧ idPos c.2 = pos) ↔ Matched w t i pos := by
  constructor
  · rintro ⟨⟨name, i', j⟩, hc, rfl, rfl⟩
    obtain ⟨rule, hrule, hc⟩ := List.mem_flatMap.mp hc
    obtain ⟨m, hm, heq⟩ := List.mem_map.mp hc
    cases heq
    exact ⟨rule, hrule, j, ((mem_finditer_iff (rule_alone w hrule)).mp hm).2, rfl⟩
  · rintro ⟨rule, hrule, j, hhead, rfl⟩
    have hj := List.mem_of_mem_head? hhead
    have hi : i ≤ t.length := Nat.le_trans (le_of_mem_ends hj) (get_idPos w hrule hj).1
    refine ⟨(rule.1, (i, j)), List.mem_flatMap.mpr ⟨rule, hrule, ?_⟩, rfl, rfl⟩
    exact List.mem_map.mpr
      ⟨(i, j), (mem_finditer_iff (rule_alone w hrule)).mpr ⟨hi, hhead⟩, rfl⟩

theorem Matched.get {i pos : Nat} (h : Matched w t i pos) :
    ∃ c ∈ hexDigits, t[pos]? = some c := by
  obtain ⟨rule, hrule, j, hhead, rfl⟩ := h
  exact (get_idPos w hrule (List.mem_of_mem_head? hhead)).2

theorem hexDigit_plain {c : Nat} (h : c ∈ hexDigits) : c ≠ 10 ∧ isBlank c = false := by
  have hall : ∀ c ∈ hexDigits, c ≠ 10 ∧ isBlank c = false := by decide
  exact hall c h

/-- A match begins in front of its id, and there is no `>` between the two. -/
theorem Matched.clear {i pos : Nat} (h : Matched w t i pos) :
    i ≤ pos ∧ ∀ k, i ≤ k → k ≤ pos → t[k]? ≠ some 62 := by
  obtain ⟨rule, hrule, j, hhead, rfl⟩ := h
  obtain ⟨body, heq, -, havoids, hid⟩ := rule_shape w hrule
  have hj := List.mem_of_mem_head? hhead
  rw [heq] at hj
  obtain ⟨hle, -⟩ := hid.seq t i j hj
  have hrule_avoids : (Regex.seq (Regex.boundary w) body).avoids 62 = true := havoids
  unfold idPos
  dsimp only
  refine ⟨by omega, fun k hik hk => get_ne_of_avoids hrule_avoids hj hik (by omega)⟩

/-- A match that begins outside a quote has its id outside a quote: there is no place for a `>`
between the two. -/
theorem Matched.isQuote_eq_false {i pos : Nat} (h : Matched w t i pos)
    (hquote : isQuote (lineAt t i) = false) : isQuote (lineAt t pos) = false := by
  obtain ⟨hip, hclear⟩ := h.clear
  have hstart := lineStart_lineOf t pos
  obtain ⟨a, ha⟩ : ∃ a, a = (lineStarts t).getD (lineOf t pos - 1) 0 := ⟨_, rfl⟩
  rw [← ha] at hstart
  rcases le_or_gt a i with hai | hia
  · have hstart' : LineStart t i a :=
      ⟨hai, hstart.edge, fun k hak hki => hstart.clear k hak (Nat.lt_of_lt_of_le hki hip)⟩
    rw [hstart.lineAt_eq, ← hstart'.lineAt_eq, hquote]
  · by_contra hq
    rw [Bool.not_eq_false, hstart.lineAt_eq, isQuote, beq_iff_eq,
      head_dropWhile_takeWhile _ (by decide)] at hq
    obtain ⟨rest, hrest⟩ := List.head?_eq_some_iff.mp hq
    have hsplit := List.takeWhile_append_dropWhile (p := isBlank) (l := t.drop a)
    have hmark : t[a + ((t.drop a).takeWhile isBlank).length]? = some 62 := by
      rw [← List.getElem?_drop, ← hsplit, hrest, List.takeWhile_append_of_pos
        fun c hc => List.mem_takeWhile_imp hc, List.takeWhile_cons_of_neg (by decide),
        List.append_nil, List.getElem?_append_right (Nat.le_refl _), Nat.sub_self]
      rfl
    refine hclear _ (Nat.le_trans (Nat.le_of_lt hia) (Nat.le_add_right _ _)) ?_ hmark
    by_contra hlt
    obtain ⟨c, hc, hget⟩ := h.get
    have hle := hstart.le
    have hrun : pos - a < runLength t isBlank none a := by
      rw [runLength_none]
      omega
    obtain ⟨d, hd, hblank⟩ := get_of_lt_runLength hrun
    rw [Nat.add_sub_cancel' hle, hget] at hd
    cases hd
    rw [(hexDigit_plain hc).2] at hblank
    cases hblank

end Matches

/-! ## The scan -/

section Scanning

variable {t source : Text}

/-- The key of a citation: two citations of one id on one line are one. -/
def Citation.key (c : Citation) : Text × Nat := (c.terminalId, c.line)

def keyOf (t : Text) (m : Nat × Nat) : Text × Nat := (idAt t (idPos m), lineNumber t m.1)

/-- The match is not passed over. -/
def Accepted (t : Text) (m : Nat × Nat) : Prop :=
  inPathToken t (idPos m) = false ∧ inAnySpan (idPos m) (fencedSpans t) = false
    ∧ isQuote (lineAt t m.1) = false

/-- What holds of the scan: what was seen are the keys of what was found, each once. -/
structure Scanned (source : Text) (s : Scan) : Prop where
  seen : ∀ key, key ∈ s.seen ↔ ∃ f ∈ s.found, f.2.key = key
  nodup : (s.found.map fun f => f.2.key).Nodup
  source : ∀ f ∈ s.found, f.2.source = source

/-- One match adds its own key, if it is not passed over. -/
theorem scanMatch_spec {s : Scan} (hs : Scanned source s) (c : Text × (Nat × Nat)) :
    Scanned source (scanMatch t source s c)
      ∧ ∀ key, key ∈ (scanMatch t source s c).seen
          ↔ key ∈ s.seen ∨ Accepted t c.2 ∧ key = keyOf t c.2 := by
  rw [scanMatch]
  dsimp only
  rw [isQuotedLine_lineOf, lineOf_eq]
  split_ifs with hexempt hquote hseen
  · rw [Bool.or_eq_true] at hexempt
    refine ⟨hs, fun key => ⟨.inl, ?_⟩⟩
    rintro (hkey | ⟨⟨hpath, hspan, -⟩, -⟩)
    · exact hkey
    · rw [hpath, hspan] at hexempt
      exact absurd hexempt (by decide)
  · refine ⟨hs, fun key => ⟨.inl, ?_⟩⟩
    rintro (hkey | ⟨⟨-, -, hline⟩, -⟩)
    · exact hkey
    · rw [hline] at hquote
      cases hquote
  · refine ⟨hs, fun key => ⟨.inl, ?_⟩⟩
    rintro (hkey | ⟨-, rfl⟩)
    · exact hkey
    · rw [List.contains_eq_mem, decide_eq_true_eq] at hseen
      exact hseen
  · rw [Bool.not_eq_true, Bool.or_eq_false_iff] at hexempt
    rw [Bool.not_eq_true] at hquote
    rw [List.contains_eq_mem, decide_eq_true_eq] at hseen
    refine ⟨⟨fun key => ?_, ?_, fun f hf => ?_⟩, fun key => ?_⟩
    · simp only [List.mem_cons, List.mem_append, List.not_mem_nil, or_false, or_and_right,
        exists_or, exists_eq_left, ← hs.seen]
      rw [or_comm]
      exact or_congr_right ⟨Eq.symm, Eq.symm⟩
    · rw [List.map_append, List.map_cons, List.map_nil]
      refine List.nodup_append.mpr ⟨hs.nodup, List.nodup_singleton _, ?_⟩
      rintro key hkey _ hnew rfl
      rw [List.mem_singleton] at hnew
      obtain ⟨f, hf, heq⟩ := List.mem_map.mp hkey
      exact hseen ((hs.seen _).mpr ⟨f, hf, heq.trans hnew⟩)
    · obtain hf | hf := List.mem_append.mp hf
      · exact hs.source f hf
      · rw [List.mem_singleton] at hf
        rw [hf]
    · rw [List.mem_cons, or_comm]
      refine or_congr_right ⟨fun h => ⟨⟨hexempt.1, hexempt.2, hquote⟩, h⟩, fun h => h.2⟩

theorem scanned_empty : Scanned source ⟨[], []⟩ :=
  ⟨fun key => by simp, List.nodup_nil, by simp⟩

theorem foldl_scanMatch_spec {s : Scan} (hs : Scanned source s)
    (cs : List (Text × (Nat × Nat))) :
    Scanned source (cs.foldl (scanMatch t source) s)
      ∧ ∀ key, key ∈ (cs.foldl (scanMatch t source) s).seen
          ↔ key ∈ s.seen ∨ ∃ c ∈ cs, Accepted t c.2 ∧ key = keyOf t c.2 := by
  induction cs generalizing s with
  | nil => exact ⟨hs, fun key => by simp⟩
  | cons c cs ih =>
    obtain ⟨hstep, hkeys⟩ := scanMatch_spec (t := t) hs c
    obtain ⟨hrun, hrest⟩ := ih hstep
    refine ⟨hrun, fun key => ?_⟩
    rw [List.foldl_cons, hrest, hkeys, or_assoc]
    simp only [List.mem_cons, exists_eq_or_imp]

end Scanning

section Guard

variable (w : CharTable) {t : Text}

/-- What is cited: a match that is not passed over, under the line on which it begins. -/
theorem mem_findCitations_iff {source : Text} {key : Text × Nat} :
    (∃ c ∈ findCitations w t source, c.key = key)
      ↔ ∃ i pos, Matched w t i pos ∧ inPathToken t pos = false ∧ ¬InFence t pos
          ∧ isQuote (lineAt t i) = false ∧ key = (idAt t pos, lineNumber t i) := by
  have hmatches : (∃ c ∈ ruleMatches w t, Accepted t c.2 ∧ key = keyOf t c.2)
      ↔ ∃ i pos, Matched w t i pos ∧ inPathToken t pos = false ∧ ¬InFence t pos
          ∧ isQuote (lineAt t i) = false ∧ key = (idAt t pos, lineNumber t i) := by
    constructor
    · rintro ⟨c, hc, ⟨hpath, hspan, hquote⟩, hkey⟩
      have hmatched := (mem_ruleMatches_iff w).mp ⟨c, hc, rfl, rfl⟩
      obtain ⟨d, hhex, hd⟩ := hmatched.get
      have hne := (hexDigit_plain hhex).1
      refine ⟨c.2.1, idPos c.2, hmatched, hpath, ?_, hquote, hkey⟩
      rw [← inAnySpan_fencedSpans hd hne, hspan]
      exact Bool.false_ne_true
    · rintro ⟨i, pos, hmatched, hpath, hfence, hquote, hkey⟩
      obtain ⟨d, hhex, hd⟩ := hmatched.get
      have hne := (hexDigit_plain hhex).1
      obtain ⟨c, hc, rfl, rfl⟩ := (mem_ruleMatches_iff w).mpr hmatched
      rw [← inAnySpan_fencedSpans hd hne, Bool.not_eq_true] at hfence
      exact ⟨c, hc, ⟨hpath, hfence, hquote⟩, hkey⟩
  rw [← hmatches, findCitations]
  split_ifs with hempty
  · constructor
    · rintro ⟨c, hc, -⟩
      cases hc
    · rintro ⟨c, hc, -⟩
      obtain ⟨d, -, hd⟩ := ((mem_ruleMatches_iff w).mp ⟨c, hc, rfl, rfl⟩).get
      rw [List.isEmpty_iff.mp hempty] at hd
      cases hd
  · obtain ⟨hrun, hkeys⟩ := foldl_scanMatch_spec (t := t) (@scanned_empty source)
      (ruleMatches w t)
    have hkey := hkeys key
    rw [hrun.seen] at hkey
    simp only [List.not_mem_nil, false_or] at hkey
    rw [← hkey]
    simp only [List.mem_map, List.mem_insertionSort, exists_exists_and_eq_and]

theorem source_of_mem_findCitations {source : Text} {c : Citation}
    (h : c ∈ findCitations w t source) : c.source = source := by
  rw [findCitations] at h
  split_ifs at h
  · cases h
  · obtain ⟨hrun, -⟩ := foldl_scanMatch_spec (t := t) (@scanned_empty source)
      (ruleMatches w t)
    obtain ⟨f, hf, rfl⟩ := List.mem_map.mp h
    exact hrun.source f ((List.mem_insertionSort _).mp hf)

/-- Neither the sender's own id nor that of a live terminal. -/
def Stale (own : Option Text) (live : Finset Text) (terminalId : Text) : Prop :=
  own ≠ some terminalId ∧ terminalId ∉ live

theorem classifyId_eq_stale_iff {own : Option Text} {live : Finset Text} {terminalId : Text}
    (hid : terminalId ≠ []) :
    classifyId terminalId own (some live) = .stale ↔ Stale own live terminalId := by
  unfold classifyId Stale
  cases own with
  | none => simp
  | some o =>
    by_cases ho : terminalId = o
    · subst ho
      simp [hid]
    · simp [ho, Ne.symm ho]

theorem idAt_ne_nil {pos c : Nat} (h : t[pos]? = some c) : idAt t pos ≠ [] := by
  have hlt := (List.getElem?_eq_some_iff.mp h).1
  rw [idAt, List.drop_eq_getElem_cons hlt, List.take_succ_cons]
  exact List.cons_ne_nil _ _

/-- Two names of the same text name the same. -/
theorem cite_inj {source a b : Text} {m n : Nat} :
    cite source m a = cite source n b ↔ m = n ∧ a = b := by
  constructor
  · intro h
    have hblank : ∀ n, 32 ∉ digits n := fun n hmem => by
      have := mem_digits hmem
      omega
    have hcites : ∀ n a, cite source n a
        = source ++ (text ":" ++ (digits n ++ 32 :: (text "cites " ++ a))) := by
      intro n a
      have htext : text " cites " = 32 :: text "cites " := rfl
      rw [cite, htext]
      simp only [List.append_assoc, List.cons_append]
    rw [hcites, hcites] at h
    obtain ⟨hdigits, hrest⟩ := append_stop_inj (hblank m) (hblank n)
      (List.append_cancel_left (List.append_cancel_left h))
    exact ⟨digits_injective hdigits, List.append_cancel_left hrest⟩
  · rintro ⟨rfl, rfl⟩
    rfl

variable (own : Option Text) (live : Finset Text)

/-- A match that begins at `i` puts a stale id at `pos`, in no fenced block and in no path. -/
structure Citing (t : Text) (i pos : Nat) : Prop where
  matched : Matched w t i pos
  stale : Stale own live (idAt t pos)
  unfenced : ¬InFence t pos
  noPath : inPathToken t pos = false

/-- A stale address: its own line is no quote. -/
def Address (t : Text) (pos : Nat) : Prop :=
  (∃ i, Citing w own live t i pos) ∧ isQuote (lineAt t pos) = false

/-- What is named: the line is that on which the match begins. -/
theorem mem_cited_iff {line : Nat} {terminalId : Text} :
    cite (text "message") line terminalId ∈ cited (staleIn w t own (some live))
      ↔ ∃ i pos, Citing w own live t i pos ∧ isQuote (lineAt t i) = false
          ∧ terminalId = idAt t pos ∧ line = lineNumber t i := by
  have hfound : cite (text "message") line terminalId ∈ cited (staleIn w t own (some live))
      ↔ (∃ c ∈ findCitations w t (text "message"), c.key = (terminalId, line))
          ∧ classifyId terminalId own (some live) = .stale := by
    simp only [cited, staleIn, staleFindings, verdicts, List.mem_map, List.mem_filter, beq_iff_eq]
    constructor
    · rintro ⟨f, ⟨⟨c, hc, rfl⟩, hstale⟩, heq⟩
      dsimp only at hstale heq
      rw [source_of_mem_findCitations w hc] at heq
      obtain ⟨rfl, rfl⟩ := cite_inj.mp heq
      exact ⟨⟨c, hc, rfl⟩, hstale⟩
    · rintro ⟨⟨c, hc, hkey⟩, hstale⟩
      cases hkey
      exact ⟨_, ⟨⟨c, hc, rfl⟩, hstale⟩, by rw [source_of_mem_findCitations w hc]⟩
  rw [hfound, mem_findCitations_iff]
  constructor
  · rintro ⟨⟨i, pos, hmatched, hpath, hfence, hquote, hkey⟩, hstale⟩
    cases hkey
    obtain ⟨d, -, hd⟩ := hmatched.get
    rw [classifyId_eq_stale_iff (idAt_ne_nil hd)] at hstale
    exact ⟨i, pos, ⟨hmatched, hstale, hfence, hpath⟩, hquote, rfl, rfl⟩
  · rintro ⟨i, pos, hciting, hquote, rfl, rfl⟩
    obtain ⟨d, -, hd⟩ := hciting.matched.get
    refine ⟨⟨i, pos, hciting.matched, hciting.noPath, hciting.unfenced, hquote, rfl⟩, ?_⟩
    exact (classifyId_eq_stale_iff (idAt_ne_nil hd)).mpr hciting.stale

/-- The guard refuses as soon as a match of a stale id begins on a line that is no quote. -/
theorem guard_isSome_iff {action : Text} :
    (guard w t own (some live) action).isSome = true
      ↔ ∃ i pos, Citing w own live t i pos ∧ isQuote (lineAt t i) = false := by
  have hsome : (guard w t own (some live) action).isSome = true
      ↔ ∃ f, f ∈ staleIn w t own (some live) := by
    rw [guard, ← List.isEmpty_eq_false_iff_exists_mem]
    cases (staleIn w t own (some live)).isEmpty <;> simp
  rw [hsome]
  constructor
  · rintro ⟨f, hf⟩
    have hsource : f.citation.source = text "message" := by
      obtain ⟨c, hc, rfl⟩ := List.mem_map.mp (List.mem_filter.mp hf).1
      exact source_of_mem_findCitations w hc
    have hcited : cite (text "message") f.citation.line f.citation.terminalId
        ∈ cited (staleIn w t own (some live)) :=
      List.mem_map.mpr ⟨f, hf, by rw [hsource]⟩
    obtain ⟨i, pos, hciting, hquote, -, -⟩ := (mem_cited_iff w own live).mp hcited
    exact ⟨i, pos, hciting, hquote⟩
  · rintro ⟨i, pos, hciting, hquote⟩
    have hcited := (mem_cited_iff w own live).mpr ⟨i, pos, hciting, hquote, rfl, rfl⟩
    obtain ⟨f, hf, -⟩ := List.mem_map.mp hcited
    exact ⟨f, hf⟩

/-- The guard refuses exactly the stale addresses: it refuses if there is one, and the refusal names
each of them with its line. -/
def GuardExact (t action : Text) : Prop :=
  ((guard w t own (some live) action).isSome = true ↔ ∃ pos, Address w own live t pos)
    ∧ ∀ pos, Address w own live t pos →
        cite (text "message") (lineNumber t pos) (idAt t pos)
          ∈ cited (staleIn w t own (some live))

/-- The guard is exact for a message if and only if a match of the same id begins on the line of
each stale address. -/
theorem guard_exact_iff (t action : Text) :
    GuardExact w own live t action
      ↔ ∀ pos, Address w own live t pos → ∃ i pos', Citing w own live t i pos'
          ∧ idAt t pos' = idAt t pos ∧ lineNumber t i = lineNumber t pos := by
  constructor
  · rintro ⟨-, hnamed⟩ pos hpos
    obtain ⟨i, pos', hciting, -, hid, hline⟩ := (mem_cited_iff w own live).mp (hnamed pos hpos)
    exact ⟨i, pos', hciting, hid.symm, hline.symm⟩
  · intro hbegun
    have hnamed : ∀ pos, Address w own live t pos → ∃ i pos', Citing w own live t i pos'
        ∧ isQuote (lineAt t i) = false ∧ idAt t pos = idAt t pos'
        ∧ lineNumber t pos = lineNumber t i := by
      intro pos hpos
      obtain ⟨i, pos', hciting, hid, hline⟩ := hbegun pos hpos
      refine ⟨i, pos', hciting, ?_, hid.symm, hline.symm⟩
      rw [lineAt_eq_of_lineNumber hline]
      exact hpos.2
    refine ⟨⟨fun hrefused => ?_, ?_⟩,
      fun pos hpos => (mem_cited_iff w own live).mpr (hnamed pos hpos)⟩
    · obtain ⟨i, pos, hciting, hquote⟩ := (guard_isSome_iff w own live).mp hrefused
      exact ⟨pos, ⟨i, hciting⟩, hciting.matched.isQuote_eq_false w hquote⟩
    · rintro ⟨pos, hpos⟩
      obtain ⟨i, pos', hciting, hquote, -, -⟩ := hnamed pos hpos
      exact (guard_isSome_iff w own live).mpr ⟨i, pos', hciting, hquote⟩

/-- The keyword stands on a quote line and the id on the next line, which is none: nothing is
refused. -/
theorem keyword_on_quote_line :
    ¬GuardExact plainTable none ∅ (text "> reply to\ndeadbeef") (text "message") := by
  rintro ⟨hrefused, -⟩
  have haddress : Address plainTable none ∅ (text "> reply to\ndeadbeef") 11 := by
    refine ⟨⟨2, ⟨(text "callback", .seq (Regex.boundary plainTable) (callbackBody plainTable)), ?_,
      19, ?_, rfl⟩, ⟨?_, ?_⟩, ?_, ?_⟩, ?_⟩
    · exact List.mem_cons_of_mem _ (List.mem_cons_of_mem _ List.mem_cons_self)
    · decide +kernel
    · exact (Option.some_ne_none _).symm
    · exact Finset.notMem_empty _
    · decide +kernel
    · decide +kernel
    · decide +kernel
  have hnone : guard plainTable (text "> reply to\ndeadbeef") none (some ∅) (text "message")
      = none := by decide +kernel
  have hsome := hrefused.mpr ⟨11, haddress⟩
  rw [hnone] at hsome
  cases hsome

end Guard

end CliAgentOrchestrator.Terminal
