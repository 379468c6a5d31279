import CliAgentOrchestrator.Library.Pattern

/-!
# Patterns with backtracking

A pattern takes words, runs of characters and choices, and looks at the two sides of a place without
taking anything. Where a match may end is a list, the first choice of the backtracking search at its
head. `finditer` goes from left to right and leaves out what begins inside the match before.

A pattern that begins with a word at a word boundary is often unable to begin again inside one of
its own matches: a check of the pattern alone decides that (`quiet`), and then `finditer` finds
every place at which it matches (`mem_finditer_iff`).
-/

set_option autoImplicit false

namespace Library

/-- A letter of a pattern: the characters it stands for. -/
abbrev Letter := List Nat

/-- A pattern. -/
inductive Regex where
  | nothing
  | word (letters : List Letter)
  /-- `[..]{least,most}`, greedy -/
  | run (p : Nat → Bool) (least : Nat) (most : Option Nat)
  /-- `[..]{least,most}?`, which prefers to take less -/
  | few (p : Nat → Bool) (least : Nat) (most : Option Nat)
  /-- an assertion about the character in front of a place and the text behind it -/
  | look (p : Option Nat → Text → Bool)
  | seq (a b : Regex)
  | alt (a b : Regex)

/-! ## Matching -/

/-- The word stands at this place. -/
def reads (t : Text) : List Letter → Nat → Bool
  | [], _ => true
  | l :: ls, i => t[i]?.any (l.contains ·) && reads t ls (i + 1)

/-- The character in front of a place. -/
def before (t : Text) : Nat → Option Nat
  | 0 => none
  | i + 1 => t[i]?

/-- How many characters a run can take from this place on. -/
def runLength (t : Text) (p : Nat → Bool) (most : Option Nat) (i : Nat) : Nat :=
  let n := ((t.drop i).takeWhile p).length
  most.elim n (min n)

/-- How far a run may go, in rising order. -/
def runEnds (t : Text) (p : Nat → Bool) (least : Nat) (most : Option Nat) (i : Nat) : List Nat :=
  ((List.range (runLength t p most i + 1)).filter (least ≤ ·)).map (i + ·)

/-- Where a match that begins at this place may end, the preferred end first. -/
def Regex.ends (t : Text) : Regex → Nat → List Nat
  | .nothing, i => [i]
  | .word letters, i => if reads t letters i then [i + letters.length] else []
  | .run p least most, i => (runEnds t p least most i).reverse
  | .few p least most, i => runEnds t p least most i
  | .look p, i => if p (before t i) (t.drop i) then [i] else []
  | .seq a b, i => (a.ends t i).flatMap (b.ends t)
  | .alt a b, i => a.ends t i ++ b.ends t i

/-- `r?` -/
def Regex.optional (r : Regex) : Regex := .alt r .nothing

/-- `a|b|c`, of words. -/
def Regex.anyWord : List (List Letter) → Regex
  | [] => .look fun _ _ => false
  | [w] => .word w
  | w :: ws => .alt (.word w) (anyWord ws)

/-- `\b`, for what counts as a word character. -/
def wordBoundary (isWord : Nat → Bool) (a : Option Nat) (rest : Text) : Bool :=
  a.any isWord != rest.head?.any isWord

/-- The characters that a letter stands for where case is ignored: `i`, `k` and `s` have letters
outside ASCII on their side. -/
def casings (c : Nat) : Letter :=
  let l := if 65 ≤ c ∧ c ≤ 90 then c + 32 else c
  if 97 ≤ l ∧ l ≤ 122 then
    l :: (l - 32) :: (if l = 105 then [0x130, 0x131] else if l = 107 then [0x212A]
      else if l = 115 then [0x17F] else [])
  else [l]

/-- `(?i:..)` of a word. -/
def caselessLetters (w : Text) : List Letter := w.map casings

/-- A word as it stands. -/
def exactLetters (w : Text) : List Letter := w.map fun c => [c]

/-! ## Parts of patterns -/

/-- Letters and digits that every table of `str.isalnum` has: those of ASCII, and the letters that a
caseless word stands for beside them. -/
def knownAlnum (c : Nat) : Bool :=
  isAsciiLetter c || isDigit c || [0x130, 0x131, 0x17F, 0x212A].contains c

/-- `str.isalnum` of one character: the Unicode tables are the interpreter's. -/
structure CharTable where
  isAlnum : Nat → Bool
  alnum_of_known : ∀ c, knownAlnum c = true → isAlnum c = true

/-- `\w` -/
def CharTable.isWord (w : CharTable) (c : Nat) : Bool := w.isAlnum c || c == 95

def knownWord (c : Nat) : Bool := knownAlnum c || c == 95

/-- The table that has nothing else. -/
def plainTable : CharTable := ⟨knownAlnum, fun _ h => h⟩

theorem CharTable.isWord_of_known (w : CharTable) {c : Nat} (h : knownWord c = true) :
    w.isWord c = true := by
  rw [knownWord, Bool.or_eq_true] at h
  rw [CharTable.isWord, Bool.or_eq_true]
  exact h.imp_left (w.alnum_of_known c)

/-- `\b` -/
def Regex.boundary (w : CharTable) : Regex := .look (wordBoundary w.isWord)

/-- One pattern after the other. -/
def Regex.chain (rs : List Regex) : Regex := rs.foldr .seq .nothing

/-- `(?i:..)` of a word. -/
def Regex.caseless (s : String) : Regex := .word (caselessLetters (text s))

variable {t : Text}

theorem mem_ends_word {letters : List Letter} {i j : Nat} :
    j ∈ (Regex.word letters).ends t i ↔ reads t letters i = true ∧ j = i + letters.length := by
  rw [Regex.ends]
  split_ifs with h
  · rw [List.mem_singleton]
    exact ⟨fun hj => ⟨h, hj⟩, fun hj => hj.2⟩
  · exact ⟨fun hj => absurd hj List.not_mem_nil, fun hj => absurd hj.1 h⟩

theorem mem_ends_look {p : Option Nat → Text → Bool} {i j : Nat} :
    j ∈ (Regex.look p).ends t i ↔ p (before t i) (t.drop i) = true ∧ j = i := by
  rw [Regex.ends]
  split_ifs with h
  · rw [List.mem_singleton]
    exact ⟨fun hj => ⟨h, hj⟩, fun hj => hj.2⟩
  · exact ⟨fun hj => absurd hj List.not_mem_nil, fun hj => absurd hj.1 h⟩

theorem mem_ends_nothing {i j : Nat} : j ∈ Regex.nothing.ends t i ↔ j = i := by
  rw [Regex.ends, List.mem_singleton]

theorem mem_ends_seq {a b : Regex} {i j : Nat} :
    j ∈ (Regex.seq a b).ends t i ↔ ∃ k ∈ a.ends t i, j ∈ b.ends t k := by
  rw [Regex.ends, List.mem_flatMap]

theorem mem_ends_alt {a b : Regex} {i j : Nat} :
    j ∈ (Regex.alt a b).ends t i ↔ j ∈ a.ends t i ∨ j ∈ b.ends t i := by
  rw [Regex.ends, List.mem_append]

theorem mem_runEnds {p : Nat → Bool} {least : Nat} {most : Option Nat} {i j : Nat} :
    j ∈ runEnds t p least most i ↔ ∃ n, least ≤ n ∧ n ≤ runLength t p most i ∧ j = i + n := by
  rw [runEnds, List.mem_map]
  constructor
  · rintro ⟨n, hn, rfl⟩
    rw [List.mem_filter, List.mem_range, decide_eq_true_eq] at hn
    exact ⟨n, hn.2, by omega, rfl⟩
  · rintro ⟨n, hleast, hmost, rfl⟩
    refine ⟨n, ?_, rfl⟩
    rw [List.mem_filter, List.mem_range, decide_eq_true_eq]
    exact ⟨by omega, hleast⟩

theorem mem_ends_run {p : Nat → Bool} {least : Nat} {most : Option Nat} {i j : Nat} :
    j ∈ (Regex.run p least most).ends t i
      ↔ ∃ n, least ≤ n ∧ n ≤ runLength t p most i ∧ j = i + n := by
  rw [Regex.ends, List.mem_reverse, mem_runEnds]

theorem mem_ends_few {p : Nat → Bool} {least : Nat} {most : Option Nat} {i j : Nat} :
    j ∈ (Regex.few p least most).ends t i
      ↔ ∃ n, least ≤ n ∧ n ≤ runLength t p most i ∧ j = i + n := by
  rw [Regex.ends, mem_runEnds]

/-- A run that has no upper bound. -/
theorem runLength_none (t : Text) (p : Nat → Bool) (i : Nat) :
    runLength t p none i = ((t.drop i).takeWhile p).length := rfl

theorem reads_get {letters : List Letter} {i k : Nat} {l : Letter} (h : reads t letters i = true)
    (hk : letters[k]? = some l) : ∃ c ∈ l, t[i + k]? = some c := by
  induction letters generalizing i k with
  | nil => simp at hk
  | cons l' ls ih =>
    rw [reads, Bool.and_eq_true, Option.any_eq_true] at h
    obtain ⟨⟨c, hc, hmem⟩, hrest⟩ := h
    cases k with
    | zero =>
      obtain rfl : l' = l := by simpa using hk
      exact ⟨c, by simpa using hmem, hc⟩
    | succ k =>
      obtain ⟨d, hd, hget⟩ := ih hrest (by simpa using hk)
      exact ⟨d, hd, by rw [← hget, Nat.add_comm k 1, Nat.add_assoc]⟩

theorem reads_head {letters : List Letter} {q : Letter → Bool} {i : Nat}
    (hq : letters.head?.any q = true) (h : reads t letters i = true) :
    ∃ l c, q l = true ∧ c ∈ l ∧ t[i]? = some c := by
  cases letters with
  | nil => cases hq
  | cons l ls =>
    obtain ⟨c, hc, hget⟩ := reads_get h (List.getElem?_cons_zero (a := l))
    exact ⟨l, c, hq, hc, hget⟩

/-- A word as it stands is read where the text goes on with it. -/
theorem reads_exactLetters_iff {w : Text} {i : Nat} :
    reads t (exactLetters w) i = true ↔ w <+: t.drop i := by
  induction w generalizing i with
  | nil => exact ⟨fun _ => List.nil_prefix, fun _ => rfl⟩
  | cons c w ih =>
    have hstep : reads t (exactLetters (c :: w)) i
        = (t[i]?.any ([c].contains ·) && reads t (exactLetters w) (i + 1)) := rfl
    rw [hstep, Bool.and_eq_true, ih, Option.any_eq_true]
    constructor
    · rintro ⟨⟨d, hd, hcd⟩, hrest⟩
      obtain rfl : d = c := by simpa using hcd
      obtain ⟨hlt, rfl⟩ := List.getElem?_eq_some_iff.mp hd
      rw [List.drop_eq_getElem_cons hlt]
      exact List.cons_prefix_cons.mpr ⟨rfl, hrest⟩
    · intro h
      have hlt : i < t.length := by
        by_contra hge
        rw [List.drop_eq_nil_of_le (Nat.not_lt.mp hge)] at h
        exact absurd (List.prefix_nil.mp h) (List.cons_ne_nil _ _)
      rw [List.drop_eq_getElem_cons hlt] at h
      obtain ⟨rfl, hrest⟩ := List.cons_prefix_cons.mp h
      exact ⟨⟨t[i], List.getElem?_eq_getElem hlt, by simp⟩, hrest⟩

theorem runLength_le (t : Text) (p : Nat → Bool) (most : Option Nat) (i : Nat) :
    runLength t p most i ≤ ((t.drop i).takeWhile p).length := by
  unfold runLength
  cases most with
  | none => exact Nat.le_refl _
  | some m => exact Nat.min_le_left _ _

/-- What a run takes. -/
theorem get_of_lt_runLength {p : Nat → Bool} {most : Option Nat} {i k : Nat}
    (h : k < runLength t p most i) : ∃ c, t[i + k]? = some c ∧ p c = true := by
  have hlt := Nat.lt_of_lt_of_le h (runLength_le t p most i)
  refine ⟨((t.drop i).takeWhile p)[k], ?_, List.mem_takeWhile_imp (List.getElem_mem hlt)⟩
  have hget : (t.drop i)[k]? = some ((t.drop i).takeWhile p)[k] :=
    List.prefix_iff_getElem?.mp (List.takeWhile_prefix p) k hlt
  rw [← List.getElem?_drop, hget]

theorem get_of_mem_runEnds {p : Nat → Bool} {least : Nat} {most : Option Nat} {i j k : Nat}
    (hj : j ∈ runEnds t p least most i) (hik : i ≤ k) (hkj : k < j) :
    ∃ c, t[k]? = some c ∧ p c = true := by
  obtain ⟨n, -, hn, rfl⟩ := mem_runEnds.mp hj
  have hget := get_of_lt_runLength (k := k - i) (Nat.lt_of_lt_of_le (by omega) hn)
  rwa [Nat.add_sub_cancel' hik] at hget

/-- A run that ends where its characters end takes all of them. -/
theorem eq_length_takeWhile_iff {p : Nat → Bool} {l : Text} {m : Nat} :
    m = (l.takeWhile p).length ↔ m ≤ (l.takeWhile p).length ∧ ∀ c ∈ l[m]?, p c = false := by
  induction l generalizing m with
  | nil => simp
  | cons c l ih =>
    rw [List.takeWhile_cons]
    split_ifs with hc
    · cases m with
      | zero => simp [hc]
      | succ m =>
        rw [List.length_cons, Nat.succ_inj, ih, List.getElem?_cons_succ, Nat.succ_le_succ_iff]
    · rw [Bool.not_eq_true] at hc
      cases m with
      | zero => simp [hc]
      | succ m => simp

theorem le_of_mem_ends {r : Regex} {i j : Nat} (h : j ∈ r.ends t i) : i ≤ j := by
  induction r generalizing i j with
  | nothing => rw [Regex.ends, List.mem_singleton] at h; exact Nat.le_of_eq h.symm
  | word letters => rw [(mem_ends_word.mp h).2]; exact Nat.le_add_right _ _
  | run p least most =>
    obtain ⟨n, -, -, rfl⟩ := mem_ends_run.mp h
    exact Nat.le_add_right _ _
  | few p least most =>
    obtain ⟨n, -, -, rfl⟩ := mem_ends_few.mp h
    exact Nat.le_add_right _ _
  | look p => exact Nat.le_of_eq (mem_ends_look.mp h).2.symm
  | seq a b iha ihb =>
    obtain ⟨k, hk, hj⟩ := mem_ends_seq.mp h
    exact Nat.le_trans (iha hk) (ihb hj)
  | alt a b iha ihb => exact (mem_ends_alt.mp h).elim iha ihb

/-- A match takes none of these characters. -/
def Regex.avoids (c : Nat) : Regex → Bool
  | .nothing => true
  | .word letters => letters.all fun l => !l.contains c
  | .run p _ _ => !p c
  | .few p _ _ => !p c
  | .look _ => true
  | .seq a b => a.avoids c && b.avoids c
  | .alt a b => a.avoids c && b.avoids c

theorem get_ne_of_avoids {c : Nat} {r : Regex} (hr : r.avoids c = true) {i j k : Nat}
    (hj : j ∈ r.ends t i) (hik : i ≤ k) (hkj : k < j) : t[k]? ≠ some c := by
  induction r generalizing i j with
  | nothing => rw [mem_ends_nothing.mp hj] at hkj; exact absurd hkj (Nat.not_lt.mpr hik)
  | look p => rw [(mem_ends_look.mp hj).2] at hkj; exact absurd hkj (Nat.not_lt.mpr hik)
  | word letters =>
    obtain ⟨hread, rfl⟩ := mem_ends_word.mp hj
    have hlen : k - i < letters.length := by omega
    obtain ⟨d, hd, hget⟩ := reads_get hread (List.getElem?_eq_getElem hlen)
    have hfree := List.all_eq_true.mp hr _ (List.getElem_mem hlen)
    rw [Nat.add_sub_cancel' hik] at hget
    rw [hget]
    rintro ⟨⟩
    rw [Bool.not_eq_true', List.contains_eq_mem, decide_eq_false_iff_not] at hfree
    exact hfree hd
  | run p least most =>
    obtain ⟨d, hd, hp⟩ := get_of_mem_runEnds (List.mem_reverse.mp hj) hik hkj
    rw [hd]
    rintro ⟨⟩
    rw [Regex.avoids, hp] at hr
    cases hr
  | few p least most =>
    obtain ⟨d, hd, hp⟩ := get_of_mem_runEnds hj hik hkj
    rw [hd]
    rintro ⟨⟩
    rw [Regex.avoids, hp] at hr
    cases hr
  | seq a b iha ihb =>
    obtain ⟨m, hm, hj⟩ := mem_ends_seq.mp hj
    rw [Regex.avoids, Bool.and_eq_true] at hr
    obtain hkm | hmk := Nat.lt_or_ge k m
    · exact iha hr.1 hm hik hkm
    · exact ihb hr.2 hj hmk hkj
  | alt a b iha ihb =>
    rw [Regex.avoids, Bool.and_eq_true] at hr
    obtain ha | hb := mem_ends_alt.mp hj
    · exact iha hr.1 ha hik hkj
    · exact ihb hr.2 hb hik hkj

/-! ## Every match, from left to right -/

/-- The matches that begin at one of these places, and not before the end of the last one. -/
def finditerFrom (t : Text) (r : Regex) : List Nat → Nat → List (Nat × Nat)
  | [], _ => []
  | i :: places, resume =>
    if i < resume then finditerFrom t r places resume
    else
      match (r.ends t i).head? with
      | none => finditerFrom t r places resume
      | some j => (i, j) :: finditerFrom t r places j

/-- `re.finditer`, for a pattern that always takes something. -/
def finditer (t : Text) (r : Regex) : List (Nat × Nat) :=
  finditerFrom t r (List.range (t.length + 1)) 0

/-- No match begins inside another one. -/
def Regex.Alone (r : Regex) (t : Text) : Prop :=
  ∀ i j k, j ∈ r.ends t i → i < k → k < j → r.ends t k = []

/-- The match that begins at a place. -/
def matchAt (t : Text) (r : Regex) (i : Nat) : Option (Nat × Nat) :=
  (r.ends t i).head?.map fun j => (i, j)

theorem finditerFrom_eq {r : Regex} (hr : r.Alone t) {places : List Nat} {resume : Nat}
    (hplaces : places.Pairwise (· < ·))
    (hfree : ∀ k ∈ places, k < resume → r.ends t k = []) :
    finditerFrom t r places resume = places.filterMap (matchAt t r) := by
  induction places generalizing resume with
  | nil => rfl
  | cons i places ih =>
    obtain ⟨hi, hplaces⟩ := List.pairwise_cons.mp hplaces
    have hrest : ∀ k ∈ places, k < resume → r.ends t k = [] :=
      fun k hk => hfree k (List.mem_cons_of_mem _ hk)
    rw [finditerFrom, List.filterMap_cons, matchAt]
    split_ifs with hresume
    · rw [hfree i List.mem_cons_self hresume, ih hplaces hrest]
      rfl
    · cases hends : (r.ends t i).head? with
      | none =>
        rw [ih hplaces hrest]
        rfl
      | some j =>
        have hj : j ∈ r.ends t i := List.mem_of_mem_head? hends
        have hnext := ih hplaces fun k hk hkj => hr i j k hj (hi k hk) hkj
        exact congrArg ((i, j) :: ·) hnext

/-- A pattern whose matches stand alone is found wherever it matches. -/
theorem finditer_eq {r : Regex} (hr : r.Alone t) :
    finditer t r = (List.range (t.length + 1)).filterMap (matchAt t r) :=
  finditerFrom_eq hr List.pairwise_lt_range fun _ _ h => absurd h (Nat.not_lt_zero _)

theorem matchAt_eq_some_iff {r : Regex} {i : Nat} {m : Nat × Nat} :
    matchAt t r i = some m ↔ m.1 = i ∧ (r.ends t i).head? = some m.2 := by
  obtain ⟨k, j⟩ := m
  unfold matchAt
  rw [Option.map_eq_some_iff]
  constructor
  · rintro ⟨j', hj', heq⟩
    cases heq
    exact ⟨rfl, hj'⟩
  · rintro ⟨rfl, hj⟩
    exact ⟨j, hj, rfl⟩

theorem mem_finditer_iff {r : Regex} (hr : r.Alone t) {i j : Nat} :
    (i, j) ∈ finditer t r ↔ i ≤ t.length ∧ (r.ends t i).head? = some j := by
  rw [finditer_eq hr, List.mem_filterMap]
  constructor
  · rintro ⟨k, hk, hmatch⟩
    obtain ⟨rfl, hhead⟩ := matchAt_eq_some_iff.mp hmatch
    exact ⟨Nat.le_of_lt_succ (List.mem_range.mp hk), hhead⟩
  · rintro ⟨hi, hhead⟩
    exact ⟨i, List.mem_range.mpr (Nat.lt_succ_of_le hi), matchAt_eq_some_iff.mpr ⟨rfl, hhead⟩⟩

/-- One match ends before the next one begins. -/
theorem finditer_sorted {r : Regex} (hr : r.Alone t) :
    (finditer t r).Pairwise fun m m' => m.2 ≤ m'.1 := by
  rw [finditer_eq hr, List.pairwise_filterMap]
  refine List.Pairwise.imp (fun {i i'} hlt => ?_) List.pairwise_lt_range
  intro m hm m' hm'
  obtain ⟨rfl, hhead⟩ := matchAt_eq_some_iff.mp hm
  obtain ⟨rfl, hhead'⟩ := matchAt_eq_some_iff.mp hm'
  by_contra hgt
  have hnil := hr _ _ _ (List.mem_of_mem_head? hhead) hlt (Nat.not_le.mp hgt)
  rw [hnil] at hhead'
  cases hhead'

/-- How many matches begin at a place or in front of it. -/
theorem countP_finditer {r : Regex} (hr : r.Alone t) {pos : Nat} (hpos : pos ≤ t.length) :
    (finditer t r).countP (·.1 ≤ pos)
      = (List.range (pos + 1)).countP fun i => (matchAt t r i).isSome := by
  have hsplit : List.range (t.length + 1)
      = List.range (pos + 1) ++ (List.range (t.length - pos)).map (pos + 1 + ·) := by
    rw [← List.range_add]
    congr 1
    omega
  rw [finditer_eq hr, List.countP_filterMap, hsplit, List.countP_append]
  have hback : ((List.range (t.length - pos)).map (pos + 1 + ·)).countP
      (fun i => ((matchAt t r i).map fun m => decide (m.1 ≤ pos)).getD false) = 0 := by
    rw [List.countP_eq_zero]
    intro i hi
    obtain ⟨k, -, rfl⟩ := List.mem_map.mp hi
    cases hmatch : matchAt t r (pos + 1 + k) with
    | none => exact Bool.false_ne_true
    | some m =>
      have hm := (matchAt_eq_some_iff.mp hmatch).1
      rw [Option.map_some, Option.getD_some, decide_eq_true_eq]
      omega
  rw [hback, Nat.add_zero]
  refine List.countP_congr fun i hi => ?_
  have hle := Nat.le_of_lt_succ (List.mem_range.mp hi)
  cases hmatch : matchAt t r i with
  | none => rfl
  | some m =>
    have hm := (matchAt_eq_some_iff.mp hmatch).1
    rw [Option.map_some, Option.getD_some, decide_eq_true_eq, Option.isSome_some]
    exact ⟨fun _ => rfl, fun _ => hm ▸ hle⟩

/-! ## Patterns whose matches stand alone -/

/-- The words at which a match can begin; an empty one where it can begin with something else. -/
def Regex.firsts : Regex → List (List Letter)
  | .word letters => [letters]
  | .seq a _ => a.firsts
  | .alt a b => a.firsts ++ b.firsts
  | _ => [[]]

theorem reads_firsts {r : Regex} {i j : Nat} (h : j ∈ r.ends t i) :
    ∃ w ∈ r.firsts, reads t w i = true := by
  induction r generalizing i j with
  | word letters => exact ⟨letters, List.mem_singleton_self _, (mem_ends_word.mp h).1⟩
  | seq a b iha _ =>
    obtain ⟨k, hk, -⟩ := mem_ends_seq.mp h
    exact iha hk
  | alt a b iha ihb =>
    obtain ha | hb := mem_ends_alt.mp h
    · obtain ⟨w, hw, hread⟩ := iha ha
      exact ⟨w, List.mem_append_left _ hw, hread⟩
    · obtain ⟨w, hw, hread⟩ := ihb hb
      exact ⟨w, List.mem_append_right _ hw, hread⟩
  | _ => exact ⟨[], List.mem_singleton_self _, rfl⟩

/-- What stands in front of a place within a match: the place is where the match begins, or a word
character stands there, or anything. -/
inductive Behind where
  | start
  | word
  | other
deriving DecidableEq

/-- What stands in front of the end of a match. -/
def Regex.behind : Regex → Behind → Behind
  | .nothing, b => b
  | .word [], b => b
  | .word (_ :: _), _ => .word
  | .run _ _ _, _ => .other
  | .few _ _ _, _ => .other
  | .look _, b => b
  | .seq a c, b => c.behind (a.behind b)
  | .alt a c, b => if a.behind b = c.behind b then a.behind b else .other

/-- Two words that cannot stand at one place: their letters at some index differ. -/
def clash (v w : List Letter) : Bool := (v.zip w).any fun (a, b) => a.all fun c => !b.contains c

/-- No place within a match, but the one at which the match begins, is the start of one of the
words at a word boundary. -/
def Regex.quiet (heads : List (List Letter)) (known : Nat → Bool) : Regex → Behind → Bool
  | .nothing, _ => true
  | .word letters, b =>
    letters.all (·.all known) && (b != .other || heads.all (clash letters))
  | .run p _ _, _ => heads.all fun w => w.head?.any fun l => l.all fun c => !p c
  | .few p _ _, _ => heads.all fun w => w.head?.any fun l => l.all fun c => !p c
  | .look _, _ => true
  | .seq a c, b => a.quiet heads known b && c.quiet heads known (a.behind b)
  | .alt a c, b => a.quiet heads known b && c.quiet heads known b

/-- The pattern begins with words, and is quiet about them. -/
def Regex.selfQuiet (known : Nat → Bool) (r : Regex) : Bool :=
  (r.firsts.all fun w => w.head?.any fun l => l.all known) && r.quiet r.firsts known .start

section Quiet

variable {isWord known : Nat → Bool} {heads : List (List Letter)}

/-- One of the words stands at this place, at a word boundary. -/
def Starts (isWord : Nat → Bool) (heads : List (List Letter)) (t : Text) (i : Nat) : Prop :=
  wordBoundary isWord (before t i) (t.drop i) = true ∧ ∃ w ∈ heads, reads t w i = true

/-- What is known of a place of a match that began at `s`. -/
def Behind.At (isWord : Nat → Bool) (t : Text) (s i : Nat) : Behind → Prop
  | .start => i = s
  | .word => (before t i).any isWord = true
  | .other => True

/-- A word does not start behind a word character. -/
theorem not_starts_of_word (hknown : ∀ c, known c = true → isWord c = true)
    (hheads : (heads.all fun w => w.head?.any fun l => l.all known) = true) {i : Nat}
    (h : (before t i).any isWord = true) : ¬Starts isWord heads t i := by
  rintro ⟨hbound, w, hw, hread⟩
  obtain ⟨l, c, hall, hc, hget⟩ := reads_head (List.all_eq_true.mp hheads w hw) hread
  have hcword := hknown c (List.all_eq_true.mp hall c hc)
  rw [wordBoundary, h, List.head?_drop, hget, Option.any_some, hcword] at hbound
  cases hbound

/-- A word does not start where a word stands that clashes with it. -/
theorem not_reads_of_clash {v w : List Letter} (h : clash v w = true) {i : Nat}
    (hv : reads t v i = true) : reads t w i = false := by
  by_contra hw
  rw [Bool.not_eq_false] at hw
  obtain ⟨⟨a, b⟩, hmem, hdiff⟩ := List.any_eq_true.mp h
  obtain ⟨k, hk⟩ := List.mem_iff_getElem?.mp hmem
  obtain ⟨hak, hbk⟩ := List.getElem?_zip_eq_some.mp hk
  obtain ⟨c, hc, hget⟩ := reads_get hv hak
  obtain ⟨d, hd, hget'⟩ := reads_get hw hbk
  obtain rfl : c = d := Option.some.inj (hget.symm.trans hget')
  have hnot := List.all_eq_true.mp hdiff c hc
  rw [Bool.not_eq_true', List.contains_eq_mem, decide_eq_false_iff_not] at hnot
  exact hnot hd

/-- Behind a letter of a word whose letters are all word characters. -/
theorem before_of_reads {letters : List Letter} (hall : letters.all (·.all known) = true)
    (hknown : ∀ c, known c = true → isWord c = true) {i k : Nat} (h : reads t letters i = true)
    (hi : i < k) (hk : k ≤ i + letters.length) : (before t k).any isWord = true := by
  obtain ⟨n, rfl⟩ : ∃ n, k = i + n + 1 := ⟨k - i - 1, by omega⟩
  have hn : n < letters.length := by omega
  obtain ⟨c, hc, hget⟩ := reads_get h (List.getElem?_eq_getElem hn)
  have hletter := List.all_eq_true.mp hall _ (List.getElem_mem hn)
  rw [before, hget, Option.any_some]
  exact hknown c (List.all_eq_true.mp hletter c hc)

/-- A word does not start with a character that begins none. -/
theorem not_starts_of_run {p : Nat → Bool} {k : Nat}
    (hfree : (heads.all fun w => w.head?.any fun l => l.all fun c => !p c) = true)
    (hget : ∃ c, t[k]? = some c ∧ p c = true) : ¬Starts isWord heads t k := by
  rintro ⟨-, w, hw, hread⟩
  obtain ⟨l, c, hall, hc, hfirst⟩ := reads_head (List.all_eq_true.mp hfree w hw) hread
  obtain ⟨d, hd, hp⟩ := hget
  obtain rfl : c = d := Option.some.inj (hfirst.symm.trans hd)
  have hnot := List.all_eq_true.mp hall c hc
  rw [hp] at hnot
  cases hnot

/-- No word starts within a quiet match but where the match begins. -/
theorem quiet_spec (hknown : ∀ c, known c = true → isWord c = true)
    (hheads : (heads.all fun w => w.head?.any fun l => l.all known) = true) {r : Regex}
    {b : Behind} {s i j : Nat} (hquiet : r.quiet heads known b = true)
    (hb : b.At isWord t s i) (hj : j ∈ r.ends t i) :
    (r.behind b).At isWord t s j
      ∧ ∀ k, s < k → i ≤ k → k < j → ¬Starts isWord heads t k := by
  induction r generalizing b i j with
  | nothing =>
    rw [Regex.ends, List.mem_singleton] at hj
    subst hj
    exact ⟨hb, fun k _ hle hlt => absurd hlt (Nat.not_lt.mpr hle)⟩
  | look p =>
    obtain ⟨-, rfl⟩ := mem_ends_look.mp hj
    exact ⟨hb, fun k _ hle hlt => absurd hlt (Nat.not_lt.mpr hle)⟩
  | word letters =>
    obtain ⟨hread, rfl⟩ := mem_ends_word.mp hj
    rw [Regex.quiet, Bool.and_eq_true, Bool.or_eq_true] at hquiet
    obtain ⟨hall, hfirst⟩ := hquiet
    refine ⟨?_, fun k hsk hik hkj => ?_⟩
    · cases letters with
      | nil => exact hb
      | cons l ls => exact before_of_reads hall hknown hread (by simp) (Nat.le_refl _)
    · obtain hlt | rfl := Nat.lt_or_eq_of_le hik
      · exact not_starts_of_word hknown hheads
          (before_of_reads hall hknown hread hlt (Nat.le_of_lt hkj))
      · cases b with
        | start => exact absurd hb (Nat.ne_of_gt hsk)
        | word => exact not_starts_of_word hknown hheads hb
        | other =>
          rintro ⟨-, w, hw, hreadw⟩
          have hclash := List.all_eq_true.mp (hfirst.resolve_left (by decide)) w hw
          rw [not_reads_of_clash hclash hread] at hreadw
          cases hreadw
  | run p least most =>
    exact ⟨trivial, fun k _ hik hkj =>
      not_starts_of_run hquiet (get_of_mem_runEnds (List.mem_reverse.mp hj) hik hkj)⟩
  | few p least most =>
    exact ⟨trivial, fun k _ hik hkj =>
      not_starts_of_run hquiet (get_of_mem_runEnds hj hik hkj)⟩
  | seq a c iha ihc =>
    obtain ⟨m, hm, hj⟩ := mem_ends_seq.mp hj
    rw [Regex.quiet, Bool.and_eq_true] at hquiet
    obtain ⟨hbm, hfront⟩ := iha hquiet.1 hb hm
    obtain ⟨hbj, hback⟩ := ihc hquiet.2 hbm hj
    refine ⟨hbj, fun k hsk hik hkj => ?_⟩
    obtain hkm | hmk := Nat.lt_or_ge k m
    · exact hfront k hsk hik hkm
    · exact hback k hsk hmk hkj
  | alt a c iha ihc =>
    rw [Regex.quiet, Bool.and_eq_true] at hquiet
    rw [Regex.behind]
    obtain ha | hc := mem_ends_alt.mp hj
    · obtain ⟨hbj, hfree⟩ := iha hquiet.1 hb ha
      refine ⟨?_, hfree⟩
      split_ifs
      · exact hbj
      · trivial
    · obtain ⟨hbj, hfree⟩ := ihc hquiet.2 hb hc
      refine ⟨?_, hfree⟩
      split_ifs with hsame
      · rw [hsame]
        exact hbj
      · trivial

/-- A pattern that begins with words at a word boundary, and is quiet about them, stands alone. -/
theorem alone_of_selfQuiet (hknown : ∀ c, known c = true → isWord c = true) {r : Regex}
    (hr : r.selfQuiet known = true) :
    (Regex.seq (.look (wordBoundary isWord)) r).Alone t := by
  rw [Regex.selfQuiet, Bool.and_eq_true] at hr
  intro i j k hj hik hkj
  obtain ⟨i', hi', hbody⟩ := mem_ends_seq.mp hj
  obtain ⟨-, rfl⟩ := mem_ends_look.mp hi'
  obtain ⟨-, hfree⟩ := quiet_spec hknown hr.1 (b := .start) (s := i') hr.2 rfl hbody
  refine List.eq_nil_iff_forall_not_mem.mpr fun e he => ?_
  obtain ⟨k', hk', hagain⟩ := mem_ends_seq.mp he
  obtain ⟨hbound, rfl⟩ := mem_ends_look.mp hk'
  exact hfree k' hik (Nat.le_of_lt hik) hkj ⟨hbound, reads_firsts hagain⟩

end Quiet

end Library
