import CliAgentOrchestrator.Library.Text

/-!
# UTF-8

The bytes of a text. Each character shows where it ends, so the bytes determine the text
(`utf8_injective`). The decoder is a machine that owes at most one character, and reports what is none
as one error for each longest beginning of a character: it reads back what was encoded
(`decode_utf8_append`), and from any byte that goes on with no character it reads as if it began there
(`decode_append_start`).
-/

set_option autoImplicit false

namespace Library

/-- The bytes of a character. -/
def utf8Char (c : Nat) : List Nat :=
  if c < 0x80 then [c]
  else if c < 0x800 then [0xC0 + c / 0x40, 0x80 + c % 0x40]
  else if c < 0x10000 then [0xE0 + c / 0x1000, 0x80 + c / 0x40 % 0x40, 0x80 + c % 0x40]
  else
    [0xF0 + c / 0x40000, 0x80 + c / 0x1000 % 0x40, 0x80 + c / 0x40 % 0x40, 0x80 + c % 0x40]

/-- `text.encode("utf-8")`, for a text that has a UTF-8 form. -/
def utf8 (t : Text) : List Nat := t.flatMap utf8Char

theorem utf8Char_append_inj {c d : Nat} {r s : List Nat} (h : utf8Char c ++ r = utf8Char d ++ s) :
    c = d ∧ r = s := by
  unfold utf8Char at h
  split_ifs at h <;>
    simp only [List.cons_append, List.nil_append, List.cons.injEq] at h
  all_goals
    first
      | exact ⟨by omega, by tauto⟩
      | omega

theorem utf8Char_ne_nil (c : Nat) : utf8Char c ≠ [] := by
  unfold utf8Char
  split_ifs <;> simp

theorem utf8_injective {a b : Text} (h : utf8 a = utf8 b) : a = b := by
  induction a generalizing b with
  | nil =>
    cases b with
    | nil => rfl
    | cons d b => exact absurd (List.append_eq_nil_iff.mp h.symm).1 (utf8Char_ne_nil d)
  | cons c a ih =>
    cases b with
    | nil => exact absurd (List.append_eq_nil_iff.mp h).1 (utf8Char_ne_nil c)
    | cons d b =>
      obtain ⟨rfl, hrest⟩ := utf8Char_append_inj h
      rw [ih hrest]

/-! ## Decoding -/

/-- A code point that has a UTF-8 form. -/
def isScalar (c : Nat) : Bool := c < 0x110000 && !isSurrogate c

theorem isScalar_iff {c : Nat} :
    isScalar c = true ↔ c < 0x110000 ∧ (c < 0xD800 ∨ 0xDFFF < c) := by
  simp only [isScalar, isSurrogate, Bool.and_eq_true, Bool.not_eq_true', Bool.and_eq_false_iff,
    decide_eq_true_eq, decide_eq_false_iff_not, not_le]

/-- A byte that goes on with a character. -/
def isContinuation (b : Nat) : Bool := 0x80 ≤ b && b < 0xC0

/-- A character that has begun: its value so far, the number of bytes owed, and where the next of
them must lie. -/
structure Pending where
  value : Nat
  owed : Nat
  low : Nat
  high : Nat
  low_ge : 0x80 ≤ low
  high_lt : high < 0xC0

/-- A byte between characters. -/
def firstByte (b : Nat) : List (Option Nat) × Option Pending :=
  if b < 0x80 then ([some b], none)
  else if 0xC2 ≤ b ∧ b < 0xE0 then ([], some ⟨b - 0xC0, 1, 0x80, 0xBF, le_rfl, by decide⟩)
  else if b = 0xE0 then ([], some ⟨0, 2, 0xA0, 0xBF, by decide, by decide⟩)
  else if b = 0xED then ([], some ⟨0xD, 2, 0x80, 0x9F, le_rfl, by decide⟩)
  else if 0xE0 ≤ b ∧ b < 0xF0 then ([], some ⟨b - 0xE0, 2, 0x80, 0xBF, le_rfl, by decide⟩)
  else if b = 0xF0 then ([], some ⟨0, 3, 0x90, 0xBF, by decide, by decide⟩)
  else if b = 0xF4 then ([], some ⟨4, 3, 0x80, 0x8F, le_rfl, by decide⟩)
  else if 0xF0 ≤ b ∧ b < 0xF4 then ([], some ⟨b - 0xF0, 3, 0x80, 0xBF, le_rfl, by decide⟩)
  else ([none], none)

/-- What a byte completes, and what has begun after it. -/
def nextByte : Option Pending → Nat → List (Option Nat) × Option Pending
  | none, b => firstByte b
  | some p, b =>
    if p.low ≤ b ∧ b ≤ p.high then
      if p.owed = 1 then ([some (p.value * 0x40 + (b - 0x80))], none)
      else
        ([], some ⟨p.value * 0x40 + (b - 0x80), p.owed - 1, 0x80, 0xBF, le_rfl, by decide⟩)
    else (none :: (firstByte b).1, (firstByte b).2)

/-- The characters in order; nothing stands for bytes that are none. -/
def decode : Option Pending → List Nat → List (Option Nat)
  | none, [] => []
  | some _, [] => [none]
  | p, b :: rest => (nextByte p b).1 ++ decode (nextByte p b).2 rest

/-- `bytes.decode("utf-8", errors="ignore")`. -/
def decodeIgnore (bytes : List Nat) : Text := (decode none bytes).filterMap id

/-- `bytes.decode("utf-8", "strict")`; none is the `UnicodeDecodeError`. -/
def decodeStrict (bytes : List Nat) : Option Text := (decode none bytes).mapM id

/-- `bytes.decode("utf-8", errors="replace")`. -/
def decodeReplace (bytes : List Nat) : Text := (decode none bytes).map (·.getD 0xFFFD)

theorem decode_cons (p : Option Pending) (b : Nat) (rest : List Nat) :
    decode p (b :: rest) = (nextByte p b).1 ++ decode (nextByte p b).2 rest := by
  cases p <;> rfl

theorem nextByte_more {p : Pending} {b : Nat} (hlow : p.low ≤ b) (hhigh : b ≤ p.high)
    (howed : p.owed ≠ 1) :
    nextByte (some p) b
      = ([], some ⟨p.value * 0x40 + (b - 0x80), p.owed - 1, 0x80, 0xBF, le_rfl, by decide⟩) := by
  simp only [nextByte, hlow, hhigh, and_self, if_true, if_neg howed]

theorem nextByte_last {p : Pending} {b : Nat} (hlow : p.low ≤ b) (hhigh : b ≤ p.high)
    (howed : p.owed = 1) :
    nextByte (some p) b = ([some (p.value * 0x40 + (b - 0x80))], none) := by
  simp only [nextByte, hlow, hhigh, and_self, if_true, if_pos howed]

/-- A byte that goes on with no character ends the one that has begun. -/
theorem nextByte_start {b : Nat} (hb : isContinuation b = false) (p : Pending) :
    nextByte (some p) b = (none :: (firstByte b).1, (firstByte b).2) := by
  have hlow := p.low_ge
  have hhigh := p.high_lt
  have hout : ¬(p.low ≤ b ∧ b ≤ p.high) := by
    simp only [isContinuation, Bool.and_eq_false_iff, decide_eq_false_iff_not] at hb
    omega
  simp only [nextByte, if_neg hout]

theorem firstByte_of_isContinuation {b : Nat} (hb : isContinuation b = true) :
    firstByte b = ([none], none) := by
  simp only [isContinuation, Bool.and_eq_true, decide_eq_true_eq] at hb
  unfold firstByte
  repeat rw [if_neg (by omega)]

/-- From such a byte on, what came before it does not matter. -/
theorem decode_append_start {b : Nat} (hb : isContinuation b = false) (p : Option Pending)
    (a rest : List Nat) : decode p (a ++ b :: rest) = decode p a ++ decode none (b :: rest) := by
  induction a generalizing p with
  | nil =>
    cases p with
    | none => rfl
    | some p =>
      rw [List.nil_append, decode_cons, nextByte_start hb p, decode_cons none]
      rfl
  | cons x a ih => rw [List.cons_append, decode_cons, decode_cons, ih, List.append_assoc]

/-- Bytes that go on with nothing are an error each. -/
theorem decode_continuations {a : List Nat} (ha : ∀ b ∈ a, isContinuation b = true)
    (rest : List Nat) :
    decode none (a ++ rest) = a.map (fun _ => none) ++ decode none rest := by
  induction a with
  | nil => rfl
  | cons b a ih =>
    rw [List.cons_append, decode_cons, nextByte, firstByte_of_isContinuation (ha b List.mem_cons_self),
      ih fun b hb => ha b (List.mem_cons_of_mem _ hb)]
    rfl

/-! ## Reading back -/

theorem isContinuation_of_mem_tail {c b : Nat} (h : b ∈ (utf8Char c).tail) :
    isContinuation b = true := by
  unfold utf8Char at h
  simp only [isContinuation, Bool.and_eq_true, decide_eq_true_eq]
  split_ifs at h <;> simp at h <;> omega

/-- The bytes still owed, one by one, make up the character. -/
def Completes : Pending → List Nat → Nat → Prop
  | _, [], _ => False
  | p, [b], c => (p.low ≤ b ∧ b ≤ p.high) ∧ p.owed = 1 ∧ p.value * 0x40 + (b - 0x80) = c
  | p, b :: rest, c =>
    (p.low ≤ b ∧ b ≤ p.high) ∧ p.owed ≠ 1
      ∧ Completes ⟨p.value * 0x40 + (b - 0x80), p.owed - 1, 0x80, 0xBF, le_rfl, by decide⟩ rest c

theorem Completes.decode_append {p : Pending} {bytes : List Nat} {c : Nat}
    (h : Completes p bytes c) (rest : List Nat) :
    decode (some p) (bytes ++ rest) = some c :: decode none rest := by
  induction bytes generalizing p with
  | nil => exact h.elim
  | cons b bytes ih =>
    rw [List.cons_append, decode_cons]
    cases bytes with
    | nil =>
      obtain ⟨⟨hlow, hhigh⟩, howed, rfl⟩ := h
      rw [nextByte_last hlow hhigh howed]
      rfl
    | cons b' bytes =>
      obtain ⟨⟨hlow, hhigh⟩, howed, hrest⟩ := h
      rw [nextByte_more hlow hhigh howed]
      exact ih hrest

/-- A character that is cut off is one error. -/
theorem Completes.decode_take {p : Pending} {bytes : List Nat} {c : Nat}
    (h : Completes p bytes c) {k : Nat} (hk : k < bytes.length) :
    decode (some p) (bytes.take k) = [none] := by
  induction bytes generalizing p k with
  | nil => exact h.elim
  | cons b bytes ih =>
    cases k with
    | zero => rfl
    | succ k =>
      cases bytes with
      | nil => simp at hk
      | cons b' bytes =>
        obtain ⟨⟨hlow, hhigh⟩, howed, hrest⟩ := h
        rw [List.take_succ_cons, decode_cons, nextByte_more hlow hhigh howed]
        exact ih hrest (by simpa using hk)

/-- A character is one byte, or one that begins it and those it owes. -/
theorem utf8Char_cases {c : Nat} (hc : isScalar c = true) :
    (utf8Char c = [c] ∧ c < 0x80) ∨
      ∃ b bytes p, utf8Char c = b :: bytes ∧ firstByte b = ([], some p) ∧ Completes p bytes c := by
  rw [isScalar_iff] at hc
  unfold utf8Char
  split_ifs with h1 h2 h3
  · exact .inl ⟨rfl, h1⟩
  · refine .inr ⟨_, _, ⟨c / 0x40, 1, 0x80, 0xBF, le_rfl, by decide⟩, rfl, ?_, ?_⟩
    · unfold firstByte
      rw [if_neg (by omega), if_pos (by omega), Nat.add_sub_cancel_left]
    · exact ⟨by dsimp only; omega, rfl, by dsimp only; omega⟩
  · have hthree : ∀ low high hlow hhigh,
        (low ≤ 0x80 + c / 0x40 % 0x40 ∧ 0x80 + c / 0x40 % 0x40 ≤ high) →
        Completes ⟨c / 0x1000, 2, low, high, hlow, hhigh⟩
          [0x80 + c / 0x40 % 0x40, 0x80 + c % 0x40] c := by
      intro low high hlow hhigh hrange
      exact ⟨hrange, by simp, by dsimp only; omega, rfl, by dsimp only; omega⟩
    by_cases hE0 : c / 0x1000 = 0
    · refine .inr ⟨_, _, _, rfl, ?_, hthree 0xA0 0xBF (by decide) (by decide) (by omega)⟩
      simp [firstByte, hE0]
    · by_cases hED : c / 0x1000 = 0xD
      · refine .inr ⟨_, _, _, rfl, ?_, hthree 0x80 0x9F (by decide) (by decide) (by omega)⟩
        simp [firstByte, hED]
      · refine .inr ⟨_, _, _, rfl, ?_, hthree 0x80 0xBF (by decide) (by decide) (by omega)⟩
        unfold firstByte
        rw [if_neg (by omega), if_neg (by omega), if_neg (by omega), if_neg (by omega),
          if_pos (by omega), Nat.add_sub_cancel_left]
  · have hfour : ∀ low high hlow hhigh,
        (low ≤ 0x80 + c / 0x1000 % 0x40 ∧ 0x80 + c / 0x1000 % 0x40 ≤ high) →
        Completes ⟨c / 0x40000, 3, low, high, hlow, hhigh⟩
          [0x80 + c / 0x1000 % 0x40, 0x80 + c / 0x40 % 0x40, 0x80 + c % 0x40] c := by
      intro low high hlow hhigh hrange
      exact ⟨hrange, by simp, by dsimp only; omega, by simp, by dsimp only; omega, rfl,
        by dsimp only; omega⟩
    by_cases hF0 : c / 0x40000 = 0
    · refine .inr ⟨_, _, _, rfl, ?_, hfour 0x90 0xBF (by decide) (by decide) (by omega)⟩
      simp [firstByte, hF0]
    · by_cases hF4 : c / 0x40000 = 4
      · refine .inr ⟨_, _, _, rfl, ?_, hfour 0x80 0x8F (by decide) (by decide) (by omega)⟩
        simp [firstByte, hF4]
      · refine .inr ⟨_, _, _, rfl, ?_, hfour 0x80 0xBF (by decide) (by decide) (by omega)⟩
        unfold firstByte
        rw [if_neg (by omega), if_neg (by omega), if_neg (by omega), if_neg (by omega),
          if_neg (by omega), if_neg (by omega), if_neg (by omega), if_pos (by omega),
          Nat.add_sub_cancel_left]

theorem decode_utf8Char {c : Nat} (hc : isScalar c = true) (rest : List Nat) :
    decode none (utf8Char c ++ rest) = some c :: decode none rest := by
  obtain ⟨hone, hc⟩ | ⟨b, bytes, p, heq, hfirst, hbytes⟩ := utf8Char_cases hc
  · rw [hone, List.cons_append, decode_cons, nextByte, firstByte, if_pos hc]
    rfl
  · rw [heq, List.cons_append, decode_cons, nextByte, hfirst]
    exact hbytes.decode_append rest

theorem decodeIgnore_take_utf8Char {c k : Nat} (hc : isScalar c = true)
    (hk : k < (utf8Char c).length) : decodeIgnore ((utf8Char c).take k) = [] := by
  cases k with
  | zero => rfl
  | succ k =>
    obtain ⟨hone, -⟩ | ⟨b, bytes, p, heq, hfirst, hbytes⟩ := utf8Char_cases hc
    · simp [hone] at hk
    · rw [heq] at hk ⊢
      rw [List.take_succ_cons, decodeIgnore, decode_cons, nextByte, hfirst,
        hbytes.decode_take (by simpa using hk)]
      rfl

/-- What was encoded is read back, whatever follows it. -/
theorem decode_utf8_append {t : Text} (ht : ∀ c ∈ t, isScalar c = true) (rest : List Nat) :
    decode none (utf8 t ++ rest) = t.map some ++ decode none rest := by
  induction t with
  | nil => rfl
  | cons c t ih =>
    rw [utf8, List.flatMap_cons, List.append_assoc, decode_utf8Char (ht c List.mem_cons_self)]
    exact congrArg (some c :: ·) (ih fun d hd => ht d (List.mem_cons_of_mem c hd))

theorem decodeIgnore_utf8_append {t : Text} (ht : ∀ c ∈ t, isScalar c = true) (rest : List Nat) :
    decodeIgnore (utf8 t ++ rest) = t ++ decodeIgnore rest := by
  rw [decodeIgnore, decode_utf8_append ht, List.filterMap_append, List.filterMap_map]
  exact congrArg (· ++ _) (List.filterMap_some)

theorem decodeIgnore_utf8 {t : Text} (ht : ∀ c ∈ t, isScalar c = true) :
    decodeIgnore (utf8 t) = t := by
  have h := decodeIgnore_utf8_append ht []
  rwa [List.append_nil, show decodeIgnore [] = [] from rfl, List.append_nil] at h

theorem utf8_append (a b : Text) : utf8 (a ++ b) = utf8 a ++ utf8 b := List.flatMap_append

theorem utf8_cons (c : Nat) (t : Text) : utf8 (c :: t) = utf8Char c ++ utf8 t := rfl

/-- ASCII is its own UTF-8 form. -/
theorem utf8_ascii {t : Text} (ht : ∀ c ∈ t, c < 0x80) : utf8 t = t := by
  induction t with
  | nil => rfl
  | cons c t ih =>
    rw [utf8_cons, utf8Char, if_pos (ht c List.mem_cons_self),
      ih fun d hd => ht d (List.mem_cons_of_mem c hd)]
    rfl

theorem isScalar_of_ascii {t : Text} (ht : ∀ c ∈ t, c < 0x80) : ∀ c ∈ t, isScalar c = true := by
  intro c hc
  have hlow := ht c hc
  rw [isScalar_iff]
  omega

/-! ## Strings -/

/-- The string of a text. -/
def ofText (t : Text) : String := String.ofList (t.map Char.ofNat)

theorem text_ofList (chars : List Char) : text (String.ofList chars) = chars.map Char.toNat :=
  congrArg (List.map Char.toNat) String.toList_ofList

theorem isScalar_toNat (c : Char) : isScalar c.toNat = true := by
  have hvalid : c.toNat.isValidChar := c.valid
  unfold Nat.isValidChar at hvalid
  rw [isScalar_iff]
  omega

theorem isScalar_text (s : String) : ∀ c ∈ text s, isScalar c = true := by
  intro c hc
  obtain ⟨c, -, rfl⟩ := List.mem_map.mp hc
  exact isScalar_toNat c

theorem toNat_ofNat {c : Nat} (hc : isScalar c = true) : (Char.ofNat c).toNat = c := by
  rw [isScalar_iff] at hc
  have hvalid : c.isValidChar := by
    unfold Nat.isValidChar
    omega
  rw [Char.ofNat, dif_pos hvalid]
  rfl

theorem ofText_text (s : String) : ofText (text s) = s := by
  rw [ofText, text, List.map_map]
  have hid : Char.ofNat ∘ Char.toNat = id := funext Char.ofNat_toNat
  rw [hid, List.map_id, String.ofList_toList]

theorem text_ofText {t : Text} (ht : ∀ c ∈ t, isScalar c = true) : text (ofText t) = t := by
  rw [ofText, text_ofList, List.map_map]
  refine (List.map_congr_left fun c hc => ?_).trans (List.map_id t)
  exact toNat_ofNat (ht c hc)

/-! ## Cutting the bytes -/

/-- The whole characters within a number of bytes. -/
def takeWhole : Nat → Text → Text
  | _, [] => []
  | limit, c :: rest =>
    if (utf8Char c).length ≤ limit then c :: takeWhole (limit - (utf8Char c).length) rest else []

/-- The whole characters behind a number of bytes. -/
def dropWhole : Nat → Text → Text
  | _, [] => []
  | limit, c :: rest => if limit = 0 then c :: rest else dropWhole (limit - (utf8Char c).length) rest

theorem decodeIgnore_take_utf8 {t : Text} (ht : ∀ c ∈ t, isScalar c = true) (limit : Nat) :
    decodeIgnore ((utf8 t).take limit) = takeWhole limit t := by
  induction t generalizing limit with
  | nil => rw [utf8, List.flatMap_nil, List.take_nil, takeWhole]; rfl
  | cons c t ih =>
    obtain ⟨hc, ht⟩ := List.forall_mem_cons.mp ht
    have hone : ∀ d ∈ [c], isScalar d = true := by simpa using hc
    have hchar : utf8 [c] = utf8Char c := by rw [utf8_cons]; exact List.append_nil _
    rw [utf8_cons, takeWhole]
    split_ifs with hfits
    · rw [List.take_append, List.take_of_length_le hfits, ← hchar, decodeIgnore_utf8_append hone,
        hchar, ih ht]
      rfl
    · rw [List.take_append_of_le_length (by omega)]
      exact decodeIgnore_take_utf8Char hc (by omega)

/-- What is left of a character that was cut is dropped. -/
theorem decodeIgnore_drop_utf8 {t : Text} (ht : ∀ c ∈ t, isScalar c = true) (limit : Nat) :
    decodeIgnore ((utf8 t).drop limit) = dropWhole limit t := by
  induction t generalizing limit with
  | nil => rw [utf8, List.flatMap_nil, List.drop_nil, dropWhole]; rfl
  | cons c t ih =>
    rw [dropWhole]
    split_ifs with hzero
    · rw [hzero, List.drop_zero, decodeIgnore_utf8 ht]
    · obtain ⟨hc, ht⟩ := List.forall_mem_cons.mp ht
      have hrest : ∀ b ∈ (utf8Char c).drop limit, isContinuation b = true := by
        intro b hb
        refine isContinuation_of_mem_tail (c := c) ?_
        rw [← List.drop_one]
        exact (List.drop_subset_drop_left _ (by omega)) hb
      have hnone : ((utf8Char c).drop limit).filterMap (id ∘ fun _ => (none : Option Nat)) = [] :=
        List.filterMap_eq_nil_iff.mpr fun _ _ => rfl
      rw [utf8_cons, List.drop_append, decodeIgnore, decode_continuations hrest,
        List.filterMap_append, List.filterMap_map, hnone, List.nil_append, ← ih ht, decodeIgnore]

theorem takeWhole_prefixOf (limit : Nat) (t : Text) : takeWhole limit t <+: t := by
  induction t generalizing limit with
  | nil => exact List.prefix_rfl
  | cons c t ih =>
    rw [takeWhole]
    split_ifs
    · exact List.prefix_cons_inj c |>.mpr (ih _)
    · exact List.nil_prefix

theorem length_takeWhole_le (limit : Nat) (t : Text) :
    (utf8 (takeWhole limit t)).length ≤ limit := by
  induction t generalizing limit with
  | nil => exact Nat.zero_le _
  | cons c t ih =>
    rw [takeWhole]
    split_ifs with hfits
    · have hrest := ih (limit - (utf8Char c).length)
      rw [utf8_cons, List.length_append]
      omega
    · exact Nat.zero_le _

theorem dropWhole_suffix (limit : Nat) (t : Text) : dropWhole limit t <:+ t := by
  induction t generalizing limit with
  | nil => exact List.suffix_rfl
  | cons c t ih =>
    rw [dropWhole]
    split_ifs
    · exact List.suffix_rfl
    · exact (ih _).trans (List.suffix_cons c t)

theorem length_dropWhole_le (limit : Nat) (t : Text) :
    (utf8 (dropWhole limit t)).length ≤ (utf8 t).length - limit := by
  induction t generalizing limit with
  | nil => exact Nat.zero_le _
  | cons c t ih =>
    rw [dropWhole]
    split_ifs with hzero
    · omega
    · have hrest := ih (limit - (utf8Char c).length)
      rw [utf8_cons, List.length_append]
      omega

/-! ## Replacing what is no character -/

theorem decodeReplace_append_start {b : Nat} (hb : isContinuation b = false) (a rest : List Nat) :
    decodeReplace (a ++ b :: rest) = decodeReplace a ++ decodeReplace (b :: rest) := by
  rw [decodeReplace, decode_append_start hb, List.map_append]
  rfl

theorem decodeReplace_continuations {a : List Nat} (ha : ∀ b ∈ a, isContinuation b = true)
    (rest : List Nat) :
    decodeReplace (a ++ rest) = List.replicate a.length 0xFFFD ++ decodeReplace rest := by
  rw [decodeReplace, decode_continuations ha, List.map_append, List.map_map, decodeReplace]
  exact congrArg (· ++ _) List.map_const'

theorem decodeReplace_utf8_append {t : Text} (ht : ∀ c ∈ t, isScalar c = true)
    (rest : List Nat) : decodeReplace (utf8 t ++ rest) = t ++ decodeReplace rest := by
  rw [decodeReplace, decode_utf8_append ht, List.map_append, List.map_map]
  exact congrArg (· ++ _) (List.map_id t)

theorem decode_some_ne_nil (p : Pending) (bytes : List Nat) : decode (some p) bytes ≠ [] := by
  induction bytes generalizing p with
  | nil => exact List.cons_ne_nil _ _
  | cons b bytes ih =>
    rw [decode_cons, nextByte]
    split_ifs
    · exact List.cons_ne_nil _ _
    · rw [List.nil_append]
      exact ih _
    · exact List.cons_ne_nil _ _

/-- No byte is without a character. -/
theorem decodeReplace_ne_nil {bytes : List Nat} (h : bytes ≠ []) : decodeReplace bytes ≠ [] := by
  obtain ⟨b, bytes, rfl⟩ := List.exists_cons_of_ne_nil h
  have hdecode : decode none (b :: bytes) ≠ [] := by
    rw [decode_cons, nextByte]
    cases hnext : (firstByte b).2 with
    | some p => exact fun hnil => decode_some_ne_nil p bytes (List.append_eq_nil_iff.mp hnil).2
    | none =>
      have hemit : (firstByte b).1 ≠ [] := by
        unfold firstByte at hnext ⊢
        split_ifs at hnext ⊢ <;> simp at hnext ⊢
      exact fun hnil => hemit (List.append_eq_nil_iff.mp hnil).1
  simpa [decodeReplace] using hdecode

/-- Bytes are some that go on with nothing here, and then none or one that does not. -/
theorem exists_continuations (bytes : List Nat) :
    ∃ a rest, bytes = a ++ rest ∧ (∀ b ∈ a, isContinuation b = true)
      ∧ ∀ b ∈ rest.head?, isContinuation b = false := by
  refine ⟨bytes.takeWhile isContinuation, bytes.dropWhile isContinuation,
    List.takeWhile_append_dropWhile.symm, fun b hb => List.mem_takeWhile_imp hb, ?_⟩
  intro b hb
  have hnot := List.head?_dropWhile_not isContinuation bytes
  rw [Option.mem_def.mp hb] at hnot
  exact hnot

end Library
