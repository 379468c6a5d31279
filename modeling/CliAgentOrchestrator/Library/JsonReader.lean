import Mathlib.Data.List.Chain
import CliAgentOrchestrator.Library.JsonTree
import CliAgentOrchestrator.Library.Utf8

/-!
# Reading JSON text

`json.loads` on texts of code points: literals with their escapes, where a pair of surrogates is one
character; numbers, which are kept as the token they are written as; and the trees made of them, by
fuel, which a text's own length always provides. What `dumpsWith` writes is read back (`loads_dumpsWith`),
and a text that is read never holds a pair of surrogates (`joined_of_loads`).
-/

set_option autoImplicit false

namespace Library.JsonTree

/-! ## Literals -/

def hexValue (c : Nat) : Option Nat :=
  if 48 ≤ c ∧ c ≤ 57 then some (c - 48)
  else if 97 ≤ c ∧ c ≤ 102 then some (c - 87)
  else if 65 ≤ c ∧ c ≤ 70 then some (c - 55)
  else none

/-- The code unit that four hexadecimal digits name. -/
def readUnit (a b c d : Nat) : Option Nat := do
  let a ← hexValue a
  let b ← hexValue b
  let c ← hexValue c
  let d ← hexValue d
  some (4096 * a + 256 * b + 16 * c + d)

/-- The character that stands behind a backslash. -/
def shortEscape (c : Nat) : Option Nat :=
  if c = 34 ∨ c = 92 ∨ c = 47 then some c
  else if c = 98 then some 8
  else if c = 102 then some 12
  else if c = 110 then some 10
  else if c = 114 then some 13
  else if c = 116 then some 9
  else none

/-- The code units of what stands between quotes; control characters must be escaped. -/
def unescape : Text → Option (List Nat)
  | [] => some []
  | 92 :: 117 :: a :: b :: c :: d :: rest => do
    let unit ← readUnit a b c d
    let units ← unescape rest
    some (unit :: units)
  | 92 :: e :: rest => do
    let unit ← shortEscape e
    let units ← unescape rest
    some (unit :: units)
  | c :: rest => if c < 32 ∨ c = 92 then none else (unescape rest).map (c :: ·)

def isHigh (c : Nat) : Bool := 0xD800 ≤ c && c < 0xDC00

def isLow (c : Nat) : Bool := 0xDC00 ≤ c && c < 0xE000

/-- A high surrogate and the low one that follows it are one character. -/
def joinPairs : List Nat → Text
  | [] => []
  | [c] => [c]
  | c :: d :: rest =>
    if isHigh c && isLow d then (0x10000 + (c - 0xD800) * 0x400 + (d - 0xDC00)) :: joinPairs rest
    else c :: joinPairs (d :: rest)

/-- What follows an opening quote. -/
def readString (t : Text) : Option (Text × Text) := do
  let (body, after) ← closing t
  let units ← unescape body
  some (joinPairs units, after)

/-! ## Numbers -/

def isDigit (c : Nat) : Bool := 48 ≤ c && c ≤ 57

/-- The whole part begins with a zero only where it is one. -/
def readWhole : Text → Option (Text × Text)
  | [] => none
  | c :: rest =>
    if c = 48 then some ([48], rest)
    else if isDigit c then some (c :: rest.takeWhile isDigit, rest.dropWhile isDigit)
    else none

/-- A point is part of the number only where a digit follows it. -/
def readFraction : Text → Text × Text
  | 46 :: d :: rest =>
    if isDigit d then (46 :: d :: rest.takeWhile isDigit, rest.dropWhile isDigit)
    else ([], 46 :: d :: rest)
  | t => ([], t)

/-- The sign of an exponent. -/
def readSign : Text → Text × Text
  | c :: rest => if c = 43 ∨ c = 45 then ([c], rest) else ([], c :: rest)
  | [] => ([], [])

/-- An `e` is part of the number only where digits follow it. -/
def readExponent : Text → Text × Text
  | [] => ([], [])
  | c :: rest =>
    let (sign, digits) := readSign rest
    if (c = 69 ∨ c = 101) ∧ digits.takeWhile isDigit ≠ [] then
      (c :: (sign ++ digits.takeWhile isDigit), digits.dropWhile isDigit)
    else ([], c :: rest)

/-- A number and what follows it. -/
def readNumber (t : Text) : Option (Text × Text) := do
  let minus := if t.head? = some 45 then [45] else []
  let (whole, rest) ← readWhole (t.drop minus.length)
  let (fraction, rest) := readFraction rest
  let (exponent, rest) := readExponent rest
  some (minus ++ whole ++ fraction ++ exponent, rest)

/-- The words that are values. -/
def constants : List (Text × JsonTree) :=
  [(text "null", null), (text "true", bool true), (text "false", bool false),
    (text "NaN", num (text "NaN")), (text "Infinity", num (text "Infinity")),
    (text "-Infinity", num (text "-Infinity"))]

/-- A word or a number. -/
def readAtom (t : Text) : Option (JsonTree × Text) :=
  match constants.find? fun word => word.1.isPrefixOf t with
  | some word => some (word.2, t.drop word.1.length)
  | none => (readNumber t).map fun (token, rest) => (num token, rest)

/-! ## Trees -/

def isJsonSpace (c : Nat) : Bool := c == 32 || c == 9 || c == 10 || c == 13

def skipSpace (t : Text) : Text := t.dropWhile isJsonSpace

/-- The members of a dictionary: the last value of a key, at the place of the first. -/
def members : List (Text × JsonTree) → List (Text × JsonTree)
  | [] => []
  | (key, value) :: rest =>
    (key, ((members rest).lookup key).getD value) :: (members rest).filter (·.1 != key)

mutual

/-- A value and what follows it. -/
def readValue : Nat → Text → Option (JsonTree × Text)
  | 0, _ => none
  | _, [] => none
  | fuel + 1, c :: rest =>
    if c = 34 then (readString rest).map fun (content, after) => (str content, after)
    else if c = 91 then
      match skipSpace rest with
      | 93 :: after => some (arr [], after)
      | t => (readItems fuel t).map fun (items, after) => (arr items, after)
    else if c = 123 then
      match skipSpace rest with
      | 125 :: after => some (obj [], after)
      | t => (readFields fuel t).map fun (fields, after) => (obj (members fields), after)
    else readAtom (c :: rest)

def readItems : Nat → Text → Option (List JsonTree × Text)
  | 0, _ => none
  | fuel + 1, t => do
    let (item, after) ← readValue fuel t
    match skipSpace after with
    | 44 :: after => (readItems fuel (skipSpace after)).map fun (items, after) =>
      (item :: items, after)
    | 93 :: after => some ([item], after)
    | _ => none

def readFields : Nat → Text → Option (List (Text × JsonTree) × Text)
  | 0, _ => none
  | _, [] => none
  | fuel + 1, c :: rest => do
    if c ≠ 34 then none
    else
      let (key, after) ← readString rest
      match skipSpace after with
      | 58 :: after =>
        let (value, after) ← readValue fuel (skipSpace after)
        match skipSpace after with
        | 44 :: after => (readFields fuel (skipSpace after)).map fun (fields, after) =>
          ((key, value) :: fields, after)
        | 125 :: after => some ([(key, value)], after)
        | _ => none
      | _ => none

end

/-- `json.loads`; nothing where it raises. -/
def loads (t : Text) : Option JsonTree :=
  match readValue (t.length + 1) (skipSpace t) with
  | some (value, after) => if (skipSpace after).isEmpty then some value else none
  | none => none

example : loads (text " \x7b\"a\": [1, -2.5e+3, \"\\ud83d\\ude00\"], \"a\": null\x7d ")
    = some (obj [(text "a", null)]) := by decide +kernel

/-! ## A literal read back -/

/-- The UTF-16 code units of a character. -/
def codeUnits (c : Nat) : List Nat :=
  if c < 0x10000 then [c] else [0xD800 + (c - 0x10000) / 0x400, 0xDC00 + (c - 0x10000) % 0x400]

/-- No high surrogate is followed by a low one. -/
def Joined (t : Text) : Prop := t.IsChain fun c d => ¬(isHigh c = true ∧ isLow d = true)

/-- A text of characters, pairs of surrogates told apart from the character they make up. -/
def IsText (t : Text) : Prop := Joined t ∧ ∀ c ∈ t, c < 0x110000

/-- A text without surrogates holds no pair of them. -/
theorem isText_of_isScalar {t : Text} (ht : ∀ c ∈ t, isScalar c = true) : IsText t := by
  simp only [isScalar_iff] at ht
  refine ⟨?_, fun c hc => (ht c hc).1⟩
  induction t with
  | nil => exact .nil
  | cons c t ih =>
    obtain ⟨hc, ht⟩ := List.forall_mem_cons.mp ht
    refine List.isChain_cons.mpr ⟨fun d _ => ?_, ih ht⟩
    rintro ⟨hhigh, -⟩
    simp only [isHigh, Bool.and_eq_true, decide_eq_true_eq] at hhigh
    omega

theorem hexValue_digitChar (n : Nat) :
    hexValue (Nat.digitChar (n % 16)).toNat = some (n % 16) := by
  have hall : ∀ d < 16, hexValue (Nat.digitChar d).toNat = some d := by decide
  exact hall (n % 16) (Nat.mod_lt n (by omega))

theorem unescape_unitEscape {n : Nat} (hn : n < 0x10000) (rest : Text) :
    unescape (unitEscape n ++ rest) = (unescape rest).map (n :: ·) := by
  have hunit : 4096 * (n / 4096 % 16) + 256 * (n / 256 % 16) + 16 * (n / 16 % 16) + n % 16 = n := by
    omega
  simp only [unitEscape, List.map_cons, List.map_nil, List.cons_append, List.nil_append, unescape,
    readUnit, hexValue_digitChar, Option.bind_eq_bind, Option.bind_some, hunit]
  cases unescape rest <;> rfl

theorem unescape_short {e c : Nat} (he : shortEscape e = some c) (hu : e ≠ 117) (rest : Text) :
    unescape (92 :: e :: rest) = (unescape rest).map (c :: ·) := by
  rw [unescape]
  · rw [he]
    cases unescape rest <;> rfl
  · rintro a b c d rest' rfl
    exact fun _ => hu rfl

theorem unescape_plain {c : Nat} (hc : ¬(c < 32 ∨ c = 92)) (rest : Text) :
    unescape (c :: rest) = (unescape rest).map (c :: ·) := by
  rw [unescape, if_neg hc]
  · rintro a b c' d rest' rfl
    exact fun _ => hc (.inr rfl)
  · rintro e rest' rfl
    exact fun _ => hc (.inr rfl)

theorem unescape_escapeCode {c : Nat} (hc : c < 0x110000) (rest : Text) :
    unescape (escapeCode c ++ rest) = (unescape rest).map (codeUnits c ++ ·) := by
  unfold escapeCode
  split_ifs with h1 h2 h3 h4 h5 h6 h7 h8
  · rw [codeUnits, if_pos (by omega)]
    exact unescape_short (by rw [shortEscape, if_pos (by omega)]) (by omega) rest
  · subst h2
    exact unescape_short rfl (by decide) rest
  · subst h3
    exact unescape_short rfl (by decide) rest
  · subst h4
    exact unescape_short rfl (by decide) rest
  · subst h5
    exact unescape_short rfl (by decide) rest
  · subst h6
    exact unescape_short rfl (by decide) rest
  · rw [codeUnits, if_pos (by omega)]
    exact unescape_plain (by omega) rest
  · rw [codeUnits, if_pos h8]
    exact unescape_unitEscape h8 rest
  · rw [codeUnits, if_neg h8, List.append_assoc, unescape_unitEscape (by omega),
      unescape_unitEscape (by omega), Option.map_map]
    rfl

theorem unescape_escaped {t : Text} (ht : ∀ c ∈ t, c < 0x110000) :
    unescape (escaped t) = some (t.flatMap codeUnits) := by
  induction t with
  | nil => rfl
  | cons c t ih =>
    rw [escaped, List.flatMap_cons, unescape_escapeCode (ht c List.mem_cons_self), ← escaped,
      ih fun d hd => ht d (List.mem_cons_of_mem c hd)]
    rfl

/-- The code units of a text begin with a low surrogate only where the text does. -/
theorem isLow_head_codeUnits {t : Text} {d : Nat} (ht : ∀ c ∈ t, c < 0x110000)
    (h : (t.flatMap codeUnits).head? = some d)
    (hd : isLow d = true) : t.head? = some d := by
  cases t with
  | nil => cases h
  | cons c t =>
    have hc := ht c List.mem_cons_self
    rw [List.flatMap_cons, codeUnits] at h
    simp only [isLow, Bool.and_eq_true, decide_eq_true_eq] at hd
    split_ifs at h
    · exact h
    · have heq := Option.some.inj h
      omega

theorem joinPairs_codeUnits {t : Text} (ht : IsText t) : joinPairs (t.flatMap codeUnits) = t := by
  obtain ⟨hjoined, hrange⟩ := ht
  induction t with
  | nil => rfl
  | cons c t ih =>
    have ih := ih hjoined.tail fun d hd => hrange d (List.mem_cons_of_mem c hd)
    have hc := hrange c List.mem_cons_self
    rw [List.flatMap_cons, codeUnits]
    split_ifs with hbasic
    · cases hunits : t.flatMap codeUnits with
      | nil =>
        rw [hunits] at ih
        rw [← ih]
        rfl
      | cons d units =>
        have hpair : ¬(isHigh c = true ∧ isLow d = true) := by
          rintro ⟨hhigh, hlow⟩
          have hhead := isLow_head_codeUnits
            (fun e he => hrange e (List.mem_cons_of_mem c he)) (by rw [hunits]; rfl)
            hlow
          obtain ⟨rest, rfl⟩ : ∃ rest, t = d :: rest := List.head?_eq_some_iff.mp hhead
          exact (List.isChain_cons_cons.mp hjoined).1 ⟨hhigh, hlow⟩
        rw [List.singleton_append, joinPairs, if_neg (by simpa using hpair), ← hunits, ih]
    · have hvalue : 0x10000 + (0xD800 + (c - 0x10000) / 0x400 - 0xD800) * 0x400
          + (0xDC00 + (c - 0x10000) % 0x400 - 0xDC00) = c := by omega
      rw [List.cons_append, List.singleton_append, joinPairs, if_pos, ih, hvalue]
      · simp only [isHigh, isLow, Bool.and_eq_true, decide_eq_true_eq]
        omega

theorem readString_literal {t : Text} (ht : IsText t) (rest : Text) :
    readString (escaped t ++ 34 :: rest) = some (t, rest) := by
  simp only [readString, closing_escaped, unescape_escaped ht.2, joinPairs_codeUnits ht,
    Option.bind_eq_bind, Option.bind_some]

/-! ## What is read holds no pair -/

theorem head_joinPairs {c : Nat} {rest : List Nat} {d : Nat}
    (h : (joinPairs (c :: rest)).head? = some d) (hd : isLow d = true) : d = c := by
  cases rest with
  | nil => exact (Option.some.inj h).symm
  | cons e rest =>
    rw [joinPairs] at h
    simp only [isLow, Bool.and_eq_true, decide_eq_true_eq] at hd
    split_ifs at h
    · have heq := Option.some.inj h
      omega
    · exact (Option.some.inj h).symm

theorem joined_joinPairs (units : List Nat) : Joined (joinPairs units) := by
  fun_induction joinPairs units with
  | case1 => exact .nil
  | case2 c => exact .singleton c
  | case3 c d rest hpair ih =>
    refine List.isChain_cons.mpr ⟨fun e he => ?_, ih⟩
    rintro ⟨hhigh, -⟩
    simp only [isHigh, Bool.and_eq_true, decide_eq_true_eq] at hhigh
    omega
  | case4 c d rest hpair ih =>
    refine List.isChain_cons.mpr ⟨fun e he => ?_, ih⟩
    rintro ⟨hhigh, hlow⟩
    obtain rfl := head_joinPairs he hlow
    exact hpair (by rw [hhigh, hlow]; rfl)

theorem joined_of_readString {t content after : Text} (h : readString t = some (content, after)) :
    Joined content := by
  simp only [readString, Option.bind_eq_bind, Option.bind_eq_some_iff, Option.some.injEq,
    Prod.mk.injEq] at h
  obtain ⟨_, -, units, -, rfl, -⟩ := h
  exact joined_joinPairs units

/-! ## A number read back -/

/-- The digits of a whole part. -/
inductive IsWhole : Text → Prop
  | zero : IsWhole [48]
  | digits {d : Nat} {ds : Text} (hzero : d ≠ 48) (hd : isDigit d = true)
      (hds : ∀ c ∈ ds, isDigit c = true) : IsWhole (d :: ds)

inductive IsFraction : Text → Prop
  | none : IsFraction []
  | digits {d : Nat} {ds : Text} (hd : isDigit d = true) (hds : ∀ c ∈ ds, isDigit c = true) :
      IsFraction (46 :: d :: ds)

inductive IsExponent : Text → Prop
  | none : IsExponent []
  | digits {e d : Nat} {sign ds : Text} (he : e = 69 ∨ e = 101)
      (hsign : sign = [] ∨ sign = [43] ∨ sign = [45]) (hd : isDigit d = true)
      (hds : ∀ c ∈ ds, isDigit c = true) : IsExponent (e :: (sign ++ d :: ds))

/-- A finite number as it is written. -/
inductive IsNumber : Text → Prop
  | intro {minus whole fraction exponent : Text} (hminus : minus = [] ∨ minus = [45])
      (hwhole : IsWhole whole) (hfraction : IsFraction fraction)
      (hexponent : IsExponent exponent) : IsNumber (minus ++ whole ++ fraction ++ exponent)

/-- A number that stands in front of the text ends there. -/
def Ends (t : Text) : Prop := ∀ c ∈ t.head?, isDigit c = false ∧ c ≠ 46 ∧ c ≠ 69 ∧ c ≠ 101

theorem takeWhile_digits {ds rest : Text} (hds : ∀ c ∈ ds, isDigit c = true)
    (hrest : ∀ c ∈ rest.head?, isDigit c = false) : (ds ++ rest).takeWhile isDigit = ds := by
  cases rest with
  | nil => rw [List.append_nil, List.takeWhile_eq_self_iff.mpr hds]
  | cons c rest => exact takeWhile_append_stop hds (hrest c rfl) rest

theorem dropWhile_digits {ds rest : Text} (hds : ∀ c ∈ ds, isDigit c = true)
    (hrest : ∀ c ∈ rest.head?, isDigit c = false) : (ds ++ rest).dropWhile isDigit = rest := by
  cases rest with
  | nil => rw [List.append_nil, List.dropWhile_eq_nil_iff.mpr hds]
  | cons c rest => exact dropWhile_append_stop hds (hrest c rfl) rest

theorem readWhole_append {whole rest : Text} (hwhole : IsWhole whole)
    (hrest : ∀ c ∈ rest.head?, isDigit c = false) : readWhole (whole ++ rest) = some (whole, rest) := by
  cases hwhole with
  | zero => rfl
  | digits hzero hd hds =>
    rw [List.cons_append, readWhole, if_neg hzero, if_pos hd, takeWhile_digits hds hrest,
      dropWhile_digits hds hrest]

theorem readFraction_append {fraction rest : Text} (hfraction : IsFraction fraction)
    (hrest : ∀ c ∈ rest.head?, isDigit c = false ∧ c ≠ 46) :
    readFraction (fraction ++ rest) = (fraction, rest) := by
  cases hfraction with
  | none =>
    rw [List.nil_append, readFraction]
    rintro d rest' rfl
    exact (hrest 46 rfl).2 rfl
  | digits hd hds =>
    rw [List.cons_append, List.cons_append, readFraction, if_pos hd,
      takeWhile_digits hds fun c hc => (hrest c hc).1,
      dropWhile_digits hds fun c hc => (hrest c hc).1]

theorem readSign_append {sign rest : Text} {d : Nat}
    (hsign : sign = [] ∨ sign = [43] ∨ sign = [45]) (hd : isDigit d = true) :
    readSign (sign ++ d :: rest) = (sign, d :: rest) := by
  have hplain : ¬(d = 43 ∨ d = 45) := by
    simp only [isDigit, Bool.and_eq_true, decide_eq_true_eq] at hd
    omega
  obtain rfl | rfl | rfl := hsign
  · rw [List.nil_append, readSign, if_neg hplain]
  · rfl
  · rfl

theorem readExponent_append {exponent rest : Text} (hexponent : IsExponent exponent)
    (hrest : Ends rest) : readExponent (exponent ++ rest) = (exponent, rest) := by
  cases hexponent with
  | none =>
    cases rest with
    | nil => rfl
    | cons c rest =>
      obtain ⟨-, -, hbig, hsmall⟩ := hrest c rfl
      simp only [List.nil_append, readExponent, hbig, hsmall, or_self, false_and, if_false]
  | @digits e d sign ds he hsign hd hds =>
    have htake : (d :: (ds ++ rest)).takeWhile isDigit = d :: ds :=
      takeWhile_digits (List.forall_mem_cons.mpr ⟨hd, hds⟩) fun c hc => (hrest c hc).1
    have hdrop : (d :: (ds ++ rest)).dropWhile isDigit = rest :=
      dropWhile_digits (List.forall_mem_cons.mpr ⟨hd, hds⟩) fun c hc => (hrest c hc).1
    simp only [List.cons_append, List.append_assoc, readExponent, readSign_append hsign hd, htake,
      hdrop]
    rw [if_pos ⟨he, List.cons_ne_nil _ _⟩]

theorem head_exponent {exponent rest : Text} (hexponent : IsExponent exponent)
    (hrest : Ends rest) : ∀ c ∈ (exponent ++ rest).head?, isDigit c = false ∧ c ≠ 46 := by
  intro c hc
  cases hexponent with
  | none => exact ⟨(hrest c hc).1, (hrest c hc).2.1⟩
  | digits he =>
    obtain rfl : _ = c := Option.some.inj hc
    obtain rfl | rfl := he <;> decide

theorem head_fraction {fraction rest : Text} (hfraction : IsFraction fraction)
    (hrest : ∀ c ∈ rest.head?, isDigit c = false) :
    ∀ c ∈ (fraction ++ rest).head?, isDigit c = false := by
  intro c hc
  cases hfraction with
  | none => exact hrest c hc
  | digits =>
    obtain rfl : 46 = c := Option.some.inj hc
    decide

theorem IsWhole.head {whole : Text} (hwhole : IsWhole whole) :
    ∃ d rest, whole = d :: rest ∧ isDigit d = true := by
  cases hwhole with
  | zero => exact ⟨48, [], rfl, by decide⟩
  | digits _ hd => exact ⟨_, _, rfl, hd⟩

theorem readNumber_append {token rest : Text} (htoken : IsNumber token) (hrest : Ends rest) :
    readNumber (token ++ rest) = some (token, rest) := by
  obtain ⟨hminus, hwhole, hfraction, hexponent⟩ := htoken
  rename_i minus whole fraction exponent
  have hafter := head_exponent hexponent hrest
  have hreadWhole := readWhole_append hwhole
    (head_fraction hfraction fun c hc => (hafter c hc).1)
  have hreadFraction := readFraction_append hfraction hafter
  have hreadExponent := readExponent_append hexponent hrest
  obtain ⟨d, ds, hwholeEq, hd⟩ := hwhole.head
  have hsign : d ≠ 45 := by
    rintro rfl
    cases hd
  obtain rfl | rfl := hminus
  · have hhead : (whole ++ (fraction ++ (exponent ++ rest))).head? ≠ some 45 := by
      rw [hwholeEq]
      exact fun h => hsign (Option.some.inj h)
    simp only [readNumber, List.nil_append, List.append_assoc, if_neg hhead, List.length_nil,
      List.drop_zero, hreadWhole, hreadFraction, hreadExponent, Option.bind_eq_bind,
      Option.bind_some]
  · simp only [readNumber, List.append_assoc, List.cons_append, List.nil_append, List.head?_cons,
      if_true, List.length_cons, List.length_nil, Nat.zero_add, List.drop_succ_cons, List.drop_zero,
      hreadWhole, hreadFraction, hreadExponent, Option.bind_eq_bind, Option.bind_some]

/-- A number begins with a digit, or with a sign and a digit. -/
theorem IsNumber.head {token : Text} (htoken : IsNumber token) :
    ∃ d rest, isDigit d = true ∧ (token = d :: rest ∨ token = 45 :: d :: rest) := by
  obtain ⟨hminus, hwhole, -, -⟩ := htoken
  obtain ⟨d, ds, rfl, hd⟩ := hwhole.head
  obtain rfl | rfl := hminus
  · exact ⟨d, _, hd, .inl rfl⟩
  · exact ⟨d, _, hd, .inr rfl⟩

theorem readAtom_number {token rest : Text} (htoken : IsNumber token) (hrest : Ends rest) :
    readAtom (token ++ rest) = some (num token, rest) := by
  have hword : (constants.find? fun word => word.1.isPrefixOf (token ++ rest)) = none := by
    obtain ⟨d, ds, hd, rfl | rfl⟩ := htoken.head
    all_goals
      simp only [isDigit, Bool.and_eq_true, decide_eq_true_eq] at hd
      rw [List.find?_eq_none]
      intro word hword
      simp only [constants, List.mem_cons, List.not_mem_nil, or_false] at hword
      rcases hword with rfl | rfl | rfl | rfl | rfl | rfl <;>
        simp [text, List.isPrefixOf] <;> omega
  rw [readAtom, hword]
  simp only [readNumber_append htoken hrest, Option.map_some]

/-! ## A tree read back -/

mutual

/-- `json.dumps`, with what stands behind a comma and behind a colon. -/
def dumpsWith (gap : Text) : JsonTree → Text
  | null => text "null"
  | bool true => text "true"
  | bool false => text "false"
  | num token => token
  | str content => literal content
  | arr items => 91 :: ((44 :: gap).intercalate (dumpsItemsWith gap items) ++ [93])
  | obj fields => 123 :: ((44 :: gap).intercalate (dumpsFieldsWith gap fields) ++ [125])

def dumpsItemsWith (gap : Text) : List JsonTree → List Text
  | [] => []
  | item :: rest => dumpsWith gap item :: dumpsItemsWith gap rest

def dumpsFieldsWith (gap : Text) : List (Text × JsonTree) → List Text
  | [] => []
  | (key, value) :: rest =>
    (literal key ++ 58 :: (gap ++ dumpsWith gap value)) :: dumpsFieldsWith gap rest

end

mutual

/-- Every text and every key satisfies a condition. -/
def AllTexts (P : Text → Prop) : JsonTree → Prop
  | null => True
  | bool _ => True
  | num _ => True
  | str content => P content
  | arr items => AllTextsItems P items
  | obj fields => AllTextsFields P fields

def AllTextsItems (P : Text → Prop) : List JsonTree → Prop
  | [] => True
  | item :: rest => AllTexts P item ∧ AllTextsItems P rest

def AllTextsFields (P : Text → Prop) : List (Text × JsonTree) → Prop
  | [] => True
  | (key, value) :: rest => (P key ∧ AllTexts P value) ∧ AllTextsFields P rest

end

mutual

/-- What can be written: finite numbers, and one member for a key. -/
def Printable : JsonTree → Prop
  | null => True
  | bool _ => True
  | num token => IsNumber token
  | str _ => True
  | arr items => PrintableItems items
  | obj fields => (fields.map Prod.fst).Nodup ∧ PrintableFields fields

def PrintableItems : List JsonTree → Prop
  | [] => True
  | item :: rest => Printable item ∧ PrintableItems rest

def PrintableFields : List (Text × JsonTree) → Prop
  | [] => True
  | (_, value) :: rest => Printable value ∧ PrintableFields rest

end

section

variable {gap : Text}

theorem literal_append (t rest : Text) :
    literal t ++ rest = 34 :: (escaped t ++ 34 :: rest) := by
  simp [literal, escaped]

theorem ends_cons {c : Nat} (rest : Text) (hc : c = 44 ∨ c = 93 ∨ c = 125) : Ends (c :: rest) := by
  intro d hd
  cases hd
  obtain rfl | rfl | rfl := hc <;> decide

/-- The first character of a value. -/
theorem dumpsWith_head (gap : Text) {v : JsonTree} (hv : Printable v) :
    ∃ c t, dumpsWith gap v = c :: t ∧ isJsonSpace c = false ∧ c ≠ 93 := by
  cases v with
  | null => exact ⟨110, text "ull", rfl, by decide⟩
  | bool value =>
    cases value with
    | true => exact ⟨116, text "rue", rfl, by decide⟩
    | false => exact ⟨102, text "alse", rfl, by decide⟩
  | num token =>
    obtain ⟨d, t, hd, rfl | rfl⟩ := IsNumber.head hv
    · simp only [isDigit, Bool.and_eq_true, decide_eq_true_eq] at hd
      refine ⟨d, t, rfl, ?_, by omega⟩
      simp only [isJsonSpace, Bool.or_eq_false_iff, beq_eq_false_iff_ne]
      omega
    · exact ⟨45, d :: t, rfl, by decide⟩
  | str content => exact ⟨34, _, rfl, by decide⟩
  | arr items => exact ⟨91, _, rfl, by decide⟩
  | obj fields => exact ⟨123, _, rfl, by decide⟩

theorem skipSpace_cons {c : Nat} (hc : isJsonSpace c = false) (t : Text) :
    skipSpace (c :: t) = c :: t := by
  rw [skipSpace, List.dropWhile_cons_of_neg (by simp [hc])]

theorem skipSpace_gap (hgap : ∀ c ∈ gap, isJsonSpace c = true) {c : Nat}
    (hc : isJsonSpace c = false) (t : Text) : skipSpace (gap ++ c :: t) = c :: t :=
  dropWhile_append_stop hgap hc t

theorem readValue_arr {fuel c : Nat} {rest t : Text} (h : skipSpace rest = c :: t) (hc : c ≠ 93) :
    readValue (fuel + 1) (91 :: rest)
      = (readItems fuel (c :: t)).map fun (items, after) => (arr items, after) := by
  rw [readValue, if_neg (by decide), if_pos rfl, h]
  split
  · next heq => exact absurd (List.cons.inj heq).1 hc
  · rfl

theorem readValue_obj {fuel c : Nat} {rest t : Text} (h : skipSpace rest = c :: t) (hc : c ≠ 125) :
    readValue (fuel + 1) (123 :: rest)
      = (readFields fuel (c :: t)).map fun (fields, after) => (obj (members fields), after) := by
  rw [readValue, if_neg (by decide), if_neg (by decide), if_pos rfl, h]
  split
  · next heq => exact absurd (List.cons.inj heq).1 hc
  · rfl

theorem members_of_nodup {fields : List (Text × JsonTree)} (h : (fields.map Prod.fst).Nodup) :
    members fields = fields := by
  induction fields with
  | nil => rfl
  | cons field fields ih =>
    obtain ⟨key, value⟩ := field
    obtain ⟨hkey, hrest⟩ := List.nodup_cons.mp h
    have hnone : fields.lookup key = none := by
      refine List.lookup_eq_none_iff.mpr fun p hp => ?_
      rw [bne_iff_ne]
      rintro rfl
      exact hkey (List.mem_map.mpr ⟨p, hp, rfl⟩)
    have hkeep : fields.filter (·.1 != key) = fields := by
      refine List.filter_eq_self.mpr fun p hp => ?_
      rw [bne_iff_ne]
      rintro rfl
      exact hkey (List.mem_map.mpr ⟨p, hp, rfl⟩)
    rw [members, ih hrest, hnone, hkeep, Option.getD_none]

theorem readItems_last {fuel : Nat} {t rest : Text} {item : JsonTree}
    (h : readValue fuel t = some (item, 93 :: rest)) :
    readItems (fuel + 1) t = some ([item], rest) := by
  rw [readItems, h]
  rfl

theorem readItems_more {fuel : Nat} {t rest : Text} {item : JsonTree}
    (h : readValue fuel t = some (item, 44 :: rest)) :
    readItems (fuel + 1) t
      = (readItems fuel (skipSpace rest)).map fun (items, after) => (item :: items, after) := by
  rw [readItems, h]
  rfl

/-- A key, a colon and the value. -/
theorem readFields_cons {fuel : Nat} {key rest after : Text} {value : JsonTree}
    (hkey : IsText key) (hgap : ∀ c ∈ gap, isJsonSpace c = true)
    (hhead : ∃ c t, rest = c :: t ∧ isJsonSpace c = false)
    (h : readValue fuel rest = some (value, after)) :
    readFields (fuel + 1) (literal key ++ 58 :: (gap ++ rest)) =
      match skipSpace after with
      | 44 :: after => (readFields fuel (skipSpace after)).map fun (fields, after) =>
        ((key, value) :: fields, after)
      | 125 :: after => some ([(key, value)], after)
      | _ => none := by
  obtain ⟨c, t, rfl, hc⟩ := hhead
  rw [literal_append, readFields, if_neg (by simp), readString_literal hkey, Option.bind_eq_bind,
    Option.bind_some]
  simp only [skipSpace_cons (show isJsonSpace 58 = false by decide), skipSpace_gap hgap hc, h]
  rfl

theorem intercalate_cons_of_ne_nil {sep x : Text} {xs : List Text} (h : xs ≠ []) :
    sep.intercalate (x :: xs) = x ++ sep ++ sep.intercalate xs := by
  obtain ⟨y, ys, rfl⟩ := List.exists_cons_of_ne_nil h
  exact List.intercalate_cons_cons

theorem dumpsItemsWith_ne_nil {items : List JsonTree} (h : items ≠ []) :
    dumpsItemsWith gap items ≠ [] := by
  obtain ⟨item, items, rfl⟩ := List.exists_cons_of_ne_nil h
  exact List.cons_ne_nil _ _

theorem dumpsFieldsWith_ne_nil {fields : List (Text × JsonTree)} (h : fields ≠ []) :
    dumpsFieldsWith gap fields ≠ [] := by
  obtain ⟨field, fields, rfl⟩ := List.exists_cons_of_ne_nil h
  exact List.cons_ne_nil _ _

/-- The first value of a sequence. -/
theorem items_head (gap : Text) {items : List JsonTree} (hitems : PrintableItems items) (hne : items ≠ [])
    (after : Text) :
    ∃ c t, (44 :: gap).intercalate (dumpsItemsWith gap items) ++ after = c :: t
      ∧ isJsonSpace c = false ∧ c ≠ 93 := by
  obtain ⟨item, items, rfl⟩ := List.exists_cons_of_ne_nil hne
  obtain ⟨c, t, htext, hspace, hclose⟩ := dumpsWith_head gap hitems.1
  cases items with
  | nil =>
    refine ⟨c, t ++ after, ?_, hspace, hclose⟩
    rw [dumpsItemsWith, dumpsItemsWith, List.intercalate_singleton, htext, List.cons_append]
  | cons item' items =>
    refine ⟨c, t ++ ((44 :: gap) ++ (44 :: gap).intercalate (dumpsItemsWith gap (item' :: items)))
      ++ after, ?_, hspace, hclose⟩
    rw [dumpsItemsWith, dumpsItemsWith, List.intercalate_cons_cons, htext, ← dumpsItemsWith]
    simp only [List.cons_append, List.append_assoc]

/-- The first key of a sequence. -/
theorem fields_head (gap : Text) {fields : List (Text × JsonTree)} (hne : fields ≠ []) (after : Text) :
    ∃ t, (44 :: gap).intercalate (dumpsFieldsWith gap fields) ++ after = 34 :: t := by
  obtain ⟨⟨key, value⟩, fields, rfl⟩ := List.exists_cons_of_ne_nil hne
  cases fields with
  | nil =>
    rw [dumpsFieldsWith, dumpsFieldsWith, List.intercalate_singleton, literal]
    exact ⟨_, rfl⟩
  | cons field fields =>
    rw [dumpsFieldsWith, dumpsFieldsWith, List.intercalate_cons_cons, literal]
    exact ⟨_, rfl⟩

mutual

/-- What is written is read back, whatever follows it. -/
theorem readValue_dumpsWith (hgap : ∀ c ∈ gap, isJsonSpace c = true) (v : JsonTree)
    (hv : Printable v) (htexts : AllTexts IsText v) {rest : Text} (hrest : Ends rest) {fuel : Nat}
    (hfuel : (dumpsWith gap v).length < fuel) :
    readValue fuel (dumpsWith gap v ++ rest) = some (v, rest) := by
  obtain ⟨fuel, rfl⟩ : ∃ n, fuel = n + 1 := ⟨fuel - 1, by omega⟩
  cases v with
  | null => rfl
  | bool value => cases value <;> rfl
  | num token =>
    have hread := readAtom_number hv hrest
    obtain ⟨d, t, hd, rfl | rfl⟩ := IsNumber.head hv
    · simp only [isDigit, Bool.and_eq_true, decide_eq_true_eq] at hd
      rw [dumpsWith, List.cons_append, readValue, if_neg (by omega), if_neg (by omega),
        if_neg (by omega)]
      exact hread
    · exact hread
  | str content =>
    rw [dumpsWith, literal_append, readValue, if_pos rfl, readString_literal htexts]
    rfl
  | arr items =>
    simp only [dumpsWith, List.length_cons, List.length_append, List.length_nil] at hfuel
    rw [dumpsWith, List.cons_append, List.append_assoc]
    by_cases hne : items = []
    · subst hne
      rfl
    · obtain ⟨c, t, htext, hspace, hclose⟩ := items_head gap hv hne ([93] ++ rest)
      have hskip := (congrArg skipSpace htext).trans (skipSpace_cons hspace t)
      rw [readValue_arr hskip hclose, ← htext, List.singleton_append,
        readItems_dumps hgap items hv htexts hne rest (by omega)]
      rfl
  | obj fields =>
    simp only [dumpsWith, List.length_cons, List.length_append, List.length_nil] at hfuel
    rw [dumpsWith, List.cons_append, List.append_assoc]
    by_cases hne : fields = []
    · subst hne
      rfl
    · obtain ⟨t, htext⟩ := fields_head gap hne ([125] ++ rest)
      have hskip := (congrArg skipSpace htext).trans (skipSpace_cons (by decide) t)
      rw [readValue_obj hskip (by decide), ← htext, List.singleton_append,
        readFields_dumps hgap fields hv.2 htexts hne rest (by omega)]
      simp only [Option.map_some, members_of_nodup hv.1]

theorem readItems_dumps (hgap : ∀ c ∈ gap, isJsonSpace c = true) (items : List JsonTree)
    (hv : PrintableItems items) (htexts : AllTextsItems IsText items) (hne : items ≠ [])
    (rest : Text) {fuel : Nat}
    (hfuel : ((44 :: gap).intercalate (dumpsItemsWith gap items)).length + 1 < fuel) :
    readItems fuel ((44 :: gap).intercalate (dumpsItemsWith gap items) ++ 93 :: rest)
      = some (items, rest) := by
  obtain ⟨fuel, rfl⟩ : ∃ n, fuel = n + 1 := ⟨fuel - 1, by omega⟩
  cases items with
  | nil => exact absurd rfl hne
  | cons item items =>
    by_cases hmore : items = []
    · subst hmore
      simp only [dumpsItemsWith, List.intercalate_singleton] at hfuel ⊢
      exact readItems_last
        (readValue_dumpsWith hgap item hv.1 htexts.1 (ends_cons rest (by decide)) (by omega))
    · obtain ⟨c, t, htext, hspace, -⟩ := items_head gap hv.2 hmore (93 :: rest)
      rw [dumpsItemsWith, intercalate_cons_of_ne_nil (dumpsItemsWith_ne_nil hmore)] at hfuel ⊢
      simp only [List.length_append, List.length_cons] at hfuel
      rw [List.append_assoc, List.append_assoc, List.cons_append,
        readItems_more
          (readValue_dumpsWith hgap item hv.1 htexts.1 (ends_cons _ (by decide)) (by omega)),
        htext, skipSpace_gap hgap hspace, ← htext,
        readItems_dumps hgap items hv.2 htexts.2 hmore rest (by omega)]
      rfl

theorem readFields_dumps (hgap : ∀ c ∈ gap, isJsonSpace c = true)
    (fields : List (Text × JsonTree)) (hv : PrintableFields fields)
    (htexts : AllTextsFields IsText fields) (hne : fields ≠ []) (rest : Text) {fuel : Nat}
    (hfuel : ((44 :: gap).intercalate (dumpsFieldsWith gap fields)).length + 1 < fuel) :
    readFields fuel ((44 :: gap).intercalate (dumpsFieldsWith gap fields) ++ 125 :: rest)
      = some (fields, rest) := by
  obtain ⟨fuel, rfl⟩ : ∃ n, fuel = n + 1 := ⟨fuel - 1, by omega⟩
  cases fields with
  | nil => exact absurd rfl hne
  | cons field fields =>
    obtain ⟨key, value⟩ := field
    obtain ⟨hvalue, hfields⟩ := hv
    obtain ⟨⟨hkey, htext⟩, htexts⟩ := htexts
    have hhead : ∀ after, ∃ c t, dumpsWith gap value ++ after = c :: t
        ∧ isJsonSpace c = false := by
      intro after
      obtain ⟨c, t, hvalueText, hspace, -⟩ := dumpsWith_head gap hvalue
      exact ⟨c, t ++ after, by rw [hvalueText, List.cons_append], hspace⟩
    by_cases hmore : fields = []
    · subst hmore
      simp only [dumpsFieldsWith, List.intercalate_singleton, List.length_append,
        List.length_cons] at hfuel ⊢
      rw [List.append_assoc, List.cons_append, List.append_assoc,
        readFields_cons hkey hgap (hhead _)
          (readValue_dumpsWith hgap value hvalue htext (ends_cons rest (by decide)) (by omega))]
      rfl
    · obtain ⟨t, hnext⟩ := fields_head gap hmore (125 :: rest)
      rw [dumpsFieldsWith, intercalate_cons_of_ne_nil (dumpsFieldsWith_ne_nil hmore)] at hfuel ⊢
      simp only [List.length_append, List.length_cons] at hfuel
      rw [List.append_assoc, List.append_assoc, List.cons_append, List.append_assoc,
        List.cons_append, List.append_assoc,
        readFields_cons hkey hgap (hhead _)
          (readValue_dumpsWith hgap value hvalue htext (ends_cons _ (by decide)) (by omega)),
        hnext]
      simp only [skipSpace_cons (show isJsonSpace 44 = false by decide),
        skipSpace_gap hgap (show isJsonSpace 34 = false by decide)]
      rw [← hnext, readFields_dumps hgap fields hfields htexts hmore rest (by omega)]
      rfl

end

/-- `json.loads` reads back what `json.dumps` writes. -/
theorem loads_dumpsWith (hgap : ∀ c ∈ gap, isJsonSpace c = true) {v : JsonTree}
    (hv : Printable v) (htexts : AllTexts IsText v) : loads (dumpsWith gap v) = some v := by
  obtain ⟨c, t, htext, hspace, -⟩ := dumpsWith_head gap hv
  have hskip : skipSpace (dumpsWith gap v) = dumpsWith gap v ++ [] := by
    rw [htext, skipSpace_cons hspace, List.append_nil]
  have hends : Ends [] := fun c hc => nomatch hc
  rw [loads, hskip, readValue_dumpsWith hgap v hv htexts hends (Nat.lt_succ_self _)]
  rfl

end

mutual

theorem AllTexts.and {P Q : Text → Prop} (v : JsonTree) (hP : AllTexts P v) (hQ : AllTexts Q v) :
    AllTexts (fun t => P t ∧ Q t) v := by
  cases v with
  | str => exact ⟨hP, hQ⟩
  | arr items => exact AllTextsItems.and items hP hQ
  | obj fields => exact AllTextsFields.and fields hP hQ
  | _ => trivial

theorem AllTextsItems.and {P Q : Text → Prop} (items : List JsonTree)
    (hP : AllTextsItems P items) (hQ : AllTextsItems Q items) :
    AllTextsItems (fun t => P t ∧ Q t) items := by
  cases items with
  | nil => trivial
  | cons item items => exact ⟨AllTexts.and item hP.1 hQ.1, AllTextsItems.and items hP.2 hQ.2⟩

theorem AllTextsFields.and {P Q : Text → Prop} (fields : List (Text × JsonTree))
    (hP : AllTextsFields P fields) (hQ : AllTextsFields Q fields) :
    AllTextsFields (fun t => P t ∧ Q t) fields := by
  cases fields with
  | nil => trivial
  | cons field fields =>
    obtain ⟨key, value⟩ := field
    exact ⟨⟨⟨hP.1.1, hQ.1.1⟩, AllTexts.and value hP.1.2 hQ.1.2⟩,
      AllTextsFields.and fields hP.2 hQ.2⟩

end

/-! ## No tree that is read holds a pair -/

theorem allTexts_of_readAtom {P : Text → Prop} {t after : Text} {v : JsonTree}
    (h : readAtom t = some (v, after)) : AllTexts P v := by
  rw [readAtom] at h
  split at h
  · next word hword =>
    have hmem := List.mem_of_find?_eq_some hword
    cases h
    simp only [constants, List.mem_cons, List.not_mem_nil, or_false] at hmem
    rcases hmem with rfl | rfl | rfl | rfl | rfl | rfl <;> trivial
  · obtain ⟨_, -, heq⟩ := Option.map_eq_some_iff.mp h
    cases heq
    trivial

theorem allTextsFields_iff {P : Text → Prop} {fields : List (Text × JsonTree)} :
    AllTextsFields P fields ↔ ∀ p ∈ fields, P p.1 ∧ AllTexts P p.2 := by
  induction fields with
  | nil => simp [AllTextsFields]
  | cons p fields ih =>
    obtain ⟨key, value⟩ := p
    rw [AllTextsFields, ih, List.forall_mem_cons]

theorem allTexts_members {P : Text → Prop} {fields : List (Text × JsonTree)}
    (h : AllTextsFields P fields) : AllTextsFields P (members fields) := by
  induction fields with
  | nil => trivial
  | cons p fields ih =>
    obtain ⟨key, value⟩ := p
    have hrest := allTextsFields_iff.mp (ih h.2)
    rw [members]
    refine ⟨⟨h.1.1, ?_⟩, allTextsFields_iff.mpr fun p hp => hrest p (List.mem_of_mem_filter hp)⟩
    cases hlookup : (members fields).lookup key with
    | none => exact h.1.2
    | some value' =>
      obtain ⟨l₁, l₂, hsplit, -⟩ := List.lookup_eq_some_iff.mp hlookup
      exact (hrest (key, value') (by rw [hsplit]; simp)).2

/-- The reader leaves no pair of surrogates apart. -/
theorem joined_of_read (fuel : Nat) :
    (∀ t v after, readValue fuel t = some (v, after) → AllTexts Joined v)
      ∧ (∀ t items after, readItems fuel t = some (items, after) → AllTextsItems Joined items)
      ∧ ∀ t fields after, readFields fuel t = some (fields, after) →
        AllTextsFields Joined fields := by
  induction fuel with
  | zero =>
    refine ⟨fun t v after h => ?_, fun t items after h => ?_, fun t fields after h => ?_⟩
    · cases h
    · cases h
    · cases h
  | succ fuel ih =>
    obtain ⟨ihValue, ihItems, ihFields⟩ := ih
    refine ⟨fun t v after h => ?_, fun t items after h => ?_, fun t fields after h => ?_⟩
    · cases t with
      | nil => cases h
      | cons c rest =>
        rw [readValue] at h
        split_ifs at h with hquote hopen hbrace
        · obtain ⟨⟨content, _⟩, hread, heq⟩ := Option.map_eq_some_iff.mp h
          cases heq
          exact joined_of_readString hread
        · split at h
          · cases h
            trivial
          · obtain ⟨⟨items, _⟩, hread, heq⟩ := Option.map_eq_some_iff.mp h
            cases heq
            exact ihItems _ _ _ hread
        · split at h
          · cases h
            trivial
          · obtain ⟨⟨fields, _⟩, hread, heq⟩ := Option.map_eq_some_iff.mp h
            cases heq
            exact allTexts_members (ihFields _ _ _ hread)
        · exact allTexts_of_readAtom h
    · rw [readItems, Option.bind_eq_bind, Option.bind_eq_some_iff] at h
      obtain ⟨⟨item, after'⟩, hitem, h⟩ := h
      have hfirst := ihValue _ _ _ hitem
      dsimp only at h
      split at h
      · obtain ⟨⟨items', _⟩, hread, heq⟩ := Option.map_eq_some_iff.mp h
        cases heq
        exact ⟨hfirst, ihItems _ _ _ hread⟩
      · cases h
        exact ⟨hfirst, trivial⟩
      · cases h
    · cases t with
      | nil => cases h
      | cons c rest =>
        rw [readFields] at h
        split_ifs at h with hquote
        rw [Option.bind_eq_bind, Option.bind_eq_some_iff] at h
        obtain ⟨⟨key, afterKey⟩, hkey, h⟩ := h
        have hjoined := joined_of_readString hkey
        dsimp only at h
        split at h
        · rw [Option.bind_eq_bind, Option.bind_eq_some_iff] at h
          obtain ⟨⟨value, afterValue⟩, hvalue, h⟩ := h
          have hfirst := ihValue _ _ _ hvalue
          dsimp only at h
          split at h
          · obtain ⟨⟨fields', _⟩, hread, heq⟩ := Option.map_eq_some_iff.mp h
            cases heq
            exact ⟨⟨hjoined, hfirst⟩, ihFields _ _ _ hread⟩
          · cases h
            exact ⟨⟨hjoined, hfirst⟩, trivial⟩
          · cases h
        · cases h

/-- A text that is read holds no pair of surrogates. -/
theorem joined_of_loads {t : Text} {v : JsonTree} (h : loads t = some v) : AllTexts Joined v := by
  rw [loads] at h
  split at h
  · next value after hread =>
    split_ifs at h
    cases h
    exact (joined_of_read _).1 _ _ _ hread
  · cases h

/-! ## What is written is printable -/

/-- Printable ASCII, which no line break is. -/
def Plain (t : Text) : Prop := ∀ c ∈ t, 32 ≤ c ∧ c ≤ 126

instance (t : Text) : Decidable (Plain t) := inferInstanceAs (Decidable (∀ c ∈ t, _))

theorem plain_append {a b : Text} (ha : Plain a) (hb : Plain b) : Plain (a ++ b) :=
  List.forall_mem_append.mpr ⟨ha, hb⟩

theorem plain_cons {c : Nat} {t : Text} (hc : 32 ≤ c ∧ c ≤ 126) (ht : Plain t) : Plain (c :: t) :=
  List.forall_mem_cons.mpr ⟨hc, ht⟩

theorem plain_intercalate {sep : Text} {xs : List Text} (hsep : Plain sep)
    (hxs : ∀ x ∈ xs, Plain x) : Plain (sep.intercalate xs) := by
  induction xs with
  | nil => exact fun c hc => (nomatch hc)
  | cons x xs ih =>
    obtain ⟨hx, hxs⟩ := List.forall_mem_cons.mp hxs
    by_cases hne : xs = []
    · rw [hne, List.intercalate_singleton]
      exact hx
    · rw [intercalate_cons_of_ne_nil hne]
      exact plain_append (plain_append hx hsep) (ih hxs)

theorem plain_unitEscape (n : Nat) : Plain (unitEscape n) := by
  have hdigit : ∀ d < 16, 32 ≤ (Nat.digitChar d).toNat ∧ (Nat.digitChar d).toNat ≤ 126 := by
    decide
  have hmod : ∀ m, 32 ≤ (Nat.digitChar (m % 16)).toNat ∧ (Nat.digitChar (m % 16)).toNat ≤ 126 :=
    fun m => hdigit (m % 16) (Nat.mod_lt m (by omega))
  refine plain_cons (by decide) (plain_cons (by decide) ?_)
  exact plain_cons (hmod _) (plain_cons (hmod _) (plain_cons (hmod _) (plain_cons (hmod _)
    fun c hc => (nomatch hc))))

theorem plain_escapeCode (c : Nat) : Plain (escapeCode c) := by
  unfold escapeCode
  split_ifs with h1 h2 h3 h4 h5 h6 h7
  · refine plain_cons (by decide) (plain_cons ?_ fun c hc => (nomatch hc))
    omega
  · decide
  · decide
  · decide
  · decide
  · decide
  · exact plain_cons h7 fun c hc => (nomatch hc)
  · exact plain_unitEscape c
  · exact plain_append (plain_unitEscape _) (plain_unitEscape _)

theorem plain_literal (t : Text) : Plain (literal t) := by
  refine plain_cons (by decide) (plain_append ?_ (by decide))
  intro c hc
  obtain ⟨d, -, hc⟩ := List.mem_flatMap.mp hc
  exact plain_escapeCode d c hc

theorem plain_digits {ds : Text} (hds : ∀ c ∈ ds, isDigit c = true) : Plain ds := by
  intro c hc
  have hd := hds c hc
  simp only [isDigit, Bool.and_eq_true, decide_eq_true_eq] at hd
  omega

theorem plain_number {token : Text} (htoken : IsNumber token) : Plain token := by
  obtain ⟨hminus, hwhole, hfraction, hexponent⟩ := htoken
  refine plain_append (plain_append (plain_append ?_ ?_) ?_) ?_
  · obtain rfl | rfl := hminus <;> decide
  · cases hwhole with
    | zero => decide
    | digits _ hd hds => exact plain_digits (List.forall_mem_cons.mpr ⟨hd, hds⟩)
  · cases hfraction with
    | none => decide
    | digits hd hds =>
      exact plain_cons (by decide) (plain_digits (List.forall_mem_cons.mpr ⟨hd, hds⟩))
  · cases hexponent with
    | none => decide
    | digits he hsign hd hds =>
      refine plain_cons (by omega) (plain_append ?_
        (plain_digits (List.forall_mem_cons.mpr ⟨hd, hds⟩)))
      obtain rfl | rfl | rfl := hsign <;> decide

mutual

theorem plain_dumpsWith {gap : Text} (hgap : Plain gap) (v : JsonTree) (hv : Printable v) :
    Plain (dumpsWith gap v) := by
  cases v with
  | null => exact (by decide : Plain (text "null"))
  | bool value =>
    cases value with
    | true => exact (by decide : Plain (text "true"))
    | false => exact (by decide : Plain (text "false"))
  | num token => exact plain_number hv
  | str content => exact plain_literal content
  | arr items =>
    exact plain_cons (by decide) (plain_append
      (plain_intercalate (plain_cons (by decide) hgap) (plain_dumpsItemsWith hgap items hv))
      (by decide))
  | obj fields =>
    exact plain_cons (by decide) (plain_append
      (plain_intercalate (plain_cons (by decide) hgap) (plain_dumpsFieldsWith hgap fields hv.2))
      (by decide))

theorem plain_dumpsItemsWith {gap : Text} (hgap : Plain gap) (items : List JsonTree)
    (hv : PrintableItems items) : ∀ x ∈ dumpsItemsWith gap items, Plain x := by
  cases items with
  | nil => exact fun x hx => (nomatch hx)
  | cons item items =>
    rw [dumpsItemsWith, List.forall_mem_cons]
    exact ⟨plain_dumpsWith hgap item hv.1, plain_dumpsItemsWith hgap items hv.2⟩

theorem plain_dumpsFieldsWith {gap : Text} (hgap : Plain gap) (fields : List (Text × JsonTree))
    (hv : PrintableFields fields) : ∀ x ∈ dumpsFieldsWith gap fields, Plain x := by
  cases fields with
  | nil => exact fun x hx => (nomatch hx)
  | cons field fields =>
    obtain ⟨key, value⟩ := field
    rw [dumpsFieldsWith, List.forall_mem_cons]
    exact ⟨plain_append (plain_literal key)
        (plain_cons (by decide) (plain_append hgap (plain_dumpsWith hgap value hv.1))),
      plain_dumpsFieldsWith hgap fields hv.2⟩

end

end Library.JsonTree
