import CliAgentOrchestrator.Library.Text
import Mathlib.Data.Nat.Cast.Field
import Mathlib.Tactic.FieldSimp
import Mathlib.Tactic.Linarith
import Mathlib.Tactic.Positivity
import Mathlib.Tactic.Ring

/-!
# Numerals

Whole numbers as digits, a binary floating-point number with six decimals, and texts that are
joined by a separator. A whole number's digits determine it (`digits_injective`) and hold nothing
else; a list of texts that do not hold the separator comes back from the text that joins them
(`intercalate_inj`).
-/

set_option autoImplicit false

namespace Library

/-! ## Whole numbers -/

/-- `str(n)`. -/
def digits (n : Nat) : Text := (Nat.toDigits 10 n).map Char.toNat

theorem mem_digits {n c : Nat} (h : c ∈ digits n) : 48 ≤ c ∧ c ≤ 57 := by
  obtain ⟨d, hd, rfl⟩ := List.mem_map.mp h
  have hdigit := Nat.isDigit_of_mem_toDigits (by omega) (by omega) hd
  simp only [Char.isDigit, Bool.and_eq_true, decide_eq_true_eq] at hdigit
  exact ⟨UInt32.le_iff_toNat_le.mp hdigit.1, UInt32.le_iff_toNat_le.mp hdigit.2⟩

theorem digits_ne_nil (n : Nat) : digits n ≠ [] := by
  intro h
  have hpos := Nat.length_toDigits_pos (b := 10) (n := n)
  rw [List.map_eq_nil_iff.mp h] at hpos
  exact absurd hpos (by simp)

theorem digits_injective {m n : Nat} (h : digits m = digits n) : m = n := by
  have hdigits : Nat.toDigits 10 m = Nat.toDigits 10 n :=
    List.map_injective_iff.mpr (fun _ _ => Char.toNat_inj.mp) h
  calc
    m = Nat.ofDigitChars 10 (Nat.toDigits 10 m) 0 := Nat.ofDigitChars_ten_toDigits.symm
    _ = Nat.ofDigitChars 10 (Nat.toDigits 10 n) 0 := by rw [hdigits]
    _ = n := Nat.ofDigitChars_ten_toDigits

theorem length_digits_le_iff {n k : Nat} (hk : 0 < k) : (digits n).length ≤ k ↔ n < 10 ^ k := by
  rw [digits, List.length_map]
  exact Nat.length_toDigits_le_iff (by omega) hk

/-- `str(n)` of a signed number. -/
def intText (n : Int) : Text := if n < 0 then 45 :: digits n.natAbs else digits n.natAbs

/-- The numeral of a negative number begins with a sign, which no digit is. -/
theorem intText_injective {m n : Int} (h : intText m = intText n) : m = n := by
  have hsign : ∀ (a b : Nat) (rest : Text), digits a ≠ 45 :: rest := by
    intro a _ rest heq
    have hmem : 45 ∈ digits a := by
      rw [heq]
      exact List.mem_cons_self
    have := mem_digits hmem
    omega
  unfold intText at h
  split_ifs at h with hm hn hn
  · have := digits_injective (List.cons.inj h).2
    omega
  · exact absurd h.symm (hsign _ 0 _)
  · exact absurd h (hsign _ 0 _)
  · have := digits_injective h
    omega

/-! ## Six decimals -/

/-- The whole number next to `a / b`, the even one of two that are equally near. -/
def roundHalfEven (a b : Nat) : Nat :=
  if 2 * (a % b) < b ∨ (2 * (a % b) = b ∧ a / b % 2 = 0) then a / b else a / b + 1

/-- The last six decimal places of a count of millionths. -/
def lastSix (n : Nat) : Text :=
  [n / 100000 % 10, n / 10000 % 10, n / 1000 % 10, n / 100 % 10, n / 10 % 10, n % 10].map (48 + ·)

/-- A count of millionths as a numeral with six decimals. -/
def sixPlaces (n : Nat) : Text := digits (n / 1000000) ++ 46 :: lastSix n

/-- Fractions that are equal are rounded alike. -/
theorem roundHalfEven_congr {a b c d : Nat} (hb : 0 < b) (hd : 0 < d) (h : a * d = c * b) :
    roundHalfEven a b = roundHalfEven c d := by
  have hab := Nat.div_add_mod a b
  have hcd := Nat.div_add_mod c d
  have hrb := Nat.mod_lt a hb
  have hrd := Nat.mod_lt c hd
  have hquotient : a / b = c / d := by
    rw [← Nat.mul_div_mul_right a b hd, h, Nat.mul_comm b d, Nat.mul_div_mul_right c d hb]
  have hremainder : a % b * d = c % d * b := by
    have hsplit : (b * (a / b) + a % b) * d = (d * (c / d) + c % d) * b := by rw [hab, hcd, h]
    rw [hquotient, Nat.add_mul, Nat.add_mul] at hsplit
    have hwhole : b * (c / d) * d = d * (c / d) * b := by ring
    omega
  have hless : 2 * (a % b) < b ↔ 2 * (c % d) < d := by
    calc
      2 * (a % b) < b ↔ 2 * (a % b) * d < b * d := (Nat.mul_lt_mul_right hd).symm
      _ ↔ 2 * (c % d) * b < d * b := by
        rw [Nat.mul_assoc, hremainder, ← Nat.mul_assoc, Nat.mul_comm b d]
      _ ↔ 2 * (c % d) < d := Nat.mul_lt_mul_right hb
  have htie : 2 * (a % b) = b ↔ 2 * (c % d) = d := by
    calc
      2 * (a % b) = b ↔ 2 * (a % b) * d = b * d := (Nat.mul_right_cancel_iff hd).symm
      _ ↔ 2 * (c % d) * b = d * b := by
        rw [Nat.mul_assoc, hremainder, ← Nat.mul_assoc, Nat.mul_comm b d]
      _ ↔ 2 * (c % d) = d := Nat.mul_right_cancel_iff hb
  unfold roundHalfEven
  rw [hquotient]
  simp only [hless, htie]

/-- A finite double: a fraction whose denominator is a power of two, with the sign kept apart. -/
structure FiniteFloat where
  negative : Bool
  numerator : Nat
  shift : Nat
deriving DecidableEq

/-- A double. -/
inductive PyFloat
  | finite (x : FiniteFloat)
  | inf (negative : Bool)
  | nan
deriving DecidableEq

def signText (negative : Bool) : Text := if negative then [45] else []

/-- `f"{x:.6f}"` of a finite number. -/
def FiniteFloat.fixed6 (x : FiniteFloat) : Text :=
  signText x.negative ++ sixPlaces (roundHalfEven (x.numerator * 1000000) (2 ^ x.shift))

/-- `f"{x:.6f}"`. -/
def PyFloat.fixed6 : PyFloat → Text
  | finite x => x.fixed6
  | inf negative => signText negative ++ text "inf"
  | nan => text "nan"

/-! ## The value of a number -/

namespace FiniteFloat

def value (x : FiniteFloat) : ℚ :=
  (if x.negative then -1 else 1) * (x.numerator / 2 ^ x.shift)

/-- `x.is_integer()`. -/
def isInteger (x : FiniteFloat) : Bool := x.numerator % 2 ^ x.shift = 0

/-- `int(x)`. -/
def toInt (x : FiniteFloat) : Int :=
  if x.negative then -(x.numerator / 2 ^ x.shift : Nat) else (x.numerator / 2 ^ x.shift : Nat)

variable {x y : FiniteFloat}

theorem value_of_isInteger (h : x.isInteger = true) : x.value = x.toInt := by
  have hdvd : 2 ^ x.shift ∣ x.numerator := Nat.dvd_of_mod_eq_zero (of_decide_eq_true h)
  have hquotient : ((x.numerator / 2 ^ x.shift : Nat) : ℚ) = x.numerator / 2 ^ x.shift := by
    rw [Nat.cast_div hdvd (by positivity)]
    norm_cast
  unfold value toInt
  split_ifs
  · rw [Int.cast_neg, Int.cast_natCast, hquotient, neg_one_mul]
  · rw [Int.cast_natCast, hquotient, one_mul]

theorem isInteger_of_value {n : Int} (h : x.value = n) : x.isInteger = true := by
  have hpow : (2 ^ x.shift : ℚ) ≠ 0 := by positivity
  have habs : (x.numerator : ℚ) = |(n : ℚ)| * 2 ^ x.shift := by
    have hmagnitude : (x.numerator : ℚ) / 2 ^ x.shift = |(n : ℚ)| := by
      rw [← h, value, abs_mul, abs_of_nonneg (by positivity : (0 : ℚ) ≤ x.numerator / 2 ^ x.shift)]
      split_ifs <;> simp
    rw [← hmagnitude, div_mul_cancel₀ _ hpow]
  have hnat : x.numerator = n.natAbs * 2 ^ x.shift := by
    have hcast : (x.numerator : ℚ) = ((n.natAbs * 2 ^ x.shift : Nat) : ℚ) := by
      rw [habs, Nat.cast_mul, Nat.cast_natAbs, Int.cast_abs]
      norm_cast
    exact_mod_cast hcast
  rw [isInteger, hnat]
  simp

/-- Numbers that are equal and not whole have one sign and one size. -/
theorem sign_and_size_of_value (h : x.value = y.value) (hx : x.isInteger = false) :
    x.negative = y.negative ∧ x.numerator * 2 ^ y.shift = y.numerator * 2 ^ x.shift := by
  have hx0 : 0 < x.numerator := by
    rcases Nat.eq_zero_or_pos x.numerator with hzero | hpos
    · rw [isInteger, hzero] at hx
      simp at hx
    · exact hpos
  have hxpos : (0 : ℚ) < x.numerator / 2 ^ x.shift := by positivity
  have hynonneg : (0 : ℚ) ≤ y.numerator / 2 ^ y.shift := by positivity
  unfold value at h
  have hboth : x.negative = y.negative ∧ (x.numerator : ℚ) / 2 ^ x.shift = y.numerator / 2 ^ y.shift := by
    cases hxs : x.negative <;> cases hys : y.negative <;> simp only [hxs, hys] at h
    · exact ⟨rfl, by simpa using h⟩
    · simp at h
      linarith
    · simp at h
      linarith
    · exact ⟨rfl, by simpa using h⟩
  refine ⟨hboth.1, ?_⟩
  have hcross := hboth.2
  rw [div_eq_div_iff (by positivity) (by positivity)] at hcross
  exact_mod_cast hcross

/-- The six decimals of a number that is not whole depend on its value only. -/
theorem fixed6_congr (h : x.value = y.value) (hx : x.isInteger = false) : x.fixed6 = y.fixed6 := by
  obtain ⟨hsign, hsize⟩ := sign_and_size_of_value h hx
  have hround : roundHalfEven (x.numerator * 1000000) (2 ^ x.shift)
      = roundHalfEven (y.numerator * 1000000) (2 ^ y.shift) := by
    refine roundHalfEven_congr (by positivity) (by positivity) ?_
    calc
      x.numerator * 1000000 * 2 ^ y.shift = x.numerator * 2 ^ y.shift * 1000000 := by ring
      _ = y.numerator * 2 ^ x.shift * 1000000 := by rw [hsize]
      _ = y.numerator * 1000000 * 2 ^ x.shift := by ring
  rw [fixed6, fixed6, hsign, hround]

end FiniteFloat

theorem mem_lastSix {n c : Nat} (h : c ∈ lastSix n) : 48 ≤ c ∧ c ≤ 57 := by
  simp only [lastSix, List.map_cons, List.map_nil, List.mem_cons, List.not_mem_nil, or_false] at h
  omega

theorem zero_notMem_fixed6 (x : PyFloat) : 0 ∉ x.fixed6 := by
  have hsign : ∀ negative, 0 ∉ signText negative := by decide
  intro h
  cases x with
  | finite x =>
    obtain h | h := List.mem_append.mp h
    · exact hsign x.negative h
    · obtain h | h := List.mem_append.mp h
      · have := mem_digits h
        omega
      · obtain h | h := List.mem_cons.mp h
        · omega
        · have := mem_lastSix h
          omega
  | inf negative =>
    obtain h | h := List.mem_append.mp h
    · exact hsign negative h
    · exact absurd h (by decide)
  | nan => exact absurd h (by decide)

/-! ## Joined texts -/

theorem notMem_intercalate {s c : Nat} {xs : List Text} (hc : c ≠ s) (h : ∀ x ∈ xs, c ∉ x) :
    c ∉ [s].intercalate xs := by
  intro hmem
  obtain heq | ⟨x, hx, hcx⟩ := mem_intercalate hmem
  · exact hc heq
  · exact h x hx hcx

theorem intercalate_inj {s : Nat} {xs ys : List Text} (hxs : ∀ x ∈ xs, s ∉ x)
    (hys : ∀ y ∈ ys, s ∉ y) (hx : xs ≠ []) (hy : ys ≠ [])
    (h : [s].intercalate xs = [s].intercalate ys) : xs = ys := by
  calc
    xs = ([s].intercalate xs).splitOn s := (List.splitOn_intercalate s hxs hx).symm
    _ = ([s].intercalate ys).splitOn s := by rw [h]
    _ = ys := List.splitOn_intercalate s hys hy

/-- Texts that are each followed by the separator are one sequence of bytes exactly where they are cut
into the same pieces. -/
theorem flatMap_stop_eq_iff {s : Nat} {xs ys : List Text} :
    xs.flatMap (· ++ [s]) = ys.flatMap (· ++ [s]) ↔
      xs.flatMap (List.splitOn s) = ys.flatMap (List.splitOn s) := by
  have hsplit : ∀ xs : List Text,
      (xs.flatMap (· ++ [s])).splitOn s = xs.flatMap (List.splitOn s) ++ [[]] := by
    intro xs
    induction xs with
    | nil => simp
    | cons x xs ih =>
      rw [List.flatMap_cons, List.append_assoc, List.singleton_append, List.splitOn_append_cons_self,
        ih, List.flatMap_cons, List.append_assoc]
  constructor
  · intro h
    have hpieces := hsplit xs
    rw [h, hsplit ys] at hpieces
    exact (List.append_cancel_right hpieces).symm
  · intro h
    calc
      xs.flatMap (· ++ [s]) = [s].intercalate (xs.flatMap (List.splitOn s) ++ [[]]) := by
        rw [← hsplit xs, List.intercalate_splitOn]
      _ = [s].intercalate (ys.flatMap (List.splitOn s) ++ [[]]) := by rw [h]
      _ = ys.flatMap (· ++ [s]) := by rw [← hsplit ys, List.intercalate_splitOn]

end Library
