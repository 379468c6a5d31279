import Mathlib.Algebra.Ring.Nat
import Mathlib.Order.Monotone.Basic
import CliAgentOrchestrator.Library.Text

/-!
# Points in time, as text

A point in time is a number of microseconds from the first instant of a day (`epoch`), and a
`Moment` is one whose year has four digits. Two texts are made of it: `stored`, with a blank
between date and time and every digit of the microseconds, and `iso`, with a `T` and an offset.

Texts are compared code point by code point. Two stored texts compare as their times do
(`stored_lt_stored_iff`). A stored text against an iso text is decided by the dates alone, and on
one date the blank comes first (`stored_lt_iso_iff`).
-/

set_option autoImplicit false

namespace Library

/-! ## Numbers of a fixed width -/

/-- The last `width` decimal digits. -/
def pad : Nat → Nat → Text
  | 0, _ => []
  | width + 1, n => pad width (n / 10) ++ [48 + n % 10]

@[simp] theorem length_pad (width n : Nat) : (pad width n).length = width := by
  induction width generalizing n with
  | zero => rfl
  | succ width ih => simp [pad, ih]

theorem mem_pad {width n c : Nat} (h : c ∈ pad width n) : 48 ≤ c ∧ c < 58 := by
  induction width generalizing n with
  | zero => cases h
  | succ width ih =>
    obtain h | h := List.mem_append.mp h
    · exact ih h
    · have hlast := List.mem_singleton.mp h
      omega

/-- Behind fronts of one length the fronts decide first. -/
theorem append_lt_append_iff {a b u v : Text} (h : a.length = b.length) :
    a ++ u < b ++ v ↔ a < b ∨ a = b ∧ u < v := by
  induction a generalizing b with
  | nil =>
    obtain rfl := List.length_eq_zero_iff.mp h.symm
    simp
  | cons x a ih =>
    cases b with
    | nil => cases h
    | cons y b =>
      have hlength : a.length = b.length := Nat.succ.inj h
      simp only [List.cons_append, List.cons_lt_cons_iff, ih hlength, List.cons.injEq]
      tauto

theorem pad_inj {width n m : Nat} (hn : n < 10 ^ width) (hm : m < 10 ^ width)
    (h : pad width n = pad width m) : n = m := by
  induction width generalizing n m with
  | zero => rw [Nat.lt_one_iff.mp hn, Nat.lt_one_iff.mp hm]
  | succ width ih =>
    rw [Nat.pow_succ] at hn hm
    obtain ⟨hfront, hlast⟩ := List.append_inj h (by simp)
    have hdigit : 48 + n % 10 = 48 + m % 10 := (List.cons.inj hlast).1
    have hrest := ih (by omega) (by omega) hfront
    omega

/-- Numbers that fit the width compare as their digits do. -/
theorem pad_lt_pad_iff {width n m : Nat} (hn : n < 10 ^ width) (hm : m < 10 ^ width) :
    pad width n < pad width m ↔ n < m := by
  induction width generalizing n m with
  | zero =>
    rw [Nat.lt_one_iff.mp hn, Nat.lt_one_iff.mp hm]
    simp [pad]
  | succ width ih =>
    rw [Nat.pow_succ] at hn hm
    have hfront : pad width (n / 10) = pad width (m / 10) ↔ n / 10 = m / 10 :=
      ⟨pad_inj (by omega) (by omega), fun h => by rw [h]⟩
    rw [pad, pad, append_lt_append_iff (by simp), ih (by omega) (by omega), hfront,
      List.cons_lt_cons_iff]
    simp only [List.not_lt_nil, and_false, or_false]
    omega

/-- A number in front of something: the number decides, unless it is the same. -/
theorem pad_append_lt_iff {width n m : Nat} (hn : n < 10 ^ width) (hm : m < 10 ^ width)
    (u v : Text) : pad width n ++ u < pad width m ++ v ↔ n < m ∨ n = m ∧ u < v := by
  rw [append_lt_append_iff (by simp), pad_lt_pad_iff hn hm]
  exact or_congr_right (and_congr_left' ⟨pad_inj hn hm, fun h => by rw [h]⟩)

/-! ## Dates -/

def isLeap (year : Nat) : Bool := year % 4 == 0 && (year % 100 != 0 || year % 400 == 0)

def monthLength (year month : Nat) : Nat :=
  if month = 2 then if isLeap year then 29 else 28
  else if month = 4 ∨ month = 6 ∨ month = 9 ∨ month = 11 then 30
  else 31

theorem monthLength_le (year month : Nat) : monthLength year month ≤ 31 := by
  unfold monthLength
  split
  · split <;> omega
  · split <;> omega

theorem one_le_monthLength (year month : Nat) : 1 ≤ monthLength year month := by
  unfold monthLength
  split
  · split <;> omega
  · split <;> omega

/-- A day of the calendar. -/
structure Date where
  year : Nat
  month : Nat
  day : Nat
  month_valid : 1 ≤ month ∧ month ≤ 12
  day_valid : 1 ≤ day ∧ day ≤ monthLength year month

theorem january_valid : 1 ≤ 1 ∧ 1 ≤ 12 := by decide

def Date.next (d : Date) : Date :=
  if h : d.day < monthLength d.year d.month then
    { d with day := d.day + 1, day_valid := ⟨by omega, h⟩ }
  else if h' : d.month < 12 then
    { year := d.year, month := d.month + 1, day := 1
      month_valid := ⟨by omega, h'⟩
      day_valid := ⟨le_rfl, one_le_monthLength _ _⟩ }
  else
    { year := d.year + 1, month := 1, day := 1
      month_valid := january_valid
      day_valid := ⟨le_rfl, one_le_monthLength _ _⟩ }

/-- The place of a date among the dates. -/
def Date.rank (d : Date) : Nat := (d.year * 13 + d.month) * 32 + d.day

theorem Date.day_le (d : Date) : d.day ≤ 31 := d.day_valid.2.trans (monthLength_le _ _)

theorem Date.rank_lt_next (d : Date) : d.rank < d.next.rank := by
  have hday := d.day_le
  have hmonth := d.month_valid
  unfold Date.next
  split
  · simp only [Date.rank]
    omega
  · split
    · simp only [Date.rank]
      omega
    · simp only [Date.rank]
      omega

/-- The `n`-th day after `epoch`. -/
def dateOf (epoch : Date) (n : Nat) : Date := Date.next^[n] epoch

variable {epoch : Date}

theorem rank_dateOf_strictMono (epoch : Date) : StrictMono fun n => (dateOf epoch n).rank := by
  refine strictMono_nat_of_lt_succ fun n => ?_
  simp only [dateOf, Function.iterate_succ_apply']
  exact Date.rank_lt_next _

/-- `YYYY-MM-DD`. -/
def dateText (d : Date) : Text := pad 4 d.year ++ (45 :: pad 2 d.month ++ (45 :: pad 2 d.day))

@[simp] theorem length_dateText (d : Date) : (dateText d).length = 10 := by simp [dateText]

theorem dateText_lt_iff {d e : Date} (hd : d.year < 10000) (he : e.year < 10000) :
    dateText d < dateText e ↔ d.rank < e.rank := by
  have hmd := d.month_valid
  have hme := e.month_valid
  have hdd := d.day_le
  have hde := e.day_le
  unfold dateText Date.rank
  rw [pad_append_lt_iff (by omega) (by omega)]
  simp only [List.cons_append, List.cons_lt_cons_iff, Nat.lt_irrefl, false_or, true_and]
  rw [pad_append_lt_iff (by omega) (by omega)]
  simp only [List.cons_lt_cons_iff, Nat.lt_irrefl, false_or, true_and]
  rw [pad_lt_pad_iff (by omega) (by omega)]
  omega

/-! ## Times of day -/

/-- The microseconds of a day. -/
def dayLength : Nat := 86400000000

/-- `HH:MM:SS`. -/
def secondsText (t : Nat) : Text :=
  pad 2 (t / 3600000000) ++ (58 :: pad 2 (t / 60000000 % 60) ++ (58 :: pad 2 (t / 1000000 % 60)))

@[simp] theorem length_secondsText (t : Nat) : (secondsText t).length = 8 := by simp [secondsText]

/-- `HH:MM:SS.ffffff`. -/
def timeText (t : Nat) : Text := secondsText t ++ (46 :: pad 6 (t % 1000000))

theorem secondsText_lt_iff {t u : Nat} (ht : t < dayLength) (hu : u < dayLength) :
    secondsText t < secondsText u ↔ t / 1000000 < u / 1000000 := by
  unfold dayLength at ht hu
  unfold secondsText
  rw [pad_append_lt_iff (by omega) (by omega)]
  simp only [List.cons_append, List.cons_lt_cons_iff, Nat.lt_irrefl, false_or, true_and]
  rw [pad_append_lt_iff (by omega) (by omega)]
  simp only [List.cons_lt_cons_iff, Nat.lt_irrefl, false_or, true_and]
  rw [pad_lt_pad_iff (by omega) (by omega)]
  omega

theorem secondsText_inj {t u : Nat} (ht : t < dayLength) (hu : u < dayLength)
    (h : secondsText t = secondsText u) : t / 1000000 = u / 1000000 := by
  have hleft := (secondsText_lt_iff ht hu).not
  have hright := (secondsText_lt_iff hu ht).not
  rw [h] at hleft hright
  have hirrefl : ¬ secondsText u < secondsText u := List.lt_irrefl _
  have := hleft.mp hirrefl
  have := hright.mp hirrefl
  omega

theorem timeText_lt_iff {t u : Nat} (ht : t < dayLength) (hu : u < dayLength) :
    timeText t < timeText u ↔ t < u := by
  have hsame : secondsText t = secondsText u ↔ t / 1000000 = u / 1000000 := by
    refine ⟨secondsText_inj ht hu, fun h => ?_⟩
    have hhour : t / 3600000000 = u / 3600000000 := by omega
    have hminute : t / 60000000 = u / 60000000 := by omega
    rw [secondsText, secondsText, hhour, hminute, h]
  rw [timeText, timeText, append_lt_append_iff (by simp), secondsText_lt_iff ht hu, hsame,
    List.cons_lt_cons_iff, pad_lt_pad_iff (by omega) (by omega)]
  simp only [Nat.lt_irrefl, false_or, true_and]
  omega

/-! ## The two texts -/

/-- The years of a calendar have four digits. -/
def Representable (epoch : Date) (t : Nat) : Prop := (dateOf epoch (t / dayLength)).year < 10000

instance (epoch : Date) (t : Nat) : Decidable (Representable epoch t) :=
  inferInstanceAs (Decidable (_ < _))

/-- A point in time that has a text. -/
abbrev Moment (epoch : Date) := { t : Nat // Representable epoch t }

/-- `YYYY-MM-DD HH:MM:SS.ffffff`, as a time is stored. -/
def stored (t : Moment epoch) : Text :=
  dateText (dateOf epoch (t.1 / dayLength)) ++ 32 :: timeText (t.1 % dayLength)

/-- `isoformat()`: the microseconds are left out when there are none. -/
def iso (t : Moment epoch) : Text :=
  dateText (dateOf epoch (t.1 / dayLength)) ++ 84 :: (secondsText (t.1 % dayLength) ++
    (if t.1 % 1000000 = 0 then [] else 46 :: pad 6 (t.1 % 1000000)) ++ text "+00:00")

/-- Which date comes first is which day comes first. -/
theorem dateText_dateOf_lt_iff (t u : Moment epoch) :
    dateText (dateOf epoch (t.1 / dayLength)) < dateText (dateOf epoch (u.1 / dayLength)) ↔
      t.1 / dayLength < u.1 / dayLength := by
  rw [dateText_lt_iff t.2 u.2]
  exact (rank_dateOf_strictMono epoch).lt_iff_lt

theorem dateText_dateOf_eq_iff (t u : Moment epoch) :
    dateText (dateOf epoch (t.1 / dayLength)) = dateText (dateOf epoch (u.1 / dayLength)) ↔
      t.1 / dayLength = u.1 / dayLength := by
  constructor
  · intro h
    have hleft := (dateText_dateOf_lt_iff t u).not
    have hright := (dateText_dateOf_lt_iff u t).not
    rw [h] at hleft hright
    have := hleft.mp (List.lt_irrefl _)
    have := hright.mp (List.lt_irrefl _)
    omega
  · intro h
    rw [h]

/-- Stored texts compare as their times do. -/
theorem stored_lt_stored_iff (t u : Moment epoch) : stored t < stored u ↔ t.1 < u.1 := by
  have hpos : 0 < dayLength := by decide
  have ht := Nat.div_add_mod t.1 dayLength
  have hu := Nat.div_add_mod u.1 dayLength
  rw [stored, stored, append_lt_append_iff (by simp), dateText_dateOf_lt_iff,
    dateText_dateOf_eq_iff, List.cons_lt_cons_iff,
    timeText_lt_iff (Nat.mod_lt _ hpos) (Nat.mod_lt _ hpos)]
  simp only [Nat.lt_irrefl, false_or, true_and]
  unfold dayLength at ht hu ⊢
  omega

/-- Against an iso text a stored text comes first through the whole day. -/
theorem stored_lt_iso_iff (t u : Moment epoch) :
    stored t < iso u ↔ t.1 / dayLength ≤ u.1 / dayLength := by
  rw [stored, iso, append_lt_append_iff (by simp), dateText_dateOf_lt_iff,
    dateText_dateOf_eq_iff, List.cons_lt_cons_iff]
  omega

end Library
