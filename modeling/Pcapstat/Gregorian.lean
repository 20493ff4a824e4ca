import Mathlib

/-! # The Gregorian calendar

Days are numbered from the first of January 1970 on.  Years and months are segments of days: `locate` goes
from segment to segment until it has found the one that holds a day, and `before` counts the days in front of
a segment.

* Dates are numbers (`ofNumber_number`, `number_ofNumber`).
* Earlier dates have smaller numbers (`number_lt_iff`). -/

namespace Gregorian

/-! ### Segments -/

/-- How much lies in front of the segment `k`. -/
def before (len : ℕ → ℕ) : ℕ → ℕ
  | 0 => 0
  | k + 1 => before len k + len k

/-- The segment, and the place in it, that is `n` behind the start of the segment `k`. -/
def locate (len : ℕ → ℕ) : (fuel k n : ℕ) → ℕ × ℕ
  | 0, k, n => (k, n)
  | fuel + 1, k, n => if n < len k then (k, n) else locate len fuel (k + 1) (n - len k)

section segments

variable {len : ℕ → ℕ} {fuel k k' n r r' : ℕ}

theorem before_mono (h : k ≤ k') : before len k ≤ before len k' := by
  induction h with
  | refl => exact le_rfl
  | step _ ih => exact ih.trans (Nat.le_add_right _ _)

/-- Of two places the one in the earlier segment comes first. -/
theorem place_lt_of_lt (hr : r < len k) (h : k < k') : before len k + r < before len k' + r' := by
  have hnext : before len k + len k ≤ before len k' := before_mono h
  omega

theorem place_lt_iff (hr : r < len k) (hr' : r' < len k') :
    before len k + r < before len k' + r' ↔ k < k' ∨ k = k' ∧ r < r' := by
  constructor
  · intro h
    rcases lt_trichotomy k k' with hlt | rfl | hgt
    · exact .inl hlt
    · exact .inr ⟨rfl, Nat.lt_of_add_lt_add_left h⟩
    · exact absurd (place_lt_of_lt hr' hgt) (Nat.lt_asymm h)
  · rintro (hlt | ⟨rfl, hlt⟩)
    · exact place_lt_of_lt hr hlt
    · exact Nat.add_lt_add_left hlt _

/-- **`locate` finds the segment.** -/
theorem locate_spec (hpos : ∀ i, 0 < len i) (hfuel : n ≤ fuel) :
    before len (locate len fuel k n).1 + (locate len fuel k n).2 = before len k + n ∧
      (locate len fuel k n).2 < len (locate len fuel k n).1 := by
  induction fuel generalizing k n with
  | zero =>
      obtain rfl := Nat.le_zero.mp hfuel
      exact ⟨rfl, hpos k⟩
  | succ fuel ih =>
      unfold locate
      by_cases hin : n < len k
      · rw [if_pos hin]
        exact ⟨rfl, hin⟩
      · rw [if_neg hin]
        have hlen := hpos k
        obtain ⟨hplace, hr⟩ := ih (k := k + 1) (n := n - len k) (by omega)
        refine ⟨hplace.trans ?_, hr⟩
        rw [before]
        omega

end segments

/-! ### Dates -/

def isLeap (year : ℕ) : Bool := year % 4 = 0 && (year % 100 ≠ 0 || year % 400 = 0)

def monthDays (leap : Bool) (month : ℕ) : ℕ :=
  [31, if leap then 29 else 28, 31, 30, 31, 30, 31, 31, 30, 31, 30, 31].getD month 31

def yearDays (year : ℕ) : ℕ := if isLeap year then 366 else 365

/-- A year from 1970 on, a month from 0 to 11 and a day of the month from 0 on. -/
structure Date where
  year : ℕ
  month : ℕ
  day : ℕ
deriving DecidableEq, Repr

structure Date.Valid (d : Date) : Prop where
  year : 1970 ≤ d.year
  month : d.month < 12
  day : d.day < monthDays (isLeap d.year) d.month

/-- How many days after the first of January 1970 a date is. -/
def Date.number (d : Date) : ℕ :=
  before (fun k => yearDays (1970 + k)) (d.year - 1970) + (before (monthDays (isLeap d.year)) d.month + d.day)

def ofNumber (n : ℕ) : Date :=
  let (k, r) := locate (fun k => yearDays (1970 + k)) n 0 n
  let (month, day) := locate (monthDays (isLeap (1970 + k))) r 0 r
  ⟨1970 + k, month, day⟩

section dates

variable {d d' : Date} {n : ℕ}

theorem monthDays_pos (leap : Bool) (month : ℕ) : 0 < monthDays leap month := by
  unfold monthDays
  by_cases h : month < 12
  · revert h
    revert month
    revert leap
    decide
  · rw [List.getD_eq_default _ _ (by simpa using h)]
    decide

theorem yearDays_pos (year : ℕ) : 0 < yearDays year := by
  unfold yearDays
  split <;> decide

theorem before_monthDays (year : ℕ) : before (monthDays (isLeap year)) 12 = yearDays year := by
  unfold yearDays
  cases isLeap year <;> rfl

theorem Date.Valid.inYear (h : d.Valid) : before (monthDays (isLeap d.year)) d.month + d.day < yearDays d.year := by
  have hlt : _ < before (monthDays (isLeap d.year)) 12 + 0 := place_lt_of_lt h.day h.month
  rwa [before_monthDays, Nat.add_zero] at hlt

theorem ofNumber_spec (n : ℕ) : (ofNumber n).Valid ∧ (ofNumber n).number = n := by
  obtain ⟨hplace, hr⟩ := locate_spec (k := 0) (fun k => yearDays_pos (1970 + k)) (le_refl n)
  rcases hy : locate (fun k => yearDays (1970 + k)) n 0 n with ⟨k, r⟩
  rw [hy] at hplace hr
  obtain ⟨hplace', hday⟩ := locate_spec (k := 0) (monthDays_pos (isLeap (1970 + k))) (le_refl r)
  rcases hm : locate (monthDays (isLeap (1970 + k))) r 0 r with ⟨month, day⟩
  rw [hm] at hplace' hday
  have hdate : ofNumber n = ⟨1970 + k, month, day⟩ := by
    unfold ofNumber
    rw [hy]
    dsimp only
    rw [hm]
  rw [show before (monthDays (isLeap (1970 + k))) 0 = 0 from rfl, Nat.zero_add] at hplace'
  rw [hdate]
  refine ⟨⟨Nat.le_add_right _ _, ?_, hday⟩, ?_⟩
  · by_contra hlate
    have hyear : before (monthDays (isLeap (1970 + k))) 12 ≤ _ := before_mono (not_lt.mp hlate)
    rw [before_monthDays] at hyear
    dsimp only at hyear hplace' hr
    omega
  · unfold Date.number
    dsimp only at hplace hplace' ⊢
    rw [Nat.add_sub_cancel_left, hplace', hplace]
    exact Nat.zero_add n

theorem number_ofNumber (n : ℕ) : (ofNumber n).number = n := (ofNumber_spec n).2

theorem valid_ofNumber (n : ℕ) : (ofNumber n).Valid := (ofNumber_spec n).1

/-- **Earlier dates have smaller numbers.** -/
theorem number_lt_iff (h : d.Valid) (h' : d'.Valid) : d.number < d'.number ↔
    d.year < d'.year ∨ d.year = d'.year ∧ (d.month < d'.month ∨ d.month = d'.month ∧ d.day < d'.day) := by
  have hinYear := h.inYear
  have hinYear' := h'.inYear
  have hyear := h.year
  have hyear' := h'.year
  unfold Date.number
  rw [place_lt_iff (by rwa [Nat.add_sub_cancel' hyear]) (by rwa [Nat.add_sub_cancel' hyear'])]
  constructor
  · rintro (hlt | ⟨heq, hlt⟩)
    · left
      omega
    · have hsame : d.year = d'.year := by omega
      rw [← hsame] at hlt
      have hday' := h'.day
      rw [← hsame] at hday'
      exact .inr ⟨hsame, (place_lt_iff h.day hday').mp hlt⟩
  · rintro (hlt | ⟨hsame, hlt⟩)
    · left
      omega
    · have hday' := h'.day
      rw [← hsame] at hday'
      rw [← hsame]
      exact .inr ⟨rfl, (place_lt_iff h.day hday').mpr hlt⟩

theorem Date.ext_number (h : d.Valid) (h' : d'.Valid) (heq : d.number = d'.number) : d = d' := by
  have hno : ¬ d.number < d'.number := heq.not_lt
  have hno' : ¬ d'.number < d.number := heq.symm.not_lt
  rw [number_lt_iff h h'] at hno
  rw [number_lt_iff h' h] at hno'
  cases d
  cases d'
  simp only [Date.mk.injEq] at *
  omega

/-- **A date is the date of its number.** -/
theorem ofNumber_number (h : d.Valid) : ofNumber d.number = d :=
  Date.ext_number (valid_ofNumber _) h (number_ofNumber _)

theorem le_before_years (k : ℕ) : 365 * k ≤ before (fun k => yearDays (1970 + k)) k := by
  induction k with
  | zero => exact le_rfl
  | succ k ih =>
      have hyear : 365 ≤ yearDays (1970 + k) := by
        unfold yearDays
        split <;> decide
      rw [before]
      omega

theorem year_ofNumber_le (n : ℕ) : (ofNumber n).year ≤ 1970 + n / 365 := by
  have hnumber := number_ofNumber n
  have hle := le_before_years ((ofNumber n).year - 1970)
  unfold Date.number at hnumber
  omega

end dates

end Gregorian
