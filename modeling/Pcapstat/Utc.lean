import Pcapstat.Gregorian
import Pcapstat.Numerals
import Pcapstat.Report

/-! # Times of the summary (`report.c`)

`print_utc` prints a time as a date and a time of day with microseconds.  Each field is a numeral of a fixed
width, so the time can be read from its text (`readUtc_text`) and texts are ordered like times
(`text_ofMicros_lt_iff`).

* `time_t` has 64 bits and `int` has 32, as the tool is used.
* The branch without a date is never taken (`gmtime_strftime`). -/

namespace Pcapstat

/-! ### Printing -/

/-- `struct tm` -/
structure Tm where
  tmYear : ℕ
  tmMon : ℕ
  tmMday : ℕ
  tmHour : ℕ
  tmMin : ℕ
  tmSec : ℕ
deriving DecidableEq, Repr

def intMax : ℕ := 2147483647

/-- `gmtime`: null if the year does not fit. -/
def gmtime (sec : ℕ) : Option Tm :=
  let date := Gregorian.ofNumber (sec / 86400)
  if date.year - 1900 ≤ intMax then
    some ⟨date.year - 1900, date.month, date.day + 1, sec % 86400 / 3600, sec % 3600 / 60, sec % 60⟩
  else none

/-- `strftime(date, max, "%Y-%m-%d %H:%M:%S", tm)`: nothing if there is no room. -/
def strftime (max : ℕ) (tm : Tm) : Option Text :=
  let date := decimal (1900 + tm.tmYear) ++ '-' :: (zeroPadded 2 (decimal (tm.tmMon + 1)) ++
    '-' :: (zeroPadded 2 (decimal tm.tmMday) ++ ' ' :: (zeroPadded 2 (decimal tm.tmHour) ++
    ':' :: (zeroPadded 2 (decimal tm.tmMin) ++ ':' :: zeroPadded 2 (decimal tm.tmSec)))))
  if date.length < max then some date else none

def printUtc (tsNs : UInt64) : Text :=
  let sec := (tsNs / nsPerSec).toNat
  let usec := (tsNs % nsPerSec / 1000).toNat
  match (gmtime sec).bind (strftime 32) with
  | some date => date ++ '.' :: (zeroPadded 6 (decimal usec) ++ " UTC".toList)
  | none => decimal sec ++ '.' :: zeroPadded 6 (decimal usec)

/-! ### Fields -/

/-- A numeral of `n` characters, and what comes behind the next one. -/
def readField (n : ℕ) (s : Text) : Option (ℕ × Text) :=
  (Numeral.read 10 (s.take n)).map fun v => (v, s.drop (n + 1))

section fields

variable {n v v' : ℕ} {s s' : Text}

theorem readField_zeroPadded (hpos : 0 < n) (hv : v < 10 ^ n) (c : Char) :
    readField n (zeroPadded n (decimal v) ++ c :: s) = some (v, s) := by
  have hlen : (zeroPadded n (decimal v)).length = n := Numeral.length_leftpad hpos (by decide) hv
  have hread : Numeral.read 10 (zeroPadded n (decimal v)) = some v :=
    Numeral.read_leftpad (by decide) (by decide) n
  have hbehind : (zeroPadded n (decimal v) ++ c :: s).drop (n + 1) = s := by
    rw [← List.singleton_append, ← List.append_assoc]
    apply List.drop_left'
    rw [List.length_append, hlen, List.length_singleton]
  unfold readField
  rw [List.take_left' hlen, hread, hbehind, Option.map_some]

theorem field_lt_iff (hpos : 0 < n) (hv : v < 10 ^ n) (hv' : v' < 10 ^ n) (c : Char) :
    zeroPadded n (decimal v) ++ c :: s < zeroPadded n (decimal v') ++ c :: s' ↔ v < v' ∨ v = v' ∧ s < s' := by
  have hlen : ∀ k, k < 10 ^ n → (zeroPadded n (decimal k)).length = n := fun k hk =>
    Numeral.length_leftpad hpos (by decide) hk
  have hinj : zeroPadded n (decimal v) = zeroPadded n (decimal v') ↔ v = v' :=
    ⟨Numeral.leftpad_inj (by decide) (by decide), fun h => h ▸ rfl⟩
  have hlt : zeroPadded n (decimal v) < zeroPadded n (decimal v') ↔ v < v' :=
    Numeral.leftpad_lt_iff hpos (by decide) (by decide) hv hv'
  have hirrefl : ¬ c < c := lt_irrefl c
  rw [Numeral.append_lt_iff ((hlen v hv).trans (hlen v' hv').symm), hlt, hinj, List.cons_lt_cons_iff]
  tauto

/-- A numeral that is as long as the field needs no zeros. -/
theorem decimal_eq_zeroPadded (hlen : (decimal v).length = n) : decimal v = zeroPadded n (decimal v) := by
  unfold zeroPadded List.leftpad
  rw [hlen, Nat.sub_self]
  rfl

end fields

/-! ### Times -/

/-- The date and the time of day of a time in microseconds. -/
structure Moment where
  date : Gregorian.Date
  hour : ℕ
  min : ℕ
  sec : ℕ
  usec : ℕ

namespace Moment

def ofMicros (t : ℕ) : Moment :=
  let s := t / 1000000
  ⟨Gregorian.ofNumber (s / 86400), s % 86400 / 3600, s % 3600 / 60, s % 60, t % 1000000⟩

def micros (m : Moment) : ℕ :=
  (((m.date.number * 24 + m.hour) * 60 + m.min) * 60 + m.sec) * 1000000 + m.usec

theorem micros_ofMicros (t : ℕ) : (ofMicros t).micros = t := by
  unfold micros ofMicros
  dsimp only
  rw [Gregorian.number_ofNumber]
  omega

/-- A date and a time of day that exist. -/
structure Valid (m : Moment) : Prop where
  date : m.date.Valid
  hour : m.hour < 24
  min : m.min < 60
  sec : m.sec < 60
  usec : m.usec < 1000000

theorem valid_ofMicros (t : ℕ) : (ofMicros t).Valid where
  date := Gregorian.valid_ofNumber _
  hour := by
    show t / 1000000 % 86400 / 3600 < 24
    omega
  min := by
    show t / 1000000 % 3600 / 60 < 60
    omega
  sec := Nat.mod_lt _ (by decide)
  usec := Nat.mod_lt _ (by decide)

theorem ofMicros_micros {m : Moment} (h : m.Valid) : ofMicros m.micros = m := by
  obtain ⟨hdate, hhour, hmin, hsec, husec⟩ := h
  have hs : m.micros / 1000000 = ((m.date.number * 24 + m.hour) * 60 + m.min) * 60 + m.sec := by
    unfold micros
    omega
  have hu : m.micros % 1000000 = m.usec := by
    unfold micros
    omega
  have hday : (((m.date.number * 24 + m.hour) * 60 + m.min) * 60 + m.sec) / 86400 = m.date.number := by omega
  unfold ofMicros
  dsimp only
  rw [hs, hu, hday, Gregorian.ofNumber_number hdate]
  cases m
  dsimp only at *
  rw [Moment.mk.injEq]
  exact ⟨rfl, by omega, by omega, by omega, rfl⟩

/-- The text of a moment in a year of four digits. -/
def text (m : Moment) : Text :=
  zeroPadded 4 (decimal m.date.year) ++ '-' :: (zeroPadded 2 (decimal (m.date.month + 1)) ++
    '-' :: (zeroPadded 2 (decimal (m.date.day + 1)) ++ ' ' :: (zeroPadded 2 (decimal m.hour) ++
    ':' :: (zeroPadded 2 (decimal m.min) ++ ':' :: (zeroPadded 2 (decimal m.sec) ++
    '.' :: (zeroPadded 6 (decimal m.usec) ++ " UTC".toList))))))

/-- A moment that has a text. -/
structure Bounded (m : Moment) : Prop where
  year : m.date.year < 10 ^ 4
  month : m.date.month + 1 < 10 ^ 2
  day : m.date.day + 1 < 10 ^ 2
  hour : m.hour < 10 ^ 2
  min : m.min < 10 ^ 2
  sec : m.sec < 10 ^ 2
  usec : m.usec < 10 ^ 6

theorem monthDays_le (leap : Bool) {month : ℕ} (h : month < 12) : Gregorian.monthDays leap month ≤ 31 := by
  revert h
  revert month
  revert leap
  decide

/-- A time of 64 bits in nanoseconds has a year of four digits. -/
theorem bounded_ofMicros {t : ℕ} (h : t ≤ 2 ^ 64 / 1000) : (ofMicros t).Bounded := by
  have hvalid := Gregorian.valid_ofNumber (t / 1000000 / 86400)
  have hmonth := hvalid.month
  have hday := hvalid.day.trans_le (monthDays_le _ hmonth)
  have hyear := Gregorian.year_ofNumber_le (t / 1000000 / 86400)
  unfold ofMicros
  constructor <;> dsimp only <;> omega

end Moment

/-- The time of a text, in microseconds. -/
def readUtc (s : Text) : Option ℕ := do
  let (year, s) ← readField 4 s
  let (month, s) ← readField 2 s
  let (day, s) ← readField 2 s
  let (hour, s) ← readField 2 s
  let (min, s) ← readField 2 s
  let (sec, s) ← readField 2 s
  let (usec, _) ← readField 6 s
  some (Moment.micros ⟨⟨year, month - 1, day - 1⟩, hour, min, sec, usec⟩)

namespace Moment

section text

variable {m m' : Moment} {t t' : ℕ}

theorem readUtc_text (h : m.Bounded) : readUtc m.text = some m.micros := by
  unfold readUtc text
  simp only [readField_zeroPadded (by decide : 0 < 4) h.year, readField_zeroPadded (by decide : 0 < 2) h.month,
    readField_zeroPadded (by decide : 0 < 2) h.day, readField_zeroPadded (by decide : 0 < 2) h.hour,
    readField_zeroPadded (by decide : 0 < 2) h.min, readField_zeroPadded (by decide : 0 < 2) h.sec,
    Option.bind_eq_bind, Option.bind_some]
  have hlast : readField 6 (zeroPadded 6 (decimal m.usec) ++ " UTC".toList) = some (m.usec, "UTC".toList) :=
    readField_zeroPadded (by decide) h.usec ' '
  rw [hlast]
  rfl

/-- A number is compared by its quotient and then by its remainder. -/
theorem div_mod_lt_iff {a b : ℕ} (k : ℕ) (hk : 0 < k) :
    a < b ↔ a / k < b / k ∨ a / k = b / k ∧ a % k < b % k := by
  have hr := Nat.mod_lt a hk
  have hr' := Nat.mod_lt b hk
  constructor
  · intro h
    rcases Nat.lt_or_eq_of_le (Nat.div_le_div_right h.le) with hlt | heq
    · exact .inl hlt
    · refine .inr ⟨heq, ?_⟩
      rw [← Nat.div_add_mod a k, ← Nat.div_add_mod b k, heq] at h
      exact Nat.lt_of_add_lt_add_left h
  · rintro (hlt | ⟨heq, hlt⟩)
    · exact Nat.lt_of_div_lt_div hlt
    · rw [← Nat.div_add_mod a k, ← Nat.div_add_mod b k, heq]
      exact Nat.add_lt_add_left hlt _

theorem text_lt_iff (h : m.Bounded) (h' : m'.Bounded) : m.text < m'.text ↔
    m.date.year < m'.date.year ∨ m.date.year = m'.date.year ∧ (m.date.month + 1 < m'.date.month + 1 ∨
      m.date.month + 1 = m'.date.month + 1 ∧ (m.date.day + 1 < m'.date.day + 1 ∨
      m.date.day + 1 = m'.date.day + 1 ∧ (m.hour < m'.hour ∨ m.hour = m'.hour ∧ (m.min < m'.min ∨
      m.min = m'.min ∧ (m.sec < m'.sec ∨ m.sec = m'.sec ∧ m.usec < m'.usec))))) := by
  have hlast : zeroPadded 6 (decimal m.usec) ++ " UTC".toList < zeroPadded 6 (decimal m'.usec) ++ " UTC".toList ↔
      m.usec < m'.usec := by
    have hfield : _ ↔ _ ∨ _ ∧ "UTC".toList < "UTC".toList := field_lt_iff (by decide) h.usec h'.usec ' '
    exact hfield.trans ⟨fun hor => hor.resolve_right fun hand => lt_irrefl _ hand.2, .inl⟩
  unfold text
  rw [field_lt_iff (by decide) h.year h'.year, field_lt_iff (by decide) h.month h'.month,
    field_lt_iff (by decide) h.day h'.day, field_lt_iff (by decide) h.hour h'.hour,
    field_lt_iff (by decide) h.min h'.min, field_lt_iff (by decide) h.sec h'.sec, hlast]

theorem text_lt_of_lt (h : t ≤ 2 ^ 64 / 1000) (h' : t' ≤ 2 ^ 64 / 1000) (hlt : t < t') :
    (ofMicros t).text < (ofMicros t').text := by
  rw [text_lt_iff (bounded_ofMicros h) (bounded_ofMicros h')]
  unfold ofMicros
  dsimp only
  rcases (div_mod_lt_iff 1000000 (by decide)).mp hlt with hsec | ⟨hsec, husec⟩
  swap
  · rw [hsec]
    exact .inr ⟨rfl, .inr ⟨rfl, .inr ⟨rfl, .inr ⟨rfl, .inr ⟨rfl, .inr ⟨rfl, husec⟩⟩⟩⟩⟩⟩
  generalize t / 1000000 = s at *
  generalize t' / 1000000 = s' at *
  rcases (div_mod_lt_iff 86400 (by decide)).mp hsec with hday | ⟨hday, htime⟩
  · rw [← Gregorian.number_ofNumber (s / 86400), ← Gregorian.number_ofNumber (s' / 86400),
      Gregorian.number_lt_iff (Gregorian.valid_ofNumber _) (Gregorian.valid_ofNumber _)] at hday
    rcases hday with hyear | ⟨hyear, hmonth | ⟨hmonth, hday⟩⟩
    · exact .inl hyear
    · exact .inr ⟨hyear, .inl (Nat.succ_lt_succ hmonth)⟩
    · exact .inr ⟨hyear, .inr ⟨congrArg Nat.succ hmonth, .inl (Nat.succ_lt_succ hday)⟩⟩
  · rw [hday]
    refine .inr ⟨rfl, .inr ⟨rfl, .inr ⟨rfl, ?_⟩⟩⟩
    have hmod : ∀ n : ℕ, n % 86400 % 3600 = n % 3600 := fun n => Nat.mod_mod_of_dvd n (by decide)
    have hmod' : ∀ n : ℕ, n % 3600 % 60 = n % 60 := fun n => Nat.mod_mod_of_dvd n (by decide)
    rcases (div_mod_lt_iff 3600 (by decide)).mp htime with hhour | ⟨hhour, hrest⟩
    · exact .inl hhour
    rw [hmod, hmod] at hrest
    rcases (div_mod_lt_iff 60 (by decide)).mp hrest with hmin | ⟨hmin, hsec⟩
    · exact .inr ⟨hhour, .inl hmin⟩
    · rw [hmod', hmod'] at hsec
      exact .inr ⟨hhour, .inr ⟨hmin, .inl hsec⟩⟩

theorem text_ofMicros_lt_iff (h : t ≤ 2 ^ 64 / 1000) (h' : t' ≤ 2 ^ 64 / 1000) :
    (ofMicros t).text < (ofMicros t').text ↔ t < t' := by
  refine ⟨?_, text_lt_of_lt h h'⟩
  intro hlt
  rcases lt_trichotomy t t' with hl | rfl | hg
  · exact hl
  · exact absurd hlt (lt_irrefl _)
  · exact absurd hlt (lt_asymm (text_lt_of_lt h' h hg))

end text

end Moment

/-! ### The times of the summary -/

/-- The date and the time of day without the microseconds. -/
def Moment.dateText (m : Moment) : Text :=
  zeroPadded 4 (decimal m.date.year) ++ '-' :: (zeroPadded 2 (decimal (m.date.month + 1)) ++
    '-' :: (zeroPadded 2 (decimal (m.date.day + 1)) ++ ' ' :: (zeroPadded 2 (decimal m.hour) ++
    ':' :: (zeroPadded 2 (decimal m.min) ++ ':' :: zeroPadded 2 (decimal m.sec)))))

theorem Moment.text_eq (m : Moment) :
    m.text = m.dateText ++ '.' :: (zeroPadded 6 (decimal m.usec) ++ " UTC".toList) := by
  unfold text dateText
  simp only [List.append_assoc, List.cons_append]

theorem Moment.Bounded.length_dateText {m : Moment} (h : m.Bounded) : m.dateText.length = 19 := by
  have hlen : ∀ {n v}, 0 < n → v < 10 ^ n → (zeroPadded n (decimal v)).length = n := fun hpos hv =>
    Numeral.length_leftpad hpos (by decide) hv
  unfold dateText
  simp only [List.length_append, List.length_cons, hlen (by decide : 0 < 4) h.year,
    hlen (by decide : 0 < 2) h.month, hlen (by decide : 0 < 2) h.day, hlen (by decide : 0 < 2) h.hour,
    hlen (by decide : 0 < 2) h.min, hlen (by decide : 0 < 2) h.sec]

section summary

variable {t : ℕ}

/-- **A time that is printed has a date.** -/
theorem gmtime_strftime (h : t ≤ 2 ^ 64 / 1000) :
    (gmtime (t / 1000000)).bind (strftime 32) = some (Moment.ofMicros t).dateText := by
  have hbounded := Moment.bounded_ofMicros h
  have hlater := (Gregorian.valid_ofNumber (t / 1000000 / 86400)).year
  have hyear := hbounded.year
  have hdate : (Moment.ofMicros t).date = Gregorian.ofNumber (t / 1000000 / 86400) := rfl
  rw [hdate] at hyear
  have hlen : (decimal (Gregorian.ofNumber (t / 1000000 / 86400)).year).length = 4 := by
    apply le_antisymm
    · exact (Nat.length_toDigits_le_iff (by decide) (by decide)).mpr hyear
    · by_contra hshort
      have hle : (decimal (Gregorian.ofNumber (t / 1000000 / 86400)).year).length ≤ 3 := by omega
      have hsmall := (Nat.length_toDigits_le_iff (by decide) (by decide)).mp hle
      omega
  have hsmall : (Gregorian.ofNumber (t / 1000000 / 86400)).year - 1900 ≤ intMax := by
    unfold intMax
    omega
  have hback : 1900 + ((Gregorian.ofNumber (t / 1000000 / 86400)).year - 1900) =
      (Gregorian.ofNumber (t / 1000000 / 86400)).year := by omega
  unfold gmtime
  rw [if_pos hsmall, Option.bind_some, strftime]
  dsimp only
  rw [hback, decimal_eq_zeroPadded hlen]
  exact if_pos (hbounded.length_dateText.trans_lt (by decide))

theorem toNat_seconds (tsNs : UInt64) : (tsNs / nsPerSec).toNat = tsNs.toNat / 1000 / 1000000 := by
  rw [UInt64.toNat_div, Nat.div_div_eq_div_mul]
  rfl

theorem micros_le (tsNs : UInt64) : tsNs.toNat / 1000 ≤ 2 ^ 64 / 1000 := Nat.div_le_div_right tsNs.toNat_lt.le

/-- The text of a time is that of its moment. -/
theorem printUtc_eq (tsNs : UInt64) : printUtc tsNs = (Moment.ofMicros (tsNs.toNat / 1000)).text := by
  have husec : (tsNs % nsPerSec / 1000).toNat = tsNs.toNat / 1000 % 1000000 := by
    rw [UInt64.toNat_div, UInt64.toNat_mod]
    show tsNs.toNat % 1000000000 / 1000 = _
    omega
  unfold printUtc
  rw [toNat_seconds, husec]
  dsimp only
  rw [gmtime_strftime (micros_le tsNs), Moment.text_eq]
  rfl

/-- **The times of the summary are exact to the microsecond**: what is printed is the one date and time of day
of the time.  It can be read back, and texts are ordered like times.  The date has 19 characters, so that it
fits its buffer. -/
theorem printUtc_faithful : (∀ tsNs : UInt64, ∃ m : Moment,
      (∀ m' : Moment, m'.Valid ∧ m'.micros = tsNs.toNat / 1000 ↔ m' = m) ∧ printUtc tsNs = m.text ∧
      readUtc (printUtc tsNs) = some (tsNs.toNat / 1000)) ∧
    (∀ tsNs tsNs' : UInt64, printUtc tsNs < printUtc tsNs' ↔ tsNs.toNat / 1000 < tsNs'.toNat / 1000) ∧
    ∀ tsNs : UInt64, ∃ tm date, gmtime (tsNs / nsPerSec).toNat = some tm ∧ strftime 32 tm = some date ∧
      date.length = 19 := by
  refine ⟨fun tsNs => ?_, fun tsNs tsNs' => ?_, fun tsNs => ?_⟩
  · refine ⟨Moment.ofMicros (tsNs.toNat / 1000), ?_, printUtc_eq tsNs, ?_⟩
    · intro m'
      constructor
      · rintro ⟨hvalid, hmicros⟩
        rw [← hmicros, Moment.ofMicros_micros hvalid]
      · rintro rfl
        exact ⟨Moment.valid_ofMicros _, Moment.micros_ofMicros _⟩
    · rw [printUtc_eq, Moment.readUtc_text (Moment.bounded_ofMicros (micros_le tsNs)), Moment.micros_ofMicros]
  · rw [printUtc_eq, printUtc_eq, Moment.text_ofMicros_lt_iff (micros_le tsNs) (micros_le tsNs')]
  · obtain ⟨tm, htm, hdate⟩ := Option.bind_eq_some_iff.mp (gmtime_strftime (micros_le tsNs))
    exact ⟨tm, _, (toNat_seconds tsNs).symm ▸ htm, hdate,
      (Moment.bounded_ofMicros (micros_le tsNs)).length_dateText⟩

/-- The first packet of the sample capture of the repository. -/
example : printUtc 1700000000060402000 = "2023-11-14 22:13:20.060402 UTC".toList := by decide +kernel

end summary

end Pcapstat
