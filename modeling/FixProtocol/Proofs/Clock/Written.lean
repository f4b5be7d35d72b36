import FixProtocol.Clock.Timestamp
import FixProtocol.Proofs.Clock.Calendar
import FixProtocol.Text.Utf8

/-!
# Times as they are written

A time is written with numerals of fixed widths, from the year down to the millisecond. So every
text has the same picture, it says which time it is, and texts are in the order of their times.

- `Numeral.fixed`: the numeral of a fixed width, its length, its value and its order.
- `Timestamp.hasPicture`: digits and marks at their places.
- `Timestamp.readMillis?`: the milliseconds since the start of 1970 that a text stands for.
- `Timestamp.text_faithful`: texts fit their buffer, read back, and are in order.
-/

namespace FixProtocol

namespace Numeral

/-! ## Numerals of a fixed width -/

/-- The last `width` digits of `n`. -/
def fixed : Nat → Nat → Bytes
  | 0, _ => []
  | width + 1, n => fixed width (n / 10) ++ [digit n]

@[simp] theorem length_fixed (width n : Nat) : (fixed width n).length = width := by
  induction width generalizing n with
  | zero => rfl
  | succ width ih => rw [fixed, List.length_append, ih, List.length_singleton]

theorem all_isDigit_fixed (width n : Nat) : (fixed width n).all isDigit = true := by
  induction width generalizing n with
  | zero => rfl
  | succ width ih =>
    rw [fixed, List.all_append, ih, List.all_cons, isDigit_digit]
    rfl

theorem fixed_zero (width : Nat) : fixed width 0 = List.replicate width (digit 0) := by
  induction width with
  | zero => rfl
  | succ width ih => rw [fixed, Nat.zero_div, ih, List.replicate_succ']

theorem div_ten_lt {width n : Nat} (h : n < 10 ^ (width + 1)) : n / 10 < 10 ^ width := by
  rw [Nat.pow_succ, Nat.mul_comm] at h
  exact Nat.div_lt_of_lt_mul h

/-- A number of few digits, written with zeros in front, has the fixed width. -/
theorem padded_eq_fixed {width n : Nat} (hwidth : 0 < width) (h : n < 10 ^ width) :
    padded width n = fixed width n := by
  induction width generalizing n with
  | zero => omega
  | succ width ih =>
    by_cases hn : n < 10
    · have hzero : n / 10 = 0 := Nat.div_eq_of_lt hn
      simp only [padded, ofNat_of_lt hn, List.length_singleton, Nat.add_sub_cancel, fixed, hzero,
        fixed_zero]
    · have hpos : 0 < width := by
        by_contra hnot
        obtain rfl : width = 0 := by omega
        omega
      have htail : padded width (n / 10) = fixed width (n / 10) := ih hpos (div_ten_lt h)
      have hdigit : digit (n % 10) = digit n := by
        unfold digit
        rw [Nat.mod_mod]
      rw [fixed, ← htail]
      simp only [padded, ofNat_of_le (Nat.le_of_not_lt hn), List.length_append,
        List.length_singleton, Nat.add_sub_add_right, List.append_assoc, hdigit]

/-- A numeral of a fixed width denotes the number, when it is wide enough. -/
theorem value_fixed {width n : Nat} (h : n < 10 ^ width) : value (fixed width n) = n := by
  induction width generalizing n with
  | zero =>
    obtain rfl : n = 0 := by omega
    rfl
  | succ width ih =>
    rw [fixed, value_append_digit, ih (div_ten_lt h), digitValue_digit]
    omega

theorem digit_lt_digit {m n : Nat} (h : m % 10 < n % 10) : digit m < digit n := by
  have hall : ∀ r < 10, ∀ q < r, UInt8.ofNat (48 + q) < UInt8.ofNat (48 + r) := by decide
  exact hall _ (Nat.mod_lt n (by decide)) _ h

/-- Texts that start with numerals of one width are in the order of the numbers, and of what follows
where the numbers are the same. -/
theorem fixed_append_lt {width m n : Nat} {front back : Bytes} (hn : n < 10 ^ width)
    (h : m < n ∨ m = n ∧ front < back) : fixed width m ++ front < fixed width n ++ back := by
  rcases h with h | ⟨rfl, h⟩
  · induction width generalizing m n front back with
    | zero => omega
    | succ width ih =>
      rw [fixed, fixed, List.append_assoc, List.append_assoc]
      by_cases htens : m / 10 < n / 10
      · exact ih (div_ten_lt hn) htens
      · have hsame : m / 10 = n / 10 := by omega
        rw [hsame]
        exact List.append_left_lt (List.cons_lt_cons_iff.mpr (.inl (digit_lt_digit (by omega))))
  · exact List.append_left_lt h

theorem fixed_lt {width m n : Nat} (hn : n < 10 ^ width) (h : m < n) :
    fixed width m < fixed width n := by
  have hlt : fixed width m ++ [] < fixed width n ++ [] := fixed_append_lt hn (.inl h)
  rwa [List.append_nil, List.append_nil] at hlt

end Numeral

namespace Timestamp

/-! ## The picture of a written time -/

/-- Does the text have the picture? A `d` in the picture stands for a digit, any other character for
itself. -/
def hasPicture : Bytes → Bytes → Bool
  | [], [] => true
  | p :: picture, b :: text =>
    (if p = 100 then Numeral.isDigit b else p == b) && hasPicture picture text
  | _, _ => false

/-- The picture of all written times. -/
def picture : Bytes :=
  Utf8.bytes "dddddddd-dd:dd:dd.ddd"

theorem length_of_hasPicture {picture text : Bytes} (h : hasPicture picture text = true) :
    text.length = picture.length := by
  induction picture generalizing text with
  | nil =>
    cases text with
    | nil => rfl
    | cons b text => cases h
  | cons p picture ih =>
    cases text with
    | nil => cases h
    | cons b text =>
      rw [hasPicture, Bool.and_eq_true] at h
      rw [List.length_cons, List.length_cons, ih h.2]

/-- Besides digits only marks of the picture occur. -/
theorem mem_of_hasPicture {picture text : Bytes} {b : UInt8} (h : hasPicture picture text = true)
    (hb : b ∈ text) : Numeral.isDigit b = true ∨ b ∈ picture := by
  induction picture generalizing text with
  | nil =>
    cases text with
    | nil => cases hb
    | cons c text => cases h
  | cons p picture ih =>
    cases text with
    | nil => cases hb
    | cons c text =>
      rw [hasPicture, Bool.and_eq_true] at h
      rcases List.mem_cons.mp hb with rfl | hb
      · by_cases hp : p = 100
        · rw [if_pos hp] at h
          exact .inl h.1
        · rw [if_neg hp, beq_iff_eq] at h
          exact .inr (h.1 ▸ List.mem_cons_self)
      · exact (ih h.2 hb).imp_right (List.mem_cons_of_mem p)

theorem hasPicture_append {p q front back : Bytes} (hfront : hasPicture p front = true)
    (hback : hasPicture q back = true) : hasPicture (p ++ q) (front ++ back) = true := by
  induction p generalizing front with
  | nil =>
    cases front with
    | nil => exact hback
    | cons b front => cases hfront
  | cons c p ih =>
    cases front with
    | nil => cases hfront
    | cons b front =>
      rw [hasPicture, Bool.and_eq_true] at hfront
      rw [List.cons_append, List.cons_append, hasPicture, Bool.and_eq_true]
      exact ⟨hfront.1, ih hfront.2⟩

theorem hasPicture_digits {ds : Bytes} (h : ds.all Numeral.isDigit = true) :
    hasPicture (List.replicate ds.length 100) ds = true := by
  induction ds with
  | nil => rfl
  | cons d ds ih =>
    rw [List.all_cons, Bool.and_eq_true] at h
    rw [List.length_cons, List.replicate_succ, hasPicture, if_pos rfl, h.1, ih h.2]
    rfl

theorem hasPicture_fixed (width n : Nat) :
    hasPicture (List.replicate width 100) (Numeral.fixed width n) = true := by
  have h := hasPicture_digits (Numeral.all_isDigit_fixed width n)
  rwa [Numeral.length_fixed] at h

/-! ## The parts of a written time -/

/-- The eight digits of a date. -/
def dateDigits (date : Date) : Bytes :=
  Numeral.fixed 4 date.year.toNat ++ (Numeral.fixed 2 date.month ++ Numeral.fixed 2 date.day)

/-- The second of the day and the millisecond of the second, as a clock shows them. -/
def clockDigits (clock milli : Nat) : Bytes :=
  Numeral.fixed 2 (clock / 3600) ++ ([58] ++ (Numeral.fixed 2 (clock / 60 % 60) ++
    ([58] ++ (Numeral.fixed 2 (clock % 60) ++ ([46] ++ Numeral.fixed 3 milli)))))

/-- A date and a time of day. -/
def layout (date : Date) (clock milli : Nat) : Bytes :=
  dateDigits date ++ ([45] ++ clockDigits clock milli)

theorem hasPicture_layout (date : Date) (clock milli : Nat) :
    hasPicture picture (layout date clock milli) = true := by
  have hpair (n : Nat) := hasPicture_fixed 2 n
  have hmark (mark : UInt8) (h : mark ≠ 100) : hasPicture [mark] [mark] = true := by
    rw [hasPicture, if_neg h, beq_self_eq_true]
    rfl
  have hdate := hasPicture_append (hasPicture_fixed 4 date.year.toNat)
    (hasPicture_append (hpair date.month) (hpair date.day))
  have hseconds := hasPicture_append (hpair (clock % 60))
    (hasPicture_append (hmark 46 (by decide)) (hasPicture_fixed 3 milli))
  have hminutes := hasPicture_append (hpair (clock / 60 % 60))
    (hasPicture_append (hmark 58 (by decide)) hseconds)
  have hclock := hasPicture_append (hpair (clock / 3600))
    (hasPicture_append (hmark 58 (by decide)) hminutes)
  have hpicture : picture =
      (List.replicate 4 100 ++ (List.replicate 2 100 ++ List.replicate 2 100)) ++
        ([45] ++ (List.replicate 2 100 ++ ([58] ++ (List.replicate 2 100 ++ ([58] ++
          (List.replicate 2 100 ++ ([46] ++ List.replicate 3 100))))))) := by
    decide
  rw [hpicture]
  exact hasPicture_append hdate (hasPicture_append (hmark 45 (by decide)) hclock)

/-- The signed nanoseconds of a word are at most 2 ^ 63 away from the start of 1970. -/
theorem signedNanos_bounds (t : Timestamp) :
    -9223372036854775808 ≤ t.signedNanos ∧ t.signedNanos < 9223372036854775808 :=
  ⟨t.nanos.toInt64.le_toInt, t.nanos.toInt64.toInt_lt⟩

/-- The dates that words of nanoseconds reach have years of four digits. -/
theorem year_bounds {n : Int} (hlow : -106752 ≤ n) (hhigh : n ≤ 106751) :
    1677 ≤ (Date.ofDay n).year ∧ (Date.ofDay n).year < 2263 := by
  have hfirst : Date.dayNumber ⟨1677, 1, 1⟩ = -107015 := rfl
  have hlast : Date.dayNumber ⟨2263, 1, 1⟩ = 107016 := rfl
  exact ⟨Date.le_year_ofDay (by omega), Date.year_ofDay_lt (by omega)⟩

/-- Months and days of the calendar have two digits. -/
theorem isReal_lt {date : Date} (h : date.isReal = true) :
    date.month < 10 ^ 2 ∧ date.day < 10 ^ 2 := by
  obtain ⟨-, hmonth, -, hday⟩ := Date.isReal_iff.mp h
  have hlength := Date.daysInMonth_le date.year date.month
  omega

theorem pattern_eq (t : Timestamp) :
    t.pattern = layout (Date.ofDay (t.seconds / 86400)) (t.seconds % 86400).toNat
      ((t.signedNanos % 1000000000).toNat / 1000000) := by
  obtain ⟨hlow, hhigh⟩ := t.signedNanos_bounds
  have hyear : (Date.ofDay (t.seconds / 86400)).year.toNat < 10 ^ 4 := by
    have hdays : -106752 ≤ t.seconds / 86400 ∧ t.seconds / 86400 ≤ 106751 := by
      unfold seconds
      omega
    have hyears := year_bounds hdays.1 hdays.2
    omega
  obtain ⟨hmonth, hday⟩ := isReal_lt (Date.isReal_ofDay (t.seconds / 86400))
  have hclock : (t.seconds % 86400).toNat < 86400 := by omega
  have hmilli : (t.signedNanos % 1000000000).toNat / 1000000 < 10 ^ 3 := by omega
  unfold pattern layout dateDigits clockDigits
  simp only
  generalize (t.seconds % 86400).toNat = clock at *
  have hhour : clock / 3600 < 10 ^ 2 := by omega
  have hminute : clock / 60 % 60 < 10 ^ 2 := by omega
  have hsecond : clock % 60 < 10 ^ 2 := by omega
  rw [Numeral.padded_eq_fixed (by decide) hyear, Numeral.padded_eq_fixed (by decide) hmonth,
    Numeral.padded_eq_fixed (by decide) hday, Numeral.padded_eq_fixed (by decide) hhour,
    Numeral.padded_eq_fixed (by decide) hminute, Numeral.padded_eq_fixed (by decide) hsecond,
    Numeral.padded_eq_fixed (by decide) hmilli]
  simp only [List.append_assoc]

/-- Whatever the time is, its date and time of day have the picture. -/
theorem hasPicture_pattern (t : Timestamp) : hasPicture picture t.pattern = true := by
  rw [pattern_eq]
  exact hasPicture_layout _ _ _

theorem length_pattern (t : Timestamp) : t.pattern.length = 21 :=
  length_of_hasPicture t.hasPicture_pattern

/-- The buffer has room for every time, so nothing is lost. -/
theorem text_eq_pattern (t : Timestamp) : t.text = t.pattern := by
  unfold text
  exact if_pos (Nat.le_of_eq t.length_pattern)

theorem length_text (t : Timestamp) : t.text.length = 21 := by
  rw [text_eq_pattern, length_pattern]

/-! ## Reading a written time -/

/-- The number that the first `width` bytes denote, and the bytes after them; `none` if they are not
so many digits. -/
def readNumber? (width : Nat) (bs : Bytes) : Option (Nat × Bytes) :=
  let ds := bs.take width
  if ds.length = width ∧ ds.all Numeral.isDigit then some (Numeral.value ds, bs.drop width)
  else none

/-- The bytes after the given mark. -/
def readMark? (mark : UInt8) (bs : Bytes) : Option Bytes :=
  match bs with
  | b :: rest => if b = mark then some rest else none
  | [] => none

/-- A date that the calendar has. -/
def readDate? (bs : Bytes) : Option (Date × Bytes) := do
  let (year, bs) ← readNumber? 4 bs
  let (month, bs) ← readNumber? 2 bs
  let (day, bs) ← readNumber? 2 bs
  if Date.isReal ⟨year, month, day⟩ then some (⟨year, month, day⟩, bs) else none

/-- The milliseconds from midnight to a time of day. -/
def readClock? (bs : Bytes) : Option (Nat × Bytes) := do
  let (hour, bs) ← readNumber? 2 bs
  let (minute, bs) ← readNumber? 2 (← readMark? 58 bs)
  let (second, bs) ← readNumber? 2 (← readMark? 58 bs)
  let (milli, bs) ← readNumber? 3 (← readMark? 46 bs)
  if hour < 24 ∧ minute < 60 ∧ second < 60 then
    some (((hour * 60 + minute) * 60 + second) * 1000 + milli, bs)
  else none

/-- The milliseconds from the start of 1970 to a written time. -/
def readMillis? (bs : Bytes) : Option Nat := do
  let (date, bs) ← readDate? bs
  let (millis, bs) ← readClock? (← readMark? 45 bs)
  if bs = [] ∧ 1970 ≤ date.year then some (date.elapsedDays * 86400000 + millis) else none

theorem readNumber?_fixed {width n : Nat} (h : n < 10 ^ width) (rest : Bytes) :
    readNumber? width (Numeral.fixed width n ++ rest) = some (n, rest) := by
  have htake : (Numeral.fixed width n ++ rest).take width = Numeral.fixed width n :=
    List.take_left' (Numeral.length_fixed width n)
  have hdrop : (Numeral.fixed width n ++ rest).drop width = rest :=
    List.drop_left' (Numeral.length_fixed width n)
  unfold readNumber?
  simp only [htake, hdrop]
  rw [if_pos ⟨Numeral.length_fixed width n, Numeral.all_isDigit_fixed width n⟩,
    Numeral.value_fixed h]

theorem readMark?_append (mark : UInt8) (rest : Bytes) :
    readMark? mark ([mark] ++ rest) = some rest :=
  if_pos rfl

theorem readDate?_append {date : Date} (hreal : date.isReal = true) (hfirst : 0 ≤ date.year)
    (hlast : date.year < 10 ^ 4) (rest : Bytes) :
    readDate? (dateDigits date ++ rest) = some (date, rest) := by
  obtain ⟨hmonth, hday⟩ := isReal_lt hreal
  have hdate : (⟨(date.year.toNat : Int), date.month, date.day⟩ : Date) = date := by
    rw [Int.toNat_of_nonneg hfirst]
  have hyear : date.year.toNat < 10 ^ 4 := by omega
  unfold readDate? dateDigits
  simp only [List.append_assoc, readNumber?_fixed hyear, readNumber?_fixed hmonth,
    readNumber?_fixed hday, Option.bind_eq_bind, Option.bind_some, hdate]
  exact if_pos hreal

theorem readClock?_clockDigits {clock milli : Nat} (hclock : clock < 86400)
    (hmilli : milli < 1000) :
    readClock? (clockDigits clock milli) = some (clock * 1000 + milli, []) := by
  have hhour : clock / 3600 < 10 ^ 2 := by omega
  have hminute : clock / 60 % 60 < 10 ^ 2 := by omega
  have hsecond : clock % 60 < 10 ^ 2 := by omega
  have hend : readNumber? 3 (Numeral.fixed 3 milli) = some (milli, []) := by
    rw [← List.append_nil (Numeral.fixed 3 milli)]
    exact readNumber?_fixed hmilli []
  have hclockParts : (clock / 3600 * 60 + clock / 60 % 60) * 60 + clock % 60 = clock := by omega
  unfold readClock? clockDigits
  simp only [readNumber?_fixed hhour, readNumber?_fixed hminute, readNumber?_fixed hsecond, hend,
    readMark?_append, Option.bind_eq_bind, Option.bind_some, hclockParts]
  exact if_pos ⟨by omega, by omega, by omega⟩

/-- What is written reads back. -/
theorem readMillis?_layout {date : Date} {clock milli : Nat} (hreal : date.isReal = true)
    (hfirst : 1970 ≤ date.year) (hlast : date.year < 10 ^ 4) (hclock : clock < 86400)
    (hmilli : milli < 1000) :
    readMillis? (layout date clock milli) =
      some (date.elapsedDays * 86400000 + (clock * 1000 + milli)) := by
  unfold readMillis? layout
  rw [readDate?_append hreal (by omega) hlast]
  simp only [Option.bind_eq_bind, Option.bind_some, readMark?_append,
    readClock?_clockDigits hclock hmilli]
  exact if_pos ⟨trivial, hfirst⟩

/-! ## The order of written times -/

theorem dateDigits_append_lt {d e : Date} {front back : Bytes} (hreal : e.isReal = true)
    (hfirst : 0 < e.year) (hlast : e.year < 10 ^ 4) (h : d.Before e ∨ d = e ∧ front < back) :
    dateDigits d ++ front < dateDigits e ++ back := by
  obtain ⟨hmonth, hday⟩ := isReal_lt hreal
  have hyear : e.year.toNat < 10 ^ 4 := by omega
  have hparts :
      d.year.toNat < e.year.toNat ∨ d.year.toNat = e.year.toNat ∧
        (d.month < e.month ∨ d.month = e.month ∧
          (d.day < e.day ∨ d.day = e.day ∧ front < back)) := by
    rcases h with hbefore | ⟨rfl, hlt⟩
    · unfold Date.Before at hbefore
      omega
    · exact .inr ⟨rfl, .inr ⟨rfl, .inr ⟨rfl, hlt⟩⟩⟩
  unfold dateDigits
  rw [List.append_assoc, List.append_assoc, List.append_assoc, List.append_assoc]
  refine Numeral.fixed_append_lt hyear (hparts.imp_right (And.imp_right fun hmonths => ?_))
  refine Numeral.fixed_append_lt hmonth (hmonths.imp_right (And.imp_right fun hdays => ?_))
  exact Numeral.fixed_append_lt hday hdays

theorem clockDigits_lt {clock₁ clock₂ milli₁ milli₂ : Nat} (hclock : clock₂ < 86400)
    (hmilli : milli₂ < 1000) (h : clock₁ < clock₂ ∨ clock₁ = clock₂ ∧ milli₁ < milli₂) :
    clockDigits clock₁ milli₁ < clockDigits clock₂ milli₂ := by
  have hhour : clock₂ / 3600 < 10 ^ 2 := by omega
  have hminute : clock₂ / 60 % 60 < 10 ^ 2 := by omega
  have hsecond : clock₂ % 60 < 10 ^ 2 := by omega
  have hparts :
      clock₁ / 3600 < clock₂ / 3600 ∨ clock₁ / 3600 = clock₂ / 3600 ∧
        (clock₁ / 60 % 60 < clock₂ / 60 % 60 ∨ clock₁ / 60 % 60 = clock₂ / 60 % 60 ∧
          (clock₁ % 60 < clock₂ % 60 ∨ clock₁ % 60 = clock₂ % 60 ∧ milli₁ < milli₂)) := by
    omega
  unfold clockDigits
  refine Numeral.fixed_append_lt hhour (hparts.imp_right (And.imp_right fun hminutes => ?_))
  refine List.append_left_lt (Numeral.fixed_append_lt hminute ?_)
  refine hminutes.imp_right (And.imp_right fun hseconds => List.append_left_lt ?_)
  refine Numeral.fixed_append_lt hsecond (hseconds.imp_right (And.imp_right fun hmillis => ?_))
  exact List.append_left_lt (Numeral.fixed_lt hmilli hmillis)

/-! ## Times made from milliseconds -/

/-- The milliseconds whose nanoseconds lie in the lower half of the words end here. -/
def lastMillis : Nat := 9223372036854

theorem nanos_lt {m : Nat} (h : m ≤ lastMillis) : m * 1000000 < 9223372036854775808 := by
  unfold lastMillis at h
  omega

theorem nanos_ofMillis {m : Nat} (h : m ≤ lastMillis) : (ofMillis m).nanos.toNat = m * 1000000 := by
  have hlt := nanos_lt h
  show (UInt64.ofNat (m * 1000000)).toNat = m * 1000000
  rw [UInt64.toNat_ofNat']
  omega

theorem millis_ofMillis {m : Nat} (h : m ≤ lastMillis) : (ofMillis m).millis = m := by
  unfold millis
  rw [nanos_ofMillis h, Nat.mul_div_cancel m (by decide)]

theorem signedNanos_ofMillis {m : Nat} (h : m ≤ lastMillis) :
    (ofMillis m).signedNanos = (m * 1000000 : Nat) := by
  have hnanos := nanos_ofMillis h
  have hlt := nanos_lt h
  have hsmall : 2 * (ofMillis m).nanos.toBitVec.toNat < 2 ^ 64 := by
    show 2 * (ofMillis m).nanos.toNat < 2 ^ 64
    omega
  have hsigned : (ofMillis m).signedNanos = (ofMillis m).nanos.toBitVec.toInt := rfl
  rw [hsigned, BitVec.toInt_eq_toNat_of_lt hsmall, ← hnanos]
  rfl

theorem text_ofMillis {m : Nat} (h : m ≤ lastMillis) :
    (ofMillis m).text =
      layout (Date.ofDay (m / 1000 / 86400 : Nat)) (m / 1000 % 86400) (m % 1000) := by
  have hsigned := signedNanos_ofMillis h
  have hseconds : (ofMillis m).seconds = (m / 1000 : Nat) := by
    unfold seconds
    omega
  have hmilli : ((ofMillis m).signedNanos % 1000000000).toNat / 1000000 = m % 1000 := by omega
  rw [text_eq_pattern, pattern_eq, hseconds, hmilli]
  rfl

/-- The dates that these times fall on. -/
theorem year_ofMillis {m : Nat} (h : m ≤ lastMillis) :
    1970 ≤ (Date.ofDay (m / 1000 / 86400 : Nat)).year ∧
      (Date.ofDay (m / 1000 / 86400 : Nat)).year < 10 ^ 4 := by
  have hlt := nanos_lt h
  have hlast := (year_bounds (n := (m / 1000 / 86400 : Nat)) (by omega) (by omega)).2
  refine ⟨Date.le_year_ofDay ?_, by omega⟩
  have hepoch : Date.dayNumber ⟨1970, 1, 1⟩ = 0 := rfl
  omega

/-- A text made from milliseconds reads back as those milliseconds. -/
theorem readMillis?_ofMillis {m : Nat} (h : m ≤ lastMillis) :
    readMillis? (ofMillis m).text = some m := by
  obtain ⟨hfirst, hlast⟩ := year_ofMillis h
  have hreal := Date.isReal_ofDay (m / 1000 / 86400 : Nat)
  have hday := Date.dayNumber_eq_elapsedDays hfirst hreal
  rw [Date.dayNumber_ofDay, Int.natCast_inj] at hday
  rw [text_ofMillis h, readMillis?_layout hreal hfirst hlast (Nat.mod_lt _ (by decide))
    (Nat.mod_lt _ (by decide)), ← hday]
  congr 1
  omega

/-- A later time has the greater text. -/
theorem text_lt {m n : Nat} (hn : n ≤ lastMillis) (h : m < n) :
    (ofMillis m).text < (ofMillis n).text := by
  obtain ⟨hfirst, hlast⟩ := year_ofMillis hn
  rw [text_ofMillis (Nat.le_of_lt (Nat.lt_of_lt_of_le h hn)), text_ofMillis hn]
  refine dateDigits_append_lt (Date.isReal_ofDay _) (by omega) hlast ?_
  by_cases hday : m / 1000 / 86400 < n / 1000 / 86400
  · exact .inl (Date.before_ofDay (Int.ofNat_lt.mpr hday))
  · have hsame : m / 1000 / 86400 = n / 1000 / 86400 := by omega
    refine .inr ⟨by rw [hsame], List.append_left_lt ?_⟩
    exact clockDigits_lt (Nat.mod_lt _ (by decide)) (Nat.mod_lt _ (by decide)) (by omega)

theorem text_lt_iff {m n : Nat} (hm : m ≤ lastMillis) (hn : n ≤ lastMillis) :
    (ofMillis m).text < (ofMillis n).text ↔ m < n := by
  constructor
  · intro hlt
    by_contra hle
    rcases Nat.lt_or_eq_of_le (Nat.le_of_not_lt hle) with hgt | rfl
    · exact List.lt_asymm hlt (text_lt hm hgt)
    · exact List.lt_irrefl _ hlt
  · exact text_lt hn

/-- Texts of times are faithful and ordered. Whatever word of nanoseconds a time is, its text is all
of its date and time of day, in 21 bytes of one picture. The text of a time made from milliseconds
reads back as the milliseconds, and of two such times the earlier has the smaller text. -/
theorem text_faithful :
    (∀ t : Timestamp,
      t.text = t.pattern ∧ t.text.length = 21 ∧ hasPicture picture t.text = true) ∧
    (∀ m ≤ lastMillis, (ofMillis m).millis = m ∧ readMillis? (ofMillis m).text = some m) ∧
    (∀ m ≤ lastMillis, ∀ n ≤ lastMillis, m < n ↔ (ofMillis m).text < (ofMillis n).text) := by
  refine ⟨fun t => ⟨t.text_eq_pattern, t.length_text, ?_⟩, fun m hm => ?_, fun m hm n hn => ?_⟩
  · rw [text_eq_pattern]
    exact t.hasPicture_pattern
  · exact ⟨millis_ofMillis hm, readMillis?_ofMillis hm⟩
  · exact (text_lt_iff hm hn).symm

/-- The last millisecond before 29 February 2024 and the first of that day. -/
theorem text_faithful_leapDay :
    readMillis? (ofMillis 1709164799999).text = some 1709164799999 ∧
      (ofMillis 1709164799999).text = Utf8.bytes "20240228-23:59:59.999" ∧
      (ofMillis 1709164800000).text = Utf8.bytes "20240229-00:00:00.000" ∧
      (ofMillis 1709164799999).text < (ofMillis 1709164800000).text :=
  ⟨(text_faithful.2.1 _ (by decide)).2, (text_faithful.1 _).1.trans (by decide),
    (text_faithful.1 _).1.trans (by decide),
    (text_faithful.2.2 _ (by decide) _ (by decide)).mp (by decide)⟩

end Timestamp

end FixProtocol
