import Mathlib.Tactic.Ring
import MeetilyLocal.Calendar.StoredTimes

/-!
# Times of meetings as texts

The column `created_at` of `meetings` has texts of two shapes, as the MCP server (`db.rs`) says of
it: what `to_rfc3339` writes, and what sqlx writes, which has a space where the other one has a `T`.
Both may have a fraction of a second, with any number of digits. They agree on the first ten
characters, the date in UTC (`take_text`).

Texts of one shape compare as the times. A text of the one shape is greater than all texts of the
other one that are of the same date, and this is the only way in which a text that is not smaller
stands for an earlier time (`inverted_iff`).

A filter for dates has the shape of a date, but need not be one (`DateFilter`).
-/

namespace MeetilyLocal

namespace Mcp

open Decimal FixedWidth UtcDateTime

/-! ## Dates -/

/-- `YYYY-MM-DD` -/
def dateLayout : List (List Char × ℕ) := [([], 4), (['-'], 2), (['-'], 2)]

/-- Years, months and days, in lexicographic order. -/
def dateFields (year month day : ℕ) : ℤ ×ₗ ℕ ×ₗ ℕ := toLex ((year : ℤ), toLex (month, day))

theorem numbers_lt_iff {y m d y' m' d' : ℕ} :
    [y, m, d] < [y', m', d'] ↔ dateFields y m d < dateFields y' m' d' := by
  simp [dateFields, Prod.Lex.toLex_lt_toLex, List.cons_lt_cons_iff]

/-- A date to filter by: the numbers are those of a date, or too large for one. -/
structure DateFilter : Type where
  year : ℕ
  month : ℕ
  day : ℕ
  year_lt : year < 10 ^ 4
  month_lt : month < 10 ^ 2
  day_lt : day < 10 ^ 2

namespace DateFilter

variable (f : DateFilter)

/-- Its numbers. -/
def numbers : List ℕ := [f.year, f.month, f.day]

/-- Years, months and days, in lexicographic order. -/
def fields : ℤ ×ₗ ℕ ×ₗ ℕ := dateFields f.year f.month f.day

/-- As it is written. -/
def text : List Char := render dateLayout f.numbers []

theorem fits : Fits dateLayout f.numbers :=
  .cons ⟨by decide, f.year_lt⟩ (.cons ⟨by decide, f.month_lt⟩ (.cons ⟨by decide, f.day_lt⟩ .nil))

end DateFilter

/-- The byte of an ASCII digit. -/
def isAsciiDigit (b : UInt8) : Bool := 48 ≤ b.toNat && b.toNat ≤ 57

/-- Validate a `YYYY-MM-DD` date filter; `debug` is how a text is shown in an error. -/
def validateDate (debug : List Char → List Char) (value field : List Char) :
    Except (List Char) (List Char) :=
  let trimmed := trim value
  let bytes := Utf8.encode trimmed
  if bytes.length = 10 ∧ bytes[4]? = some 45 ∧ bytes[7]? = some 45 ∧
      bytes.zipIdx.all fun (b, i) => i = 4 || i = 7 || isAsciiDigit b then .ok trimmed
  else
    .error ("`".toList ++ field ++ "` must be a date in YYYY-MM-DD form (got ".toList ++
      debug value ++ "). Timestamps are UTC.".toList)

/-- The number that digits of a text are. -/
theorem exists_number {text : List Char} (lo w : ℕ) (hw : 0 < w) (hlen : lo + w ≤ text.length)
    (h : ∀ i c, lo ≤ i → i < lo + w → text[i]? = some c → c.isDigit = true) :
    ∃ n < 10 ^ w, (text.drop lo).take w = padded w n := by
  have hwidth : ((text.drop lo).take w).length = w := by
    rw [List.length_take, List.length_drop]
    omega
  have hdigits : ∀ c ∈ (text.drop lo).take w, c.isDigit = true := by
    intro c hc
    obtain ⟨i, hi, hget⟩ := List.mem_take_iff_getElem.mp hc
    rw [List.length_drop] at hi
    refine h (lo + i) c (by omega) (by omega) ?_
    rw [← hget, List.getElem_drop]
    exact List.getElem?_eq_getElem (by omega)
  have hne : (text.drop lo).take w ≠ [] := List.ne_nil_of_length_pos (by omega)
  simpa only [hwidth] using exists_eq_padded hne hdigits

/-- Ten characters, which are digits but for two dashes. -/
structure DateShaped (text : List Char) : Prop where
  length : text.length = 10
  first : text[4]? = some '-'
  second : text[7]? = some '-'
  digits : ∀ (i : ℕ) (c : Char), i ≠ 4 → i ≠ 7 → text[i]? = some c → c.isDigit = true

theorem dateShaped_of_validateDate {debug : List Char → List Char} {value field date : List Char}
    (h : validateDate debug value field = .ok date) : DateShaped date := by
  simp only [validateDate] at h
  split at h
  · next hok =>
    obtain ⟨hlen, hfirst, hsecond, hall⟩ := hok
    obtain rfl := Except.ok.inj h
    generalize trim value = text at hlen hfirst hsecond hall
    have hat : ∀ (i : ℕ) (byte : UInt8), (Utf8.encode text)[i]? = some byte →
        i = 4 ∨ i = 7 ∨ isAsciiDigit byte = true := by
      intro i byte hbyte
      have hmem : (byte, i) ∈ (Utf8.encode text).zipIdx := List.mem_zipIdx_iff_getElem?.mpr hbyte
      simpa [or_assoc] using List.all_eq_true.mp hall (byte, i) hmem
    have hsmall : ∀ byte ∈ Utf8.encode text, byte.toNat < 128 := by
      intro byte hmem
      obtain ⟨i, hi⟩ := List.mem_iff_getElem?.mp hmem
      rcases hat i byte hi with rfl | rfl | hdigit
      · obtain rfl := Option.some.inj (hi.symm.trans hfirst)
        decide
      · obtain rfl := Option.some.inj (hi.symm.trans hsecond)
        decide
      · simp only [isAsciiDigit, Bool.and_eq_true, decide_eq_true_eq] at hdigit
        omega
    -- each character is its byte
    have hbytes := Utf8.map_toNat_encode hsmall
    have hlength : text.length = 10 := by
      simpa [hlen] using (congrArg List.length hbytes).symm
    have hget : ∀ (i : ℕ) (c : Char), text[i]? = some c →
        ∃ byte : UInt8, (Utf8.encode text)[i]? = some byte ∧ byte.toNat = c.toNat := by
      intro i c hc
      have hi := congrArg (·[i]?) hbytes
      simp only [List.getElem?_map, hc, Option.map_some] at hi
      exact Option.map_eq_some_iff.mp hi
    have hdash : ∀ i < 10, (Utf8.encode text)[i]? = some 45 → text[i]? = some '-' := by
      intro i hi hbyte
      have hc : text[i]? = some text[i] := List.getElem?_eq_getElem (by omega)
      obtain ⟨byte, hbyte', heq⟩ := hget i _ hc
      obtain rfl := Option.some.inj (hbyte.symm.trans hbyte')
      have hc' : text[i] = '-' := Char.toNat_inj.mp heq.symm
      rw [hc, hc']
    refine ⟨hlength, hdash 4 (by decide) hfirst, hdash 7 (by decide) hsecond, ?_⟩
    intro i c hfour hseven hc
    obtain ⟨byte, hbyte, heq⟩ := hget i c hc
    have hdigit := ((hat i byte hbyte).resolve_left hfour).resolve_left hseven
    simp only [isAsciiDigit, Bool.and_eq_true, decide_eq_true_eq, heq] at hdigit
    simp only [Char.isDigit, Bool.and_eq_true, decide_eq_true_eq]
    exact hdigit
  · cases h

theorem DateShaped.exists_eq {text : List Char} (h : DateShaped text) :
    ∃ f : DateFilter, text = f.text := by
  have hlength := h.length
  obtain ⟨year, hyear, hfront⟩ := exists_number 0 4 (by decide) (by omega)
    fun i c _ hi => h.digits i c (by omega) (by omega)
  obtain ⟨month, hmonth, hmiddle⟩ := exists_number 5 2 (by decide) (by omega)
    fun i c hlo hi => h.digits i c (by omega) (by omega)
  obtain ⟨day, hday, hbehind⟩ := exists_number 8 2 (by decide) (by omega)
    fun i c hlo hi => h.digits i c (by omega) (by omega)
  refine ⟨⟨year, month, day, hyear, hmonth, hday⟩, ?_⟩
  have hcut : ∀ i : ℕ, text[i]? = some '-' → text.drop i = '-' :: text.drop (i + 1) := by
    intro i hi
    obtain ⟨hlt, heq⟩ := List.getElem?_eq_some_iff.mp hi
    rw [List.drop_eq_getElem_cons hlt, heq]
  have hend : (text.drop 8).take 2 = text.drop 8 := List.take_of_length_le (by simp; omega)
  calc text = text.take 4 ++ text.drop 4 := (List.take_append_drop 4 text).symm
    _ = text.take 4 ++ '-' :: ((text.drop 5).take 2 ++ (text.drop 5).drop 2) := by
      rw [hcut 4 h.first, List.take_append_drop]
    _ = text.take 4 ++ '-' :: ((text.drop 5).take 2 ++ '-' :: text.drop 8) := by
      rw [List.drop_drop, hcut 7 h.second]
    _ = _ := by
      rw [← hend, hbehind, hmiddle, ← List.drop_zero (l := text), hfront]
      simp [DateFilter.text, DateFilter.numbers, dateLayout, render]

/-- **What passes the check** is a date to filter by. -/
theorem exists_of_validateDate {debug : List Char → List Char} {value field date : List Char}
    (h : validateDate debug value field = .ok date) : ∃ f : DateFilter, date = f.text :=
  (dateShaped_of_validateDate h).exists_eq

/-! ## Times -/

/-- The two shapes. -/
inductive Shape : Type where
  /-- `to_rfc3339` -/
  | rfc3339 : Shape
  /-- sqlx's own encoding of a `DateTime<Utc>` -/
  | sqlx : Shape
  deriving DecidableEq

/-- What stands between the date and the time of day. -/
def Shape.separator : Shape → Char
  | rfc3339 => 'T'
  | sqlx => ' '

/-- A time as it is stored. -/
structure CreatedAt : Type where
  /-- the time -/
  time : UtcDateTime
  inYears : time.InYears
  /-- the shape of the text -/
  shape : Shape
  /-- the number of digits of its fraction of a second -/
  digits : ℕ
  digits_le : digits ≤ 9
  /-- they are enough for the fraction -/
  enough : time.frac % 1000000000 % 10 ^ (9 - digits) = 0

/-- A fraction of a second with so many digits. -/
def decimals (digits n : ℕ) : List Char := if digits = 0 then [] else '.' :: padded digits n

namespace CreatedAt

variable (a b : CreatedAt)

/-- The date in UTC. -/
def date : CivilDate := a.time.date

/-- Its numbers. -/
def dateNumbers : List ℕ := [a.date.year.toNat, a.date.month, a.date.day]

/-- `HH:MM:SS` -/
def clockLayout : List (List Char × ℕ) := [([], 2), ([':'], 2), ([':'], 2)]

/-- Its numbers; a leap second is the second 60. -/
def clockNumbers : List ℕ :=
  [a.time.secs / 3600, a.time.secs / 60 % 60, a.time.secs % 60 + a.time.frac / 1000000000]

/-- The number that the digits of its fraction are. -/
def fraction : ℕ := a.time.frac % 1000000000 / 10 ^ (9 - a.digits)

/-- The fraction of a second, and the zone. -/
def behind : List Char := decimals a.digits a.fraction ++ zone

/-- The text in the column. -/
def text : List Char :=
  render dateLayout a.dateNumbers
    (a.shape.separator :: render clockLayout a.clockNumbers a.behind)

theorem fits_date : Fits dateLayout a.dateNumbers := by
  have hyear := a.inYears
  have hmonth := a.time.date.month_mem.2
  have hday : a.time.date.day ≤ 31 := a.time.date.day_mem.2.trans (daysInMonth_le _ _)
  simp only [UtcDateTime.InYears] at hyear
  exact .cons ⟨by decide, by simp only [date]; omega⟩
    (.cons ⟨by decide, by simp only [date]; omega⟩
      (.cons ⟨by decide, by simp only [date]; omega⟩ .nil))

theorem fits_clock : Fits clockLayout a.clockNumbers := by
  have hsecs := a.time.secs_lt
  have hfrac := a.time.frac_lt
  simp only [FixedWidth.Fits, clockLayout, clockNumbers, List.forall₂_cons,
    List.forall₂_nil_left_iff]
  norm_num
  omega

/-- What a digit of the fraction in the last place is, in nanoseconds. -/
theorem pow_digits_mul : 10 ^ a.digits * 10 ^ (9 - a.digits) = 1000000000 := by
  rw [← pow_add, Nat.add_sub_cancel' a.digits_le]
  norm_num

theorem fraction_mul : a.fraction * 10 ^ (9 - a.digits) = a.time.frac % 1000000000 :=
  Nat.div_mul_cancel (Nat.dvd_of_mod_eq_zero a.enough)

theorem fraction_lt : a.fraction < 10 ^ a.digits := by
  rw [fraction, Nat.div_lt_iff_lt_mul (Nat.pow_pos (by norm_num)), pow_digits_mul]
  exact Nat.mod_lt _ (by norm_num)

variable {a b}

/-- The numbers of dates compare as the dates. -/
theorem dateFields_eq : dateFields a.date.year.toNat a.date.month a.date.day = a.date.fields := by
  have hyear := a.inYears.1
  rw [dateFields, CivilDate.fields, date, Int.toNat_of_nonneg hyear]

theorem dateNumbers_lt_iff : a.dateNumbers < b.dateNumbers ↔ a.date.fields < b.date.fields := by
  rw [dateNumbers, dateNumbers, numbers_lt_iff, dateFields_eq, dateFields_eq]

theorem dateNumbers_eq_iff : a.dateNumbers = b.dateNumbers ↔ a.date = b.date := by
  have hlt := @dateNumbers_lt_iff a b
  have hgt := @dateNumbers_lt_iff b a
  rw [← CivilDate.fields_injective.eq_iff]
  refine ⟨fun heq => ?_, fun heq => ?_⟩
  · rw [heq] at hlt hgt
    exact le_antisymm (not_lt.mp fun h => lt_irrefl _ (hgt.mpr h))
      (not_lt.mp fun h => lt_irrefl _ (hlt.mpr h))
  · rw [heq] at hlt hgt
    exact le_antisymm (not_lt.mp fun h => lt_irrefl _ (hgt.mp h))
      (not_lt.mp fun h => lt_irrefl _ (hlt.mp h))

/-- **The date** is what the first ten characters are. -/
theorem take_text : a.text.take 10 = render dateLayout a.dateNumbers [] := by
  have hlen : (render dateLayout a.dateNumbers []).length = 10 := length_render a.fits_date
  rw [text, ← List.nil_append (_ :: _), render_append a.fits_date, List.take_left' hlen]

/-- How texts compare. -/
theorem text_lt_iff : a.text < b.text ↔ a.date.fields < b.date.fields ∨ a.date = b.date ∧
    (a.shape.separator < b.shape.separator ∨ a.shape.separator = b.shape.separator ∧
      (a.clockNumbers < b.clockNumbers ∨
        a.clockNumbers = b.clockNumbers ∧ a.behind < b.behind)) := by
  rw [text, text, render_lt_iff a.fits_date b.fits_date, List.cons_lt_cons_iff,
    render_lt_iff a.fits_clock b.fits_clock, dateNumbers_lt_iff, dateNumbers_eq_iff]

/-- A later fraction of a second is a greater text. -/
theorem behind_lt (h : a.time.frac % 1000000000 < b.time.frac % 1000000000) :
    a.behind < b.behind := by
  rw [← fraction_mul, ← fraction_mul] at h
  have hb : b.digits ≠ 0 := by
    intro hzero
    have hlt := b.fraction_lt
    rw [hzero, pow_zero] at hlt
    rw [Nat.lt_one_iff.mp hlt, Nat.zero_mul] at h
    exact Nat.not_lt_zero _ h
  rw [behind, behind, decimals, decimals, if_neg hb]
  split
  · exact List.cons_lt_cons_iff.mpr (.inl (by decide))
  · next ha =>
    refine List.cons_lt_cons_iff.mpr (.inr ⟨rfl, ?_⟩)
    refine decimals_lt_decimals (by decide) (Nat.pos_of_ne_zero ha) (Nat.pos_of_ne_zero hb)
      a.fraction_lt b.fraction_lt ?_ _ _
    have hscaled := Nat.mul_lt_mul_of_pos_right h
      (Nat.mul_pos (Nat.pow_pos (n := a.digits) (by norm_num : 0 < 10))
        (Nat.pow_pos (n := b.digits) (by norm_num : 0 < 10)))
    have ha' : a.fraction * 10 ^ (9 - a.digits) * (10 ^ a.digits * 10 ^ b.digits) =
        a.fraction * 10 ^ b.digits * 1000000000 := by
      rw [← a.pow_digits_mul]
      ring
    have hb' : b.fraction * 10 ^ (9 - b.digits) * (10 ^ a.digits * 10 ^ b.digits) =
        b.fraction * 10 ^ a.digits * 1000000000 := by
      rw [← b.pow_digits_mul]
      ring
    rw [ha', hb'] at hscaled
    exact Nat.lt_of_mul_lt_mul_right hscaled

/-- Of two times of one date and shape the later one has the greater text. -/
theorem clock_lt (hdate : a.date = b.date) (h : a.time.moment < b.time.moment) :
    a.clockNumbers < b.clockNumbers ∨ a.clockNumbers = b.clockNumbers ∧ a.behind < b.behind := by
  have hclock : a.time.secs < b.time.secs ∨
      a.time.secs = b.time.secs ∧ a.time.frac < b.time.frac := by
    rcases moment_lt_iff.mp h with hless | ⟨-, hclock⟩
    · exact absurd hless (by rw [← date, ← date, hdate]; exact lt_irrefl _)
    · exact hclock
  rw [← clock_lt_iff] at hclock
  simp only [clockNumbers, List.cons_lt_cons_iff, List.cons_eq_cons, List.not_lt_nil, and_false,
    or_false, and_true]
  rcases hclock with hhour | ⟨hhour, hminute | ⟨hminute, hsecond | ⟨hsecond, hnano⟩⟩⟩
  · exact .inl (.inl hhour)
  · exact .inl (.inr ⟨hhour, .inl hminute⟩)
  · exact .inl (.inr ⟨hhour, .inr ⟨hminute, hsecond⟩⟩)
  · exact .inr ⟨⟨hhour, hminute, hsecond⟩, behind_lt hnano⟩

/-- **Texts that are not in the order of the times** are of one date: the earlier time is of the
shape with a `T`, the later one of that with a space. -/
theorem inverted_iff : b.text ≤ a.text ∧ a.time.moment < b.time.moment ↔ a.date = b.date ∧
    a.shape = .rfc3339 ∧ b.shape = .sqlx ∧ a.time.moment < b.time.moment := by
  constructor
  · rintro ⟨htext, htime⟩
    have hnot := mt text_lt_iff.mpr (not_lt.mpr htext)
    rw [not_or, not_and, not_or, not_and] at hnot
    obtain ⟨hless, hrest⟩ := hnot
    have hdate : a.date = b.date := (moment_lt_iff.mp htime).elim (absurd · hless) And.left
    obtain ⟨hseparator, hclock⟩ := hrest hdate
    -- of one shape they would be in order
    have hshape : a.shape ≠ b.shape :=
      fun hsame => hclock (congrArg Shape.separator hsame) (clock_lt hdate htime)
    cases ha : a.shape <;> cases hb : b.shape <;> rw [ha, hb] at hseparator hshape
    · exact absurd rfl hshape
    · exact ⟨hdate, rfl, rfl, htime⟩
    · exact absurd (by decide) hseparator
    · exact absurd rfl hshape
  · rintro ⟨hdate, ha, hb, htime⟩
    refine ⟨le_of_lt (text_lt_iff.mpr (.inr ⟨hdate.symm, .inl ?_⟩)), htime⟩
    rw [ha, hb]
    decide

/-- What `to_rfc3339` writes is of the one shape. -/
theorem exists_text_eq_rfc3339 {t : UtcDateTime} (h : t.InYears) :
    ∃ c : CreatedAt, c.time = t ∧ c.shape = .rfc3339 ∧ String.ofList c.text = t.rfc3339 := by
  obtain ⟨digits, hle, henough, hfraction⟩ : ∃ digits ≤ 9,
      t.frac % 1000000000 % 10 ^ (9 - digits) = 0 ∧
      decimals digits (t.frac % 1000000000 / 10 ^ (9 - digits)) =
        UtcDateTime.fraction (t.frac % 1000000000) := by
    rw [UtcDateTime.fraction]
    split
    · next hzero => exact ⟨0, by norm_num, by simp [hzero], rfl⟩
    split
    · next hmillis => exact ⟨3, by norm_num, hmillis, rfl⟩
    split
    · next hmicros => exact ⟨6, by norm_num, hmicros, rfl⟩
    · exact ⟨9, le_rfl, Nat.mod_one _, by simp [decimals]⟩
  refine ⟨⟨t, h, .rfc3339, digits, hle, henough⟩, rfl, rfl, ?_⟩
  rw [rfc3339_eq h, ← hfraction]
  rfl

end CreatedAt

end Mcp

end MeetilyLocal
