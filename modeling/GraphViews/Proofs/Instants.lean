import Mathlib
import GraphViews.Proofs.Calendar
import GraphViews.Convert
/-!
RFC 3339 texts of instants, read back.

`formatInstant` writes an instant as `YYYY-MM-DDThh:mm:ss[.f]Z`: the year padded to four
characters, every other field to two digits, and the microseconds, when there are any, with
their trailing zeros cut. `parseInstant` reads the fixed layout `YYYY-MM-DD` with four digits
for the year.

# Main statements

* `parseInstant_formatInstant`: the text of an instant of a four-digit year reads back as that
  instant.
* `parseInstant_formatInstant_error`: the text of any other instant is refused: its year is
  negative (a minus sign where a digit must stand) or has five digits (a digit where the dash
  must stand).
* `formatInstant_injective`: distinct instants have distinct texts, whatever their year.
* `parseInstant_fits`: whatever the text, an instant read from it lies in the 64-bit range.
* `instant_texts_round_trip`: all of it for 64-bit instants, with the instant converter and the
  coercion through a text.

# How the proofs go

The text is cut into fixed-width fields (`fixedDigits`): each two-digit field is the digits of a
number below 100 and reads back as that number (`digitsValue_fixedDigits`). The fraction is the
six-digit field without its trailing zeros (`trimZeros`), and padding it back to six digits gives
the field again. The date fields are the civil date of the day number, which `daysFromCivil`
turns back into the day number (`daysFromCivil_civilFromDays`).
-/

namespace GraphViews.Time

open GraphViews.Number

-- ============================================================ fixed-width digit fields

/-- The last `w` decimal digits of `n`, most significant first. -/
def fixedDigits : Nat → Nat → List Char
  | 0, _ => []
  | w + 1, n => fixedDigits w (n / 10) ++ [Nat.digitChar (n % 10)]

@[simp] theorem length_fixedDigits (w n : Nat) : (fixedDigits w n).length = w := by
  induction w generalizing n with
  | zero => rfl
  | succ w ih => simp [fixedDigits, ih]

theorem isDigit_of_mem_fixedDigits {w n : Nat} {c : Char} (h : c ∈ fixedDigits w n) :
    c.isDigit = true := by
  induction w generalizing n with
  | zero => simp [fixedDigits] at h
  | succ w ih =>
    simp only [fixedDigits, List.mem_append, List.mem_singleton] at h
    rcases h with h | rfl
    · exact ih h
    · simp [Nat.isDigit_digitChar, Nat.mod_lt]

theorem digitsValue_append_digit (cs : List Char) (c : Char) :
    digitsValue (cs ++ [c]) = 10 * digitsValue cs + (c.toNat - '0'.toNat) := by
  simp [digitsValue, List.foldl_append]

theorem digitsValue_fixedDigits (w n : Nat) : digitsValue (fixedDigits w n) = n % 10 ^ w := by
  induction w generalizing n with
  | zero => simp [fixedDigits, digitsValue, Nat.mod_one]
  | succ w ih =>
    have hd : (Nat.digitChar (n % 10)).toNat - '0'.toNat = n % 10 :=
      Nat.toNat_digitChar_sub_48_of_lt_ten (Nat.mod_lt _ (by decide))
    rw [fixedDigits, digitsValue_append_digit, ih, hd, Nat.pow_succ', Nat.mod_mul]
    omega

theorem fixedDigits_zero (w : Nat) : fixedDigits w 0 = List.replicate w '0' := by
  induction w with
  | zero => rfl
  | succ w ih => simp [fixedDigits, ih, List.replicate_succ']

/-- The decimal digits of `n`, zeros in front up to `w` digits, are its last `w` digits when it
has at most `w` of them. -/
theorem replicate_append_toDigits {w n : Nat} (hw : 0 < w) (h : n < 10 ^ w) :
    List.replicate (w - (Nat.toDigits 10 n).length) '0' ++ Nat.toDigits 10 n =
      fixedDigits w n := by
  induction w generalizing n with
  | zero => omega
  | succ w ih =>
    rcases Nat.lt_or_ge n 10 with hn | hn
    · rw [Nat.toDigits_of_lt_base hn, fixedDigits, Nat.div_eq_of_lt hn, Nat.mod_eq_of_lt hn,
        fixedDigits_zero]
      simp
    · have hw' : 0 < w := by
        rcases Nat.eq_zero_or_pos w with rfl | hw'
        · simp at h; omega
        · exact hw'
      have hdiv : n / 10 < 10 ^ w := by
        rw [Nat.pow_succ] at h
        omega
      rw [Nat.toDigits_of_base_le (by decide) hn, fixedDigits, ← ih hw' hdiv]
      simp

theorem padded_toList {w n : Nat} (hw : 0 < w) (h : n < 10 ^ w) :
    (padded w n).toList = fixedDigits w n := by
  simp [padded, zeros, digitText, String.toList_append, replicate_append_toDigits hw h]

theorem lt_pow_length_toDigits (n : Nat) : n < 10 ^ (Nat.toDigits 10 n).length := by
  induction n using Nat.strong_induction_on with
  | _ n ih =>
    rcases Nat.lt_or_ge n 10 with hn | hn
    · rw [Nat.toDigits_of_lt_base hn]
      simpa using hn
    · have hdiv := ih (n / 10) (by omega)
      rw [Nat.toDigits_of_base_le (by decide) hn, List.length_append, List.length_singleton,
        Nat.pow_succ]
      omega

/-- Whatever its size, a padded number is a fixed-width field: as wide as the padding or as its
digits, whichever is wider. -/
theorem padded_toList_eq (w n : Nat) :
    (padded w n).toList = fixedDigits (max w (Nat.toDigits 10 n).length) n := by
  have hlen := Nat.length_toDigits_pos (b := 10) (n := n)
  have hlt : n < 10 ^ max w (Nat.toDigits 10 n).length :=
    lt_of_lt_of_le (lt_pow_length_toDigits n) (Nat.pow_le_pow_right (by decide) (le_max_right _ _))
  rw [← replicate_append_toDigits (by omega) hlt]
  have hpad : max w (Nat.toDigits 10 n).length - (Nat.toDigits 10 n).length =
      w - (Nat.toDigits 10 n).length := by omega
  simp [padded, zeros, digitText, String.toList_append, hpad]

theorem digitsValue_padded (w n : Nat) : digitsValue (padded w n).toList = n := by
  rw [padded_toList_eq, digitsValue_fixedDigits, Nat.mod_eq_of_lt]
  exact lt_of_lt_of_le (lt_pow_length_toDigits n)
    (Nat.pow_le_pow_right (by decide) (le_max_right _ _))

theorem isDigit_of_mem_padded {w n : Nat} {c : Char} (h : c ∈ (padded w n).toList) :
    c.isDigit = true := by
  rw [padded_toList_eq] at h
  exact isDigit_of_mem_fixedDigits h

theorem le_length_padded (w n : Nat) : w ≤ (padded w n).toList.length := by
  simp [padded_toList_eq]

-- ============================================================ the fraction

/-- Digits without their trailing zeros, as the fraction of a second is written. -/
def trimZeros (cs : List Char) : List Char := (cs.reverse.dropWhile (· == '0')).reverse

/-- Cutting the trailing zeros leaves a prefix that the zeros complete. -/
theorem trimZeros_append_replicate (cs : List Char) :
    trimZeros cs ++ List.replicate (cs.length - (trimZeros cs).length) '0' = cs := by
  have hsplit := List.takeWhile_append_dropWhile (p := (· == '0')) (l := cs.reverse)
  have hzeros : cs.reverse.takeWhile (· == '0') =
      List.replicate (cs.reverse.takeWhile (· == '0')).length '0' := by
    rw [List.eq_replicate_iff]
    refine ⟨rfl, fun c hc => ?_⟩
    simpa using List.mem_takeWhile_imp hc
  have hcs : cs = trimZeros cs ++ List.replicate (cs.reverse.takeWhile (· == '0')).length '0' := by
    rw [trimZeros, ← List.reverse_replicate, ← List.reverse_append, ← hzeros, hsplit,
      List.reverse_reverse]
  have hlen : cs.length - (trimZeros cs).length = (cs.reverse.takeWhile (· == '0')).length := by
    have := congrArg List.length hcs
    simp only [List.length_append, List.length_replicate] at this
    omega
  rw [hlen, ← hcs]

theorem trimZeros_sublist (cs : List Char) : (trimZeros cs).Sublist cs := by
  conv_rhs => rw [← trimZeros_append_replicate cs]
  exact List.sublist_append_left _ _

/-- The digits of a fraction that is not zero keep at least one digit. -/
theorem trimZeros_ne_nil_of_fixedDigits {w n : Nat} (h0 : 0 < n) (h1 : n < 10 ^ w) :
    trimZeros (fixedDigits w n) ≠ [] := by
  intro hnil
  have hcs := trimZeros_append_replicate (fixedDigits w n)
  rw [hnil, List.nil_append, ← fixedDigits_zero] at hcs
  have hval := congrArg digitsValue hcs
  rw [digitsValue_fixedDigits, digitsValue_fixedDigits, Nat.zero_mod, Nat.mod_eq_of_lt h1] at hval
  omega

/-- The fraction of a second as written: nothing for a whole second, else a point and the six
digits of the microseconds without their trailing zeros. -/
def fractionChars (fraction : Nat) : List Char :=
  if fraction = 0 then [] else '.' :: trimZeros (fixedDigits 6 fraction)

-- ============================================================ the fields of an instant

/-- The fields an instant is written with: its civil date, and the hours, minutes, seconds and
microseconds of its day. -/
structure Fields where
  year : Int
  month : Nat
  day : Nat
  hours : Nat
  minutes : Nat
  seconds : Nat
  fraction : Nat

/-- The fields of an instant, as `formatInstant` computes them. -/
def fieldsOf (m : Int) : Fields :=
  let time := m % microsPerDay
  let date := civilFromDays (m / microsPerDay)
  ⟨date.1, date.2.1, date.2.2, (time / microsPerHour).toNat,
    ((time % microsPerHour) / microsPerMinute).toNat,
    ((time % microsPerMinute) / microsPerSecond).toNat, (time % microsPerSecond).toNat⟩

/-- Fields that name a real date and a time of day. -/
structure Fields.Valid (f : Fields) : Prop where
  month_pos : 1 ≤ f.month
  month_le : f.month ≤ 12
  day_pos : 1 ≤ f.day
  day_le : f.day ≤ daysInMonth f.year f.month
  hours_lt : f.hours < 24
  minutes_lt : f.minutes < 60
  seconds_lt : f.seconds < 60
  fraction_lt : f.fraction < 1000000

theorem daysInMonth_le (y : Int) (m : Nat) : daysInMonth y m ≤ 31 := by
  unfold daysInMonth
  split <;> (try split) <;> omega

theorem Fields.Valid.day_le_31 {f : Fields} (hf : f.Valid) : f.day ≤ 31 :=
  le_trans hf.day_le (daysInMonth_le _ _)

theorem fieldsOf_valid (m : Int) : (fieldsOf m).Valid := by
  obtain ⟨hm0, hm1, hd0, hd1⟩ := civilFromDays_valid (m / microsPerDay)
  have htime : 0 ≤ m % microsPerDay ∧ m % microsPerDay < microsPerDay :=
    ⟨Int.emod_nonneg _ (by decide), Int.emod_lt_of_pos _ (by decide)⟩
  refine ⟨hm0, hm1, hd0, hd1, ?_, ?_, ?_, ?_⟩ <;>
    simp only [fieldsOf, microsPerDay, microsPerHour, microsPerMinute, microsPerSecond]
      at htime ⊢ <;> omega

/-- The instant named by some fields. -/
def Fields.instant (f : Fields) : Int :=
  daysFromCivil f.year f.month f.day * microsPerDay + f.hours * microsPerHour +
    f.minutes * microsPerMinute + f.seconds * microsPerSecond + f.fraction

/-- An instant is the instant its fields name. -/
theorem instant_fieldsOf (m : Int) : (fieldsOf m).instant = m := by
  have hdays := daysFromCivil_civilFromDays (m / microsPerDay)
  simp only [Fields.instant, fieldsOf, hdays]
  simp only [microsPerDay, microsPerHour, microsPerMinute, microsPerSecond]
  omega

/-- The characters written for some fields. -/
def Fields.text (f : Fields) : List Char :=
  (yearText f.year).toList ++ '-' :: fixedDigits 2 f.month ++ '-' :: fixedDigits 2 f.day ++
    'T' :: fixedDigits 2 f.hours ++ ':' :: fixedDigits 2 f.minutes ++ ':' ::
    fixedDigits 2 f.seconds ++ fractionChars f.fraction ++ ['Z']

/-- The text of an instant is the text of its fields. -/
theorem formatInstant_toList (m : Int) : (formatInstant m).toList = (fieldsOf m).text := by
  obtain ⟨-, hmo, -, hd, hh, hmi, hs, hf⟩ := fieldsOf_valid m
  have hd31 := le_trans hd (daysInMonth_le _ _)
  simp only [fieldsOf] at hmo hd31 hh hmi hs hf
  have h2 : ∀ n, n < 60 → (padded 2 n).toList = fixedDigits 2 n := fun n hn =>
    padded_toList (by decide) (by omega)
  have h6 := padded_toList (w := 6) (by decide) (show _ < 10 ^ 6 from hf)
  unfold formatInstant Fields.text fieldsOf fractionChars
  dsimp only
  simp only [String.toList_append, h2 _ (show (civilFromDays (m / microsPerDay)).2.1 < 60 by omega),
    h2 _ (show (civilFromDays (m / microsPerDay)).2.2 < 60 by omega), h2 _ (show (m % microsPerDay / microsPerHour).toNat < 60 by omega),
    h2 _ hmi, h2 _ hs, h6, beq_iff_eq]
  split_ifs <;> simp [trimZeros]

-- ============================================================ reading the text back

theorem length_le_utf8Len (cs : List Char) : cs.length ≤ String.utf8Len cs := by
  induction cs with
  | nil => simp
  | cons c cs ih =>
    have := Char.utf8Size_pos c
    simp only [List.length_cons, String.utf8Len_cons]
    omega

theorem toNat_lt_of_isDigit {c : Char} (h : c.isDigit = true) : c.toNat < 128 := by
  simp only [Char.isDigit, Bool.and_eq_true, decide_eq_true_eq] at h
  have h9 : c.toNat ≤ '9'.toNat := h.2
  simp only [Char.reduceToNat] at h9
  omega

/-- A field of `w` digits reads back as its number. -/
theorem digitField_fixedDigits {w n : Nat} (hw : 0 < w) (h : n < 10 ^ w) (what input : String) :
    digitField (fixedDigits w n) what input = .ok n := by
  have hne : (fixedDigits w n).isEmpty = false := by
    rw [List.isEmpty_eq_false_iff, ← List.length_pos_iff, length_fixedDigits]
    exact hw
  have hall : (fixedDigits w n).all Char.isDigit = true :=
    List.all_eq_true.2 fun c hc => isDigit_of_mem_fixedDigits hc
  simp [digitField, hne, hall, digitsValue_fixedDigits, Nat.mod_eq_of_lt h]

theorem yearText_toList {y : Int} (h0 : 0 ≤ y) (h1 : y ≤ 9999) :
    (yearText y).toList = fixedDigits 4 y.toNat := by
  have hy : ¬y < 0 := by omega
  rw [yearText, if_neg hy, padded_toList (by decide) (by omega)]
  congr 1
  omega

theorem yearText_toList_of_neg {y : Int} (h : y < 0) :
    (yearText y).toList = '-' :: (padded 3 y.natAbs).toList := by
  simp [yearText, h, String.toList_append]

theorem yearText_toList_of_nonneg {y : Int} (h : 0 ≤ y) :
    (yearText y).toList = (padded 4 y.natAbs).toList := by
  simp [yearText, not_lt.2 h]

theorem spanDigits_append {ds : List Char} (h : ∀ c ∈ ds, c.isDigit = true) (rest : List Char) :
    spanDigits (ds ++ rest) = (ds ++ (spanDigits rest).1, (spanDigits rest).2) := by
  induction ds with
  | nil => rfl
  | cons c ds ih =>
    have hc := h c (by simp)
    have ih := ih fun c hc => h c (by simp [hc])
    simp only [spanDigits, Prod.mk.injEq] at ih ⊢
    simp [hc, ih.1, ih.2]

/-- The six digits of a fraction, without their trailing zeros, read back as the fraction. -/
theorem fractionMicros_trimZeros {n : Nat} (h : n < 1000000) :
    fractionMicros (trimZeros (fixedDigits 6 n)) = n := by
  have hlen : (trimZeros (fixedDigits 6 n)).length ≤ 6 := by
    simpa using (trimZeros_sublist (fixedDigits 6 n)).length_le
  have hcs := trimZeros_append_replicate (fixedDigits 6 n)
  rw [length_fixedDigits] at hcs
  rw [fractionMicros, List.take_of_length_le hlen, hcs, digitsValue_fixedDigits]
  exact Nat.mod_eq_of_lt h

theorem fractionChars_ascii {n : Nat} : ∀ c ∈ fractionChars n, c.toNat < 128 := by
  intro c hc
  unfold fractionChars at hc
  split_ifs at hc
  · simp at hc
  · rcases List.mem_cons.1 hc with rfl | hc
    · decide
    · exact toNat_lt_of_isDigit
        (isDigit_of_mem_fixedDigits ((trimZeros_sublist _).subset hc))

theorem yearText_ascii (y : Int) : ∀ c ∈ (yearText y).toList, c.toNat < 128 := by
  intro c hc
  rcases lt_or_ge y 0 with hy | hy
  · rw [yearText_toList_of_neg hy, List.mem_cons] at hc
    rcases hc with rfl | hc
    · decide
    · exact toNat_lt_of_isDigit (isDigit_of_mem_padded hc)
  · rw [yearText_toList_of_nonneg hy] at hc
    exact toNat_lt_of_isDigit (isDigit_of_mem_padded hc)

/-- The text of an instant is ASCII. -/
theorem Fields.text_all_ascii (f : Fields) : f.text.all (fun c => decide (c.toNat < 128)) = true := by
  have digits : ∀ w n, (fixedDigits w n).all (fun c => decide (c.toNat < 128)) = true :=
    fun _ _ => List.all_eq_true.2 fun c hc =>
      decide_eq_true (toNat_lt_of_isDigit (isDigit_of_mem_fixedDigits hc))
  have year := List.all_eq_true.2 fun c hc => decide_eq_true (yearText_ascii f.year c hc)
  have fraction := List.all_eq_true.2 fun c hc =>
    decide_eq_true (fractionChars_ascii (n := f.fraction) c hc)
  simp [Fields.text, List.all_append, digits, year, fraction]

/-- A date written with a four-digit year, a real month and a real day reads back as its day
number. -/
theorem parseDatePart_digits {y1 y2 y3 y4 m1 m2 d1 d2 : Char} {year : Int} {month day : Nat}
    (hy : ∀ what input, digitField [y1, y2, y3, y4] what input = .ok year.toNat)
    (hm : ∀ what input, digitField [m1, m2] what input = .ok month)
    (hd : ∀ what input, digitField [d1, d2] what input = .ok day)
    (hy0 : 0 ≤ year) (hm0 : 1 ≤ month) (hm1 : month ≤ 12) (hd0 : 1 ≤ day)
    (hd1 : day ≤ daysInMonth year month) (input : String) :
    parseDatePart [y1, y2, y3, y4, '-', m1, m2, '-', d1, d2] input =
      .ok (daysFromCivil year month day) := by
  have hyear : ((year.toNat : Nat) : Int) = year := Int.toNat_of_nonneg hy0
  have hmonth : ¬(month = 0 ∨ 12 < month) := by omega
  have hday : ¬(day = 0 ∨ daysInMonth year month < day) := by omega
  simp [parseDatePart, slice, hy, hm, hd, hyear, hmonth, hday, bind, Except.bind, pure,
    Except.pure]

/-- A clock of three two-digit fields within range reads back as those fields. -/
theorem parseClock_digits {h1 h2 i1 i2 s1 s2 : Char} {hours minutes seconds : Nat}
    {input : String} (rest : List Char)
    (hh : digitField [h1, h2] "hours" input = .ok hours)
    (hi : digitField [i1, i2] "minutes" input = .ok minutes)
    (hs : digitField [s1, s2] "seconds" input = .ok seconds)
    (hrange : hours ≤ 23 ∧ minutes ≤ 59 ∧ seconds ≤ 60) :
    parseClock (h1 :: h2 :: ':' :: i1 :: i2 :: ':' :: s1 :: s2 :: rest) input =
      .ok (hours, minutes, seconds) := by
  have hin : ¬((23 < hours ∨ 59 < minutes) ∨ 60 < seconds) := by omega
  simp [parseClock, slice, hh, hi, hs, hin, bind, Except.bind, pure, Except.pure]

/-- The written fraction, before the closing `Z`, reads back as the microseconds. -/
theorem parseFraction_fractionChars {n : Nat} (h : n < 1000000) (input : String) :
    parseFraction (fractionChars n ++ ['Z']) input = .ok (n, ['Z']) := by
  rcases Nat.eq_zero_or_pos n with rfl | hpos
  · rfl
  · -- a point, the digits without their trailing zeros, and the `Z`
    have hT := trimZeros_ne_nil_of_fixedDigits hpos (show n < 10 ^ 6 from h)
    have hspan : spanDigits (trimZeros (fixedDigits 6 n) ++ ['Z']) =
        (trimZeros (fixedDigits 6 n), ['Z']) := by
      have hZ : spanDigits ['Z'] = ([], ['Z']) := by decide
      rw [spanDigits_append fun c hc => isDigit_of_mem_fixedDigits
        ((trimZeros_sublist _).subset hc), hZ, List.append_nil]
    simp [parseFraction, fractionChars, hpos.ne', hspan, hT, fractionMicros_trimZeros h]
    rfl

/-- The text of fields with a four-digit year reads back as the instant they name. -/
theorem parseInstant_text {f : Fields} (hf : f.Valid) (hy0 : 0 ≤ f.year) (hy1 : f.year ≤ 9999) :
    parseInstant (String.ofList f.text) = .ok f.instant := by
  have hd31 := hf.day_le_31
  -- the fixed-width fields, as digit characters
  obtain ⟨y1, y2, y3, y4, hY⟩ := List.length_eq_four.1 (length_fixedDigits 4 f.year.toNat)
  obtain ⟨m1, m2, hM⟩ := List.length_eq_two.1 (length_fixedDigits 2 f.month)
  obtain ⟨d1, d2, hD⟩ := List.length_eq_two.1 (length_fixedDigits 2 f.day)
  obtain ⟨h1, h2, hH⟩ := List.length_eq_two.1 (length_fixedDigits 2 f.hours)
  obtain ⟨i1, i2, hI⟩ := List.length_eq_two.1 (length_fixedDigits 2 f.minutes)
  obtain ⟨s1, s2, hS⟩ := List.length_eq_two.1 (length_fixedDigits 2 f.seconds)
  have two : ∀ {n : Nat} {a b : Char}, n < 100 → fixedDigits 2 n = [a, b] →
      ∀ what input, digitField [a, b] what input = .ok n := fun hn h => h ▸
    digitField_fixedDigits (by decide) (by omega)
  have hdate := parseDatePart_digits (hY ▸ digitField_fixedDigits (by decide) (by omega))
    (two (by have := hf.month_le; omega) hM) (two (by omega) hD) hy0 hf.month_pos hf.month_le
    hf.day_pos hf.day_le
  have htext : f.text = [y1, y2, y3, y4, '-', m1, m2, '-', d1, d2, 'T', h1, h2, ':', i1, i2, ':',
      s1, s2] ++ fractionChars f.fraction ++ ['Z'] := by
    simp [Fields.text, yearText_toList hy0 hy1, hY, hM, hD, hH, hI, hS]
  generalize hinput : String.ofList f.text = input
  have hcs : input.toList = [y1, y2, y3, y4, '-', m1, m2, '-', d1, d2, 'T', h1, h2, ':', i1, i2,
      ':', s1, s2] ++ fractionChars f.fraction ++ ['Z'] := by
    rw [← hinput, String.toList_ofList, htext]
  have hsize : 10 ≤ input.utf8ByteSize := by
    rw [← hinput, String.utf8ByteSize_ofList]
    refine le_trans ?_ (length_le_utf8Len _)
    simp [htext]
  have hall : ([y1, y2, y3, y4, '-', m1, m2, '-', d1, d2, 'T', h1, h2, ':', i1, i2, ':', s1, s2] ++
      fractionChars f.fraction ++ ['Z']).all (fun c => decide (c.toNat < 128)) = true :=
    htext ▸ f.text_all_ascii
  have hsize' : ¬input.utf8ByteSize < 10 := by omega
  have hmin : min (f.seconds : Int) 59 = f.seconds := by
    have := hf.seconds_lt
    omega
  have hclock := parseClock_digits (fractionChars f.fraction ++ ['Z'])
    (two (by have := hf.hours_lt; omega) hH "hours" input)
    (two (by have := hf.minutes_lt; omega) hI "minutes" input)
    (two (by have := hf.seconds_lt; omega) hS "seconds" input)
    ⟨by have := hf.hours_lt; omega, by have := hf.minutes_lt; omega,
      by have := hf.seconds_lt; omega⟩
  have hoffset : parseOffset ['Z'] input = .ok 0 := rfl
  unfold parseInstant
  simp only [hcs, hall, hsize']
  simp [hdate, hclock, parseFraction_fractionChars hf.fraction_lt, hoffset, hmin,
    Fields.instant, bind, Except.bind, pure, Except.pure]

-- ============================================================ texts that are refused

/-- A date part fails when a digit stands where the dash must, or a minus sign among the year's
four digits. -/
theorem parseDatePart_error {cs : List Char} (h : cs[4]? ≠ some '-' ∨ '-' ∈ cs.take 4)
    (input : String) : ∃ e, parseDatePart cs input = .error e := by
  unfold parseDatePart
  by_cases hlayout : (cs.length != 10 || cs[4]? != some '-' || cs[7]? != some '-') = true
  · exact ⟨_, by simp only [hlayout, if_true]; rfl⟩
  · have h4 : cs[4]? = some '-' := by
      simp only [Bool.or_eq_true, bne_iff_ne, ne_eq, not_or, not_not] at hlayout
      exact hlayout.1.2
    have hminus : '-' ∈ cs.take 4 := h.resolve_left (by simp [h4])
    have hall : (cs.take 4).all Char.isDigit = false :=
      List.all_eq_false.2 ⟨'-', hminus, by decide⟩
    exact ⟨⟨"year", input⟩, by simp [hlayout, bind, Except.bind, digitField, slice, hall]⟩

/-- A text whose date part fails is refused. -/
theorem parseInstant_error_of_date {input : String}
    (h : ∃ e, parseDatePart (input.toList.take 10) input = .error e) :
    ∃ e, parseInstant input = .error e := by
  obtain ⟨e, he⟩ := h
  unfold parseInstant
  by_cases hpre : (decide (input.utf8ByteSize < 10) || !input.toList.all (·.toNat < 128)) = true
  · exact ⟨_, by simp only [hpre, if_true]; rfl⟩
  · exact ⟨e, by simp [hpre, bind, Except.bind, he]⟩

/-- The text of fields whose year is negative or has five digits is refused. -/
theorem parseInstant_text_error {f : Fields} (hy : f.year < 0 ∨ 9999 < f.year) :
    ∃ e, parseInstant (String.ofList f.text) = .error e := by
  apply parseInstant_error_of_date
  apply parseDatePart_error
  rw [String.toList_ofList]
  rcases hy with hneg | hbig
  · -- the minus sign opens the year
    right
    simp [Fields.text, yearText_toList_of_neg hneg]
  · -- five digits or more: the fifth character is a digit where the dash must stand
    left
    have hlen : 5 ≤ (padded 4 f.year.natAbs).toList.length := by
      rw [padded_toList_eq, length_fixedDigits]
      by_contra hshort
      have hle : 10 ^ (Nat.toDigits 10 f.year.natAbs).length ≤ 10 ^ 4 :=
        Nat.pow_le_pow_right (by decide) (by omega)
      have := lt_pow_length_toDigits f.year.natAbs
      omega
    have hdigit := isDigit_of_mem_padded
      (List.getElem_mem (l := (padded 4 f.year.natAbs).toList) (n := 4) (by omega))
    simp only [Fields.text, yearText_toList_of_nonneg (by omega : 0 ≤ f.year), List.append_assoc,
      List.getElem?_take, show 4 < 10 by decide, if_true, List.getElem?_append_left hlen,
      List.getElem?_eq_getElem hlen, ne_eq, Option.some.injEq]
    intro hdash
    rw [hdash] at hdigit
    exact absurd hdigit (by decide)

-- ============================================================ distinct instants, distinct texts

theorem dash_not_mem_padded (w n : Nat) : '-' ∉ (padded w n).toList :=
  fun h => absurd (isDigit_of_mem_padded h) (by decide)

/-- Two texts cut at their first dash, after heads without one, have equal heads and tails. -/
theorem append_dash_inj {A A' R R' : List Char} (hA : '-' ∉ A) (hA' : '-' ∉ A')
    (h : A ++ '-' :: R = A' ++ '-' :: R') : A = A' ∧ R = R' := by
  induction A generalizing A' with
  | nil =>
    cases A' with
    | nil => simpa using h
    | cons a A' =>
      simp only [List.nil_append, List.cons_append, List.cons.injEq] at h
      exact absurd (h.1 ▸ List.mem_cons_self) hA'
  | cons a A ih =>
    cases A' with
    | nil =>
      simp only [List.nil_append, List.cons_append, List.cons.injEq] at h
      exact absurd (h.1 ▸ List.mem_cons_self) hA
    | cons a' A' =>
      simp only [List.cons_append, List.cons.injEq] at h
      obtain ⟨rfl, h⟩ := h
      obtain ⟨hAA, hRR⟩ := ih (fun hm => hA (List.mem_cons_of_mem _ hm))
        (fun hm => hA' (List.mem_cons_of_mem _ hm)) h
      exact ⟨hAA ▸ rfl, hRR⟩

/-- A text that opens with a minus sign is no padded number followed by anything. -/
theorem minus_cons_ne_padded_append {w n : Nat} (hw : 0 < w) (X Y : List Char) :
    '-' :: X ≠ (padded w n).toList ++ Y := by
  intro h
  obtain ⟨c, P, hP⟩ := List.exists_cons_of_length_pos (lt_of_lt_of_le hw (le_length_padded w n))
  rw [hP, List.cons_append, List.cons.injEq] at h
  exact dash_not_mem_padded w n (hP ▸ h.1 ▸ List.mem_cons_self)

/-- The year is read off the text before its separating dash. -/
theorem yearText_append_inj {y y' : Int} {R R' : List Char}
    (h : (yearText y).toList ++ '-' :: R = (yearText y').toList ++ '-' :: R') :
    y = y' ∧ R = R' := by
  have hval : ∀ {w w'} {a b : Nat}, (padded w a).toList = (padded w' b).toList → a = b :=
    fun hP => by simpa only [digitsValue_padded] using congrArg digitsValue hP
  rcases lt_or_ge y 0 with hy | hy <;> rcases lt_or_ge y' 0 with hy' | hy'
  · rw [yearText_toList_of_neg hy, yearText_toList_of_neg hy', List.cons_append,
      List.cons_append, List.cons.injEq] at h
    obtain ⟨hP, hR⟩ := append_dash_inj (dash_not_mem_padded _ _) (dash_not_mem_padded _ _) h.2
    exact ⟨by have := hval hP; omega, hR⟩
  · rw [yearText_toList_of_neg hy, yearText_toList_of_nonneg hy', List.cons_append] at h
    exact absurd h (minus_cons_ne_padded_append (by decide) _ _)
  · rw [yearText_toList_of_nonneg hy, yearText_toList_of_neg hy', List.cons_append] at h
    exact absurd h.symm (minus_cons_ne_padded_append (by decide) _ _)
  · rw [yearText_toList_of_nonneg hy, yearText_toList_of_nonneg hy'] at h
    obtain ⟨hP, hR⟩ := append_dash_inj (dash_not_mem_padded _ _) (dash_not_mem_padded _ _) h
    exact ⟨by have := hval hP; omega, hR⟩

theorem fixedDigits_inj {w a b : Nat} (ha : a < 10 ^ w) (hb : b < 10 ^ w)
    (h : fixedDigits w a = fixedDigits w b) : a = b := by
  have := congrArg digitsValue h
  rwa [digitsValue_fixedDigits, digitsValue_fixedDigits, Nat.mod_eq_of_lt ha,
    Nat.mod_eq_of_lt hb] at this

/-- A two-digit field and the separator after it. -/
theorem fixedDigits_append_inj {a b : Nat} {c : Char} {R R' : List Char} (ha : a < 100)
    (hb : b < 100) (h : fixedDigits 2 a ++ c :: R = fixedDigits 2 b ++ c :: R') :
    a = b ∧ R = R' := by
  obtain ⟨hab, hR⟩ := List.append_inj h (by simp)
  exact ⟨fixedDigits_inj ha hb hab, (List.cons.inj hR).2⟩

theorem fractionChars_inj {a b : Nat} (ha : a < 10 ^ 6) (hb : b < 10 ^ 6)
    (h : fractionChars a = fractionChars b) : a = b := by
  rcases Nat.eq_zero_or_pos a with rfl | ha0 <;> rcases Nat.eq_zero_or_pos b with rfl | hb0
  · rfl
  · simp [fractionChars, hb0.ne'] at h
  · simp [fractionChars, ha0.ne'] at h
  · -- padding the cut digits back to six gives the six-digit fields, which are then equal
    simp only [fractionChars, if_neg ha0.ne', if_neg hb0.ne', List.cons.injEq, true_and] at h
    have ea := trimZeros_append_replicate (fixedDigits 6 a)
    have eb := trimZeros_append_replicate (fixedDigits 6 b)
    rw [length_fixedDigits, h] at ea
    rw [length_fixedDigits] at eb
    exact fixedDigits_inj ha hb (ea.symm.trans eb)

theorem Fields.text_inj {f g : Fields} (hf : f.Valid) (hg : g.Valid) (h : f.text = g.text) :
    f = g := by
  have := hf.day_le_31
  have := hg.day_le_31
  have := hf.month_le
  have := hg.month_le
  have := hf.hours_lt
  have := hg.hours_lt
  have := hf.minutes_lt
  have := hg.minutes_lt
  have := hf.seconds_lt
  have := hg.seconds_lt
  simp only [Fields.text, List.append_assoc, List.cons_append] at h
  obtain ⟨hyear, h⟩ := yearText_append_inj h
  obtain ⟨hmonth, h⟩ := fixedDigits_append_inj (by omega) (by omega) h
  obtain ⟨hday, h⟩ := fixedDigits_append_inj (by omega) (by omega) h
  obtain ⟨hhours, h⟩ := fixedDigits_append_inj (by omega) (by omega) h
  obtain ⟨hminutes, h⟩ := fixedDigits_append_inj (by omega) (by omega) h
  -- the seconds, then the fraction before the closing `Z`
  obtain ⟨hs, h⟩ := List.append_inj h (by simp)
  have hseconds := fixedDigits_inj (by omega) (by omega) hs
  have hfraction := fractionChars_inj hf.fraction_lt hg.fraction_lt (List.append_cancel_right h)
  cases f
  cases g
  simp_all

/-- Distinct instants have distinct texts, whatever their year. -/
theorem formatInstant_injective : Function.Injective formatInstant := by
  intro m m' h
  have htext := congrArg String.toList h
  rw [formatInstant_toList, formatInstant_toList] at htext
  rw [← instant_fieldsOf m, ← instant_fieldsOf m',
    Fields.text_inj (fieldsOf_valid m) (fieldsOf_valid m') htext]

-- ============================================================ every instant read fits in 64 bits

theorem except_bind_eq_ok {ε α β : Type} {x : Except ε α} {f : α → Except ε β} {b : β} :
    (x >>= f) = .ok b ↔ ∃ a, x = .ok a ∧ f a = .ok b := by
  cases x <;> simp [bind, Except.bind]

theorem except_ok_bind {ε α β : Type} (a : α) (f : α → Except ε β) : (Except.ok a >>= f) = f a :=
  rfl

theorem digitsValue_lt {cs : List Char} (h : ∀ c ∈ cs, c.isDigit = true) :
    digitsValue cs < 10 ^ cs.length := by
  induction cs using List.reverseRecOn with
  | nil => simp [digitsValue]
  | append_singleton cs c ih =>
    have hc := h c (by simp)
    simp only [Char.isDigit, Bool.and_eq_true, decide_eq_true_eq] at hc
    have h9 : c.toNat ≤ '9'.toNat := hc.2
    simp only [Char.reduceToNat] at h9
    have hcs := ih fun d hd => h d (by simp [hd])
    rw [digitsValue_append_digit, List.length_append, List.length_singleton, Nat.pow_succ]
    simp only [Char.reduceToNat]
    omega

theorem digitField_lt {cs : List Char} {what input : String} {n : Nat}
    (h : digitField cs what input = .ok n) : n < 10 ^ cs.length := by
  unfold digitField at h
  split at h
  · cases h
  · rename_i hdigits
    cases h
    exact digitsValue_lt (by simpa using hdigits : cs ≠ [] ∧ ∀ c ∈ cs, c.isDigit = true).2

theorem length_slice_le (cs : List Char) (i j : Nat) : (slice cs i j).length ≤ j - i := by
  simp [slice]

/-- A date part that is read names a day of a four-digit year. -/
theorem parseDatePart_ok {cs : List Char} {input : String} {d : Int}
    (h : parseDatePart cs input = .ok d) :
    ∃ year month day : Nat, year < 10000 ∧ 1 ≤ month ∧ month ≤ 12 ∧ day ≤ 31 ∧
      d = daysFromCivil year month day := by
  unfold parseDatePart at h
  dsimp only at h
  split at h
  · nomatch h
  obtain ⟨year, hyear, h⟩ := except_bind_eq_ok.1 h
  obtain ⟨month, -, h⟩ := except_bind_eq_ok.1 h
  obtain ⟨day, -, h⟩ := except_bind_eq_ok.1 h
  split at h
  · nomatch h
  rename_i hmonth
  split at h
  · nomatch h
  rename_i hday
  cases h
  have hy : year < 10 ^ 4 :=
    lt_of_lt_of_le (digitField_lt hyear) (Nat.pow_le_pow_right (by decide) (length_slice_le _ _ _))
  have hm : 1 ≤ month ∧ month ≤ 12 := by
    simp only [Bool.or_eq_true, decide_eq_true_eq, not_or, not_lt] at hmonth
    omega
  have hd : day ≤ daysInMonth year month := by
    simp only [Bool.or_eq_true, beq_iff_eq, decide_eq_true_eq, not_or, not_lt] at hday
    exact hday.2
  exact ⟨year, month, day, hy, hm.1, hm.2, le_trans hd (daysInMonth_le _ _), rfl⟩

theorem daysFromCivil_mem {year month day : Nat} (hy : year < 10000) (hm0 : 1 ≤ month)
    (hm1 : month ≤ 12) (hd : day ≤ 31) :
    -1000000 ≤ daysFromCivil year month day ∧ daysFromCivil year month day ≤ 3000000 := by
  unfold daysFromCivil
  dsimp only
  split_ifs <;> omega

/-- A clock that is read is within a day, a leap second allowed. -/
theorem parseClock_ok {time : List Char} {input : String} {hours minutes seconds : Nat}
    (h : parseClock time input = .ok (hours, minutes, seconds)) :
    hours ≤ 23 ∧ minutes ≤ 59 ∧ seconds ≤ 60 := by
  unfold parseClock at h
  dsimp only at h
  split at h
  · nomatch h
  obtain ⟨hours', -, h⟩ := except_bind_eq_ok.1 h
  obtain ⟨minutes', -, h⟩ := except_bind_eq_ok.1 h
  obtain ⟨seconds', -, h⟩ := except_bind_eq_ok.1 h
  split at h
  · nomatch h
  rename_i hrange
  cases h
  simp only [Bool.or_eq_true, decide_eq_true_eq, not_or, not_lt] at hrange
  omega

theorem fractionMicros_lt {ds : List Char} (h : ∀ c ∈ ds, c.isDigit = true) :
    fractionMicros ds < 1000000 := by
  have hdigits : ∀ c ∈ ds.take 6 ++ List.replicate (6 - ds.length) '0', c.isDigit = true := by
    intro c hc
    rcases List.mem_append.1 hc with hc | hc
    · exact h c (List.mem_of_mem_take hc)
    · rw [List.eq_of_mem_replicate hc]
      rfl
  have hlen : (ds.take 6 ++ List.replicate (6 - ds.length) '0').length = 6 := by
    simp only [List.length_append, List.length_take, List.length_replicate]
    omega
  have := digitsValue_lt hdigits
  rw [hlen] at this
  exact this

theorem parseFraction_ok {rest after : List Char} {input : String} {fraction : Nat}
    (h : parseFraction rest input = .ok (fraction, after)) : fraction < 1000000 := by
  unfold parseFraction at h
  split at h
  · -- a point, then the digits after it, cut or padded to six
    split at h
    rename_i more _ ds _ hspan
    split at h
    · cases h
    · cases h
      have hds : more.takeWhile Char.isDigit = ds := congrArg Prod.fst hspan
      exact fractionMicros_lt fun c hc => List.mem_takeWhile_imp (hds ▸ hc)
  · cases h
    decide

/-- An offset that is read is less than a day, either way. -/
theorem parseOffset_ok {cs : List Char} {input : String} {offset : Int}
    (h : parseOffset cs input = .ok offset) : -1439 ≤ offset ∧ offset ≤ 1439 := by
  unfold parseOffset at h
  dsimp only at h
  split at h
  · cases h
    decide
  split at h
  · nomatch h
  -- the sign, `+` or `-`, then the same two fields for both
  split at h
  rotate_left 2
  · nomatch h
  all_goals
    obtain ⟨sign, hsign, h⟩ := except_bind_eq_ok.1 h
    cases hsign
    obtain ⟨hours, -, h⟩ := except_bind_eq_ok.1 h
    obtain ⟨minutes, -, h⟩ := except_bind_eq_ok.1 h
    split at h
    · nomatch h
    rename_i hrange
    cases h
    simp only [Bool.or_eq_true, decide_eq_true_eq, not_or, not_lt] at hrange
    omega

/-- What an instant that is read is made of: a day of a four-digit year, a time within that day
and an offset of less than a day. -/
theorem parseInstant_ok {input : String} {x : Int} (h : parseInstant input = .ok x) :
    ∃ days wall offset : Int, -1000000 ≤ days ∧ days ≤ 3000000 ∧ 0 ≤ wall ∧
      wall < microsPerDay ∧ -1439 ≤ offset ∧ offset ≤ 1439 ∧
      x = days * microsPerDay + wall - offset * microsPerMinute := by
  unfold parseInstant at h
  dsimp only at h
  split at h
  · nomatch h
  obtain ⟨days, hdays, h⟩ := except_bind_eq_ok.1 h
  obtain ⟨year, month, day, hy, hm0, hm1, hd, rfl⟩ := parseDatePart_ok hdays
  have hdays := daysFromCivil_mem hy hm0 hm1 hd
  split at h
  · -- a bare date: midnight UTC
    cases h
    exact ⟨_, 0, 0, hdays.1, hdays.2, le_rfl, by decide, by decide, by decide, by ring⟩
  split at h
  · nomatch h
  obtain ⟨⟨hours, minutes, seconds⟩, hclock, h⟩ := except_bind_eq_ok.1 h
  obtain ⟨⟨fraction, rest⟩, hfraction, h⟩ := except_bind_eq_ok.1 h
  have hc := parseClock_ok hclock
  have hf := parseFraction_ok hfraction
  -- the offset: none means UTC, otherwise the one read
  obtain ⟨offset, ho0, ho1, rfl⟩ : ∃ offset : Int, -1439 ≤ offset ∧ offset ≤ 1439 ∧
      x = daysFromCivil year month day * microsPerDay + hours * microsPerHour +
        minutes * microsPerMinute + ((min seconds 59 : Nat) : Int) * microsPerSecond + fraction -
        offset * microsPerMinute := by
    split at h
    · obtain ⟨offset, hoffset, h⟩ := except_bind_eq_ok.1 h
      cases hoffset
      cases h
      exact ⟨0, by decide, by decide, rfl⟩
    · obtain ⟨offset, hoffset, h⟩ := except_bind_eq_ok.1 h
      cases h
      exact ⟨offset, (parseOffset_ok hoffset).1, (parseOffset_ok hoffset).2, rfl⟩
  refine ⟨_, hours * microsPerHour + minutes * microsPerMinute +
    ((min seconds 59 : Nat) : Int) * microsPerSecond + fraction, offset, hdays.1, hdays.2, ?_, ?_,
    ho0, ho1, by ring⟩
  · simp only [microsPerHour, microsPerMinute, microsPerSecond]
    positivity
  · simp only [microsPerDay, microsPerHour, microsPerMinute, microsPerSecond]
    omega

/-- Whatever the text, an instant read from it lies in the 64-bit range. -/
theorem parseInstant_fits {input : String} {x : Int} (h : parseInstant input = .ok x) :
    int64Min ≤ x ∧ x ≤ int64Max := by
  obtain ⟨days, wall, offset, hd0, hd1, hw0, hw1, ho0, ho1, rfl⟩ := parseInstant_ok h
  simp only [int64Min, int64Max, microsPerDay, microsPerHour, microsPerMinute,
    microsPerSecond] at hw1 ⊢
  omega

-- ============================================================ the round trip

/-- The first instant of year 0000, 0000-01-01T00:00:00Z, in microseconds since the epoch. -/
def firstFourDigitInstant : Int := -62167219200000000

/-- The last instant of year 9999, 9999-12-31T23:59:59.999999Z. -/
def lastFourDigitInstant : Int := 253402300799999999

theorem fieldsOf_year_mem_iff (m : Int) :
    (0 ≤ (fieldsOf m).year ∧ (fieldsOf m).year ≤ 9999) ↔
      firstFourDigitInstant ≤ m ∧ m ≤ lastFourDigitInstant := by
  rw [show (fieldsOf m).year = (civilFromDays (m / microsPerDay)).1 from rfl,
    civilFromDays_year_mem_iff]
  simp only [microsPerDay, microsPerHour, microsPerMinute, microsPerSecond,
    firstFourDigitInstant, lastFourDigitInstant]
  omega

/-- The text of an instant of a four-digit year reads back as that instant. -/
theorem parseInstant_formatInstant {m : Int} (h0 : firstFourDigitInstant ≤ m)
    (h1 : m ≤ lastFourDigitInstant) : parseInstant (formatInstant m) = .ok m := by
  obtain ⟨hy0, hy1⟩ := (fieldsOf_year_mem_iff m).2 ⟨h0, h1⟩
  rw [← String.ofList_toList (s := formatInstant m), formatInstant_toList,
    parseInstant_text (fieldsOf_valid m) hy0 hy1, instant_fieldsOf]

/-- The text of an instant before year 0000 or after year 9999 is refused. -/
theorem parseInstant_formatInstant_error {m : Int}
    (h : m < firstFourDigitInstant ∨ lastFourDigitInstant < m) :
    ∃ e, parseInstant (formatInstant m) = .error e := by
  have hy : (fieldsOf m).year < 0 ∨ 9999 < (fieldsOf m).year := by
    by_contra hin
    have := (fieldsOf_year_mem_iff m).1 (by omega)
    omega
  rw [← String.ofList_toList (s := formatInstant m), formatInstant_toList]
  exact parseInstant_text_error hy

theorem parseInstant_formatInstant_iff (m : Int) :
    parseInstant (formatInstant m) = .ok m ↔
      firstFourDigitInstant ≤ m ∧ m ≤ lastFourDigitInstant := by
  constructor
  · intro h
    by_contra hout
    obtain ⟨e, he⟩ := parseInstant_formatInstant_error (m := m) (by omega)
    rw [he] at h
    cases h
  · rintro ⟨h0, h1⟩
    exact parseInstant_formatInstant h0 h1

/-- An instant read from a text is stored as the 64-bit instant it names, and only as that one. -/
theorem ofInt_eq_iff_of_parseInstant {s : String} {x : Int} (h : parseInstant s = .ok x)
    (m : Int64) : Int64.ofInt x = m ↔ x = m.toInt := by
  obtain ⟨h0, h1⟩ := parseInstant_fits h
  constructor
  · rintro rfl
    rw [Int64.toInt_ofInt_of_le (by simpa [int64Min] using h0)
      (by simp only [int64Max] at h1; omega)]
  · rintro rfl
    exact Int64.ofInt_toInt m

/-- What the instant converter reads from a text is the instant the text names. -/
theorem instant_toModelValue_eq_iff (s : String) (m : Int64) :
    Converter.instant.toModelValue (.string s) = .ok (.date m) ↔ parseInstant s = .ok m.toInt := by
  cases hp : parseInstant s with
  | error e => simp [Converter.toModelValue, hp]
  | ok x => simp [Converter.toModelValue, hp, ofInt_eq_iff_of_parseInstant hp]

/-- What a text coerces to as an instant is the instant the text names. -/
theorem coerce_date_eq_iff (s : String) (m : Int64) :
    coerce (.string s) .date = .ok (.date m) ↔ parseInstant s = .ok m.toInt := by
  cases hp : parseInstant s with
  | error e => simp [coerce, Scalar.kind, hp]
  | ok x => simp [coerce, Scalar.kind, hp, ofInt_eq_iff_of_parseInstant hp]

/-- The texts of instants, read back. The text of a 64-bit instant is written without overflow
(its year fits in 32 bits) and reads back as that instant exactly when its year has four digits,
that is from 0000-01-01T00:00:00Z through 9999-12-31T23:59:59.999999Z; the text of any other
instant is refused. Distinct instants have distinct texts, and whatever the text, an instant
read from it fits in 64 bits. So the instant converter, through the view and back, and the
coercion of an instant to a text and back keep exactly the instants of four-digit years. -/
theorem instant_texts_round_trip :
    formatInstant firstFourDigitInstant = "0000-01-01T00:00:00Z" ∧
    formatInstant lastFourDigitInstant = "9999-12-31T23:59:59.999999Z" ∧
    (∀ m : Int64, -2 ^ 31 ≤ (civilFromDays (m.toInt / microsPerDay)).1 ∧
      (civilFromDays (m.toInt / microsPerDay)).1 < 2 ^ 31) ∧
    (∀ m : Int64, parseInstant (formatInstant m.toInt) = .ok m.toInt ↔
      firstFourDigitInstant ≤ m.toInt ∧ m.toInt ≤ lastFourDigitInstant) ∧
    (∀ m : Int64, m.toInt < firstFourDigitInstant ∨ lastFourDigitInstant < m.toInt →
      ∃ e, parseInstant (formatInstant m.toInt) = .error e) ∧
    Function.Injective formatInstant ∧
    (∀ (s : String) (x : Int), parseInstant s = .ok x → int64Min ≤ x ∧ x ≤ int64Max) ∧
    (∀ m : Int64,
      (Converter.instant.toViewValue (.date m) >>= Converter.instant.toModelValue) =
          .ok (.date m) ↔
        firstFourDigitInstant ≤ m.toInt ∧ m.toInt ≤ lastFourDigitInstant) ∧
    (∀ m : Int64, (coerce (.date m) .string >>= fun v => coerce v .date) = .ok (.date m) ↔
      firstFourDigitInstant ≤ m.toInt ∧ m.toInt ≤ lastFourDigitInstant) := by
  refine ⟨by decide +kernel, by decide +kernel, fun m => ?_,
    fun m => parseInstant_formatInstant_iff m.toInt,
    fun m => parseInstant_formatInstant_error, formatInstant_injective,
    fun _ _ => parseInstant_fits, fun m => ?_, fun m => ?_⟩
  · exact civilFromDays_year_fits (by have := m.le_toInt; simp_all)
      (by have := m.toInt_lt; simp_all)
  · -- the converter writes the text, then reads it back
    have hview : Converter.instant.toViewValue (.date m) =
        .ok (.string (formatInstant m.toInt)) := rfl
    rw [hview, except_ok_bind]
    exact (instant_toModelValue_eq_iff _ m).trans (parseInstant_formatInstant_iff _)
  · -- an instant coerces to its text, which coerces back
    have htext : coerce (.date m) .string = .ok (.string (formatInstant m.toInt)) := by
      simp [coerce, Scalar.kind, Scalar.text]
    rw [htext, except_ok_bind]
    exact (coerce_date_eq_iff _ m).trans (parseInstant_formatInstant_iff _)

end GraphViews.Time
