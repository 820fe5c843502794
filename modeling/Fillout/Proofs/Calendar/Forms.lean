import Fillout.Calendar.Reading
import Fillout.Proofs.Text.Numbers
import Fillout.Proofs.Text.Trimming

set_option autoImplicit false

/-! # The forms of a date

What the parts of the reader of dates accept. A gap is white space around at most one separator, so
there is no digit in it, and it ends where the next digit stands (`IsGap.skipGap_append`).

`YearFirst` and `readDayFirst?` are the two forms that a date can be written in. No text has both.
With the year first, the year is always the same, and the rest is determined by how many digits the
month has (`YearFirst.eq_of_length_eq`). One digit and two digits will both do only if three digits
are left behind the gap (`YearFirst.of_lengths`).
-/

namespace Fillout

open Unicode (isWhitespace isDecimalDigit)

namespace Calendar

open Text (trimStart)

variable {t gap rest year month day : Text} {c : Char} {date : Date} {n : Nat}

/-! ## Digits and gaps -/

theorem isDecimalDigit_of_isDigit (hc : c.isDigit = true) : isDecimalDigit c = true := by
  have hlt : c.toNat < 0x80 := by
    have hle := (Text.toNat_of_isDigit hc).2
    omega
  rw [isDecimalDigit, if_pos hlt, hc]

theorem isSeparator_of_isDigit (hc : c.isDigit = true) : isSeparator c = false := by
  refine eq_false_of_ne_true fun hs => ?_
  simp only [isSeparator, Bool.or_eq_true, beq_iff_eq] at hs
  rcases hs with (rfl | rfl) | rfl <;> revert hc <;> decide

theorem isWhitespace_of_isSeparator (hc : isSeparator c = true) : isWhitespace c = false := by
  simp only [isSeparator, Bool.or_eq_true, beq_iff_eq] at hc
  rcases hc with (rfl | rfl) | rfl <;> decide

/-- White space around at most one separator. -/
def IsGap (gap : Text) : Prop :=
  ∃ left separator right, gap = left ++ separator ++ right ∧ (∀ c ∈ left, isWhitespace c = true) ∧
    (∀ c ∈ right, isWhitespace c = true) ∧
    (separator = [] ∨ ∃ c, separator = [c] ∧ isSeparator c = true)

theorem isGap_nil : IsGap [] :=
  ⟨[], [], [], rfl, List.forall_mem_nil _, List.forall_mem_nil _, .inl rfl⟩

/-- There is no digit in a gap. -/
theorem IsGap.not_isDigit (h : IsGap gap) : ∀ c ∈ gap, ¬ c.isDigit = true := by
  obtain ⟨left, separator, right, rfl, hleft, hright, hseparator⟩ := h
  intro c hc hdigit
  have hblank := Text.isWhitespace_of_isDigit hdigit
  rcases List.mem_append.1 hc with hc | hc
  · rcases List.mem_append.1 hc with hc | hc
    · rw [hleft c hc] at hblank
      cases hblank
    · rcases hseparator with rfl | ⟨s, rfl, hs⟩
      · cases hc
      · rw [← List.mem_singleton.1 hc, isSeparator_of_isDigit hdigit] at hs
        cases hs
  · rw [hright c hc] at hblank
    cases hblank

/-- What is skipped is a gap. -/
theorem exists_isGap_append_skipGap (t : Text) : ∃ gap, IsGap gap ∧ t = gap ++ skipGap t := by
  obtain ⟨left, hleft, he⟩ := Text.exists_append_trimStart t
  cases hstart : trimStart t with
  | nil =>
      refine ⟨left, ⟨left, [], [], by simp, hleft, List.forall_mem_nil _, .inl rfl⟩, ?_⟩
      rw [skipGap, hstart]
      rwa [hstart] at he
  | cons c rest =>
      rw [skipGap, hstart]
      dsimp only
      split
      · obtain ⟨right, hright, hrest⟩ := Text.exists_append_trimStart rest
        refine ⟨left ++ [c] ++ right,
          ⟨left, [c], right, rfl, hleft, hright, .inr ⟨c, rfl, ‹_›⟩⟩, ?_⟩
        rw [List.append_assoc, ← hrest, List.append_assoc]
        rwa [hstart] at he
      · refine ⟨left, ⟨left, [], [], by simp, hleft, List.forall_mem_nil _, .inl rfl⟩, ?_⟩
        rwa [hstart] at he

/-- A gap in front of a digit is skipped. -/
theorem IsGap.skipGap_append (h : IsGap gap) (hc : c.isDigit = true) (rest : Text) :
    skipGap (gap ++ c :: rest) = c :: rest := by
  obtain ⟨left, separator, right, rfl, hleft, hright, hseparator⟩ := h
  have hbehind : trimStart (right ++ c :: rest) = c :: rest := by
    rw [Text.trimStart_append hright, Text.trimStart_of_head (Text.isWhitespace_of_isDigit hc)]
  rw [skipGap, List.append_assoc, List.append_assoc, Text.trimStart_append hleft]
  rcases hseparator with rfl | ⟨s, rfl, hs⟩
  · rw [List.nil_append, hbehind]
    dsimp only
    rw [isSeparator_of_isDigit hc]
    rfl
  · rw [List.singleton_append, Text.trimStart_of_head (isWhitespace_of_isSeparator hs)]
    dsimp only
    rw [if_pos hs, hbehind]

/-! ## The parts of a date -/

theorem takeDigits?_eq_some {digits : Text} : takeDigits? n t = some (digits, rest) ↔
    t = digits ++ rest ∧ digits.length = n ∧ ∀ c ∈ digits, isDecimalDigit c = true := by
  unfold takeDigits?
  constructor
  · intro h
    dsimp only at h
    split at h
    · rename_i hdigits
      cases h
      exact ⟨(List.take_append_drop n t).symm, hdigits.1, List.all_eq_true.1 hdigits.2⟩
    · cases h
  · rintro ⟨rfl, rfl, hdigits⟩
    rw [List.take_left, List.drop_left]
    exact if_pos ⟨rfl, List.all_eq_true.2 hdigits⟩

theorem readDay?_eq_some : readDay? t = some day ↔
    skipGap t = day ∧ (day.length = 1 ∨ day.length = 2) ∧ ∀ c ∈ day, isDecimalDigit c = true := by
  unfold readDay?
  constructor
  · intro h
    dsimp only at h
    split at h
    · rename_i hday
      cases h
      exact ⟨rfl, hday.1, List.all_eq_true.1 hday.2⟩
    · cases h
  · rintro ⟨rfl, hlength, hdigits⟩
    exact if_pos ⟨hlength, List.all_eq_true.2 hdigits⟩

theorem readMonthOfWidth?_eq_some : readMonthOfWidth? n t = some (month, day) ↔
    ∃ rest, takeDigits? n t = some (month, rest) ∧ readDay? rest = some day := by
  unfold readMonthOfWidth?
  simp [Option.bind_eq_some_iff]

theorem Date.ofDigits?_eq_some : Date.ofDigits? year month day = some date ↔
    year.toNat? = some date.year ∧ month.toNat? = some date.month ∧ day.toNat? = some date.day := by
  simp only [Date.ofDigits?, bind, Option.bind_eq_some_iff, Date.ofNumbers?_eq_some_iff]
  constructor
  · rintro ⟨y, hy, m, hm, d, hd, rfl, rfl, rfl⟩
    exact ⟨hy, hm, hd⟩
  · rintro ⟨hy, hm, hd⟩
    exact ⟨_, hy, _, hm, _, hd, rfl, rfl, rfl⟩

/-- The digits of a date are those of numbers. -/
theorem Date.isDigit_of_ofDigits? (h : Date.ofDigits? year month day = some date) :
    (∀ c ∈ year, c.isDigit = true) ∧ (∀ c ∈ month, c.isDigit = true) ∧
      ∀ c ∈ day, c.isDigit = true := by
  obtain ⟨hyear, hmonth, hday⟩ := Date.ofDigits?_eq_some.1 h
  exact ⟨Text.isDigit_of_toNat? hyear, Text.isDigit_of_toNat? hmonth, Text.isDigit_of_toNat? hday⟩

/-! ## The two forms -/

/-- The text has the year first, then the month and the day, with a gap in front of each. -/
def YearFirst (t year month day : Text) : Prop :=
  ∃ rest, takeDigits? 4 t = some (year, rest) ∧ (month.length = 1 ∨ month.length = 2) ∧
    readMonthOfWidth? month.length (skipGap rest) = some (month, day)

variable {year' month' day' gap' : Text} {date' : Date}

theorem YearFirst.exists_gaps (h : YearFirst t year month day) :
    ∃ gap gap', t = year ++ gap ++ month ++ gap' ++ day ∧ IsGap gap ∧ IsGap gap' ∧ year.length = 4 ∧
      (month.length = 1 ∨ month.length = 2) ∧ (day.length = 1 ∨ day.length = 2) := by
  obtain ⟨rest, hyear, hmonth, hread⟩ := h
  obtain ⟨behind, htake, hday⟩ := readMonthOfWidth?_eq_some.1 hread
  obtain ⟨rfl, hlength, -⟩ := takeDigits?_eq_some.1 hyear
  obtain ⟨hrest, -, -⟩ := takeDigits?_eq_some.1 htake
  obtain ⟨rfl, hdays, -⟩ := readDay?_eq_some.1 hday
  obtain ⟨gap, hgap, he⟩ := exists_isGap_append_skipGap rest
  obtain ⟨gap', hgap', he'⟩ := exists_isGap_append_skipGap behind
  refine ⟨gap, gap', ?_, hgap, hgap', hlength, hmonth, hdays⟩
  simp only [List.append_assoc]
  rw [← he', ← hrest, ← he]

/-- A date with the year first is read as it is written. -/
theorem YearFirst.of_gaps (hyear : year.length = 4) (hgap : IsGap gap)
    (hmonth : month.length = 1 ∨ month.length = 2) (hgap' : IsGap gap')
    (hday : day.length = 1 ∨ day.length = 2) (h : Date.ofDigits? year month day = some date) :
    YearFirst (year ++ gap ++ month ++ gap' ++ day) year month day := by
  obtain ⟨hyears, hmonths, hdays⟩ := Date.isDigit_of_ofDigits? h
  have hdecimal : ∀ {digits : Text}, (∀ c ∈ digits, c.isDigit = true) →
      ∀ c ∈ digits, isDecimalDigit c = true := fun hd c hc => isDecimalDigit_of_isDigit (hd c hc)
  have hskip : ∀ {gap digits : Text} (rest : Text), IsGap gap →
      (digits.length = 1 ∨ digits.length = 2) →
      (∀ c ∈ digits, c.isDigit = true) → skipGap (gap ++ (digits ++ rest)) = digits ++ rest := by
    intro gap digits rest hgap hlength hdigits
    cases digits with
    | nil => simp at hlength
    | cons c digits => exact hgap.skipGap_append (hdigits c List.mem_cons_self) _
  refine ⟨gap ++ (month ++ (gap' ++ day)), ?_, hmonth, ?_⟩
  · exact takeDigits?_eq_some.2 ⟨by simp only [List.append_assoc], hyear, hdecimal hyears⟩
  · rw [hskip _ hgap hmonth hmonths]
    refine readMonthOfWidth?_eq_some.2
      ⟨gap' ++ day, takeDigits?_eq_some.2 ⟨rfl, rfl, hdecimal hmonths⟩, ?_⟩
    have hlast := hskip [] hgap' hday hdays
    rw [List.append_nil] at hlast
    exact readDay?_eq_some.2 ⟨hlast, hday, hdecimal hdays⟩

theorem yearFirst_of_readYearFirst? (h : readYearFirst? t = some (year, month, day)) :
    YearFirst t year month day := by
  simp only [readYearFirst?, bind, Option.bind_eq_some_iff] at h
  obtain ⟨⟨year, rest⟩, hyear, ⟨month, day⟩, hmonth, he⟩ := h
  cases he
  have hlength : ∀ {n}, readMonthOfWidth? n (skipGap rest) = some (month, day) →
      month.length = n := by
    intro n hread
    obtain ⟨behind, htake, -⟩ := readMonthOfWidth?_eq_some.1 hread
    exact (takeDigits?_eq_some.1 htake).2.1
  rcases Option.or_eq_some_iff.1 hmonth with hread | ⟨-, hread⟩
  · have hn := hlength hread
    exact ⟨rest, hyear, .inr hn, hn.symm ▸ hread⟩
  · have hn := hlength hread
    exact ⟨rest, hyear, .inl hn, hn.symm ▸ hread⟩

theorem YearFirst.isSome (h : YearFirst t year month day) : (readYearFirst? t).isSome = true := by
  obtain ⟨rest, hyear, hmonth, hread⟩ := h
  unfold readYearFirst?
  rw [hyear]
  rcases hmonth with hn | hn <;> rw [hn] at hread <;> simp [hread]

/-- How many digits the month has says how the text is read. -/
theorem YearFirst.eq_of_length_eq (h : YearFirst t year month day)
    (h' : YearFirst t year' month' day')
    (hlength : month.length = month'.length) : year = year' ∧ month = month' ∧ day = day' := by
  obtain ⟨rest, hyear, -, hread⟩ := h
  obtain ⟨rest', hyear', -, hread'⟩ := h'
  cases hyear.symm.trans hyear'
  rw [hlength] at hread
  cases hread.symm.trans hread'
  exact ⟨rfl, rfl, rfl⟩

/-- Both one digit and two digits will do for the month only if three digits are left behind the
gap. -/
theorem YearFirst.of_lengths (h : YearFirst t year month day) (h' : YearFirst t year' month' day')
    (hone : month.length = 1) (htwo : month'.length = 2)
    (hdigits : ∀ c ∈ month', c.isDigit = true) :
    ∃ gap a b c, IsGap gap ∧ t = year ++ gap ++ [a, b, c] ∧ month = [a] ∧ day = [b, c] ∧
      year' = year ∧ month' = [a, b] ∧ day' = [c] := by
  obtain ⟨rest, hyear, -, hread⟩ := h
  obtain ⟨rest', hyear', -, hread'⟩ := h'
  cases hyear.symm.trans hyear'
  obtain ⟨behind, htake, hday⟩ := readMonthOfWidth?_eq_some.1 hread
  obtain ⟨behind', htake', hday'⟩ := readMonthOfWidth?_eq_some.1 hread'
  obtain ⟨hleft, -, -⟩ := takeDigits?_eq_some.1 htake
  obtain ⟨hleft', -, -⟩ := takeDigits?_eq_some.1 htake'
  obtain ⟨a, rfl⟩ := List.length_eq_one_iff.1 hone
  obtain ⟨a', b, rfl⟩ := List.length_eq_two.1 htwo
  obtain ⟨rfl, rfl⟩ : a = a' ∧ behind = b :: behind' := by simpa using hleft.symm.trans hleft'
  -- the second digit of the longer month is the first one of the day behind the shorter one
  have hskip : skipGap (b :: behind') = b :: behind' :=
    isGap_nil.skipGap_append (hdigits b (by simp)) behind'
  obtain ⟨hd, hlength, -⟩ := readDay?_eq_some.1 hday
  rw [hskip] at hd
  subst hd
  -- one character is left for the day behind the longer month, so there is no gap in front of it
  obtain ⟨rfl, hlength', -⟩ := readDay?_eq_some.1 hday'
  obtain ⟨between, -, hbetween⟩ := exists_isGap_append_skipGap behind'
  have htotal := congrArg List.length hbetween
  rw [List.length_append] at htotal
  rw [List.length_cons] at hlength
  obtain rfl : between = [] := List.eq_nil_of_length_eq_zero (by omega)
  obtain ⟨c, hc⟩ := List.length_eq_one_iff.1 (show behind'.length = 1 by omega)
  obtain ⟨gap, hgap, hrest⟩ := exists_isGap_append_skipGap rest
  refine ⟨gap, a, b, c, hgap, ?_, rfl, by rw [hc], rfl, rfl, by rw [← hc]; exact hbetween.symm⟩
  rw [(takeDigits?_eq_some.1 hyear).1, List.append_assoc]
  conv_lhs => rw [hrest, hleft, hc]
  rfl

theorem readDayFirst?_eq_some : readDayFirst? t = some (year, month, day) ↔
    t = day ++ '.' :: (month ++ '.' :: year) ∧ (day.length = 1 ∨ day.length = 2) ∧
      (month.length = 1 ∨ month.length = 2) ∧ year.length = 4 ∧
      ∀ c ∈ day ++ month ++ year, isDecimalDigit c = true := by
  unfold readDayFirst?
  constructor
  · intro h
    split at h
    · rename_i day month year hsplit
      split at h
      · rename_i hparts
        cases h
        refine ⟨?_, hparts.1, hparts.2.1, hparts.2.2.1, List.all_eq_true.1 hparts.2.2.2⟩
        have hjoin : ['.'].intercalate (t.splitOnP (· == '.')) = t := List.intercalate_splitOn '.'
        rw [hsplit] at hjoin
        simpa using hjoin.symm
      · cases h
    · cases h
  · rintro ⟨rfl, hday, hmonth, hyear, hdigits⟩
    have hpoint : ∀ c ∈ day ++ month ++ year, (c == '.') = false := by
      intro c hc
      refine beq_eq_false_iff_ne.2 ?_
      rintro rfl
      exact absurd (hdigits '.' hc) (by decide)
    have hsplit : (day ++ '.' :: (month ++ '.' :: year)).splitOnP (· == '.') =
        [day, month, year] := by
      rw [List.splitOnP_append_cons _ _ (by decide), List.splitOnP_append_cons _ _ (by decide),
        List.splitOnP_eq_singleton fun c hc => hpoint c (by simp [hc]),
        List.splitOnP_eq_singleton fun c hc => hpoint c (by simp [hc]),
        List.splitOnP_eq_singleton fun c hc => hpoint c (by simp [hc])]
      rfl
    rw [hsplit]
    exact if_pos ⟨hday, hmonth, hyear, List.all_eq_true.2 hdigits⟩

/-- A text that has the year first does not have the day first: one of its first four characters
would be a point. -/
theorem YearFirst.readDayFirst?_eq_none (h : YearFirst t year month day) :
    readDayFirst? t = none := by
  obtain ⟨rest, hyear, -, -⟩ := h
  obtain ⟨he, hlength, hdigits⟩ := takeDigits?_eq_some.1 hyear
  refine Option.eq_none_iff_forall_ne_some.2 fun ⟨year', month', day'⟩ hread => ?_
  obtain ⟨rfl, hday, -, -, -⟩ := readDayFirst?_eq_some.1 hread
  have hmem : '.' ∈ (day' ++ '.' :: (month' ++ '.' :: year')).take 4 := by
    refine List.mem_take_iff_getElem.2 ⟨day'.length, ?_, ?_⟩
    · simp only [List.length_append, List.length_cons]
      omega
    · simp
  rw [he, List.take_append_of_le_length (by omega), List.take_of_length_le (by omega)] at hmem
  exact absurd (hdigits '.' hmem) (by decide)

end Calendar

end Fillout
