import Fillout.Proofs.Calendar.Readings
import Fillout.Proofs.Unicode.Classes

set_option autoImplicit false

/-! # The writings of a date

A date is usually written with the year first and a gap in front of the month and of the day, as
eight digits, or with points and the day first; month and day may have a leading zero.
`reformatDate` turns each of these into the form `DD.MM.YYYY`, and as that form is one of them, it
returns its own results (`reformatDate_of_isWriting`).

The reader gives the month two digits wherever it can. Behind a month of one digit stands a gap, and
what stands in a gap is no digit of any script, so there the reader takes one digit only.
-/

namespace Fillout

open Unicode (isWhitespace isDecimalDigit)

namespace Calendar

variable {t year month day gap gap' : Text} {date : Date} {n : Nat}

namespace Date

theorem toNat?_padded (width n : Nat) : (padded width n).toNat? = some n :=
  Text.toNat?_zeros (Text.toNat?_ofNat n) _

theorem length_padded {width : Nat} (h : n < 10 ^ (width + 1)) :
    (padded (width + 1) n).length = width + 1 := by
  have hlength := Text.length_ofNat_le h
  simp only [padded, List.length_append, List.length_replicate]
  omega

theorem day_le_31 (date : Date) : date.day ≤ 31 := by
  have hle := date.day_le
  unfold daysInMonth at hle
  repeat' split at hle
  all_goals omega

theorem length_year (date : Date) : (padded 4 date.year).length = 4 :=
  length_padded date.year_lt

theorem length_paddedMonth (date : Date) : (padded 2 date.month).length = 2 := by
  have hle := date.month_bounds
  exact length_padded (show date.month < 100 by omega)

theorem length_paddedDay (date : Date) : (padded 2 date.day).length = 2 := by
  have hle := date.day_le_31
  exact length_padded (show date.day < 100 by omega)

/-- The date in eight digits, `YYYYMMDD`. -/
def compact (date : Date) : Text := padded 4 date.year ++ padded 2 date.month ++ padded 2 date.day

end Date

/-- A number of two digits at most, with or without a leading zero. -/
def IsNumeral (n : Nat) (t : Text) : Prop := t = Text.ofNat n ∨ t = Date.padded 2 n

theorem IsNumeral.toNat? (h : IsNumeral n t) : t.toNat? = some n := by
  rcases h with rfl | rfl
  · exact Text.toNat?_ofNat n
  · exact Date.toNat?_padded 2 n

theorem IsNumeral.length (h : IsNumeral n t) (hn : n < 100) : t.length = 1 ∨ t.length = 2 := by
  rcases h with rfl | rfl
  · have hpos := List.length_pos_iff.2 (Text.ofNat_ne_nil n)
    have hle : (Text.ofNat n).length ≤ 2 := Text.length_ofNat_le hn
    omega
  · exact .inr (Date.length_padded hn)

theorem Date.length_month (h : IsNumeral date.month month) :
    month.length = 1 ∨ month.length = 2 := by
  have hle := date.month_bounds
  exact h.length (by omega)

theorem Date.length_day (h : IsNumeral date.day day) : day.length = 1 ∨ day.length = 2 := by
  have hle := date.day_le_31
  exact h.length (by omega)

/-- The numbers of a date, however they are written, denote the date. -/
theorem Date.ofDigits?_numerals (hmonth : IsNumeral date.month month)
    (hday : IsNumeral date.day day) : Date.ofDigits? (padded 4 date.year) month day = some date :=
  Date.ofDigits?_eq_some.2 ⟨Date.toNat?_padded 4 date.year, hmonth.toNat?, hday.toNat?⟩

/-! ## What is usually written -/

/-- The usual writings of a date: the year in four digits, a gap, the month, a gap and the day;
eight digits; the day, the month and the year with points between them. White space may stand around
any of them. -/
inductive IsWriting (date : Date) : Text → Prop
  | parted {gap month gap' day : Text} (hgap : IsGap gap) (hne : gap ≠ [])
      (hmonth : IsNumeral date.month month) (hgap' : IsGap gap') (hne' : gap' ≠ [])
      (hday : IsNumeral date.day day) :
      IsWriting date (Date.padded 4 date.year ++ gap ++ month ++ gap' ++ day)
  | compact : IsWriting date date.compact
  | dayFirst {day month : Text} (hday : IsNumeral date.day day)
      (hmonth : IsNumeral date.month month) :
      IsWriting date (day ++ '.' :: (month ++ '.' :: Date.padded 4 date.year))
  | surrounded {left t right : Text} (hleft : ∀ c ∈ left, isWhitespace c = true)
      (h : IsWriting date t)
      (hright : ∀ c ∈ right, isWhitespace c = true) : IsWriting date (left ++ t ++ right)

theorem isWriting_dotted (date : Date) : IsWriting date date.dotted :=
  .dayFirst (.inr rfl) (.inr rfl)

/-- There is no digit of any script in a gap. -/
theorem IsGap.not_isDecimalDigit (h : IsGap gap) : ∀ c ∈ gap, isDecimalDigit c = false := by
  obtain ⟨left, separator, right, rfl, hleft, hright, hseparator⟩ := h
  intro c hc
  rcases List.mem_append.1 hc with hc | hc
  · rcases List.mem_append.1 hc with hc | hc
    · exact Unicode.isDecimalDigit_of_isWhitespace (hleft c hc)
    · rcases hseparator with rfl | ⟨s, rfl, hs⟩
      · cases hc
      · rw [List.mem_singleton.1 hc]
        simp only [isSeparator, Bool.or_eq_true, beq_iff_eq] at hs
        rcases hs with (rfl | rfl) | rfl <;> decide
  · exact Unicode.isDecimalDigit_of_isWhitespace (hright c hc)

/-- A month of two digits is read as such, and so is one of one digit that a gap ends. -/
theorem readYearFirst?_of_gaps (hyear : year.length = 4) (hgap : IsGap gap)
    (hmonth : month.length = 1 ∨ month.length = 2) (hgap' : IsGap gap')
    (hday : day.length = 1 ∨ day.length = 2) (hend : gap' ≠ [] ∨ month.length = 2)
    (h : Date.ofDigits? year month day = some date) :
    readYearFirst? (year ++ gap ++ month ++ gap' ++ day) = some (year, month, day) := by
  obtain ⟨rest, htake, -, hread⟩ := YearFirst.of_gaps hyear hgap hmonth hgap' hday h
  unfold readYearFirst?
  rw [htake]
  by_cases htwo : month.length = 2
  · rw [htwo] at hread
    simp [hread]
  · have hone : month.length = 1 := hmonth.resolve_right htwo
    -- two digits will not do: the second one would stand in the gap
    have hnone : readMonthOfWidth? 2 (skipGap rest) = none := by
      refine Option.eq_none_iff_forall_ne_some.2 fun ⟨month', day'⟩ hlong => ?_
      obtain ⟨a, rfl⟩ := List.length_eq_one_iff.1 hone
      obtain ⟨g, more, rfl⟩ := List.exists_cons_of_ne_nil (hend.resolve_right htwo)
      have hrest : rest = gap ++ a :: (g :: more ++ day) := by
        have he := (takeDigits?_eq_some.1 htake).1
        simp only [List.append_assoc] at he
        exact (List.append_cancel_left he).symm
      have ha : a.isDigit = true := (Date.isDigit_of_ofDigits? h).2.1 a List.mem_cons_self
      obtain ⟨behind, htake', -⟩ := readMonthOfWidth?_eq_some.1 hlong
      rw [hrest, hgap.skipGap_append ha] at htake'
      obtain ⟨he, hlength, hdigits⟩ := takeDigits?_eq_some.1 htake'
      obtain ⟨b, c, rfl⟩ := List.length_eq_two.1 hlength
      obtain ⟨-, rfl, -⟩ : a = b ∧ g = c ∧ more ++ day = behind := by simpa using he
      have hg := hgap'.not_isDecimalDigit g List.mem_cons_self
      rw [hdigits g (by simp)] at hg
      cases hg
    rw [hone] at hread
    simp [hnone, hread]

/-- Between digits nothing is trimmed. -/
theorem trim_of_digits (hhead : ∀ c ∈ t.head?, c.isDigit = true)
    (hlast : ∀ c ∈ t.getLast?, c.isDigit = true) : Text.trim t = t :=
  Text.trim_of_ends (fun c hc => Text.isWhitespace_of_isDigit (hhead c hc))
    fun c hc => Text.isWhitespace_of_isDigit (hlast c hc)

theorem ne_nil_of_length (h : t.length = 1 ∨ t.length = 2) : t ≠ [] := by
  rintro rfl
  simp at h

/-! ## What is made of the writings -/

/-- The year is written first, and the reader finds the month and the day. -/
theorem reformatDate_of_gaps (hgap : IsGap gap) (hmonth : IsNumeral date.month month)
    (hgap' : IsGap gap') (hday : IsNumeral date.day day) (hend : gap' ≠ [] ∨ month.length = 2)
    (hcount : ¬ IsMiscounted (Date.padded 4 date.year ++ gap ++ month ++ gap' ++ day)) :
    reformatDate (Date.padded 4 date.year ++ gap ++ month ++ gap' ++ day) = some date.dotted := by
  have hdate := Date.ofDigits?_numerals hmonth hday
  obtain ⟨hyears, -, hdays⟩ := Date.isDigit_of_ofDigits? hdate
  have hread := readYearFirst?_of_gaps date.length_year hgap (Date.length_month hmonth) hgap'
    (Date.length_day hday) hend hdate
  have htrim : Text.trim (Date.padded 4 date.year ++ gap ++ month ++ gap' ++ day) =
      Date.padded 4 date.year ++ gap ++ month ++ gap' ++ day := by
    apply trim_of_digits
    · intro c hc
      obtain ⟨a, more, he⟩ := List.exists_cons_of_length_eq_add_one date.length_year
      rw [he] at hc
      cases hc
      exact hyears c (by rw [he]; exact List.mem_cons_self)
    · intro c hc
      rw [List.getLast?_append_of_ne_nil _ (ne_nil_of_length (Date.length_day hday))] at hc
      exact hdays c (List.mem_of_getLast? hc)
  refine reformatDate_eq_some.2 ⟨by rwa [htrim], _, _, _, date, ?_, hdate, rfl⟩
  rw [htrim, hread, Option.some_or]

/-- The day is written first, with points behind it and the month. -/
theorem reformatDate_of_points (hday : IsNumeral date.day day)
    (hmonth : IsNumeral date.month month) :
    reformatDate (day ++ '.' :: (month ++ '.' :: Date.padded 4 date.year)) = some date.dotted := by
  have hdate := Date.ofDigits?_numerals hmonth hday
  obtain ⟨hyears, hmonths, hdays⟩ := Date.isDigit_of_ofDigits? hdate
  have hread : readDayFirst? (day ++ '.' :: (month ++ '.' :: Date.padded 4 date.year)) =
      some (Date.padded 4 date.year, month, day) := by
    refine readDayFirst?_eq_some.2
      ⟨rfl, Date.length_day hday, Date.length_month hmonth, date.length_year, fun c hc => ?_⟩
    rcases List.mem_append.1 hc with hc | hc
    · exact isDecimalDigit_of_isDigit ((List.mem_append.1 hc).elim (hdays c) (hmonths c))
    · exact isDecimalDigit_of_isDigit (hyears c hc)
  -- a text with the year first has no point among its first characters
  have hnone : readYearFirst? (day ++ '.' :: (month ++ '.' :: Date.padded 4 date.year)) = none := by
    refine Option.eq_none_iff_forall_ne_some.2 fun ⟨y, m, d⟩ hfirst => ?_
    rw [(yearFirst_of_readYearFirst? hfirst).readDayFirst?_eq_none] at hread
    cases hread
  have htrim : Text.trim (day ++ '.' :: (month ++ '.' :: Date.padded 4 date.year)) =
      day ++ '.' :: (month ++ '.' :: Date.padded 4 date.year) := by
    apply trim_of_digits
    · intro c hc
      obtain ⟨a, more, rfl⟩ := List.exists_cons_of_ne_nil (ne_nil_of_length (Date.length_day hday))
      cases hc
      exact hdays c List.mem_cons_self
    · intro c hc
      have hyear : Date.padded 4 date.year ≠ [] := List.ne_nil_of_length_eq_add_one date.length_year
      have he : day ++ '.' :: (month ++ '.' :: Date.padded 4 date.year) =
          (day ++ '.' :: (month ++ ['.'])) ++ Date.padded 4 date.year := by simp
      rw [he, List.getLast?_append_of_ne_nil _ hyear] at hc
      exact hyears c (List.mem_of_getLast? hc)
  refine reformatDate_eq_some.2 ⟨?_, _, _, _, date, ?_, hdate, rfl⟩
  · rw [htrim]
    rintro ⟨hdigits, -⟩
    exact absurd (List.all_eq_true.1 hdigits '.' (by simp)) (by decide)
  · rw [htrim, hnone, Option.none_or, hread]

/-- Each writing of a date is turned into the same form of it. -/
theorem IsWriting.reformatDate (h : IsWriting date t) :
    Calendar.reformatDate t = some date.dotted := by
  induction h with
  | @parted gap month gap' day hgap hne hmonth hgap' hne' hday =>
      refine reformatDate_of_gaps hgap hmonth hgap' hday (.inl hne') ?_
      -- a gap has no digits in it, so the text is not made of digits
      rintro ⟨hdigits, -⟩
      obtain ⟨g, more, rfl⟩ := List.exists_cons_of_ne_nil hne
      exact hgap.not_isDigit g List.mem_cons_self (List.all_eq_true.1 hdigits g (by simp))
  | compact =>
      have hmonth : IsNumeral date.month (Date.padded 2 date.month) := .inr rfl
      have hday : IsNumeral date.day (Date.padded 2 date.day) := .inr rfl
      have hread :=
        reformatDate_of_gaps isGap_nil hmonth isGap_nil hday (.inr date.length_paddedMonth)
        fun h => h.2 (by simp [date.length_year, date.length_paddedMonth, date.length_paddedDay])
      simpa [Date.compact] using hread
  | dayFirst hday hmonth => exact reformatDate_of_points hday hmonth
  | surrounded hleft h hright ih =>
      unfold Calendar.reformatDate at ih ⊢
      rwa [Text.trim_append_right hright, Text.trim_append_left hleft]

/-- Every usual writing of a date is turned into its form `DD.MM.YYYY`. Whatever is returned is this
form of a date of the calendar that the input can be read as, and it is returned for itself. -/
theorem reformatDate_of_isWriting :
    (∀ date t, IsWriting date t → reformatDate t = some date.dotted) ∧
    (∀ input out, reformatDate input = some out →
      (∃ date, Writes input.trim date ∧ out = date.dotted) ∧ reformatDate out = some out) := by
  refine ⟨fun date t h => h.reformatDate, fun input out h => ?_⟩
  obtain ⟨-, year, month, day, date, hparts, hdate, rfl⟩ := reformatDate_eq_some.1 h
  refine ⟨⟨date, writes_iff.2 ⟨year, month, day, ?_, hdate⟩, rfl⟩,
    (isWriting_dotted date).reformatDate⟩
  exact (Option.or_eq_some_iff.1 hparts).imp yearFirst_of_readYearFirst? And.right

/-- A leap day between blanks, with different gaps and no leading zero, and the form that it is
turned into. -/
theorem reformatDate_of_isWriting_leapDay :
    IsWriting ⟨2024, 2, 29, by decide, by decide, by decide⟩ " 2024 / 2-29\t".toList ∧
      reformatDate " 2024 / 2-29\t".toList = some "29.02.2024".toList ∧
      reformatDate "29.02.2024".toList = some "29.02.2024".toList := by
  have hblank : ∀ c ∈ [' '], isWhitespace c = true := List.forall_mem_singleton.2 (by decide)
  have htab : ∀ c ∈ ['\t'], isWhitespace c = true := List.forall_mem_singleton.2 (by decide)
  have hgap : IsGap " / ".toList :=
    ⟨[' '], ['/'], [' '], rfl, hblank, hblank, .inr ⟨'/', rfl, by decide⟩⟩
  have hgap' : IsGap "-".toList :=
    ⟨[], ['-'], [], rfl, List.forall_mem_nil _, List.forall_mem_nil _, .inr ⟨'-', rfl, by decide⟩⟩
  have hwriting :
      IsWriting ⟨2024, 2, 29, by decide, by decide, by decide⟩ " 2024 / 2-29\t".toList := by
    have he : " 2024 / 2-29\t".toList = [' '] ++
        (Date.padded 4 2024 ++ " / ".toList ++ Text.ofNat 2 ++
      "-".toList ++ Text.ofNat 29) ++ ['\t'] := by decide +kernel
    rw [he]
    exact .surrounded hblank (.parted hgap (by decide) (.inl rfl) hgap' (by decide) (.inl rfl)) htab
  have hread := reformatDate_of_isWriting.1 _ _ hwriting
  have hdotted : Date.dotted ⟨2024, 2, 29, by decide, by decide, by decide⟩ =
      "29.02.2024".toList := by
    decide +kernel
  rw [hdotted] at hread
  exact ⟨hwriting, hread, (reformatDate_of_isWriting.2 _ _ hread).2⟩

end Calendar

end Fillout
