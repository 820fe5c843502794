import Fillout.Proofs.Calendar.Forms

set_option autoImplicit false

/-! # The readings of a date

A text may be read as a date in more than one way, because gaps may be empty and months and days may
have one digit or two. `Writes` says which dates a text can be read as.

The month has one digit in one reading and two in another only in front of three digits that end the
text. Then the first two and the last make a date, and the first and the last two make another one,
if the first digit is a one. This is the only way in which a text that `reformatDate` accepts has
two readings (`writes_of_reformatDate`).
-/

namespace Fillout

open Unicode (isDecimalDigit)

namespace Calendar

variable {t year month day year' month' day' : Text} {date date' : Date}

/-! ## Readings -/

/-- The dates that a text can be read as: four digits for the year, one or two for the month and for
the day, either with the year first and a gap in front of the month and of the day, or with the day
first and points between them. -/
inductive Writes : Text → Date → Prop
  | yearFirst {year gap month gap' day : Text} {date : Date} (hyear : year.length = 4)
      (hgap : IsGap gap) (hmonth : month.length = 1 ∨ month.length = 2) (hgap' : IsGap gap')
      (hday : day.length = 1 ∨ day.length = 2) (h : Date.ofDigits? year month day = some date) :
      Writes (year ++ gap ++ month ++ gap' ++ day) date
  | dayFirst {day month year : Text} {date : Date} (hday : day.length = 1 ∨ day.length = 2)
      (hmonth : month.length = 1 ∨ month.length = 2) (hyear : year.length = 4)
      (h : Date.ofDigits? year month day = some date) :
      Writes (day ++ '.' :: (month ++ '.' :: year)) date

theorem writes_iff : Writes t date ↔ ∃ year month day,
    (YearFirst t year month day ∨ readDayFirst? t = some (year, month, day)) ∧
      Date.ofDigits? year month day = some date := by
  constructor
  · intro h
    cases h with
    | yearFirst hyear hgap hmonth hgap' hday h =>
        exact ⟨_, _, _, .inl (.of_gaps hyear hgap hmonth hgap' hday h), h⟩
    | dayFirst hday hmonth hyear h =>
        obtain ⟨hyears, hmonths, hdays⟩ := Date.isDigit_of_ofDigits? h
        refine ⟨_, _, _, .inr (readDayFirst?_eq_some.2 ⟨rfl, hday, hmonth, hyear, ?_⟩), h⟩
        intro c hc
        rcases List.mem_append.1 hc with hc | hc
        · exact isDecimalDigit_of_isDigit ((List.mem_append.1 hc).elim (hdays c) (hmonths c))
        · exact isDecimalDigit_of_isDigit (hyears c hc)
  · rintro ⟨year, month, day, hread | hread, h⟩
    · obtain ⟨gap, gap', rfl, hgap, hgap', hyear, hmonth, hday⟩ := hread.exists_gaps
      exact .yearFirst hyear hgap hmonth hgap' hday h
    · obtain ⟨rfl, hday, hmonth, hyear, -⟩ := readDayFirst?_eq_some.1 hread
      exact .dayFirst hday hmonth hyear h

/-- Behind four digits and a gap the text ends with three digits, the first of them a one. -/
def IsRunTogether (t : Text) : Prop :=
  ∃ year gap b c, t = year ++ gap ++ ['1', b, c] ∧ year.length = 4 ∧ IsGap gap ∧ gap ≠ [] ∧
    (∀ d ∈ year, d.isDigit = true) ∧ b.isDigit = true ∧ c.isDigit = true

/-- If two digits make a month, and the first of them makes one alone, it is a one. -/
theorem eq_one_of_ofDigits? {a b c : Char} (h : Date.ofDigits? year [a] [b, c] = some date)
    (h' : Date.ofDigits? year [a, b] [c] = some date') : a = '1' := by
  obtain ⟨-, hmonth, -⟩ := Date.ofDigits?_eq_some.1 h
  obtain ⟨-, hmonth', -⟩ := Date.ofDigits?_eq_some.1 h'
  rw [Text.toNat?_singleton] at hmonth
  rw [Text.toNat?_pair hmonth, Option.map_eq_some_iff] at hmonth'
  obtain ⟨n, -, hn⟩ := hmonth'
  have hbounds := date.month_bounds
  have hbounds' := date'.month_bounds
  have ha := (Text.digitValue?_eq_some.1 hmonth).2
  exact Char.toNat_inj.1 (ha.trans (show date.month + 48 = 49 by omega))

/-- If the three digits make a date with the month first two of them, they make one in January as
well. -/
theorem exists_ofDigits?_of_runTogether {b c : Char}
    (h : Date.ofDigits? year ['1', b] [c] = some date) :
    ∃ date', Date.ofDigits? year ['1'] [b, c] = some date' ∧ date' ≠ date := by
  obtain ⟨hyear, hmonth, hday⟩ := Date.ofDigits?_eq_some.1 h
  have hone : Text.digitValue? '1' = some 1 := rfl
  rw [Text.toNat?_pair hone, Option.map_eq_some_iff] at hmonth
  obtain ⟨n, hb, hn⟩ := hmonth
  rw [Text.toNat?_singleton] at hday
  have hbounds := date.month_bounds
  have hpos := date.one_le_day
  have hdigit := Text.digitValue?_eq_some.1 hday
  have hc := Text.toNat_of_isDigit hdigit.1
  have hle : 10 * n + date.day ≤ daysInMonth date.year 1 := by
    show 10 * n + date.day ≤ 31
    omega
  refine ⟨⟨date.year, 1, 10 * n + date.day, date.year_lt, by omega, hle⟩, ?_, ?_⟩
  · refine Date.ofDigits?_eq_some.2 ⟨hyear, by rw [Text.toNat?_singleton]; exact hone, ?_⟩
    rw [Text.toNat?_pair hb, hday]
    rfl
  · intro he
    have hm := congrArg Date.month he
    dsimp only at hm
    omega

/-- Of three digits behind a gap the month takes two. -/
theorem IsRunTogether.readYearFirst? (h : IsRunTogether t) : ∃ year gap b c,
    t = year ++ gap ++ ['1', b, c] ∧ year.length = 4 ∧ IsGap gap ∧
      Calendar.readYearFirst? t = some (year, ['1', b], [c]) := by
  obtain ⟨year, gap, b, c, rfl, hlength, hgap, -, hyear, hb, hc⟩ := h
  have htake : takeDigits? 4 (year ++ gap ++ ['1', b, c]) = some (year, gap ++ ['1', b, c]) :=
    takeDigits?_eq_some.2
      ⟨List.append_assoc _ _ _, hlength, fun d hd => isDecimalDigit_of_isDigit (hyear d hd)⟩
  have hskip : skipGap (gap ++ ['1', b, c]) = ['1', b, c] := hgap.skipGap_append (by decide) _
  have hday : readDay? [c] = some [c] :=
    readDay?_eq_some.2 ⟨isGap_nil.skipGap_append hc [], .inl rfl,
      List.forall_mem_singleton.2 (isDecimalDigit_of_isDigit hc)⟩
  have hmonth : readMonthOfWidth? 2 ['1', b, c] = some (['1', b], [c]) := by
    refine readMonthOfWidth?_eq_some.2 ⟨[c], takeDigits?_eq_some.2 ⟨rfl, rfl, ?_⟩, hday⟩
    exact List.forall_mem_cons.2
      ⟨by decide, List.forall_mem_singleton.2 (isDecimalDigit_of_isDigit hb)⟩
  refine ⟨year, gap, b, c, rfl, hlength, hgap, ?_⟩
  unfold Calendar.readYearFirst?
  rw [htake]
  simp [hskip, hmonth]

/-- The text is made of digits, but not of eight. -/
def IsMiscounted (t : Text) : Prop := t.all Char.isDigit = true ∧ t.length ≠ 8

/-- Months of different widths leave three digits, the first of them a one. There is a gap in front,
or the text would consist of seven digits. -/
theorem YearFirst.isRunTogether (h : YearFirst t year month day)
    (h' : YearFirst t year' month' day') (hone : month.length = 1) (htwo : month'.length = 2)
    (hdate : Date.ofDigits? year month day = some date)
    (hdate' : Date.ofDigits? year' month' day' = some date')
    (hcount : ¬ IsMiscounted t) : IsRunTogether t := by
  obtain ⟨gap, a, b, c, hgap, rfl, rfl, rfl, rfl, rfl, rfl⟩ :=
    h.of_lengths h' hone htwo (Date.isDigit_of_ofDigits? hdate').2.1
  obtain ⟨hyear, -, hday⟩ := Date.isDigit_of_ofDigits? hdate
  obtain ⟨-, -, -, -, -, hlength, -⟩ := h.exists_gaps
  obtain rfl := eq_one_of_ofDigits? hdate hdate'
  refine ⟨_, gap, b, c, rfl, hlength, hgap, ?_, hyear, hday b (by simp), hday c (by simp)⟩
  rintro rfl
  refine hcount ⟨List.all_eq_true.2 fun d hd => ?_, by simp [hlength]⟩
  rw [List.append_nil] at hd
  rcases List.mem_append.1 hd with hd | hd
  · exact hyear d hd
  · rcases List.mem_cons.1 hd with rfl | hd
    · decide
    · exact hday d hd

/-- If no digits run together, there is one reading at most. -/
theorem Writes.eq (h : Writes t date) (h' : Writes t date') (hcount : ¬ IsMiscounted t)
    (hrun : ¬ IsRunTogether t) : date = date' := by
  obtain ⟨year, month, day, hread, hdate⟩ := writes_iff.1 h
  obtain ⟨year', month', day', hread', hdate'⟩ := writes_iff.1 h'
  suffices hsame : year = year' ∧ month = month' ∧ day = day' by
    obtain ⟨rfl, rfl, rfl⟩ := hsame
    exact Option.some.inj (hdate.symm.trans hdate')
  rcases hread with hread | hread <;> rcases hread' with hread' | hread'
  · obtain ⟨-, -, -, -, -, -, hmonth, -⟩ := hread.exists_gaps
    obtain ⟨-, -, -, -, -, -, hmonth', -⟩ := hread'.exists_gaps
    rcases hmonth with hm | hm <;> rcases hmonth' with hm' | hm'
    · exact hread.eq_of_length_eq hread' (hm.trans hm'.symm)
    · exact absurd (hread.isRunTogether hread' hm hm' hdate hdate' hcount) hrun
    · exact absurd (hread'.isRunTogether hread hm' hm hdate' hdate hcount) hrun
    · exact hread.eq_of_length_eq hread' (hm.trans hm'.symm)
  · rw [hread.readDayFirst?_eq_none] at hread'
    cases hread'
  · rw [hread'.readDayFirst?_eq_none] at hread
    cases hread
  · cases hread.symm.trans hread'
    exact ⟨rfl, rfl, rfl⟩

/-- `reformatDate` returns the date of the form that the text has, unless the text is made of digits
and these are not eight. -/
theorem reformatDate_eq_some {input out : Text} : reformatDate input = some out ↔
    ¬ IsMiscounted input.trim ∧ ∃ year month day date,
      (readYearFirst? input.trim).or (readDayFirst? input.trim) = some (year, month, day) ∧
        Date.ofDigits? year month day = some date ∧ date.dotted = out := by
  unfold reformatDate IsMiscounted
  dsimp only
  generalize input.trim = t
  cases hread : readYearFirst? t with
  | some parts =>
      obtain ⟨year, month, day⟩ := parts
      dsimp only
      by_cases hcount : t.all Char.isDigit = true ∧ t.length ≠ 8
      · rw [if_pos hcount]
        exact ⟨fun h => (nomatch h), fun h => absurd hcount h.1⟩
      · rw [if_neg hcount, Option.map_eq_some_iff, and_iff_right hcount]
        constructor
        · rintro ⟨date, hdate, hout⟩
          exact ⟨year, month, day, date, rfl, hdate, hout⟩
        · rintro ⟨_, _, _, date, hparts, hdate, hout⟩
          cases hparts
          exact ⟨date, hdate, hout⟩
  | none =>
      simp only [Option.none_or, bind, Option.bind_eq_some_iff, Option.map_eq_some_iff]
      constructor
      · rintro ⟨⟨year, month, day⟩, hparts, date, hdate, hout⟩
        refine ⟨?_, year, month, day, date, hparts, hdate, hout⟩
        -- a date with the day first has points
        rintro ⟨hdigits, -⟩
        obtain ⟨rfl, -⟩ := readDayFirst?_eq_some.1 hparts
        exact absurd (List.all_eq_true.1 hdigits '.' (by simp)) (by decide)
      · rintro ⟨-, year, month, day, date, hparts, hdate, hout⟩
        exact ⟨(year, month, day), hparts, date, hdate, hout⟩

/-- What `reformatDate` returns is a date that its input can be read as. It is the only one, unless
the input ends with three digits that run together behind a gap, the first of them a one. Then there
is always another one. -/
theorem writes_of_reformatDate {input out : Text} (h : reformatDate input = some out) :
    (∃ date, Writes input.trim date ∧ out = date.dotted) ∧
      ((∀ date date', Writes input.trim date → Writes input.trim date' → date = date') ↔
        ¬ IsRunTogether input.trim) := by
  obtain ⟨hcount, year, month, day, date, hparts, hdate, rfl⟩ := reformatDate_eq_some.1 h
  generalize input.trim = t at hcount hparts ⊢
  have hwrites : Writes t date := by
    refine writes_iff.2 ⟨year, month, day, ?_, hdate⟩
    exact (Option.or_eq_some_iff.1 hparts).imp yearFirst_of_readYearFirst? And.right
  refine ⟨⟨date, hwrites, rfl⟩, fun hsame hrun => ?_, fun hrun _ _ h h' => h.eq h' hcount hrun⟩
  obtain ⟨year, gap, b, c, rfl, hlength, hgap, hread⟩ := hrun.readYearFirst?
  rw [hread] at hparts
  cases hparts
  obtain ⟨date', hdate', hne⟩ := exists_ofDigits?_of_runTogether hdate
  have hwrites' := Writes.yearFirst hlength hgap (.inl rfl) isGap_nil (.inr rfl) hdate'
  rw [List.append_nil, List.append_assoc] at hwrites'
  exact hne (hsame date' date hwrites' hwrites)

/-- With a zero in front the month has two digits, although three digits run together. -/
theorem writes_of_reformatDate_paddedMonth :
    reformatDate " 2020-011".toList = some "01.01.2020".toList ∧
      ∀ date date', Writes "2020-011".toList date → Writes "2020-011".toList date' →
        date = date' := by
  have h : reformatDate " 2020-011".toList = some "01.01.2020".toList := by decide +kernel
  have htrim : Text.trim " 2020-011".toList = "2020-011".toList := by decide +kernel
  have hreadings := (writes_of_reformatDate h).2
  rw [htrim] at hreadings
  refine ⟨h, hreadings.2 ?_⟩
  rintro ⟨year, gap, b, c, he, -⟩
  have hend := congrArg (fun t : Text => t.reverse[2]?) he
  simp at hend

/-- Two dates that one text can be read as; the first one of them is returned. -/
theorem reformatDate_runTogether :
    reformatDate "2020-111".toList = some "01.11.2020".toList ∧
      (∃ date, Writes "2020-111".toList date ∧ date.dotted = "01.11.2020".toList) ∧
      ∃ date, Writes "2020-111".toList date ∧ date.dotted = "11.01.2020".toList := by
  have hgap : IsGap ['-'] :=
    ⟨[], ['-'], [], rfl, List.forall_mem_nil _, List.forall_mem_nil _, .inr ⟨'-', rfl, by decide⟩⟩
  have hnovember : Date.ofDigits? "2020".toList "11".toList "1".toList =
      some ⟨2020, 11, 1, by decide, by decide, by decide⟩ := by decide +kernel
  have hjanuary : Date.ofDigits? "2020".toList "1".toList "11".toList =
      some ⟨2020, 1, 11, by decide, by decide, by decide⟩ := by decide +kernel
  exact ⟨by decide +kernel,
    ⟨_, .yearFirst rfl hgap (.inr rfl) isGap_nil (.inl rfl) hnovember, by decide +kernel⟩,
    ⟨_, .yearFirst rfl hgap (.inl rfl) isGap_nil (.inr rfl) hjanuary, by decide +kernel⟩⟩

end Calendar

end Fillout
