import Fillout.Calendar.Compact
import Fillout.Proofs.Calendar.Writings
import Fillout.Proofs.Template.Completion
import Fillout.Resolve.Candidates
import Mathlib.Data.List.SplitBy

set_option autoImplicit false

/-! # Compact dates are whole words

A text is cut into runs, turn about of word characters and of others. `reformatCompactDates` goes
through the text character by character, and what it does can be said run by run: a run of eight
digits that denote a date becomes the form with points, and every other run stays as it is
(`reformatFrom_flatten`).

The invariant is that a run is left behind in the same state as the start of the text, no word being
open. For this it matters that a date is not looked for in the middle of a word, and that digits of
any script are word characters, so that eight digits are never a run and a piece of the next one.

What is written for a date are runs of two and four digits with points between them. So there is
nothing to expand in the result, and no delimiter comes or goes.
-/

namespace Fillout

open Unicode (isDecimalDigit isWord)

namespace Calendar

variable {t rest w gap : Text} {date : Date}

/-! ## Dates of eight digits -/

namespace Date

theorem length_compact (date : Date) : date.compact.length = 8 := by
  simp [compact, date.length_year, date.length_paddedMonth, date.length_paddedDay]

theorem parts_compact (date : Date) : date.compact.take 4 = padded 4 date.year ∧
    (date.compact.drop 4).take 2 = padded 2 date.month ∧
    date.compact.drop 6 = padded 2 date.day := by
  have hyear := date.length_year
  have hmonth := date.length_paddedMonth
  refine ⟨?_, ?_, ?_⟩
  · rw [compact, List.append_assoc, List.take_left' hyear]
  · rw [compact, List.append_assoc, List.drop_left' hyear, List.take_left' hmonth]
  · rw [compact, List.drop_left' (by simp [hyear, hmonth])]

theorem ofDigits?_compact (date : Date) :
    Date.ofDigits? (date.compact.take 4) ((date.compact.drop 4).take 2) (date.compact.drop 6) =
      some date := by
  obtain ⟨hyear, hmonth, hday⟩ := date.parts_compact
  rw [hyear, hmonth, hday]
  exact Date.ofDigits?_numerals (.inr rfl) (.inr rfl)

theorem isDigit_of_mem_compact {c : Char} (hc : c ∈ date.compact) : c.isDigit = true := by
  have hread : Date.ofDigits? (padded 4 date.year) (padded 2 date.month) (padded 2 date.day) =
      some date :=
    Date.ofDigits?_numerals (.inr rfl) (.inr rfl)
  obtain ⟨hyear, hmonth, hday⟩ := Date.isDigit_of_ofDigits? hread
  rcases List.mem_append.1 hc with hc | hc
  · exact (List.mem_append.1 hc).elim (hyear c) (hmonth c)
  · exact hday c hc

/-- Eight characters that are read as a date are the eight digits of this date. -/
theorem eq_compact_of_ofDigits? {year month day : Text} (hyear : year.length = 4)
    (hmonth : month.length = 2)
    (hday : day.length = 2) (h : Date.ofDigits? year month day = some date) :
    year ++ month ++ day = date.compact := by
  obtain ⟨hy, hm, hd⟩ := Date.ofDigits?_eq_some.1 h
  rw [compact,
    Text.eq_of_toNat? (hyear.trans date.length_year.symm) hy (toNat?_padded 4 date.year),
    Text.eq_of_toNat? (hmonth.trans date.length_paddedMonth.symm) hm (toNat?_padded 2 date.month),
    Text.eq_of_toNat? (hday.trans date.length_paddedDay.symm) hd (toNat?_padded 2 date.day)]

end Date

/-! ## Runs -/

/-- The maximal runs of word characters of a text, and the maximal runs of other characters between
them, in order. -/
def runs (t : Text) : List Text := t.splitBy fun a b => isWord a == isWord b

/-- No word goes on into the text. -/
def StartsOutside (t : Text) : Prop := ∀ c ∈ t.head?, isWord c = false

/-- Runs one behind the other: behind a word stands the end of the text or what is no word. -/
inductive AreRuns : List Text → Prop
  | nil : AreRuns []
  | word {w : Text} {l : List Text} (hne : w ≠ []) (hw : ∀ c ∈ w, isWord c = true)
      (hrest : StartsOutside l.flatten) (h : AreRuns l) : AreRuns (w :: l)
  | gap {gap : Text} {l : List Text} (hgap : ∀ c ∈ gap, isWord c = false) (h : AreRuns l) :
      AreRuns (gap :: l)

/-- The characters of a chain are all of the kind of its first one. -/
theorem isWord_of_isChain {c : Char}
    (h : (c :: t).IsChain fun a b => (isWord a == isWord b) = true) :
    ∀ d ∈ c :: t, isWord d = isWord c := by
  induction t generalizing c with
  | nil => simp
  | cons d t ih =>
      obtain ⟨hcd, h⟩ := List.isChain_cons_cons.1 h
      intro e he
      rcases List.mem_cons.1 he with rfl | he
      · rfl
      · exact (ih h e he).trans (beq_iff_eq.1 hcd).symm

theorem areRuns_of_isChain {l : List Text} (hne : [] ∉ l)
    (hkind : ∀ m ∈ l, m.IsChain fun a b => (isWord a == isWord b) = true)
    (hbreak : l.IsChain fun a b => ∃ ha hb, (isWord (a.getLast ha) == isWord (b.head hb)) = false) :
    AreRuns l := by
  induction l with
  | nil => exact .nil
  | cons m l ih =>
      obtain ⟨hm, hne⟩ := not_or.1 (mt List.mem_cons.2 hne)
      have hl := ih hne (fun m' hm' => hkind m' (List.mem_cons_of_mem m hm')) hbreak.tail
      obtain ⟨c, more, rfl⟩ := List.exists_cons_of_ne_nil (Ne.symm hm)
      have hsame := isWord_of_isChain (hkind _ List.mem_cons_self)
      by_cases hc : isWord c = true
      · refine .word (List.cons_ne_nil _ _) (fun d hd => (hsame d hd).trans hc) (fun d hd => ?_) hl
        cases l with
        | nil => cases hd
        | cons m' l =>
            obtain ⟨ha, hb, hdiffer⟩ := (List.isChain_cons_cons.1 hbreak).1
            obtain ⟨e, more', rfl⟩ := List.exists_cons_of_ne_nil hb
            rw [hsame _ (List.getLast_mem _), hc] at hdiffer
            cases hd
            simpa using hdiffer
      · exact .gap (fun d hd => (hsame d hd).trans (eq_false_of_ne_true hc)) hl

theorem areRuns_runs (t : Text) : AreRuns (runs t) := by
  obtain ⟨-, hne, hkind, hbreak⟩ := List.splitBy_eq_iff.1 (rfl : runs t = runs t)
  exact areRuns_of_isChain hne hkind hbreak

theorem flatten_runs (t : Text) : (runs t).flatten = t := List.flatten_splitBy _ t

/-! ## What becomes of a run -/

/-- A date of eight digits becomes the form with points; any other run stays. -/
inductive Becomes : Text → Text → Prop
  | expanded (date : Date) : Becomes date.compact date.dotted
  | kept {run : Text} (h : ∀ date : Date, run ≠ date.compact) : Becomes run run

/-- What is made of a run: eight digits are looked at as a date. -/
def expandRun (run : Text) : Text :=
  if run.length = 8 ∧ run.all isDecimalDigit = true then expandWord run else run

theorem expandRun_compact (date : Date) : expandRun date.compact = date.dotted := by
  have hdigits : date.compact.all isDecimalDigit = true :=
    List.all_eq_true.2 fun c hc => isDecimalDigit_of_isDigit (Date.isDigit_of_mem_compact hc)
  rw [expandRun, if_pos ⟨date.length_compact, hdigits⟩, expandWord, date.ofDigits?_compact]

theorem expandRun_of_length_ne {run : Text} (h : run.length ≠ 8) : expandRun run = run :=
  if_neg fun hrun => h hrun.1

theorem becomes_expandRun (run : Text) : Becomes run (expandRun run) := by
  by_cases hdate : ∃ date : Date, run = date.compact
  · obtain ⟨date, rfl⟩ := hdate
    rw [expandRun_compact]
    exact .expanded date
  · have hkept : expandRun run = run := by
      unfold expandRun
      split
      · rename_i hrun
        unfold expandWord
        split
        · -- eight digits that denote a date are those of the date
          rename_i date hread
          have he := Date.eq_compact_of_ofDigits? (by simp [hrun.1]) (by simp [hrun.1])
            (by simp [hrun.1]) hread
          have hparts : run.take 4 ++ (run.drop 4).take 2 ++ run.drop 6 = run := by
            rw [List.append_assoc, show run.drop 6 = (run.drop 4).drop 2 by rw [List.drop_drop],
              List.take_append_drop, List.take_append_drop]
          exact absurd ⟨date, hparts.symm.trans he⟩ hdate
        · rfl
      · rfl
    rw [hkept]
    exact .kept fun date he => hdate ⟨date, he⟩

/-! ## One run after the other -/

theorem isDecimalDigit_of_not_isWord {c : Char} (hc : isWord c = false) :
    isDecimalDigit c = false := by
  refine eq_false_of_ne_true fun hdigit => ?_
  rw [Unicode.isWord_of_isDecimalDigit hdigit] at hc
  cases hc

theorem startsOutside_cons {c : Char} (hc : isWord c = false) (t : Text) :
    StartsOutside (c :: t) := by
  rintro _ ⟨⟩
  exact hc

/-- Of a word the eight characters are taken that it consists of, or none. -/
theorem compactWord?_append (hw : ∀ c ∈ w, isWord c = true) (hrest : StartsOutside rest) :
    compactWord? (w ++ rest) =
      if w.length = 8 ∧ w.all isDecimalDigit = true then some w else none := by
  by_cases height : w.length = 8
  · have htake : (w ++ rest).take 8 = w := List.take_left' height
    have hdrop : (w ++ rest).drop 8 = rest := List.drop_left' height
    have hend : rest.head?.any isWord = false := by
      cases hc : rest.head? with
      | none => rfl
      | some c => exact hrest c hc
    unfold compactWord?
    simp [htake, hdrop, hend, height]
  · rw [if_neg fun h => height h.1]
    refine if_neg ?_
    rintro ⟨hlength, hdigits, hend⟩
    rcases Nat.lt_or_gt_of_ne height with hlt | hgt
    · -- the first character behind the word would be a digit
      cases rest with
      | nil =>
          rw [List.append_nil, List.length_take] at hlength
          omega
      | cons c rest =>
          have hmem : c ∈ (w ++ c :: rest).take 8 := by
            refine List.mem_take_iff_getElem.2 ⟨w.length, ?_, by simp⟩
            simp only [List.length_append, List.length_cons]
            omega
          have hc := isDecimalDigit_of_not_isWord (hrest c rfl)
          rw [List.all_eq_true.1 hdigits c hmem] at hc
          cases hc
    · -- the word would go on behind the eight characters
      have hnext : (w ++ rest).drop 8 = w[8] :: (w.drop 9 ++ rest) := by
        rw [List.drop_append_of_le_length (by omega), List.drop_eq_getElem_cons hgt,
          List.cons_append]
      rw [hnext, List.head?_cons, Option.any_some, hw _ (List.getElem_mem hgt)] at hend
      cases hend

theorem reformatFrom_nil (inWord : Bool) : reformatFrom inWord [] = [] := by
  rw [reformatFrom]

/-- Behind a word characters are copied as long as the word goes on. -/
theorem reformatFrom_true_cons (c : Char) (t : Text) :
    reformatFrom true (c :: t) = c :: reformatFrom (isWord c) t := by
  rw [reformatFrom]
  rfl

theorem reformatFrom_false_cons {c : Char} (hc : isWord c = false) (t : Text) :
    reformatFrom false (c :: t) = c :: reformatFrom false t := by
  have hnone := compactWord?_append (w := []) (List.forall_mem_nil _) (startsOutside_cons hc t)
  rw [List.nil_append, if_neg (by simp)] at hnone
  rw [reformatFrom, if_neg (by decide), hnone, hc]

/-- Where no word goes on it does not matter that one has been open. -/
theorem reformatFrom_true (h : StartsOutside t) : reformatFrom true t = reformatFrom false t := by
  cases t with
  | nil => rw [reformatFrom_nil, reformatFrom_nil]
  | cons c t =>
      have hc := h c rfl
      rw [reformatFrom_true_cons, reformatFrom_false_cons hc, hc]

theorem reformatFrom_true_append (hw : ∀ c ∈ w, isWord c = true) (rest : Text) :
    reformatFrom true (w ++ rest) = w ++ reformatFrom true rest := by
  induction w with
  | nil => rfl
  | cons c w ih =>
      rw [List.cons_append, reformatFrom_true_cons, hw c List.mem_cons_self,
        ih fun d hd => hw d (List.mem_cons_of_mem c hd), List.cons_append]

/-- What is no word is copied. -/
theorem reformatFrom_gap (hgap : ∀ c ∈ gap, isWord c = false) (rest : Text) :
    reformatFrom false (gap ++ rest) = gap ++ reformatFrom false rest := by
  induction gap with
  | nil => rfl
  | cons c gap ih =>
      rw [List.cons_append, reformatFrom_false_cons (hgap c List.mem_cons_self),
        ih fun d hd => hgap d (List.mem_cons_of_mem c hd), List.cons_append]

/-- A whole word is expanded if it is a date of eight digits, and copied if it is not. -/
theorem reformatFrom_word (hne : w ≠ []) (hw : ∀ c ∈ w, isWord c = true)
    (hrest : StartsOutside rest) :
    reformatFrom false (w ++ rest) = expandRun w ++ reformatFrom false rest := by
  have hlook := compactWord?_append hw hrest
  rw [← reformatFrom_true hrest]
  obtain ⟨c, w, rfl⟩ := List.exists_cons_of_ne_nil hne
  rw [List.cons_append] at hlook ⊢
  rw [reformatFrom, if_neg (by decide), hlook]
  unfold expandRun
  by_cases hrun : (c :: w).length = 8 ∧ (c :: w).all isDecimalDigit = true
  · have hlength : w.length = 7 := Nat.succ.inj hrun.1
    rw [if_pos hrun, if_pos hrun, List.drop_left' hlength]
  · rw [if_neg hrun, if_neg hrun, hw c List.mem_cons_self,
      reformatFrom_true_append fun d hd => hw d (List.mem_cons_of_mem c hd)]
    rfl

/-- A run that is no word is kept. -/
theorem expandRun_gap (hgap : ∀ c ∈ gap, isWord c = false) : expandRun gap = gap := by
  refine if_neg fun ⟨hlength, hdigits⟩ => ?_
  obtain ⟨c, more, rfl⟩ := List.exists_cons_of_length_eq_add_one hlength
  have hc := isDecimalDigit_of_not_isWord (hgap c List.mem_cons_self)
  rw [List.all_eq_true.1 hdigits c List.mem_cons_self] at hc
  cases hc

/-- Each run is treated by itself. -/
theorem reformatFrom_flatten {l : List Text} (h : AreRuns l) :
    reformatFrom false l.flatten = l.flatMap expandRun := by
  induction h with
  | nil => exact reformatFrom_nil false
  | word hne hw hrest h ih =>
      rw [List.flatten_cons, reformatFrom_word hne hw hrest, ih, List.flatMap_cons]
  | gap hgap h ih =>
      rw [List.flatten_cons, reformatFrom_gap hgap, ih, List.flatMap_cons, expandRun_gap hgap]

theorem reformatCompactDates_eq (t : Text) :
    reformatCompactDates t = (runs t).flatMap expandRun := by
  rw [reformatCompactDates, ← reformatFrom_flatten (areRuns_runs t), flatten_runs]

/-! ## Nothing is left to expand -/

theorem startsOutside_flatMap {l : List Text} (h : AreRuns l) (hstart : StartsOutside l.flatten) :
    StartsOutside (l.flatMap expandRun) := by
  induction h with
  | nil => exact hstart
  | @word w l hne hw hrest h ih =>
      -- a word does not start outside
      obtain ⟨c, w, rfl⟩ := List.exists_cons_of_ne_nil hne
      have hc := hstart c rfl
      rw [hw c List.mem_cons_self] at hc
      cases hc
  | @gap gap l hgap h ih =>
      rw [List.flatMap_cons, expandRun_gap hgap]
      cases gap with
      | nil => exact ih hstart
      | cons c gap => exact startsOutside_cons (hgap c List.mem_cons_self) _

theorem isWord_of_toNat? {n : Nat} (hread : w.toNat? = some n) :
    ∀ c ∈ w, isWord c = true := fun c hc =>
  Unicode.isWord_of_isDecimalDigit (isDecimalDigit_of_isDigit (Text.isDigit_of_toNat? hread c hc))

/-- A number that has not eight digits is copied. -/
theorem reformatFrom_number {n : Nat} (hread : w.toNat? = some n) (hlength : w.length ≠ 8)
    (hrest : StartsOutside rest) :
    reformatFrom false (w ++ rest) = w ++ reformatFrom false rest := by
  have hne : w ≠ [] := by
    rintro rfl
    cases hread
  rw [reformatFrom_word hne (isWord_of_toNat? hread) hrest, expandRun_of_length_ne hlength]

/-- The form with points is copied, number by number. -/
theorem reformatFrom_dotted (date : Date) (hrest : StartsOutside rest) :
    reformatFrom false (date.dotted ++ rest) = date.dotted ++ reformatFrom false rest := by
  have hpoint : isWord '.' = false := by decide +kernel
  have hyear : (Date.padded 4 date.year).length ≠ 8 := by
    rw [date.length_year]
    decide
  have hmonth : (Date.padded 2 date.month).length ≠ 8 := by
    rw [date.length_paddedMonth]
    decide
  have hday : (Date.padded 2 date.day).length ≠ 8 := by
    rw [date.length_paddedDay]
    decide
  simp only [Date.dotted, List.append_assoc, List.cons_append]
  rw [reformatFrom_number (Date.toNat?_padded 2 date.day) hday (startsOutside_cons hpoint _),
    reformatFrom_false_cons hpoint,
    reformatFrom_number (Date.toNat?_padded 2 date.month) hmonth (startsOutside_cons hpoint _),
    reformatFrom_false_cons hpoint,
    reformatFrom_number (Date.toNat?_padded 4 date.year) hyear hrest]

theorem reformatFrom_flatMap {l : List Text} (h : AreRuns l) :
    reformatFrom false (l.flatMap expandRun) = l.flatMap expandRun := by
  induction h with
  | nil => exact reformatFrom_nil false
  | @word w l hne hw hrest h ih =>
      have hrest := startsOutside_flatMap h hrest
      have hbecomes := becomes_expandRun w
      rw [List.flatMap_cons]
      -- a word that has got points is three numbers now, and any other word is looked at as before
      generalize hout : expandRun w = out at hbecomes ⊢
      cases hbecomes with
      | expanded date => rw [reformatFrom_dotted date hrest, ih]
      | kept => rw [reformatFrom_word hne hw hrest, hout, ih]
  | gap hgap h ih => rw [List.flatMap_cons, expandRun_gap hgap, reformatFrom_gap hgap, ih]

/-! ## Delimiters -/

open Template (IsFiller isFinal)

theorem isPlain_of_toNat? {n : Nat} (hread : w.toNat? = some n) : Template.IsPlain w := by
  intro c hc
  have hdigit := Text.isDigit_of_toNat? hread c hc
  refine ⟨?_, ?_, ?_⟩ <;> rintro rfl <;> cases hdigit

theorem isPlain_padded (width n : Nat) : Template.IsPlain (Date.padded width n) :=
  isPlain_of_toNat? (Date.toNat?_padded width n)

theorem isFiller_compact (date : Date) : IsFiller date.compact where
  plain := by
    refine List.forall_mem_append.2 ⟨List.forall_mem_append.2 ⟨?_, ?_⟩, ?_⟩ <;>
      exact isPlain_padded _ _
  ne_nil := List.ne_nil_of_length_eq_add_one date.length_compact

theorem isFiller_dotted (date : Date) : IsFiller date.dotted where
  plain := by
    have hpoint : '.' ≠ '$' ∧ '.' ≠ '{' ∧ '.' ≠ '}' := by decide
    refine List.forall_mem_append.2 ⟨isPlain_padded _ _, List.forall_mem_cons.2 ⟨hpoint, ?_⟩⟩
    exact List.forall_mem_append.2 ⟨isPlain_padded _ _,
      List.forall_mem_cons.2 ⟨hpoint, isPlain_padded _ _⟩⟩
  ne_nil := List.append_ne_nil_of_right_ne_nil _ (List.cons_ne_nil _ _)

/-- Behind any text it is the same for being final whether the dates are expanded. -/
theorem isFinal_flatMap (before : Text) (l : List Text) :
    isFinal (before ++ l.flatMap expandRun) = isFinal (before ++ l.flatten) := by
  induction l generalizing before with
  | nil => rfl
  | cons run l ih =>
      have hrun : isFinal (before ++ expandRun run ++ l.flatten) =
          isFinal (before ++ run ++ l.flatten) := by
        have hbecomes := becomes_expandRun run
        generalize expandRun run = out at hbecomes ⊢
        cases hbecomes with
        | expanded date =>
            exact Template.isFinal_exchange_filler (isFiller_dotted date)
              (isFiller_compact date) _ _
        | kept => rfl
      calc isFinal (before ++ (run :: l).flatMap expandRun)
          = isFinal (before ++ expandRun run ++ l.flatMap expandRun) := by
            rw [List.flatMap_cons, List.append_assoc]
        _ = isFinal (before ++ expandRun run ++ l.flatten) := ih _
        _ = isFinal (before ++ run ++ l.flatten) := hrun
        _ = isFinal (before ++ (run :: l).flatten) := by rw [List.flatten_cons, List.append_assoc]

theorem isFinal_reformatCompactDates (t : Text) : isFinal (reformatCompactDates t) = isFinal t := by
  have h := isFinal_flatMap [] (runs t)
  rwa [List.nil_append, List.nil_append, flatten_runs, ← reformatCompactDates_eq] at h

/-- The value of a date is final if, and only if, what its text has been resolved to is. -/
theorem dateValue_isFinal {σ : Type} (q : Query) (nested : Nested σ) (r : Rule) (state : σ) :
    (q.dateValue nested r state).1.map isFinal =
      (q.plainValue? r).bind fun t => (nested t state).1.map isFinal := by
  unfold Query.dateValue
  cases q.plainValue? r with
  | none => rfl
  | some t =>
      show ((nested t state).1.map reformatCompactDates).map isFinal =
        (nested t state).1.map isFinal
      rw [Option.map_map,
        show isFinal ∘ reformatCompactDates = isFinal from funext isFinal_reformatCompactDates]

/-- The runs of a text are rewritten each by itself and stay where they are: words that are the
eight digits of a date get points, and nothing else changes. So a second time changes nothing, and
no text becomes final or stops being final; a date rule offers a final value just where its nested
text has been resolved to one. -/
theorem reformatCompactDates_wholeWords :
    (∀ t, (runs t).flatten = t ∧
      ∃ outs, List.Forall₂ Becomes (runs t) outs ∧ reformatCompactDates t = outs.flatten) ∧
    (∀ t, reformatCompactDates (reformatCompactDates t) = reformatCompactDates t) ∧
    (∀ t, isFinal (reformatCompactDates t) = isFinal t) ∧
    ∀ (σ : Type) (q : Query) (nested : Nested σ) (r : Rule) (state : σ),
      (q.dateValue nested r state).1.map isFinal =
        (q.plainValue? r).bind fun t => (nested t state).1.map isFinal := by
  refine ⟨fun t => ⟨flatten_runs t, (runs t).map expandRun, ?_, ?_⟩, fun t => ?_,
    isFinal_reformatCompactDates, fun _ => dateValue_isFinal⟩
  · exact List.forall₂_map_right_iff.2 (List.forall₂_same.2 fun run _ => becomes_expandRun run)
  · rw [reformatCompactDates_eq, List.flatMap_def]
  · rw [reformatCompactDates_eq t]
    exact reformatFrom_flatMap (areRuns_runs t)

end Calendar

end Fillout
