import Fillout.Text.Basic
import Mathlib.Data.List.Basic
import Mathlib.Data.List.TakeWhile

set_option autoImplicit false

/-! # Trimming

A text is white space, the trimmed text and white space again. Trimming a trimmed text changes
nothing, and white space that is put at either end is trimmed with that of the text.
-/

namespace Fillout

namespace Text

open Unicode (isWhitespace)

theorem trimStart_of_head {c : Char} {t : Text} (h : isWhitespace c = false) :
    trimStart (c :: t) = c :: t := by
  rw [trimStart, List.dropWhile_cons, h]
  rfl

/-- White space is what stands in front of the trimmed text. -/
theorem exists_append_trimStart (t : Text) :
    ∃ w, (∀ c ∈ w, isWhitespace c) ∧ t = w ++ trimStart t :=
  ⟨t.takeWhile isWhitespace, fun _ hc => List.mem_takeWhile_imp hc,
    List.takeWhile_append_dropWhile.symm⟩

/-- White space is what stands behind the trimmed text. -/
theorem exists_trimEnd_append (t : Text) :
    ∃ w, (∀ c ∈ w, isWhitespace c) ∧ t = trimEnd t ++ w := by
  obtain ⟨w, hw, he⟩ := exists_append_trimStart t.reverse
  refine ⟨w.reverse, fun c hc => hw c (List.mem_reverse.1 hc), ?_⟩
  calc t = (w ++ trimStart t.reverse).reverse := by rw [← he, List.reverse_reverse]
    _ = trimEnd t ++ w.reverse := List.reverse_append

@[simp] theorem trimStart_trimStart (t : Text) : trimStart (trimStart t) = trimStart t := by
  unfold trimStart
  induction t with
  | nil => rfl
  | cons c t ih =>
      rw [List.dropWhile_cons]
      split
      · exact ih
      · exact trimStart_of_head (eq_false_of_ne_true ‹_›)

@[simp] theorem trimEnd_trimEnd (t : Text) : trimEnd (trimEnd t) = trimEnd t := by
  have h := trimStart_trimStart t.reverse
  unfold trimStart at h
  unfold trimEnd
  rw [List.reverse_reverse, h]

@[simp] theorem trim_trim (t : Text) : trim (trim t) = trim t := by
  have hstart : trimStart (trimEnd (trimStart t)) = trimEnd (trimStart t) := by
    cases hs : trimEnd (trimStart t) with
    | nil => rfl
    | cons c rest =>
        -- The first character of the trimmed text is the first one behind the white space.
        obtain ⟨w, -, he⟩ := exists_trimEnd_append (trimStart t)
        rw [hs, List.cons_append] at he
        have hc := List.head_dropWhile_not isWhitespace (l := t)
          (by
            rw [show t.dropWhile isWhitespace = c :: (rest ++ w) from he]
            exact List.cons_ne_nil _ _)
        simp only [show t.dropWhile isWhitespace = c :: (rest ++ w) from he, List.head_cons] at hc
        exact trimStart_of_head hc
  unfold trim
  rw [hstart, trimEnd_trimEnd]

variable {w : Text}

theorem trimStart_append (hw : ∀ c ∈ w, isWhitespace c) (t : Text) :
    trimStart (w ++ t) = trimStart t :=
  List.dropWhile_append_of_pos hw

theorem trimEnd_append (hw : ∀ c ∈ w, isWhitespace c) (t : Text) :
    trimEnd (t ++ w) = trimEnd t := by
  unfold trimEnd
  rw [List.reverse_append, List.dropWhile_append_of_pos fun c hc => hw c (List.mem_reverse.1 hc)]

/-- White space in front of a text is trimmed with that of the text. -/
theorem trim_append_left (hw : ∀ c ∈ w, isWhitespace c) (t : Text) : trim (w ++ t) = trim t := by
  unfold trim
  rw [trimStart_append hw]

/-- White space behind a text is trimmed with that of the text. -/
theorem trim_append_right (hw : ∀ c ∈ w, isWhitespace c) (t : Text) : trim (t ++ w) = trim t := by
  have hstart : trimStart (t ++ w) = trimStart t ++ w ∨
      trimStart t = [] ∧ trimStart (t ++ w) = [] := by
    unfold trimStart
    rw [List.dropWhile_append]
    split
    · exact .inr ⟨List.isEmpty_iff.1 ‹_›, List.dropWhile_eq_nil_iff.2 hw⟩
    · exact .inl rfl
  unfold trim
  rcases hstart with he | ⟨he, he'⟩
  · rw [he, trimEnd_append hw]
  · rw [he, he']

/-- Between characters that are no white space nothing is trimmed. -/
theorem trim_of_ends {t : Text} (hhead : ∀ c ∈ t.head?, isWhitespace c = false)
    (hlast : ∀ c ∈ t.getLast?, isWhitespace c = false) : trim t = t := by
  have hkeep : ∀ u : Text, (∀ c ∈ u.head?, isWhitespace c = false) → trimStart u = u := by
    intro u hu
    cases u with
    | nil => rfl
    | cons c u => exact trimStart_of_head (hu c rfl)
  have hend : trimEnd t = t := by
    show (trimStart t.reverse).reverse = t
    rw [hkeep t.reverse (by rwa [List.head?_reverse]), List.reverse_reverse]
  rw [trim, hkeep t hhead, hend]

end Text

end Fillout
