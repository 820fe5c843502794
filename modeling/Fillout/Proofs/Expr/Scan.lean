import Fillout.Expr.Reader

set_option autoImplicit false

/-! # Looking for parentheses

The look through a text (`Scan.of`) has its own idea of what is quoted: every quotation mark outside
a quotation opens one, also within a word. Over an atom between quotation marks it agrees with the
reader (`run_readQuoted?`). Over a word it counts nothing (`run_with`), but it may leave a quotation
open; `Scan.IsClosed` says that it does not.

What one step does to the two counts is said once (`step_counts`), and what a look through a whole
text does to them follows from it.
-/

namespace Fillout

namespace Expr

open Unicode (isWhitespace)

namespace Scan

/-- The state behind a text when `s` is the state in front of it. -/
def run (s : Scan) (t : Text) : Scan := t.foldl step s

theorem run_cons (s : Scan) (c : Char) (t : Text) : s.run (c :: t) = (s.step c).run t := rfl

theorem of_append (t u : Text) : Scan.of (t ++ u) = (Scan.of t).run u := List.foldl_append

/-- Outside quotations, with `depth` parentheses open. -/
def outside (depth deepest : Nat) : Scan := ⟨depth, deepest, none, false⟩

/-- In a quotation, with `depth` parentheses open in front of it. -/
def inside (depth deepest : Nat) (quote : Char) : Scan := ⟨depth, deepest, some quote, false⟩

deriving instance DecidableEq for Scan

/-- A look through the text ends as it began: all quotations that it finds are closed. -/
def IsClosed (t : Text) : Prop := Scan.of t = start

instance (t : Text) : Decidable (IsClosed t) := inferInstanceAs (Decidable (_ = _))

variable {s : Scan} {c q : Char} {t : Text}

/-! ## Steps -/

theorem step_inside (depth deepest : Nat) (q c : Char) :
    (inside depth deepest q).step c =
      if c = '\\' then ⟨depth, deepest, some q, true⟩
      else if c = q then outside depth deepest
      else inside depth deepest q := rfl

theorem step_outside (depth deepest : Nat) (c : Char) :
    (outside depth deepest).step c =
      if c = '"' ∨ c = '\'' then inside depth deepest c
      else if c = '(' then outside (depth + 1) (max deepest (depth + 1))
      else if c = ')' then outside (depth - 1) deepest
      else outside depth deepest := rfl

/-- A state is outside quotations, inside one, or behind the sign of an escape. -/
theorem cases_of (s : Scan) :
    s.escaped = true ∨ (∃ q, s = inside s.depth s.deepest q) ∨ s = outside s.depth s.deepest := by
  obtain ⟨depth, deepest, quote, escaped⟩ := s
  cases escaped with
  | true => exact .inl rfl
  | false =>
      cases quote with
      | some q => exact .inr (.inl ⟨q, rfl⟩)
      | none => exact .inr (.inr rfl)

/-! ## Counting -/

/-- A step leaves both counts as they are, or counts a parenthesis. -/
theorem step_counts (s : Scan) (c : Char) :
    ((s.step c).depth = s.depth ∧ (s.step c).deepest = s.deepest) ∨
      (c = '(' ∧ (s.step c).depth = s.depth + 1 ∧
        (s.step c).deepest = max s.deepest (s.depth + 1)) ∨
      (c = ')' ∧ (s.step c).depth = s.depth - 1 ∧ (s.step c).deepest = s.deepest) := by
  rcases s.cases_of with h | ⟨q, h⟩ | h
  · unfold step
    rw [if_pos h]
    exact .inl ⟨rfl, rfl⟩
  · rw [h, step_inside]
    split
    · exact .inl ⟨rfl, rfl⟩
    split <;> exact .inl ⟨rfl, rfl⟩
  · rw [h, step_outside]
    split
    · exact .inl ⟨rfl, rfl⟩
    split
    · exact .inr (.inl ⟨‹_›, rfl, rfl⟩)
    split
    · exact .inr (.inr ⟨‹_›, rfl, rfl⟩)
    · exact .inl ⟨rfl, rfl⟩

/-- The greatest number of open parentheses never goes down. -/
theorem deepest_le_run (s : Scan) (t : Text) : s.deepest ≤ (s.run t).deepest := by
  induction t generalizing s with
  | nil => exact Nat.le_refl _
  | cons c t ih =>
      refine Nat.le_trans ?_ (ih (s.step c))
      rcases s.step_counts c with ⟨-, h⟩ | ⟨-, -, h⟩ | ⟨-, -, h⟩ <;> omega

/-- Closing parentheses do not make a text nest deeper. -/
theorem deepest_run_closings (s : Scan) (n : Nat) :
    (s.run (List.replicate n ')')).deepest = s.deepest := by
  induction n generalizing s with
  | zero => rfl
  | succ n ih =>
      rw [List.replicate_succ, run_cons, ih]
      rcases s.step_counts ')' with ⟨-, h⟩ | ⟨h, -⟩ | ⟨-, -, h⟩
      · exact h
      · exact absurd h (by decide)
      · exact h

/-! ## Words -/

/-- Without parentheses the counts are not touched, and play no part. -/
theorem step_with (hopen : c ≠ '(') (hclose : c ≠ ')') (s : Scan) (depth deepest : Nat) :
    step { s with depth, deepest } c = { s.step c with depth, deepest } := by
  rcases s.cases_of with h | ⟨q, h⟩ | h
  · unfold step
    rw [if_pos h, if_pos h]
  · rw [h, step_inside]
    refine (step_inside depth deepest q c).trans ?_
    split
    · rfl
    split <;> rfl
  · rw [h, step_outside]
    refine (step_outside depth deepest c).trans ?_
    rw [if_neg hopen, if_neg hclose, if_neg hopen, if_neg hclose]
    split <;> rfl

theorem run_with (h : ∀ c ∈ t, c ≠ '(' ∧ c ≠ ')') (s : Scan) (depth deepest : Nat) :
    run { s with depth, deepest } t = { s.run t with depth, deepest } := by
  induction t generalizing s with
  | nil => rfl
  | cons c t ih =>
      obtain ⟨⟨hopen, hclose⟩, ht⟩ := List.forall_mem_cons.1 h
      rw [run_cons, run_cons, step_with hopen hclose, ih ht]

/-- A word in which quotations are closed is passed over. -/
theorem IsClosed.run (h : IsClosed t) (hparens : ∀ c ∈ t, c ≠ '(' ∧ c ≠ ')') (depth deepest : Nat) :
    (outside depth deepest).run t = outside depth deepest := by
  have hwith := run_with hparens start depth deepest
  rw [show start.run t = start from h] at hwith
  exact hwith

/-- White space is passed over. -/
theorem step_of_isWhitespace (h : isWhitespace c = true) (depth deepest : Nat) :
    (outside depth deepest).step c = outside depth deepest := by
  have hne : ∀ d, isWhitespace d = false → c ≠ d := by
    rintro d hd rfl
    rw [hd] at h
    cases h
  rw [step_outside, if_neg, if_neg (hne '(' (by decide)), if_neg (hne ')' (by decide))]
  rintro (he | he)
  · exact hne '"' (by decide) he
  · exact hne '\'' (by decide) he

theorem run_of_isWhitespace (h : ∀ c ∈ t, isWhitespace c = true) (depth deepest : Nat) :
    (outside depth deepest).run t = outside depth deepest := by
  induction t with
  | nil => rfl
  | cons c t ih =>
      obtain ⟨hc, ht⟩ := List.forall_mem_cons.1 h
      rw [run_cons, step_of_isWhitespace hc, ih ht]

/-! ## Quotations -/

variable (depth deepest : Nat)

theorem step_inside_end (hq : q ≠ '\\') :
    (inside depth deepest q).step q = outside depth deepest := by
  rw [step_inside, if_neg hq, if_pos rfl]

theorem step_inside_other (hc : c ≠ q) (hescape : c ≠ '\\') :
    (inside depth deepest q).step c = inside depth deepest q := by
  rw [step_inside, if_neg hescape, if_neg hc]

/-- The sign of an escape and the character behind it. -/
theorem run_escape (c : Char) (t : Text) :
    (inside depth deepest q).run ('\\' :: c :: t) = (inside depth deepest q).run t := rfl

/-- A quotation is closed where the reader finds its end. -/
theorem run_readQuoted? (hq : q ≠ '\\') {text after : Text}
    (h : readQuoted? q t = some (text, after)) :
    ∃ before, t = before ++ after ∧
      (inside depth deepest q).run before = outside depth deepest := by
  fun_induction readQuoted? q t generalizing text with
  | case1 => cases h
  | case2 =>
    cases h
    exact ⟨[q], rfl, step_inside_end depth deepest hq⟩
  | case3 => cases h
  | case4 d rest =>
    cases h
    exact ⟨[q], rfl, step_inside_end depth deepest hq⟩
  | case5 d rest _ ih =>
    obtain ⟨⟨text, after⟩, hrest, he⟩ := Option.map_eq_some_iff.1 h
    cases he
    obtain ⟨before, rfl, hrun⟩ := ih hrest
    exact ⟨'\\' :: d :: before, rfl, by rw [run_escape, hrun]⟩
  | case6 c d rest hne hescape ih =>
    obtain ⟨⟨text, after⟩, hrest, he⟩ := Option.map_eq_some_iff.1 h
    cases he
    obtain ⟨before, hbefore, hrun⟩ := ih hrest
    refine ⟨c :: before, by rw [hbefore]; rfl, ?_⟩
    rw [run_cons, step_inside_other depth deepest hne hescape, hrun]

/-- What follows an open quotation without closing it is passed over. -/
theorem run_inside (h : ∀ c ∈ t, c ≠ q ∧ c ≠ '\\') :
    (inside depth deepest q).run t = inside depth deepest q := by
  induction t with
  | nil => rfl
  | cons c t ih =>
      obtain ⟨⟨hc, hescape⟩, ht⟩ := List.forall_mem_cons.1 h
      rw [run_cons, step_inside_other depth deepest hc hescape, ih ht]

end Scan

end Expr

end Fillout
