import Fillout.Proofs.Expr.Reading

set_option autoImplicit false

/-! # Closing parentheses behind a text

`closed` puts parentheses behind a text. The reader does not touch them before the text is used up:
they end a word where the text would end it, and they close no quotation. So an expression that is
read from a text is read from the longer text as well (`Reader.read_append_closings`), and both have
the same words without quotation marks around them (`bareWords_append_closings`).
-/

namespace Fillout

namespace Expr

/-! ## Atoms -/

/-- What stands between the quotation mark `c` and its match, and what follows, if there is a match
and `c` is a quotation mark. -/
def quotedAt? (c : Char) (rest : Text) : Option (Text × Text) :=
  if c = '"' ∨ c = '\'' then readQuoted? c rest else none

/-- The word that starts with `c`, and what follows. -/
def wordAt (c : Char) (rest : Text) : Text × Text :=
  (c :: rest.takeWhile fun d => !endsWord d, rest.dropWhile fun d => !endsWord d)

variable {c : Char} {rest : Text}

theorem quotedAt?_eq_some {p : Text × Text} :
    quotedAt? c rest = some p ↔ (c = '"' ∨ c = '\'') ∧ readQuoted? c rest = some p :=
  Option.ite_none_right_eq_some

theorem wordAt_append (c : Char) (rest : Text) :
    (wordAt c rest).1 ++ (wordAt c rest).2 = c :: rest :=
  congrArg (c :: ·) List.takeWhile_append_dropWhile

theorem endsWord_of_mem_wordAt (hc : endsWord c = false) {d : Char} (h : d ∈ (wordAt c rest).1) :
    endsWord d = false := by
  rcases List.mem_cons.1 h with rfl | h
  · exact hc
  · simpa using List.all_eq_true.1 List.all_takeWhile d h

theorem readAtom_eq (c : Char) (rest : Text) :
    readAtom c rest = (quotedAt? c rest).getD (wordAt c rest) := by
  unfold readAtom quotedAt?
  generalize (if c = '"' ∨ c = '\'' then readQuoted? c rest else none) = quoted?
  cases quoted? <;> rfl

/-- What was read, with closing parentheses behind what follows. -/
def withClosings {α : Type} (n : Nat) (p : α × Text) : α × Text :=
  (p.1, p.2 ++ List.replicate n ')')

variable (c rest) (n : Nat)

theorem readQuoted?_closings {q : Char} (hq : q ≠ ')') :
    readQuoted? q (List.replicate n ')') = none := by
  induction n with
  | zero => rfl
  | succ n ih =>
      cases n with
      | zero => exact if_neg (Ne.symm hq)
      | succ n =>
          rw [List.replicate_succ] at ih
          rw [List.replicate_succ, List.replicate_succ, readQuoted?, if_neg (Ne.symm hq),
            if_neg (by decide), ih]
          rfl

/-- Closing parentheses do not close a quotation. -/
theorem readQuoted?_append_closings {q : Char} (hq : q ≠ ')') (t : Text) :
    readQuoted? q (t ++ List.replicate n ')') = (readQuoted? q t).map (withClosings n) := by
  fun_induction readQuoted? q t with
  | case1 => exact readQuoted?_closings n hq
  | case2 =>
    cases n with
    | zero => exact if_pos rfl
    | succ n => exact if_pos rfl
  | case3 c hne =>
    cases n with
    | zero => exact if_neg hne
    | succ n =>
        -- the first parenthesis may stand behind the sign of an escape
        have hrest := readQuoted?_closings (n + 1) hq
        rw [List.replicate_succ] at hrest
        rw [List.singleton_append, List.replicate_succ, readQuoted?, if_neg hne, hrest,
          readQuoted?_closings n hq]
        exact ite_self _
  | case4 d rest => exact if_pos rfl
  | case5 d rest hne ih =>
    rw [List.cons_append, List.cons_append, readQuoted?, if_neg hne, if_pos rfl, ih, Option.map_map,
      Option.map_map]
    rfl
  | case6 c d rest hne hescape ih =>
    rw [List.cons_append] at ih
    rw [List.cons_append, List.cons_append, readQuoted?, if_neg hne, if_neg hescape, ih,
      Option.map_map, Option.map_map]
    rfl

theorem quotedAt?_append_closings :
    quotedAt? c (rest ++ List.replicate n ')') = (quotedAt? c rest).map (withClosings n) := by
  unfold quotedAt?
  split
  · rename_i hq
    refine readQuoted?_append_closings n ?_ rest
    rintro rfl
    exact absurd hq (by decide)
  · rfl

/-- Closing parentheses end a word. -/
theorem wordAt_append_closings :
    wordAt c (rest ++ List.replicate n ')') = withClosings n (wordAt c rest) := by
  have hsplit : ∀ t : Text,
      (t ++ List.replicate n ')').takeWhile (fun d => !endsWord d) =
        t.takeWhile (fun d => !endsWord d) ∧
      (t ++ List.replicate n ')').dropWhile (fun d => !endsWord d) =
        t.dropWhile (fun d => !endsWord d) ++ List.replicate n ')' := by
    intro t
    induction t with
    | nil => cases n <;> exact ⟨rfl, rfl⟩
    | cons d t ih =>
        rw [List.cons_append, List.takeWhile_cons, List.takeWhile_cons, List.dropWhile_cons,
          List.dropWhile_cons, ih.1, ih.2]
        refine ⟨rfl, ?_⟩
        split <;> rfl
  unfold wordAt withClosings
  rw [(hsplit rest).1, (hsplit rest).2]

theorem readAtom_append_closings :
    readAtom c (rest ++ List.replicate n ')') = withClosings n (readAtom c rest) := by
  rw [readAtom_eq, readAtom_eq, quotedAt?_append_closings, wordAt_append_closings]
  cases quotedAt? c rest <;> rfl

/-! ## Reading on -/

namespace Reader

variable {rest} {r r' : Reader} {e : Expr}

/-- The same reader with closing parentheses behind what is left. -/
def append (n : Nat) (r : Reader) : Reader := ⟨r.stack, r.left ++ List.replicate n ')'⟩

theorem Turn.append (h : r.Turn r') : (r.append n).Turn (r'.append n) := by
  cases h with
  | blank h => exact .blank h
  | opening => exact .opening
  | closing => exact .closing
  | @atom items stack c rest h =>
      have hturn : Turn ⟨items :: stack, c :: (rest ++ List.replicate n ')')⟩ _ := .atom h
      rw [readAtom_append_closings] at hturn
      exact hturn

theorem Ends.append (h : r.Ends e rest) : (r.append n).Ends e (rest ++ List.replicate n ')') := by
  cases h with
  | list => exact .list
  | @atom c rest h =>
      have hend : Ends ⟨[], c :: (rest ++ List.replicate n ')')⟩ _ _ := .atom h
      rw [readAtom_append_closings] at hend
      exact hend

/-- An expression ends where it ended. -/
theorem read_append_closings (h : r.read = some (e, rest)) :
    (r.append n).read = some (e, rest ++ List.replicate n ')') := by
  obtain ⟨r', hcomes, hend⟩ := read_eq_some_iff.1 h
  exact read_eq_some_iff.2 ⟨r'.append n, hcomes.lift (Reader.append n) fun _ _ => Turn.append n,
    hend.append n⟩

end Reader

/-! ## Words without quotation marks around them -/

/-- The atoms of a text that are no quotations. -/
def bareWords : Text → List Text
  | [] => []
  | c :: rest =>
      if endsWord c then bareWords rest
      else if (quotedAt? c rest).isSome then bareWords (readAtom c rest).2
      else (wordAt c rest).1 :: bareWords (readAtom c rest).2
termination_by t => t.length
decreasing_by
  · exact Nat.lt_succ_self _
  · exact Nat.lt_succ_of_le (length_readAtom c rest)
  · exact Nat.lt_succ_of_le (length_readAtom c rest)

variable {c rest}

theorem bareWords_nil : bareWords [] = [] := bareWords.eq_def []

theorem bareWords_cons (c : Char) (rest : Text) :
    bareWords (c :: rest) =
      if endsWord c then bareWords rest
      else if (quotedAt? c rest).isSome then bareWords (readAtom c rest).2
      else (wordAt c rest).1 :: bareWords (readAtom c rest).2 :=
  bareWords.eq_def (c :: rest)

theorem bareWords_of_endsWord (h : endsWord c = true) : bareWords (c :: rest) = bareWords rest :=
  (bareWords_cons c rest).trans (if_pos h)

theorem bareWords_of_word (h : endsWord c = false) (hword : quotedAt? c rest = none) :
    bareWords (c :: rest) = (wordAt c rest).1 :: bareWords (wordAt c rest).2 := by
  rw [bareWords_cons, h, if_neg Bool.false_ne_true, readAtom_eq, hword]
  exact if_neg Bool.false_ne_true

theorem mem_bareWords_of_readAtom (h : endsWord c = false) {w : Text}
    (hw : w ∈ bareWords (readAtom c rest).2) : w ∈ bareWords (c :: rest) := by
  rw [bareWords_cons, h, if_neg Bool.false_ne_true]
  split
  · exact hw
  · exact List.mem_cons_of_mem _ hw

theorem bareWords_closings : bareWords (List.replicate n ')') = [] := by
  induction n with
  | zero => exact bareWords_nil
  | succ n ih => exact (bareWords_of_endsWord (by decide)).trans ih

theorem bareWords_append_closings (t : Text) :
    bareWords (t ++ List.replicate n ')') = bareWords t := by
  fun_induction bareWords t with
  | case1 => exact bareWords_closings n
  | case2 c rest hc ih => exact (bareWords_of_endsWord hc).trans ih
  | case3 c rest hc hquoted ih =>
    rw [List.cons_append, bareWords_cons, if_neg hc, quotedAt?_append_closings, Option.isSome_map,
      if_pos hquoted, readAtom_append_closings]
    exact ih
  | case4 c rest hc hquoted ih =>
    rw [List.cons_append, bareWords_cons, if_neg hc, quotedAt?_append_closings, Option.isSome_map,
      if_neg hquoted, readAtom_append_closings, wordAt_append_closings]
    exact congrArg _ ih

end Expr

end Fillout
