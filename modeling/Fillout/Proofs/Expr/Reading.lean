import Fillout.Expr.Reader
import Mathlib.Logic.Relation

set_option autoImplicit false

/-! # The turns of the reader

The reader of expressions takes one character or one atom at a time, with the lists that are open on
a stack. A `Reader` is what it has before it, `Reader.Turn` is one turn, and `Reader.Ends` says
where an expression ends. What `read` does is exactly this (`read_cases`): it takes a turn and goes
on, or ends, or finds nothing. So an expression is read exactly if turns lead to an end
(`read_eq_some_iff`).
-/

namespace Fillout

namespace Expr

open Unicode (isWhitespace)

theorem endsWord_eq_false {c : Char} :
    endsWord c = false ↔ isWhitespace c = false ∧ c ≠ '(' ∧ c ≠ ')' := by
  unfold endsWord
  rw [Bool.or_eq_false_iff, Bool.or_eq_false_iff, beq_eq_false_iff_ne, beq_eq_false_iff_ne,
    and_assoc]

/-- Lists that are open, with the items read so far as in `read`, and the text that is left. -/
structure Reader where
  stack : List (List Expr)
  left : Text

namespace Reader

/-- What is read. -/
def read (r : Reader) : Option (Expr × Text) := Expr.read r.stack r.left

/-- The reader takes the next character or atom, and goes on. -/
inductive Turn : Reader → Reader → Prop
  | blank {stack : List (List Expr)} {c : Char} {rest : Text} (h : isWhitespace c = true) :
      Turn ⟨stack, c :: rest⟩ ⟨stack, rest⟩
  | opening {stack : List (List Expr)} {rest : Text} :
      Turn ⟨stack, '(' :: rest⟩ ⟨[] :: stack, rest⟩
  | closing {items outer : List Expr} {stack : List (List Expr)} {rest : Text} :
      Turn ⟨items :: outer :: stack, ')' :: rest⟩ ⟨(list items.reverse :: outer) :: stack, rest⟩
  | atom {items : List Expr} {stack : List (List Expr)} {c : Char} {rest : Text}
      (h : endsWord c = false) :
      Turn ⟨items :: stack, c :: rest⟩
        ⟨(.atom (readAtom c rest).1 :: items) :: stack, (readAtom c rest).2⟩

/-- With the next character or atom an expression ends. -/
inductive Ends : Reader → Expr → Text → Prop
  | list {items : List Expr} {rest : Text} : Ends ⟨[items], ')' :: rest⟩ (.list items.reverse) rest
  | atom {c : Char} {rest : Text} (h : endsWord c = false) :
      Ends ⟨[], c :: rest⟩ (.atom (readAtom c rest).1) (readAtom c rest).2

/-- The reader comes to another state by turns. -/
def Comes : Reader → Reader → Prop := Relation.ReflTransGen Turn

variable {r r' : Reader} {e : Expr} {rest : Text}

/-! ## What is read -/

theorem read_cons (stack : List (List Expr)) (c : Char) (rest : Text) :
    Expr.read stack (c :: rest) =
      if isWhitespace c then Expr.read stack rest
      else if c = '(' then Expr.read ([] :: stack) rest
      else if c = ')' then
        match stack with
        | [] => none
        | [items] => some (.list items.reverse, rest)
        | items :: outer :: stack => Expr.read ((.list items.reverse :: outer) :: stack) rest
      else
        match stack with
        | [] => some (.atom (readAtom c rest).1, (readAtom c rest).2)
        | items :: stack =>
            Expr.read ((.atom (readAtom c rest).1 :: items) :: stack) (readAtom c rest).2 :=
  Expr.read.eq_def ..

theorem read_closing (stack : List (List Expr)) (rest : Text) :
    Expr.read stack (')' :: rest) =
      match stack with
      | [] => none
      | [items] => some (.list items.reverse, rest)
      | items :: outer :: stack => Expr.read ((.list items.reverse :: outer) :: stack) rest := by
  rw [read_cons, if_neg (by decide), if_neg (by decide), if_pos rfl]

theorem read_atom {c : Char} (h : endsWord c = false) (stack : List (List Expr)) (rest : Text) :
    Expr.read stack (c :: rest) =
      match stack with
      | [] => some (.atom (readAtom c rest).1, (readAtom c rest).2)
      | items :: stack =>
          Expr.read ((.atom (readAtom c rest).1 :: items) :: stack) (readAtom c rest).2 := by
  obtain ⟨hblank, hopen, hclose⟩ := endsWord_eq_false.1 h
  rw [read_cons, hblank, if_neg Bool.false_ne_true, if_neg hopen, if_neg hclose]

theorem read_of_turn (h : r.Turn r') : r.read = r'.read := by
  cases h with
  | blank h => exact (read_cons ..).trans (if_pos h)
  | opening => exact (read_cons ..).trans ((if_neg (by decide)).trans (if_pos rfl))
  | closing => exact read_closing ..
  | atom h => exact read_atom h ..

theorem read_of_ends (h : r.Ends e rest) : r.read = some (e, rest) := by
  cases h with
  | list => exact read_closing ..
  | atom h => exact read_atom h ..

/-- The reader takes a turn and goes on, or ends, or finds nothing. -/
theorem read_cases (r : Reader) :
    (∃ r', r.Turn r' ∧ r.read = r'.read) ∨ (∃ e rest, r.Ends e rest) ∨ r.read = none := by
  have hturn : ∀ {r'}, r.Turn r' → ∃ r', r.Turn r' ∧ r.read = r'.read :=
    fun h => ⟨_, h, read_of_turn h⟩
  obtain ⟨stack, left⟩ := r
  cases left with
  | nil => exact .inr (.inr (Expr.read.eq_def stack []))
  | cons c rest =>
      cases hc : endsWord c with
      | false =>
          cases stack with
          | nil => exact .inr (.inl ⟨_, _, .atom hc⟩)
          | cons items stack => exact .inl (hturn (.atom hc))
      | true =>
          have hkind : isWhitespace c = true ∨ c = '(' ∨ c = ')' := by
            simpa [endsWord, or_assoc] using hc
          rcases hkind with h | rfl | rfl
          · exact .inl (hturn (.blank h))
          · exact .inl (hturn .opening)
          · match stack with
            | [] => exact .inr (.inr (read_closing [] rest))
            | [items] => exact .inr (.inl ⟨_, _, .list⟩)
            | items :: outer :: stack => exact .inl (hturn .closing)

theorem Turn.length_lt (h : r.Turn r') : r'.left.length < r.left.length := by
  cases h with
  | blank => exact Nat.lt_succ_self _
  | opening => exact Nat.lt_succ_self _
  | closing => exact Nat.lt_succ_self _
  | atom => exact Nat.lt_succ_of_le (length_readAtom _ _)

theorem read_of_comes (h : r.Comes r') : r.read = r'.read := by
  induction h with
  | refl => rfl
  | tail _ hturn ih => exact ih.trans (read_of_turn hturn)

theorem exists_end_of_read (h : r.read = some (e, rest)) : ∃ r', r.Comes r' ∧ r'.Ends e rest := by
  induction hn : r.left.length using Nat.strongRecOn generalizing r with
  | ind n ih =>
      rcases r.read_cases with ⟨r', hturn, hread⟩ | ⟨e', rest', hend⟩ | hnone
      · obtain ⟨r'', hcomes, hend⟩ := ih r'.left.length (hn ▸ hturn.length_lt) (hread ▸ h) rfl
        exact ⟨r'', hcomes.head hturn, hend⟩
      · have he := (read_of_ends hend).symm.trans h
        cases he
        exact ⟨r, .refl, hend⟩
      · rw [hnone] at h
        cases h

/-- An expression is read exactly if turns lead to its end. -/
theorem read_eq_some_iff : r.read = some (e, rest) ↔ ∃ r', r.Comes r' ∧ r'.Ends e rest :=
  ⟨exists_end_of_read, fun ⟨_, hcomes, hend⟩ => (read_of_comes hcomes).trans (read_of_ends hend)⟩

end Reader

end Expr

end Fillout
