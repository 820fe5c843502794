import Fillout.Expr.Basic

set_option autoImplicit false

/-! # Reading expressions

The grammar of expressions:

    expression := word | '"' characters '"' | ''' characters ''' | '(' expression* ')'

with white space allowed everywhere between. A backslash inside quotes makes the quotation mark or
backslash behind it an ordinary character; before other characters it stands for itself. A quotation
mark that is never closed is an ordinary character of a word.

`read` goes through a text with the lists that are open on a stack. `parse` first looks through the
text for parentheses that are not closed at its end and closes them there; and it refuses texts
whose parentheses nest too deep.
-/

namespace Fillout

namespace Expr

open Unicode (isWhitespace)

/-! ## The grammar -/

/-- The characters between quotation marks `q`, behind the opening one, and what follows the closing
one; `none` if there is no closing one. -/
def readQuoted? (q : Char) : Text → Option (Text × Text)
  | [] => none
  | [c] => if c = q then some ([], []) else none
  | c :: d :: rest =>
      if c = q then some ([], d :: rest)
      else if c = '\\' then
        (readQuoted? q rest).map fun (t, after) =>
          (if d = q ∨ d = '\\' then d :: t else '\\' :: d :: t, after)
      else (readQuoted? q (d :: rest)).map fun (t, after) => (c :: t, after)

/-- The atom that starts with the character `c`, which is neither white space nor a parenthesis, and
what follows it. -/
def readAtom (c : Char) (rest : Text) : Text × Text :=
  match if c = '"' ∨ c = '\'' then readQuoted? c rest else none with
  | some r => r
  | none => (c :: rest.takeWhile fun d => !endsWord d, rest.dropWhile fun d => !endsWord d)

theorem length_readQuoted? {q : Char} {t : Text} {r : Text × Text}
    (h : readQuoted? q t = some r) : r.2.length < t.length := by
  fun_induction readQuoted? q t generalizing r with
  | case1 => cases h
  | case2 => cases h; simp
  | case3 => cases h
  | case4 => cases h; simp
  | case5 d rest _ ih =>
    obtain ⟨s, hs, rfl⟩ := Option.map_eq_some_iff.1 h
    have := ih hs
    simp only [List.length_cons]
    omega
  | case6 c d rest _ _ ih =>
    obtain ⟨s, hs, rfl⟩ := Option.map_eq_some_iff.1 h
    have := ih hs
    simp only [List.length_cons] at this ⊢
    omega

theorem length_readAtom (c : Char) (rest : Text) :
    (readAtom c rest).2.length ≤ rest.length := by
  unfold readAtom
  split
  · rename_i r h
    split at h
    · exact Nat.le_of_lt (length_readQuoted? h)
    · cases h
  · exact (List.dropWhile_suffix _).length_le

/-- Reads one expression and returns it with the rest of the text. `stack` holds the items read so
far of the lists that are open, the innermost list first and its last item first. -/
def read (stack : List (List Expr)) (t : Text) : Option (Expr × Text) :=
  match t with
  | [] => none
  | c :: rest =>
      if isWhitespace c then read stack rest
      else if c = '(' then read ([] :: stack) rest
      else if c = ')' then
        match stack with
        | [] => none
        | [items] => some (list items.reverse, rest)
        | items :: outer :: stack => read ((list items.reverse :: outer) :: stack) rest
      else
        match stack with
        | [] => some (atom (readAtom c rest).1, (readAtom c rest).2)
        | items :: stack => read ((atom (readAtom c rest).1 :: items) :: stack) (readAtom c rest).2
termination_by t.length
decreasing_by
  all_goals simp only [List.length_cons]
  all_goals try omega
  have := length_readAtom c rest
  omega

/-! ## Parentheses that are not closed -/

/-- What a look through a text has found: how many parentheses are open, the most that were, and
whether a quotation is open and an escape begun. -/
structure Scan where
  depth : Nat
  deepest : Nat
  quote : Option Char
  escaped : Bool

namespace Scan

/-- Nothing is open. -/
def start : Scan := ⟨0, 0, none, false⟩

/-- One character further. -/
def step (s : Scan) (c : Char) : Scan :=
  if s.escaped then { s with escaped := false }
  else
    match s.quote with
    | some q =>
        if c = '\\' then { s with escaped := true }
        else if c = q then { s with quote := none }
        else s
    | none =>
        if c = '"' ∨ c = '\'' then { s with quote := some c }
        else if c = '(' then
          { s with depth := s.depth + 1, deepest := max s.deepest (s.depth + 1) }
        else if c = ')' then { s with depth := s.depth - 1 }
        else s

/-- The state behind a text. -/
def of (t : Text) : Scan := t.foldl step start

end Scan

/-- A text with the parentheses closed that are open at its end. -/
def closed (t : Text) : Text := t ++ List.replicate (Scan.of t).depth ')'

/-! ## Parsing -/

/-- The deepest nesting of parentheses that is read. -/
def maxNesting : Nat := 256

/-- Why a text is no expression. `before` is the part of the closed text in front of the place where
reading stopped, and `after` the part behind it. -/
inductive ParseFault
  /-- The parentheses nest deeper than `maxNesting`. -/
  | tooDeep (depth : Nat)
  /-- No expression starts at this place. -/
  | noExpression (before after : Text)
  /-- An expression ends before this place, and something follows it. -/
  | leftover (before after : Text)
  deriving DecidableEq

/-- A text that is no expression, and why. -/
structure ParseError where
  expression : Text
  fault : ParseFault
  deriving DecidableEq

/-- Reads a whole text as one expression, with the missing parentheses at its end added. -/
def parse (input : Text) : Except ParseError Expr :=
  let deepest := (Scan.of input).deepest
  if maxNesting < deepest then .error ⟨input, .tooDeep deepest⟩
  else
    let source := closed input
    match read [] source with
    | none =>
        .error ⟨input,
          .noExpression (source.takeWhile isWhitespace) (source.dropWhile isWhitespace)⟩
    | some (e, rest) =>
        let after := rest.dropWhile isWhitespace
        if after.isEmpty then .ok e
        else .error ⟨input, .leftover (source.take (source.length - after.length)) after⟩

end Expr

end Fillout
