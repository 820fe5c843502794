import Fillout.Text.Basic

set_option autoImplicit false

/-! # Expressions

An expression is an atom or a list of expressions in parentheses. The printed form separates the
items of a list by one blank and puts an atom between double quotes if it would not be read back as
one word otherwise.
-/

namespace Fillout

/-- A symbolic expression. -/
inductive Expr
  | atom (text : Text)
  | list (items : List Expr)
  deriving BEq

namespace Expr

/-- The characters that end a bare word. -/
def endsWord (c : Char) : Bool := Unicode.isWhitespace c || c == '(' || c == ')'

/-- Whether an atom has to stand between quotes. -/
def needsQuotes (t : Text) : Bool := t.isEmpty || t.any endsWord

/-- An atom as it is printed. -/
def atomText (t : Text) : Text := if needsQuotes t then '"' :: (t ++ ['"']) else t

mutual

/-- The printed form of an expression. -/
def print : Expr → Text
  | atom t => atomText t
  | list items => '(' :: (printItems items ++ [')'])

/-- The printed forms of the items of a list, with blanks between them. -/
def printItems : List Expr → Text
  | [] => []
  | [item] => print item
  | item :: items => print item ++ ' ' :: printItems items

end

mutual

/-- How many lists stand inside one another. -/
def depth : Expr → Nat
  | atom _ => 0
  | list items => depthOfItems items + 1

/-- The depth of the deepest item. -/
def depthOfItems : List Expr → Nat
  | [] => 0
  | item :: items => max (depth item) (depthOfItems items)

end

mutual

/-- The atoms of an expression, in order. -/
def atoms : Expr → List Text
  | atom t => [t]
  | list items => atomsOfItems items

/-- The atoms of the items of a list, in order. -/
def atomsOfItems : List Expr → List Text
  | [] => []
  | item :: items => atoms item ++ atomsOfItems items

end

end Expr

end Fillout
