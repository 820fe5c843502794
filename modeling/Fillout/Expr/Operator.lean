import Fillout.Text.Basic

set_option autoImplicit false

/-! # Operators

The operators of expressions. Each goes by an English and a German name, in any case.
-/

namespace Fillout

namespace Expr

/-- An operator. -/
inductive Operator
  | equal
  | substring
  | superstring
  | similar
  | regex
  | or
  | and
  | not
  | reformatDate
  | transform
  | findRule
  deriving DecidableEq, Repr

namespace Operator

/-- Every operator. -/
def all : List Operator :=
  [equal, substring, superstring, similar, regex, or, and, not, reformatDate, transform, findRule]

theorem mem_all (op : Operator) : op ∈ all := by cases op <;> decide

/-- The English name. -/
def name : Operator → Text
  | equal => "equal".toList
  | substring => "substring".toList
  | superstring => "superstring".toList
  | similar => "similar".toList
  | regex => "regex".toList
  | or => "or".toList
  | and => "and".toList
  | not => "not".toList
  | reformatDate => "re-format-date".toList
  | transform => "transform".toList
  | findRule => "findrule".toList

/-- The names that an operator goes by besides the English one. -/
def aliases : Operator → List Text
  | equal => ["gleich".toList]
  | substring => ["teilstring".toList]
  | superstring => ["oberstring".toList]
  | similar => ["ähnlich".toList, "aehnlich".toList]
  | regex => ["regulär".toList, "regulaer".toList]
  | or => ["oder".toList]
  | and => ["und".toList]
  | not => ["nicht".toList]
  | reformatDate => ["datum-umformatieren".toList]
  | transform => ["umwandeln".toList]
  | findRule => ["finde-regel".toList]

/-- Whether a name in lower case is one of the operator's. -/
def goesBy (op : Operator) (t : Text) : Bool := op.name == t || op.aliases.contains t

/-- The operator with the given name. -/
def ofName? (t : Text) : Option Operator := all.find? (·.goesBy t.lower)

theorem ofName?_name (op : Operator) : ofName? op.name = some op := by
  cases op <;> decide

/-- Every other name finds its operator too. -/
theorem ofName?_alias {op : Operator} {t : Text} (h : t ∈ op.aliases) : ofName? t = some op := by
  revert t
  cases op <;> decide

end Operator

end Expr

end Fillout
