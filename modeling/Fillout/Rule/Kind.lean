import Fillout.Text.Basic

set_option autoImplicit false

/-! # Kinds of rules

The kind of a rule says how its pattern is matched against the name of a variable, and, for dates
and switches, how its value is computed.
-/

namespace Fillout

/-- How the pattern of a rule is matched. -/
inductive RuleKind
  | equal
  | substring
  | superstring
  | similar
  | regex
  | formula
  | date
  | switch
  deriving DecidableEq, Repr

namespace RuleKind

/-- Every kind. -/
def all : List RuleKind :=
  [equal, substring, superstring, similar, regex, formula, date, switch]

theorem mem_all (k : RuleKind) : k ∈ all := by cases k <;> decide

/-- The name of a kind. -/
def name : RuleKind → Text
  | equal => "equal".toList
  | substring => "substring".toList
  | superstring => "superstring".toList
  | similar => "similar".toList
  | regex => "regex".toList
  | formula => "formula".toList
  | date => "date".toList
  | switch => "switch".toList

/-- The kind with exactly this name. -/
def ofExactName? (t : Text) : Option RuleKind := all.find? (·.name = t)

/-- The kind with this name, whatever its case and the white space around it. -/
def ofName? (t : Text) : Option RuleKind := ofExactName? t.trim.lower

theorem ofExactName?_name (k : RuleKind) : ofExactName? k.name = some k := by
  cases k <;> decide

theorem ofName?_name (k : RuleKind) : ofName? k.name = some k := by
  cases k <;> decide

theorem name_injective {j k : RuleKind} (h : j.name = k.name) : j = k := by
  have := ofExactName?_name j
  rw [h, ofExactName?_name] at this
  exact (Option.some.inj this).symm

end RuleKind

end Fillout
