import Fillout.Calendar.Reading
import Fillout.Expr.Operator
import Fillout.Expr.Reader
import Fillout.Regex.Parser
import Fillout.Regex.Replacement
import Fillout.Rule.Kind
import Fillout.Text.EditDistance

set_option autoImplicit false

/-! # Evaluation of expressions

An expression is evaluated for a subject, the name of the variable or field at hand. The result is a
text, the bare truth `holds`, or nothing (`none`, "undefined"). Predicates test the subject: `(equal
P R)` is `R` if the subject equals `P`, `holds` if `R` is left out, and undefined otherwise.

Operands are evaluated first and handed to `Operator.apply`, which is a function of their values
only.
-/

namespace Fillout

namespace Expr

/-- A defined result. -/
inductive Value
  | text (t : Text)
  | holds
  deriving DecidableEq

namespace Value

/-- The result as a text. -/
def toText : Value → Text
  | text t => t
  | holds => "true".toList

/-- Everything but the empty text counts as true. -/
def isTruthy : Value → Bool
  | text t => !t.isEmpty
  | holds => true

end Value

/-- Undefined does not count as true. -/
def isTruthy (v : Option Value) : Bool := v.any Value.isTruthy

/-- What an evaluation refers to: the subject, and the literal value of the rule of a kind that has
a given pattern, as far as there are rules. -/
structure Scope where
  subject : Text
  findRule : RuleKind → Text → Option Text

/-- A scope without rules. -/
def Scope.ofSubject (subject : Text) : Scope := ⟨subject, fun _ _ => none⟩

/-- The values of the operands of an operator; a missing operand and an undefined one differ. -/
abbrev Operands := List (Option Value)

/-- The operand at a place, as a text. -/
def Operands.text? (args : Operands) (i : Nat) : Option Text :=
  (args[i]?).join.map Value.toText

/-- The result of a predicate that holds: the operand at a place, or `holds` if there is none. -/
def Operands.outcome (args : Operands) (i : Nat) : Option Value := (args[i]?).getD (some .holds)

/-- The number that a threshold writes: decimal digits, with a plus sign allowed before and white
space around them, of at most 64 bits. -/
def threshold? (t : Text) : Option Nat :=
  let digits : Text := match t.trim with
    | '+' :: rest => rest
    | t => t
  digits.toNat?.filter (· < 2 ^ 64)

namespace Operator

/-- The result of a predicate. -/
def decided (holds : Bool) (outcome : Option Value) : Option Value :=
  if holds then outcome else none

/-- The value of the first operand that counts as true. -/
def firstTruthy : Operands → Option Value
  | [] => none
  | v :: vs => if isTruthy v then v else firstTruthy vs

/-- The value of the last operand if all of them count as true; `last` is the value before them. -/
def lastTruthy (last : Value) : Operands → Option Value
  | [] => some last
  | some v :: vs => if v.isTruthy then lastTruthy v vs else none
  | none :: _ => none

/-- The result of an operator. -/
def apply (s : Scope) (args : Operands) : Operator → Option Value
  | equal => do
      let p ← args.text? 0
      decided (s.subject == p) (args.outcome 1)
  | substring => do
      let p ← args.text? 0
      decided (Text.contains s.subject p) (args.outcome 1)
  | superstring => do
      let p ← args.text? 0
      decided (Text.contains p s.subject) (args.outcome 1)
  | similar => do
      let p ← args.text? 0
      let n ← threshold? (← args.text? 1)
      decided (Text.editDistance p s.subject < n) (args.outcome 2)
  | regex => do
      let p ← args.text? 0
      let program ← Regex.compile? p
      decided (program.isMatch s.subject) (args.outcome 1)
  | or => firstTruthy args
  | and => lastTruthy .holds args
  | not =>
      match args with
      | [v] => decided (!isTruthy v) (some .holds)
      | _ => none
  | reformatDate => do
      let t ← args.text? 0
      some (.text ((Calendar.reformatDate t).getD t))
  | transform => do
      let p ← args.text? 0
      let replacement ← args.text? 1
      let t ← args.text? 2
      let program ← Regex.compile? p
      some (.text (program.replaceAll t replacement))
  | findRule => do
      let kindName ← args.text? 0
      let p ← args.text? 1
      let kind ← RuleKind.ofName? kindName
      (s.findRule kind p).map .text

end Operator

mutual

/-- The value of an expression. A list is an operator, named by an atom, with its operands. -/
def eval (s : Scope) : Expr → Option Value
  | atom t => some (.text t)
  | list (atom name :: args) =>
      match Operator.ofName? name with
      | some op => op.apply s (evalAll s args)
      | none => none
  | list _ => none

/-- The values of the operands. -/
def evalAll (s : Scope) : List Expr → Operands
  | [] => []
  | e :: es => eval s e :: evalAll s es

end

theorem evalAll_eq_map (s : Scope) (es : List Expr) : evalAll s es = es.map (eval s) := by
  induction es with
  | nil => rfl
  | cons e es ih => simp [evalAll, ih]

/-- The value of the expression that a text writes; a text that is no expression has none. -/
def evaluate (s : Scope) (t : Text) : Option Value :=
  match parse t with
  | .ok e => e.eval s
  | .error _ => none

end Expr

end Fillout
