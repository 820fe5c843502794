import Fillout.Context
import Fillout.Expr.Eval
import Fillout.Rule.Basic

set_option autoImplicit false

/-! # Matching a rule

Whether a rule may be used in a context, and which of its alternatives matches the name of a
variable.
-/

namespace Fillout

namespace Rule

/-- A rule with a scope may be used in the documents whose name contains one of the texts of the
scope. -/
def scopeMatches (r : Rule) (ctx : Context) : Bool :=
  match r.body.scope with
  | none => true
  | some names => ctx.document.any fun d => names.any fun s => Text.contains d s

/-- A rule that is private to a subject may be used for that subject only. -/
def subjectMatches (r : Rule) (ctx : Context) : Bool :=
  match r.body.subject with
  | none => true
  | some s => ctx.subject == some s

/-- Whether a rule may be used in a context at all. -/
def applies (r : Rule) (ctx : Context) : Bool := r.scopeMatches ctx && r.subjectMatches ctx

/-- Whether the alternative at place `i` matches the name `key`; `findRule` gives formulas access to
other rules. -/
def alternativeMatches (r : Rule) (findRule : RuleKind → Text → Option Text) (key : Text) (i : Nat)
    (alternative : Text) : Bool :=
  match r.body.kind with
  | .equal | .date | .switch => alternative == key
  | .substring => Text.contains key alternative
  | .superstring => Text.contains alternative key
  | .similar => Text.editDistance alternative key < r.threshold.toNat
  | .regex => ((r.matchers[i]?).join).any fun p => p.isMatch key
  | .formula => Expr.isTruthy (Expr.evaluate ⟨key, findRule⟩ alternative)

/-- The place of the first of the alternatives, numbered from `i` on, that matches `key`. -/
def firstMatchFrom (r : Rule) (findRule : RuleKind → Text → Option Text) (key : Text) (i : Nat) :
    List Text → Option Nat
  | [] => none
  | a :: rest =>
      if r.alternativeMatches findRule key i a then some i
      else r.firstMatchFrom findRule key (i + 1) rest

/-- The place of the first alternative that matches `key`. -/
def matchingAlternative? (r : Rule) (findRule : RuleKind → Text → Option Text) (key : Text) :
    Option Nat :=
  r.firstMatchFrom findRule key 0 r.body.pattern.alternatives

end Rule

end Fillout
