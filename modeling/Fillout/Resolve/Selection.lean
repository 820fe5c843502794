import Fillout.Resolve.Environment
import Fillout.Store.Basic

set_option autoImplicit false

/-! # Selecting rules for a variable

Which rules offer a value for a variable, and in which order. The rules that have the variable among
their alternatives are considered first, in tiers: rules of a header pre-empt all others; then come
rules with a scope; then private rules, rules of the case and the rest. Only if there are none at
all are the other rules of the store searched for one whose pattern matches.
-/

namespace Fillout

/-- A rule that matches a variable, with the place of the alternative that does. -/
structure Selected where
  rule : Rule
  alternative : Nat

namespace Selected

/-- Whether the rule is a header's, for one subject. -/
def isHeader (m : Selected) : Bool := m.rule.body.owner = .header && m.rule.body.subject.isSome

/-- Whether the rule has a scope. -/
def hasScope (m : Selected) : Bool := m.rule.body.scope.isSome

/-- Whether the rule is private to a subject. -/
def isPersonal (m : Selected) : Bool := m.rule.body.subject.isSome

/-- Whether the rule belongs to the document at hand. -/
def isCase (m : Selected) : Bool := m.rule.isCase

end Selected

/-- Those for which `p` holds, followed by the others. -/
def preferring {α : Type} (p : α → Bool) (xs : List α) : List α :=
  xs.filter p ++ xs.filter fun x => !p x

/-- The rules among `rules` that may be used in a context and match `key`. -/
def matchingRules (store : RuleStore) (ctx : Context) (key : Text) (rules : List Rule) :
    List Selected :=
  rules.filterMap fun r =>
    if r.applies ctx then (r.matchingAlternative? store.findLiteral? key).map (⟨r, ·⟩) else none

/-- The order among rules that have the variable among their alternatives. -/
def inTiers (hits : List Selected) : List Selected :=
  if hits.any Selected.isHeader then hits.filter Selected.isHeader
  else if hits.any Selected.hasScope then
    preferring Selected.isCase (hits.filter Selected.hasScope)
  else
    hits.filter Selected.isPersonal ++
      preferring Selected.isCase (hits.filter fun m => !m.isPersonal)

/-- The rules that offer a value for the variable `key`, in order. -/
def select (store : RuleStore) (ctx : Context) (key : Text) : List Selected :=
  let hits := matchingRules store ctx key (store.byPattern key)
  if hits.isEmpty then
    matchingRules store ctx key (store.inPriorityOrder.filter fun r => r.body.kind ≠ .equal)
  else inTiers hits

end Fillout
