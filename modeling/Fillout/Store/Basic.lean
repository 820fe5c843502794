import Fillout.Rule.Matching

set_option autoImplicit false

/-! # The store of rules

A store keeps its rules in the order of their identifiers, with the numbers that were given out
last. Two views are derived from the rules when they are first asked for: an index from alternatives
to rules, and the order of priority, in which the rules of the case come first. Every change makes a
store with new views.

The operations that can fail leave the decision to the caller: a failed operation has no new store.
-/

namespace Fillout

/-- Why a store refuses a change. -/
inductive StoreError
  /-- A rule with the same body is there already. -/
  | duplicate (existing : RuleId)
  /-- No rule has this identifier. -/
  | unknown (id : RuleId)
  /-- The pattern has no alternatives. -/
  | emptyPattern
  deriving DecidableEq

/-- The error in words. -/
def StoreError.message : StoreError → Text
  | duplicate id => "rule duplicates existing rule ".toList ++ id.text
  | unknown id => "unknown rule ".toList ++ id.text
  | emptyPattern => "rule pattern has no alternatives".toList

/-- The identifiers of the rules that have a text among their alternatives, for each text. -/
abbrev PatternIndex := List (Text × List RuleId)

namespace PatternIndex

/-- Adds an identifier behind those that an alternative has. -/
def insert (id : RuleId) (alternative : Text) : PatternIndex → PatternIndex
  | [] => [(alternative, [id])]
  | (a, ids) :: rest =>
      if a = alternative then (a, ids ++ [id]) :: rest else (a, ids) :: insert id alternative rest

/-- The index of a list of rules. -/
def ofRules (rules : List Rule) : PatternIndex :=
  rules.foldl (fun index r =>
    r.body.pattern.alternatives.foldl (fun index a => index.insert r.id a) index) []

/-- The identifiers under an alternative. -/
def get (index : PatternIndex) (alternative : Text) : List RuleId :=
  (index.lookup alternative).getD []

end PatternIndex

/-- The order of priority: the rules of the case, then the others. -/
def priorityOrder (rules : List Rule) : List Rule :=
  rules.filter Rule.isCase ++ rules.filter fun r => !r.isCase

/-- A store of rules. -/
structure RuleStore where
  rules : List Rule
  lastOrdinary : Nat
  lastTemplate : Nat
  index : Thunk PatternIndex
  priority : Thunk (List RuleId)

namespace RuleStore

/-- The store with the given rules, in order, and the numbers given out last. -/
def ofRules (rules : List Rule) (lastOrdinary lastTemplate : Nat) : RuleStore where
  rules := rules
  lastOrdinary := lastOrdinary
  lastTemplate := lastTemplate
  index := Thunk.mk fun _ => .ofRules rules
  priority := Thunk.mk fun _ => (priorityOrder rules).map Rule.id

/-- The empty store. -/
def empty : RuleStore := ofRules [] 0 0

/-! ## Queries -/

/-- The rule with the given identifier. -/
def get? (s : RuleStore) (id : RuleId) : Option Rule := s.rules.find? (·.id = id)

/-- The number of rules. -/
def size (s : RuleStore) : Nat := s.rules.length

/-- Whether there are no rules. -/
def isEmpty (s : RuleStore) : Bool := s.rules.isEmpty

/-- The rules that have `key` among their alternatives, in the order of the identifiers. -/
def byPattern (s : RuleStore) (key : Text) : List Rule :=
  (s.index.get.get key).filterMap s.get?

/-- All rules in the order of priority. -/
def inPriorityOrder (s : RuleStore) : List Rule := s.priority.get.filterMap s.get?

/-- The rules whose value refers to a variable in one of its containers. -/
def dependingOn (s : RuleStore) (name : Text) : List Rule :=
  s.rules.filter fun r => r.body.value.literal?.any fun t => Template.references t name

/-- The rule of a kind that comes first in the order of priority among those that have `alternative`
among their alternatives. -/
def findRule? (s : RuleStore) (kind : RuleKind) (alternative : Text) : Option Rule :=
  s.inPriorityOrder.find? fun r => r.body.kind = kind && r.body.pattern.contains alternative

/-- The literal value of the rule that `findRule?` finds. -/
def findLiteral? (s : RuleStore) (kind : RuleKind) (alternative : Text) : Option Text :=
  (s.findRule? kind alternative).bind fun r => r.body.value.literal?

/-- The records of all rules, in the order of the identifiers. -/
def records (s : RuleStore) : List Record := s.rules.map Rule.toRecord

/-- The store as it is shown. -/
def text (s : RuleStore) : Text :=
  "RuleStore(".toList ++ Text.ofNat s.size ++ " rules, ".toList ++
    Text.ofNat (s.rules.countP Rule.isCase) ++ " case-owned)".toList

/-! ## Changes -/

/-- Whether a body may be put into the store under the identifier `id`: it must have alternatives,
and no other rule may have the same body. -/
def check (s : RuleStore) (id : RuleId) (body : RuleBody) : Except StoreError Unit :=
  if body.pattern.isEmpty then .error .emptyPattern
  else
    match s.rules.find? fun r => r.id ≠ id && r.body = body with
    | some r => .error (.duplicate r.id)
    | none => .ok ()

/-- Puts a rule into a list of rules at the place of its identifier; a rule that has it already is
replaced. -/
def insertRule (r : Rule) : List Rule → List Rule
  | [] => [r]
  | x :: rest =>
      if r.id.before x.id then r :: x :: rest
      else if r.id = x.id then r :: rest
      else x :: insertRule r rest

/-- The identifier that the next rule of an owner gets. Numbers are counted without end here; what
comes about when the numbers of 64 bits are used up is the matter of `KeptViews.perform`. -/
def nextId (s : RuleStore) (owner : Owner) : RuleId :=
  if owner = .template then .template (s.lastTemplate + 1) else .ordinary (s.lastOrdinary + 1)

/-- Adds the rule of a record under a new identifier. -/
def add (s : RuleStore) (record : Record) : Except StoreError (RuleId × RuleStore) := do
  let id := s.nextId record.owner
  let body := RuleBody.ofRecord record
  s.check id body
  let rules := insertRule (.ofBody id body) s.rules
  .ok (id,
    if id.isTemplate then ofRules rules s.lastOrdinary id.number
    else ofRules rules id.number s.lastTemplate)

/-- Removes a rule. -/
def remove (s : RuleStore) (id : RuleId) : Except StoreError (Rule × RuleStore) :=
  match s.get? id with
  | none => .error (.unknown id)
  | some r =>
      .ok (r, ofRules (s.rules.filter fun x => x.id ≠ id) s.lastOrdinary s.lastTemplate)

/-- Puts a changed rule in the place of the one with its identifier. -/
def replace (s : RuleStore) (r : Rule) : Except StoreError RuleStore := do
  s.check r.id r.body
  .ok (ofRules (insertRule r s.rules) s.lastOrdinary s.lastTemplate)

/-- Gives a rule another pattern. -/
def setPattern (s : RuleStore) (id : RuleId) (pattern : Text) : Except StoreError RuleStore :=
  match s.get? id with
  | none => .error (.unknown id)
  | some r => s.replace (r.withPattern pattern)

/-- Gives a rule another value. -/
def setValue (s : RuleStore) (id : RuleId) (value : RuleValue) : Except StoreError RuleStore :=
  match s.get? id with
  | none => .error (.unknown id)
  | some r => s.replace (r.withValue value)

/-- Removes all rules. Numbers that have been given out are not given out again. -/
def clear (s : RuleStore) : RuleStore := ofRules [] s.lastOrdinary s.lastTemplate

/-- Adds records one after the other; those that are refused are left out, and the reasons are
returned in order. -/
def addAll (s : RuleStore) : List Record → RuleStore × List StoreError
  | [] => (s, [])
  | r :: rest =>
      match s.add r with
      | .ok (_, s) => s.addAll rest
      | .error e =>
          let (s, errors) := s.addAll rest
          (s, e :: errors)

/-- The store of a list of records, with the reasons for those that were refused. -/
def ofRecords (records : List Record) : RuleStore × List StoreError := empty.addAll records

@[simp] theorem rules_ofRules (rules : List Rule) (m n : Nat) : (ofRules rules m n).rules = rules :=
  rfl

theorem inPriorityOrder_ofRules (rules : List Rule) (m n : Nat) :
    (ofRules rules m n).inPriorityOrder =
      ((priorityOrder rules).map Rule.id).filterMap fun id => rules.find? (·.id = id) :=
  rfl

end RuleStore

end Fillout
