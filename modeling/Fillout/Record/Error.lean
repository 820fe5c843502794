import Fillout.Json.Basic
import Fillout.Rule.Basic

set_option autoImplicit false

/-! # Faults of records

What can be wrong with a JSON value that should be the record of a rule, and how it is put in words.
-/

namespace Fillout

namespace Record

/-- The fields of a record. -/
inductive Field
  | kind
  | pattern
  | value
  | scope
  | threshold
  | owner
  | subject
  deriving DecidableEq

namespace Field

/-- Every field, in the order in which they are written. -/
def all : List Field := [kind, pattern, value, scope, threshold, owner, subject]

/-- The name of a field. -/
def name : Field → Text
  | kind => "kind".toList
  | pattern => "pattern".toList
  | value => "value".toList
  | scope => "scope".toList
  | threshold => "threshold".toList
  | owner => "owner".toList
  | subject => "subject".toList

/-- The field of a name. -/
def ofName? (t : Text) : Option Field := all.find? (·.name = t)

theorem ofName?_name (f : Field) : ofName? f.name = some f := by cases f <;> decide

end Field

/-- What is wanted at some place of a record. -/
inductive Wanted
  | text
  | list
  | number
  | record
  | nothing
  | kindName
  | kind
  deriving DecidableEq

/-- What is wanted, as messages name it. -/
def Wanted.describe : Wanted → Text
  | text => "a string".toList
  | list => "a sequence".toList
  | number => "usize".toList
  | record => "struct RuleSpec".toList
  | nothing => "unit".toList
  | kindName => "variant identifier".toList
  | kind => "string or map".toList

/-- A fault of a record. -/
inductive Fault
  | missing (f : Field)
  | repeated (f : Field)
  | unknownKind (name : Text)
  | unexpected (got : Json.Shape) (wanted : Wanted)
  /-- The threshold `-n`. -/
  | negative (n : Nat)
  | tooShort (length : Nat)
  | tooLong (length : Nat)
  /-- The value of the rule is neither a template nor the name of a provider. -/
  | noValue
  /-- A kind in the form of an object must have exactly one member. -/
  | notOneMember

/-- Something between backticks. -/
def ticked (t : Text) : Text := '`' :: (t ++ ['`'])

/-- A fault in words. -/
def Fault.message : Fault → Text
  | missing f => "missing field ".toList ++ ticked f.name
  | repeated f => "duplicate field ".toList ++ ticked f.name
  | unknownKind t =>
      "unknown variant ".toList ++ ticked t ++ ", expected one of ".toList ++
        Text.join ", ".toList (RuleKind.all.map fun k => ticked k.name)
  | unexpected got wanted =>
      "invalid type: ".toList ++ got.describe ++ ", expected ".toList ++ wanted.describe
  | negative n =>
      "invalid value: integer ".toList ++ ticked ('-' :: Text.ofNat n) ++ ", expected usize".toList
  | tooShort n =>
      "invalid length ".toList ++ Text.ofNat n ++ ", expected ".toList ++ Wanted.record.describe ++
        " with 7 elements".toList
  | tooLong n =>
      "invalid length ".toList ++ Text.ofNat n ++ ", expected fewer elements in array".toList
  | noValue => "data did not match any variant of untagged enum RuleValue".toList
  | notOneMember => "invalid value: map, expected map with a single key".toList

/-- The kind of the given name. -/
def kindOfName (t : Text) : Except Fault RuleKind :=
  match RuleKind.ofExactName? t with
  | some k => .ok k
  | none => .error (.unknownKind t)

/-- A string among the shapes. -/
def textOfShape : Json.Shape → Except Fault Text
  | .string t => .ok t
  | shape => .error (.unexpected shape .text)

/-- A threshold among the shapes: a number of 64 bits, or nothing. -/
def thresholdOfShape (shape : Json.Shape) : Except Fault (Option UInt64) :=
  match shape with
  | .null => .ok none
  | .number (.natural n) =>
      if h : n < 2 ^ 64 then .ok (some (.ofNatLT n h)) else .error (.unexpected shape .number)
  | .number (.negative n) => .error (.negative n)
  | _ => .error (.unexpected shape .number)

/-- A string, or nothing, among the shapes. -/
def optionalTextOfShape : Json.Shape → Except Fault (Option Text)
  | .null => .ok none
  | shape => (textOfShape shape).map some

/-- What has been read of a record. -/
structure Draft where
  kind : Option RuleKind := none
  pattern : Option Text := none
  value : Option RuleValue := none
  scope : Option (Option (List Text)) := none
  threshold : Option (Option UInt64) := none
  owner : Option Owner := none
  subject : Option (Option Text) := none

/-- Whether a field has been read. -/
def Draft.has (d : Draft) : Field → Bool
  | .kind => d.kind.isSome
  | .pattern => d.pattern.isSome
  | .value => d.value.isSome
  | .scope => d.scope.isSome
  | .threshold => d.threshold.isSome
  | .owner => d.owner.isSome
  | .subject => d.subject.isSome

/-- The record of a draft; kind and pattern must be there. -/
def Draft.finish (d : Draft) : Except Fault Record :=
  match d.kind, d.pattern with
  | none, _ => .error (.missing .kind)
  | _, none => .error (.missing .pattern)
  | some kind, some pattern =>
      .ok {
        kind
        pattern
        value := d.value.getD (.literal [])
        scope := d.scope.getD none
        threshold := d.threshold.getD none
        owner := d.owner.getD .default
        subject := d.subject.getD none }

end Record

end Fillout
