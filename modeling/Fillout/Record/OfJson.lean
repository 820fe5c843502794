import Fillout.Record.Error

set_option autoImplicit false

/-! # Records in JSON values

A record is an object, or an array that lists the fields in the order of `Record.Field.all`. Of
several members of an object with one key the last counts, and the fields of an object are read in
alphabetical order, which decides what fault is found first. Keys without a meaning are ignored.
-/

namespace Fillout

namespace Record

/-- The keys of an object, each once. -/
def keysOf (members : List (Text × Json)) : List Text :=
  RulePattern.firstOccurrences [] (members.map (·.1))

/-- A kind: its name, or an object with the name as its only key and nothing under it. -/
def kindOfJson (value : Json) : Except Fault RuleKind :=
  match value with
  | .string t => kindOfName t
  | .object members =>
      match keysOf members with
      | [key] => do
          let k ← kindOfName key
          match value.get? key with
          | some .null => .ok k
          | some other => .error (.unexpected other.shape .nothing)
          | none => .error .notOneMember
      | _ => .error .notOneMember
  | other => .error (.unexpected other.shape .kind)

/-- The value of a rule: a template, or an object with the name of a provider under `computed`. -/
def valueOfJson (value : Json) : Except Fault RuleValue :=
  match value with
  | .string t => .ok (.literal t)
  | _ =>
      match value.get? "computed".toList with
      | some (.string t) => .ok (.computed t)
      | _ => .error .noValue

/-- A scope: texts, or nothing. -/
def scopeOfJson : Json → Except Fault (Option (List Text))
  | .null => .ok none
  | .array items => (items.mapM fun item => textOfShape item.shape).map some
  | other => .error (.unexpected other.shape .list)

/-- Reads one field into a draft. -/
def Draft.set (d : Draft) (f : Field) (value : Json) : Except Fault Draft :=
  match f with
  | .kind => (kindOfJson value).map fun x => { d with kind := some x }
  | .pattern => (textOfShape value.shape).map fun x => { d with pattern := some x }
  | .value => (valueOfJson value).map fun x => { d with value := some x }
  | .scope => (scopeOfJson value).map fun x => { d with scope := some x }
  | .threshold => (thresholdOfShape value.shape).map fun x => { d with threshold := some x }
  | .owner => (textOfShape value.shape).map fun x => { d with owner := some (.ofTag x) }
  | .subject => (optionalTextOfShape value.shape).map fun x => { d with subject := some x }

/-- The fields in alphabetical order. -/
def Field.alphabetical : List Field :=
  [.kind, .owner, .pattern, .scope, .subject, .threshold, .value]

/-- Reads the given fields, as far as the object has them. -/
def Draft.setAll (value : Json) : List Field → Draft → Except Fault Draft
  | [], d => .ok d
  | f :: fs, d =>
      match value.get? f.name with
      | none => Draft.setAll value fs d
      | some v => do
          let d ← d.set f v
          Draft.setAll value fs d

/-- Reads the given fields from the items of an array. Without an item for the kind or the pattern
the array is too short. -/
def Draft.setItems (length : Nat) : List Field → List Json → Draft → Except Fault Draft
  | [], [], d => .ok d
  | [], _ :: _, _ => .error (.tooLong length)
  | f :: _, [], d => if f = .kind ∨ f = .pattern then .error (.tooShort length) else .ok d
  | f :: fs, v :: vs, d => do
      let d ← d.set f v
      Draft.setItems length fs vs d

/-- The record that a JSON value holds. -/
def ofJson (value : Json) : Except Fault Record :=
  match value with
  | .object _ => do (← Draft.setAll value Field.alphabetical {}).finish
  | .array items => do (← Draft.setItems items.length Field.all items {}).finish
  | other => .error (.unexpected other.shape .record)

/-- The records that a JSON value lists. -/
def listOfJson : Json → Except Fault (List Record)
  | .array items => items.mapM ofJson
  | other => .error (.unexpected other.shape .list)

/-- The value of a rule as JSON. -/
def valueToJson : RuleValue → Json
  | .literal t => .string t
  | .computed p => .object [("computed".toList, .string p)]

/-- A record as JSON. Scope, threshold and subject are left out where there are none. -/
def toJson (r : Record) : Json :=
  .object (
    [ (Field.kind.name, .string r.kind.name),
      (Field.pattern.name, .string r.pattern),
      (Field.value.name, valueToJson r.value) ] ++
    (r.scope.map fun names => (Field.scope.name, Json.array (names.map .string))).toList ++
    (r.threshold.map fun n => (Field.threshold.name, Json.number (.natural n.toNat))).toList ++
    [(Field.owner.name, .string r.owner.tag)] ++
    (r.subject.map fun t => (Field.subject.name, Json.string t)).toList)

end Record

end Fillout
