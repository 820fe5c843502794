import Fillout.Json.Reader
import Fillout.Json.Writer
import Fillout.Record.OfJson

set_option autoImplicit false

/-! # Records in JSON text

A file of rules is a JSON array of records. It is read from left to right, so a fault of a record is
found before a syntax error behind it. The fields of an object are read as they come, and none may
come twice. The value of a rule is read to its end before it is judged.
-/

namespace Fillout

namespace Record

open Json (Reader ReadError Shape readShape readString skipBlanks expectMark)

/-- The failures of the readers of records. -/
abbrev StreamError := ReadError Fault

/-- A fault as a failure of a reader. -/
def orFail {α : Type} : Except Fault α → Except StreamError α
  | .ok x => .ok x
  | .error e => .error (.data e)

/-- Reads the next token and judges it. -/
def readJudged {α : Type} (judge : Shape → Except Fault α) (t : Text) :
    Except StreamError (α × Text) := do
  let (shape, t) ← readShape t
  let x ← orFail (judge shape)
  .ok (x, t)

/-- Reads a string. -/
def readText (t : Text) : Except StreamError (Text × Text) := readJudged textOfShape t

/-- Reads a kind. -/
def readKind (t : Text) : Except StreamError (RuleKind × Text) :=
  match skipBlanks t with
  | [] => .error .ended
  | c :: rest =>
      if c = '"' then do
        let (name, t) ← readString rest
        let k ← orFail (kindOfName name)
        .ok (k, t)
      else if c = '{' then do
        let (k, t) ← readJudged (fun
          | .string name => kindOfName name
          | shape => .error (.unexpected shape .kindName)) rest
        let (_, t) ← expectMark ':' t
        let (_, t) ← readJudged (fun
          | .null => .ok ()
          | shape => .error (.unexpected shape .nothing)) t
        let (_, t) ← expectMark '}' t
        .ok (k, t)
      else .error .malformed

/-- The deepest nesting inside the value of a rule, plus one: the list and the record around it are
counted too. -/
def valueDepth : Nat := Json.nestingLimit - 2

/-- The value of a rule that a JSON value holds. Its object must not have `computed` twice. -/
def judgeValue (value : Json) : Except Fault RuleValue :=
  match value with
  | .object members =>
      if (members.filter fun m => m.1 = "computed".toList).length ≤ 1 then valueOfJson value
      else .error .noValue
  | _ => valueOfJson value

/-- Reads the value of a rule. -/
def readRuleValue (t : Text) : Except StreamError (RuleValue × Text) := do
  let (value, t) ← Json.readValue valueDepth t
  let x ← orFail (judgeValue value)
  .ok (x, t)

/-- Reads a scope. -/
def readScope (t : Text) : Except StreamError (Option (List Text) × Text) := do
  let (shape, t) ← readShape t
  match shape with
  | .null => .ok (none, t)
  | .array => do
      let (names, t) ← Json.readList ']' readText t
      .ok (some names, t)
  | shape => .error (.data (.unexpected shape .list))

/-- Reads one field into a draft. -/
def Draft.read (d : Draft) (f : Field) (t : Text) : Except StreamError (Draft × Text) :=
  match f with
  | .kind => (readKind t).map fun (x, t) => ({ d with kind := some x }, t)
  | .pattern => (readText t).map fun (x, t) => ({ d with pattern := some x }, t)
  | .value => (readRuleValue t).map fun (x, t) => ({ d with value := some x }, t)
  | .scope => (readScope t).map fun (x, t) => ({ d with scope := some x }, t)
  | .threshold =>
      (readJudged thresholdOfShape t).map fun (x, t) => ({ d with threshold := some x }, t)
  | .owner => (readText t).map fun (x, t) => ({ d with owner := some (.ofTag x) }, t)
  | .subject =>
      (readJudged optionalTextOfShape t).map fun (x, t) => ({ d with subject := some x }, t)

/-- Reads a member of a record. -/
def Draft.readMember (d : Draft) (t : Text) : Except StreamError (Draft × Text) :=
  match skipBlanks t with
  | [] => .error .ended
  | c :: rest =>
      if c = '"' then do
        let (key, t) ← readString rest
        match Field.ofName? key with
        | some f =>
            -- A field that comes again is a fault even before its colon is read.
            if d.has f then .error (.data (.repeated f))
            else do
              let (_, t) ← expectMark ':' t
              d.read f t
        | none => do
            let (_, t) ← expectMark ':' t
            let t ← Json.skipValue t
            .ok (d, t)
      else .error .malformed

/-- Reads the members of a record up to its closing brace. `fuel` bounds their number. -/
def Draft.readMembers : (fuel : Nat) → Draft → Text → Except StreamError (Draft × Text)
  | 0, _, _ => .error .malformed
  | fuel + 1, d, t => do
      let (d, t) ← d.readMember t
      match skipBlanks t with
      | [] => .error .ended
      | c :: rest =>
          if c = ',' then Draft.readMembers fuel d rest
          else if c = '}' then .ok (d, rest)
          else .error .malformed

/-- Reads an object behind its opening brace. -/
def readObject (t : Text) : Except StreamError (Record × Text) := do
  let (d, t) ← match skipBlanks t with
    | [] => .error .ended
    | c :: rest =>
        if c = '}' then .ok ({}, rest) else Draft.readMembers (t.length + 1) {} (c :: rest)
  let r ← orFail d.finish
  .ok (r, t)

/-- Looks whether another item follows in an array, and goes to it. -/
def nextItem (isFirst : Bool) (t : Text) : Except StreamError (Bool × Text) :=
  match skipBlanks t with
  | [] => .error .ended
  | c :: rest =>
      if c = ']' then .ok (false, c :: rest)
      else if isFirst then .ok (true, c :: rest)
      else if c = ',' then
        match skipBlanks rest with
        | [] => .error .ended
        | d :: more => if d = ']' then .error .malformed else .ok (true, d :: more)
      else .error .malformed

/-- Reads the given fields from the items of an array, of which `count` have been read. Without an
item for the kind or the pattern the array is too short. -/
def Draft.readItems (count : Nat) : List Field → Draft → Text → Except StreamError (Draft × Text)
  | [], d, t => .ok (d, t)
  | f :: fs, d, t => do
      let (more, t) ← nextItem (count == 0) t
      if more then
        let (d, t) ← d.read f t
        Draft.readItems (count + 1) fs d t
      else if f = .kind ∨ f = .pattern then .error (.data (.tooShort count))
      else .ok (d, t)

/-- Reads an array behind its opening bracket. -/
def readArray (t : Text) : Except StreamError (Record × Text) := do
  let (d, t) ← Draft.readItems 0 Field.all {} t
  let r ← orFail d.finish
  let (_, t) ← expectMark ']' t
  .ok (r, t)

/-- Reads a record. -/
def read (t : Text) : Except StreamError (Record × Text) := do
  let (shape, t) ← readShape t
  match shape with
  | .object => readObject t
  | .array => readArray t
  | shape => .error (.data (.unexpected shape .record))

/-- What a reader finds in a text, with nothing but blanks behind it. -/
def readAll {α : Type} (reader : Text → Except StreamError (α × Text)) (t : Text) :
    Except StreamError α := do
  let (x, rest) ← reader t
  if (skipBlanks rest).isEmpty then .ok x else .error .malformed

/-- The record that a text holds. -/
def ofText (t : Text) : Except StreamError Record := readAll read t

/-- Reads a list of records. -/
def readRecords (t : Text) : Except StreamError (List Record × Text) := do
  let (shape, t) ← readShape t
  match shape with
  | .array => Json.readList ']' read t
  | shape => .error (.data (.unexpected shape .list))

/-- The records that a text lists. -/
def listOfText (t : Text) : Except StreamError (List Record) := readAll readRecords t

/-- Records as the text of a file, one line for each item. -/
def listToText (records : List Record) : Text :=
  (Json.array (records.map toJson)).pretty

end Record

end Fillout
