import Fillout.Snapshot.Varint
import Fillout.Store.Basic

set_option autoImplicit false

/-! # The payload of a snapshot

The payload says in bytes what a store holds: its size, the numbers given out last, the digest of
the text it was made from, and one entry for each rule. An entry is the record of a rule with its
identifier; the kind and the owner are still names.

Each reader takes bytes and returns what it has read with the rest of the bytes, or nothing if the
bytes do not say what they should.
-/

namespace Fillout

/-- A rule in a payload. -/
structure PayloadEntry where
  id : RuleId
  kind : Text
  pattern : Text
  value : RuleValue
  scope : Option (List Text)
  threshold : Option UInt64
  owner : Text
  subject : Option Text
  deriving DecidableEq

/-- What a snapshot says about a store. -/
structure Payload where
  size : Nat
  lastOrdinary : Nat
  lastTemplate : Nat
  /-- The digest of the text that the store was made from, if that is known. -/
  source : Option Bytes
  entries : List PayloadEntry
  deriving DecidableEq

namespace Payload

/-! ## Writing -/

/-- A text: its length, and its bytes. -/
def writeText (t : Text) : Bytes :=
  let b := Bytes.ofText t
  Varint.write b.length ++ b

/-- Something that may be missing: 1 and what it is, or 0. -/
def writeOption {α : Type} (write : α → Bytes) : Option α → Bytes
  | none => [0]
  | some x => 1 :: write x

/-- A list: its length, and its items. -/
def writeList {α : Type} (write : α → Bytes) (xs : List α) : Bytes :=
  Varint.write xs.length ++ xs.flatMap write

/-- An identifier. -/
def writeId : RuleId → Bytes
  | .ordinary n => Varint.write 0 ++ Varint.write n
  | .template n => Varint.write 1 ++ Varint.write n

/-- The value of a rule. -/
def writeValue : RuleValue → Bytes
  | .literal t => Varint.write 0 ++ writeText t
  | .computed p => Varint.write 1 ++ writeText p

/-- An entry. -/
def writeEntry (e : PayloadEntry) : Bytes :=
  writeId e.id ++ (writeText e.kind ++ (writeText e.pattern ++ (writeValue e.value ++
    (writeOption (writeList writeText) e.scope ++
      (writeOption (fun n => Varint.write n.toNat) e.threshold ++
        (writeText e.owner ++ writeOption writeText e.subject))))))

/-- The bytes of a payload. -/
def write (p : Payload) : Bytes :=
  Varint.write p.size ++ (Varint.write p.lastOrdinary ++ (Varint.write p.lastTemplate ++
    (writeOption id p.source ++ writeList writeEntry p.entries)))

/-! ## Reading -/

/-- A number below 2⁶⁴. -/
def readNumber (b : Bytes) : Option (Nat × Bytes) := Varint.read 8 b

/-- The number of a choice, which takes at most four bytes. -/
def readChoice (b : Bytes) : Option (Nat × Bytes) := Varint.read 4 b

/-- A text. -/
def readText (b : Bytes) : Option (Text × Bytes) := do
  let (n, b) ← readNumber b
  let (bytes, b) ← Bytes.splitAt? n b
  let t ← bytes.toText?
  some (t, b)

/-- Something that may be missing. -/
def readOption {α : Type} (read : Bytes → Option (α × Bytes)) : Bytes → Option (Option α × Bytes)
  | [] => none
  | mark :: b =>
      if mark = 0 then some (none, b)
      else if mark = 1 then (read b).map fun (x, b) => (some x, b)
      else none

/-- `n` items. -/
def readItems {α : Type} (read : Bytes → Option (α × Bytes)) :
    (n : Nat) → Bytes → Option (List α × Bytes)
  | 0, b => some ([], b)
  | n + 1, b => do
      let (x, b) ← read b
      let (xs, b) ← readItems read n b
      some (x :: xs, b)

/-- A list. -/
def readList {α : Type} (read : Bytes → Option (α × Bytes)) (b : Bytes) :
    Option (List α × Bytes) := do
  let (n, b) ← readNumber b
  readItems read n b

/-- An identifier. -/
def readId (b : Bytes) : Option (RuleId × Bytes) := do
  let (choice, b) ← readChoice b
  match choice with
  | 0 => (readNumber b).map fun (n, b) => (.ordinary n, b)
  | 1 => (readNumber b).map fun (n, b) => (.template n, b)
  | _ => none

/-- The value of a rule. -/
def readValue (b : Bytes) : Option (RuleValue × Bytes) := do
  let (choice, b) ← readChoice b
  match choice with
  | 0 => (readText b).map fun (t, b) => (.literal t, b)
  | 1 => (readText b).map fun (t, b) => (.computed t, b)
  | _ => none

/-- An entry. -/
def readEntry (b : Bytes) : Option (PayloadEntry × Bytes) := do
  let (id, b) ← readId b
  let (kind, b) ← readText b
  let (pattern, b) ← readText b
  let (value, b) ← readValue b
  let (scope, b) ← readOption (readList readText) b
  let (threshold, b) ← readOption readNumber b
  let (owner, b) ← readText b
  let (subject, b) ← readOption readText b
  some (⟨id, kind, pattern, value, scope, threshold.map .ofNat, owner, subject⟩, b)

/-- The payload that bytes begin with. -/
def read? (b : Bytes) : Option Payload := do
  let (size, b) ← readNumber b
  let (lastOrdinary, b) ← readNumber b
  let (lastTemplate, b) ← readNumber b
  let (source, b) ← readOption (Bytes.splitAt? 32) b
  let (entries, _) ← readList readEntry b
  some ⟨size, lastOrdinary, lastTemplate, source, entries⟩

end Payload

end Fillout
