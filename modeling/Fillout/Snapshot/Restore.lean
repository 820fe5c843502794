import Fillout.Digest.Blake3
import Fillout.Snapshot.Payload

set_option autoImplicit false

/-! # Stores and payloads

The payload of a store keeps the identifiers of the rules and the numbers given out last, so a store
made from it goes on numbering where the first one left off. A payload from elsewhere is examined
before a store is made from it; `Flaw` lists what can be wrong with it.
-/

namespace Fillout

/-- What can be wrong with a payload. -/
inductive Flaw
  /-- The stated number of rules is not the number of entries. -/
  | wrongSize (stated actual : Nat)
  /-- The identifiers of the entries do not ascend. -/
  | unsorted
  /-- The number of an identifier is zero, or above the number given out last. -/
  | outOfRange (number last : Nat)
  | unknownKind (name : Text)
  | emptyPattern (id : RuleId)
  | duplicate (id existing : RuleId)
  deriving DecidableEq

/-- A flaw in words. -/
def Flaw.message : Flaw → Text
  | wrongSize stated actual =>
      "metadata says ".toList ++ Text.ofNat stated ++ " rules but payload has ".toList ++
        Text.ofNat actual
  | unsorted => "rules not sorted by ascending id".toList
  | outOfRange number last =>
      "rule id ".toList ++ Text.ofNat number ++ " outside counter range 1..=".toList ++
        Text.ofNat last
  | unknownKind name => "unknown rule kind '".toList ++ name ++ ['\'']
  | emptyPattern id => "rule ".toList ++ id.text ++ " has an empty pattern".toList
  | duplicate id existing =>
      "rule ".toList ++ id.text ++ " duplicates rule ".toList ++ existing.text

namespace Payload

/-- The entry of a rule. -/
def entryOfRule (r : Rule) : PayloadEntry :=
  let record := r.toRecord
  { id := r.id
    kind := record.kind.name
    pattern := record.pattern
    value := record.value
    scope := record.scope
    threshold := record.threshold
    owner := record.owner.tag
    subject := record.subject }

/-- The payload of a store that was made from a text, if that is known. -/
def ofStore (s : RuleStore) (source : Option Text) : Payload where
  size := s.size
  lastOrdinary := s.lastOrdinary
  lastTemplate := s.lastTemplate
  source := source.map fun t => Blake3.hash (.ofText t)
  entries := s.rules.map entryOfRule

/-- The number given out last for identifiers like the given one. -/
def lastFor (p : Payload) : RuleId → Nat
  | .ordinary _ => p.lastOrdinary
  | .template _ => p.lastTemplate

/-- Whether each identifier comes before the next one. -/
def ascending : List RuleId → Bool
  | i :: j :: rest => i.before j && ascending (j :: rest)
  | _ => true

/-- Examines the size and the identifiers. -/
def checkNumbers (p : Payload) : Except Flaw Unit :=
  let ids := p.entries.map PayloadEntry.id
  if p.size ≠ p.entries.length then .error (.wrongSize p.size p.entries.length)
  else if !ascending ids then .error .unsorted
  else
    match ids.find? fun i => i.number = 0 || p.lastFor i < i.number with
    | some i => .error (.outOfRange i.number (p.lastFor i))
    | none => .ok ()

/-- The rule of an entry. -/
def ruleOfEntry (e : PayloadEntry) : Except Flaw Rule :=
  match RuleKind.ofName? e.kind with
  | none => .error (.unknownKind e.kind)
  | some kind =>
      .ok (.ofRecord e.id {
        kind
        pattern := e.pattern
        value := e.value
        scope := e.scope
        threshold := e.threshold
        owner := .ofTag e.owner
        subject := e.subject })

/-- Examines rules one after the other: each has alternatives, and none says the same as one of
those before it, which are in `earlier`. -/
def checkRules (earlier : List Rule) : List Rule → Except Flaw Unit
  | [] => .ok ()
  | r :: rest =>
      if r.body.pattern.isEmpty then .error (.emptyPattern r.id)
      else
        match earlier.find? fun o => o.body = r.body with
        | some o => .error (.duplicate r.id o.id)
        | none => checkRules (earlier ++ [r]) rest

/-- The store of a payload. -/
def toStore (p : Payload) : Except Flaw RuleStore := do
  p.checkNumbers
  let rules ← p.entries.mapM ruleOfEntry
  checkRules [] rules
  .ok (.ofRules rules p.lastOrdinary p.lastTemplate)

end Payload

end Fillout
