import Fillout.Bytes
import Fillout.Record.Stream
import Fillout.Store.Basic

set_option autoImplicit false

/-! # Files of rules

A file of rules is the text of a JSON array of records in UTF-8. Records that the store refuses are
left out when a file is loaded.
-/

namespace Fillout

/-- Why a file of rules cannot be loaded. -/
inductive LoadError
  /-- There is no such file, or it is no text. -/
  | unreadable
  /-- The text ends too early. -/
  | ended
  /-- The text is no JSON. -/
  | malformed
  /-- The text is JSON, but no list of records. -/
  | fault (cause : Record.Fault)

namespace LoadError

/-- The failure of a reader as a failure to load. -/
def ofStream : Record.StreamError → LoadError
  | .ended => ended
  | .malformed => malformed
  | .data cause => fault cause

/-- The error in words. -/
def message : LoadError → Text
  | unreadable => "rule file cannot be read".toList
  | ended => "rule file ends too early".toList
  | malformed => "rule file is not JSON".toList
  | fault cause => "invalid rule file: ".toList ++ cause.message

end LoadError

namespace RuleStore

/-- The store of the rules that a text lists. -/
def ofText (t : Text) : Except LoadError RuleStore :=
  match Record.listOfText t with
  | .ok records => .ok (ofRecords records).1
  | .error e => .error (.ofStream e)

/-- The store of the rules in a file, of which the bytes are given if there is such a file. -/
def ofFile (file : Option Bytes) : Except LoadError RuleStore :=
  match file.bind Bytes.toText? with
  | some t => ofText t
  | none => .error .unreadable

/-- The rules of a store as the text of a file. -/
def toText (s : RuleStore) : Text := Record.listToText s.records

end RuleStore

end Fillout
