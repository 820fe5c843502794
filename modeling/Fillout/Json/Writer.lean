import Fillout.Json.Basic

set_option autoImplicit false

/-! # Writing JSON

Strings escape the quotation mark, the backslash and the control characters, and nothing else. A
value is written either without any blanks (`compact`) or with one item a line (`pretty`).
-/

namespace Fillout

namespace Json

/-- A hexadecimal digit, in lower case. -/
def hexDigit (d : Nat) : Char := if d < 10 then Char.ofNat (48 + d) else Char.ofNat (87 + d)

/-- One character inside a string. -/
def escapeChar (c : Char) : Text :=
  if c = '"' then ['\\', '"']
  else if c = '\\' then ['\\', '\\']
  else if c = '\x08' then ['\\', 'b']
  else if c = '\x0c' then ['\\', 'f']
  else if c = '\n' then ['\\', 'n']
  else if c = '\r' then ['\\', 'r']
  else if c = '\t' then ['\\', 't']
  else if c.toNat < 0x20 then
    ['\\', 'u', '0', '0', hexDigit (c.toNat / 16), hexDigit (c.toNat % 16)]
  else [c]

/-- The characters of a string between its quotation marks. -/
def escape (t : Text) : Text := t.flatMap escapeChar

/-- A string in quotation marks. -/
def stringText (t : Text) : Text := '"' :: (escape t ++ ['"'])

/-- A value of one token; arrays and objects have none. -/
def scalarText : Json → Text
  | null => "null".toList
  | bool true => "true".toList
  | bool false => "false".toList
  | number n => n.text
  | string t => stringText t
  | _ => []

mutual

/-- A value without blanks. -/
def compact : Json → Text
  | array items => '[' :: (compactItems items ++ [']'])
  | object members => '{' :: (compactMembers members ++ ['}'])
  | scalar => scalarText scalar

/-- The items of an array, with commas between them. -/
def compactItems : List Json → Text
  | [] => []
  | [item] => compact item
  | item :: items => compact item ++ ',' :: compactItems items

/-- The members of an object, with commas between them. -/
def compactMembers : List (Text × Json) → Text
  | [] => []
  | [(key, value)] => stringText key ++ ':' :: compact value
  | (key, value) :: members =>
      stringText key ++ ':' :: (compact value ++ ',' :: compactMembers members)

end

/-- A new line, indented by two blanks for each of `depth` levels. -/
def newLine (depth : Nat) : Text := '\n' :: List.replicate (2 * depth) ' '

mutual

/-- A value with one item a line, `depth` levels deep. An empty array or object takes no line of its
own. -/
def prettyAt (depth : Nat) : Json → Text
  | array [] => "[]".toList
  | array items => '[' :: (prettyItems (depth + 1) items ++ newLine depth ++ [']'])
  | object [] => ['{', '}']
  | object members => '{' :: (prettyMembers (depth + 1) members ++ newLine depth ++ ['}'])
  | scalar => scalarText scalar

/-- The items of an array, each on its line. -/
def prettyItems (depth : Nat) : List Json → Text
  | [] => []
  | [item] => newLine depth ++ prettyAt depth item
  | item :: items => newLine depth ++ prettyAt depth item ++ ',' :: prettyItems depth items

/-- The members of an object, each on its line. -/
def prettyMembers (depth : Nat) : List (Text × Json) → Text
  | [] => []
  | [(key, value)] => newLine depth ++ stringText key ++ ": ".toList ++ prettyAt depth value
  | (key, value) :: members =>
      newLine depth ++ stringText key ++ ": ".toList ++ prettyAt depth value ++
        ',' :: prettyMembers depth members

end

/-- A value with one item a line. -/
def pretty (value : Json) : Text := prettyAt 0 value

end Json

end Fillout
