import Fillout.Decimal.Shortest
import Fillout.Text.Quoted

set_option autoImplicit false

/-! # JSON values

Values of the JSON data format. The members of an object are kept as a list of pairs. A number is
kept as an integer if it is one of the integers that fit into 64 bits, and as a floating-point
number otherwise.
-/

namespace Fillout

namespace Json

/-- A JSON number. -/
inductive Number
  /-- The integer `n`, at most `2 ^ 64 - 1`. -/
  | natural (n : Nat)
  /-- The integer `-n`, with `n` from 1 to `2 ^ 63`. -/
  | negative (n : Nat)
  /-- Any other number. -/
  | float (value : Float)

/-- The bound of the integers that are kept exactly. -/
def Number.maxNatural : Nat := 2 ^ 64 - 1

/-- A floating-point number in the shortest form: positional notation from `0.00001` up to sixteen
digits before the point, and an exponent with its sign otherwise. -/
def floatText (x : Float) : Text :=
  let bits := x.toBits
  let sign : Text := if bits.toNat / 2 ^ 63 = 1 then ['-'] else []
  if bits.toNat % 2 ^ 63 = 0 then
    sign ++ ['0', '.', '0']
  else
    let d := Decimal.shortest bits
    let n := d.digits.length
    if -4 ≤ d.point ∧ d.point ≤ 16 then
      if d.point ≤ 0 then
        sign ++ ['0', '.'] ++ List.replicate (-d.point).toNat '0' ++ d.digits
      else if n ≤ d.point.toNat then
        sign ++ d.digits ++ List.replicate (d.point.toNat - n) '0' ++ ['.', '0']
      else
        sign ++ d.digits.take d.point.toNat ++ ['.'] ++ d.digits.drop d.point.toNat
    else
      let exponent := d.point - 1
      sign ++ d.digits.take 1 ++ (if n = 1 then [] else '.' :: d.digits.drop 1) ++
        ['e', if exponent < 0 then '-' else '+'] ++ Text.ofNat exponent.natAbs

/-- A number as it is written. -/
def Number.text : Number → Text
  | natural n => Text.ofNat n
  | negative n => '-' :: Text.ofNat n
  | float x => floatText x

end Json

/-- A JSON value. -/
inductive Json
  | null
  | bool (value : Bool)
  | number (value : Json.Number)
  | string (value : Text)
  | array (items : List Json)
  | object (members : List (Text × Json))

namespace Json

instance : Inhabited Json := ⟨null⟩

/-- What can be said of a value without looking into arrays and objects. -/
inductive Shape
  | null
  | bool (value : Bool)
  | number (value : Number)
  | string (value : Text)
  | array
  | object

/-- The shape of a value. -/
def shape : Json → Shape
  | null => .null
  | bool b => .bool b
  | number n => .number n
  | string t => .string t
  | array _ => .array
  | object _ => .object

/-- A shape as messages name it. -/
def Shape.describe : Shape → Text
  | null => "null".toList
  | bool b => "boolean `".toList ++ (if b then "true".toList else "false".toList) ++ ['`']
  | number (.float x) => "floating point `".toList ++ floatText x ++ ['`']
  | number n => "integer `".toList ++ n.text ++ ['`']
  | string t => "string ".toList ++ t.quote
  | array => "sequence".toList
  | object => "map".toList

/-- The value of a member of an object; of several with one key, the last counts. -/
def get? (value : Json) (key : Text) : Option Json :=
  match value with
  | object members => (members.reverse.find? (·.1 = key)).map (·.2)
  | _ => none

/-- The text of a string value. -/
def string? : Json → Option Text
  | string t => some t
  | _ => none

/-- The items of an array. -/
def array? : Json → Option (List Json)
  | array items => some items
  | _ => none

/-- The members of an object. -/
def object? : Json → Option (List (Text × Json))
  | object members => some members
  | _ => none

/-- The value of a natural number. -/
def natural? : Json → Option Nat
  | number (.natural n) => some n
  | _ => none

end Json

end Fillout
