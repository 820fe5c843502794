import Fillout.Text.Basic

set_option autoImplicit false

/-! # The shortest decimal that reads back

A binary floating-point number is written with the fewest decimal digits that still lie nearer to it
than to its neighbours. The search runs over decimal grids of growing fineness, in exact arithmetic:
the first grid with a point in the interval of numbers that round to the given one has the answer,
and of two such points the nearer is taken.
-/

namespace Fillout

namespace Decimal

/-- A positive number and the interval of reals that round to it, as fractions over one
denominator; `closed` says whether the ends belong to it. -/
structure Target where
  value : Nat
  low : Nat
  high : Nat
  denominator : Nat
  closed : Bool

namespace Target

/-- The number `mantissa · 2 ^ (exponent - 1077)`. Below it the gap to the next number is only half
as wide as above if `mantissa` is the least one of its binade, which `narrow` says. The offset keeps
the exponent a natural number. -/
def ofBinary (mantissa exponent : Nat) (narrow : Bool) : Target :=
  let scale := 2 ^ exponent
  { value := 4 * mantissa * scale
    low := (4 * mantissa - if narrow then 1 else 2) * scale
    high := (4 * mantissa + 2) * scale
    denominator := 2 ^ 1079
    closed := mantissa % 2 == 0 }

/-- Whether `n` units of the grid `10 ^ (up - down)` lie in the interval. -/
def accepts (t : Target) (n up down : Nat) : Bool :=
  let point := n * 10 ^ up * t.denominator
  let low := t.low * 10 ^ down
  let high := t.high * 10 ^ down
  if t.closed then low ≤ point && point ≤ high else low < point && point < high

/-- The point of the grid `10 ^ (up - down)` that is taken, if one lies in the interval. -/
def onGrid? (t : Target) (up down : Nat) : Option Nat :=
  let unit := 10 ^ up * t.denominator
  let value := t.value * 10 ^ down
  let below := value / unit
  let twice := 2 * (value % unit)
  match t.accepts below up down, t.accepts (below + 1) up down with
  | true, true =>
      if twice < unit then some below
      else if unit < twice then some (below + 1)
      else some (if below % 2 = 0 then below else below + 1)
  | true, false => some below
  | false, true => some (below + 1)
  | false, false => none

/-- The first hit among `fuel` grids, each ten times as fine as the one before, with the exponent of
its unit. -/
def search (t : Target) : (fuel : Nat) → (exponent : Int) → Option (Nat × Int)
  | 0, _ => none
  | fuel + 1, exponent =>
      match t.onGrid? exponent.toNat (-exponent).toNat with
      | some n => some (n, exponent)
      | none => t.search fuel (exponent - 1)

end Target

/-- A decimal `0.d₁d₂… · 10 ^ point`, with neither leading nor trailing zeros. -/
structure Digits where
  digits : Text
  point : Int

/-- The decimal `n · 10 ^ exponent`. -/
def Digits.ofScaled (n : Nat) (exponent : Int) : Digits :=
  let all := Text.ofNat n
  { digits := (all.reverse.dropWhile (· == '0')).reverse
    point := exponent + all.length }

/-- The shortest decimal of a positive floating-point number, given by its bits. -/
def shortest (bits : UInt64) : Digits :=
  let fraction := bits.toNat % 2 ^ 52
  let biased := bits.toNat / 2 ^ 52 % 2 ^ 11
  let mantissa := if biased = 0 then fraction else 2 ^ 52 + fraction
  let target := Target.ofBinary mantissa (biased - 1 + 3) (fraction == 0 && biased > 1)
  match target.search 700 309 with
  | some (n, exponent) => .ofScaled n exponent
  | none => ⟨[], 0⟩

end Decimal

end Fillout
