import Fillout.Regex.Automaton
import Fillout.Regex.Pattern

set_option autoImplicit false

/-! # The size of an expression

Two automata are made for an expression: one reads a text forwards and notes where groups start and
end, the other reads it backwards and does not. An expression `fits` if both are within the limit.
-/

namespace Fillout

namespace Regex

namespace Pattern

open Automaton

/-- The texts of the branches of an alternative, as bytes, if all are literals. -/
def words? (p : Pattern) : Option (List (List UInt8)) :=
  p.branches.mapM fun
    | .literal t => some (t.flatMap fun c => String.utf8EncodeChar c)
    | _ => none

/-- The states of a pattern in its role. -/
def extent (backward : Bool) : Pattern → Role → Extent → Option Built
  | .empty, role, e => do role.join (← plain (e.add 1 0))
  | .literal t, role, e => do role.join (← plain (e.add (Text.utf8Length t) 0))
  | .set s, role, e => do role.join (← plain (setExtent backward s e))
  | .look _ _, role, e => do role.join (← plain (e.add 1 0))
  | .group _ sub, role, e => do
      if backward then role.join (← extent backward sub .alone e)
      else
        let b ← extent backward sub .alone (← e.add 1 0)
        role.join (← plain (b.link (← b.extent.add 1 0)))
  | .seq a b, role, e => do
      let x ← if backward then extent backward b .alone e else extent backward a .alone e
      let y ←
        if backward then extent backward a .alone x.extent
        else extent backward b .alone x.extent
      role.join ⟨← x.link y.extent, y.branches⟩
  | .alt a b, .alone, e =>
      match (Pattern.alt a b).words? with
      | some words => wordsExtent backward words e
      | none => do
          let first ← extent backward a .alone e
          extent backward b (.second first) first.extent
  | .alt a b, role, e => do
      let joined ← role.join (← extent backward a .alone e)
      extent backward b .later joined.extent
  | .repeated sub least most _, role, e => do
      let consumes := sub.minLength.any (0 < ·)
      role.join (← repeatedExtent (extent backward sub .alone) consumes least most e)

/-- Whether every match starts at the start of the text, by a condition in front. -/
def startsText : Pattern → Bool
  | .look .textStart _ => true
  | .seq a b => a.startsText || (a.isAlwaysEmpty && b.startsText)
  | .alt a b => a.startsText && b.startsText
  | .repeated sub least _ _ => least != 0 && sub.startsText
  | .group _ sub => sub.startsText
  | _ => false

/-- Whether every match ends at the end of the text, by a condition at its end. -/
def endsText : Pattern → Bool
  | .look .textEnd _ => true
  | .seq a b => b.endsText || (b.isAlwaysEmpty && a.endsText)
  | .alt a b => a.endsText && b.endsText
  | .repeated sub least _ _ => least != 0 && sub.endsText
  | .group _ sub => sub.endsText
  | _ => false

/-- The states of an automaton for an expression. In front is one that skips bytes until a match
starts, or nothing if matches start at one end of the text; the last state accepts. -/
def automatonExtent (backward : Bool) (p : Pattern) : Option Extent := do
  let anchored := if backward then p.endsText else p.startsText
  let front ← if anchored then Extent.add ⟨0, 0⟩ 1 0 else Extent.add ⟨0, 0⟩ 3 16
  let b ← extent backward (.group 0 p) .alone front
  b.link (← b.extent.add 1 0)

/-- Whether both automata for an expression are within the limit. -/
def fits (p : Pattern) : Bool :=
  (automatonExtent false p).isSome && (automatonExtent true p).isSome

end Pattern

end Regex

end Fillout
