import Fillout.Regex.Program

set_option autoImplicit false

/-! # Replacements

What takes the place of a match is written as a text with references to groups. There are two
notations. In the plain one, `$1` is a group, `$&` the whole match and `$$` a dollar sign; any other
dollar sign stands for itself. In the braced one, `${1}` and `${name}` are groups, `$name` is a
group whose name is as long as possible, and `$$` is a dollar sign.

`Replacement.braced` turns the first notation into the second, so that the digits of a reference are
never read as part of a longer name, and `Replacement.expand` fills in the groups.
-/

namespace Fillout

namespace Regex

namespace Replacement

/-- A replacement in braced notation, from one in plain notation. -/
def braced : Text → Text
  | [] => []
  | c :: rest =>
      if c != '$' then c :: braced rest
      else
        match rest with
        | '$' :: rest => '$' :: '$' :: braced rest
        | '&' :: rest => '$' :: '{' :: '0' :: '}' :: braced rest
        | rest =>
            if (rest.takeWhile Char.isDigit).isEmpty then '$' :: '$' :: braced rest
            else
              '$' :: '{' :: (rest.takeWhile Char.isDigit ++
                '}' :: braced (rest.dropWhile Char.isDigit))
termination_by t => t.length
decreasing_by
  all_goals simp only [List.length_cons]
  all_goals try omega
  have := (List.dropWhile_suffix Char.isDigit (l := rest)).length_le
  omega

/-- A reference to a group, by number or by name. -/
inductive Reference
  | number (n : Nat)
  | name (t : Text)
  deriving DecidableEq

/-- What a text between braces refers to: a group number if it is one that fits into 64 bits, a name
otherwise. -/
def Reference.ofText (t : Text) : Reference :=
  let digits : Text := match t with
    | '+' :: rest => rest
    | _ => t
  match digits.toNat? with
  | some n => if n < 2 ^ 64 then .number n else .name t
  | none => .name t

/-- A piece of a replacement in braced notation. -/
inductive Part
  | text (c : Char)
  | group (r : Reference)
  deriving DecidableEq

/-- The characters of a group name without braces. -/
def isNameChar (c : Char) : Bool := c.isAlphanum || c == '_'

/-- The reference that follows a dollar sign, with the text behind it. -/
def reference? (t : Text) : Option (Reference × Text) :=
  match t with
  | '{' :: rest =>
      match Text.cut? ['}'] rest with
      | some (name, after) => some (.ofText name, after)
      | none => none
  | _ =>
      let name := t.takeWhile isNameChar
      if name.isEmpty then none else some (.ofText name, t.dropWhile isNameChar)

/-- The parts of a replacement in braced notation. `fuel` bounds their number. -/
def parts : (fuel : Nat) → Text → List Part
  | 0, _ => []
  | _, [] => []
  | fuel + 1, c :: rest =>
      if c != '$' then .text c :: parts fuel rest
      else
        match rest with
        | '$' :: rest => .text '$' :: parts fuel rest
        | rest =>
            match reference? rest with
            | some (r, after) => .group r :: parts fuel after
            | none => .text '$' :: parts fuel rest

/-- The text of a replacement in braced notation, where `group` gives the text of a group; a group
that does not exist or took no part is empty. -/
def expand (group : Reference → Text) (replacement : Text) : Text :=
  (parts replacement.length replacement).flatMap fun
    | .text c => [c]
    | .group r => group r

end Replacement

/-- The text of a group of a match. -/
def groupText (p : Program) (whole : Text) (slots : Slots) (r : Replacement.Reference) : Text :=
  let index := match r with
    | .number n => some n
    | .name t => p.names.lookup t
  match index.bind (groupSpan? slots) with
  | some (start, stop) => (whole.drop start).take (stop - start)
  | none => []

/-- Replaces the given matches; `position` is the place in the whole text where `rest` starts. -/
def replaceMatches (p : Program) (replacement whole : Text) (position : Nat) (rest : Text) :
    List Slots → Text
  | [] => rest
  | slots :: more =>
      match groupSpan? slots 0 with
      | none => rest
      | some (start, stop) =>
          rest.take (start - position) ++
            Replacement.expand (groupText p whole slots) replacement ++
            replaceMatches p replacement whole stop (rest.drop (stop - position)) more

/-- A text with all matches replaced, the replacement in plain notation. -/
def Program.replaceAll (p : Program) (text replacement : Text) : Text :=
  replaceMatches p (Replacement.braced replacement) text 0 text (p.allMatches text)

end Regex

end Fillout
