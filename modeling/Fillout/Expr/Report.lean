import Fillout.Expr.Reader

set_option autoImplicit false

/-! # Reports on texts that are no expressions

A report shows the text, or the line of it, with a mark below the place where reading stopped.
Widths are counted in bytes where the text has one line; in a text of several lines the column is
counted in characters as long as the character at the place is an ASCII character, and in bytes
otherwise.
-/

namespace Fillout

namespace Expr

/-- `n` blanks. -/
def blanks (n : Nat) : Text := List.replicate n ' '

/-- The part of a text behind its last line break. -/
def lastLine (t : Text) : Text := (t.reverse.takeWhile (· != '\n')).reverse

/-- The column, from 0 on, of the place between `before` and `after`. At the end of a text it is one
more than that of the last character. -/
def column (before after : Text) : Nat :=
  match after with
  | c :: _ =>
      let line := lastLine before
      if c.utf8Size = 1 then line.length else line.utf8Length
  | [] => if before.isEmpty then 0 else (lastLine before.dropLast).length + 1

/-- The number, from 0 on, of the line that holds the place between `before` and `after`; the end of
a text belongs to the line of the last character. -/
def lineNumber (before after : Text) : Nat :=
  (if after.isEmpty then before.dropLast else before).count '\n'

/-- Where reading stopped, shown in the text. -/
def pointer (before after : Text) : Text :=
  let source := before ++ after
  if source.any (· == '\n') then
    let line := lineNumber before after
    let number := Text.ofNat (line + 1)
    let margin := blanks number.length
    "parse error at line ".toList ++ number ++ ", column ".toList ++
      Text.ofNat (column before after + 1) ++ ['\n'] ++
      margin ++ " |\n".toList ++
      number ++ " | ".toList ++ ((source.splitOnP (· == '\n'))[line]?).getD [] ++ ['\n'] ++
      margin ++ " | ".toList ++ blanks (column before after) ++ "^\n".toList
  else
    source ++ ['\n'] ++ blanks before.utf8Length ++ "^\n".toList

/-- A fault in words. -/
def ParseFault.message : ParseFault → Text
  | tooDeep depth =>
      "nesting depth ".toList ++ Text.ofNat depth ++ " exceeds ".toList ++ Text.ofNat maxNesting
  | noExpression before after => pointer before after ++ "expected expression".toList
  | leftover before after => pointer before after

/-- An error in words. -/
def ParseError.message (e : ParseError) : Text :=
  "parse error in `".toList ++ e.expression ++ "`: ".toList ++ e.fault.message

end Expr

end Fillout
