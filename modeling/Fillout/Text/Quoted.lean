import Fillout.Text.Basic

set_option autoImplicit false

/-! # Quoted text

How a text is shown inside a message: between double quotes, with every character that would not
show as itself written as an escape.
-/

namespace Fillout

namespace Text

open Unicode (isPrintable isDependent)

/-- A code point in hexadecimal, as in `\u{200b}`. -/
def escapeCodePoint (c : Char) : Text :=
  ['\\', 'u', '{'] ++ Nat.toDigits 16 c.toNat ++ ['}']

/-- Whether a character shows as itself: it has a shape, and can be told from the characters beside
it. -/
def showsAsItself (c : Char) : Bool := isPrintable c && !isDependent c

/-- One character between double quotes. -/
def quoteChar : Char → Text
  | '"' => ['\\', '"']
  | '\\' => ['\\', '\\']
  | '\n' => ['\\', 'n']
  | '\r' => ['\\', 'r']
  | '\t' => ['\\', 't']
  | '\x00' => ['\\', '0']
  | c => if showsAsItself c then [c] else escapeCodePoint c

/-- A text between double quotes. -/
def quote (t : Text) : Text := '"' :: (t.flatMap quoteChar ++ ['"'])

example : quote "say \"hi\"\n".toList = "\"say \\\"hi\\\"\\n\"".toList := by decide

example : quote "bell\x07".toList = "\"bell\\u\x7b7\x7d\"".toList := by decide

end Text

end Fillout
