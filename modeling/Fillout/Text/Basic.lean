import Fillout.Unicode.Property

set_option autoImplicit false

/-! # Text

Text is a list of characters, so that every function on it is a recursion on a list. Positions that
are reported outside are counted in UTF-8 bytes (`utf8Length` of what stands before them).

The two basic operations are `cut?` and `cutLast?`: they find the first and the last place of a
needle in a text and return what stands before and behind it.
-/

namespace Fillout

/-- A text: its characters in order. -/
abbrev Text := List Char

instance : LawfulBEq Text := inferInstanceAs (LawfulBEq (List Char))

/-- Powers of natural numbers are those of the core library, whatever else is imported. -/
@[default_instance 20000]
instance (priority := high) powNat : Pow Nat Nat := instPowNat

namespace Text

open Unicode (isWhitespace)

/-- The number of bytes of a text in UTF-8. -/
def utf8Length : Text → Nat
  | [] => 0
  | c :: t => c.utf8Size + utf8Length t

@[simp] theorem utf8Length_nil : utf8Length [] = 0 := rfl

@[simp] theorem utf8Length_cons (c : Char) (t : Text) :
    utf8Length (c :: t) = c.utf8Size + utf8Length t := rfl

@[simp] theorem utf8Length_append (s t : Text) :
    utf8Length (s ++ t) = utf8Length s + utf8Length t := by
  induction s with
  | nil => simp
  | cons c s ih => rw [List.cons_append, utf8Length_cons, utf8Length_cons, ih, Nat.add_assoc]

/-! ## White space -/

/-- `t` without the white space at its start. -/
def trimStart (t : Text) : Text := t.dropWhile isWhitespace

/-- `t` without the white space at its end. -/
def trimEnd (t : Text) : Text := (t.reverse.dropWhile isWhitespace).reverse

/-- `t` without the white space at both ends. -/
def trim (t : Text) : Text := trimEnd (trimStart t)

@[simp] theorem trim_nil : trim [] = [] := rfl

/-! ## Finding a text in another -/

/-- What stands before and behind the first place of `needle` in a text. -/
def cut? (needle : Text) : Text → Option (Text × Text)
  | [] => if needle.isEmpty then some ([], []) else none
  | c :: rest =>
      if needle.isPrefixOf (c :: rest) then
        some ([], (c :: rest).drop needle.length)
      else
        (cut? needle rest).map fun (before, after) => (c :: before, after)

/-- What stands before and behind the last place of `needle` in a text. -/
def cutLast? (needle : Text) : Text → Option (Text × Text)
  | [] => if needle.isEmpty then some ([], []) else none
  | c :: rest =>
      match cutLast? needle rest with
      | some (before, after) => some (c :: before, after)
      | none =>
          if needle.isPrefixOf (c :: rest) then
            some ([], (c :: rest).drop needle.length)
          else
            none

/-- Whether `needle` stands somewhere in `t`. -/
def contains (t needle : Text) : Bool := (cut? needle t).isSome

/-- A needle at the start of a text is followed by what is left when its length is dropped. -/
theorem append_drop_of_isPrefixOf {needle t : Text} (h : needle.isPrefixOf t = true) :
    needle ++ t.drop needle.length = t := by
  obtain ⟨u, rfl⟩ := List.isPrefixOf_iff_prefix.1 h
  simp

/-- A cut loses nothing. -/
theorem append_of_cut? {needle t before after : Text} (h : cut? needle t = some (before, after)) :
    before ++ needle ++ after = t := by
  induction t generalizing before with
  | nil => cases needle <;> simp_all [cut?]
  | cons c rest ih =>
    rw [cut?] at h
    split at h
    · rename_i hp
      cases h
      simpa using append_drop_of_isPrefixOf hp
    · obtain ⟨⟨b, a⟩, hcut, heq⟩ := Option.map_eq_some_iff.1 h
      cases heq
      simpa using ih hcut

/-- A cut at the last place loses nothing either. -/
theorem append_of_cutLast? {needle t before after : Text}
    (h : cutLast? needle t = some (before, after)) : before ++ needle ++ after = t := by
  induction t generalizing before with
  | nil => cases needle <;> simp_all [cutLast?]
  | cons c rest ih =>
    rw [cutLast?] at h
    split at h
    · rename_i hcut
      cases h
      simpa using ih hcut
    · split at h
      · rename_i hp
        cases h
        simpa using append_drop_of_isPrefixOf hp
      · cases h

/-! ## Composing and converting -/

/-- The texts one behind the other, with `separator` between two of them. -/
def join (separator : Text) (parts : List Text) : Text := separator.intercalate parts

/-- The character of a decimal digit. -/
def digitChar (d : Nat) : Char := Char.ofNat (48 + d)

/-- A number in decimal digits, without leading zeros. -/
def ofNat (n : Nat) : Text :=
  if n < 10 then [digitChar n] else ofNat (n / 10) ++ [digitChar (n % 10)]
termination_by n
decreasing_by omega

/-- A digit in front of a number that is being read. -/
def digitValue? (c : Char) : Option Nat := if c.isDigit then some (c.toNat - 48) else none

/-- The number that `n`, followed by the digits of a text, writes. -/
def appendDigits? (n : Nat) : Text → Option Nat
  | [] => some n
  | c :: rest => (digitValue? c).bind fun d => appendDigits? (n * 10 + d) rest

/-- The number that a text of ASCII digits writes; `none` for any other text, the empty one
included. -/
def toNat? (t : Text) : Option Nat :=
  if t.isEmpty then none else appendDigits? 0 t

theorem appendDigits?_append (n : Nat) (s t : Text) :
    appendDigits? n (s ++ t) = (appendDigits? n s).bind fun m => appendDigits? m t := by
  induction s generalizing n with
  | nil => rfl
  | cons c s ih =>
    simp only [List.cons_append, appendDigits?]
    cases digitValue? c <;> simp [ih]

theorem digitValue?_digitChar {d : Nat} (h : d < 10) : digitValue? (digitChar d) = some d := by
  revert d
  decide

/-- A number in decimal digits reads back. -/
theorem toNat?_ofNat (n : Nat) : toNat? (ofNat n) = some n := by
  have key : ∀ n, ofNat n ≠ [] ∧ appendDigits? 0 (ofNat n) = some n := by
    intro n
    induction n using Nat.strongRecOn with
    | ind n ih =>
      rw [ofNat]
      split
      · rename_i h
        simp [appendDigits?, digitValue?_digitChar h]
      · have ⟨_, hr⟩ := ih (n / 10) (by omega)
        have hd := digitValue?_digitChar (Nat.mod_lt n (show 0 < 10 by decide))
        simp only [ne_eq, List.append_eq_nil_iff, List.cons_ne_self, and_false, not_false_eq_true,
          appendDigits?_append, hr, Option.bind_some, appendDigits?, hd, true_and,
          Option.some.injEq]
        omega
  have ⟨hne, h⟩ := key n
  simp [toNat?, hne, h]

/-- The lower-case form of a letter. Beyond the Latin-1 letters a character is left as it is: none
of them has a lower-case form that occurs in a name this library looks up. -/
def lowerChar (c : Char) : Char :=
  let n := c.toNat
  if (0x41 ≤ n && n ≤ 0x5A) || (0xC0 ≤ n && n ≤ 0xDE && n != 0xD7) then Char.ofNat (n + 32) else c

/-- `t` in lower case. -/
def lower (t : Text) : Text := t.map lowerChar

example : trim " a b\t".toList = "a b".toList := by decide

example : cut? "$\x7b".toList "x$\x7by".toList = some (['x'], ['y']) := by decide

example : lower "ÄHNLICH".toList = "ähnlich".toList := by decide

end Text

end Fillout
