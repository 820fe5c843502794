import Fillout.Json.Basic

set_option autoImplicit false

/-! # Reading JSON

The readers take a text and return what they have read with the rest of the text. They follow the
grammar of the format to the letter: no trailing commas, no leading zeros, no raw control characters
in strings, and no lone surrogates.

A reader fails with `ended` if the text stops too early and with `malformed` if it cannot be
continued to a JSON text. Readers that give meaning to what they read have failures of their own,
`data`.

Besides the reader of values there is one that skips a value. It is laxer: the value of a number and
the code points of a string do not matter to it.
-/

namespace Fillout

namespace Json

/-- Why a text could not be read. -/
inductive ReadError (δ : Type)
  | ended
  | malformed
  | data (cause : δ)
  deriving DecidableEq

/-- A reader of `α`, with failures of its own in `δ`. -/
abbrev Reader (δ α : Type) := Text → Except (ReadError δ) (α × Text)

variable {δ α : Type}

/-- The four characters that may stand between tokens. -/
def isBlank (c : Char) : Bool := c == ' ' || c == '\n' || c == '\t' || c == '\r'

/-- The text from the next token on. -/
def skipBlanks (t : Text) : Text := t.dropWhile isBlank

/-- Reads the given characters. -/
def expectChars : Text → Reader δ Unit
  | [], t => .ok ((), t)
  | _ :: _, [] => .error .ended
  | c :: expected, d :: rest => if c = d then expectChars expected rest else .error .malformed

/-- Reads one punctuation mark behind blanks. -/
def expectMark (mark : Char) : Reader δ Unit := fun t =>
  match skipBlanks t with
  | [] => .error .ended
  | c :: rest => if c = mark then .ok ((), rest) else .error .malformed

/-! ## Strings -/

/-- The value of a hexadecimal digit. -/
def hexValue? (c : Char) : Option Nat :=
  let n := c.toNat
  if 48 ≤ n ∧ n ≤ 57 then some (n - 48)
  else if 97 ≤ n ∧ n ≤ 102 then some (n - 87)
  else if 65 ≤ n ∧ n ≤ 70 then some (n - 55)
  else none

/-- Reads the four hexadecimal digits of an escape. -/
def readHex4 : Reader δ Nat
  | a :: b :: c :: d :: rest =>
      match hexValue? a, hexValue? b, hexValue? c, hexValue? d with
      | some a, some b, some c, some d => .ok (((a * 16 + b) * 16 + c) * 16 + d, rest)
      | _, _, _, _ => .error .malformed
  | t => if t.utf8Length < 4 then .error .ended else .error .malformed

/-- The character that a one-letter escape stands for. -/
def simpleEscape? (c : Char) : Option Char :=
  if c = '"' then some '"'
  else if c = '\\' then some '\\'
  else if c = '/' then some '/'
  else if c = 'b' then some '\x08'
  else if c = 'f' then some '\x0c'
  else if c = 'n' then some '\n'
  else if c = 'r' then some '\r'
  else if c = 't' then some '\t'
  else none

/-- Reads the second half of a character that is written as two escapes. -/
def readLowSurrogate (high : Nat) (t : Text) : Except (ReadError δ) (Char × Text) := do
  let (_, t) ← expectChars ['\\', 'u'] t
  let (low, t) ← readHex4 t
  if 0xDC00 ≤ low ∧ low ≤ 0xDFFF then
    .ok (Char.ofNat ((high - 0xD800) * 0x400 + (low - 0xDC00) + 0x10000), t)
  else .error .malformed

/-- Reads what follows a backslash. -/
def readEscape : Reader δ Char
  | [] => .error .ended
  | c :: rest =>
      if c = 'u' then
        match readHex4 rest with
        | .error e => .error e
        | .ok (n, rest) =>
            if 0xDC00 ≤ n ∧ n ≤ 0xDFFF then .error .malformed
            else if 0xD800 ≤ n ∧ n ≤ 0xDBFF then readLowSurrogate n rest
            else .ok (Char.ofNat n, rest)
      else
        match simpleEscape? c with
        | some d => .ok (d, rest)
        | none => .error .malformed

theorem expectChars_length {expected t rest : Text}
    (h : expectChars expected t = (.ok ((), rest) : Except (ReadError δ) _)) :
    rest.length ≤ t.length := by
  induction expected generalizing t with
  | nil => cases h; exact Nat.le_refl _
  | cons c expected ih =>
    cases t with
    | nil => cases h
    | cons d t =>
      rw [expectChars] at h
      split at h
      · exact Nat.le_succ_of_le (ih h)
      · cases h

theorem readHex4_length {t rest : Text} {n : Nat}
    (h : readHex4 t = (.ok (n, rest) : Except (ReadError δ) _)) : rest.length < t.length := by
  unfold readHex4 at h
  split at h
  · split at h
    · cases h
      simp only [List.length_cons]
      omega
    · cases h
  · split at h <;> cases h

theorem readLowSurrogate_length {high : Nat} {t rest : Text} {c : Char}
    (h : readLowSurrogate high t = (.ok (c, rest) : Except (ReadError δ) _)) :
    rest.length < t.length := by
  unfold readLowSurrogate at h
  cases marks : expectChars (δ := δ) ['\\', 'u'] t with
  | error e => rw [marks] at h; cases h
  | ok r =>
    obtain ⟨⟨⟩, t₁⟩ := r
    rw [marks] at h
    have h₁ := expectChars_length marks
    cases hex : readHex4 (δ := δ) t₁ with
    | error e => simp only [bind, Except.bind, hex] at h; cases h
    | ok r =>
      obtain ⟨low, t₂⟩ := r
      simp only [bind, Except.bind, hex] at h
      have h₂ := readHex4_length hex
      split at h
      · simp only [Except.ok.injEq, Prod.mk.injEq] at h
        obtain ⟨_, rfl⟩ := h
        omega
      · cases h

theorem readEscape_length {t rest : Text} {c : Char}
    (h : readEscape t = (.ok (c, rest) : Except (ReadError δ) _)) : rest.length < t.length := by
  unfold readEscape at h
  split at h
  · cases h
  · split at h
    · split at h
      · cases h
      · rename_i hex
        have hl := readHex4_length hex
        split at h
        · cases h
        · split at h
          · have := readLowSurrogate_length h
            simp only [List.length_cons]
            omega
          · cases h
            simp only [List.length_cons]
            omega
    · split at h
      · cases h
        simp
      · cases h

/-- Reads a string behind its opening quotation mark. -/
def readString (t : Text) : Except (ReadError δ) (Text × Text) :=
  match t with
  | [] => .error .ended
  | c :: rest =>
      if c = '"' then .ok ([], rest)
      else if c = '\\' then
        match _h : readEscape (δ := δ) rest with
        | .error e => .error e
        | .ok (d, rest) => (readString rest).map fun (s, rest) => (d :: s, rest)
      else if c.toNat < 0x20 then .error .malformed
      else (readString rest).map fun (s, rest) => (c :: s, rest)
termination_by t.length
decreasing_by
  · have := readEscape_length _h
    simp only [List.length_cons]
    omega
  · simp

/-! ## Numbers -/

/-- Appends digits to a number as long as the result stays within 64 bits, and returns the digits
that are left. -/
def accumulate (n : Nat) : Text → Nat × Text
  | [] => (n, [])
  | c :: rest =>
      let next := n * 10 + (c.toNat - 48)
      if next ≤ Number.maxNatural then accumulate next rest else (n, c :: rest)

/-- `x` scaled by a power of ten, one factor at a time; `none` beyond the largest float. -/
def scale? (x : Float) : (fuel : Nat) → (exponent : Int) → Option Float
  | 0, _ => some x
  | fuel + 1, exponent =>
      if exponent.natAbs ≤ 308 then
        let power := Float.ofScientific 1 false exponent.natAbs
        if exponent < 0 then some (x / power)
        else
          let scaled := x * power
          if scaled.isInf then none else some scaled
      else if x == 0.0 then some x
      else if 0 ≤ exponent then none
      else scale? (x / 1e308) fuel (exponent + 308)

/-- The number with the given sign, digits and exponent: the digits that do not fit into 64 bits
only count for the size of the number. `none` if it is too large for a float. -/
def numberOf? (isNegative : Bool) (whole fraction : Text) (exponent : Option (Bool × Text)) :
    Option Number :=
  let (n, left) := accumulate 0 whole
  if left.isEmpty && fraction.isEmpty && exponent.isNone then
    -- An integer that 64 bits can hold, else the float next to it; so is `-0`.
    if !isNegative then some (.natural n)
    else if 1 ≤ n ∧ n ≤ 2 ^ 63 then some (.negative n)
    else some (.float (-n.toUInt64.toFloat))
  else
    let (m, ignored) := accumulate n fraction
    let start : Int := left.length - (fraction.length - ignored.length : Nat)
    let signed (x : Float) : Number := .float (if isNegative then -x else x)
    match exponent with
    | none => (scale? m.toUInt64.toFloat 8 start).map signed
    | some (isDown, digits) =>
        let shift := (Text.appendDigits? 0 digits).getD 0
        if 2 ^ 31 ≤ shift then
          -- An exponent as large as this leaves no digit of the number.
          if m = 0 ∨ isDown then some (signed 0.0) else none
        else
          (scale? m.toUInt64.toFloat 8 (if isDown then start - shift else start + shift)).map signed

/-- Reads the digits behind the sign of a number: one zero, or digits without a leading zero. -/
def readWhole : Reader δ Text
  | [] => .error .ended
  | c :: rest =>
      if c = '0' then
        match rest with
        | d :: _ => if d.isDigit then .error .malformed else .ok ([c], rest)
        | [] => .ok ([c], rest)
      else if c.isDigit then .ok (c :: rest.takeWhile Char.isDigit, rest.dropWhile Char.isDigit)
      else .error .malformed

/-- Reads at least one digit. -/
def readDigits : Reader δ Text
  | [] => .error .ended
  | c :: rest =>
      if c.isDigit then .ok (c :: rest.takeWhile Char.isDigit, rest.dropWhile Char.isDigit)
      else .error .malformed

/-- Reads a fraction, if there is one. -/
def readFraction : Reader δ Text
  | '.' :: rest => readDigits rest
  | t => .ok ([], t)

/-- Reads an exponent, if there is one: whether it is negative, and its digits. -/
def readExponent : Reader δ (Option (Bool × Text))
  | c :: rest =>
      if c = 'e' ∨ c = 'E' then
        let (isDown, rest) : Bool × Text :=
          match rest with
          | '+' :: more => (false, more)
          | '-' :: more => (true, more)
          | _ => (false, rest)
        (readDigits rest).map fun (digits, rest) => (some (isDown, digits), rest)
      else .ok (none, c :: rest)
  | [] => .ok (none, [])

/-- Reads a number. -/
def readNumber (t : Text) : Except (ReadError δ) (Number × Text) := do
  let (isNegative, t) : Bool × Text :=
    match t with
    | '-' :: rest => (true, rest)
    | _ => (false, t)
  let (whole, t) ← readWhole t
  let (fraction, t) ← readFraction t
  let (exponent, t) ← readExponent t
  match numberOf? isNegative whole fraction exponent with
  | some n => .ok (n, t)
  | none => .error .malformed

/-! ## Values -/

/-- Reads the next token, if it is a value or the start of one. -/
def readShape (t : Text) : Except (ReadError δ) (Shape × Text) :=
  match skipBlanks t with
  | [] => .error .ended
  | c :: rest =>
      if c = 'n' then (expectChars "ull".toList rest).map fun (_, t) => (.null, t)
      else if c = 't' then (expectChars "rue".toList rest).map fun (_, t) => (.bool true, t)
      else if c = 'f' then (expectChars "alse".toList rest).map fun (_, t) => (.bool false, t)
      else if c = '"' then (readString rest).map fun (s, t) => (.string s, t)
      else if c = '[' then .ok (.array, rest)
      else if c = '{' then .ok (.object, rest)
      else if c = '-' ∨ c.isDigit then
        (readNumber (c :: rest)).map fun (n, t) => (.number n, t)
      else .error .malformed

/-- Reads the items of a list behind its opening bracket up to `close`. `fuel` bounds their
number. -/
def readItems (close : Char) (item : Reader δ α) : (fuel : Nat) → Reader δ (List α)
  | 0, _ => .error .malformed
  | fuel + 1, t => do
      let (x, t) ← item t
      match skipBlanks t with
      | [] => .error .ended
      | c :: rest =>
          if c = ',' then
            let (xs, t) ← readItems close item fuel rest
            .ok (x :: xs, t)
          else if c = close then .ok ([x], rest)
          else .error .malformed

/-- Reads a list of items behind its opening bracket. -/
def readList (close : Char) (item : Reader δ α) (t : Text) : Except (ReadError δ) (List α × Text) :=
  match skipBlanks t with
  | [] => .error .ended
  | c :: rest =>
      if c = close then .ok ([], rest) else readItems close item (t.length + 1) (c :: rest)

/-- Reads the key of a member with the colon behind it. -/
def readKey (t : Text) : Except (ReadError δ) (Text × Text) :=
  match skipBlanks t with
  | [] => .error .ended
  | c :: rest =>
      if c = '"' then do
        let (key, t) ← readString rest
        let (_, t) ← expectMark ':' t
        .ok (key, t)
      else .error .malformed

/-- Reads a value in which fewer than `depth` arrays and objects stand inside one another. -/
def readValue : (depth : Nat) → Reader δ Json
  | 0, _ => .error .malformed
  | depth + 1, t => do
      let (shape, t) ← readShape t
      match shape with
      | .null => .ok (.null, t)
      | .bool b => .ok (.bool b, t)
      | .number n => .ok (.number n, t)
      | .string s => .ok (.string s, t)
      | .array =>
          if depth = 0 then .error .malformed
          else (readList ']' (readValue depth) t).map fun (items, t) => (.array items, t)
      | .object =>
          if depth = 0 then .error .malformed
          else
            let member : Reader δ (Text × Json) := fun t => do
              let (key, t) ← readKey t
              let (value, t) ← readValue depth t
              .ok ((key, value), t)
            (readList '}' member t).map fun (members, t) => (.object members, t)

/-- The greatest number of arrays and objects that may stand inside one another, plus one. -/
def nestingLimit : Nat := 128

/-- The value that a text holds, with nothing but blanks around it. -/
def ofText? (t : Text) : Option Json :=
  match readValue (δ := Empty) nestingLimit t with
  | .ok (value, rest) => if (skipBlanks rest).isEmpty then some value else none
  | .error _ => none

/-! ## Skipping -/

/-- Skips a string behind its opening quotation mark. -/
def skipString (t : Text) : Except (ReadError δ) Text :=
  match t with
  | [] => .error .ended
  | c :: rest =>
      if c = '"' then .ok rest
      else if c = '\\' then
        match rest with
        | [] => .error .ended
        | e :: rest =>
            if e = 'u' then
              match _h : readHex4 (δ := δ) rest with
              | .error e => .error e
              | .ok (_, rest) => skipString rest
            else if (simpleEscape? e).isSome then skipString rest
            else .error .malformed
      else if c.toNat < 0x20 then .error .malformed
      else skipString rest
termination_by t.length
decreasing_by
  · have := readHex4_length _h
    simp only [List.length_cons]
    omega
  · simp only [List.length_cons]
    omega
  · simp

/-- Skips at least one digit. -/
def skipDigits : Text → Except (ReadError δ) Text
  | c :: rest => if c.isDigit then .ok (rest.dropWhile Char.isDigit) else .error .malformed
  | [] => .error .malformed

/-- Skips a number behind its sign. -/
def skipNumber (t : Text) : Except (ReadError δ) Text := do
  let t ← match t with
    | '0' :: d :: rest => if d.isDigit then .error .malformed else .ok (d :: rest)
    | _ => skipDigits t
  let t ← match t with
    | '.' :: rest => skipDigits rest
    | _ => .ok t
  match t with
  | c :: rest =>
      if c = 'e' ∨ c = 'E' then
        match rest with
        | d :: more => if d = '+' ∨ d = '-' then skipDigits more else skipDigits rest
        | [] => skipDigits rest
      else .ok t
  | [] => .ok t

/-- Skips a key with the colon behind it. -/
def skipKey (t : Text) : Except (ReadError δ) Text :=
  match skipBlanks t with
  | [] => .error .ended
  | c :: rest =>
      if c = '"' then do
        let t ← skipString rest
        let (_, t) ← expectMark ':' t
        .ok t
      else .error .malformed

/-- Skips a value of one token, or the opening mark of an array or object; in the second case the
mark that closes it is returned. -/
def skipStart (t : Text) : Except (ReadError δ) (Option Char × Text) :=
  match skipBlanks t with
  | [] => .error .ended
  | c :: rest =>
      if c = '[' then .ok (some ']', rest)
      else if c = '{' then .ok (some '}', rest)
      else if c = '-' then (skipNumber rest).map (none, ·)
      else if c.isDigit then (skipNumber (c :: rest)).map (none, ·)
      else if c = '"' then (skipString rest).map (none, ·)
      else if c = 'n' then (expectChars "ull".toList rest).map fun (_, t) => (none, t)
      else if c = 't' then (expectChars "rue".toList rest).map fun (_, t) => (none, t)
      else if c = 'f' then (expectChars "alse".toList rest).map fun (_, t) => (none, t)
      else .error .malformed

/-- Skips to the end of the outermost of the arrays and objects that are open. They are kept as
their closing marks, the innermost first; `atStart` says that nothing of the innermost has been read
yet. `fuel` bounds the number of steps. -/
def skipOpen : (fuel : Nat) → (atStart : Bool) → List Char → Text → Except (ReadError δ) Text
  | _, _, [], t => .ok t
  | 0, _, _ :: _, _ => .error .malformed
  | fuel + 1, atStart, close :: outer, t =>
      match skipBlanks t with
      | [] => .error .ended
      | c :: rest =>
          if c = close then skipOpen fuel false outer rest
          else if atStart ∨ c = ',' then do
            let t := if atStart then c :: rest else rest
            let t ← if close = '}' then skipKey t else .ok t
            match ← skipStart t with
            | (none, t) => skipOpen fuel false (close :: outer) t
            | (some inner, t) => skipOpen fuel true (inner :: close :: outer) t
          else .error .malformed

/-- Skips a value, however deep it is. -/
def skipValue (t : Text) : Except (ReadError δ) Text := do
  match ← skipStart t with
  | (none, t) => .ok t
  | (some close, t) => skipOpen (t.length + 1) true [close] t

end Json

end Fillout
