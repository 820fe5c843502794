import Fillout.Regex.Program
import Fillout.Regex.Property
import Fillout.Regex.Size

set_option autoImplicit false

/-! # The syntax of regular expressions

A text is read as a regular expression and compiled, or refused. There is no look-around and there
are no back-references. The syntax is that of Perl with these points of its own:

* escapes of letters that have no meaning are refused, escapes of punctuation stand for the sign;
* a character class may contain classes, and the operators `&&`, `--` and `~~` between sets;
* flags are `i`, `m`, `s`, `U`, `x`, `u` and `R`; a directive such as `(?i)` lasts to the end of the
  group it stands in;
* without the flag `u` only ASCII characters can be matched by a class.
-/

namespace Fillout

namespace Regex

open Unicode (isWhitespace)

/-! ## Flags -/

/-- The settings under which a part of an expression is read. -/
structure Flags where
  insensitive : Bool := false
  multiLine : Bool := false
  dotAll : Bool := false
  swapGreed : Bool := false
  unicode : Bool := true
  verbose : Bool := false
  crlf : Bool := false

/-- Sets the flag that a letter stands for. -/
def Flags.set? (f : Flags) (letter : Char) (value : Bool) : Option Flags :=
  match letter with
  | 'i' => some { f with insensitive := value }
  | 'm' => some { f with multiLine := value }
  | 's' => some { f with dotAll := value }
  | 'U' => some { f with swapGreed := value }
  | 'u' => some { f with unicode := value }
  | 'x' => some { f with verbose := value }
  | 'R' => some { f with crlf := value }
  | _ => none

/-- Reads flags up to the mark that ends them, which is left. `seen` are the letters so far,
`negated` says whether a hyphen has been read, and `dangling` whether it was the last thing read. -/
def readFlags (f : Flags) (seen : List Char) (negated dangling : Bool) :
    Text → Option (Flags × Text)
  | [] => none
  | c :: rest =>
      if c = ':' ∨ c = ')' then
        if dangling then none else some (f, c :: rest)
      else if c = '-' then
        if negated then none else readFlags f seen true true rest
      else if seen.contains c then none
      else (f.set? c !negated).bind fun f => readFlags f (c :: seen) negated false rest

/-- Skips white space and comments, which count for nothing in verbose mode; `inComment` says that a
comment is open. -/
def skipLayout (inComment : Bool) : Text → Text
  | [] => []
  | c :: rest =>
      if inComment then skipLayout (c != '\n') rest
      else if isWhitespace c then skipLayout false rest
      else if c = '#' then skipLayout true rest
      else c :: rest

/-- The text from the next significant character on. -/
def Flags.skip (f : Flags) (t : Text) : Text := if f.verbose then skipLayout false t else t

/-! ## Sets of characters -/

/-- A set closed under case, if the flags ask for that. -/
def Flags.fold (f : Flags) (s : CharSet) : CharSet :=
  if !f.insensitive then s else if f.unicode then s.foldCase else s.foldAsciiCase

/-- A set that is allowed under the flags: without `u` it must not go beyond ASCII. -/
def Flags.checked (f : Flags) (s : CharSet) : Option CharSet :=
  if f.unicode then some s
  else if s.inter (.interval 0x80 0xFF) != .empty then none
  else some (s.inter CharSet.ascii)

/-- A set closed under case and complemented, as the flags and the expression ask. -/
def Flags.finish (f : Flags) (negated : Bool) (s : CharSet) : Option CharSet :=
  f.checked (if negated then (f.fold s).compl else f.fold s)

/-- White space in ASCII. -/
def asciiSpace : CharSet := .ofIntervals [(0x09, 0x0D), (0x20, 0x20)]

/-- The classes `d`, `s` and `w`. -/
def Flags.perlSet (f : Flags) (letter : Char) : CharSet :=
  if letter = 'd' then (if f.unicode then Unicode.decimalDigit else .range '0' '9')
  else if letter = 's' then (if f.unicode then Unicode.whiteSpace else asciiSpace)
  else if f.unicode then Unicode.word
  else .asciiWord

/-- The ASCII classes that go by a name. -/
def asciiSet? (name : Text) : Option CharSet :=
  let byName : List (String × List (Nat × Nat)) :=
    [ ("alnum", [(0x30, 0x39), (0x41, 0x5A), (0x61, 0x7A)]),
      ("alpha", [(0x41, 0x5A), (0x61, 0x7A)]),
      ("ascii", [(0x00, 0x7F)]),
      ("blank", [(0x09, 0x09), (0x20, 0x20)]),
      ("cntrl", [(0x00, 0x1F), (0x7F, 0x7F)]),
      ("digit", [(0x30, 0x39)]),
      ("graph", [(0x21, 0x7E)]),
      ("lower", [(0x61, 0x7A)]),
      ("print", [(0x20, 0x7E)]),
      ("punct", [(0x21, 0x2F), (0x3A, 0x40), (0x5B, 0x60), (0x7B, 0x7E)]),
      ("space", [(0x09, 0x0D), (0x20, 0x20)]),
      ("upper", [(0x41, 0x5A)]),
      ("word", [(0x30, 0x39), (0x41, 0x5A), (0x5F, 0x5F), (0x61, 0x7A)]),
      ("xdigit", [(0x30, 0x39), (0x41, 0x46), (0x61, 0x66)]) ]
  (byName.find? (·.1.toList = name)).map fun (_, stretches) => .ofIntervals stretches

/-! ## Escapes -/

/-- What an escape stands for. A literal is marked if it is written as one byte. -/
inductive Escape
  | literal (c : Char) (isByte : Bool)
  | set (s : CharSet)
  | look (condition : Look)

/-- The value of a hexadecimal digit. -/
def hexDigit? (c : Char) : Option Nat :=
  if c.isDigit then some (c.toNat - 48)
  else if 'a' ≤ c && c ≤ 'f' then some (c.toNat - 87)
  else if 'A' ≤ c && c ≤ 'F' then some (c.toNat - 55)
  else none

/-- The character with the given number, if there is one. -/
def scalar? (n : Nat) : Option Char := if n.isValidChar then some (Char.ofNat n) else none

/-- Reads `count` more hexadecimal digits behind the number `n`. -/
def readHexDigits (f : Flags) : (count : Nat) → (n : Nat) → Text → Option (Nat × Text)
  | 0, n, t => some (n, t)
  | count + 1, n, t =>
      match f.skip t with
      | [] => none
      | c :: rest => (hexDigit? c).bind fun d => readHexDigits f count (n * 16 + d) rest

/-- The significant characters up to a closing brace, and the text behind it. -/
def readBraced (f : Flags) : (fuel : Nat) → Text → Option (Text × Text)
  | 0, _ => none
  | fuel + 1, t =>
      match f.skip t with
      | [] => none
      | c :: rest =>
          if c = '}' then some ([], rest)
          else (readBraced f fuel rest).map fun (content, t) => (c :: content, t)

/-- The number that hexadecimal digits write. -/
def hexNumber? (digits : Text) : Option Nat :=
  if digits.isEmpty then none
  else digits.foldl (fun n c => n.bind fun n => (hexDigit? c).map (n * 16 + ·)) (some 0)

/-- Reads a character written by its number, behind the letter of the escape: `count` digits, or
digits in braces. -/
def readHexEscape (f : Flags) (letter : Char) (count : Nat) (t : Text) : Option (Escape × Text) :=
  match f.skip t with
  | [] => none
  | '{' :: rest => do
      let (digits, t) ← readBraced f (rest.length + 1) rest
      let c ← (hexNumber? digits).bind scalar?
      some (.literal c false, t)
  | t => do
      let (n, t) ← readHexDigits f count 0 t
      let c ← scalar? n
      some (.literal c (letter == 'x'), t)

/-- Reads a property behind the letter of the escape. -/
def readProperty (f : Flags) (negated : Bool) (t : Text) : Option (Escape × Text) := do
  let (content, t) ← match f.skip t with
    | [] => none
    | '{' :: rest => readBraced f (rest.length + 1) rest
    | c :: rest => if c = '\\' then none else some ([c], rest)
  if !f.unicode then none
  else
    let (differs, s) ← propertySet? content
    let folded := f.fold s
    some (.set (if negated != differs then folded.compl else folded), t)

/-- Reads the kind of a word boundary in braces behind `\b`. If the braces do not start with a
letter or a hyphen, they are left for a repetition. -/
def readBoundary (f : Flags) (t : Text) : Option (Escape × Text) :=
  let isNameChar (c : Char) : Bool := c.isAlpha || c == '-'
  match t with
  | '{' :: rest =>
      match f.skip rest with
      | [] => none
      | c :: _ =>
          if isNameChar c then do
            let (content, rest) ← readBraced f (rest.length + 1) rest
            if content = "start".toList then some (.look .wordStart, rest)
            else if content = "end".toList then some (.look .wordEnd, rest)
            else if content = "start-half".toList then some (.look .wordStartHalf, rest)
            else if content = "end-half".toList then some (.look .wordEndHalf, rest)
            else none
          else some (.look .wordBoundary, t)
  | _ => some (.look .wordBoundary, t)

/-- Reads what follows a backslash. -/
def readEscape (f : Flags) : Text → Option (Escape × Text)
  | [] => none
  | c :: rest =>
      let literal (d : Char) : Option (Escape × Text) := some (.literal d false, rest)
      if c = 'x' then readHexEscape f c 2 rest
      else if c = 'u' then readHexEscape f c 4 rest
      else if c = 'U' then readHexEscape f c 8 rest
      else if c = 'p' ∨ c = 'P' then readProperty f (c == 'P') rest
      else if c = 'd' ∨ c = 's' ∨ c = 'w' then some (.set (f.perlSet c), rest)
      else if c = 'D' ∨ c = 'S' ∨ c = 'W' then
        (f.checked (f.perlSet c.toLower).compl).map fun s => (.set s, rest)
      else if c = 'a' then literal '\x07'
      else if c = 'f' then literal '\x0c'
      else if c = 't' then literal '\t'
      else if c = 'n' then literal '\n'
      else if c = 'r' then literal '\r'
      else if c = 'v' then literal '\x0b'
      else if c = 'A' then some (.look .textStart, rest)
      else if c = 'z' then some (.look .textEnd, rest)
      else if c = 'b' then readBoundary f rest
      else if c = 'B' then some (.look .notWordBoundary, rest)
      else if c = '<' then some (.look .wordStart, rest)
      else if c = '>' then some (.look .wordEnd, rest)
      else if c.toNat < 0x80 ∧ !c.isAlphanum then literal c
      else none

/-! ## Classes in brackets -/

/-- A set of characters with the depth of its syntax. -/
structure ClassPart where
  set : CharSet
  depth : Nat

/-- The items read so far of a class. -/
structure ClassUnion where
  set : CharSet
  count : Nat
  depth : Nat

/-- No items. -/
def ClassUnion.none : ClassUnion := ⟨.empty, 0, 0⟩

/-- One more item. -/
def ClassUnion.add (u : ClassUnion) (p : ClassPart) : ClassUnion :=
  ⟨u.set.union p.set, u.count + 1, max u.depth p.depth⟩

/-- The items as one part. -/
def ClassUnion.part (u : ClassUnion) : ClassPart :=
  ⟨u.set, if u.count ≤ 1 then u.depth else u.depth + 1⟩

/-- A left operand that waits for the right one, with its operator. -/
abbrev Pending := Option (ClassPart × (CharSet → CharSet → CharSet))

/-- The part that is complete once `right` has been read. -/
def combine (f : Flags) (pending : Pending) (right : ClassPart) : ClassPart :=
  match pending with
  | none => right
  | some (left, op) =>
      ⟨op (f.fold left.set) (f.fold right.set), max left.depth right.depth + 1⟩

/-- Reads the opening of a class behind its bracket: whether it is negated, and the hyphens or the
bracket that are literal because they come first. -/
def readClassOpening (f : Flags) (t : Text) : Option (Bool × ClassUnion × Text) := do
  let (negated, t) : Bool × Text :=
    match f.skip t with
    | '^' :: rest => (true, f.skip rest)
    | t => (false, t)
  let (u, t) := hyphens (t.length + 1) .none t
  match t with
  | [] => none
  | c :: rest =>
      if c = ']' ∧ u.count = 0 then
        match f.skip rest with
        | [] => none
        | t => some (negated, u.add ⟨.single ']', 0⟩, t)
      else some (negated, u, t)
where
  /-- Reads hyphens. -/
  hyphens : (fuel : Nat) → ClassUnion → Text → ClassUnion × Text
    | fuel + 1, u, '-' :: rest => hyphens fuel (u.add ⟨.single '-', 0⟩) (f.skip rest)
    | _, u, t => (u, t)

/-- Reads a class with a name, such as `[:alpha:]`, behind its opening bracket. -/
def readAsciiClass? (f : Flags) (t : Text) : Option (Option CharSet × Text) :=
  match t with
  | ':' :: rest =>
      let (negated, rest) : Bool × Text :=
        match rest with
        | '^' :: more => (true, more)
        | _ => (false, rest)
      match rest.dropWhile (· != ':') with
      | ':' :: ']' :: after =>
          (asciiSet? (rest.takeWhile (· != ':'))).map fun s => (f.finish negated s, after)
      | _ => none
  | _ => none

/-- One end of a range, or an item of its own. -/
inductive ClassItem
  | literal (c : Char)
  | set (s : CharSet)

/-- Reads an item of a class. -/
def readClassItem (f : Flags) : Text → Option (ClassItem × Text)
  | [] => none
  | '\\' :: rest => do
      match ← readEscape f rest with
      | (.literal c isByte, t) =>
          if f.unicode ∨ c.toNat < 0x80 ∨ isByte then some (.literal c, t) else none
      | (.set s, t) => some (.set s, t)
      | (.look _, _) => none
  | c :: rest => if f.unicode ∨ c.toNat < 0x80 then some (.literal c, rest) else none

/-- The character that is looked at behind a hyphen. In verbose mode blanks do not count, nor does
the first sign that opens a comment, while what the comment says does; if there is nothing but
these, it is the character that follows. -/
def Flags.peek (f : Flags) (t : Text) : Option Char :=
  if !f.verbose then t.head?
  else
    match t.dropWhile isWhitespace with
    | '#' :: comment => (comment.dropWhile isWhitespace).head?.or t.head?
    | ahead => ahead.head?.or t.head?

/-- Reads an item or a range. A hyphen is literal before a closing bracket, and belongs to an
operator before another hyphen. -/
def readClassRange (f : Flags) (t : Text) : Option (CharSet × Text) := do
  let (first, t) ← readClassItem f t
  let alone : Option (CharSet × Text) :=
    match first with
    | .literal c => some (.single c, t)
    | .set s => some (s, t)
  match f.skip t with
  | [] => none
  | '-' :: rest =>
      let ahead := f.peek rest
      -- Here the hyphen makes no range: it is left for the next item.
      if ahead = some ']' ∨ ahead = some '-' then alone
      else
        match first, ← readClassItem f (f.skip rest) with
        | .literal a, (.literal b, t) => if a ≤ b then some (.range a b, t) else none
        | _, _ => none
  | _ => alone

/-- Reads the items of a class up to its closing bracket; those of the part after the last operator
are collected in `u`. -/
def readClass (f : Flags) :
    (fuel : Nat) → (negated : Bool) → Pending → ClassUnion → Text → Option (ClassPart × Text)
  | 0, _, _, _, _ => none
  | fuel + 1, negated, pending, u, t =>
      match f.skip t with
      | [] => none
      | '[' :: rest =>
          -- A class with a name, or else a class inside this one.
          match readAsciiClass? f rest with
          | some (s, t) => do
              readClass f fuel negated pending (u.add ⟨← s, 0⟩) t
          | none => do
              let (innerNegated, inner, t) ← readClassOpening f rest
              let (p, t) ← readClass f fuel innerNegated none inner t
              readClass f fuel negated pending (u.add p) t
      | ']' :: rest => do
          -- The negation is that of the whole class, behind its last operator.
          let p := combine f pending u.part
          let s ← f.finish negated p.set
          some (⟨s, p.depth + 1⟩, rest)
      | '&' :: '&' :: rest =>
          readClass f fuel negated (some (combine f pending u.part, .inter)) .none rest
      | '-' :: '-' :: rest =>
          readClass f fuel negated (some (combine f pending u.part, .subtract)) .none rest
      | '~' :: '~' :: rest =>
          readClass f fuel negated (some (combine f pending u.part, .exclusive)) .none rest
      | t => do
          let (s, t) ← readClassRange f t
          readClass f fuel negated pending (u.add ⟨s, 0⟩) t

/-! ## Repetitions -/

/-- Reads a decimal number with white space around it. -/
def readCount (f : Flags) : (fuel : Nat) → (digits : Text) → Text → Option (Nat × Text)
  | 0, _, _ => none
  | fuel + 1, digits, t =>
      match t with
      | c :: rest =>
          if c.isDigit then readCount f fuel (digits ++ [c]) (f.skip rest)
          else do
            let n ← digits.toNat?
            if n < 2 ^ 32 then some (n, t.dropWhile isWhitespace) else none
      | [] => none

/-- Reads a repetition behind its opening brace: the least and the greatest number of rounds, and
whether it is greedy. -/
def readBounds (f : Flags) (t : Text) : Option ((Nat × Option Nat × Bool) × Text) := do
  let t := f.skip t
  let (least, t) ← readCount f (t.length + 1) [] (t.dropWhile isWhitespace)
  let (most, t) ← match f.skip t with
    | ',' :: rest =>
        match f.skip rest with
        | [] => none
        | '}' :: _ => some (none, f.skip rest)
        | rest => do
            let (most, t) ← readCount f (rest.length + 1) [] (rest.dropWhile isWhitespace)
            some (some most, t)
    | t => some (some least, t)
  match f.skip t with
  | '}' :: rest =>
      if most.any (· < least) then none
      else
        match f.skip rest with
        | '?' :: rest => some ((least, most, false), rest)
        | rest => some ((least, most, true), rest)
  | _ => none

/-! ## Groups and the whole -/

/-- A part of a sequence, with the depth of its syntax: a pattern, or a directive that only sets
flags. -/
inductive Part
  | directive
  | pattern (p : Pattern) (depth : Nat)

/-- The depth of a part. -/
def Part.depth : Part → Nat
  | directive => 0
  | pattern _ d => d

/-- A sequence of parts. -/
def sequence (parts : List Part) : Pattern × Nat :=
  let deepest := (parts.map Part.depth).foldl max 0
  ( Pattern.seqOf (parts.filterMap fun
      | .pattern p _ => some p
      | .directive => none),
    if parts.length ≤ 1 then deepest else deepest + 1 )

/-- The groups opened so far: how many, and the numbers of those with a name. -/
structure Groups where
  count : Nat
  names : List (Text × Nat)

/-- The number of the next group, if the numbers of groups, of 32 bits, have not run out. -/
def Groups.next? (groups : Groups) : Option Nat :=
  if groups.count + 1 < 2 ^ 32 then some (groups.count + 1) else none

/-- What an opening parenthesis starts. -/
inductive GroupHead
  | directive (f : Flags)
  | group (index : Option Nat) (f : Flags)

/-- Whether a character may stand in the name of a group. -/
def isNameChar (isFirst : Bool) (c : Char) : Bool :=
  if isFirst then c == '_' || Unicode.isAlphabetic c
  else c == '_' || c == '.' || c == '[' || c == ']' || Unicode.isAlphanumeric c

/-- Reads the name of a group up to the closing angle bracket. -/
def readGroupName (groups : Groups) (t : Text) : Option (Text × Text) :=
  let name := t.takeWhile (· != '>')
  match t.dropWhile (· != '>'), name with
  | '>' :: rest, first :: more =>
      if isNameChar true first ∧ more.all (isNameChar false) ∧
          !groups.names.any (·.1 = name) then
        some (name, rest)
      else none
  | _, _ => none

/-- Reads what follows an opening parenthesis up to the content of the group. -/
def readGroupHead (f : Flags) (groups : Groups) (t : Text) : Option (GroupHead × Groups × Text) :=
  let named (t : Text) : Option (GroupHead × Groups × Text) := do
    let index ← groups.next?
    let (name, t) ← readGroupName groups t
    some (.group (some index) f, ⟨index, (name, index) :: groups.names⟩, t)
  match f.skip t with
  | '?' :: rest =>
      match rest with
      -- There is no looking ahead or behind.
      | '=' :: _ | '!' :: _ | '<' :: '=' :: _ | '<' :: '!' :: _ => none
      | 'P' :: '<' :: t => named t
      | '<' :: t => named t
      | _ => do
          match ← readFlags f [] false false rest with
          | (_, ')' :: _) =>
              let (f, t) ← readFlags f [] false false rest
              if rest.head? = some ')' then none else some (.directive f, groups, t.drop 1)
          | (f, t) => some (.group none f, groups, t.drop 1)
  | t => groups.next?.map fun index => (.group (some index) f, ⟨index, groups.names⟩, t)

/-- The pattern of a literal character. -/
def literalPattern (f : Flags) (c : Char) (isByte : Bool) : Option Pattern :=
  if !f.unicode ∧ isByte ∧ 0x80 ≤ c.toNat then none
  else some (.ofSet (f.fold (.single c)))

/-- The pattern of a point, which stands for any character but the end of a line. -/
def dotPattern (f : Flags) : Option Pattern :=
  if !f.unicode then none
  else if f.dotAll then some (.set .all)
  else
    let ends : CharSet := if f.crlf then .ofIntervals [(0x0A, 0x0A), (0x0D, 0x0D)] else .single '\n'
    some (.set ends.compl)

/-- What `^` asks for. -/
def Flags.startAnchor (f : Flags) : Look :=
  if !f.multiLine then .textStart else if f.crlf then .lineStartCrlf else .lineStart

/-- What `$` asks for. -/
def Flags.endAnchor (f : Flags) : Look :=
  if !f.multiLine then .textEnd else if f.crlf then .lineEndCrlf else .lineEnd

/-- Reads a single character, an escape, a point or an anchor. -/
def readPrimitive (f : Flags) : Text → Option (Pattern × Text)
  | [] => none
  | c :: rest =>
      let look (k : Look) : Pattern := .look k f.unicode
      if c = '\\' then do
        match ← readEscape f rest with
        | (.literal c isByte, t) => (literalPattern f c isByte).map (·, t)
        | (.set s, t) => some (.ofSet s, t)
        | (.look k, t) => some (look k, t)
      else if c = '.' then (dotPattern f).map (·, rest)
      else if c = '^' then some (look f.startAnchor, rest)
      else if c = '$' then some (look f.endAnchor, rest)
      else (literalPattern f c false).map (·, rest)

/-- A repetition of the last part read. -/
def repeatLast (f : Flags) (parts : List Part) (least : Nat) (most : Option Nat) (greedy : Bool) :
    Option (List Part) :=
  match parts with
  | .pattern p depth :: before =>
      some (.pattern (.repeatOf p least most (greedy != f.swapGreed)) (depth + 1) :: before)
  | _ => none

mutual

/-- Reads branches up to the end of the text or the parenthesis that closes the group. -/
def readBranches (fuel : Nat) (f : Flags) (groups : Groups) (t : Text) :
    Option (List (Pattern × Nat) × Groups × Text) :=
  match fuel with
  | 0 => none
  | fuel + 1 => do
      let (parts, f, groups, t) ← readParts fuel f groups [] t
      match t with
      | '|' :: rest => do
          let (branches, groups, t) ← readBranches fuel f groups rest
          some (sequence parts :: branches, groups, t)
      | _ => some ([sequence parts], groups, t)

/-- Reads the parts of a branch; `parts` are those before, the last one first. -/
def readParts (fuel : Nat) (f : Flags) (groups : Groups) (parts : List Part) (t : Text) :
    Option (List Part × Flags × Groups × Text) :=
  match fuel with
  | 0 => none
  | fuel + 1 =>
      match f.skip t with
      | [] => some (parts.reverse, f, groups, [])
      | c :: rest =>
          if c = '|' ∨ c = ')' then some (parts.reverse, f, groups, c :: rest)
          else if c = '(' then do
            match ← readGroupHead f groups rest with
            -- The flags of a directive hold up to the end of the group around it.
            | (.directive f, groups, t) => readParts fuel f groups (.directive :: parts) t
            | (.group index inner, groups, t) =>
                let (branches, groups, t) ← readBranches fuel inner groups t
                match t with
                | ')' :: t =>
                    let deepest := (branches.map (·.2)).foldl max 0
                    let depth := if branches.length ≤ 1 then deepest + 1 else deepest + 2
                    let p := Pattern.altOf (branches.map (·.1))
                    let p := match index with
                      | some i => .group i p
                      | none => p
                    readParts fuel f groups (.pattern p depth :: parts) t
                | _ => none
          else if c = '[' then do
            let (negated, u, t) ← readClassOpening f rest
            let (p, t) ← readClass f (t.length + 1) negated none u t
            readParts fuel f groups (.pattern (.ofSet p.set) p.depth :: parts) t
          else if c = '?' ∨ c = '*' ∨ c = '+' then do
            let (greedy, t) : Bool × Text :=
              match rest with
              | '?' :: more => (false, more)
              | _ => (true, rest)
            let parts ← repeatLast f parts (if c = '+' then 1 else 0)
              (if c = '?' then some 1 else none) greedy
            readParts fuel f groups parts t
          else if c = '{' then do
            let ((least, most, greedy), t) ← readBounds f rest
            let parts ← repeatLast f parts least most greedy
            readParts fuel f groups parts t
          else do
            let (p, t) ← readPrimitive f (c :: rest)
            readParts fuel f groups (.pattern p 0 :: parts) t

end

/-- The deepest nesting of an expression. -/
def maxDepth : Nat := 250

/-- The program of a regular expression; `none` if the text is none, or too deep or too large. -/
def compile? (text : Text) : Option Program := do
  let (branches, groups, rest) ← readBranches (2 * text.length + 4) {} ⟨0, []⟩ text
  let deepest := (branches.map (·.2)).foldl max 0
  let depth := if branches.length ≤ 1 then deepest else deepest + 1
  let p := Pattern.altOf (branches.map (·.1))
  if rest.isEmpty ∧ depth ≤ maxDepth ∧ p.fits then
    some (.ofPattern p groups.count groups.names)
  else none

end Regex

end Fillout
