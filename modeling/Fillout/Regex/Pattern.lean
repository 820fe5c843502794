import Fillout.Regex.CharSet
import Fillout.Unicode.Property

set_option autoImplicit false

/-! # Regular expressions

The abstract form of a regular expression. Patterns are put together by functions that bring them
into a simple form: `seqOf` joins neighbouring literals, `altOf` makes a set of single characters
and takes out what all branches start with, and `repeatOf` does not count rounds that match nothing.
How large an expression may be is measured on this form.
-/

namespace Fillout

namespace Regex

/-- A condition on a place in a text. -/
inductive Look
  | textStart
  | textEnd
  | lineStart
  | lineEnd
  | lineStartCrlf
  | lineEndCrlf
  | wordBoundary
  | notWordBoundary
  | wordStart
  | wordEnd
  | wordStartHalf
  | wordEndHalf
  deriving DecidableEq

/-- Whether a condition holds between the characters `before` and `after`; either is missing at an
end of the text. `isWord` tells the word characters. -/
def Look.holds (isWord : Char → Bool) (before after : Option Char) : Look → Bool
  | textStart => before.isNone
  | textEnd => after.isNone
  | lineStart => before.all (· == '\n')
  | lineEnd => after.all (· == '\n')
  | lineStartCrlf => before.all fun c => c == '\n' || (c == '\r' && after != some '\n')
  | lineEndCrlf => after.all fun c => c == '\r' || (c == '\n' && before != some '\r')
  | wordBoundary => before.any isWord != after.any isWord
  | notWordBoundary => before.any isWord == after.any isWord
  | wordStart => !before.any isWord && after.any isWord
  | wordEnd => before.any isWord && !after.any isWord
  | wordStartHalf => !before.any isWord
  | wordEndHalf => !after.any isWord

/-- A regular expression. Of the ways in which it matches a text, an alternative prefers its left
branch and a repetition prefers more rounds if it is greedy and fewer if it is not. -/
inductive Pattern
  | empty
  | literal (text : Text)
  | set (s : CharSet)
  /-- A condition; `unicode` says whether word characters beyond ASCII count as such. -/
  | look (condition : Look) (unicode : Bool)
  | seq (first rest : Pattern)
  | alt (first rest : Pattern)
  | repeated (sub : Pattern) (least : Nat) (most : Option Nat) (greedy : Bool)
  | group (index : Nat) (sub : Pattern)
  deriving DecidableEq

namespace Pattern

/-- Whether the pattern matches nothing but the empty text. -/
def isAlwaysEmpty : Pattern → Bool
  | empty => true
  | literal t => t.isEmpty
  | set _ => false
  | look _ _ => true
  | seq a b => a.isAlwaysEmpty && b.isAlwaysEmpty
  | alt a b => a.isAlwaysEmpty && b.isAlwaysEmpty
  | repeated sub _ most _ => sub.isAlwaysEmpty || most == some 0
  | group _ sub => sub.isAlwaysEmpty

/-- The least number of characters that a match has; `none` if nothing matches. -/
def minLength : Pattern → Option Nat
  | empty => some 0
  | literal t => some t.length
  | set s => if s = .empty then none else some 1
  | look _ _ => some 0
  | seq a b => do some ((← a.minLength) + (← b.minLength))
  | alt a b => do some (min (← a.minLength) (← b.minLength))
  | repeated sub least _ _ => sub.minLength.map (· * least)
  | group _ sub => sub.minLength

/-! ## Putting patterns together -/

/-- A set, or a literal if the set has one member. -/
def ofSet (s : CharSet) : Pattern :=
  match s.toChar? with
  | some c => literal [c]
  | none => set s

/-- A repetition. Rounds that can only match the empty text are not counted beyond the first. -/
def repeatOf (sub : Pattern) (least : Nat) (most : Option Nat) (greedy : Bool) : Pattern :=
  let (least, most) :=
    if sub.isAlwaysEmpty then (min least 1, some (min (most.getD 1) 1)) else (least, most)
  if most = some 0 then empty
  else if least = 1 ∧ most = some 1 then sub
  else repeated sub least most greedy

/-- The parts of a sequence. -/
def parts : Pattern → List Pattern
  | empty => []
  | seq a b => a :: b.parts
  | p => [p]

/-- The branches of an alternative. -/
def branches : Pattern → List Pattern
  | alt a b => a :: b.branches
  | p => [p]

/-- Joins literals that follow each other. -/
def joinLiterals : List Pattern → List Pattern
  | [] => []
  | literal t :: rest =>
      match joinLiterals rest with
      | literal u :: more => literal (t ++ u) :: more
      | joined => literal t :: joined
  | p :: rest => p :: joinLiterals rest

/-- A sequence of parts that are kept as they are. -/
def chain : List Pattern → Pattern
  | [] => empty
  | [p] => p
  | p :: ps => seq p (chain ps)

/-- The patterns one behind the other. -/
def seqOf (ps : List Pattern) : Pattern := chain (joinLiterals (ps.flatMap parts))

/-- The character that a pattern of one character stands for. -/
def char? : Pattern → Option Char
  | literal [c] => some c
  | _ => none

/-- The set that a pattern stands for. -/
def set? : Pattern → Option CharSet
  | set s => some s
  | _ => none

/-- An alternative of branches that are kept as they are. -/
def choice : List Pattern → Pattern
  | [] => set .empty
  | [p] => p
  | p :: ps => alt p (choice ps)

/-- The parts that two sequences start with. -/
def commonStart : List Pattern → List Pattern → List Pattern
  | p :: ps, q :: qs => if p = q then p :: commonStart ps qs else []
  | _, _ => []

/-- The parts that all branches start with, if all are sequences. -/
def sharedStart : List Pattern → List Pattern
  | [] => []
  | [seq a b] => (seq a b).parts
  | seq a b :: rest => commonStart (seq a b).parts (sharedStart rest)
  | _ => []

/-- An alternative of branches, or a set if all are single characters or all are sets. -/
def altOfBranches (bs : List Pattern) : Pattern :=
  match bs with
  | [] | [_] => choice bs
  | _ =>
      match bs.mapM char?, bs.mapM set? with
      | some chars, _ => ofSet (.unions (chars.map CharSet.single))
      | none, some sets => ofSet (.unions sets)
      | none, none => choice bs

/-- The alternative of the patterns, the first one preferred. What all branches start with is put in
front of it. -/
def altOf (ps : List Pattern) : Pattern :=
  let bs := ps.flatMap branches
  let start := sharedStart bs
  if bs.length ≤ 1 ∨ start.isEmpty then altOfBranches bs
  else
    let rests := bs.map fun b => chain (b.parts.drop start.length)
    seqOf (start ++ [altOfBranches (rests.flatMap branches)])

end Pattern

end Regex

end Fillout
