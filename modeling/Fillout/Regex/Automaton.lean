import Fillout.Regex.Utf8

set_option autoImplicit false

/-! # Automata for expressions, counted

An expression is refused if the automata for it would take too much memory. Their states are never
built here: this module counts the states of sets, copies and alternatives, and what they hold, and
`Regex/Size.lean` puts the counts of an expression together.

* A state takes 32 bytes. A state that branches holds 4 bytes more for each state it leads to, and a
  state with several byte ranges 8 bytes more for each range.
* The parts of a sequence are linked one behind the other. If a part ends in a state that branches,
  the link to the next part is one more branch.
* A set is a tree of byte ranges. Reading forwards, subtrees that are equal are shared; reading
  backwards, the ends of products are shared. What has been seen is kept in a table with a fixed
  number of slots, where a newcomer takes the place of what was in its slot, so sharing depends on
  the numbers of the states.
-/

namespace Fillout

namespace Regex

namespace Automaton

/-- The states of an automaton under construction: how many there are, and how many bytes they hold
beyond their own size. -/
structure Extent where
  states : Nat
  held : Nat

namespace Extent

/-- The memory that an automaton may take, in bytes. -/
def limit : Nat := 10 * 2 ^ 20

/-- An extent that is within the limit. -/
def checked (e : Extent) : Option Extent := if 32 * e.states + e.held ≤ limit then some e else none

/-- Adds states that hold `held` bytes. -/
def add (e : Extent) (states held : Nat) : Option Extent :=
  checked ⟨e.states + states, e.held + held⟩

end Extent

/-! ## Sharing -/

/-- Mixes numbers into a hash value, one after the other. -/
def mix (numbers : List Nat) : UInt64 :=
  numbers.foldl (fun h n => (h ^^^ n.toUInt64) * 1099511628211) 14695981039346656037

/-- A table of what has been seen: in each slot the numbers that describe a state, and the number of
that state. -/
abbrev Seen := Array (Option (List Nat × Nat))

/-- The state that the numbers describe: one that has been seen, or a new one, which holds `held`
bytes. -/
def share (description : List Nat) (held : Nat) (seen : Seen) (e : Extent) :
    Option (Nat × Seen × Extent) :=
  let slot := (mix description).toNat % seen.size
  let known := (seen.getD slot none).bind fun (d, state) =>
    if d = description then some state else none
  match known with
  | some state => some (state, seen, e)
  | none =>
      let state := e.states
      (e.add 1 held).map fun e => (state, seen.setIfInBounds slot (some (description, state)), e)

/-- The tree of products of at most `depth` byte ranges, which ends in the state `target`: the
number of its first state. Products that start with the same range follow each other. -/
def shareTree (target : Nat) :
    (depth : Nat) → List (List ByteRange) → Seen → Extent → Option (Nat × Seen × Extent)
  | 0, _, seen, e => some (target, seen, e)
  | depth + 1, products, seen, e => do
      if products.all (·.isEmpty) then some (target, seen, e)
      else
        let families := products.splitBy fun p q => p.head? == q.head?
        let (description, seen, e) ← families.foldlM
          (fun (description, seen, e) family => do
            let (next, seen, e) ← shareTree target depth (family.map (·.drop 1)) seen e
            let (first, last) := (family.head?.bind (·.head?)).getD (0, 0)
            some (next :: last.toNat :: first.toNat :: description, seen, e))
          (([], seen, e) : List Nat × Seen × Extent)
        share description.reverse (8 * families.length) seen e

/-- The states of a set, read forwards. -/
def forwardSet (products : List (List ByteRange)) (e : Extent) : Option Extent := do
  let target := e.states
  let e ← e.add 1 0
  let (_, _, e) ← shareTree target 4 products (Array.replicate 10000 none) e
  some e

/-- The states of one product, read backwards; each leads to `next`. -/
def backwardProduct :
    (next : Nat) → List ByteRange → Seen → Extent → Option (Seen × Extent)
  | _, [], seen, e => some (seen, e)
  | next, (first, last) :: rest, seen, e => do
      let (state, seen, e) ← share [next, first.toNat, last.toNat] 0 seen e
      backwardProduct state rest seen e

/-- The states of a set, read backwards: one state branches to all products. -/
def backwardSet (products : List (List ByteRange)) (e : Extent) : Option Extent := do
  let target := e.states + 1
  let e ← e.add 2 0
  let (_, e) ← products.foldlM
    (fun (seen, e) product => do
      let (seen, e) ← backwardProduct target product seen e
      some (seen, ← e.add 0 4))
    ((Array.replicate 1000 none, e) : Seen × Extent)
  some e

/-- The states of a set. ASCII characters are single bytes, and need no tree. -/
def setExtent (backward : Bool) (s : CharSet) (e : Extent) : Option Extent :=
  if s.isAscii then e.add 2 (8 * s.intervals.length)
  else if backward then backwardSet s.byteProducts e
  else forwardSet s.byteProducts e

/-! ## Sequences and repetitions -/

/-- The states built so far, and whether the last one branches. -/
structure Built where
  extent : Extent
  branches : Bool

namespace Built

/-- Links the last state to another one. -/
def link (b : Built) (e : Extent) : Option Extent := if b.branches then e.add 0 4 else some e

end Built

/-- States of which the last one does not branch. -/
def plain (e : Option Extent) : Option Built := e.map (⟨·, false⟩)

/-- `n` more copies of a part behind `b`. -/
def furtherCopies (part : Extent → Option Built) : (n : Nat) → Built → Option Built
  | 0, b => some b
  | n + 1, b =>
      match part b.extent with
      | none => none
      | some next =>
          match b.link next.extent with
          | none => none
          | some e => furtherCopies part n ⟨e, next.branches⟩

/-- `n` copies of a part, one behind the other. -/
def copies (part : Extent → Option Built) (n : Nat) (e : Extent) : Option Built :=
  match n with
  | 0 => plain (e.add 1 0)
  | n + 1 => (part e).bind (furtherCopies part n)

/-- `n` more copies of a part behind `b`, before each of which a state branches to the end. -/
def optionalCopies (part : Extent → Option Built) : (n : Nat) → Built → Option Built
  | 0, b => some b
  | n + 1, b =>
      match (b.extent.add 1 0).bind part with
      | none => none
      | some next =>
          match (next.extent.add 0 8).bind b.link with
          | none => none
          | some e => optionalCopies part n ⟨e, next.branches⟩

/-- A repetition of a part; `consumes` says that the part never matches the empty text. -/
def repeatedExtent (part : Extent → Option Built) (consumes : Bool) (least : Nat)
    (most : Option Nat) (e : Extent) : Option Built :=
  match least, most with
  | 0, some 1 => do
      -- A state branches to the part and to the end.
      let b ← part (← e.add 1 0)
      plain (b.link (← b.extent.add 1 8))
  | 0, none =>
      if consumes then do
        -- One state branches to the part, which leads back to it, and to what follows.
        let b ← part (← e.add 1 0)
        some ⟨← b.link (← b.extent.add 0 4), true⟩
      else do
        -- The choice to enter is kept apart from the choice to go on.
        let b ← part e
        plain (b.link (← b.extent.add 3 16))
  | least, none => do
      -- The last copy is followed by a state that branches back to it and to what follows.
      let b ← if least ≤ 1 then part e else (copies part (least - 1) e).bind (furtherCopies part 1)
      some ⟨← b.link (← b.extent.add 1 4), true⟩
  | least, some most => do
      let b ← copies part least e
      if least = most then some b
      else do
        let e ← b.extent.add 1 0
        let b ← optionalCopies part (most - least) ⟨e, b.branches⟩
        plain (b.link b.extent)

/-! ## Alternatives -/

/-- What a pattern is to the alternative around it: no branch of one, its second branch (the first
one may end in a state that branches), or a later branch. The first branch is built by itself. -/
inductive Role
  | alone
  | second (first : Built)
  | later

/-- Joins a branch to its alternative. With the second branch come a state that branches to all of
them and a state that all of them lead to. -/
def Role.join (role : Role) (b : Built) : Option Built :=
  match role with
  | alone => some b
  | second first => do plain (b.link (← first.link (← b.extent.add 2 8)))
  | later => do plain (b.link (← b.extent.add 0 4))

/-- The words that go on, part by part: each word that ends here closes a part. Where words end
before any has gone on, they count as one. -/
def partsBetweenEnds (words : List (List UInt8)) : List (List (List UInt8)) :=
  oneEndInFront (words.splitOnP (·.isEmpty))
where
  /-- Keeps one empty part in front. -/
  oneEndInFront : List (List (List UInt8)) → List (List (List UInt8))
    | [] :: [] :: rest => oneEndInFront ([] :: rest)
    | parts => parts

/-- The words of a part that go on with the same byte, without that byte; the bytes ascend. -/
def families (part : List (List UInt8)) : List (List (List UInt8)) :=
  let bytes := (part.filterMap (·.head?)).eraseDups.mergeSort (· ≤ ·)
  bytes.map fun b => (part.filter (·.head? = some b)).map (·.drop 1)

/-- The states of a tree of words, of which at least one goes on; `depth` is the length of the
longest. A place in the tree has a state for each part of its words, and one that branches to these
and to the end. -/
def treeOfWords : (depth : Nat) → List (List UInt8) → Extent → Option Extent
  | 0, _, e => some e
  | depth + 1, words, e => do
      let parts := partsBetweenEnds words
      let e ← parts.foldlM
        (fun e part => do
          let families := families part
          let e ← families.foldlM
            (fun e family =>
              if family.all (·.isEmpty) then some e else treeOfWords depth family e) e
          match families.length with
          | 0 => some e
          | 1 => e.add 1 0
          | n => e.add 1 (8 * n))
        e
      e.add 1 (4 * ((parts.filter (!·.isEmpty)).length + (parts.length - 1)))

/-- The states of an alternative of literals. -/
def wordsExtent (backward : Bool) (words : List (List UInt8)) (e : Extent) : Option Built := do
  let words := if backward then words.map (·.reverse) else words
  plain (treeOfWords ((words.map (·.length)).foldl max 0) words (← e.add 1 0))

end Automaton

end Regex

end Fillout
