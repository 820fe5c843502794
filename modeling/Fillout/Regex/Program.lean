import Fillout.Regex.Pattern

set_option autoImplicit false

/-! # Matching

A pattern is compiled to a program of few kinds of instructions, and a text is run through the
program with a list of threads that all stand at the same place, the preferred ones first. An
instruction that an earlier thread has reached at a place is not visited again there, so a step
takes time linear in the size of the program however the pattern is nested.
-/

namespace Fillout

namespace Regex

/-- An instruction; numbers are places in the program. -/
inductive Instruction
  /-- Consumes the given character. -/
  | char (c : Char) (next : Nat)
  /-- Consumes one character of the set. -/
  | set (s : CharSet) (next : Nat)
  /-- Goes on if the condition holds. -/
  | look (condition : Look) (unicode : Bool) (next : Nat)
  /-- Goes on at both places, preferably the first. -/
  | split (first second : Nat)
  /-- Notes the place in the text. -/
  | save (slot : Nat) (next : Nat)
  /-- The match is complete. -/
  | accept

/-- Code under construction: each pattern is put in front of the place `next` where matching goes
on, and returns the place where it starts. -/
abbrev Emit := (next : Nat) → Array Instruction → Nat × Array Instruction

/-- Adds one instruction. -/
def emit (instruction : Instruction) (code : Array Instruction) : Nat × Array Instruction :=
  (code.size, code.push instruction)

/-- The code of a literal text. -/
def emitLiteral : Text → Emit
  | [], next, code => (next, code)
  | c :: rest, next, code =>
      let (next, code) := emitLiteral rest next code
      emit (.char c next) code

/-- A choice between a pattern that starts at `body` and going on at `next`. -/
def enterOrSkip (greedy : Bool) (body next : Nat) : Instruction :=
  if greedy then .split body next else .split next body

/-- `n` copies of a pattern, one behind the other. -/
def emitTimes (body : Emit) : (n : Nat) → Emit
  | 0, next, code => (next, code)
  | n + 1, next, code =>
      let (next, code) := emitTimes body n next code
      body next code

/-- Up to `n` copies of a pattern; after each of them, and before the first, all of the rest can be
skipped. -/
def emitUpTo (body : Emit) (greedy : Bool) (exit : Nat) : (n : Nat) → Emit
  | 0, next, code => (next, code)
  | n + 1, next, code =>
      let (next, code) := emitUpTo body greedy exit n next code
      let (start, code) := body next code
      emit (enterOrSkip greedy start exit) code

/-- One or more copies of a pattern. -/
def emitPlus (body : Emit) (greedy : Bool) : Emit := fun next code =>
  let loop := code.size
  let (start, code) := body loop (code.push .accept)
  (start, code.setIfInBounds loop (enterOrSkip greedy start next))

/-- The code of a pattern. Where a repetition may have no rounds, the choice not to enter it is kept
apart from the choice to leave it, so that a round that consumes nothing does not change what is
preferred. -/
def emitPattern : Pattern → Emit
  | .empty => fun next code => (next, code)
  | .literal t => emitLiteral t
  | .set s => fun next code => emit (.set s next) code
  | .look k unicode => fun next code => emit (.look k unicode next) code
  | .seq a b => fun next code =>
      let (next, code) := emitPattern b next code
      emitPattern a next code
  | .alt a b => fun next code =>
      let (left, code) := emitPattern a next code
      let (right, code) := emitPattern b next code
      emit (.split left right) code
  | .group index sub => fun next code =>
      let (next, code) := emit (.save (2 * index + 1) next) code
      let (start, code) := emitPattern sub next code
      emit (.save (2 * index) start) code
  | .repeated sub least most greedy => fun next code =>
      match most with
      | some most =>
          let (next, code) := emitUpTo (emitPattern sub) greedy next (most - least) next code
          emitTimes (emitPattern sub) least next code
      | none =>
          let (start, code) := emitPlus (emitPattern sub) greedy next code
          if least = 0 then emit (enterOrSkip greedy start next) code
          else emitTimes (emitPattern sub) (least - 1) start code

/-- A compiled regular expression with the numbers of its named groups. -/
structure Program where
  code : Array Instruction
  start : Nat
  slots : Nat
  names : List (Text × Nat)

/-- The program of a pattern with `groups` groups, the whole match not counted. -/
def Program.ofPattern (p : Pattern) (groups : Nat) (names : List (Text × Nat)) : Program :=
  let (next, code) := emit .accept #[]
  let (start, code) := emitPattern (.group 0 p) next code
  { code, start, slots := 2 * (groups + 1), names }

/-- The places in the text noted so far, by slot. -/
abbrev Slots := Array (Option Nat)

/-- A thread stands before the instruction `pc`. -/
structure Thread where
  pc : Nat
  slots : Slots

/-- The threads at one place of the text, the preferred ones last, with the instructions that have
been reached there. -/
structure Threads where
  reversed : List Thread
  reached : Array Bool

/-- A place in a text: its number and the characters next to it. -/
structure Place where
  position : Nat
  before : Option Char
  after : Option Char

/-- Follows the threads of `stack` to the instructions that consume a character or accept. -/
def follow (code : Array Instruction) (place : Place) :
    (fuel : Nat) → (stack : List Thread) → Threads → Threads
  | 0, _, threads => threads
  | _, [], threads => threads
  | fuel + 1, ⟨pc, slots⟩ :: stack, threads =>
      if threads.reached.getD pc true then follow code place fuel stack threads
      else
        let threads := { threads with reached := threads.reached.setIfInBounds pc true }
        match code[pc]? with
        | some (.look k unicode next) =>
            let isWord := if unicode then Unicode.isWord else CharSet.asciiWord.mem
            if k.holds isWord place.before place.after then
              follow code place fuel (⟨next, slots⟩ :: stack) threads
            else follow code place fuel stack threads
        | some (.split first second) =>
            follow code place fuel (⟨first, slots⟩ :: ⟨second, slots⟩ :: stack) threads
        | some (.save slot next) =>
            follow code place fuel
              (⟨next, slots.setIfInBounds slot (some place.position)⟩ :: stack) threads
        | _ =>
            follow code place fuel stack
              { threads with reversed := ⟨pc, slots⟩ :: threads.reversed }

/-- Adds the threads that `t` leads to without consuming a character. -/
def Threads.add (threads : Threads) (code : Array Instruction) (place : Place) (t : Thread) :
    Threads :=
  follow code place (2 * code.size + 2) [t] threads

/-- No threads. -/
def Threads.none (code : Array Instruction) : Threads := ⟨[], Array.replicate code.size false⟩

/-- Lets each thread consume the character `c`, if there is one, and collects the threads at the
place behind it. A thread that accepts ends the step, for those behind it are less preferred. -/
def step (code : Array Instruction) (c : Option Char) (next : Place) :
    List Thread → Threads → Option Slots × Threads
  | [], threads => (none, threads)
  | t :: rest, threads =>
      match code[t.pc]? with
      | some .accept => (some t.slots, threads)
      | some (.char d pc) =>
          if c = some d then step code c next rest (threads.add code next ⟨pc, t.slots⟩)
          else step code c next rest threads
      | some (.set s pc) =>
          if c.any s.mem then step code c next rest (threads.add code next ⟨pc, t.slots⟩)
          else step code c next rest threads
      | _ => step code c next rest threads

/-- Runs the program over a text from a place on and returns the slots of the preferred match. New
threads start at every place until a match has been found. -/
def Program.run (p : Program) (position : Nat) (before : Option Char) :
    Text → Threads → Option Slots → Option Slots
  | text, threads, found =>
    let place : Place := ⟨position, before, text.head?⟩
    let threads :=
      if found.isNone then
        threads.add p.code place ⟨p.start, Array.replicate p.slots .none⟩
      else threads
    if threads.reversed.isEmpty && found.isSome then found
    else
      match text with
      | [] =>
          let (better, _) := step p.code .none place threads.reversed.reverse (.none p.code)
          better.or found
      | c :: rest =>
          let (better, next) :=
            step p.code (some c) ⟨position + 1, some c, rest.head?⟩ threads.reversed.reverse
              (.none p.code)
          run p (position + 1) (some c) rest next (better.or found)

/-- The slots of the preferred match among the leftmost ones that start at `position` or behind it;
`text` is what stands there, and `before` the character in front of it. -/
def Program.find? (p : Program) (position : Nat) (before : Option Char) (text : Text) :
    Option Slots :=
  p.run position before text (.none p.code) none

/-- Whether the expression matches somewhere in a text. -/
def Program.isMatch (p : Program) (text : Text) : Bool := (p.find? 0 none text).isSome

/-- Where a group of a match starts and ends, if it took part. -/
def groupSpan? (slots : Slots) (index : Nat) : Option (Nat × Nat) := do
  let start ← (slots[2 * index]?).join
  let stop ← (slots[2 * index + 1]?).join
  some (start, stop)

/-- All matches of a text from left to right. The next search starts where the last match ended; an
empty match there does not count, and the search starts over one character later. -/
def Program.matchesFrom (p : Program) :
    (fuel : Nat) → (position : Nat) → (lastEnd : Option Nat) → (before : Option Char) → Text →
      List Slots
  | 0, _, _, _, _ => []
  | fuel + 1, position, lastEnd, before, text =>
      match p.find? position before text with
      | none => []
      | some slots =>
          match groupSpan? slots 0 with
          | none => []
          | some (start, stop) =>
              if start = stop ∧ lastEnd = some stop then
                match text with
                | [] => []
                | c :: rest => p.matchesFrom fuel (position + 1) lastEnd (some c) rest
              else
                let consumed := stop - position
                slots ::
                  p.matchesFrom fuel stop (some stop)
                    (if consumed = 0 then before else text[consumed - 1]?) (text.drop consumed)

/-- All matches of a text from left to right, none of which overlap. -/
def Program.allMatches (p : Program) (text : Text) : List Slots :=
  p.matchesFrom (2 * text.length + 2) 0 none none text

end Regex

end Fillout
