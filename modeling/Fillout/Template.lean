import Fillout.Text.Basic

set_option autoImplicit false

/-! # Templates

A template is a text with placeholders, the *containers* `${…}$`. Containers do not nest: when an
opener stands before the previous one has been closed, the innermost span is the container, and what
is left outside is plain text for the time being.

`pieces` takes a text apart into plain pieces and containers and loses nothing
(`flatMap_text_pieces`); `containers`, `fillScore` and `isFinal` are views of that list. The body of
a container offers one or several *entries*, separated by commas: bare variables, and expressions in
parentheses.
-/

namespace Fillout

namespace Template

/-- The opener of a container. -/
def opener : Text := ['$', '{']

/-- The closer of a container. -/
def closer : Text := ['}', '$']

/-! ## Pieces -/

/-- A part of a template: plain text, or a container with its body. -/
inductive Piece
  | plain (text : Text)
  | slot (body : Text)
  deriving DecidableEq

namespace Piece

/-- The text of a piece, as it stands in the template. -/
def text : Piece → Text
  | plain t => t
  | slot body => opener ++ body ++ closer

/-- Whether a piece is a container. -/
def isSlot : Piece → Bool
  | plain _ => false
  | slot _ => true

end Piece

/-- The container behind an opener: `gap` stands before the opener, `span` between it and the next
closer. If `span` holds further openers, the last of them is the one that counts. -/
def innermost (gap span : Text) : Text × Text :=
  match Text.cutLast? opener span with
  | some (before, body) => (gap ++ opener ++ before, body)
  | none => (gap, span)

/-- Finding the innermost container loses nothing. -/
theorem innermost_append (gap span : Text) :
    (innermost gap span).1 ++ opener ++ (innermost gap span).2 = gap ++ opener ++ span := by
  unfold innermost
  split
  · rename_i before body h
    simp [← Text.append_of_cutLast? h]
  · rfl

/-- What stands behind an opener and its closer is shorter than the whole text. -/
theorem length_lt_of_cuts {source gap inner span rest : Text}
    (ho : Text.cut? opener source = some (gap, inner))
    (hc : Text.cut? closer inner = some (span, rest)) : rest.length < source.length := by
  simp only [← Text.append_of_cut? ho, ← Text.append_of_cut? hc, List.length_append, opener,
    List.length_cons]
  omega

/-- The pieces of a text, in order: each container behind the plain text before it, and at the end
the plain text behind the last one. -/
def pieces (source : Text) : List Piece :=
  match _ho : Text.cut? opener source with
  | none => [.plain source]
  | some (gap, inner) =>
    match _hc : Text.cut? closer inner with
    | none => [.plain source]
    | some (span, rest) =>
      .plain (innermost gap span).1 :: .slot (innermost gap span).2 :: pieces rest
termination_by source.length
decreasing_by exact length_lt_of_cuts _ho _hc

/-- The pieces of a text make up the text. -/
theorem flatMap_text_pieces (source : Text) : (pieces source).flatMap Piece.text = source := by
  fun_induction pieces source with
  | case1 => simp [Piece.text]
  | case2 => simp [Piece.text]
  | case3 source gap inner ho span rest hc ih =>
    have e := innermost_append gap span
    simp only [List.flatMap_cons, Piece.text, ih, ← Text.append_of_cut? ho,
      ← Text.append_of_cut? hc]
    rw [← List.append_assoc, ← List.append_assoc, ← List.append_assoc, e]
    simp

/-! ## Containers -/

/-- A container with what stands before and behind it. -/
structure Container where
  before : Text
  body : Text
  after : Text
  deriving DecidableEq

namespace Container

/-- The text that the container was found in. -/
def source (c : Container) : Text := c.before ++ opener ++ c.body ++ closer ++ c.after

/-- The text with the container replaced by `value`. -/
def substitute (c : Container) (value : Text) : Text := c.before ++ value ++ c.after

/-- The text from the container on. -/
def remainder (c : Container) : Text := opener ++ c.body ++ closer ++ c.after

/-- The position of the opener, in bytes. -/
def start (c : Container) : Nat := c.before.utf8Length

/-- The position just behind the closer, in bytes. -/
def stop (c : Container) : Nat := (c.before ++ opener ++ c.body ++ closer).utf8Length

theorem before_append_remainder (c : Container) : c.before ++ c.remainder = c.source := by
  simp [remainder, source]

end Container

/-- The containers among `ps`, which stand behind `before`. -/
def containersBehind (before : Text) : List Piece → List Container
  | [] => []
  | .plain t :: ps => containersBehind (before ++ t) ps
  | .slot body :: ps =>
      ⟨before, body, ps.flatMap Piece.text⟩ ::
        containersBehind (before ++ (Piece.slot body).text) ps

/-- All containers of a text, from left to right. -/
def containers (source : Text) : List Container := containersBehind [] (pieces source)

/-- The first container among `ps`, which stand behind `before`. -/
def firstContainerBehind? (before : Text) : List Piece → Option Container
  | [] => none
  | .plain t :: ps => firstContainerBehind? (before ++ t) ps
  | .slot body :: ps => some ⟨before, body, ps.flatMap Piece.text⟩

/-- The first container of a text. -/
def firstContainer? (source : Text) : Option Container := firstContainerBehind? [] (pieces source)

/-- The number of containers of a text. -/
def containerCount (source : Text) : Nat := (pieces source).countP Piece.isSlot

/-- A text is final when it has no container. -/
def isFinal (source : Text) : Bool := containerCount source == 0

theorem length_containersBehind (before : Text) (ps : List Piece) :
    (containersBehind before ps).length = ps.countP Piece.isSlot := by
  induction ps generalizing before with
  | nil => rfl
  | cons p ps ih =>
    cases p with
    | plain t => simp [containersBehind, Piece.isSlot, ih]
    | slot body =>
      rw [containersBehind, List.length_cons, ih, List.countP_cons]
      rfl

@[simp] theorem length_containers (source : Text) :
    (containers source).length = containerCount source :=
  length_containersBehind [] (pieces source)

theorem isFinal_iff (source : Text) : isFinal source = true ↔ containers source = [] := by
  rw [← List.length_eq_zero_iff, length_containers]
  simp [isFinal]

theorem source_of_mem_containersBehind {before : Text} {ps : List Piece} {c : Container}
    (h : c ∈ containersBehind before ps) : c.source = before ++ ps.flatMap Piece.text := by
  induction ps generalizing before with
  | nil => cases h
  | cons p ps ih =>
    cases p with
    | plain t => simpa [Piece.text] using ih h
    | slot body =>
      rcases List.mem_cons.1 h with rfl | h
      · simp [Container.source, Piece.text]
      · simpa [Piece.text] using ih h

/-- A container of a text was found in that text. -/
theorem source_of_mem_containers {source : Text} {c : Container} (h : c ∈ containers source) :
    c.source = source := by
  simpa [flatMap_text_pieces] using source_of_mem_containersBehind h

theorem firstContainerBehind?_eq_head? (before : Text) (ps : List Piece) :
    firstContainerBehind? before ps = (containersBehind before ps).head? := by
  induction ps generalizing before with
  | nil => rfl
  | cons p ps ih =>
    cases p with
    | plain t => exact ih (before ++ t)
    | slot body => rfl

/-- The first container is the one that the list of all containers starts with. -/
theorem firstContainer?_eq_head? (source : Text) :
    firstContainer? source = (containers source).head? :=
  firstContainerBehind?_eq_head? [] (pieces source)

/-! ## Balance -/

/-- Whether the delimiters of a text balance when `depth` openers stand before it. -/
def isBalancedFrom : Nat → Text → Bool
  | depth, '$' :: '{' :: rest => isBalancedFrom (depth + 1) rest
  | 0, '}' :: '$' :: _ => false
  | depth + 1, '}' :: '$' :: rest => isBalancedFrom depth rest
  | depth, _ :: rest => isBalancedFrom depth rest
  | depth, [] => depth == 0

/-- Whether every opener is closed by a later closer and no closer stands unopened. -/
def isBalanced (source : Text) : Bool := isBalancedFrom 0 source

/-! ## Entries -/

/-- Puts a character in front of the first part. -/
def consFirst (c : Char) : List Text → List Text
  | [] => [[c]]
  | part :: parts => (c :: part) :: parts

/-- The parts of a text between the commas outside parentheses and quotes: `depth` parentheses are
open, and `quote` is the quotation mark that is. -/
def splitOuter : Nat → Option Char → Text → List Text
  | _, _, [] => [[]]
  -- Inside quotation marks only the mark that opened them counts.
  | depth, some q, c :: rest =>
      consFirst c (splitOuter depth (if c = q then none else some q) rest)
  | depth, none, c :: rest =>
      if c = '"' ∨ c = '\'' then consFirst c (splitOuter depth (some c) rest)
      else if c = '(' then consFirst c (splitOuter (depth + 1) none rest)
      else if c = ')' then consFirst c (splitOuter (depth - 1) none rest)
      else if c = ',' ∧ depth = 0 then [] :: splitOuter 0 none rest
      else consFirst c (splitOuter depth none rest)

/-- The texts of the entries of `body`: its parts between the outer commas, trimmed, without the
empty ones. -/
def splitEntries (body : Text) : List Text :=
  ((splitOuter 0 none body).map Text.trim).filter fun e => !e.isEmpty

/-- One alternative offered by a container. -/
inductive Entry
  | variable (name : Text)
  | expression (text : Text)
  deriving DecidableEq

/-- An entry is an expression when it starts with a parenthesis. -/
def Entry.ofText (t : Text) : Entry :=
  if t.head? = some '(' then .expression t else .variable t

/-- The entries of a container's body. -/
def entries (body : Text) : List Entry := (splitEntries body).map Entry.ofText

/-! ## Score -/

/-- The number of letters and digits of a text. -/
def alphanumericCount (t : Text) : Nat := t.countP Unicode.isAlphanumeric

/-- The letters and digits of pieces outside containers. -/
def scoreOf : List Piece → Nat
  | [] => 0
  | .plain t :: ps => alphanumericCount t + scoreOf ps
  | .slot _ :: ps => scoreOf ps

/-- The characters that have been filled in: letters and digits outside containers. -/
def fillScore (source : Text) : Nat := scoreOf (pieces source)

/-! ## References -/

/-- The characters that separate the words of an expression. -/
def isWordBoundary (c : Char) : Bool :=
  Unicode.isWhitespace c || c == '(' || c == ')' || c == '"' || c == '\''

/-- Whether `word` is one of the stretches between word boundaries. -/
def hasWord (text word : Text) : Bool := (text.splitOnP isWordBoundary).contains word

/-- Whether an entry refers to a variable: as a bare entry, or as a word of an expression. -/
def Entry.refersTo (name : Text) : Entry → Bool
  | .variable v => v == name
  | .expression text => hasWord text name

/-- Whether some container of a text refers to a variable. -/
def references (source name : Text) : Bool :=
  (containers source).any fun c => (entries c.body).any (·.refersTo name)

example : (containers "$\x7ba $\x7bb\x7d$ c\x7d$".toList).map (·.body) = ["b".toList] := by
  decide +kernel

example : splitEntries " a, (or 'x, y' b) ,".toList = ["a".toList, "(or 'x, y' b)".toList] := by
  decide +kernel

end Template

end Fillout
