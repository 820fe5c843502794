import Fillout.Regex.Parser
import Fillout.Rule.Kind
import Fillout.Template

set_option autoImplicit false

/-! # Rules

A rule offers a value for the variables that match its pattern. The persisted form of a rule is a
`Record`; its pattern is one text with commas between the alternatives. In a rule the record is
normalised (`RuleBody.ofRecord`): the alternatives are listed without repetitions, an empty scope
counts as none, and a threshold is kept only where it has a meaning. Two rules are the same but for
their identifier exactly when their bodies are equal.
-/

namespace Fillout

/-! ## Identifiers -/

/-- The identifier of a rule. Ordinary rules and template rules are numbered apart. -/
inductive RuleId
  | ordinary (n : Nat)
  | template (n : Nat)
  deriving DecidableEq, Repr

namespace RuleId

/-- The number of an identifier. -/
def number : RuleId → Nat
  | ordinary n => n
  | template n => n

/-- Whether an identifier belongs to a template rule. -/
def isTemplate : RuleId → Bool
  | ordinary _ => false
  | template _ => true

/-- Ordinary identifiers come before template identifiers, and smaller numbers before larger
ones. -/
def before : RuleId → RuleId → Bool
  | ordinary m, ordinary n => m < n
  | ordinary _, template _ => true
  | template _, ordinary _ => false
  | template m, template n => m < n

/-- An identifier as it is shown. -/
def text : RuleId → Text
  | ordinary n => 'r' :: Text.ofNat n
  | template n => 't' :: Text.ofNat n

theorem before_irrefl (i : RuleId) : i.before i = false := by
  cases i <;> simp [before]

theorem before_trans {i j k : RuleId} (hij : i.before j = true) (hjk : j.before k = true) :
    i.before k = true := by
  cases i <;> cases j <;> cases k <;> simp_all [before] <;> omega

theorem before_or_eq_or_after (i j : RuleId) : i.before j = true ∨ i = j ∨ j.before i = true := by
  cases i <;> cases j <;> simp [before] <;> omega

end RuleId

/-! ## Owners -/

/-- Who a rule belongs to, which decides how early it is considered. -/
inductive Owner
  /-- Data of the document at hand; such rules come before all others. -/
  | case
  /-- Data of one subject. -/
  | person
  /-- Boilerplate of one subject; such rules are numbered apart. -/
  | template
  /-- Rules that leave no other rule a say for their subject. -/
  | header
  /-- General rules of a profile. -/
  | profile (name : Text)
  deriving DecidableEq

namespace Owner

/-- The tag of an owner. -/
def tag : Owner → Text
  | case => "case".toList
  | person => "person".toList
  | template => "template".toList
  | header => "header".toList
  | profile name => name

/-- The owner with the given tag; any tag without a meaning of its own names a profile. -/
def ofTag (t : Text) : Owner :=
  if t = "case".toList then case
  else if t = "person".toList then person
  else if t = "template".toList then template
  else if t = "header".toList then header
  else profile t

/-- The owner of a rule that names none. -/
def default : Owner := profile "default".toList

@[simp] theorem tag_ofTag (t : Text) : (ofTag t).tag = t := by
  unfold ofTag
  split
  · rename_i h; exact h.symm
  split
  · rename_i h; exact h.symm
  split
  · rename_i h; exact h.symm
  split
  · rename_i h; exact h.symm
  rfl

end Owner

/-! ## Values -/

/-- What a rule offers: a template, or the result of a named provider. -/
inductive RuleValue
  | literal (text : Text)
  | computed (provider : Text)
  deriving DecidableEq

namespace RuleValue

/-- The template of a literal value. -/
def literal? : RuleValue → Option Text
  | literal t => some t
  | computed _ => none

/-- Whether the value is the empty template. -/
def isEmpty : RuleValue → Bool
  | literal t => t.isEmpty
  | computed _ => false

/-- A value as it is shown. -/
def text : RuleValue → Text
  | literal t => t
  | computed p => '<' :: (p ++ ['>'])

end RuleValue

/-! ## Patterns -/

/-- The alternatives of a rule, in order. -/
structure RulePattern where
  alternatives : List Text
  deriving DecidableEq

namespace RulePattern

/-- The first occurrence of each text that is not among `seen`. -/
def firstOccurrences (seen : List Text) : List Text → List Text
  | [] => []
  | t :: ts =>
      if t ∈ seen then firstOccurrences seen ts else t :: firstOccurrences (t :: seen) ts

theorem mem_firstOccurrences {seen ts : List Text} {t : Text} :
    t ∈ firstOccurrences seen ts ↔ t ∈ ts ∧ t ∉ seen := by
  induction ts generalizing seen with
  | nil => simp [firstOccurrences]
  | cons u ts ih =>
    by_cases hu : u ∈ seen
    · rw [firstOccurrences, if_pos hu, ih, List.mem_cons]
      constructor
      · rintro ⟨h, hn⟩
        exact ⟨.inr h, hn⟩
      · rintro ⟨rfl | h, hn⟩
        · exact absurd hu hn
        · exact ⟨h, hn⟩
    · rw [firstOccurrences, if_neg hu, List.mem_cons, ih, List.mem_cons, List.mem_cons]
      constructor
      · rintro (rfl | ⟨h, hn⟩)
        · exact ⟨.inl rfl, hu⟩
        · exact ⟨.inr h, fun hs => hn (.inr hs)⟩
      · rintro ⟨rfl | h, hn⟩
        · exact .inl rfl
        · by_cases htu : t = u
          · exact .inl htu
          · exact .inr ⟨h, fun hs => hs.elim htu hn⟩

theorem nodup_firstOccurrences (seen ts : List Text) : (firstOccurrences seen ts).Nodup := by
  induction ts generalizing seen with
  | nil => simp [firstOccurrences]
  | cons u ts ih =>
    rw [firstOccurrences]
    split
    · exact ih seen
    · refine List.nodup_cons.2 ⟨fun h => ?_, ih _⟩
      exact (mem_firstOccurrences.1 h).2 (by simp)

/-- The alternatives that a text lists between its outer commas. -/
def ofText (source : Text) : RulePattern :=
  ⟨firstOccurrences [] (Template.splitEntries source)⟩

/-- The alternatives with commas between them. -/
def text (p : RulePattern) : Text := Text.join ", ".toList p.alternatives

/-- Whether there are no alternatives. -/
def isEmpty (p : RulePattern) : Bool := p.alternatives.isEmpty

/-- Whether a text is one of the alternatives. -/
def contains (p : RulePattern) (t : Text) : Bool := p.alternatives.contains t

end RulePattern

/-! ## Records and rules -/

/-- The persisted form of a rule. -/
structure Record where
  kind : RuleKind
  pattern : Text
  value : RuleValue := .literal []
  scope : Option (List Text) := none
  threshold : Option UInt64 := none
  owner : Owner := .default
  subject : Option Text := none
  deriving DecidableEq

/-- What a rule says, apart from its identifier. -/
structure RuleBody where
  kind : RuleKind
  pattern : RulePattern
  value : RuleValue
  scope : Option (List Text)
  threshold : Option UInt64
  owner : Owner
  subject : Option Text
  deriving DecidableEq

namespace RuleBody

/-- A record, normalised. -/
def ofRecord (r : Record) : RuleBody where
  kind := r.kind
  pattern := .ofText r.pattern
  value := r.value
  scope := r.scope.filter fun names => !names.isEmpty
  threshold := if r.kind = .similar then r.threshold else none
  owner := r.owner
  subject := r.subject

/-- The record of a body. -/
def toRecord (b : RuleBody) : Record where
  kind := b.kind
  pattern := b.pattern.text
  value := b.value
  scope := b.scope
  threshold := b.threshold
  owner := b.owner
  subject := b.subject

end RuleBody

/-- The programs of the alternatives of a regular-expression rule, in order; an alternative that is
no regular expression has none. Rules of other kinds have no programs. -/
def matchersOf (kind : RuleKind) (p : RulePattern) : List (Option Regex.Program) :=
  if kind = .regex then p.alternatives.map Regex.compile? else []

/-- A rule. -/
structure Rule where
  id : RuleId
  body : RuleBody
  matchers : List (Option Regex.Program)

namespace Rule

/-- The edit distance that a similar name must stay below if the rule does not say otherwise. -/
def defaultThreshold : UInt64 := 5

/-- The rule with a given identifier and body. -/
def ofBody (id : RuleId) (body : RuleBody) : Rule :=
  ⟨id, body, matchersOf body.kind body.pattern⟩

/-- The rule of a record. -/
def ofRecord (id : RuleId) (r : Record) : Rule := ofBody id (.ofRecord r)

/-- The record of a rule. -/
def toRecord (r : Rule) : Record := r.body.toRecord

/-- The threshold in force. -/
def threshold (r : Rule) : UInt64 := r.body.threshold.getD defaultThreshold

/-- Whether the rule belongs to the document at hand. -/
def isCase (r : Rule) : Bool := r.body.owner = .case

/-- The rule with another pattern. -/
def withPattern (r : Rule) (source : Text) : Rule :=
  ofBody r.id { r.body with pattern := .ofText source }

/-- The rule with another value. -/
def withValue (r : Rule) (value : RuleValue) : Rule :=
  { r with body := { r.body with value := value } }

/-- The rule as it is shown. -/
def text (r : Rule) : Text :=
  r.id.text ++ ' ' :: r.body.kind.name ++ " [".toList ++ r.body.pattern.text ++ "] -> ".toList ++
    r.body.value.text ++ " (".toList ++ r.body.owner.tag ++ ")".toList

end Rule

end Fillout
