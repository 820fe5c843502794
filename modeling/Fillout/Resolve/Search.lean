import Fillout.Resolve.Agenda
import Fillout.Resolve.Candidates

set_option autoImplicit false

/-! # The search for a final text

The search looks into one text after the other and fills the leftmost container of each; the others
are filled further down. All texts that come from one text are checked before the first of them is
looked into.

Three things keep the search small. A text that has been met before is not taken up again. A text
whose depth has used up the limit is left alone. And text to the left of the container that is
filled never changes again, so a remainder is looked into again only if its prefix is better, or
more levels are left, than the last time.
-/

namespace Fillout

/-- For the remainders that have been looked into, the score of the text before it and the number of
levels left the last time, the newest entry first. -/
abbrev Settled := List (Text × Nat × Nat)

/-- Whether a remainder has been looked into with at least this score before it and at least as many
levels left. -/
def Settled.covers (settled : Settled) (remainder : Text) (score left : Nat) : Bool :=
  (settled.lookup remainder).any fun (seenScore, seenLeft) => score ≤ seenScore && left ≤ seenLeft

/-- Where a text came from: the text it was made of, and the rule that supplied the value. -/
structure Origin where
  child : Text
  parent : Text
  rule? : Option RuleId
  deriving DecidableEq

/-- The rules applied on the way to a text, in order. `origins` has the newest entry first, so the
origin of a text is found behind those of the texts made from it. -/
def ruleChain : List Origin → Text → List RuleId
  | [], _ => []
  | o :: older, t =>
      if o.child = t then ruleChain older o.parent ++ o.rule?.toList else ruleChain older t

/-- What a search has met so far. -/
structure Progress where
  visited : List Text
  settled : Settled
  origins : List Origin

/-- A search that starts with a text. -/
def Progress.start (source : Text) : Progress := ⟨[source], [], []⟩

/-- Takes up the new ones among the texts that come from `parent`, in order, up to the first final
one. -/
def Progress.takeUp (parent : Node) : List Candidate → Progress → Option Text × List Node × Progress
  | [], p => (none, [], p)
  | s :: rest, p =>
      if s.value ∈ p.visited then takeUp parent rest p
      else
        let p := { p with
          visited := s.value :: p.visited
          origins := ⟨s.value, parent.text, s.rule?⟩ :: p.origins }
        if Template.isFinal s.value then (some s.value, [], p)
        else
          let (found, nodes, p) := takeUp parent rest p
          (found, parent.child s.value :: nodes, p)

theorem Progress.takeUp_smaller {parent : Node} (h : 0 < parent.left) (steps : List Candidate)
    (p : Progress) : ∀ n ∈ (Progress.takeUp parent steps p).2.1, Node.Smaller n parent := by
  induction steps generalizing p with
  | nil => simp [takeUp]
  | cons s rest ih =>
    intro n hn
    rw [takeUp] at hn
    split at hn
    · exact ih p n hn
    · split at hn
      · cases hn
      · rcases List.mem_cons.1 hn with rfl | hn
        · exact Node.child_smaller h _
        · exact ih _ n hn

namespace Query

variable (q : Query)

/-- Resolves a text that a value depends on, by way of the cache; `search` is the search to use if
the text is not final. While a text is being resolved it counts as having no result. -/
def cached (search : Nested Cache) : Nested Cache := fun source cache =>
  match cache.lookup source with
  | some result => (result, cache)
  | none =>
      let (result, cache) :=
        if Template.isFinal source then (some source, (source, none) :: cache)
        else search source ((source, none) :: cache)
      (result, (source, result) :: cache)

/-- Looks into the texts of a stack until a final text is found. -/
def explore (stack : List Node) (p : Progress) (cache : Cache) :
    Option Text × List Origin × Cache :=
  match stack with
  | [] => (none, p.origins, cache)
  | node :: rest =>
      -- No level may be opened below this text.
      if _h : node.left = 0 then explore rest p cache
      else
        match Template.firstContainer? node.text with
        | none => explore rest p cache
        | some c =>
            -- What stands before the container has no part in whether the rest can be filled.
            if p.settled.covers c.remainder 0 node.left then explore rest p cache
            else
              -- The values of this container may depend on texts one level further down.
              let nested := cached fun source cache =>
                let r := explore [⟨source, node.left - 1⟩] (.start source) cache
                (r.1, r.2.2)
              let r := q.containerSteps nested c cache
              let p := { p with settled := (c.remainder, 0, node.left) :: p.settled }
              let taken := Progress.takeUp node r.1 p
              match taken.1 with
              | some t => (some t, taken.2.2.origins, r.2)
              | none => explore (taken.2.1 ++ rest) taken.2.2 r.2
termination_by Agenda.mk stack
decreasing_by
  · exact .skip _ _
  · exact .skip _ _
  · exact .skip _ _
  · exact .restart (Node.smaller_of_left (Nat.sub_one_lt _h)) _
  · exact .keep (Progress.takeUp_smaller (Nat.pos_of_ne_zero _h) _ _)

/-- Searches for a final text below `source`, of which `left` levels may be opened. -/
def first (source : Text) (left : Nat) (cache : Cache) : Option Text × List Origin × Cache :=
  if Template.isFinal source then (some source, [], cache)
  else q.explore [⟨source, left⟩] (.start source) cache

/-- Resolves a text that a value depends on, when `left` levels may be opened below it. -/
def resolveNested (left : Nat) : Nested Cache :=
  cached fun source cache =>
    let r := q.explore [⟨source, left⟩] (.start source) cache
    (r.1, r.2.2)

end Query

end Fillout
