import Fillout.Resolve.Search

set_option autoImplicit false

/-! # The search for the best text

Where no final text can be reached, the text with the most letters and digits outside containers is
wanted. This search differs from the one for a final text in two points: it goes on to the end, and
a container that cannot be filled is left in place while the next one to its right is filled.
-/

namespace Fillout

/-- The best text found so far, with its score. -/
structure Champion where
  text : Text
  score : Nat

/-- The better of the champion and a text; the champion stays if the scores are equal. -/
def Champion.challenge (champion : Champion) (t : Text) : Champion :=
  let score := Template.fillScore t
  if champion.score < score then ⟨t, score⟩ else champion

/-- What the search for the best text has met so far. -/
structure Survey where
  visited : List Text
  settled : Settled
  champion : Champion

/-- A search that starts with a text. -/
def Survey.start (source : Text) : Survey :=
  ⟨[source], [], ⟨source, Template.fillScore source⟩⟩

/-- Takes up the new ones among the texts that come from `parent`, in order. -/
def Survey.takeUp (parent : Node) : List Candidate → Survey → List Node × Survey
  | [], s => ([], s)
  | c :: rest, s =>
      if c.value ∈ s.visited then takeUp parent rest s
      else
        let s := { s with
          visited := c.value :: s.visited
          champion := s.champion.challenge c.value }
        let (nodes, s) := takeUp parent rest s
        (parent.child c.value :: nodes, s)

theorem Survey.takeUp_smaller {parent : Node} (h : 0 < parent.left) (steps : List Candidate)
    (s : Survey) : ∀ n ∈ (Survey.takeUp parent steps s).1, Node.Smaller n parent := by
  induction steps generalizing s with
  | nil => simp [takeUp]
  | cons c rest ih =>
    intro n hn
    rw [takeUp] at hn
    split at hn
    · exact ih s n hn
    · rcases List.mem_cons.1 hn with rfl | hn
      · exact Node.child_smaller h _
      · exact ih _ n hn

namespace Query

variable (q : Query)

/-- Looks into the texts of a stack, all of them. -/
def survey (stack : List Node) (s : Survey) (cache : Cache) : Survey :=
  match stack with
  | [] => s
  | node :: rest =>
      if _h : node.left = 0 then survey rest s cache
      else
        let found :=
          q.firstStepsBehind? (q.resolveNested (node.left - 1)) [] (Template.pieces node.text) cache
        match found.1 with
        | none => survey rest s found.2
        | some (c, steps) =>
            -- The text before the container is final from here on, and so is its score.
            let score := Template.fillScore c.before
            if s.settled.covers c.remainder score node.left then survey rest s found.2
            else
              let s := { s with settled := (c.remainder, score, node.left) :: s.settled }
              let taken := Survey.takeUp node steps s
              survey (taken.1 ++ rest) taken.2 found.2
termination_by Agenda.mk stack
decreasing_by
  · exact .skip _ _
  · exact .skip _ _
  · exact .skip _ _
  · exact .keep (Survey.takeUp_smaller (Nat.pos_of_ne_zero _h) _ _)

end Query

end Fillout
