import Fillout.Proofs.Search.Asking
import Fillout.Proofs.Search.SurveyTurn
import Fillout.Proofs.Search.Turn

set_option autoImplicit false

/-! # What a search consults

A search goes to the rules for the entries of the containers that it fills, and for nothing else.
This file lists these entries, in the order in which they are taken up: those of the search itself
(`Query.consulted`, `Query.surveyConsulted`) and, between them, those of the searches that it starts
for dates and switches. Such a search is started for each text that a container asks for and that is
neither final nor in the cache (`Query.nestedConsulted`); a `Fillout.Asking` tells which texts these
are (`Asking.asked`).
-/

namespace Fillout

/-- What a computation asks for, each text with the state in which it is asked for. -/
def Asking.asked {α σ : Type} (nested : Nested σ) : Asking α → σ → List (Text × σ)
  | .done _, _ => []
  | .ask source next, state =>
      (source, state) :: (next (nested source state).1).asked nested (nested source state).2

/-- The container of a node that a search fills, by the remainders that have been looked into. -/
def Node.filled? (node : Node) (settled : Settled) : Option Template.Container :=
  if node.left = 0 then none
  else
    (Template.firstContainer? node.text).filter fun c => !settled.covers c.remainder 0 node.left

namespace Query

variable (q : Query)

/-- Looking into a text is filling its container, if it has one to be filled. -/
theorem lookInto_eq (node : Node) (p : Progress) (cache : Cache) :
    q.lookInto node p cache =
      match node.filled? p.settled with
      | none => (none, [], p, cache)
      | some c => q.fillFirst node c p cache := by
  unfold lookInto Node.filled?
  by_cases hl : node.left = 0
  · rw [if_pos hl, if_pos hl]
  · rw [if_neg hl, if_neg hl]
    cases Template.firstContainer? node.text with
    | none => rfl
    | some c =>
        dsimp only [Option.filter]
        by_cases hs : p.settled.covers c.remainder 0 node.left = true
        · rw [if_pos hs, if_neg (by simp [hs])]
        · rw [if_neg hs, if_pos (by simpa using hs)]

/-- The entries that are consulted by the search for a final text that goes on with a stack. -/
def consulted (stack : List Node) (p : Progress) (cache : Cache) : List Template.Entry :=
  match stack with
  | [] => []
  | node :: rest =>
      let r := q.lookInto node p cache
      (if _h : node.left = 0 then []
        else
          match node.filled? p.settled with
          | none => []
          | some c =>
              Template.entries c.body ++
                ((q.stepsAsking c).asked (q.resolveNested (node.left - 1)) cache).flatMap fun x =>
                  if (x.2.lookup x.1).isSome || Template.isFinal x.1 then []
                  else consulted [⟨x.1, node.left - 1⟩] (.start x.1) ((x.1, none) :: x.2)) ++
        match r.1 with
        | some _ => []
        | none => consulted (r.2.1 ++ rest) r.2.2.1 r.2.2.2
termination_by Agenda.mk stack
decreasing_by
  · exact .restart (Node.smaller_of_left (Nat.sub_one_lt _h)) _
  · exact .keep (q.lookInto_smaller node p cache)

/-- The entries that are consulted to resolve a text that a value depends on. -/
def nestedConsulted (left : Nat) (x : Text × Cache) : List Template.Entry :=
  if (x.2.lookup x.1).isSome || Template.isFinal x.1 then []
  else q.consulted [⟨x.1, left⟩] (.start x.1) ((x.1, none) :: x.2)

/-- The entries that are consulted to fill a container, if `left` levels may be opened below it. -/
def containerConsulted (left : Nat) (c : Template.Container) (cache : Cache) :
    List Template.Entry :=
  Template.entries c.body ++
    ((q.stepsAsking c).asked (q.resolveNested left) cache).flatMap (q.nestedConsulted left)

theorem consulted_cons (node : Node) (rest : List Node) (p : Progress) (cache : Cache) :
    q.consulted (node :: rest) p cache =
      (match node.filled? p.settled with
        | none => []
        | some c => q.containerConsulted (node.left - 1) c cache) ++
        match q.lookInto node p cache with
        | (some _, _) => []
        | (none, children, p, cache) => q.consulted (children ++ rest) p cache := by
  rw [consulted]
  have hrest : (match (q.lookInto node p cache).1 with
      | some _ => []
      | none => q.consulted ((q.lookInto node p cache).2.1 ++ rest) (q.lookInto node p cache).2.2.1
          (q.lookInto node p cache).2.2.2) =
      match q.lookInto node p cache with
        | (some _, _) => []
        | (none, children, p, cache) => q.consulted (children ++ rest) p cache := by
    rcases q.lookInto node p cache with ⟨_ | _, _⟩ <;> rfl
  refine congrArg₂ (· ++ ·) ?_ hrest
  by_cases hl : node.left = 0
  · rw [dif_pos hl, Node.filled?, if_pos hl]
  · rw [dif_neg hl]
    rfl

/-- The entries that are consulted to fill the first of the containers that can be filled. -/
def firstConsulted (left : Nat) : List Template.Container → Cache → List Template.Entry
  | [], _ => []
  | c :: cs, cache =>
      let r := q.containerSteps (q.resolveNested left) c cache
      q.containerConsulted left c cache ++ if r.1.isEmpty then firstConsulted left cs r.2 else []

/-- The entries that are consulted to fill each of the containers. -/
def eachConsulted (left : Nat) : List Template.Container → Cache → List Template.Entry
  | [], _ => []
  | c :: cs, cache =>
      q.containerConsulted left c cache ++
        eachConsulted left cs (q.containerSteps (q.resolveNested left) c cache).2

/-- The entries that are consulted by the search for the best text that goes on with a stack. -/
def surveyConsulted (stack : List Node) (s : Survey) (cache : Cache) : List Template.Entry :=
  match stack with
  | [] => []
  | node :: rest =>
      let r := q.surveyInto node s cache
      (if node.left = 0 then []
        else q.firstConsulted (node.left - 1) (Template.containers node.text) cache) ++
        surveyConsulted (r.1 ++ rest) r.2.1 r.2.2
termination_by Agenda.mk stack
decreasing_by exact .keep (q.surveyInto_smaller node s cache)

/-- The entries that are consulted for the values of a variable. -/
def variableConsulted (left : Nat) (key : Text) (cache : Cache) : List Template.Entry :=
  .variable key ::
    ((q.variableAsking key).asked (q.resolveNested left) cache).flatMap (q.nestedConsulted left)

end Query

end Fillout
