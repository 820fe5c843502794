import Fillout.Resolve.Best

set_option autoImplicit false

/-! # One turn of the search for the best text

`Query.survey` takes the next text off its stack, looks into it, and goes on with what it found, to
the end of the stack. `Query.surveyInto` is what it does with one text, and `survey_cons` says that
a search is one turn after the other.

The search leaves a remainder alone if `Settled.covers` says so. `Query.surveyBy` is the search with
any other test in the place of this one: with `SkipTest.never` it looks into every text that it has
not met before. `surveyBy_covers` says that `survey` is one of these searches.
-/

namespace Fillout

namespace Survey

/-- The survey after a text has been taken up. -/
def record (s : Survey) (t : Text) : Survey :=
  { s with
    visited := t :: s.visited
    champion := s.champion.challenge t }

/-- The survey after a remainder has been looked into. -/
def settle (s : Survey) (remainder : Text) (score left : Nat) : Survey :=
  { s with settled := (remainder, score, left) :: s.settled }

theorem takeUp_of_mem {s : Survey} {c : Candidate} (h : c.value ∈ s.visited) (parent : Node)
    (rest : List Candidate) : takeUp parent (c :: rest) s = takeUp parent rest s :=
  if_pos h

theorem takeUp_of_new {s : Survey} {c : Candidate} (h : c.value ∉ s.visited) (parent : Node)
    (rest : List Candidate) :
    takeUp parent (c :: rest) s =
      (parent.child c.value :: (takeUp parent rest (s.record c.value)).1,
        (takeUp parent rest (s.record c.value)).2) :=
  if_neg h

end Survey

/-- A test for the remainders that are left alone: by the remainders that have been looked into, for
a remainder, the score of the text before it and the number of levels left. -/
abbrev SkipTest := Settled → Text → Nat → Nat → Bool

/-- No remainder is left alone. -/
def SkipTest.never : SkipTest := fun _ _ _ _ => false

namespace Query

variable (q : Query)

/-- Looks into one text, with the test `skips` for the remainders that are left alone: the nodes
that are to be looked into next, the new survey and cache. -/
def surveyIntoBy (skips : SkipTest) (node : Node) (s : Survey) (cache : Cache) :
    List Node × Survey × Cache :=
  if node.left = 0 then ([], s, cache)
  else
    match q.firstSteps? (q.resolveNested (node.left - 1)) (Template.containers node.text) cache with
    | (none, cache) => ([], s, cache)
    | (some (c, steps), cache) =>
        let score := Template.fillScore c.before
        if skips s.settled c.remainder score node.left then ([], s, cache)
        else
          let taken := Survey.takeUp node steps (s.settle c.remainder score node.left)
          (taken.1, taken.2, cache)

/-- The nodes that a turn puts on the stack are smaller than the one it has looked into. -/
theorem surveyIntoBy_smaller (skips : SkipTest) (node : Node) (s : Survey) (cache : Cache) :
    ∀ n ∈ (q.surveyIntoBy skips node s cache).1, Node.Smaller n node := by
  intro n hn
  unfold surveyIntoBy at hn
  by_cases hl : node.left = 0
  · rw [if_pos hl] at hn
    cases hn
  · rw [if_neg hl] at hn
    split at hn
    · cases hn
    · dsimp only at hn
      split at hn
      · cases hn
      · exact Survey.takeUp_smaller (Nat.pos_of_ne_zero hl) _ _ n hn

/-- Looks into one text in the search for the best text. -/
def surveyInto (node : Node) (s : Survey) (cache : Cache) : List Node × Survey × Cache :=
  q.surveyIntoBy Settled.covers node s cache

theorem surveyInto_smaller (node : Node) (s : Survey) (cache : Cache) :
    ∀ n ∈ (q.surveyInto node s cache).1, Node.Smaller n node :=
  q.surveyIntoBy_smaller Settled.covers node s cache

@[simp] theorem survey_nil (s : Survey) (cache : Cache) : q.survey [] s cache = s := by
  rw [survey]

/-- A search looks into the next text and goes on with the nodes that it got from it. -/
theorem survey_cons (node : Node) (rest : List Node) (s : Survey) (cache : Cache) :
    q.survey (node :: rest) s cache =
      match q.surveyInto node s cache with
      | (children, s, cache) => q.survey (children ++ rest) s cache := by
  rw [survey]
  unfold surveyInto surveyIntoBy
  by_cases hl : node.left = 0
  · rw [dif_pos hl, if_pos hl]
    rfl
  · have hc : Template.containersBehind [] (Template.pieces node.text) =
        Template.containers node.text := rfl
    -- `survey` looks for containers while it goes through the pieces.
    rw [dif_neg hl, if_neg hl]
    dsimp only
    rw [firstStepsBehind?_eq, hc]
    rcases q.firstSteps? _ (Template.containers node.text) cache with ⟨_ | ⟨c, steps⟩, cache'⟩
    · rfl
    · dsimp only
      split <;> rfl

/-- Looks into the texts of a stack, with the test `skips` for the remainders that are left
alone. -/
def surveyBy (skips : SkipTest) (stack : List Node) (s : Survey) (cache : Cache) : Survey :=
  match stack with
  | [] => s
  | node :: rest =>
      let r := q.surveyIntoBy skips node s cache
      surveyBy skips (r.1 ++ rest) r.2.1 r.2.2
termination_by Agenda.mk stack
decreasing_by exact .keep (q.surveyIntoBy_smaller skips node s cache)

theorem surveyBy_covers (stack : List Node) (s : Survey) (cache : Cache) :
    q.surveyBy Settled.covers stack s cache = q.survey stack s cache := by
  induction ha : Agenda.mk stack using Agenda.wellFounded.induction generalizing stack s cache with
  | _ a ih =>
    subst ha
    cases stack with
    | nil => rw [surveyBy, survey_nil]
    | cons node rest =>
        rw [surveyBy, survey_cons]
        exact ih _ (.keep (q.surveyInto_smaller node s cache)) _ _ _ rfl

/-- Whether no turn of a search meets the limit: a text that has no levels left is final. -/
def staysWithin (skips : SkipTest) (stack : List Node) (s : Survey) (cache : Cache) : Bool :=
  match stack with
  | [] => true
  | node :: rest =>
      let r := q.surveyIntoBy skips node s cache
      (Template.isFinal node.text || node.left != 0) && staysWithin skips (r.1 ++ rest) r.2.1 r.2.2
termination_by Agenda.mk stack
decreasing_by exact .keep (q.surveyIntoBy_smaller skips node s cache)

/-- A search never meets the limit if its nodes have a property that the children of a node inherit,
and nodes that have it have levels left. -/
theorem staysWithin_of_forall {q : Query} {skips : SkipTest} {P : Node → Prop}
    (hleft : ∀ node, P node → node.left ≠ 0)
    (keep : ∀ node s cache, P node → ∀ n ∈ (q.surveyIntoBy skips node s cache).1, P n)
    {stack : List Node} (h : ∀ n ∈ stack, P n) (s : Survey) (cache : Cache) :
    q.staysWithin skips stack s cache = true := by
  induction ha : Agenda.mk stack using Agenda.wellFounded.induction generalizing stack s cache with
  | _ a ih =>
    subst ha
    cases stack with
    | nil => rw [staysWithin]
    | cons node rest =>
        obtain ⟨hnode, hrest⟩ := List.forall_mem_cons.1 h
        rw [staysWithin, Bool.and_eq_true, Bool.or_eq_true, bne_iff_ne]
        refine ⟨.inr (hleft node hnode), ?_⟩
        exact ih _ (.keep (q.surveyIntoBy_smaller skips node s cache))
          (List.forall_mem_append.2 ⟨keep node s cache hnode, hrest⟩) _ _ rfl

/-- What every turn that does not meet the limit keeps is kept by a whole search that never meets
it. -/
theorem surveyBy_invariant {q : Query} {skips : SkipTest} {P : List Node → Survey → Prop}
    (keep : ∀ {node rest s cache}, P (node :: rest) s →
      (Template.isFinal node.text ∨ node.left ≠ 0) →
      P ((q.surveyIntoBy skips node s cache).1 ++ rest) (q.surveyIntoBy skips node s cache).2.1)
    {stack : List Node} {s : Survey} {cache : Cache}
    (hwithin : q.staysWithin skips stack s cache = true) (h : P stack s) :
    P [] (q.surveyBy skips stack s cache) := by
  induction ha : Agenda.mk stack using Agenda.wellFounded.induction generalizing stack s cache with
  | _ a ih =>
    subst ha
    cases stack with
    | nil =>
        rw [surveyBy]
        exact h
    | cons node rest =>
        rw [staysWithin, Bool.and_eq_true, Bool.or_eq_true, bne_iff_ne] at hwithin
        rw [surveyBy]
        exact ih _ (.keep (q.surveyIntoBy_smaller skips node s cache)) hwithin.2
          (keep h hwithin.1) rfl

end Query

end Fillout
