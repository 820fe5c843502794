import Fillout.Resolve.Search
import Mathlib.Logic.Relation

set_option autoImplicit false

/-! # One turn of the search

`Query.explore` takes the next text off its stack, looks into it, and goes on with what it found.
`Query.lookInto` is what it does with one text, and `explore_cons` says that a search is one turn
after the other. A turn either skips its text or fills the leftmost container (`lookInto_cases`);
nothing else has to be known of `explore`.

What comes of a text is taken up only if it has not been met before. `unseen` lists what is taken
up, and the two lemmas `takeUp_of_find?_none` and `takeUp_of_find?_some` describe `Progress.takeUp`
by it.

A `Stage` is a search between two turns. What holds at one stage and is kept by every turn holds at
all stages that the search passes through (`Passes`), and a search that finds nothing passes through
a stage with an empty stack (`passes_of_explore_eq_none`).
-/

namespace Fillout

/-! ## Taking up -/

/-- The steps to texts that are not among `seen`, the first one to each text. -/
def unseen (seen : List Text) : List Candidate → List Candidate
  | [] => []
  | s :: rest => if s.value ∈ seen then unseen seen rest else s :: unseen (s.value :: seen) rest

theorem mem_of_mem_unseen {seen : List Text} {steps : List Candidate} {s : Candidate}
    (h : s ∈ unseen seen steps) : s ∈ steps ∧ s.value ∉ seen := by
  induction steps generalizing seen with
  | nil => cases h
  | cons u rest ih =>
      rw [unseen] at h
      split at h
      · have := ih h
        exact ⟨List.mem_cons_of_mem u this.1, this.2⟩
      · rename_i hu
        rcases List.mem_cons.1 h with rfl | h
        · exact ⟨List.mem_cons_self, hu⟩
        · have := ih h
          exact ⟨List.mem_cons_of_mem u this.1, fun hs => this.2 (List.mem_cons_of_mem _ hs)⟩

/-- The text of a step has been met before, or an unseen step leads to it. -/
theorem mem_seen_or_unseen {seen : List Text} {steps : List Candidate} {s : Candidate}
    (h : s ∈ steps) : s.value ∈ seen ∨ ∃ u ∈ unseen seen steps, u.value = s.value := by
  induction steps generalizing seen with
  | nil => cases h
  | cons u rest ih =>
      rw [unseen]
      split
      · rename_i hu
        rcases List.mem_cons.1 h with rfl | h
        · exact .inl hu
        · exact ih h
      · rcases List.mem_cons.1 h with rfl | h
        · exact .inr ⟨s, List.mem_cons_self, rfl⟩
        · -- Behind `u` its text counts as seen, and then `u` is the step that leads to it.
          rcases @ih (u.value :: seen) h with hs | ⟨w, hw, he⟩
          · rcases List.mem_cons.1 hs with hs | hs
            · exact .inr ⟨u, List.mem_cons_self, hs.symm⟩
            · exact .inl hs
          · exact .inr ⟨w, List.mem_cons_of_mem u hw, he⟩

/-- An unseen step between others stays between those of them that are unseen. -/
theorem unseen_append_cons {seen : List Text} {l r : List Candidate} {w : Candidate}
    (hseen : w.value ∉ seen) (hl : ∀ u ∈ l, u.value ≠ w.value) :
    ∃ r', unseen seen (l ++ w :: r) = unseen seen l ++ w :: r' := by
  induction l generalizing seen with
  | nil => exact ⟨_, if_neg hseen⟩
  | cons u l ih =>
      obtain ⟨hu, hl⟩ := List.forall_mem_cons.1 hl
      rw [List.cons_append, unseen, unseen]
      by_cases hmem : u.value ∈ seen
      · rw [if_pos hmem, if_pos hmem]
        exact ih hseen hl
      · rw [if_neg hmem, if_neg hmem]
        obtain ⟨r', hr'⟩ := @ih (u.value :: seen)
          (fun hm => (List.mem_cons.1 hm).elim (fun he => hu he.symm) hseen) hl
        exact ⟨r', congrArg (u :: ·) hr'⟩

namespace Progress

/-- The progress after a remainder has been looked into. -/
def settle (p : Progress) (remainder : Text) (left : Nat) : Progress :=
  { p with settled := (remainder, 0, left) :: p.settled }

/-- The progress after a step from the text `parent` has been taken up. -/
def record (parent : Text) (p : Progress) (s : Candidate) : Progress :=
  { p with
    visited := s.value :: p.visited
    origins := ⟨s.value, parent, s.rule?⟩ :: p.origins }

theorem settled_foldl_record (parent : Text) (news : List Candidate) (p : Progress) :
    (news.foldl (record parent) p).settled = p.settled := by
  induction news generalizing p with
  | nil => rfl
  | cons s news ih => exact ih _

theorem visited_foldl_record (parent : Text) (news : List Candidate) (p : Progress) :
    (news.foldl (record parent) p).visited = (news.map Candidate.value).reverse ++ p.visited := by
  induction news generalizing p with
  | nil => rfl
  | cons s news ih =>
      rw [List.foldl_cons, ih]
      simp [record]

theorem takeUp_of_mem {p : Progress} {s : Candidate} (h : s.value ∈ p.visited) (parent : Node)
    (rest : List Candidate) : takeUp parent (s :: rest) p = takeUp parent rest p :=
  if_pos h

theorem takeUp_of_final {p : Progress} {s : Candidate} (h : s.value ∉ p.visited)
    (hf : Template.isFinal s.value) (parent : Node) (rest : List Candidate) :
    takeUp parent (s :: rest) p = (some s.value, [], p.record parent.text s) :=
  (if_neg h).trans (if_pos hf)

theorem takeUp_of_new {p : Progress} {s : Candidate} (h : s.value ∉ p.visited)
    (hf : ¬ Template.isFinal s.value) (parent : Node) (rest : List Candidate) :
    takeUp parent (s :: rest) p =
      ((takeUp parent rest (p.record parent.text s)).1,
        parent.child s.value :: (takeUp parent rest (p.record parent.text s)).2.1,
        (takeUp parent rest (p.record parent.text s)).2.2) :=
  (if_neg h).trans (if_neg hf)

/-- What recording a new text keeps is kept by taking up steps. -/
theorem takeUp_invariant {parent : Node} {P : Progress → Prop}
    (keep : ∀ p s, P p → s.value ∉ p.visited → P (p.record parent.text s)) (steps : List Candidate)
    {p : Progress} (h : P p) : P (takeUp parent steps p).2.2 := by
  induction steps generalizing p with
  | nil => exact h
  | cons s rest ih =>
      by_cases hs : s.value ∈ p.visited
      · rw [takeUp_of_mem hs]
        exact ih h
      · have hrec := keep p s h hs
        by_cases hf : Template.isFinal s.value
        · rw [takeUp_of_final hs hf]
          exact hrec
        · rw [takeUp_of_new hs hf]
          exact ih hrec

/-- Taking up steps forgets no text. -/
theorem mem_visited_takeUp (parent : Node) (steps : List Candidate) {p : Progress} {t : Text}
    (h : t ∈ p.visited) : t ∈ (takeUp parent steps p).2.2.visited :=
  takeUp_invariant (P := fun p => t ∈ p.visited) (fun _ _ ht _ => List.mem_cons_of_mem _ ht) steps h

/-- The nodes that are to be looked into next are children by one of the steps, and so is the final
text, if one is found. -/
theorem exists_step_of_takeUp (parent : Node) (steps : List Candidate) (p : Progress) :
    (∀ n ∈ (takeUp parent steps p).2.1, ∃ s ∈ steps, parent.child s.value = n) ∧
      ∀ t, (takeUp parent steps p).1 = some t →
        Template.isFinal t ∧ ∃ s ∈ steps, s.value = t := by
  induction steps generalizing p with
  | nil => exact ⟨fun n hn => (nomatch hn), fun t ht => nomatch ht⟩
  | cons s rest ih =>
      have hnodes : ∀ p, ∀ n ∈ (takeUp parent rest p).2.1,
          ∃ u ∈ s :: rest, parent.child u.value = n := by
        intro p n hn
        obtain ⟨u, hu, he⟩ := (ih p).1 n hn
        exact ⟨u, List.mem_cons_of_mem s hu, he⟩
      have hfound : ∀ p t, (takeUp parent rest p).1 = some t →
          Template.isFinal t ∧ ∃ u ∈ s :: rest, u.value = t := by
        intro p t ht
        obtain ⟨hf, u, hu, he⟩ := (ih p).2 t ht
        exact ⟨hf, u, List.mem_cons_of_mem s hu, he⟩
      by_cases hs : s.value ∈ p.visited
      · rw [takeUp_of_mem hs]
        exact ⟨hnodes p, hfound p⟩
      · by_cases hf : Template.isFinal s.value
        · rw [takeUp_of_final hs hf]
          refine ⟨fun n hn => (nomatch hn), fun t ht => ?_⟩
          cases ht
          exact ⟨hf, s, List.mem_cons_self, rfl⟩
        · rw [takeUp_of_new hs hf]
          refine ⟨fun n hn => ?_, hfound _⟩
          rcases List.mem_cons.1 hn with rfl | hn
          · exact ⟨s, List.mem_cons_self, rfl⟩
          · exact hnodes _ n hn

/-- If none of the unseen steps leads to a final text, all of them are taken up. -/
theorem takeUp_of_find?_none (parent : Node) {steps : List Candidate} {p : Progress}
    (h : (unseen p.visited steps).find? (fun s => Template.isFinal s.value) = none) :
    takeUp parent steps p =
      (none, (unseen p.visited steps).map fun s => parent.child s.value,
        (unseen p.visited steps).foldl (record parent.text) p) := by
  induction steps generalizing p with
  | nil => rfl
  | cons s rest ih =>
      rw [unseen] at h ⊢
      by_cases hs : s.value ∈ p.visited
      · rw [if_pos hs] at h ⊢
        rw [takeUp_of_mem hs]
        exact ih h
      · rw [if_neg hs] at h ⊢
        obtain ⟨hf, hrest⟩ := List.forall_mem_cons.1 (List.find?_eq_none.1 h)
        rw [takeUp_of_new hs hf, ih (p := p.record parent.text s) (List.find?_eq_none.2 hrest)]
        rfl

/-- If one of the unseen steps leads to a final text, the first such text is found, and the steps
are taken up as far as this one. -/
theorem takeUp_of_find?_some (parent : Node) {steps : List Candidate} {p : Progress}
    {s : Candidate}
    (h : (unseen p.visited steps).find? (fun s => Template.isFinal s.value) = some s) :
    ∃ news : List Candidate, (∀ u ∈ news, u ∈ unseen p.visited steps) ∧
      takeUp parent steps p =
        (some s.value, news.map fun s => parent.child s.value,
          (news.foldl (record parent.text) p).record parent.text s) := by
  induction steps generalizing p with
  | nil => cases h
  | cons u rest ih =>
      rw [unseen] at h ⊢
      by_cases hu : u.value ∈ p.visited
      · rw [if_pos hu] at h ⊢
        rw [takeUp_of_mem hu]
        exact ih h
      · rw [if_neg hu] at h ⊢
        by_cases hf : Template.isFinal u.value
        · rw [List.find?_cons, hf] at h
          cases h
          exact ⟨[], (fun _ hm => nomatch hm), takeUp_of_final hu hf parent rest⟩
        · -- `u` is recorded on the way to the final text.
          rw [List.find?_cons, (Bool.not_eq_true _).mp hf] at h
          obtain ⟨news, hnews, hp⟩ := ih (p := p.record parent.text u) h
          refine ⟨u :: news, fun w hw => ?_, ?_⟩
          · rcases List.mem_cons.1 hw with rfl | hw
            · exact List.mem_cons_self
            · exact List.mem_cons_of_mem u (hnews w hw)
          · rw [takeUp_of_new hu hf, hp]
            rfl

end Progress

/-- What a remainder is looked up with when the numbers of levels are counted in another way. -/
theorem Settled.lookup_map (f : Nat → Nat) (settled : Settled) (remainder : Text) :
    List.lookup remainder (settled.map fun x => (x.1, x.2.1, f x.2.2)) =
      (settled.lookup remainder).map fun seen => (seen.1, f seen.2) := by
  induction settled with
  | nil => rfl
  | cons x settled ih =>
      obtain ⟨t, score, left⟩ := x
      rw [List.map_cons, List.lookup_cons, List.lookup_cons]
      dsimp only
      split
      · rfl
      · exact ih

/-! ## Turns -/

namespace Query

variable (q : Query)

/-- The texts that filling the container `c` of a node leads to. The values may depend on texts one
level further down. -/
def stepsFrom (node : Node) (c : Template.Container) (cache : Cache) : List Candidate × Cache :=
  q.containerSteps (q.resolveNested (node.left - 1)) c cache

/-- Fills the container `c` of a node: the first final text among those this leads to, the nodes
that are to be looked into next, and the new progress and cache. -/
def fillFirst (node : Node) (c : Template.Container) (p : Progress) (cache : Cache) :
    Option Text × List Node × Progress × Cache :=
  let r := q.stepsFrom node c cache
  let taken := Progress.takeUp node r.1 (p.settle c.remainder node.left)
  (taken.1, taken.2.1, taken.2.2, r.2)

theorem fillFirst_of_find?_none {node : Node} {c : Template.Container} {p : Progress}
    {cache : Cache} (h : (unseen p.visited (q.stepsFrom node c cache).1).find?
      (fun s => Template.isFinal s.value) = none) :
    q.fillFirst node c p cache =
      (none, (unseen p.visited (q.stepsFrom node c cache).1).map fun s => node.child s.value,
        (unseen p.visited (q.stepsFrom node c cache).1).foldl (Progress.record node.text)
          (p.settle c.remainder node.left), (q.stepsFrom node c cache).2) := by
  have ht := Progress.takeUp_of_find?_none node
    (p := p.settle c.remainder node.left) h
  unfold fillFirst
  dsimp only
  rw [ht]
  rfl

theorem fillFirst_of_find?_some {node : Node} {c : Template.Container} {p : Progress}
    {cache : Cache} {s : Candidate} (h : (unseen p.visited (q.stepsFrom node c cache).1).find?
      (fun s => Template.isFinal s.value) = some s) :
    ∃ news : List Candidate, (∀ u ∈ news, u ∈ unseen p.visited (q.stepsFrom node c cache).1) ∧
      q.fillFirst node c p cache =
        (some s.value, news.map fun s => node.child s.value,
          (news.foldl (Progress.record node.text) (p.settle c.remainder node.left)).record
            node.text s,
          (q.stepsFrom node c cache).2) := by
  obtain ⟨news, hnews, ht⟩ := Progress.takeUp_of_find?_some node
    (p := p.settle c.remainder node.left) h
  refine ⟨news, hnews, ?_⟩
  unfold fillFirst
  dsimp only
  rw [ht]

/-- Looks into one text. -/
def lookInto (node : Node) (p : Progress) (cache : Cache) :
    Option Text × List Node × Progress × Cache :=
  if node.left = 0 then (none, [], p, cache)
  else
    match Template.firstContainer? node.text with
    | none => (none, [], p, cache)
    | some c =>
        if p.settled.covers c.remainder 0 node.left then (none, [], p, cache)
        else q.fillFirst node c p cache

/-- Why a text is skipped: its levels are used up, it has no container, or what remains of it has
been looked into before. -/
def Skips (node : Node) (p : Progress) : Prop :=
  node.left = 0 ∨ Template.firstContainer? node.text = none ∨
    ∃ c, Template.firstContainer? node.text = some c ∧ p.settled.covers c.remainder 0 node.left

/-- A turn skips its text, or it fills the leftmost container. -/
theorem lookInto_cases (node : Node) (p : Progress) (cache : Cache) :
    (Skips node p ∧ q.lookInto node p cache = (none, [], p, cache)) ∨
      ∃ c, 0 < node.left ∧ Template.firstContainer? node.text = some c ∧
        ¬ p.settled.covers c.remainder 0 node.left ∧
        q.lookInto node p cache = q.fillFirst node c p cache := by
  unfold lookInto Skips
  by_cases hl : node.left = 0
  · exact .inl ⟨.inl hl, if_pos hl⟩
  · rw [if_neg hl]
    cases hc : Template.firstContainer? node.text with
    | none => exact .inl ⟨.inr (.inl rfl), rfl⟩
    | some c =>
        by_cases hs : p.settled.covers c.remainder 0 node.left
        · exact .inl ⟨.inr (.inr ⟨c, rfl, hs⟩), if_pos hs⟩
        · exact .inr ⟨c, Nat.pos_of_ne_zero hl, rfl, hs, if_neg hs⟩

/-- The nodes that a turn puts on the stack are smaller than the one it has looked into. -/
theorem lookInto_smaller (node : Node) (p : Progress) (cache : Cache) :
    ∀ n ∈ (q.lookInto node p cache).2.1, Node.Smaller n node := by
  intro n hn
  rcases q.lookInto_cases node p cache with ⟨-, h⟩ | ⟨c, hl, -, -, h⟩
  · rw [h] at hn
    cases hn
  · rw [h] at hn
    exact Progress.takeUp_smaller hl _ _ n hn

/-- Looking into a text forgets no text. -/
theorem mem_visited_of_lookInto {node : Node} {p p' : Progress} {cache cache' : Cache}
    {found : Option Text} {children : List Node}
    (hl : q.lookInto node p cache = (found, children, p', cache')) {t : Text}
    (h : t ∈ p.visited) : t ∈ p'.visited := by
  rcases q.lookInto_cases node p cache with ⟨-, he⟩ | ⟨c, -, -, -, he⟩
  · rw [he] at hl
    cases hl
    exact h
  · rw [he] at hl
    cases hl
    exact Progress.mem_visited_takeUp node _ h

@[simp] theorem explore_nil (p : Progress) (cache : Cache) :
    q.explore [] p cache = (none, p.origins, cache) := by
  rw [explore]

/-- A search looks into the next text and goes on with the nodes that it got from it. -/
theorem explore_cons (node : Node) (rest : List Node) (p : Progress) (cache : Cache) :
    q.explore (node :: rest) p cache =
      match q.lookInto node p cache with
      | (some t, _, p, cache) => (some t, p.origins, cache)
      | (none, children, p, cache) => q.explore (children ++ rest) p cache := by
  rw [explore]
  unfold lookInto
  by_cases hl : node.left = 0
  · rw [dif_pos hl, if_pos hl]
    rfl
  · rw [dif_neg hl, if_neg hl]
    cases hc : Template.firstContainer? node.text with
    | none => rfl
    | some c =>
        by_cases hs : p.settled.covers c.remainder 0 node.left
        · simp only [if_pos hs, List.nil_append]
        · simp only [if_neg hs]
          unfold fillFirst stepsFrom resolveNested Progress.settle
          dsimp only
          split <;> rename_i ht <;> rw [ht]

/-! ## Stages -/

/-- A search between two turns. -/
structure Stage where
  stack : List Node
  progress : Progress
  cache : Cache

/-- The stage at which the search for a final text below `source` starts. -/
def Stage.start (source : Text) (left : Nat) (cache : Cache) : Stage :=
  ⟨[⟨source, left⟩], .start source, cache⟩

/-- The search goes from one stage to the next: a turn has found no final text. -/
inductive Turn : Stage → Stage → Prop
  | mk {node : Node} {rest children : List Node} {p p' : Progress} {cache cache' : Cache}
      (h : q.lookInto node p cache = (none, children, p', cache')) :
      Turn ⟨node :: rest, p, cache⟩ ⟨children ++ rest, p', cache'⟩

/-- The search gets from one stage to another in any number of turns. -/
def Passes : Stage → Stage → Prop := Relation.ReflTransGen q.Turn

/-- What every turn keeps is kept by a whole search. -/
theorem Passes.invariant {q : Query} {P : Stage → Prop} {a b : Stage}
    (keep : ∀ {a b}, P a → q.Turn a b → P b) (run : q.Passes a b) (h : P a) : P b := by
  induction run with
  | refl => exact h
  | tail _ turn ih => exact keep ih turn

/-- No text that has been met is forgotten. -/
theorem Passes.mem_visited {q : Query} {a b : Stage} (run : q.Passes a b) {t : Text}
    (h : t ∈ a.progress.visited) : t ∈ b.progress.visited := by
  refine run.invariant (P := fun b => t ∈ b.progress.visited) ?_ h
  rintro _ _ ht ⟨hl⟩
  exact q.mem_visited_of_lookInto hl ht

/-- A search goes on until its stack is empty or a turn finds a final text. -/
theorem explore_passes (stack : List Node) (p : Progress) (cache : Cache) :
    (∃ p' cache', q.Passes ⟨stack, p, cache⟩ ⟨[], p', cache'⟩ ∧
      q.explore stack p cache = (none, p'.origins, cache')) ∨
    ∃ node rest p' cache' t children p'' cache'',
      q.Passes ⟨stack, p, cache⟩ ⟨node :: rest, p', cache'⟩ ∧
        q.lookInto node p' cache' = (some t, children, p'', cache'') ∧
        q.explore stack p cache = (some t, p''.origins, cache'') := by
  induction hs : Agenda.mk stack using Agenda.wellFounded.induction generalizing stack p cache with
  | _ a ih =>
    subst hs
    cases stack with
    | nil => exact .inl ⟨p, cache, .refl, q.explore_nil p cache⟩
    | cons node rest =>
        rw [explore_cons]
        split
        · rename_i t children p' cache' hl
          exact .inr ⟨node, rest, p, cache, t, children, p', cache', .refl, hl, rfl⟩
        · rename_i children p' cache' hl
          -- The children are smaller than the node whose place they take.
          have hsmall : Agenda.Smaller ⟨children ++ rest⟩ ⟨node :: rest⟩ :=
            .keep fun n hn => q.lookInto_smaller node p cache n (by rw [hl]; exact hn)
          rcases ih _ hsmall (children ++ rest) p' cache' rfl with
            ⟨p'', cache'', hp, he⟩ | ⟨n, r, p₁, cache₁, t, cs, p₂, cache₂, hp, hn, he⟩
          · exact .inl ⟨p'', cache'', .head (.mk hl) hp, he⟩
          · exact .inr ⟨n, r, p₁, cache₁, t, cs, p₂, cache₂, .head (.mk hl) hp, hn, he⟩

/-- A search that finds nothing gets to the end of its stack. -/
theorem passes_of_explore_eq_none {stack : List Node} {p : Progress} {cache : Cache}
    (h : (q.explore stack p cache).1 = none) :
    ∃ p' cache', q.Passes ⟨stack, p, cache⟩ ⟨[], p', cache'⟩ := by
  rcases q.explore_passes stack p cache with
    ⟨p', cache', hp, -⟩ | ⟨_, _, _, _, _, _, _, _, _, _, he⟩
  · exact ⟨p', cache', hp⟩
  · rw [he] at h
    cases h

/-- If the search for a final text below `source` returns nothing, `source` is not final, and the
search gets to the end of its stack. -/
theorem passes_of_first_eq_none {source : Text} {left : Nat} {cache : Cache}
    (h : (q.first source left cache).1 = none) :
    ¬ Template.isFinal source ∧
      ∃ p' cache', q.Passes (.start source left cache) ⟨[], p', cache'⟩ := by
  unfold first at h
  split at h
  · cases h
  · exact ⟨‹_›, passes_of_explore_eq_none q h⟩

end Query

end Fillout
