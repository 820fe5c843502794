import Fillout.Proofs.Search.Turn

set_option autoImplicit false

/-! # Where texts came from

A search records for every text that it takes up which text it was made of. Parents are recorded
before their children, no text is recorded twice, and the text that the search started with is not
recorded as a child (`Ordered`, kept by every turn). So the way from a text back to the start, from
one parent to the next, comes to an end, and meets the rules that `ruleChain` lists
(`rulesBack_eq_ruleChain`).
-/

namespace Fillout

/-- The newest entry of the text `t`. -/
def originOf? (origins : List Origin) (t : Text) : Option Origin :=
  origins.find? fun o => o.child = t

/-- The rules on the way from a text back to the start, in the order of their application. In each
of at most `fuel` steps the origin of the text is looked up among all origins. -/
def rulesBack? (origins : List Origin) : Nat → Text → Option (List RuleId)
  | 0, _ => none
  | fuel + 1, t =>
      match originOf? origins t with
      | none => some []
      | some o => (rulesBack? origins fuel o.parent).map (· ++ o.rule?.toList)

/-- Each entry, the newest first, is for a text that older entries do not mention. -/
inductive Ordered : List Origin → Prop
  | nil : Ordered []
  | cons {o : Origin} {older : List Origin} (hself : o.parent ≠ o.child)
      (hnew : ∀ x ∈ older, x.child ≠ o.child ∧ x.parent ≠ o.child) (ho : Ordered older) :
      Ordered (o :: older)

theorem Ordered.of_append {newer older : List Origin} (h : Ordered (newer ++ older)) :
    Ordered older := by
  induction newer with
  | nil => exact h
  | cons o newer ih =>
      cases h with
      | cons _ _ ho => exact ih ho

/-- A newer entry is for a text that older entries do not mention. -/
theorem Ordered.ne_of_newer {newer older : List Origin} (h : Ordered (newer ++ older))
    {o x : Origin} (ho : o ∈ newer) (hx : x ∈ older) : x.child ≠ o.child ∧ x.parent ≠ o.child := by
  induction newer with
  | nil => cases ho
  | cons u newer ih =>
      cases h with
      | cons _ hnew hu =>
          rcases List.mem_cons.1 ho with rfl | ho
          · exact hnew x (List.mem_append_right newer hx)
          · exact ih hu ho

theorem originOf?_append {newer older : List Origin} {t : Text} (h : ∀ o ∈ newer, o.child ≠ t) :
    originOf? (newer ++ older) t = originOf? older t := by
  have hnone : newer.find? (fun o => decide (o.child = t)) = none :=
    List.find?_eq_none.2 fun o ho => by simpa using h o ho
  unfold originOf?
  rw [List.find?_append, hnone, Option.none_or]

/-- Looking origins up among all entries gives the rules that going through the entries from the
newest to the oldest gives. -/
theorem rulesBack?_append {newer older : List Origin} (hord : Ordered (newer ++ older)) {t : Text}
    (ht : ∀ o ∈ newer, o.child ≠ t) {fuel : Nat} (hf : older.length < fuel) :
    rulesBack? (newer ++ older) fuel t = some (ruleChain older t) := by
  induction older generalizing newer t fuel with
  | nil =>
      cases fuel with
      | zero => cases hf
      | succ fuel =>
          rw [rulesBack?, originOf?_append ht]
          rfl
  | cons o older ih =>
      -- From here on `o` counts as newer, whether it is the entry of `t` or not.
      have hassoc : newer ++ o :: older = (newer ++ [o]) ++ older := by simp
      by_cases ho : o.child = t
      · cases fuel with
        | zero => cases hf
        | succ fuel =>
            have hfound : originOf? (newer ++ o :: older) t = some o := by
              rw [originOf?_append ht, originOf?, List.find?_cons_of_pos (by simpa using ho)]
            -- So the entry of the parent is older than `o`.
            have hparent : ∀ x ∈ newer ++ [o], x.child ≠ o.parent := by
              intro x hx
              rcases List.mem_append.1 hx with hx | hx
              · exact (hord.ne_of_newer hx List.mem_cons_self).2.symm
              · rw [List.mem_singleton.1 hx]
                cases hord.of_append with
                | cons hself _ _ => exact hself.symm
            have hback := ih (hassoc ▸ hord) hparent
              (Nat.lt_of_succ_lt_succ (by simpa using hf))
            calc rulesBack? (newer ++ o :: older) (fuel + 1) t
                = (rulesBack? (newer ++ o :: older) fuel o.parent).map (· ++ o.rule?.toList) := by
                  rw [rulesBack?, hfound]
              _ = some (ruleChain older o.parent ++ o.rule?.toList) := by
                  rw [hassoc, hback, Option.map_some]
              _ = some (ruleChain (o :: older) t) := by
                  rw [ruleChain, if_pos ho]
      · have hnewer : ∀ x ∈ newer ++ [o], x.child ≠ t := by
          intro x hx
          rcases List.mem_append.1 hx with hx | hx
          · exact ht x hx
          · rw [List.mem_singleton.1 hx]
            exact ho
        rw [ruleChain, if_neg ho, hassoc]
        exact ih (hassoc ▸ hord) hnewer (Nat.lt_of_succ_lt (by simpa using hf))

theorem rulesBack_eq_ruleChain {origins : List Origin} (h : Ordered origins) (t : Text) {fuel : Nat}
    (hf : origins.length < fuel) : rulesBack? origins fuel t = some (ruleChain origins t) :=
  rulesBack?_append (show Ordered ([] ++ origins) from h) (fun _ ho => nomatch ho) hf

/-! ## The origins of a search -/

/-- The origins are ordered, and all texts in them have been met. -/
structure Progress.Orderly (p : Progress) : Prop where
  ordered : Ordered p.origins
  met : ∀ o ∈ p.origins, o.child ∈ p.visited ∧ o.parent ∈ p.visited

theorem Progress.Orderly.record {p : Progress} (h : p.Orderly) {parent : Text}
    (hp : parent ∈ p.visited) {s : Candidate} (hs : s.value ∉ p.visited) :
    (p.record parent s).Orderly := by
  have hne : ∀ t ∈ p.visited, t ≠ s.value := fun t ht he => hs (he ▸ ht)
  constructor
  · refine .cons (hne _ hp) (fun x hx => ?_) h.ordered
    obtain ⟨hchild, hparent⟩ := h.met x hx
    exact ⟨hne _ hchild, hne _ hparent⟩
  · intro o ho
    rcases List.mem_cons.1 ho with rfl | ho
    · exact ⟨List.mem_cons_self, List.mem_cons_of_mem _ hp⟩
    · obtain ⟨hchild, hparent⟩ := h.met o ho
      exact ⟨List.mem_cons_of_mem _ hchild, List.mem_cons_of_mem _ hparent⟩

/-- Taking up the steps from a text that has been met keeps the origins ordered, and the nodes that
are to be looked into next have been met. -/
theorem Progress.Orderly.takeUp {p : Progress} (h : p.Orderly) {parent : Node}
    (hp : parent.text ∈ p.visited) (steps : List Candidate) :
    (Progress.takeUp parent steps p).2.2.Orderly ∧
      ∀ n ∈ (Progress.takeUp parent steps p).2.1,
        n.text ∈ (Progress.takeUp parent steps p).2.2.visited := by
  induction steps generalizing p with
  | nil => exact ⟨h, fun n hn => nomatch hn⟩
  | cons s rest ih =>
      by_cases hs : s.value ∈ p.visited
      · rw [Progress.takeUp_of_mem hs]
        exact ih h hp
      · have hrec := h.record hp hs
        by_cases hf : Template.isFinal s.value
        · rw [Progress.takeUp_of_final hs hf]
          exact ⟨hrec, fun n hn => nomatch hn⟩
        · obtain ⟨horder, hnodes⟩ := ih hrec (List.mem_cons_of_mem _ hp)
          rw [Progress.takeUp_of_new hs hf]
          refine ⟨horder, fun n hn => ?_⟩
          rcases List.mem_cons.1 hn with rfl | hn
          · -- The node was met when it was recorded, before the rest was taken up.
            exact Progress.mem_visited_takeUp parent rest List.mem_cons_self
          · exact hnodes n hn

namespace Query

variable {q : Query}

/-- Looking into a text that has been met keeps the origins ordered. -/
theorem lookInto_orderly {node : Node} {p : Progress} (h : p.Orderly) (hp : node.text ∈ p.visited)
    (cache : Cache) :
    (q.lookInto node p cache).2.2.1.Orderly ∧
      ∀ n ∈ (q.lookInto node p cache).2.1, n.text ∈ (q.lookInto node p cache).2.2.1.visited := by
  rcases q.lookInto_cases node p cache with ⟨-, hl⟩ | ⟨c, -, -, -, hl⟩
  · rw [hl]
    exact ⟨h, fun n hn => nomatch hn⟩
  · rw [hl]
    have hsettled : (p.settle c.remainder node.left).Orderly := ⟨h.ordered, h.met⟩
    exact hsettled.takeUp hp _

/-- At all stages of a search the origins are ordered, and the texts on the stack have been met. -/
theorem passes_orderly {source : Text} {left : Nat} {cache : Cache} {b : Stage}
    (run : q.Passes (.start source left cache) b) :
    b.progress.Orderly ∧ ∀ n ∈ b.stack, n.text ∈ b.progress.visited := by
  refine run.invariant
    (P := fun b => b.progress.Orderly ∧ ∀ n ∈ b.stack, n.text ∈ b.progress.visited)
    ?_ ⟨⟨.nil, fun o ho => nomatch ho⟩, fun n hn => ?_⟩
  · rintro _ _ ⟨horder, hstack⟩ ⟨hl⟩
    obtain ⟨horder', hnodes⟩ := lookInto_orderly horder (hstack _ List.mem_cons_self) _
    rw [hl] at horder' hnodes
    refine ⟨horder', fun n hn => ?_⟩
    rcases List.mem_append.1 hn with hn | hn
    · exact hnodes n hn
    · -- What was below on the stack had been met before the turn.
      exact q.mem_visited_of_lookInto hl (hstack n (List.mem_cons_of_mem _ hn))
  · rw [List.mem_singleton.1 hn]
    exact List.mem_cons_self

/-- The origins that a search returns are ordered. -/
theorem explore_ordered (source : Text) (left : Nat) (cache : Cache) :
    Ordered (q.explore [⟨source, left⟩] (.start source) cache).2.1 := by
  rcases q.explore_passes [⟨source, left⟩] (.start source) cache with
    ⟨p', cache', hp, he⟩ | ⟨node, rest, p', cache', t, nodes, p'', cache'', hp, hl, he⟩
  · rw [he]
    exact (passes_orderly hp).1.ordered
  · obtain ⟨horder, hstack⟩ := passes_orderly hp
    have hlast := (lookInto_orderly (q := q) horder (hstack _ List.mem_cons_self) cache').1
    rw [hl] at hlast
    rw [he]
    exact hlast.ordered

end Query

end Fillout
