import Fillout.Proofs.Search.Offers
import Fillout.Resolve.Engine

set_option autoImplicit false

/-! # What is found has been derived

A `Derivation` is a way from the text that was asked for to another text: one step after the other
fills the leftmost container with a value that is offered for it, at a stage that the search has
passed through. Every text that a search has met comes with a derivation, and the rules recorded for
it are those of the steps of this derivation (`Traced`).

`Engine.explain_derivation` puts this together for the result: it is final, and the rules that an
explanation lists are, in order, those that supplied the values of a derivation of it.
-/

namespace Fillout

namespace Query

variable (q : Query)

/-- From `source`, which is asked for with `left` levels, the steps lead to a node. Each step fills
the leftmost container of a text that has levels left, with a value offered for an entry of the
container, and is one of those that the search has got from this text when it looked into it. -/
inductive Derivation (source : Text) (left : Nat) : List Candidate → Node → Prop
  | start : Derivation source left [] ⟨source, left⟩
  | step {steps : List Candidate} {node : Node} {c : Template.Container} {v : Candidate}
      {rest : List Node} {p : Progress} {cache : Cache} (hd : Derivation source left steps node)
      (hl : 0 < node.left) (hc : Template.firstContainer? node.text = some c)
      (hv : q.Fills q.Resolves c v)
      (hp : q.Passes (.start source left []) ⟨node :: rest, p, cache⟩)
      (hm : ⟨c.substitute v.value, v.rule?⟩ ∈ (q.stepsFrom node c cache).1) :
      Derivation source left (steps ++ [⟨c.substitute v.value, v.rule?⟩])
        (node.child (c.substitute v.value))

variable {q} {source : Text} {left : Nat}

/-- The texts that a derivation passes, from the first to the last. -/
def textsOf (source : Text) (steps : List Candidate) : List Text :=
  source :: steps.map Candidate.value

theorem textsOf_append (source : Text) (steps : List Candidate) (s : Candidate) :
    textsOf source (steps ++ [s]) = textsOf source steps ++ [s.value] := by
  simp [textsOf]

/-- A derivation ends with the text of its node. -/
theorem Derivation.text_mem {steps : List Candidate} {node : Node}
    (h : q.Derivation source left steps node) : node.text ∈ textsOf source steps := by
  cases h with
  | start => exact List.mem_cons_self
  | step => simp [textsOf_append, Node.child]

/-- A rule that is named in a derivation is a rule of the store that may be used. -/
theorem Derivation.rule_applies {steps : List Candidate} {node : Node}
    (h : q.Derivation source left steps node) :
    ∀ id ∈ steps.filterMap Candidate.rule?, ∃ r ∈ q.store.rules, r.id = id ∧ r.applies q.ctx := by
  induction h with
  | start =>
      intro id hid
      cases hid
  | step hd hl hc hv hp hm ih =>
      intro id hid
      rw [List.filterMap_append, List.mem_append] at hid
      rcases hid with hid | hid
      · exact ih id hid
      · obtain ⟨s, hs, hrule⟩ := List.mem_filterMap.1 hid
        rw [List.mem_singleton.1 hs] at hrule
        obtain ⟨⟨e, -, ho⟩, -⟩ := hv
        exact ho.rule_applies hrule

/-- A node has a derivation of which the search has met all texts, no text comes twice in it, and
the rules recorded for the text of the node are those of its steps. -/
def Traced (q : Query) (source : Text) (left : Nat) (p : Progress) (node : Node) : Prop :=
  ∃ steps, q.Derivation source left steps node ∧ (textsOf source steps).Nodup ∧
    (∀ t ∈ textsOf source steps, t ∈ p.visited) ∧
    ruleChain p.origins node.text = steps.filterMap Candidate.rule?

/-- Recording another text leaves the trace of a node as it is. -/
theorem Traced.record {p : Progress} {node : Node} {parent : Text} {s : Candidate}
    (h : q.Traced source left p node) (hs : s.value ∉ p.visited) :
    q.Traced source left (p.record parent s) node := by
  obtain ⟨steps, hd, hnodup, hmem, hchain⟩ := h
  refine ⟨steps, hd, hnodup, fun t ht => List.mem_cons_of_mem _ (hmem t ht), ?_⟩
  -- The new entry is for another text, so the way back does not pass it.
  have hne : s.value ≠ node.text := fun he => hs (he ▸ hmem _ hd.text_mem)
  rw [← hchain]
  exact if_neg hne

theorem Traced.takeUp {p : Progress} {node parent : Node} (h : q.Traced source left p node)
    (steps : List Candidate) : q.Traced source left (Progress.takeUp parent steps p).2.2 node :=
  Progress.takeUp_invariant (P := fun p => q.Traced source left p node)
    (fun _ _ ht hs => ht.record hs) steps h

/-- A text that comes from a traced node is traced when it is recorded. -/
theorem Traced.child {p : Progress} {node : Node} {c : Template.Container} {v : Candidate}
    {rest : List Node} {p₀ : Progress} {cache : Cache} (h : q.Traced source left p node)
    (hl : 0 < node.left) (hc : Template.firstContainer? node.text = some c)
    (hv : q.Fills q.Resolves c v) (hp : q.Passes (.start source left []) ⟨node :: rest, p₀, cache⟩)
    (hm : ⟨c.substitute v.value, v.rule?⟩ ∈ (q.stepsFrom node c cache).1)
    (hs : c.substitute v.value ∉ p.visited) :
    q.Traced source left (p.record node.text ⟨c.substitute v.value, v.rule?⟩)
      (node.child (c.substitute v.value)) := by
  obtain ⟨steps, hd, hnodup, hmem, hchain⟩ := h
  refine ⟨_, .step hd hl hc hv hp hm, ?_, ?_, ?_⟩
  · -- All earlier texts have been met, and the new one has not.
    rw [textsOf_append, List.nodup_append]
    refine ⟨hnodup, List.pairwise_singleton _ _, fun t ht u hu he => ?_⟩
    rw [List.mem_singleton.1 hu] at he
    subst he
    exact hs (hmem _ ht)
  · intro t ht
    rw [textsOf_append] at ht
    rcases List.mem_append.1 ht with ht | ht
    · exact List.mem_cons_of_mem _ (hmem t ht)
    · rw [List.mem_singleton.1 ht]
      exact List.mem_cons_self
  · have hnew : ruleChain (p.record node.text ⟨c.substitute v.value, v.rule?⟩).origins
        (c.substitute v.value) = ruleChain p.origins node.text ++ v.rule?.toList := if_pos rfl
    show ruleChain _ (c.substitute v.value) = _
    rw [hnew, hchain, List.filterMap_append]
    cases v.rule? <;> rfl

/-- Of the steps from a traced node, the nodes that are to be looked into next are traced, and so is
the final text, if one is found. -/
theorem takeUp_traced {node : Node} {c : Template.Container} {rest : List Node} {p₀ : Progress}
    {cache : Cache} (hl : 0 < node.left) (hc : Template.firstContainer? node.text = some c)
    (hp : q.Passes (.start source left []) ⟨node :: rest, p₀, cache⟩) (steps : List Candidate)
    (hsteps : ∀ s ∈ steps, ∃ v, q.Fills q.Resolves c v ∧ s = ⟨c.substitute v.value, v.rule?⟩)
    (hm : ∀ s ∈ steps, s ∈ (q.stepsFrom node c cache).1)
    (p : Progress) (h : q.Traced source left p node) :
    (∀ n ∈ (Progress.takeUp node steps p).2.1,
        q.Traced source left (Progress.takeUp node steps p).2.2 n) ∧
      ∀ t, (Progress.takeUp node steps p).1 = some t → Template.isFinal t ∧
        ∃ n, n.text = t ∧ q.Traced source left (Progress.takeUp node steps p).2.2 n := by
  induction steps generalizing p with
  | nil => exact ⟨fun n hn => (nomatch hn), fun t ht => (nomatch ht)⟩
  | cons s rest ih =>
      have ih := ih (fun u hu => hsteps u (List.mem_cons_of_mem s hu))
        (fun u hu => hm u (List.mem_cons_of_mem s hu))
      by_cases hs : s.value ∈ p.visited
      · rw [Progress.takeUp_of_mem hs]
        exact ih p h
      · obtain ⟨v, hv, rfl⟩ := hsteps s List.mem_cons_self
        have hchild := h.child hl hc hv hp (hm _ List.mem_cons_self) hs
        obtain ⟨hnodes, hfound⟩ := ih _ (h.record hs)
        by_cases hf : Template.isFinal (c.substitute v.value)
        · rw [Progress.takeUp_of_final hs hf]
          refine ⟨fun n hn => (nomatch hn), fun t ht => ?_⟩
          cases ht
          exact ⟨hf, _, rfl, hchild⟩
        · rw [Progress.takeUp_of_new hs hf]
          refine ⟨fun n hn => ?_, hfound⟩
          rcases List.mem_cons.1 hn with rfl | hn
          · -- What is taken up after the child leaves its trace as it is.
            exact hchild.takeUp rest
          · exact hnodes n hn

/-- One turn keeps the cache right and the nodes on the stack traced. -/
theorem lookInto_traced {node : Node} {rest : List Node} {p : Progress} {cache : Cache}
    (hp : q.Passes (.start source left []) ⟨node :: rest, p, cache⟩) (hc : q.CacheSound cache)
    (h : ∀ n ∈ node :: rest, q.Traced source left p n) :
    q.CacheSound (q.lookInto node p cache).2.2.2 ∧
      (∀ n ∈ (q.lookInto node p cache).2.1 ++ rest,
        q.Traced source left (q.lookInto node p cache).2.2.1 n) ∧
      ∀ t, (q.lookInto node p cache).1 = some t → Template.isFinal t ∧
        ∃ n, n.text = t ∧ q.Traced source left (q.lookInto node p cache).2.2.1 n := by
  have hrest : ∀ n ∈ rest, q.Traced source left p n :=
    fun n hn => h n (List.mem_cons_of_mem node hn)
  rcases q.lookInto_cases node p cache with ⟨-, hl⟩ | ⟨c, hleft, hcont, -, hl⟩
  · rw [hl]
    exact ⟨hc, hrest, fun t ht => nomatch ht⟩
  · obtain ⟨hcache, hsteps⟩ := stepsFrom_sound (resolveNested_sound _) c hc
    obtain ⟨hnodes, hfound⟩ := takeUp_traced hleft hcont hp (q.stepsFrom node c cache).1 hsteps
      (fun s hs => hs) (p.settle c.remainder node.left) (h node List.mem_cons_self)
    rw [hl]
    refine ⟨hcache, fun n hn => ?_, hfound⟩
    rcases List.mem_append.1 hn with hn | hn
    · exact hnodes n hn
    · have hn : q.Traced source left (p.settle c.remainder node.left) n := hrest n hn
      exact hn.takeUp _

/-- At all stages of a search the cache is right and the nodes on the stack are traced. -/
theorem passes_traced {b : Stage} (run : q.Passes (.start source left []) b) :
    q.CacheSound b.cache ∧ ∀ n ∈ b.stack, q.Traced source left b.progress n := by
  induction run with
  | refl =>
      refine ⟨.nil, fun n hn => ?_⟩
      rw [List.mem_singleton.1 hn]
      exact ⟨[], .start, List.pairwise_singleton _ _, fun t ht => ht, rfl⟩
  | tail run turn ih =>
      cases turn with
      | mk hl =>
          have hturn := lookInto_traced run ih.1 ih.2
          rw [hl] at hturn
          exact ⟨hturn.1, hturn.2.1⟩

/-- The final text that a search finds has a derivation whose texts are all different, and the rules
recorded for it are those of its steps. -/
theorem explore_derivation {t : Text} {origins : List Origin} {cache : Cache}
    (h : q.explore [⟨source, left⟩] (.start source) [] = (some t, origins, cache)) :
    Template.isFinal t ∧ ∃ steps last, q.Derivation source left steps last ∧ last.text = t ∧
      (textsOf source steps).Nodup ∧ ruleChain origins t = steps.filterMap Candidate.rule? := by
  rcases q.explore_passes [⟨source, left⟩] (.start source) [] with
    ⟨p', cache', -, he⟩ | ⟨node, rest, p', cache', t', nodes, p'', cache'', hp, hl, he⟩
  · rw [he] at h
    cases h
  · rw [he] at h
    cases h
    obtain ⟨hc, hs⟩ := passes_traced hp
    obtain ⟨-, -, hfound⟩ := lookInto_traced hp hc hs
    rw [hl] at hfound
    obtain ⟨hf, n, rfl, steps, hd, hnodup, -, hchain⟩ := hfound t rfl
    exact ⟨hf, steps, n, hd, rfl, hnodup, hchain⟩

end Query

/-- The text that `resolveFirst` returns has no container, and there is a derivation of it from the
source whose texts are all different. `explain` returns the same text, and the rules it lists are in
order those that supplied the values of the steps; they are rules of the store that apply. Without a
result there is no explanation. -/
theorem Engine.explain_derivation (e : Engine) (ctx : Context) (source : Text) :
    match e.resolveFirst ctx source with
    | none => e.explain ctx source = none
    | some r =>
        Template.containers r = [] ∧
          ∃ steps last, (e.query ctx source).Derivation source ctx.maxDepth steps last ∧
            last.text = r ∧ (Query.textsOf source steps).Nodup ∧
            e.explain ctx source = some ⟨r, steps.filterMap Candidate.rule?⟩ ∧
            ∀ id ∈ steps.filterMap Candidate.rule?,
              ∃ rule ∈ e.store.rules, rule.id = id ∧ rule.applies ctx := by
  unfold Engine.resolveFirst Engine.explain Query.first
  by_cases hf : Template.isFinal source
  · rw [if_pos hf]
    exact ⟨(Template.isFinal_iff source).1 hf, [], ⟨source, ctx.maxDepth⟩, .start, rfl,
      List.pairwise_singleton _ _, rfl, fun id hid => nomatch hid⟩
  · rw [if_neg hf]
    rcases hx : (e.query ctx source).explore [⟨source, ctx.maxDepth⟩] (.start source) [] with
      ⟨_ | t, origins, cache⟩
    · rfl
    · obtain ⟨ht, steps, last, hd, hlast, hnodup, hchain⟩ := Query.explore_derivation hx
      refine ⟨(Template.isFinal_iff t).1 ht, steps, last, hd, hlast, hnodup, ?_, ?_⟩
      · simp only [Option.map_some, hchain]
      · exact hd.rule_applies

end Fillout
