import Fillout.Proofs.Search.Direct
import Fillout.Proofs.Template.Flat
import Fillout.Resolve.Engine
import Mathlib

set_option autoImplicit false

/-! # Nothing is missed where everything is flat

The search fills leftmost containers only, and it leaves a text alone if it has met it before or if
it has looked into the same remainder behind other plain text. `Engine.resolveFirst_complete` says
that this hides no solution: if all texts are flat, no value depends on another search, and the
limit is never met, then no order of filling containers leads to a final text when the search finds
none.

The rules are read as a grammar, with the bodies of containers for nonterminals. If a final text can
be made of a text, all its bodies are productive (`productive_of_rewrites`). On the other hand, a
search that has come to an end has met, with every text, the texts that filling its leftmost
container leads to, up to the plain text in front (`exists_looksInto_of_passes`). So if it has met
plain text in front of a productive body and a rest, it has met plain text in front of the rest
(`Productive.passes`); and with a source of productive bodies it would have met a plain text, where
it would have stopped.
-/

namespace Fillout

namespace Query

variable (q : Query)

/-! ## Flat values -/

/-- No rule is a date or a switch, and all values and defaults are flat. -/
structure IsFlat (q : Query) : Prop where
  kinds : ∀ r ∈ q.store.rules, r.body.kind ≠ .date ∧ r.body.kind ≠ .switch
  values : ∀ r ∈ q.store.rules, ∀ t, q.plainValue? r = some t → Template.IsFlat t
  defaults : ∀ key t, q.env.defaultFor? key q.ctx = some t → Template.IsFlat t

section

variable {q}

theorem IsFlat.isDirect (h : q.IsFlat) : q.IsDirect := h.kinds

/-- Values that are flat as they stand are flat in every context. -/
theorem isFlat_of_literals
    (hkinds : ∀ r ∈ q.store.rules, r.body.kind ≠ .date ∧ r.body.kind ≠ .switch)
    (hvalues : ∀ r ∈ q.store.rules, ∃ t ∈ r.body.value.literal?,
      ∀ p ∈ Template.pieces t, p.IsFlat)
    (hdefaults : ∀ key t, q.env.defaultFor? key q.ctx = some t → Template.IsFlat t) :
    q.IsFlat := by
  refine ⟨hkinds, fun r hr t ht => ?_, hdefaults⟩
  obtain ⟨u, hu, hps⟩ := hvalues r hr
  unfold plainValue? at ht
  cases hv : r.body.value with
  | literal w =>
      rw [hv] at ht hu
      cases ht
      cases hu
      exact ⟨_, hps, Template.flatMap_text_pieces _⟩
  | computed name =>
      rw [hv] at hu
      cases hu

theorem isFlat_of_mem_plainValues (h : q.IsFlat) {key : Text} {v : Candidate}
    (hv : v ∈ q.plainValues key) : Template.IsFlat v.value :=
  forall_mem_plainValues h.values h.defaults v hv

end

/-! ## Filling containers in any order -/

/-- One container of a text, whichever it is, is replaced by a value that is offered for a variable
among its entries, whatever is known of other texts. This changes the text. -/
def Rewrites (s t : Text) : Prop :=
  ∃ c ∈ Template.containers s, ∃ key, .variable key ∈ Template.entries c.body ∧
    ∃ (nested : Nested Cache) (cache : Cache), ∃ v ∈ (q.variableValues nested key cache).1,
      t = c.substitute v.value ∧ t ≠ s

/-- A value is offered for a variable among the entries of a body, and it is not the container. -/
def Yields (body v : Text) : Prop :=
  (∃ key, .variable key ∈ Template.entries body ∧ ∃ w ∈ q.plainValues key, w.value = v) ∧
    v ≠ (Template.Piece.slot body).text

/-- A final text can be made of the container: some value leads to productive bodies only. -/
inductive Productive : Text → Prop
  | mk {body : Text} {ps : List Template.Piece} (hps : ∀ p ∈ ps, p.IsFlat)
      (hv : q.Yields body (ps.flatMap Template.Piece.text))
      (h : ∀ b, .slot b ∈ ps → Productive b) : Productive body

variable {q} {source : Text} {left : Nat} {p : Progress} {cache cache' : Cache}

theorem Yields.isFlat (h : q.IsFlat) {body v : Text} (hv : q.Yields body v) :
    Template.IsFlat v := by
  obtain ⟨⟨key, -, w, hw, rfl⟩, -⟩ := hv
  exact isFlat_of_mem_plainValues h hw

/-- Filling a container of a text of flat pieces puts flat pieces in the place of one of them. -/
theorem Rewrites.exists_pieces (h : q.IsFlat) {ps : List Template.Piece} (hps : ∀ p ∈ ps, p.IsFlat)
    {t : Text} (hst : q.Rewrites (ps.flatMap Template.Piece.text) t) :
    ∃ l body r vs, ps = l ++ .slot body :: r ∧ (∀ p ∈ vs, p.IsFlat) ∧
      q.Yields body (vs.flatMap Template.Piece.text) ∧
      t = (l ++ vs ++ r).flatMap Template.Piece.text := by
  obtain ⟨c, hc, key, hkey, nested, cache, v, hv, rfl, hne⟩ := hst
  rw [Template.containers_flatMap hps] at hc
  obtain ⟨l, body, r, rfl, rfl⟩ := Template.exists_of_mem_containersBehind hc
  rw [variableValues_eq h.isDirect] at hv
  have hyields : q.Yields body v.value := by
    refine ⟨⟨key, hkey, v, hv, rfl⟩, fun he => hne ?_⟩
    simp [Template.Container.substitute, he]
  obtain ⟨vs, hvs, hve⟩ := hyields.isFlat h
  refine ⟨l, body, r, vs, rfl, hvs, hve ▸ hyields, ?_⟩
  rw [List.flatMap_append, List.flatMap_append, hve]
  rfl

/-- What can be made of a flat text is flat. -/
theorem isFlat_of_rewrites (h : q.IsFlat) {s t : Text} (hs : Template.IsFlat s)
    (hst : Relation.ReflTransGen q.Rewrites s t) : Template.IsFlat t := by
  induction hst with
  | refl => exact hs
  | tail _ hstep ih =>
      obtain ⟨ps, hps, rfl⟩ := ih
      obtain ⟨l, body, r, vs, rfl, hvs, -, rfl⟩ := hstep.exists_pieces h hps
      obtain ⟨hl, hr⟩ := List.forall_mem_append.1 hps
      refine ⟨l ++ vs ++ r, List.forall_mem_append.2 ⟨List.forall_mem_append.2 ⟨hl, hvs⟩, ?_⟩, rfl⟩
      exact (List.forall_mem_cons.1 hr).2

/-- If a final text can be made of flat pieces, in whichever order, their bodies are productive. -/
theorem productive_of_rewrites (h : q.IsFlat) {s t : Text}
    (hst : Relation.ReflTransGen q.Rewrites s t) (ht : Template.isFinal t)
    {ps : List Template.Piece} (hps : ∀ p ∈ ps, p.IsFlat)
    (hs : ps.flatMap Template.Piece.text = s) : ∀ b, .slot b ∈ ps → q.Productive b := by
  induction hst using Relation.ReflTransGen.head_induction_on generalizing ps with
  | refl =>
      -- A final text has no bodies.
      intro b hb
      have hnone : Template.containerCount t = 0 := eq_of_beq ht
      rw [← hs, Template.containerCount_flatMap hps, List.countP_eq_zero] at hnone
      exact absurd rfl (hnone _ hb)
  | head hstep _ ih =>
      rw [← hs] at hstep
      obtain ⟨l, body, r, vs, rfl, hvs, hyields, rfl⟩ := hstep.exists_pieces h hps
      obtain ⟨hl, hr⟩ := List.forall_mem_append.1 hps
      -- The text after the step is made of the same pieces, but for those of the value.
      have hmade : ∀ b, .slot b ∈ l ++ vs ++ r → q.Productive b := by
        refine ih (List.forall_mem_append.2 ⟨List.forall_mem_append.2 ⟨hl, hvs⟩, ?_⟩) rfl
        exact (List.forall_mem_cons.1 hr).2
      intro b hb
      rcases List.mem_append.1 hb with hb | hb
      · exact hmade b (List.mem_append_left _ (List.mem_append_left _ hb))
      · rcases List.mem_cons.1 hb with hb | hb
        · cases hb
          refine .mk hvs hyields fun b hb => ?_
          exact hmade b (List.mem_append_left _ (List.mem_append_right _ hb))
        · exact hmade b (List.mem_append_right _ hb)

/-- What comes next for a container with a flat body is made with values for its variables. -/
theorem yields_of_mem_plainSteps {c : Template.Container} (hb : (Template.Piece.slot c.body).IsFlat)
    {w : Candidate} (hw : w ∈ q.plainSteps c) :
    ∃ v, q.Yields c.body v ∧ w.value = c.substitute v := by
  obtain ⟨e, he, v, hv, hne, rfl⟩ := mem_plainSteps_iff.1 hw
  have hvar := hb.2 e he
  cases e with
  | expression text => cases hvar
  | «variable» key => exact ⟨v.value, ⟨⟨key, he, v, hv, rfl⟩, hne⟩, rfl⟩

/-- What comes next for a container of a flat text comes from filling the container. -/
theorem rewrites_of_mem_plainSteps (h : q.IsFlat) {s : Text} (hs : Template.IsFlat s)
    {c : Template.Container} (hc : c ∈ Template.containers s) {w : Candidate}
    (hw : w ∈ q.plainSteps c) : q.Rewrites s w.value := by
  obtain ⟨v, ⟨⟨key, hkey, x, hx, rfl⟩, hne⟩, he⟩ :=
    yields_of_mem_plainSteps (hs.slot_of_mem_containers hc) hw
  refine ⟨c, hc, key, hkey, q.resolveNested 0, [], x, ?_, he, fun hsame => hne ?_⟩
  · rw [variableValues_eq h.isDirect]
    exact hx
  · rw [he, ← Template.source_of_mem_containers hc] at hsame
    exact Template.substitute_eq_source.1 hsame

/-- Filling the leftmost container of a flat text is one of the ways of filling a container, and
leads to a flat text. -/
theorem FillsLeftmost.rewrites (h : q.IsFlat) {s t : Text} (hs : Template.IsFlat s)
    (hst : q.FillsLeftmost s t) : q.Rewrites s t ∧ Template.IsFlat t := by
  obtain ⟨c, hc, w, hw, rfl⟩ := hst
  have hrw := rewrites_of_mem_plainSteps h hs (Template.mem_containers_of_first hc) hw
  exact ⟨hrw, isFlat_of_rewrites h hs (.single hrw)⟩

/-- What is reached from a flat text by filling leftmost containers can be made of it, and is
flat. -/
theorem Reaches.rewrites (h : q.IsFlat) {s t : Text} (hs : Template.IsFlat s)
    (hst : q.Reaches s t) : Relation.ReflTransGen q.Rewrites s t ∧ Template.IsFlat t := by
  induction hst with
  | refl => exact ⟨.refl, hs⟩
  | tail _ hstep ih =>
      obtain ⟨hrw, hflat⟩ := hstep.rewrites h ih.2
      exact ⟨ih.1.tail hrw, hflat⟩

/-! ## Nothing is missed -/

/-- A value that is offered for a variable leads to one of the steps. -/
theorem mem_plainSteps {c : Template.Container} {v : Text} (hv : q.Yields c.body v) :
    ∃ s ∈ q.plainSteps c, s.value = c.substitute v := by
  obtain ⟨⟨key, hkey, w, hw, rfl⟩, hne⟩ := hv
  exact ⟨_, mem_plainSteps_iff.2 ⟨.variable key, hkey, w, hw, hne, rfl⟩, rfl⟩

/-- The search has met some plain text in front of a rest. -/
def Meets (p : Progress) (rest : Text) : Prop :=
  ∃ x, Template.IsPlain x ∧ x ++ rest ∈ p.visited

/-- If the search has met plain text in front of flat pieces and a rest, and can pass each of their
bodies, then it has met plain text in front of the rest. -/
theorem Meets.passes {p : Progress} {ps : List Template.Piece} (hps : ∀ p ∈ ps, p.IsFlat)
    (hpass : ∀ b, .slot b ∈ ps → ∀ rest, Meets p ((Template.Piece.slot b).text ++ rest) →
      Meets p rest) (rest : Text) (h : Meets p (ps.flatMap Template.Piece.text ++ rest)) :
    Meets p rest := by
  induction ps with
  | nil => exact h
  | cons r ps ih =>
      have hrest := ih (fun r' hr' => hps r' (List.mem_cons_of_mem r hr'))
        (fun b hb => hpass b (List.mem_cons_of_mem r hb))
      rw [List.flatMap_cons, List.append_assoc] at h
      cases r with
      | plain t =>
          have ht : Template.IsPlain t := hps _ List.mem_cons_self
          obtain ⟨x, hx, hmem⟩ := h
          refine hrest ⟨x ++ t, hx.append ht, ?_⟩
          rw [List.append_assoc]
          exact hmem
      | slot b => exact hrest (hpass b List.mem_cons_self _ h)

/-- A search that has come to its end without being cut has passed every productive body that it has
met. -/
theorem Productive.passes (h : q.IsFlat) (hs : Template.IsFlat source)
    (hf : ¬ Template.isFinal source) (hcut : q.NeverCut (.start source left cache))
    (run : q.Passes (.start source left cache) ⟨[], p, cache'⟩) {body : Text}
    (hbody : q.Productive body) (hb : Template.IsPlain body) (rest : Text)
    (hmeets : Meets p ((Template.Piece.slot body).text ++ rest)) : Meets p rest := by
  induction hbody generalizing rest with
  | @mk body vs hvs hyields _ ih =>
      obtain ⟨x, hx, hmem⟩ := hmeets
      have hfirst : Template.firstContainer? (x ++ ((Template.Piece.slot body).text ++ rest)) =
          some ⟨x, body, rest⟩ := by
        rw [← List.append_assoc]
        exact Template.firstContainer?_slot hx hb.isBody rest
      -- The remainder has been looked into, maybe behind other plain text.
      obtain ⟨c, ⟨-, hc⟩, u, d, ⟨⟨node, nodes, p', cache'', hu, rfl⟩, hd⟩, hsame, hfilled⟩ :=
        exists_looksInto_of_passes h.isDirect hf hcut run hmem
      rw [hfirst] at hc
      cases hc
      obtain ⟨rfl, rfl⟩ := Template.eq_of_remainder_eq hd hfirst hsame
      have hflat := ((reaches_of_passes h.isDirect hu node List.mem_cons_self).rewrites h hs).2
      -- Among the texts that this led to is the one with the value that makes `body` productive.
      have hmade : Meets p (vs.flatMap Template.Piece.text ++ d.after) := by
        obtain ⟨s, hs, he⟩ := mem_plainSteps hyields
        refine ⟨d.before, (hflat.firstContainer? hd).1, ?_⟩
        have hvisited := hfilled s hs
        rw [he] at hvisited
        rw [← List.append_assoc]
        exact hvisited
      exact Meets.passes hvs (fun b hslot => ih b hslot (hvs _ hslot).1) d.after hmade

/-- A search that has come to its end without being cut did not start with productive bodies
only. -/
theorem not_productive_of_passes (h : q.IsFlat) {ps : List Template.Piece}
    (hps : ∀ p ∈ ps, p.IsFlat) (hsource : ps.flatMap Template.Piece.text = source)
    (hf : ¬ Template.isFinal source) (hcut : q.NeverCut (.start source left cache))
    (run : q.Passes (.start source left cache) ⟨[], p, cache'⟩) :
    ¬ ∀ b, .slot b ∈ ps → q.Productive b := by
  intro hprod
  have hs : Template.IsFlat source := ⟨ps, hps, hsource⟩
  have hstart : Meets p (ps.flatMap Template.Piece.text ++ []) := by
    refine ⟨[], Template.isPlain_nil, ?_⟩
    rw [List.append_nil, hsource]
    exact Passes.mem_visited run List.mem_cons_self
  obtain ⟨x, hx, hmem⟩ := Meets.passes hps
    (fun b hb => (hprod b hb).passes h hs hf hcut run (hps _ hb).1) [] hstart
  -- Plain text is final, and the search would have stopped there.
  rw [List.append_nil] at hmem
  exact (explored_of_passes h.isDirect hf hcut run).unfinished x hmem
    (Template.isFinal_of_isPlain hx)

/-- A search that has come to its end without being cut has missed nothing: no order of filling
containers leads from the source to a final text. -/
theorem not_isFinal_of_passes (h : q.IsFlat) (hs : Template.IsFlat source)
    (hf : ¬ Template.isFinal source) (hcut : q.NeverCut (.start source left cache))
    (run : q.Passes (.start source left cache) ⟨[], p, cache'⟩) {t : Text}
    (ht : Relation.ReflTransGen q.Rewrites source t) : ¬ Template.isFinal t := by
  intro hft
  obtain ⟨ps, hps, he⟩ := hs
  exact not_productive_of_passes h hps he hf hcut run (productive_of_rewrites h ht hft hps he)

end Query

/-- Where no rule is a date or a switch, all values and defaults and the source are flat, and the
search is never cut at the limit, `resolveFirst` returns nothing only if no final text can be made
of the source: neither the texts that are left alone because they, or what remains of them, have
been met before, nor the containers that are not the leftmost, hide a solution. -/
theorem Engine.resolveFirst_complete (e : Engine) (ctx : Context) (source : Text)
    (hq : (e.query ctx source).IsFlat) (hs : Template.IsFlat source)
    (hcut : (e.query ctx source).NeverCut (.start source ctx.maxDepth []))
    (h : e.resolveFirst ctx source = none) :
    ∀ t, Relation.ReflTransGen (e.query ctx source).Rewrites source t → ¬ Template.isFinal t := by
  intro t ht
  unfold Engine.resolveFirst Query.first at h
  by_cases hf : Template.isFinal source
  · rw [if_pos hf] at h
    cases h
  · rw [if_neg hf] at h
    obtain ⟨p, cache, run⟩ := Query.passes_of_explore_eq_none _ h
    exact Query.not_isFinal_of_passes hq hs hf hcut run ht

/-- Two rules whose values refer to each other, and a default. -/
def mutualRules : Engine where
  store := .ofRules
    [.ofRecord (.ordinary 1)
      { kind := .equal, pattern := ['a'], value := .literal "$\x7bb\x7d$".toList },
     .ofRecord (.ordinary 2)
      { kind := .equal, pattern := ['b'], value := .literal "$\x7ba\x7d$".toList }] 2 0
  env := Environment.empty.setDefault ['c'] (.static ['x'])

theorem isFlat_query_mutualRules (source : Text) : (mutualRules.query {} source).IsFlat := by
  refine Query.isFlat_of_literals ?_ ?_ fun key t ht => ?_
  · show ∀ r ∈ mutualRules.store.rules, _
    decide
  · show ∀ r ∈ mutualRules.store.rules, _
    decide +kernel
  · by_cases hkey : key = ['c']
    · subst hkey
      cases ht
      exact ⟨[.plain ['x']], by decide, rfl⟩
    · have hnone : mutualRules.env.defaults.lookup key = none := by
        show List.lookup key [(['c'], _)] = none
        rw [List.lookup_cons, beq_eq_false_iff_ne.2 hkey]
        rfl
      have ht : mutualRules.env.defaultFor? key {} = some t := ht
      unfold Environment.defaultFor? at ht
      rw [hnone] at ht
      cases ht

/-- The rules are gone through once, and nothing is found, because nothing can be made of the
text. -/
theorem Engine.resolveFirst_complete_mutualRules :
    (mutualRules.query {} "$\x7bc\x7d$ $\x7ba\x7d$".toList).IsFlat ∧
      Template.IsFlat "$\x7bc\x7d$ $\x7ba\x7d$".toList ∧
      (mutualRules.query {} "$\x7bc\x7d$ $\x7ba\x7d$".toList).NeverCut
        (.start "$\x7bc\x7d$ $\x7ba\x7d$".toList 100 []) ∧
      mutualRules.resolveFirst {} "$\x7bc\x7d$ $\x7ba\x7d$".toList = none ∧
      ∀ t, Relation.ReflTransGen (mutualRules.query {} "$\x7bc\x7d$ $\x7ba\x7d$".toList).Rewrites
        "$\x7bc\x7d$ $\x7ba\x7d$".toList t → ¬ Template.isFinal t := by
  have hq := isFlat_query_mutualRules "$\x7bc\x7d$ $\x7ba\x7d$".toList
  have hs : Template.IsFlat "$\x7bc\x7d$ $\x7ba\x7d$".toList :=
    ⟨[.slot ['c'], .plain [' '], .slot ['a']], by decide, rfl⟩
  have hcut : (mutualRules.query {} "$\x7bc\x7d$ $\x7ba\x7d$".toList).NeverCut
      (.start "$\x7bc\x7d$ $\x7ba\x7d$".toList 100 []) :=
    Query.neverCut_of_runsUncut (show Query.runsUncut _ 6 _ = true by cbv)
  have hnone : mutualRules.resolveFirst {} "$\x7bc\x7d$ $\x7ba\x7d$".toList = none := by cbv
  exact ⟨hq, hs, hcut, hnone, mutualRules.resolveFirst_complete {} _ hq hs hcut hnone⟩

end Fillout
