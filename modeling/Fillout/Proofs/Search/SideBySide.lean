import Fillout.Proofs.Search.Completeness
import Mathlib

set_option autoImplicit false

/-! # Fields side by side

Two sources that can be filled need not be filled any more when they stand side by side
(`Engine.resolveFirst_twoFields`). A text stays on its level when it has fewer containers than the
one it comes from. If the value of a field is a container again, the text opens a level, and it does
so for each of the fields, since they are filled one after the other. So the fields share the levels
that each of them could use up alone.

If the search for the joint text is never cut at the limit, it finds a text
(`Engine.resolveFirst_sideBySide`): what can be made of a container does not depend on the text
around it, but for the text that was asked for, which is no value. This matters where one of the two
sources could use the joint text for a value; then all containers of the joint text can be filled
anyway (`Productive.of_query`).

If no value has containers, the text has one container less after each step and stays on its level,
so the search is never cut, and no condition on the limit is left
(`Engine.resolveFirst_sideBySide_of_plain`).
-/

namespace Fillout

namespace Query

/-! ## What was asked for -/

section

variable {e : Engine} {ctx : Context} {s t : Text}

/-- Whether all values are flat does not depend on what was asked for. -/
theorem IsFlat.of_query (h : (e.query ctx s).IsFlat) (t : Text) : (e.query ctx t).IsFlat :=
  ⟨h.kinds, h.values, h.defaults⟩

/-- A value that is offered when `s` was asked for is offered when `t` was, unless it is `t`. -/
theorem Yields.of_query {body v : Text} (h : (e.query ctx s).Yields body v) (hv : v ≠ t) :
    (e.query ctx t).Yields body v := by
  obtain ⟨⟨key, hkey, w, hw, rfl⟩, hne⟩ := h
  obtain ⟨hw, hother⟩ := List.mem_filter.1 hw
  have hother := of_decide_eq_true hother
  exact ⟨⟨key, hkey, w, List.mem_filter.2 ⟨hw, decide_eq_true ⟨hother.1, hv⟩⟩, rfl⟩, hne⟩

/-- A body that is productive when `s` was asked for is productive when `t` was, or else all bodies
of `t` are. -/
theorem Productive.of_query {ps : List Template.Piece} (hps : ∀ p ∈ ps, p.IsFlat)
    (ht : ps.flatMap Template.Piece.text = t) {body : Text}
    (h : (e.query ctx s).Productive body) :
    (e.query ctx t).Productive body ∨ ∀ b, .slot b ∈ ps → (e.query ctx t).Productive b := by
  by_cases hall : ∀ b, .slot b ∈ ps → (e.query ctx t).Productive b
  · exact .inr hall
  refine .inl ?_
  induction h with
  | @mk body vs hvs hyields _ ih =>
      refine .mk hvs (hyields.of_query fun he => hall fun b hb => ?_) ih
      -- If the value is `t` itself, its bodies are those of `t`, and they are productive.
      rw [← ht] at he
      exact ih b (Template.slot_mem_of_flatMap_eq hps hvs he.symm hb)

end

variable {q : Query} {source : Text} {left : Nat} {cache : Cache}

/-- If the search finds a text, all bodies of its source are productive. -/
theorem productive_of_first (h : q.IsFlat) {ps : List Template.Piece} (hps : ∀ p ∈ ps, p.IsFlat)
    (hs : ps.flatMap Template.Piece.text = source)
    (hfound : (q.first source left cache).1.isSome) : ∀ b, .slot b ∈ ps → q.Productive b := by
  obtain ⟨t, ht⟩ := Option.isSome_iff_exists.1 hfound
  obtain ⟨hreach, hf⟩ := reaches_of_first h.isDirect ht
  exact productive_of_rewrites h (hreach.rewrites h ⟨ps, hps, hs⟩).1 hf hps hs

/-- A search that is never cut finds a text if all bodies of its source are productive. -/
theorem isSome_first_of_productive (h : q.IsFlat) {ps : List Template.Piece}
    (hps : ∀ p ∈ ps, p.IsFlat) (hs : ps.flatMap Template.Piece.text = source)
    (hprod : ∀ b, .slot b ∈ ps → q.Productive b) (hcut : q.NeverCut (.start source left cache)) :
    (q.first source left cache).1.isSome := by
  rw [Option.isSome_iff_ne_none]
  intro hnone
  obtain ⟨hf, p, cache', run⟩ := passes_of_first_eq_none q hnone
  exact not_productive_of_passes h hps hs hf hcut run hprod

/-- If two sources can be filled, the joint text is made of flat pieces whose bodies are
productive. -/
theorem exists_productive_pieces {e : Engine} {ctx : Context} {s₁ separator s₂ : Text}
    (h : (e.query ctx (s₁ ++ separator ++ s₂)).IsFlat) (hs₁ : Template.IsFlat s₁)
    (hseparator : Template.IsPlain separator) (hs₂ : Template.IsFlat s₂)
    (h₁ : (e.resolveFirst ctx s₁).isSome) (h₂ : (e.resolveFirst ctx s₂).isSome) :
    ∃ ps : List Template.Piece, (∀ p ∈ ps, p.IsFlat) ∧
      ps.flatMap Template.Piece.text = s₁ ++ separator ++ s₂ ∧
      ∀ b, .slot b ∈ ps → (e.query ctx (s₁ ++ separator ++ s₂)).Productive b := by
  obtain ⟨ps₁, hps₁, he₁⟩ := hs₁
  obtain ⟨ps₂, hps₂, he₂⟩ := hs₂
  have hrest : ∀ p ∈ .plain separator :: ps₂, p.IsFlat :=
    List.forall_mem_cons.2 ⟨hseparator, hps₂⟩
  have hps : ∀ p ∈ ps₁ ++ .plain separator :: ps₂, p.IsFlat :=
    fun p hp => (List.mem_append.1 hp).elim (hps₁ p) (hrest p)
  have he : (ps₁ ++ .plain separator :: ps₂).flatMap Template.Piece.text =
      s₁ ++ separator ++ s₂ := by
    rw [List.flatMap_append, List.flatMap_cons, he₁, he₂, List.append_assoc]
    rfl
  refine ⟨_, hps, he, fun b hb => ?_⟩
  have halone : (e.query ctx s₁).Productive b ∨ (e.query ctx s₂).Productive b := by
    rcases List.mem_append.1 hb with hb | hb
    · exact .inl (productive_of_first (h.of_query s₁) hps₁ he₁ h₁ b hb)
    · rcases List.mem_cons.1 hb with hb | hb
      · cases hb
      · exact .inr (productive_of_first (h.of_query s₂) hps₂ he₂ h₂ b hb)
  have hjoint := halone.elim (Productive.of_query hps he) (Productive.of_query hps he)
  exact hjoint.elim id fun hall => hall b hb

/-! ## Values without containers -/

/-- No rule is a date or a switch, and no value or default has a container. -/
structure HasPlainValues (q : Query) : Prop where
  kinds : ∀ r ∈ q.store.rules, r.body.kind ≠ .date ∧ r.body.kind ≠ .switch
  values : ∀ r ∈ q.store.rules, ∀ t, q.plainValue? r = some t → Template.IsPlain t
  defaults : ∀ key t, q.env.defaultFor? key q.ctx = some t → Template.IsPlain t

theorem HasPlainValues.isFlat (h : q.HasPlainValues) : q.IsFlat :=
  ⟨h.kinds, fun r hr t ht => (h.values r hr t ht).isFlat,
    fun key t ht => (h.defaults key t ht).isFlat⟩

theorem Yields.isPlain (h : q.HasPlainValues) {body v : Text} (hv : q.Yields body v) :
    Template.IsPlain v := by
  obtain ⟨⟨key, -, w, hw, rfl⟩, -⟩ := hv
  exact forall_mem_plainValues h.values h.defaults w hw

/-- Filling a container with plain text leaves one container less. -/
theorem Rewrites.containerCount_lt (h : q.HasPlainValues) {s t : Text} (hs : Template.IsFlat s)
    (hst : q.Rewrites s t) : Template.containerCount t < Template.containerCount s := by
  obtain ⟨ps, hps, rfl⟩ := hs
  obtain ⟨l, body, r, vs, rfl, hvs, hv, rfl⟩ := hst.exists_pieces h.isFlat hps
  obtain ⟨hl, hr⟩ := List.forall_mem_append.1 hps
  have hr := (List.forall_mem_cons.1 hr).2
  have hplain : vs.countP Template.Piece.isSlot = 0 := by
    rw [← Template.containerCount_flatMap hvs]
    exact eq_of_beq (Template.isFinal_of_isPlain (hv.isPlain h))
  rw [Template.containerCount_flatMap hps, Template.containerCount_flatMap
    (List.forall_mem_append.2 ⟨List.forall_mem_append.2 ⟨hl, hvs⟩, hr⟩)]
  rw [List.countP_append, List.countP_append, hplain, List.countP_append,
    List.countP_cons_of_pos rfl]
  omega

/-- If no value has a container, a turn stays on the level of its text: each text that it gets from
it has one container less. -/
theorem left_of_lookInto (h : q.HasPlainValues) {node : Node} (hflat : Template.IsFlat node.text)
    (p : Progress) (cache : Cache) : ∀ n ∈ (q.lookInto node p cache).2.1, n.left = node.left := by
  intro n hn
  rcases q.lookInto_cases node p cache with ⟨-, he⟩ | ⟨c, -, hc, -, he⟩
  · rw [he] at hn
    cases hn
  · rw [he] at hn
    obtain ⟨s, hstep, rfl⟩ := (Progress.exists_step_of_takeUp node _ _).1 n hn
    rw [stepsFrom_eq h.isFlat.isDirect] at hstep
    have hrw :=
      rewrites_of_mem_plainSteps h.isFlat hflat (Template.mem_containers_of_first hc) hstep
    rw [Node.child, if_pos (hrw.containerCount_lt h hflat)]

/-- Where values have no containers, a search stays on one level. -/
theorem left_of_passes (h : q.HasPlainValues) (hs : Template.IsFlat source) {b : Stage}
    (run : q.Passes (.start source left cache) b) : ∀ n ∈ b.stack, n.left = left := by
  induction run with
  | refl =>
      intro n hn
      rw [List.mem_singleton.1 hn]
  | tail run turn ih =>
      obtain ⟨hl⟩ := turn
      rename_i node rest children p p' cache cache'
      have hnode := reaches_of_passes h.isFlat.isDirect run node List.mem_cons_self
      have hchildren := left_of_lookInto h (hnode.rewrites h.isFlat hs).2 p cache
      rw [hl] at hchildren
      intro n hn
      rcases List.mem_append.1 hn with hn | hn
      · exact (hchildren n hn).trans (ih node List.mem_cons_self)
      · exact ih n (List.mem_cons_of_mem node hn)

theorem neverCut_of_plainValues (h : q.HasPlainValues) (hs : Template.IsFlat source)
    (hl : left ≠ 0) : q.NeverCut (.start source left cache) := by
  intro node rest p cache run
  rw [left_of_passes h hs run node List.mem_cons_self]
  exact hl

/-- Without levels only a final text is found. -/
theorem isFinal_of_first_zero (h : (q.first source 0 cache).1.isSome) :
    Template.isFinal source := by
  unfold first at h
  split at h
  · assumption
  · rw [explore, dif_pos rfl, explore_nil] at h
    cases h

end Query

namespace Engine

/-- Where no rule is a date or a switch and all values and defaults are flat, two flat sources that
can be filled can be filled side by side, with plain text between them, if the search for the joint
text is never cut at the limit. -/
theorem resolveFirst_sideBySide (e : Engine) (ctx : Context) (s₁ separator s₂ : Text)
    (hq : (e.query ctx (s₁ ++ separator ++ s₂)).IsFlat) (hs₁ : Template.IsFlat s₁)
    (hseparator : Template.IsPlain separator) (hs₂ : Template.IsFlat s₂)
    (hcut : (e.query ctx (s₁ ++ separator ++ s₂)).NeverCut
      (.start (s₁ ++ separator ++ s₂) ctx.maxDepth []))
    (h₁ : (e.resolveFirst ctx s₁).isSome) (h₂ : (e.resolveFirst ctx s₂).isSome) :
    (e.resolveFirst ctx (s₁ ++ separator ++ s₂)).isSome := by
  obtain ⟨ps, hps, he, hprod⟩ := Query.exists_productive_pieces hq hs₁ hseparator hs₂ h₁ h₂
  exact Query.isSome_first_of_productive hq hps he hprod hcut

/-- A rule whose value refers to another one. -/
def twoFields : Engine where
  store := .ofRules
    [.ofRecord (.ordinary 1)
      { kind := .equal, pattern := ['a'], value := .literal "$\x7bb\x7d$".toList },
     .ofRecord (.ordinary 2) { kind := .equal, pattern := ['b'], value := .literal ['x'] }] 2 0
  env := .empty

theorem isFlat_query_twoFields (ctx : Context) (source : Text) :
    (twoFields.query ctx source).IsFlat := by
  refine Query.isFlat_of_literals ?_ ?_ fun _ _ ht => nomatch ht
  · show ∀ r ∈ twoFields.store.rules, _
    decide
  · show ∀ r ∈ twoFields.store.rules, _
    decide +kernel

/-- With the usual limit both fields are filled. -/
theorem resolveFirst_sideBySide_twoFields :
    (twoFields.query {} "$\x7ba\x7d$ $\x7ba\x7d$".toList).IsFlat ∧
      Template.IsFlat "$\x7ba\x7d$".toList ∧ Template.IsPlain [' '] ∧
      (twoFields.query {} "$\x7ba\x7d$ $\x7ba\x7d$".toList).NeverCut
        (.start "$\x7ba\x7d$ $\x7ba\x7d$".toList 100 []) ∧
      twoFields.resolveFirst {} "$\x7ba\x7d$".toList = some ['x'] ∧
      (twoFields.resolveFirst {} "$\x7ba\x7d$ $\x7ba\x7d$".toList).isSome := by
  have hq := isFlat_query_twoFields {} "$\x7ba\x7d$ $\x7ba\x7d$".toList
  have hs : Template.IsFlat "$\x7ba\x7d$".toList := ⟨[.slot ['a']], by decide, rfl⟩
  have hseparator : Template.IsPlain [' '] := by decide
  have hcut : (twoFields.query {} "$\x7ba\x7d$ $\x7ba\x7d$".toList).NeverCut
      (.start "$\x7ba\x7d$ $\x7ba\x7d$".toList 100 []) :=
    Query.neverCut_of_runsUncut (show Query.runsUncut _ 6 _ = true by cbv)
  have hfield : twoFields.resolveFirst {} "$\x7ba\x7d$".toList = some ['x'] := by cbv
  have hfound : (twoFields.resolveFirst {} "$\x7ba\x7d$".toList).isSome := by
    rw [hfield]
    rfl
  exact ⟨hq, hs, hseparator, hcut, hfield,
    twoFields.resolveFirst_sideBySide {} _ [' '] _ hq hs hseparator hs hcut hfound hfound⟩

/-- Each of the fields needs one further level, and two of them need two: with a limit of two levels
one field is filled, and two fields side by side are not. -/
theorem resolveFirst_twoFields :
    (twoFields.query { maxDepth := 2 } "$\x7ba\x7d$ $\x7ba\x7d$".toList).IsFlat ∧
      Template.IsFlat "$\x7ba\x7d$".toList ∧ Template.IsPlain [' '] ∧
      twoFields.resolveFirst { maxDepth := 2 } "$\x7ba\x7d$".toList = some ['x'] ∧
      twoFields.resolveFirst { maxDepth := 2 } "$\x7ba\x7d$ $\x7ba\x7d$".toList = none :=
  ⟨isFlat_query_twoFields _ _, ⟨[.slot ['a']], by decide, rfl⟩, by decide, by cbv, by cbv⟩

/-- Where all values and defaults are plain, flat sources that can be filled can be filled side by
side under the same limit. -/
theorem resolveFirst_sideBySide_of_plain (e : Engine) (ctx : Context) (s₁ separator s₂ : Text)
    (hq : (e.query ctx (s₁ ++ separator ++ s₂)).HasPlainValues) (hs₁ : Template.IsFlat s₁)
    (hseparator : Template.IsPlain separator) (hs₂ : Template.IsFlat s₂)
    (h₁ : (e.resolveFirst ctx s₁).isSome) (h₂ : (e.resolveFirst ctx s₂).isSome) :
    (e.resolveFirst ctx (s₁ ++ separator ++ s₂)).isSome := by
  have hs : Template.IsFlat (s₁ ++ separator ++ s₂) := (hs₁.append hseparator.isFlat).append hs₂
  by_cases hl : ctx.maxDepth = 0
  · -- Without levels both sources are final, and so is the joint text.
    unfold resolveFirst at h₁ h₂ ⊢
    rw [hl] at h₁ h₂
    have hf₁ := hs₁.isFinal_append hseparator.isFlat (Query.isFinal_of_first_zero h₁)
      (Template.isFinal_of_isPlain hseparator)
    have hf := (hs₁.append hseparator.isFlat).isFinal_append hs₂ hf₁
      (Query.isFinal_of_first_zero h₂)
    unfold Query.first
    rw [if_pos hf]
    rfl
  · obtain ⟨ps, hps, he, hprod⟩ :=
      Query.exists_productive_pieces hq.isFlat hs₁ hseparator hs₂ h₁ h₂
    exact Query.isSome_first_of_productive hq.isFlat hps he hprod
      (Query.neverCut_of_plainValues hq hs hl)

end Engine

end Fillout
