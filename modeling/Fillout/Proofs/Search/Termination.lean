import Fillout.Proofs.Search.Returns
import Mathlib

set_option autoImplicit false

/-! # The engine returns

`Engine.calls_return` is the result on the calls of the engine: on a machine whose words hold the
limit of the context, every call returns what the engine answers, whatever the rules are. The
measure is the pair of `limit - depth` and the number of containers: it decreases from a text to the
texts that come from it, and to those that its values depend on (`Pending.Smaller`).
-/

namespace Fillout

open Filter

/-- Fewer levels are left below `limit`, or as many and there are fewer containers. -/
def Pending.Smaller (limit : Nat) (a b : Pending) : Prop :=
  Prod.Lex (· < ·) (· < ·) (limit - a.depth, Template.containerCount a.text)
    (limit - b.depth, Template.containerCount b.text)

theorem Pending.smaller_wellFounded (limit : Nat) : WellFounded (Pending.Smaller limit) :=
  InvImage.wf (fun a : Pending => (limit - a.depth, Template.containerCount a.text))
    (Prod.lex Nat.lt_wfRel Nat.lt_wfRel).wf

/-- Above the limit, a text that comes from another has a depth and is smaller. -/
theorem Pending.child_smaller {largest limit : Nat} (hw : limit ≤ largest) {parent : Pending}
    (hd : parent.depth < limit) (text : Text) :
    ∃ child, parent.child largest text = .ok child ∧ child.text = text ∧
      child.Smaller limit parent := by
  obtain ⟨child, hchild, hnode⟩ := parent.child_of_lt hw hd text
  have hsmall : ((parent.node limit).child text).Smaller (parent.node limit) :=
    Node.child_smaller (Nat.sub_pos_of_lt hd) text
  rw [← hnode] at hsmall
  exact ⟨child, hchild, congrArg Node.text hnode, hsmall⟩

/-- Above the limit, one level deeper is a depth, and every text there is smaller. -/
theorem Pending.deeper_smaller {largest limit : Nat} (hw : limit ≤ largest) {parent : Pending}
    (hd : parent.depth < limit) (text : Text) :
    ∃ depth, deeper largest parent.depth = .ok depth ∧ Pending.Smaller limit ⟨text, depth⟩ parent :=
  ⟨parent.depth + 1, deeper_of_lt (Nat.lt_of_lt_of_le hd hw), .left _ _ (by
    show limit - (parent.depth + 1) < limit - parent.depth
    omega)⟩

namespace Query

variable {q : Query} {largest : Nat}

theorem firstAt_returns (hw : q.ctx.maxDepth ≤ largest) (source : Text) (cache : Cache) :
    ∀ᶠ fuel in atTop, firstAt (q.exploreAt largest fuel) source 0 cache =
      .ok (q.first source q.ctx.maxDepth cache) := by
  unfold firstAt first
  by_cases hf : Template.isFinal source
  · rw [if_pos hf]
    exact .of_forall fun _ => if_pos hf
  · rw [if_neg hf]
    filter_upwards [exploreAt_start_returns hw 0 source cache] with fuel hrun
    rw [if_neg hf, hrun]
    rfl

/-- The way back from what a search has found is as long as the list of its origins at most. -/
theorem rulesBack?_first (source : Text) (left : Nat) (cache : Cache) (t : Text) :
    ∀ᶠ fuel in atTop, rulesBack? (q.first source left cache).2.1 fuel t =
      some (ruleChain (q.first source left cache).2.1 t) := by
  have hord : Ordered (q.first source left cache).2.1 := by
    unfold first
    split
    · exact .nil
    · exact explore_ordered source left cache
  filter_upwards [eventually_gt_atTop (q.first source left cache).2.1.length] with fuel hf
  exact rulesBack_eq_ruleChain hord t hf

end Query

namespace Engine

variable {e : Engine} {ctx : Context} {largest : Nat}

theorem resolveFirstAt_returns (hw : ctx.maxDepth ≤ largest) (source : Text) :
    Returns (fun fuel => e.resolveFirstAt largest fuel ctx source) (e.resolveFirst ctx source) := by
  apply returns_of_eventually
  filter_upwards [Query.firstAt_returns (q := e.query ctx source) hw source []] with fuel hf
  unfold resolveFirstAt
  rw [hf]
  rfl

theorem resolveBestAt_returns (hw : ctx.maxDepth ≤ largest) (source : Text) :
    Returns (fun fuel => e.resolveBestAt largest fuel ctx source) (e.resolveBest ctx source) := by
  obtain ⟨s, hat, hs⟩ := Query.surveyAt_returns (q := e.query ctx source) hw [⟨source, 0⟩]
    (.start source) [] fun _ hx => nomatch hx
  apply returns_of_eventually
  filter_upwards [hat] with fuel hf
  have hbest : e.resolveBest ctx source = (s.levels ctx.maxDepth).champion.text := by
    rw [show s.levels ctx.maxDepth = _ from hs]
    rfl
  unfold resolveBestAt
  rw [hf, hbest]
  rfl

theorem explainAt_returns (hw : ctx.maxDepth ≤ largest) (source : Text) :
    Returns (fun fuel => e.explainAt largest fuel ctx source) (e.explain ctx source) := by
  apply returns_of_eventually
  unfold explain
  rcases hr : (e.query ctx source).first source ctx.maxDepth [] with ⟨_ | t, origins, cache⟩
  · filter_upwards [Query.firstAt_returns (q := e.query ctx source) hw source []] with fuel hf
    have hf : _ = Except.ok ((e.query ctx source).first source ctx.maxDepth []) := hf
    unfold explainAt
    rw [hf, hr]
    rfl
  · -- The clock has to be long enough for the search and for the way back.
    filter_upwards [Query.firstAt_returns (q := e.query ctx source) hw source [],
      (e.query ctx source).rulesBack?_first source ctx.maxDepth [] t] with fuel hf hback
    have hf : _ = Except.ok ((e.query ctx source).first source ctx.maxDepth []) := hf
    rw [hr] at hf hback
    unfold explainAt
    rw [hf]
    dsimp only [Bind.bind, Except.bind]
    rw [hback]
    rfl

theorem oneStepAt_returns (hpos : 0 < largest) (hw : ctx.maxDepth ≤ largest) (source : Text) :
    Returns (fun fuel => e.oneStepAt largest fuel ctx source) (e.oneStep ctx source) := by
  apply returns_of_eventually
  filter_upwards [Query.allSteps_tracks (q := e.query ctx source)
    (Query.nestedAt_returns (q := e.query ctx source) hw hpos) (Template.containers source) []]
    with fuel hf
  unfold oneStepAt
  dsimp only
  rw [hf]
  rfl

theorem candidatesForAt_returns (hpos : 0 < largest) (hw : ctx.maxDepth ≤ largest) (key : Text) :
    Returns (fun fuel => e.candidatesForAt largest fuel ctx key) (e.candidatesFor ctx key) := by
  have hw : (e.query ctx (Template.opener ++ key ++ Template.closer)).ctx.maxDepth ≤ largest := hw
  apply returns_of_eventually
  filter_upwards [Query.variableValues_tracks (Query.nestedAt_returns hw hpos) key []] with fuel hf
  unfold candidatesForAt
  dsimp only
  rw [hf]
  rfl

/-- On a machine whose depths are words, with the limit of the context among them, every call of the
engine returns, with the answer of the engine, for every clock that is long enough. A text that the
searches look into stands above the limit; so the depths of the texts that come from it, and of
those that its values depend on, do not overflow, and these texts are smaller. -/
theorem calls_return (e : Engine) (ctx : Context) (source key : Text) {largest : Nat}
    (hpos : 0 < largest) (hw : ctx.maxDepth ≤ largest) :
    Returns (fun fuel => e.resolveFirstAt largest fuel ctx source) (e.resolveFirst ctx source) ∧
    Returns (fun fuel => e.resolveBestAt largest fuel ctx source) (e.resolveBest ctx source) ∧
    Returns (fun fuel => e.explainAt largest fuel ctx source) (e.explain ctx source) ∧
    Returns (fun fuel => e.oneStepAt largest fuel ctx source) (e.oneStep ctx source) ∧
    Returns (fun fuel => e.candidatesForAt largest fuel ctx key) (e.candidatesFor ctx key) ∧
    WellFounded (Pending.Smaller ctx.maxDepth) ∧
    ∀ (parent : Pending) (text : Text), parent.depth < ctx.maxDepth →
      (∃ child, parent.child largest text = .ok child ∧ child.text = text ∧
        child.Smaller ctx.maxDepth parent) ∧
      ∃ depth, deeper largest parent.depth = .ok depth ∧
        Pending.Smaller ctx.maxDepth ⟨text, depth⟩ parent := by
  refine ⟨resolveFirstAt_returns hw source, resolveBestAt_returns hw source,
    explainAt_returns hw source, oneStepAt_returns hpos hw source,
    candidatesForAt_returns hpos hw key, Pending.smaller_wellFounded _, ?_⟩
  intro parent text hd
  exact ⟨parent.child_smaller hw hd text, Pending.deeper_smaller hw hd text⟩

/-- Without rules, and with defaults for two variables that refer to each other. -/
def mutualDefaults : Engine where
  store := .empty
  env := (Environment.empty.setDefault ['a'] (.static "$\x7bb\x7d$".toList)).setDefault ['b']
    (.static "$\x7ba\x7d$".toList)

/-- No limit stands between two variables that refer to each other here but the largest word of 64
bits, and still the calls return. -/
theorem calls_return_mutualDefaults :
    0 < 2 ^ 64 - 1 ∧ Context.maxDepth { maxDepth := 2 ^ 64 - 1 } ≤ 2 ^ 64 - 1 ∧
      Returns (fun fuel => mutualDefaults.resolveFirstAt (2 ^ 64 - 1) fuel
        { maxDepth := 2 ^ 64 - 1 } "x$\x7ba\x7d$".toList) none ∧
      Returns (fun fuel => mutualDefaults.resolveBestAt (2 ^ 64 - 1) fuel
        { maxDepth := 2 ^ 64 - 1 } "x$\x7ba\x7d$".toList) "x$\x7ba\x7d$".toList ∧
      Returns (fun fuel => mutualDefaults.explainAt (2 ^ 64 - 1) fuel
        { maxDepth := 2 ^ 64 - 1 } "x$\x7ba\x7d$".toList) none ∧
      Returns (fun fuel => mutualDefaults.oneStepAt (2 ^ 64 - 1) fuel
        { maxDepth := 2 ^ 64 - 1 } "x$\x7ba\x7d$".toList) ["x$\x7bb\x7d$".toList] ∧
      Returns (fun fuel => mutualDefaults.candidatesForAt (2 ^ 64 - 1) fuel
        { maxDepth := 2 ^ 64 - 1 } ['b']) ["$\x7ba\x7d$".toList] := by
  obtain ⟨hfirst, hbest, hexplain, hstep, hvalues, -⟩ := calls_return mutualDefaults
    { maxDepth := 2 ^ 64 - 1 } "x$\x7ba\x7d$".toList ['b']
    (show 0 < 2 ^ 64 - 1 by decide) (Nat.le_refl _)
  refine ⟨by decide, Nat.le_refl _, ?_, ?_, ?_, ?_, ?_⟩
  · rwa [show mutualDefaults.resolveFirst _ _ = none by cbv] at hfirst
  · rwa [show mutualDefaults.resolveBest _ _ = "x$\x7ba\x7d$".toList by cbv] at hbest
  · rwa [show mutualDefaults.explain _ _ = none by cbv] at hexplain
  · rwa [show mutualDefaults.oneStep _ _ = ["x$\x7bb\x7d$".toList] by cbv] at hstep
  · rwa [show mutualDefaults.candidatesFor _ _ = ["$\x7ba\x7d$".toList] by cbv] at hvalues

end Engine

end Fillout
