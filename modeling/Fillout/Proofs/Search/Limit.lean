import Fillout.Proofs.Search.Afresh
import Fillout.Resolve.Engine
import Mathlib

set_option autoImplicit false

/-! # Raising the limit

A larger limit can lose an answer (`Engine.resolveFirst_twoWays`). A text that has been met is not
taken up again, not even with more levels left; so if a long way leads to a text first, and uses up
the levels, a short way to the same text comes too late. Under a smaller limit the long way ends
before it gets there.

This needs a limit that is met. If the answer can be worked out within a limit, every larger limit
leads to the same answer (`Engine.resolveFirst_of_limit_le`). The limit is part of the context,
which providers are given, so they must not read it.
-/

namespace Fillout

/-- No provider reads the limit of the context. -/
def Environment.IgnoresLimit (env : Environment) : Prop :=
  ∀ name provider, (name, provider) ∈ env.providers →
    ∀ ctx limit, provider { ctx with maxDepth := limit } = provider ctx

namespace Environment

variable {env : Environment} (h : env.IgnoresLimit) (ctx : Context) (limit : Nat)

include h

theorem IgnoresLimit.compute? (name : Text) :
    env.compute? name { ctx with maxDepth := limit } = env.compute? name ctx := by
  unfold Environment.compute?
  cases hl : env.providers.lookup name with
  | none => rfl
  | some provider =>
      obtain ⟨l₁, l₂, he, -⟩ := List.lookup_eq_some_iff.1 hl
      have hmem : (name, provider) ∈ env.providers := by
        rw [he]
        simp
      exact congrArg some (h name provider hmem ctx limit)

theorem IgnoresLimit.defaultFor? (key : Text) :
    env.defaultFor? key { ctx with maxDepth := limit } = env.defaultFor? key ctx := by
  unfold Environment.defaultFor?
  split
  · rfl
  · exact h.compute? ctx limit _
  · rfl

end Environment

namespace Query

/-! ## What the limit has no part in -/

section

variable {e : Engine} (h : e.env.IgnoresLimit) (ctx : Context) (limit : Nat) (top : Text)

include h

theorem plainValue?_limit (r : Rule) :
    (e.query { ctx with maxDepth := limit } top).plainValue? r =
      (e.query ctx top).plainValue? r := by
  unfold plainValue?
  split
  · rfl
  · exact h.compute? ctx limit _

theorem rulesAsking_limit (ms : List Selected) :
    (e.query { ctx with maxDepth := limit } top).rulesAsking ms =
      (e.query ctx top).rulesAsking ms := by
  induction ms with
  | nil => rfl
  | cons m ms ih =>
      unfold rulesAsking ruleAsking dateAsking
      rw [ih, plainValue?_limit h]

theorem variableAsking_limit (key : Text) :
    (e.query { ctx with maxDepth := limit } top).variableAsking key =
      (e.query ctx top).variableAsking key := by
  have hdefault : (e.query { ctx with maxDepth := limit } top).env.defaultFor? key
      (e.query { ctx with maxDepth := limit } top).ctx = e.env.defaultFor? key ctx :=
    h.defaultFor? ctx limit key
  unfold variableAsking
  rw [rulesAsking_limit h, hdefault]
  rfl

theorem entriesAsking_limit (es : List Template.Entry) :
    (e.query { ctx with maxDepth := limit } top).entriesAsking es =
      (e.query ctx top).entriesAsking es := by
  induction es with
  | nil => rfl
  | cons entry es ih =>
      cases entry with
      | «variable» key =>
          rw [entriesAsking, entriesAsking, variableAsking_limit h, ih]
      | expression text =>
          rw [entriesAsking, entriesAsking, ih]
          rfl

/-- What a container can be filled with does not depend on the limit. -/
theorem stepsAsking_limit (c : Template.Container) :
    (e.query { ctx with maxDepth := limit } top).stepsAsking c =
      (e.query ctx top).stepsAsking c := by
  unfold stepsAsking
  rw [entriesAsking_limit h]

end

variable {q q' : Query}

theorem exploreAfresh_congr (h : ∀ c, q.stepsAsking c = q'.stepsAsking c) (stack : List Node)
    (p : Progress) : q.exploreAfresh stack p = q'.exploreAfresh stack p := by
  induction ha : Agenda.mk stack using Agenda.wellFounded.induction generalizing stack p with
  | _ a ih =>
    subst ha
    cases stack with
    | nil => rw [exploreAfresh, exploreAfresh]
    | cons node rest =>
        by_cases hl : node.left = 0
        · rw [exploreAfresh, exploreAfresh, dif_pos hl, dif_pos hl]
        · rcases q.lookInto_cases node p [] with ⟨hskip, -⟩ | ⟨c, hpos, hc, hs, -⟩
          · rw [exploreAfresh_of_skips hl hskip, exploreAfresh_of_skips hl hskip]
            exact ih _ (.skip node rest) rest p rfl
          · have hvalues : q.value? (node.left - 1) = q'.value? (node.left - 1) := by
              funext source
              unfold value?
              rw [ih _ (.restart (Node.smaller_of_left (Nat.sub_one_lt hl)) rest) _ _ rfl]
            rw [exploreAfresh_of_container hpos hc hs, exploreAfresh_of_container hpos hc hs, h,
              hvalues]
            refine congrArg (Option.bind _) (funext fun steps => ?_)
            have hsmall := Progress.takeUp_smaller hpos steps (p.settle c.remainder node.left)
            rcases ht : Progress.takeUp node steps (p.settle c.remainder node.left) with
              ⟨_ | t, nodes, p'⟩
            · rw [ht] at hsmall
              exact ih _ (.keep hsmall) (nodes ++ rest) p' rfl
            · rfl

theorem value?_congr (h : ∀ c, q.stepsAsking c = q'.stepsAsking c) (left : Nat) (source : Text) :
    q.value? left source = q'.value? left source := by
  unfold value?
  rw [exploreAfresh_congr h]

/-- The search for a final text finds what can be worked out, with any number of further levels. -/
theorem first_of_value? {left : Nat} {source : Text} {r : Option Text}
    (h : q.value? left source = some r) (k : Nat) : (q.first source (left + k) []).1 = r := by
  unfold value? at h
  unfold first
  split at h
  · rw [if_pos ‹_›]
    exact Option.some.inj h
  · rw [if_neg ‹_›]
    exact (explore_of_exploreAfresh k (P := q.CacheTrue [])
      (fun _ _ _ _ _ hv hc => resolveNested_of_cacheTrue hv k hc)
      (fun n hn => by rw [List.mem_singleton.1 hn]) h .nil).1

end Query

namespace Engine

/-- If what `source` resolves to can be worked out within a limit, it is what `resolveFirst` returns
under this limit and under every larger one. -/
theorem resolveFirst_of_limit_le (e : Engine) (ctx : Context) (source : Text) {limit limit' : Nat}
    (hle : limit ≤ limit') (henv : e.env.IgnoresLimit) {r : Option Text}
    (h : (e.query ctx source).value? limit source = some r) :
    e.resolveFirst { ctx with maxDepth := limit } source = r ∧
      e.resolveFirst { ctx with maxDepth := limit' } source = r := by
  have hsame : ∀ l, (e.query { ctx with maxDepth := l } source).value? limit source = some r := by
    intro l
    rw [← h]
    exact Query.value?_congr (Query.stepsAsking_limit henv ctx l source) limit source
  obtain ⟨k, rfl⟩ := Nat.exists_eq_add_of_le hle
  exact ⟨Query.first_of_value? (hsame limit) 0, Query.first_of_value? (hsame (limit + k)) k⟩

/-- Two ways lead from `a` to `x`: a long one by way of `p`, `q` and `r`, and a
short one by way of `s`. -/
def twoWays : Engine where
  store := (RuleStore.ofRecords
    [{ kind := .equal, pattern := ['a'], value := .literal "$\x7bp\x7d$".toList },
     { kind := .equal, pattern := ['a'], value := .literal "$\x7bs\x7d$".toList },
     { kind := .equal, pattern := ['p'], value := .literal "$\x7bq\x7d$".toList },
     { kind := .equal, pattern := ['q'], value := .literal "$\x7br\x7d$".toList },
     { kind := .equal, pattern := ['r'], value := .literal "$\x7bx\x7d$".toList },
     { kind := .equal, pattern := ['s'], value := .literal "$\x7bx\x7d$".toList },
     { kind := .equal, pattern := ['x'], value := .literal "ok".toList }]).1
  env := .empty

/-- With five levels the long way leads to the answer, and so it does with any more. -/
theorem resolveFirst_of_limit_le_twoWays :
    5 ≤ 100 ∧ twoWays.env.IgnoresLimit ∧
      (twoWays.query {} "$\x7ba\x7d$".toList).value? 5 "$\x7ba\x7d$".toList =
        some (some "ok".toList) ∧
      twoWays.resolveFirst { maxDepth := 5 } "$\x7ba\x7d$".toList = some "ok".toList ∧
      twoWays.resolveFirst { maxDepth := 100 } "$\x7ba\x7d$".toList = some "ok".toList := by
  have henv : twoWays.env.IgnoresLimit := fun _ _ h => nomatch h
  have hv : (twoWays.query {} "$\x7ba\x7d$".toList).value? 5 "$\x7ba\x7d$".toList =
      some (some "ok".toList) := by cbv
  exact ⟨by decide, henv, hv, twoWays.resolveFirst_of_limit_le {} _ (by decide) henv hv⟩

/-- With three levels the long way ends early and the short one leads to the answer. With four
levels the long way gets as far as `x`, and the answer is lost. -/
theorem resolveFirst_twoWays :
    3 ≤ 4 ∧ twoWays.resolveFirst { maxDepth := 3 } "$\x7ba\x7d$".toList = some "ok".toList ∧
      twoWays.resolveFirst { maxDepth := 4 } "$\x7ba\x7d$".toList = none :=
  ⟨by decide, by cbv, by cbv⟩

end Engine

end Fillout
