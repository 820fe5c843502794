import Fillout.Proofs.Expr.FindRule
import Fillout.Proofs.Store.KeptViews
import Fillout.Resolve.Selection

set_option autoImplicit false

/-! # Rules that may not be used

The rules that may not be used in a context have no part in which rules are selected there: without
them the same rules are selected, with the same alternatives and in the same order
(`select_without`). They are dropped before anything is looked for among the others, so they decide
neither on the tier nor on whether the rules are gone through.

One way round this is left. A formula that applies `findRule` is answered from all rules. So the
formulas that are evaluated on the way are listed (`selectEvaluations`), and none of them may do so.
-/

namespace Fillout

/-! ## Formulas -/

/-- The formulas of a rule that are evaluated to find the first one that matches the name `key`. -/
def Rule.triedFormulas (r : Rule) (findRule : RuleKind → Text → Option Text)
    (key : Text) : List Text :=
  if r.body.kind = .formula then
    lookedAt (fun a => Expr.isTruthy (Expr.evaluate ⟨key, findRule⟩ a)) r.body.pattern.alternatives
  else []

/-- The formulas that are evaluated to find the rules that match `key` among some rules. -/
def matchingEvaluations (store : RuleStore) (ctx : Context) (key : Text) (rules : List Rule) :
    List Evaluation :=
  rules.flatMap fun r =>
    if r.applies ctx then
      (r.triedFormulas store.findLiteral? key).map fun a => ⟨⟨key, store.findLiteral?⟩, a⟩
    else []

/-- The formulas that are evaluated to select the rules that offer a value for `key`. -/
def selectEvaluations (store : RuleStore) (ctx : Context) (key : Text) : List Evaluation :=
  matchingEvaluations store ctx key (store.byPattern key) ++
    if (matchingRules store ctx key (store.byPattern key)).isEmpty then
      matchingEvaluations store ctx key (store.inPriorityOrder.filter fun r => r.body.kind ≠ .equal)
    else []

/-- The rules have no part in which alternative matches if no formula applies `findRule`. -/
theorem Rule.matchingAlternative?_congr {r : Rule}
    {findRule findRule' : RuleKind → Text → Option Text}
    {key : Text} (h : ∀ a ∈ r.triedFormulas findRule key,
      Evaluation.appliesFindRule ⟨⟨key, findRule⟩, a⟩ = false) :
    r.matchingAlternative? findRule' key = r.matchingAlternative? findRule key := by
  unfold matchingAlternative?
  unfold triedFormulas at h
  generalize r.body.pattern.alternatives = alternatives, 0 = i at h ⊢
  induction alternatives generalizing i with
  | nil => rfl
  | cons a alternatives ih =>
      by_cases hk : r.body.kind = .formula
      · rw [if_pos hk, lookedAt] at h
        have hsame : r.alternativeMatches findRule' key i a =
            r.alternativeMatches findRule key i a := by
          have ha := Evaluation.evaluate_congr (h a (by split <;> simp)) ⟨key, findRule'⟩ rfl
          simp only [alternativeMatches, hk]
          rw [ha]
        rw [firstMatchFrom, firstMatchFrom, hsame]
        split
        · rfl
        · rename_i hnot
          simp only [alternativeMatches, hk] at hnot
          rw [if_neg hnot] at h
          refine ih (i + 1) fun b hb => ?_
          rw [if_pos hk] at hb
          exact h b (List.mem_cons_of_mem a hb)
      · -- Rules of other kinds do not look at the rules at all.
        have hsame : r.alternativeMatches findRule' key i a =
            r.alternativeMatches findRule key i a := by
          unfold alternativeMatches
          split
          all_goals first | rfl | exact absurd ‹_› hk
        rw [firstMatchFrom, firstMatchFrom, hsame, ih (i + 1) fun b hb => ?_]
        rw [if_neg hk] at hb
        cases hb

/-! ## Selection -/

section

variable {s s' : RuleStore} {ctx : Context} {key : Text} {keep : Rule → Bool}

theorem matchingRules_without {rules : List Rule}
    (hkeep : ∀ r ∈ rules, keep r = false → r.applies ctx = false)
    (h : ∀ x ∈ matchingEvaluations s ctx key rules, x.appliesFindRule = false) :
    matchingRules s' ctx key (rules.filter keep) = matchingRules s ctx key rules := by
  unfold matchingEvaluations at h
  unfold matchingRules
  induction rules with
  | nil => rfl
  | cons r rules ih =>
      obtain ⟨hr, hrest⟩ := List.forall_mem_cons.1 hkeep
      rw [List.flatMap_cons, List.forall_mem_append] at h
      have hsame := ih hrest h.2
      cases hk : keep r with
      | false => rw [List.filter_cons_of_neg (by simp [hk]), List.filterMap_cons, hr hk, hsame]; rfl
      | true =>
          rw [List.filter_cons_of_pos hk, List.filterMap_cons, List.filterMap_cons, hsame]
          by_cases ha : r.applies ctx = true
          · rw [if_pos ha, if_pos ha, Rule.matchingAlternative?_congr fun a ha' => ?_]
            refine h.1 _ ?_
            rw [if_pos ha]
            exact List.mem_map_of_mem ha'
          · rw [if_neg ha, if_neg ha]

/-- Without rules that may not be used the same rules are selected. -/
theorem select_without (hs : s.Indexed) (hs' : s'.Indexed) (hrules : s'.rules = s.rules.filter keep)
    (hkeep : ∀ r ∈ s.rules, keep r = false → r.applies ctx = false)
    (h : ∀ x ∈ selectEvaluations s ctx key, x.appliesFindRule = false) :
    select s' ctx key = select s ctx key := by
  have hdeclaring : s'.byPattern key = (s.byPattern key).filter keep := by
    rw [hs'.byPattern_eq, hs.byPattern_eq, hrules, List.filter_comm]
  have hothers : (s'.inPriorityOrder.filter fun r => r.body.kind ≠ .equal) =
      (s.inPriorityOrder.filter fun r => r.body.kind ≠ .equal).filter keep := by
    rw [hs'.inPriorityOrder_eq, hs.inPriorityOrder_eq, hrules]
    unfold priorityOrder
    simp only [List.filter_append, List.filter_filter]
    congr 1 <;> exact List.filter_congr fun r _ => by ac_rfl
  unfold selectEvaluations at h
  rw [List.forall_mem_append] at h
  have hhits : matchingRules s' ctx key (s'.byPattern key) =
      matchingRules s ctx key (s.byPattern key) := by
    rw [hdeclaring]
    refine matchingRules_without (fun r hr => hkeep r ?_) h.1
    rw [hs.byPattern_eq] at hr
    exact (List.mem_filter.1 hr).1
  unfold select
  dsimp only
  rw [hhits]
  by_cases hnone : (matchingRules s ctx key (s.byPattern key)).isEmpty = true
  · rw [if_pos hnone] at h
    rw [if_pos hnone, if_pos hnone, hothers]
    refine matchingRules_without (fun r hr => hkeep r ?_) h.2
    rw [hs.inPriorityOrder_eq] at hr
    exact (List.filter_append_perm Rule.isCase s.rules).subset (List.mem_filter.1 hr).1
  · rw [if_neg hnone, if_neg hnone]

end

/-! ## Removing rules -/

namespace RuleStore

/-- The rules that are left when one is removed. -/
theorem rules_after_remove (s : RuleStore) (id : RuleId) :
    (s.after (.remove id)).rules = s.rules.filter fun r => r.id ≠ id := by
  cases hr : s.get? id with
  | some r =>
      simp only [after, attempt, remove, hr]
      rfl
  | none =>
      have hunknown : s.after (.remove id) = s := by
        simp only [after, attempt, remove, hr]
        rfl
      rw [hunknown]
      refine (List.filter_eq_self.2 fun r hr' => ?_).symm
      simpa using List.find?_eq_none.1 hr r hr'

/-- The rules that are left when those with some identifiers are removed. -/
theorem rules_afterAll_remove (s : RuleStore) (ids : List RuleId) :
    (s.afterAll (ids.map .remove)).rules = s.rules.filter fun r => r.id ∉ ids := by
  induction ids generalizing s with
  | nil => simp [afterAll]
  | cons id ids ih =>
      rw [List.map_cons, afterAll, List.foldl_cons]
      refine (ih (s.after (.remove id))).trans ?_
      rw [rules_after_remove, List.filter_filter]
      exact List.filter_congr fun r _ => by simp [Bool.and_comm]

theorem Reachable.afterAll {s : RuleStore} (h : s.Reachable) (changes : List Change) :
    (s.afterAll changes).Reachable := afterAll_keeps (fun c _ _ hs => hs.after c) h

end RuleStore

end Fillout
