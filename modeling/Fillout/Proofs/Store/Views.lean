import Fillout.Store.Basic
import Mathlib.Data.List.Basic

set_option autoImplicit false

/-! # The views of a store

A store answers from two views, the index of alternatives and the order of priority, which hold
identifiers and not rules. In a store that is in order (`RuleStore.Indexed`) they answer like the
list of rules itself: `byPattern` is the list without the rules that lack the alternative, and
`inPriorityOrder` is the list with the rules of the case in front. Nothing is lost, repeated or
moved, because each identifier belongs to one rule and no rule has an alternative twice.
-/

namespace Fillout

/-! ## The index of alternatives -/

namespace PatternIndex

theorem get_insert (index : PatternIndex) (id : RuleId) (alternative key : Text) :
    (index.insert id alternative).get key =
      if alternative = key then index.get key ++ [id] else index.get key := by
  induction index with
  | nil =>
      by_cases hk : alternative = key
      · simp [insert, get, hk]
      · simp [insert, get, hk, List.lookup_cons, beq_eq_false_iff_ne.2 (Ne.symm hk)]
  | cons entry index ih =>
      obtain ⟨a, ids⟩ := entry
      rw [insert]
      by_cases ha : a = alternative
      · subst ha
        by_cases hk : a = key
        · simp [get, hk]
        · simp [get, hk, List.lookup_cons, beq_eq_false_iff_ne.2 (Ne.symm hk)]
      · rw [if_neg ha]
        unfold get at ih ⊢
        rw [List.lookup_cons, List.lookup_cons]
        cases hka : key == a with
        | true =>
            have hk : alternative ≠ key := fun h => ha (by rw [h, eq_of_beq hka])
            simp [hk]
        | false => exact ih

/-- The alternatives of one rule put its identifier under each of them. -/
theorem get_foldl_insert (id : RuleId) {alternatives : List Text} (h : alternatives.Nodup)
    (index : PatternIndex) (key : Text) :
    (alternatives.foldl (fun index a => index.insert id a) index).get key =
      index.get key ++ if key ∈ alternatives then [id] else [] := by
  induction alternatives generalizing index with
  | nil => simp
  | cons a alternatives ih =>
      obtain ⟨ha, hrest⟩ := List.nodup_cons.1 h
      rw [List.foldl_cons, ih hrest, get_insert]
      by_cases hk : a = key
      · subst hk
        simp [ha]
      · simp [hk, Ne.symm hk]

/-- Under an alternative the index has the rules that have it, in the order of the list. -/
theorem get_ofRules {rules : List Rule} (h : ∀ r ∈ rules, r.body.pattern.alternatives.Nodup)
    (key : Text) :
    (ofRules rules).get key =
      (rules.filter fun r => r.body.pattern.contains key).map Rule.id := by
  have hfold : ∀ index : PatternIndex,
      (rules.foldl (fun index r =>
        r.body.pattern.alternatives.foldl (fun index a => index.insert r.id a)
          index) index).get key =
        index.get key ++ (rules.filter fun r => r.body.pattern.contains key).map Rule.id := by
    induction rules with
    | nil => simp
    | cons r rules ih =>
        intro index
        obtain ⟨hr, hrest⟩ := List.forall_mem_cons.1 h
        rw [List.foldl_cons, ih hrest, get_foldl_insert r.id hr, List.filter_cons]
        have hc : r.body.pattern.contains key = true ↔ key ∈ r.body.pattern.alternatives := by
          simp [RulePattern.contains]
        by_cases hk : key ∈ r.body.pattern.alternatives
        · simp [hc.2 hk, hk]
        · simp [mt hc.1 hk, hk]
  exact hfold []

end PatternIndex

/-! ## Stores in order -/

namespace RuleId

variable {i j : RuleId}

theorem ne_of_before (h : i.before j = true) : i ≠ j := by
  rintro rfl
  rw [before_irrefl] at h
  cases h

theorem not_before_of_before (h : i.before j = true) : ¬ j.before i = true :=
  fun h' => ne_of_before (before_trans h h') rfl

end RuleId

namespace RuleStore

/-- A store is in order if the identifiers of its rules ascend, no rule has an alternative twice,
and the views are those of its rules. -/
structure Indexed (s : RuleStore) : Prop where
  ascending : s.rules.Pairwise fun a b => a.id.before b.id
  alternatives : ∀ r ∈ s.rules, r.body.pattern.alternatives.Nodup
  index : s.index.get = .ofRules s.rules
  priority : s.priority.get = (priorityOrder s.rules).map Rule.id

variable {s : RuleStore}

/-- A store in order consists of its rules and its numbers. -/
theorem Indexed.eq_ofRules (h : s.Indexed) : s = ofRules s.rules s.lastOrdinary s.lastTemplate := by
  obtain ⟨rules, m, n, index, priority⟩ := s
  have hindex : index = (ofRules rules m n).index := Thunk.ext h.index
  have hpriority : priority = (ofRules rules m n).priority := Thunk.ext h.priority
  rw [hindex, hpriority]
  rfl

/-- Where identifiers ascend, the rule with the identifier of a rule of the list is this rule. -/
theorem find?_id {rules : List Rule} (h : rules.Pairwise fun a b => a.id.before b.id) {r : Rule}
    (hr : r ∈ rules) : rules.find? (·.id = r.id) = some r := by
  induction rules with
  | nil => cases hr
  | cons x rules ih =>
      obtain ⟨hx, hrest⟩ := List.pairwise_cons.1 h
      rcases List.mem_cons.1 hr with rfl | hr
      · simp
      · have hne : x.id ≠ r.id := RuleId.ne_of_before (hx r hr)
        rw [List.find?_cons_of_neg (by simpa using hne)]
        exact ih hrest hr

/-- Rules of the store are found again under their identifiers. -/
theorem filterMap_get? (h : s.rules.Pairwise fun a b => a.id.before b.id) {rules : List Rule}
    (hsub : ∀ r ∈ rules, r ∈ s.rules) : (rules.map Rule.id).filterMap s.get? = rules := by
  induction rules with
  | nil => rfl
  | cons r rules ih =>
      have hr : s.get? r.id = some r := find?_id h (hsub r List.mem_cons_self)
      rw [List.map_cons, List.filterMap_cons_some hr,
        ih fun x hx => hsub x (List.mem_cons_of_mem r hx)]

/-- The index finds the rules that have an alternative, in the order of the identifiers. -/
theorem Indexed.byPattern_eq (h : s.Indexed) (key : Text) :
    s.byPattern key = s.rules.filter fun r => r.body.pattern.contains key := by
  unfold byPattern
  rw [h.index, PatternIndex.get_ofRules h.alternatives]
  exact filterMap_get? h.ascending fun r hr => (List.mem_filter.1 hr).1

/-- In the order of priority the rules of the case stand in front, and nothing else changes. -/
theorem Indexed.inPriorityOrder_eq (h : s.Indexed) : s.inPriorityOrder = priorityOrder s.rules := by
  unfold inPriorityOrder
  rw [h.priority]
  refine filterMap_get? h.ascending fun r hr => ?_
  rcases List.mem_append.1 hr with hr | hr
  · exact (List.mem_filter.1 hr).1
  · exact (List.mem_filter.1 hr).1

end RuleStore

end Fillout
