import Fillout.Resolve.Selection
import Mathlib.Tactic.Tauto

set_option autoImplicit false

/-! # Selected rules

The rules that are selected for a name are rules of the store that may be used
(`rule_of_mem_select`), whichever view of the store they are looked up in.
-/

namespace Fillout

theorem RuleStore.mem_of_get? {store : RuleStore} {id : RuleId} {r : Rule}
    (h : store.get? id = some r) : r ∈ store.rules := List.mem_of_find?_eq_some h

theorem RuleStore.mem_of_mem_byPattern {store : RuleStore} {key : Text} {r : Rule}
    (h : r ∈ store.byPattern key) : r ∈ store.rules := by
  obtain ⟨id, -, hr⟩ := List.mem_filterMap.1 h
  exact mem_of_get? hr

theorem RuleStore.mem_of_mem_inPriorityOrder {store : RuleStore} {r : Rule}
    (h : r ∈ store.inPriorityOrder) : r ∈ store.rules := by
  obtain ⟨id, -, hr⟩ := List.mem_filterMap.1 h
  exact mem_of_get? hr

theorem mem_of_mem_matchingRules {store : RuleStore} {ctx : Context} {key : Text}
    {rules : List Rule} {m : Selected} (h : m ∈ matchingRules store ctx key rules) :
    m.rule ∈ rules ∧ m.rule.applies ctx := by
  obtain ⟨r, hr, hm⟩ := List.mem_filterMap.1 h
  split at hm
  · rename_i ha
    obtain ⟨i, -, rfl⟩ := Option.map_eq_some_iff.1 hm
    exact ⟨hr, ha⟩
  · cases hm

theorem mem_of_mem_inTiers {hits : List Selected} {m : Selected} (h : m ∈ inTiers hits) :
    m ∈ hits := by
  unfold inTiers preferring at h
  split at h
  · exact (List.mem_filter.1 h).1
  · split at h
    · simp only [List.mem_append, List.mem_filter] at h
      tauto
    · simp only [List.mem_append, List.mem_filter] at h
      tauto

/-- A rule that is selected is a rule of the store and may be used. -/
theorem rule_of_mem_select {store : RuleStore} {ctx : Context} {key : Text} {m : Selected}
    (h : m ∈ select store ctx key) : m.rule ∈ store.rules ∧ m.rule.applies ctx := by
  unfold select at h
  dsimp only at h
  split at h
  · obtain ⟨hr, ha⟩ := mem_of_mem_matchingRules h
    exact ⟨RuleStore.mem_of_mem_inPriorityOrder (List.mem_filter.1 hr).1, ha⟩
  · obtain ⟨hr, ha⟩ := mem_of_mem_matchingRules (mem_of_mem_inTiers h)
    exact ⟨RuleStore.mem_of_mem_byPattern hr, ha⟩

end Fillout
