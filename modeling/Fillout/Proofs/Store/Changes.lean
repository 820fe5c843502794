import Fillout.Proofs.Store.Reachable

set_option autoImplicit false

/-! # Changes of a store

A `Change` is one of the operations that may change a store, with its arguments. A change that fails
leaves the store as it is. `RuleStore.stages` lists the stores that a sequence of changes goes
through, and `RuleStore.givenIds` the identifiers that are given out on the way.

What one change does to the rules is said once (`mem_rules_after`): every rule was there before, or
is the rule of an added record, or comes from a rule that was there by another pattern or another
value. What it does to the numbers given out last is said by `lastFor_after` and
`number_of_givenId?`: they stay or go up by one, and they go up where an identifier is given out.
-/

namespace Fillout

/-- An operation that may change a store. -/
inductive Change
  | add (record : Record)
  | remove (id : RuleId)
  | setPattern (id : RuleId) (pattern : Text)
  | setValue (id : RuleId) (value : RuleValue)
  | clear

namespace RuleStore

/-- What a change leads to: the identifier that it gives out, if it gives out one, and the new
store. -/
def attempt (s : RuleStore) : Change → Except StoreError (Option RuleId × RuleStore)
  | .add record => (s.add record).map fun (id, s') => (some id, s')
  | .remove id => (s.remove id).map fun (_, s') => (none, s')
  | .setPattern id pattern => (s.setPattern id pattern).map fun s' => (none, s')
  | .setValue id value => (s.setValue id value).map fun s' => (none, s')
  | .clear => .ok (none, s.clear)

/-- The store after a change. One that fails changes nothing. -/
def after (s : RuleStore) (c : Change) : RuleStore :=
  match s.attempt c with
  | .ok (_, s') => s'
  | .error _ => s

/-- The identifier that a change gives out. -/
def givenId? (s : RuleStore) (c : Change) : Option RuleId :=
  match s.attempt c with
  | .ok (id?, _) => id?
  | .error _ => none

/-- The store after changes, one after the other. -/
def afterAll (s : RuleStore) (changes : List Change) : RuleStore := changes.foldl after s

/-- The stores before, between and after changes. -/
def stages (s : RuleStore) : List Change → List RuleStore
  | [] => [s]
  | c :: changes => s :: (s.after c).stages changes

/-- The identifiers that changes give out, in order. -/
def givenIds (s : RuleStore) : List Change → List RuleId
  | [] => []
  | c :: changes => (s.givenId? c).toList ++ (s.after c).givenIds changes

variable {s s' : RuleStore} {c : Change} {id : RuleId} {r : Rule}

/-- What every change keeps holds of all stores that changes go through. -/
theorem forall_mem_stages {P : RuleStore → Prop} (keep : ∀ s c, P s → P (s.after c)) (h : P s)
    (changes : List Change) : ∀ t ∈ s.stages changes, P t := by
  induction changes generalizing s with
  | nil =>
      intro t ht
      rwa [List.mem_singleton.1 ht]
  | cons c changes ih => exact List.forall_mem_cons.2 ⟨h, ih (keep s c h)⟩

/-- What each of the changes keeps holds of the store after all of them. -/
theorem afterAll_keeps {P : RuleStore → Prop} {changes : List Change}
    (keep : ∀ c ∈ changes, ∀ s, P s → P (s.after c)) (h : P s) : P (s.afterAll changes) := by
  induction changes generalizing s with
  | nil => exact h
  | cons c changes ih =>
      obtain ⟨hc, hrest⟩ := List.forall_mem_cons.1 keep
      exact ih hrest (hc s h)

/-! ## Adding records -/

theorem after_add_of_ok {record : Record} (h : s.add record = .ok (id, s')) :
    s.after (.add record) = s' := by
  unfold after attempt
  dsimp only
  rw [h]
  rfl

theorem after_add_of_error {record : Record} {e : StoreError} (h : s.add record = .error e) :
    s.after (.add record) = s := by
  unfold after attempt
  dsimp only
  rw [h]
  rfl

/-- Adding records one after the other is a row of changes. -/
theorem fst_addAll (s : RuleStore) (records : List Record) :
    (s.addAll records).1 = s.afterAll (records.map .add) := by
  induction records generalizing s with
  | nil => rfl
  | cons record records ih =>
      rw [List.map_cons, afterAll, List.foldl_cons, addAll]
      cases hadd : s.add record with
      | ok x =>
          rw [after_add_of_ok hadd]
          exact ih x.2
      | error e =>
          rw [after_add_of_error hadd]
          exact ih s

/-! ## One change -/

/-- A change succeeds: the identifier that it gives out, and the new store. -/
inductive Succeeds (s : RuleStore) : Change → Option RuleId → RuleStore → Prop
  | add {record : Record} {id : RuleId} {s' : RuleStore} (h : s.add record = .ok (id, s')) :
      Succeeds s (.add record) (some id) s'
  | remove {id : RuleId} {r : Rule} {s' : RuleStore} (h : s.remove id = .ok (r, s')) :
      Succeeds s (.remove id) none s'
  | setPattern {id : RuleId} {pattern : Text} {s' : RuleStore}
      (h : s.setPattern id pattern = .ok s') : Succeeds s (.setPattern id pattern) none s'
  | setValue {id : RuleId} {value : RuleValue} {s' : RuleStore}
      (h : s.setValue id value = .ok s') : Succeeds s (.setValue id value) none s'
  | clear : Succeeds s .clear none s.clear

theorem succeeds_of_attempt {id? : Option RuleId} (h : s.attempt c = .ok (id?, s')) :
    s.Succeeds c id? s' := by
  have hmap : ∀ {α : Type} {x : Except StoreError α} {f : α → Option RuleId × RuleStore},
      x.map f = .ok (id?, s') → ∃ a, x = .ok a ∧ f a = (id?, s') := by
    intro α x f hx
    cases x with
    | error e => cases hx
    | ok a => exact ⟨a, rfl, Except.ok.inj hx⟩
  cases c with
  | add record =>
      obtain ⟨a, ha, he⟩ := hmap h
      cases he
      exact .add ha
  | remove id =>
      obtain ⟨a, ha, he⟩ := hmap h
      cases he
      exact .remove ha
  | setPattern id pattern =>
      obtain ⟨a, ha, he⟩ := hmap h
      cases he
      exact .setPattern ha
  | setValue id value =>
      obtain ⟨a, ha, he⟩ := hmap h
      cases he
      exact .setValue ha
  | clear =>
      cases h
      exact .clear

/-- A change succeeds, or it gives out no identifier and leaves the store as it is. -/
theorem after_cases (s : RuleStore) (c : Change) :
    s.Succeeds c (s.givenId? c) (s.after c) ∨ (s.after c = s ∧ s.givenId? c = none) := by
  unfold after givenId?
  cases h : s.attempt c with
  | error e => exact .inr ⟨rfl, rfl⟩
  | ok r => exact .inl (succeeds_of_attempt h)

/-- The rules after a change were there before, or are the rule of the record that is added, or come
from a rule that was there. -/
theorem mem_rules_after (h : r ∈ (s.after c).rules) :
    r ∈ s.rules ∨
      (∃ record, c = .add record ∧ r = .ofRecord (s.nextId record.owner) record) ∨
      ∃ o ∈ s.rules, (∃ pattern, r = o.withPattern pattern) ∨ ∃ value, r = o.withValue value := by
  have hreplaced : ∀ {o u : Rule} {t : RuleStore}, s.replace u = .ok t → r ∈ t.rules →
      r = u ∨ r ∈ s.rules := by
    intro o u t ht hr
    obtain ⟨-, rfl⟩ := replace_eq_ok ht
    exact mem_of_mem_insertRule hr
  rcases s.after_cases c with hs | ⟨hs, -⟩
  · generalize s.after c = s', s.givenId? c = id? at h hs
    cases hs with
    | add hadd =>
        obtain ⟨rfl, -, rfl⟩ := add_eq_ok hadd
        have hmem := mem_of_mem_insertRule (by split at h <;> exact h)
        exact hmem.elim (fun he => .inr (.inl ⟨_, rfl, he⟩)) .inl
    | remove hremove =>
        obtain ⟨-, rfl⟩ := remove_eq_ok hremove
        exact .inl (List.mem_filter.1 h).1
    | setPattern hset =>
        obtain ⟨o, ho, hreplace⟩ := setPattern_eq_ok hset
        rcases hreplaced (o := o) hreplace h with rfl | hr
        · exact .inr (.inr ⟨o, List.mem_of_find?_eq_some ho, .inl ⟨_, rfl⟩⟩)
        · exact .inl hr
    | setValue hset =>
        obtain ⟨o, ho, hreplace⟩ := setValue_eq_ok hset
        rcases hreplaced (o := o) hreplace h with rfl | hr
        · exact .inr (.inr ⟨o, List.mem_of_find?_eq_some ho, .inr ⟨_, rfl⟩⟩)
        · exact .inl hr
    | clear => cases h
  · rw [hs] at h
    exact .inl h

/-! ## Numbers -/

/-- The number given out last for identifiers like the given one. -/
def lastFor (s : RuleStore) : RuleId → Nat
  | .ordinary _ => s.lastOrdinary
  | .template _ => s.lastTemplate

/-- The number given out last depends on the sort of the identifier alone. -/
theorem lastFor_congr (s : RuleStore) {i j : RuleId} (h : i.isTemplate = j.isTemplate) :
    s.lastFor i = s.lastFor j := by
  cases i <;> cases j <;> first | rfl | cases h

theorem isTemplate_nextId (s : RuleStore) (owner : Owner) :
    (s.nextId owner).isTemplate = true ↔ owner = .template := by
  unfold nextId
  split
  · exact iff_of_true rfl ‹_›
  · exact iff_of_false Bool.false_ne_true ‹_›

theorem number_nextId (s : RuleStore) (owner : Owner) :
    (s.nextId owner).number = s.lastFor (s.nextId owner) + 1 := by
  unfold nextId
  split <;> rfl

/-- A rule that is added raises the number of its sort by one, and leaves the other one as it is. -/
theorem lastFor_of_add {record : Record} (h : s.add record = .ok (id, s')) (i : RuleId) :
    s'.lastFor i = if i.isTemplate = id.isTemplate then s.lastFor i + 1 else s.lastFor i := by
  obtain ⟨rfl, -, rfl⟩ := add_eq_ok h
  unfold nextId
  split <;> cases i <;> rfl

/-- A change leaves a number as it is, or raises it by one. -/
theorem lastFor_after (s : RuleStore) (c : Change) (i : RuleId) :
    (s.after c).lastFor i = s.lastFor i ∨ (s.after c).lastFor i = s.lastFor i + 1 := by
  rcases s.after_cases c with hs | ⟨hs, -⟩
  · generalize s.after c = s', s.givenId? c = id? at hs
    have hsame : ∀ {rules : List Rule},
        (ofRules rules s.lastOrdinary s.lastTemplate).lastFor i = s.lastFor i := by
      intro rules
      cases i <;> rfl
    cases hs with
    | add hadd =>
        rw [lastFor_of_add hadd]
        split
        · exact .inr rfl
        · exact .inl rfl
    | remove hremove =>
        obtain ⟨-, rfl⟩ := remove_eq_ok hremove
        exact .inl hsame
    | setPattern hset =>
        obtain ⟨o, -, hreplace⟩ := setPattern_eq_ok hset
        obtain ⟨-, rfl⟩ := replace_eq_ok hreplace
        exact .inl hsame
    | setValue hset =>
        obtain ⟨o, -, hreplace⟩ := setValue_eq_ok hset
        obtain ⟨-, rfl⟩ := replace_eq_ok hreplace
        exact .inl hsame
    | clear => exact .inl hsame
  · exact .inl (by rw [hs])

/-- The numbers never go down. -/
theorem lastFor_le_after (s : RuleStore) (c : Change) (i : RuleId) :
    s.lastFor i ≤ (s.after c).lastFor i := by
  rcases s.lastFor_after c i with h | h <;> omega

/-- No store that changes go through has given out more than the last one. -/
theorem lastFor_le_afterAll (changes : List Change) (i : RuleId) :
    ∀ t ∈ s.stages changes, t.lastFor i ≤ (s.afterAll changes).lastFor i := by
  induction changes generalizing s with
  | nil =>
      intro t ht
      rw [List.mem_singleton.1 ht]
      exact Nat.le_refl _
  | cons c changes ih =>
      refine List.forall_mem_cons.2 ⟨?_, ih⟩
      have hnext : s.after c ∈ (s.after c).stages changes := by
        cases changes <;> exact List.mem_cons_self
      exact Nat.le_trans (s.lastFor_le_after c i) (ih _ hnext)

/-- An identifier that is given out has the next number, which is the one given out last
afterwards. -/
theorem number_of_givenId? (h : s.givenId? c = some id) :
    id.number = s.lastFor id + 1 ∧ (s.after c).lastFor id = id.number := by
  rcases s.after_cases c with hs | ⟨-, hs⟩
  · rw [h] at hs
    generalize s.after c = s' at hs
    cases hs with
    | add hadd =>
        have hnumber : id.number = s.lastFor id + 1 := by
          obtain ⟨rfl, -, -⟩ := add_eq_ok hadd
          exact s.number_nextId _
        refine ⟨hnumber, ?_⟩
        rw [lastFor_of_add hadd, if_pos rfl, hnumber]
  · rw [h] at hs
    cases hs

/-- What identifiers are given out later have larger numbers. -/
theorem lastFor_lt_of_mem_givenIds {changes : List Change} (h : id ∈ s.givenIds changes) :
    s.lastFor id < id.number := by
  induction changes generalizing s with
  | nil => cases h
  | cons c changes ih =>
      rcases List.mem_append.1 h with h | h
      · rw [(number_of_givenId? (Option.mem_toList.1 h)).1]
        exact Nat.lt_succ_self _
      · exact Nat.lt_of_le_of_lt (s.lastFor_le_after c id) (ih h)

/-- The identifiers of one sort that are given out ascend. -/
theorem givenIds_ascending (s : RuleStore) (changes : List Change) :
    (s.givenIds changes).Pairwise fun i j => i.isTemplate = j.isTemplate → i.number < j.number := by
  induction changes generalizing s with
  | nil => exact .nil
  | cons c changes ih =>
      refine List.pairwise_append.2 ⟨?_, ih (s.after c), fun i hi j hj hsort => ?_⟩
      · cases s.givenId? c with
        | none => exact .nil
        | some id => exact List.pairwise_singleton _ id
      · -- The number of `i` is the last one when the changes behind `c` begin.
        rw [← (number_of_givenId? (Option.mem_toList.1 hi)).2, lastFor_congr _ hsort]
        exact lastFor_lt_of_mem_givenIds hj

end RuleStore

end Fillout
