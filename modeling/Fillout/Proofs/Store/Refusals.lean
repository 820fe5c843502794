import Fillout.Proofs.Store.KeptViews
import Fillout.Proofs.Store.WellKept
import Mathlib

set_option autoImplicit false

/-! # What a store refuses

A change fails for one of the reasons that `RuleStore.Refuses` lists, and for no other: a body must
have alternatives and must not be that of another rule, in this order, and only a rule that is there
can be removed or changed. So it is decided by the rules alone whether a change fails, and how
(`Sound.attempt_eq_error`).

A reason is found by a search among the rules beside which a body is to stand (`examineBeside`).
The search finds the only rule that there is to find, since no two rules say the same; numbers have
no part in this.
-/

namespace Fillout

/-- A computation whose second part succeeds fails exactly if its first part does. -/
theorem bind_eq_error {ε α β : Type} {x : Except ε α} {f : α → Except ε β} {e : ε}
    (hf : ∀ a, ∃ b, f a = .ok b) : (x >>= f) = .error e ↔ x = .error e := by
  cases x with
  | error e' => exact ⟨fun h => by cases h; rfl, fun h => by cases h; rfl⟩
  | ok a =>
      obtain ⟨b, hb⟩ := hf a
      refine iff_of_false (fun h => ?_) (by simp)
      cases hb.symm.trans h

theorem map_eq_error {ε α β : Type} {x : Except ε α} {f : α → β} {e : ε} :
    x.map f = .error e ↔ x = .error e := by
  cases x <;> simp [Except.map]

namespace RuleStore

/-! ## What is refused -/

/-- The reason for which a body is refused a place beside some rules: it has no alternatives; or it
has some, and it is the body of one of the rules, which is the only one then. -/
def Refusal (rules : List Rule) (body : RuleBody) : StoreError → Prop
  | .emptyPattern => body.pattern.alternatives = []
  | .duplicate id =>
      body.pattern.alternatives ≠ [] ∧
        ∃ r ∈ rules, r.id = id ∧ r.body = body ∧ ∀ x ∈ rules, x.body = body → x = r
  | .unknown _ => False

/-- The error with which a change must fail. -/
def Refuses (s : RuleStore) : Change → StoreError → Prop
  | .add record, e => Refusal s.rules (.ofRecord record) e
  | .remove id, e => e = .unknown id ∧ ∀ r ∈ s.rules, r.id ≠ id
  | .setPattern id pattern, e =>
      (e = .unknown id ∧ ∀ r ∈ s.rules, r.id ≠ id) ∨
        ∃ r ∈ s.rules, r.id = id ∧
          Refusal (s.others id) { r.body with pattern := .ofText pattern } e
  | .setValue id value, e =>
      (e = .unknown id ∧ ∀ r ∈ s.rules, r.id ≠ id) ∨
        ∃ r ∈ s.rules, r.id = id ∧ Refusal (s.others id) { r.body with value := value } e
  | .clear, _ => False

/-- Makes another rule of the one with an identifier; this is what `setPattern` and `setValue`
do. -/
def update (s : RuleStore) (id : RuleId) (change : Rule → Rule) : Except StoreError RuleStore :=
  match s.get? id with
  | none => .error (.unknown id)
  | some r => s.replace (change r)

variable {s s' : RuleStore} {id : RuleId} {r : Rule} {e : StoreError}

theorem get?_eq_none : s.get? id = none ↔ ∀ r ∈ s.rules, r.id ≠ id := by
  unfold get?
  simp only [List.find?_eq_none, decide_eq_true_eq]

/-- The rule with an identifier is one of the rules, and has it. -/
theorem mem_and_id_of_get? (h : s.get? id = some r) : r ∈ s.rules ∧ r.id = id :=
  ⟨List.mem_of_find?_eq_some h, of_decide_eq_true (List.find?_some h :)⟩

/-- The examination refuses a body for the reasons that there are, if no two of the rules say the
same. -/
theorem examineBeside_eq_error {rules : List Rule} {body : RuleBody}
    (hdistinct : ∀ x ∈ rules, ∀ y ∈ rules, x.body = y.body → x = y) :
    examineBeside rules body = .error e ↔ Refusal rules body e := by
  unfold examineBeside RulePattern.isEmpty
  by_cases hempty : body.pattern.alternatives = []
  · rw [if_pos (by rw [hempty]; rfl)]
    cases e with
    | emptyPattern => exact iff_of_true rfl hempty
    | duplicate i => exact iff_of_false (by simp) fun hd => hd.1 hempty
    | unknown i => exact iff_of_false (by simp) fun hrefused => hrefused
  · rw [if_neg (by simpa using hempty)]
    split
    · rename_i o hfind
      have ho := List.mem_of_find?_eq_some hfind
      have hbody : o.body = body := of_decide_eq_true (List.find?_some hfind :)
      -- Whichever rule the search finds first, there is no other one.
      have honly : ∀ x ∈ rules, x.body = body → x = o := fun x hx hxbody =>
        hdistinct x hx o ho (hxbody.trans hbody.symm)
      constructor
      · intro he
        cases he
        exact ⟨hempty, o, ho, rfl, hbody, honly⟩
      · intro hrefused
        cases e with
        | emptyPattern => exact absurd hrefused hempty
        | duplicate i =>
            obtain ⟨-, x, hx, rfl, hxbody, -⟩ := hrefused
            rw [honly x hx hxbody]
        | unknown i => exact hrefused.elim
    · rename_i hnone
      refine iff_of_false (by simp) fun hrefused => ?_
      cases e with
      | emptyPattern => exact hempty hrefused
      | duplicate i =>
          obtain ⟨-, x, hx, -, hxbody, -⟩ := hrefused
          exact List.find?_eq_none.1 hnone x hx (decide_eq_true hxbody)
      | unknown i => exact hrefused

/-- A body that takes the place of a rule is refused beside the others. -/
theorem Distinct.check_eq_error (h : s.Distinct) {body : RuleBody} :
    s.check id body = .error e ↔ Refusal (s.others id) body e := by
  rw [check_eq_examineBeside]
  exact examineBeside_eq_error fun x hx y hy =>
    h.eq_of_body (List.mem_filter.1 hx).1 (List.mem_filter.1 hy).1

/-- No rule has the identifier that is given out next. -/
theorem Sound.others_nextId (h : s.Sound) (owner : Owner) :
    s.others (s.nextId owner) = s.rules := by
  refine List.filter_eq_self.2 fun r hr => decide_eq_true fun hid => ?_
  have hnumber := (h.numbers r hr).2
  rw [hid, s.number_nextId owner] at hnumber
  exact Nat.not_succ_le_self _ hnumber

theorem Sound.add_eq_error (h : s.Sound) {record : Record} :
    s.add record = .error e ↔ Refusal s.rules (.ofRecord record) e := by
  rw [← h.others_nextId record.owner, ← h.distinct.check_eq_error]
  exact bind_eq_error fun _ => ⟨_, rfl⟩

theorem remove_eq_error : s.remove id = .error e ↔ e = .unknown id ∧ ∀ r ∈ s.rules, r.id ≠ id := by
  rw [← get?_eq_none]
  unfold remove
  cases s.get? id with
  | none => simp [eq_comm]
  | some r => simp

theorem Distinct.replace_eq_error (h : s.Distinct) :
    s.replace r = .error e ↔ Refusal (s.others r.id) r.body e := by
  rw [← h.check_eq_error]
  exact bind_eq_error fun _ => ⟨_, rfl⟩

/-- A change of one rule fails if the rule is not there, or if it is refused as it would be. -/
theorem Distinct.update_eq_error (h : s.Distinct) (change : Rule → Rule)
    (hid : ∀ r, (change r).id = r.id) :
    s.update id change = .error e ↔
      (e = .unknown id ∧ ∀ r ∈ s.rules, r.id ≠ id) ∨
        ∃ r ∈ s.rules, r.id = id ∧ Refusal (s.others id) (change r).body e := by
  rw [← get?_eq_none]
  unfold update
  cases hget : s.get? id with
  | none =>
      have habsent : ¬∃ r ∈ s.rules, r.id = id ∧ Refusal (s.others id) (change r).body e := by
        rintro ⟨r, hr, hrid, -⟩
        exact get?_eq_none.1 hget r hr hrid
      simp only [habsent, or_false, and_true, Except.error.injEq]
      exact eq_comm
  | some o =>
      obtain ⟨ho, rfl⟩ := mem_and_id_of_get? hget
      simp only [h.replace_eq_error, hid, reduceCtorEq, and_false, false_or]
      constructor
      · exact fun hrefused => ⟨o, ho, rfl, hrefused⟩
      · rintro ⟨r, hr, hrid, hrefused⟩
        rwa [h.eq_of_id hr ho hrid] at hrefused

/-- Changes but additions fail with the error with which they must fail. -/
theorem Distinct.attempt_eq_error (h : s.Distinct) {c : Change}
    (hc : ¬∃ record, c = .add record) : s.attempt c = .error e ↔ s.Refuses c e := by
  cases c with
  | add record => exact absurd ⟨record, rfl⟩ hc
  | remove id => exact map_eq_error.trans remove_eq_error
  | setPattern id pattern =>
      exact map_eq_error.trans (h.update_eq_error (fun r => r.withPattern pattern) fun _ => rfl)
  | setValue id value =>
      exact map_eq_error.trans (h.update_eq_error (fun r => r.withValue value) fun _ => rfl)
  | clear => exact iff_of_false (by simp [attempt]) id

/-- A change fails with the error with which it must fail. An addition is examined beside all rules,
since no rule has the next identifier. -/
theorem Sound.attempt_eq_error (h : s.Sound) (c : Change) :
    s.attempt c = .error e ↔ s.Refuses c e := by
  by_cases hc : ∃ record, c = .add record
  · obtain ⟨record, rfl⟩ := hc
    exact map_eq_error.trans h.add_eq_error
  · exact h.distinct.attempt_eq_error hc

/-! ## What a change of one rule leaves as it is -/

/-- A rule that takes the place of another one leaves the others where they are. -/
theorem insertRule_eq_map {rules : List Rule} {o : Rule}
    (h : rules.Pairwise fun a b => a.id.before b.id) (ho : o ∈ rules) (hid : o.id = r.id) :
    insertRule r rules = rules.map fun x => if x.id = r.id then r else x := by
  have hkept : ∀ {l : List Rule}, (∀ x ∈ l, x.id ≠ r.id) →
      l.map (fun x => if x.id = r.id then r else x) = l := by
    intro l hl
    exact (List.map_congr_left fun x hx => if_neg (hl x hx)).trans l.map_id
  obtain ⟨before, after, rfl⟩ := List.append_of_mem ho
  obtain ⟨-, hplace, hbefore⟩ := List.pairwise_append.1 h
  have hafter := (List.pairwise_cons.1 hplace).1
  rw [hid] at hafter
  have hbefore : ∀ x ∈ before, x.id.before r.id = true := by
    intro x hx
    rw [← hid]
    exact hbefore x hx o List.mem_cons_self
  rw [insertRule_append hbefore, insertRule_cons_of_id hid, List.map_append, List.map_cons,
    if_pos hid, hkept fun x hx => RuleId.ne_of_before (hbefore x hx),
    hkept fun x hx => (RuleId.ne_of_before (hafter x hx)).symm]

/-- A change of one rule that succeeds leaves the other rules and the numbers as they are. -/
theorem Distinct.update_eq_ok (h : s.Distinct) (change : Rule → Rule)
    (hid : ∀ r, (change r).id = r.id) (hupdate : s.update id change = .ok s') :
    ∃ r ∈ s.rules, r.id = id ∧ (∀ x ∈ s.rules, x.id = id → x = r) ∧
      s' = ofRules (s.rules.map fun x => if x.id = id then change x else x)
        s.lastOrdinary s.lastTemplate := by
  unfold update at hupdate
  cases hget : s.get? id with
  | none =>
      rw [hget] at hupdate
      cases hupdate
  | some r =>
      rw [hget] at hupdate
      obtain ⟨hr, rfl⟩ := mem_and_id_of_get? hget
      obtain ⟨-, rfl⟩ := replace_eq_ok hupdate
      have honly : ∀ x ∈ s.rules, x.id = r.id → x = r := fun x hx he => h.eq_of_id hx hr he
      refine ⟨r, hr, rfl, honly, ?_⟩
      rw [insertRule_eq_map h.ascending hr (hid r).symm, hid r]
      congr 1
      refine List.map_congr_left fun x hx => ?_
      split
      · rw [honly x hx ‹_›]
      · rfl

end RuleStore

end Fillout
