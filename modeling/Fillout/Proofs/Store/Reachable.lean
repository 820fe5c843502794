import Fillout.Proofs.Store.Views
import Fillout.Snapshot.Frame
import Fillout.Store.File

set_option autoImplicit false

/-! # Reachable stores

A store is reachable (`RuleStore.Reachable`) if it is empty, or loaded from records, from a text or
from a snapshot, or comes from a reachable store by an operation. Operations that fail make no new
store, so they have no part in this.

Each operation is described once, by what it says of the new store if it succeeds (`add_eq_ok`,
`replace_eq_ok`, `toStore_eq_ok` and so on); that reachable stores are in order
(`Reachable.indexed`) follows from these descriptions.
-/

namespace Fillout

/-- A computation that succeeds succeeds in both of its parts. -/
theorem bind_eq_ok {ε α β : Type} {x : Except ε α} {f : α → Except ε β} {b : β}
    (h : (x >>= f) = .ok b) : ∃ a, x = .ok a ∧ f a = .ok b := by
  cases x with
  | error e => cases h
  | ok a => exact ⟨a, rfl, h⟩

namespace RuleStore

/-! ## Putting a rule into a list -/

theorem mem_of_mem_insertRule {r x : Rule} {rules : List Rule} (h : x ∈ insertRule r rules) :
    x = r ∨ x ∈ rules := by
  induction rules with
  | nil => exact .inl (List.mem_singleton.1 h)
  | cons y rules ih =>
      rw [insertRule] at h
      split at h
      · exact List.mem_cons.1 h
      · split at h
        · rcases List.mem_cons.1 h with rfl | h
          · exact .inl rfl
          · exact .inr (List.mem_cons_of_mem y h)
        · rcases List.mem_cons.1 h with rfl | h
          · exact .inr List.mem_cons_self
          · exact (ih h).imp_right (List.mem_cons_of_mem y)

/-- A rule is put at the place where its identifier belongs. -/
theorem insertRule_ascending (r : Rule) {rules : List Rule}
    (h : rules.Pairwise fun a b => a.id.before b.id) :
    (insertRule r rules).Pairwise fun a b => a.id.before b.id := by
  induction rules with
  | nil => exact List.pairwise_singleton _ r
  | cons x rules ih =>
      obtain ⟨hx, hrest⟩ := List.pairwise_cons.1 h
      rw [insertRule]
      split
      · rename_i hlt
        refine List.pairwise_cons.2 ⟨fun y hy => ?_, h⟩
        rcases List.mem_cons.1 hy with rfl | hy
        · exact hlt
        · exact RuleId.before_trans hlt (hx y hy)
      · rename_i hnot
        split
        · rename_i he
          exact List.pairwise_cons.2 ⟨fun y hy => by rw [he]; exact hx y hy, hrest⟩
        · rename_i hne
          -- The rule comes behind `x`, and so does all that it is put among.
          have hafter : x.id.before r.id = true := by
            rcases RuleId.before_or_eq_or_after r.id x.id with hlt | he | hlt
            · exact absurd hlt hnot
            · exact absurd he hne
            · exact hlt
          refine List.pairwise_cons.2 ⟨fun y hy => ?_, ih hrest⟩
          rcases mem_of_mem_insertRule hy with rfl | hy
          · exact hafter
          · exact hx y hy

/-! ## What the operations do if they succeed -/

variable {s s' : RuleStore} {id : RuleId} {r : Rule}

theorem add_eq_ok {record : Record} (h : s.add record = .ok (id, s')) :
    id = s.nextId record.owner ∧ s.check id (.ofRecord record) = .ok () ∧
      s' = if id.isTemplate then
          ofRules (insertRule (.ofRecord id record) s.rules) s.lastOrdinary id.number
        else ofRules (insertRule (.ofRecord id record) s.rules) id.number s.lastTemplate := by
  obtain ⟨_, hcheck, hadded⟩ := bind_eq_ok h
  cases hadded
  exact ⟨rfl, hcheck, rfl⟩

theorem remove_eq_ok (h : s.remove id = .ok (r, s')) :
    s.get? id = some r ∧
      s' = ofRules (s.rules.filter fun x => x.id ≠ id) s.lastOrdinary s.lastTemplate := by
  unfold remove at h
  split at h
  · cases h
  · cases h
    exact ⟨‹_›, rfl⟩

theorem replace_eq_ok (h : s.replace r = .ok s') :
    s.check r.id r.body = .ok () ∧
      s' = ofRules (insertRule r s.rules) s.lastOrdinary s.lastTemplate := by
  obtain ⟨_, hcheck, hreplaced⟩ := bind_eq_ok h
  cases hreplaced
  exact ⟨hcheck, rfl⟩

theorem setPattern_eq_ok {pattern : Text} (h : s.setPattern id pattern = .ok s') :
    ∃ r, s.get? id = some r ∧ s.replace (r.withPattern pattern) = .ok s' := by
  unfold setPattern at h
  split at h
  · cases h
  · exact ⟨_, ‹_›, h⟩

theorem setValue_eq_ok {value : RuleValue} (h : s.setValue id value = .ok s') :
    ∃ r, s.get? id = some r ∧ s.replace (r.withValue value) = .ok s' := by
  unfold setValue at h
  split at h
  · cases h
  · exact ⟨_, ‹_›, h⟩

theorem ofText_eq_ok {t : Text} (h : ofText t = .ok s) :
    ∃ records, Record.listOfText t = .ok records ∧ s = (ofRecords records).1 := by
  unfold ofText at h
  split at h
  · rename_i records hrecords
    cases h
    exact ⟨records, hrecords, rfl⟩
  · cases h

theorem ofBytes_eq_ok {b : Bytes} (h : ofBytes b = .ok s) :
    ∃ payload p, Snapshot.payloadOf b = .ok payload ∧ Payload.read? payload = some p ∧
      p.toStore = .ok s := by
  obtain ⟨payload, hpayload, hrest⟩ := bind_eq_ok h
  split at hrest
  · cases hrest
  · rename_i p hp
    split at hrest
    · cases hrest
    · rename_i hs
      cases hrest
      exact ⟨payload, p, hpayload, hp, hs⟩

end RuleStore

namespace Payload

/-- If no entry is refused, there is one rule for each. -/
theorem forall₂_of_mapM_ok {entries : List PayloadEntry} {rules : List Rule}
    (h : entries.mapM ruleOfEntry = .ok rules) :
    List.Forall₂ (fun e r => ruleOfEntry e = .ok r) entries rules := by
  induction entries generalizing rules with
  | nil =>
      cases h
      exact .nil
  | cons e entries ih =>
      rw [List.mapM_cons] at h
      obtain ⟨r, hr, h⟩ := bind_eq_ok h
      obtain ⟨rest, hrest, h⟩ := bind_eq_ok h
      cases h
      exact .cons hr (ih hrest)

theorem ruleOfEntry_eq_ok {e : PayloadEntry} {r : Rule} (h : ruleOfEntry e = .ok r) :
    ∃ kind, RuleKind.ofName? e.kind = some kind ∧
      r = .ofRecord e.id
        { kind
          pattern := e.pattern
          value := e.value
          scope := e.scope
          threshold := e.threshold
          owner := .ofTag e.owner
          subject := e.subject } := by
  unfold ruleOfEntry at h
  split at h
  · cases h
  · rename_i kind hkind
    cases h
    exact ⟨kind, hkind, rfl⟩

theorem toStore_eq_ok {p : Payload} {s : RuleStore} (h : p.toStore = .ok s) :
    p.checkNumbers = .ok () ∧ ∃ rules,
      List.Forall₂ (fun e r => ruleOfEntry e = .ok r) p.entries rules ∧
        checkRules [] rules = .ok () ∧ s = .ofRules rules p.lastOrdinary p.lastTemplate := by
  obtain ⟨_, hnumbers, h⟩ := bind_eq_ok h
  obtain ⟨rules, hrules, h⟩ := bind_eq_ok h
  obtain ⟨_, hcheck, h⟩ := bind_eq_ok h
  cases h
  exact ⟨hnumbers, rules, forall₂_of_mapM_ok hrules, hcheck, rfl⟩

/-- The identifiers of the entries ascend if the numbers of a payload are in order. -/
theorem pairwise_of_checkNumbers {p : Payload} (h : p.checkNumbers = .ok ()) :
    p.entries.Pairwise fun a b => a.id.before b.id := by
  have hascending : ascending (p.entries.map PayloadEntry.id) = true := by
    unfold checkNumbers at h
    by_cases hids : ascending (p.entries.map PayloadEntry.id) = true
    · exact hids
    · simp [hids] at h
      split at h <;> cases h
  have hpairs : ∀ {ids : List RuleId}, ascending ids = true →
      ids.Pairwise fun i j => i.before j := by
    intro ids hids
    induction ids with
    | nil => exact .nil
    | cons i ids ih =>
        cases ids with
        | nil => exact List.pairwise_singleton _ i
        | cons j ids =>
            obtain ⟨hij, hrest⟩ := Bool.and_eq_true_iff.1 hids
            have hj := ih hrest
            refine List.pairwise_cons.2 ⟨fun k hk => ?_, hj⟩
            rcases List.mem_cons.1 hk with rfl | hk
            · exact hij
            · exact RuleId.before_trans hij ((List.pairwise_cons.1 hj).1 k hk)
  exact List.pairwise_map.1 (hpairs hascending)

end Payload

namespace RuleStore

/-! ## Reachable stores -/

/-- A store that comes about by loading rules and by operations that succeed. -/
inductive Reachable : RuleStore → Prop
  | empty : Reachable empty
  | ofRecords (records : List Record) : Reachable (ofRecords records).1
  | ofText {t : Text} {s : RuleStore} (h : ofText t = .ok s) : Reachable s
  | ofBytes {b : Bytes} {s : RuleStore} (h : ofBytes b = .ok s) : Reachable s
  | add {s s' : RuleStore} {record : Record} {id : RuleId} (hs : Reachable s)
      (h : s.add record = .ok (id, s')) : Reachable s'
  | remove {s s' : RuleStore} {id : RuleId} {r : Rule} (hs : Reachable s)
      (h : s.remove id = .ok (r, s')) : Reachable s'
  | setPattern {s s' : RuleStore} {id : RuleId} {pattern : Text} (hs : Reachable s)
      (h : s.setPattern id pattern = .ok s') : Reachable s'
  | setValue {s s' : RuleStore} {id : RuleId} {value : RuleValue} (hs : Reachable s)
      (h : s.setValue id value = .ok s') : Reachable s'
  | clear {s : RuleStore} (hs : Reachable s) : Reachable s.clear

variable {s s' : RuleStore} {id : RuleId} {r : Rule}

/-- The alternatives of a record are listed without repetitions. -/
theorem nodup_ofRecord (record : Record) :
    (RuleBody.ofRecord record).pattern.alternatives.Nodup :=
  RulePattern.nodup_firstOccurrences [] _

theorem indexed_ofRules {rules : List Rule} (h : rules.Pairwise fun a b => a.id.before b.id)
    (hnodup : ∀ r ∈ rules, r.body.pattern.alternatives.Nodup) (m n : Nat) :
    (ofRules rules m n).Indexed :=
  ⟨h, hnodup, rfl, rfl⟩

/-- Putting a rule without repeated alternatives into a store in order leads to one. -/
theorem Indexed.insertRule (h : s.Indexed) (hr : r.body.pattern.alternatives.Nodup) (m n : Nat) :
    (ofRules (insertRule r s.rules) m n).Indexed := by
  refine indexed_ofRules (insertRule_ascending r h.ascending) (fun x hx => ?_) m n
  rcases mem_of_mem_insertRule hx with rfl | hx
  · exact hr
  · exact h.alternatives x hx

theorem Indexed.add (h : s.Indexed) {record : Record} (hadd : s.add record = .ok (id, s')) :
    s'.Indexed := by
  obtain ⟨-, -, rfl⟩ := add_eq_ok hadd
  split
  · exact h.insertRule (nodup_ofRecord record) _ _
  · exact h.insertRule (nodup_ofRecord record) _ _

theorem Indexed.addAll (h : s.Indexed) (records : List Record) : (s.addAll records).1.Indexed := by
  induction records generalizing s with
  | nil => exact h
  | cons record records ih =>
      rw [RuleStore.addAll]
      split
      · rename_i hadd
        exact ih (h.add hadd)
      · exact ih h

theorem Indexed.replace (h : s.Indexed) (hr : r.body.pattern.alternatives.Nodup)
    (hreplace : s.replace r = .ok s') : s'.Indexed := by
  obtain ⟨-, rfl⟩ := replace_eq_ok hreplace
  exact h.insertRule hr _ _

/-- The rules of entries have the identifiers of the entries, and no alternative twice. -/
theorem map_id_of_entries {entries : List PayloadEntry} {rules : List Rule}
    (h : List.Forall₂ (fun e r => Payload.ruleOfEntry e = .ok r) entries rules) :
    rules.map Rule.id = entries.map PayloadEntry.id ∧
      ∀ r ∈ rules, r.body.pattern.alternatives.Nodup := by
  induction h with
  | nil => exact ⟨rfl, fun _ hr => nomatch hr⟩
  | cons he _ ih =>
      obtain ⟨kind, -, rfl⟩ := Payload.ruleOfEntry_eq_ok he
      refine ⟨?_, List.forall_mem_cons.2 ⟨nodup_ofRecord _, ih.2⟩⟩
      rw [List.map_cons, List.map_cons, ih.1]
      rfl

theorem indexed_ofBytes {b : Bytes} (h : RuleStore.ofBytes b = .ok s) : s.Indexed := by
  obtain ⟨_, p, -, -, hstore⟩ := ofBytes_eq_ok h
  obtain ⟨hnumbers, rules, hrules, -, rfl⟩ := Payload.toStore_eq_ok hstore
  obtain ⟨hids, hnodup⟩ := map_id_of_entries hrules
  have hascending : (rules.map Rule.id).Pairwise fun i j => i.before j := by
    rw [hids]
    exact List.pairwise_map.2 (Payload.pairwise_of_checkNumbers hnumbers)
  exact indexed_ofRules (List.pairwise_map.1 hascending) hnodup _ _

/-- Reachable stores are in order. -/
theorem Reachable.indexed (h : s.Reachable) : s.Indexed := by
  have hempty : RuleStore.empty.Indexed := indexed_ofRules .nil (fun _ hr => nomatch hr) 0 0
  induction h with
  | empty => exact hempty
  | ofRecords records => exact hempty.addAll records
  | ofText h =>
      obtain ⟨records, -, rfl⟩ := ofText_eq_ok h
      exact hempty.addAll records
  | ofBytes h => exact indexed_ofBytes h
  | add _ h ih => exact ih.add h
  | remove _ h ih =>
      obtain ⟨-, rfl⟩ := remove_eq_ok h
      exact indexed_ofRules (ih.ascending.filter _)
        (fun r hr => ih.alternatives r (List.mem_filter.1 hr).1) _ _
  | setPattern _ h ih =>
      obtain ⟨r, -, hreplace⟩ := setPattern_eq_ok h
      refine ih.replace ?_ hreplace
      exact RulePattern.nodup_firstOccurrences [] _
  | setValue _ h ih =>
      obtain ⟨r, hr, hreplace⟩ := setValue_eq_ok h
      refine ih.replace ?_ hreplace
      exact ih.alternatives r (List.mem_of_find?_eq_some hr)
  | clear => exact indexed_ofRules .nil (fun _ hr => nomatch hr) _ _

end RuleStore

end Fillout
