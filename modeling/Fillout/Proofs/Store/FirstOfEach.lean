import Fillout.Proofs.Store.Refusals
import Mathlib

set_option autoImplicit false

/-! # Records that say the same

Of records that say the same a store keeps the first one. What it keeps of a list of records can be
read off the list: a record is kept if its pattern has alternatives and no earlier record is
normalised to the same body (`StandsFirst`), and the kept ones are numbered 1, 2, 3 and so on, those
of templates apart (`ofFirsts`).

This describes the store after each part of the list that stands in front. So the induction is on
the list from its end (`ofRecords_append_singleton`): a record that stands first is the last of its
sort, and comes behind all rules of its sort; one that does not is refused for the sake of the first
of its kind, which is among the rules and stays there.
-/

namespace Fillout

/-- The record has alternatives, and none of the earlier ones says the same. -/
def StandsFirst (earlier : List Record) (record : Record) : Prop :=
  (RulePattern.ofText record.pattern).alternatives ≠ [] ∧
    ∀ o ∈ earlier, RuleBody.ofRecord o ≠ .ofRecord record

instance (earlier : List Record) (record : Record) : Decidable (StandsFirst earlier record) :=
  inferInstanceAs (Decidable (_ ∧ _))

/-- The records that, together with those before them, have a property. -/
def filterWithEarlier (p : List Record → Record → Bool) (records : List Record) : List Record :=
  (records.zipIdx.filter fun x => p (records.take x.2) x.1).map Prod.fst

/-- The records that stand first. -/
def firsts (records : List Record) : List Record :=
  filterWithEarlier (fun earlier r => StandsFirst earlier r) records

/-- The records that do not. -/
def leftOut (records : List Record) : List Record :=
  filterWithEarlier (fun earlier r => ¬StandsFirst earlier r) records

variable {records : List Record} {record : Record}

/-- What comes behind a record does not matter. -/
theorem filterWithEarlier_append_singleton (p : List Record → Record → Bool) (records : List Record)
    (record : Record) :
    filterWithEarlier p (records ++ [record]) =
      filterWithEarlier p records ++ if p records record then [record] else [] := by
  have hbefore : (records.zipIdx.filter fun x => p ((records ++ [record]).take x.2) x.1) =
      records.zipIdx.filter fun x => p (records.take x.2) x.1 := by
    -- The places are those of the shorter list, so the parts in front of them are, too.
    refine List.filter_congr fun x hx => ?_
    have hlt := (List.mem_zipIdx hx).2.1
    rw [List.take_append_of_le_length (by omega)]
  unfold filterWithEarlier
  rw [List.zipIdx_append, List.filter_append, hbefore, List.map_append]
  congr 1
  by_cases h : p records record = true <;> simp [h]

theorem firsts_append_singleton (records : List Record) (record : Record) :
    firsts (records ++ [record]) =
      firsts records ++ if StandsFirst records record then [record] else [] := by
  unfold firsts
  rw [filterWithEarlier_append_singleton]
  simp only [decide_eq_true_eq]

theorem leftOut_append_singleton (records : List Record) (record : Record) :
    leftOut (records ++ [record]) =
      leftOut records ++ if StandsFirst records record then [] else [record] := by
  unfold leftOut
  rw [filterWithEarlier_append_singleton]
  simp only [decide_eq_true_eq, ite_not]

theorem length_firsts_add_length_leftOut (records : List Record) :
    (firsts records).length + (leftOut records).length = records.length := by
  induction records using List.reverseRecOn with
  | nil => rfl
  | append_singleton records record ih =>
      rw [firsts_append_singleton, leftOut_append_singleton]
      split <;> simp <;> omega

theorem mem_of_mem_firsts (h : record ∈ firsts records) : record ∈ records := by
  obtain ⟨x, hx, rfl⟩ := List.mem_map.1 h
  rw [(List.mem_zipIdx (List.mem_filter.1 hx).1).2.2]
  exact List.getElem_mem _

/-- A record that has alternatives and does not stand first says what an earlier one says. -/
theorem exists_earlier {earlier : List Record} (h : ¬StandsFirst earlier record)
    (hnonempty : (RulePattern.ofText record.pattern).alternatives ≠ []) :
    ∃ o ∈ earlier, RuleBody.ofRecord o = .ofRecord record := by
  by_contra hnone
  exact h ⟨hnonempty, fun o ho hsame => hnone ⟨o, ho, hsame⟩⟩

/-- Of the records that say the same, one stands first. -/
theorem exists_mem_firsts (h : record ∈ records)
    (hnonempty : (RulePattern.ofText record.pattern).alternatives ≠ []) :
    ∃ o ∈ firsts records, RuleBody.ofRecord o = .ofRecord record := by
  induction records using List.reverseRecOn generalizing record with
  | nil => cases h
  | append_singleton records last ih =>
      rw [firsts_append_singleton]
      -- What is said earlier is said first by some record, and so has alternatives there, too.
      have hbefore : ∀ o ∈ records, RuleBody.ofRecord o = .ofRecord record →
          ∃ o ∈ firsts records ++ if StandsFirst records last then [last] else [],
            RuleBody.ofRecord o = .ofRecord record := by
        intro o ho hsame
        obtain ⟨o', ho', hsame'⟩ := ih ho fun hempty =>
          hnonempty ((congrArg (fun b => b.pattern.alternatives) hsame).symm.trans hempty)
        exact ⟨o', List.mem_append_left _ ho', hsame'.trans hsame⟩
      rcases List.mem_append.1 h with h | h
      · exact hbefore record h rfl
      · obtain rfl := List.mem_singleton.1 h
        by_cases hfirst : StandsFirst records record
        · exact ⟨record, by simp [hfirst], rfl⟩
        · obtain ⟨o, ho, hsame⟩ := exists_earlier hfirst hnonempty
          exact hbefore o ho hsame

/-- If all records have alternatives and no two say the same, all stand first. -/
theorem leftOut_eq_nil (hnonempty : ∀ r ∈ records, (RulePattern.ofText r.pattern).alternatives ≠ [])
    (hdistinct : (records.map RuleBody.ofRecord).Pairwise (· ≠ ·)) : leftOut records = [] := by
  induction records using List.reverseRecOn with
  | nil => rfl
  | append_singleton records record ih =>
      rw [List.map_append] at hdistinct
      obtain ⟨hpairs, -, hlast⟩ := List.pairwise_append.1 hdistinct
      have hfirst : StandsFirst records record :=
        ⟨hnonempty record (by simp), fun o ho =>
          hlast _ (List.mem_map_of_mem ho) _ (List.mem_singleton_self _)⟩
      rw [leftOut_append_singleton, if_pos hfirst, List.append_nil]
      exact ih (fun r hr => hnonempty r (List.mem_append_left _ hr)) hpairs

/-- The rules of records, numbered 1, 2, 3 and so on. -/
def numbered (id : Nat → RuleId) (records : List Record) : List Rule :=
  (records.zipIdx 1).map fun x => .ofRecord (id x.2) x.1

theorem numbered_append_singleton (id : Nat → RuleId) (records : List Record) (record : Record) :
    numbered id (records ++ [record]) =
      numbered id records ++ [.ofRecord (id (records.length + 1)) record] := by
  simp [numbered, List.zipIdx_append, Nat.add_comm]

theorem map_body_numbered (id : Nat → RuleId) (records : List Record) :
    (numbered id records).map Rule.body = records.map RuleBody.ofRecord := by
  induction records using List.reverseRecOn with
  | nil => rfl
  | append_singleton records record ih =>
      rw [numbered_append_singleton, List.map_append, List.map_append, ih]
      rfl

/-- The rules of numbered records have the numbers of their places. -/
theorem exists_of_mem_numbered {id : Nat → RuleId} {r : Rule} (h : r ∈ numbered id records) :
    ∃ n, n ≤ records.length ∧ r.id = id n := by
  obtain ⟨x, hx, rfl⟩ := List.mem_map.1 h
  exact ⟨x.2, by have := (List.mem_zipIdx hx).2.1; omega, rfl⟩

/-- The next number comes behind those of numbered records. -/
theorem before_of_mem_numbered (id : Nat → RuleId)
    (hid : ∀ {m n}, m < n → (id m).before (id n) = true)
    {r : Rule} (h : r ∈ numbered id records) : r.id.before (id (records.length + 1)) = true := by
  obtain ⟨n, hn, hr⟩ := exists_of_mem_numbered h
  rw [hr]
  exact hid (Nat.lt_succ_of_le hn)

namespace RuleStore

/-- The store of numbered rules, those of templates apart. -/
def ofNumbered (ordinary template : List Record) : RuleStore :=
  ofRules (numbered .ordinary ordinary ++ numbered .template template) ordinary.length
    template.length

/-- The records that stand first, numbered in their order. -/
def ofFirsts (records : List Record) : RuleStore :=
  ofNumbered ((firsts records).filter fun r => r.owner ≠ .template)
    ((firsts records).filter fun r => r.owner = .template)

variable {ordinary template : List Record} {id : RuleId} {s : RuleStore}

theorem add_ofNumbered_ordinary (howner : record.owner ≠ .template)
    (hadd : (ofNumbered ordinary template).add record = .ok (id, s)) :
    s = ofNumbered (ordinary ++ [record]) template := by
  obtain ⟨hid, -, rfl⟩ := add_eq_ok hadd
  obtain rfl : id = .ordinary (ordinary.length + 1) := hid.trans (if_neg howner)
  have hrules : insertRule (.ofRecord (.ordinary (ordinary.length + 1)) record)
      (numbered .ordinary ordinary ++ numbered .template template) =
        numbered .ordinary (ordinary ++ [record]) ++ numbered .template template := by
    have hbefore : ∀ x ∈ numbered .ordinary ordinary,
        x.id.before (.ordinary (ordinary.length + 1)) = true :=
      fun x hx => before_of_mem_numbered .ordinary (fun hlt => decide_eq_true hlt) hx
    have hafter : ∀ x ∈ numbered .template template,
        (RuleId.ordinary (ordinary.length + 1)).before x.id = true := by
      intro x hx
      obtain ⟨n, -, hxid⟩ := exists_of_mem_numbered hx
      rw [hxid]
      rfl
    rw [numbered_append_singleton, insertRule_append hbefore, insertRule_eq_cons hafter,
      List.append_assoc]
    rfl
  unfold ofNumbered
  rw [← hrules, List.length_append]
  rfl

theorem add_ofNumbered_template (howner : record.owner = .template)
    (hadd : (ofNumbered ordinary template).add record = .ok (id, s)) :
    s = ofNumbered ordinary (template ++ [record]) := by
  obtain ⟨hid, -, rfl⟩ := add_eq_ok hadd
  obtain rfl : id = .template (template.length + 1) := hid.trans (if_pos howner)
  have hrules : insertRule (.ofRecord (.template (template.length + 1)) record)
      (numbered .ordinary ordinary ++ numbered .template template) =
        numbered .ordinary ordinary ++ numbered .template (template ++ [record]) := by
    rw [numbered_append_singleton, ← List.append_assoc]
    refine insertRule_eq_append fun x hx => ?_
    rcases List.mem_append.1 hx with hx | hx
    · obtain ⟨n, -, hxid⟩ := exists_of_mem_numbered hx
      rw [hxid]
      rfl
    · exact before_of_mem_numbered .template (fun hlt => decide_eq_true hlt) hx
  unfold ofNumbered
  rw [← hrules, List.length_append]
  rfl

/-- A record that stands first is added to the store of those before it. -/
theorem add_ofFirsts (h : StandsFirst records record)
    (hadd : (ofFirsts records).add record = .ok (id, s)) : s = ofFirsts (records ++ [record]) := by
  have hfirsts : firsts (records ++ [record]) = firsts records ++ [record] := by
    rw [firsts_append_singleton, if_pos h]
  unfold ofFirsts
  rw [hfirsts, List.filter_append, List.filter_append]
  by_cases howner : record.owner = .template
  · rw [add_ofNumbered_template howner hadd]
    simp [howner]
  · rw [add_ofNumbered_ordinary howner hadd]
    simp [howner]

theorem perm_bodies_ofFirsts (records : List Record) :
    ((ofFirsts records).rules.map Rule.body).Perm ((firsts records).map RuleBody.ofRecord) := by
  have hperm := List.filter_append_perm (fun r : Record => r.owner ≠ .template) (firsts records)
  simpa [ofFirsts, ofNumbered, map_body_numbered] using hperm.map RuleBody.ofRecord

/-- What the rules say is what the records that stand first say. -/
theorem exists_mem_ofFirsts {b : RuleBody} :
    (∃ x ∈ (ofFirsts records).rules, x.body = b) ↔
      ∃ o ∈ firsts records, RuleBody.ofRecord o = b := by
  rw [← List.mem_map, ← List.mem_map]
  exact (perm_bodies_ofFirsts records).mem_iff

/-- A reason to refuse a body stays one when rules are added, as long as no two of them say the
same. -/
theorem Refusal.mono {rules rules' : List Rule} {b : RuleBody} {e : StoreError}
    (h : Refusal rules b e) (hsub : ∀ x ∈ rules, x ∈ rules')
    (hdistinct : ∀ x ∈ rules', ∀ y ∈ rules', x.body = y.body → x = y) : Refusal rules' b e := by
  cases e with
  | emptyPattern => exact h
  | duplicate i =>
      obtain ⟨hnonempty, r, hr, hid, hbody, -⟩ := h
      exact ⟨hnonempty, r, hsub r hr, hid, hbody, fun x hx hxbody =>
        hdistinct x hx r (hsub r hr) (hxbody.trans hbody.symm)⟩
  | unknown i => exact h

/-- Adding a record leaves the rules that are there. -/
theorem Sound.mem_rules_add (h : s.Sound) {s' : RuleStore} {x : Rule}
    (hadd : s.add record = .ok (id, s')) (hx : x ∈ s.rules) : x ∈ s'.rules := by
  obtain ⟨rfl, -, rfl⟩ := add_eq_ok hadd
  have hperm := insertRule_perm (.ofRecord (s.nextId record.owner) record) h.ascending
  have hmem : x ∈ RuleStore.insertRule (.ofRecord (s.nextId record.owner) record) s.rules := by
    refine hperm.mem_iff.2 (List.mem_cons_of_mem _ ?_)
    rwa [← h.others_nextId record.owner] at hx
  split <;> exact hmem

/-- One more record: it is added if it stands first, and refused if it does not. -/
theorem add_ofFirsts_cases (hsound : (ofFirsts records).Sound) (record : Record) :
    (StandsFirst records record ∧
      ∃ id, (ofFirsts records).add record = .ok (id, ofFirsts (records ++ [record]))) ∨
      (¬StandsFirst records record ∧
        ∃ e, (ofFirsts records).add record = .error e ∧
          Refusal (ofFirsts records).rules (.ofRecord record) e) := by
  by_cases hfirst : StandsFirst records record
  · refine .inl ⟨hfirst, ?_⟩
    cases hadd : (ofFirsts records).add record with
    | ok x => exact ⟨x.1, congrArg (fun s => Except.ok (x.1, s)) (add_ofFirsts hfirst hadd)⟩
    | error e =>
        have hrefused := hsound.add_eq_error.1 hadd
        -- Each of the reasons would be a reason for the record not to stand first.
        cases e with
        | emptyPattern => exact absurd hrefused hfirst.1
        | duplicate i =>
            obtain ⟨-, x, hx, -, hbody, -⟩ := hrefused
            obtain ⟨o, ho, hsame⟩ := exists_mem_ofFirsts.1 ⟨x, hx, hbody⟩
            exact absurd hsame (hfirst.2 o (mem_of_mem_firsts ho))
        | unknown i => exact hrefused.elim
  · refine .inr ⟨hfirst, ?_⟩
    by_cases hempty : (RulePattern.ofText record.pattern).alternatives = []
    · have hrefused : Refusal (ofFirsts records).rules (.ofRecord record) .emptyPattern := hempty
      exact ⟨_, hsound.add_eq_error.2 hrefused, hrefused⟩
    · obtain ⟨o, ho, hsame⟩ := exists_earlier hfirst hempty
      obtain ⟨o', ho', hsame'⟩ := exists_mem_firsts ho fun hnil =>
        hempty ((congrArg (fun b => b.pattern.alternatives) hsame).symm.trans hnil)
      obtain ⟨x, hx, hbody⟩ := exists_mem_ofFirsts.2 ⟨o', ho', hsame'.trans hsame⟩
      have hrefused : Refusal (ofFirsts records).rules (.ofRecord record) (.duplicate x.id) :=
        ⟨hempty, x, hx, rfl, hbody, fun y hy hybody =>
          hsound.distinct.eq_of_body hy hx (hybody.trans hbody.symm)⟩
      exact ⟨_, hsound.add_eq_error.2 hrefused, hrefused⟩

theorem addAll_append (s : RuleStore) (records more : List Record) :
    s.addAll (records ++ more) =
      (((s.addAll records).1.addAll more).1,
        (s.addAll records).2 ++ ((s.addAll records).1.addAll more).2) := by
  induction records generalizing s with
  | nil => rfl
  | cons r records ih =>
      rw [List.cons_append, addAll, addAll]
      cases s.add r with
      | ok x => exact ih x.2
      | error e =>
          dsimp only
          rw [ih]
          rfl

theorem addAll_singleton_of_ok {s' : RuleStore} (h : s.add record = .ok (id, s')) :
    s.addAll [record] = (s', []) := by
  rw [addAll, h]
  rfl

theorem addAll_singleton_of_error {e : StoreError} (h : s.add record = .error e) :
    s.addAll [record] = (s, [e]) := by
  rw [addAll, h]
  rfl

/-- The store of records is that of those that stand first, and the others are refused in order. -/
theorem ofRecords_eq (records : List Record) :
    (ofRecords records).1 = ofFirsts records ∧
      List.Forall₂ (fun r e => Refusal (ofFirsts records).rules (.ofRecord r) e)
        (leftOut records) (ofRecords records).2 := by
  induction records using List.reverseRecOn with
  | nil => exact ⟨rfl, .nil⟩
  | append_singleton records record ih =>
      obtain ⟨hstore, hrefused⟩ := ih
      have hsound : (ofFirsts records).Sound := hstore ▸ (Loaded.ofRecords records).sound
      have hall : ofRecords (records ++ [record]) =
          (((ofRecords records).1.addAll [record]).1,
            (ofRecords records).2 ++ ((ofRecords records).1.addAll [record]).2) :=
        addAll_append empty records [record]
      rw [hall, hstore, leftOut_append_singleton]
      rcases add_ofFirsts_cases hsound record with ⟨hfirst, id, hadd⟩ | ⟨hnot, e, hadd, hreason⟩
      · rw [addAll_singleton_of_ok hadd, if_pos hfirst, List.append_nil, List.append_nil]
        -- The rules that are there stay there, so the earlier reasons are still reasons.
        refine ⟨rfl, hrefused.imp fun r e hre => ?_⟩
        exact hre.mono (fun x hx => hsound.mem_rules_add hadd hx)
          fun x hx y hy => (hsound.add hadd).distinct.eq_of_body hx hy
      · have hsame : ofFirsts (records ++ [record]) = ofFirsts records := by
          unfold ofFirsts
          rw [firsts_append_singleton, if_neg hnot, List.append_nil]
        rw [addAll_singleton_of_error hadd, if_neg hnot, hsame]
        exact ⟨rfl, List.rel_append hrefused (.cons hreason .nil)⟩

/-- A store of records has those that stand first, numbered 1, 2, 3 and so on in their order, the
ordinary ones and those of templates apart. Each of the others is reported, in order: that its
pattern is empty, or else the rule that says the same, which is that of the first record to say it.
All records are kept or reported, and of the records of the store itself none is refused. -/
theorem ofRecords_keeps_firsts (records : List Record) :
    (ofRecords records).1 = ofFirsts records ∧
      List.Forall₂ (fun r e => Refusal (ofFirsts records).rules (.ofRecord r) e)
        (leftOut records) (ofRecords records).2 ∧
      (ofRecords records).1.size + (ofRecords records).2.length = records.length ∧
      (ofRecords (ofRecords records).1.records).2 = [] := by
  obtain ⟨hstore, hrefused⟩ := ofRecords_eq records
  have hsound := (Loaded.ofRecords records).sound
  refine ⟨hstore, hrefused, ?_, ?_⟩
  · have hsize : (ofFirsts records).size = (firsts records).length := by
      simpa [size] using (perm_bodies_ofFirsts records).length_eq
    rw [hstore, hsize, ← hrefused.length_eq]
    exact length_firsts_add_length_leftOut records
  · generalize (ofRecords records).1 = s at hsound
    have hbodies : s.records.map RuleBody.ofRecord = s.rules.map Rule.body := by
      unfold RuleStore.records
      rw [List.map_map]
      exact List.map_congr_left fun r hr => (hsound.records r hr).ofRecord_toRecord
    have hnone : leftOut s.records = [] := by
      refine leftOut_eq_nil (fun record hrecord => ?_) ?_
      · obtain ⟨r, hr, rfl⟩ := List.mem_map.1 hrecord
        have hpattern := congrArg RuleBody.pattern (hsound.records r hr).ofRecord_toRecord
        have hnonempty := hsound.wellKept.nonempty r hr
        rwa [← hpattern] at hnonempty
      · rw [hbodies]
        exact List.pairwise_map.2 hsound.bodies
    have hrefused := (ofRecords_eq s.records).2
    rw [hnone] at hrefused
    exact List.forall₂_nil_left_iff.1 hrefused

/-- The second record says what the first one says, and the third one has no alternatives. -/
example :
    let loaded := ofRecords
      [{ kind := .equal, pattern := "a, b".toList },
       { kind := .equal, pattern := "a,a,, b".toList, scope := some [], threshold := some 3 },
       { kind := .equal, pattern := " ,".toList },
       { kind := .equal, pattern := "a".toList, owner := .template },
       { kind := .equal, pattern := "b".toList }]
    loaded.1.rules.map Rule.id = [.ordinary 1, .ordinary 2, .template 1] ∧
      loaded.2 = [.duplicate (.ordinary 1), .emptyPattern] := by cbv

end RuleStore

end Fillout
