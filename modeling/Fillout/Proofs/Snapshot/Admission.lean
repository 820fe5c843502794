import Fillout.Proofs.Snapshot.RoundTrip

set_option autoImplicit false

/-! # What a snapshot may hold

Bytes that were not written for a store may still be read as one. The store of a snapshot, wherever
its bytes come from, has all that adding rules guarantees but one thing (`admits_of_ofBytes`):
identifiers differ and have numbers among those given out, patterns have alternatives, no two rules
say the same, and rules are normalised. The examination of a payload does not compare the sort of an
identifier with the owner of its rule, so a rule of a template may come with an ordinary identifier
(`ofBytes_ordinaryTemplate`).

This is the only difference between the stores of snapshots and those that changes make of the empty
store. Where identifiers and owners go together, the changes that lead to the store can be given
(`exists_changes_of_sound`): its identifiers are given out one after the other, each to the rule
that has it, or to a rule that is removed again at once if no rule has it (`Stage.next`).
-/

namespace Fillout

namespace RuleId

theorem eq_of_number {i j : RuleId} (hsort : i.isTemplate = j.isTemplate)
    (h : i.number = j.number) : i = j := by
  cases i <;> cases j <;> first | exact congrArg _ h | cases hsort

end RuleId

namespace RuleStore

variable {s t : RuleStore} {r : Rule} {i : RuleId}

/-- Rules of templates, and no others, have the identifiers of templates. -/
def NumbersTemplatesApart (s : RuleStore) : Prop :=
  ∀ r ∈ s.rules, r.id.isTemplate = true ↔ r.body.owner = .template

/-- Every change numbers templates apart. -/
theorem NumbersTemplatesApart.after (h : s.NumbersTemplatesApart) (c : Change) :
    (s.after c).NumbersTemplatesApart := by
  intro r hr
  rcases mem_rules_after hr with hr | ⟨record, rfl, rfl⟩ | ⟨o, ho, ⟨_, rfl⟩ | ⟨_, rfl⟩⟩
  · exact h r hr
  · exact s.isTemplate_nextId record.owner
  · exact h o ho
  · exact h o ho

/-! ## Building a store -/

theorem lastFor_after_remove (s : RuleStore) (id i : RuleId) :
    (s.after (.remove id)).lastFor i = s.lastFor i := by
  rcases s.after_cases (.remove id) with hs | ⟨hs, -⟩
  · generalize s.after (.remove id) = s', s.givenId? (.remove id) = id? at hs
    cases hs with
    | remove hremove =>
        obtain ⟨-, rfl⟩ := remove_eq_ok hremove
        cases i <;> rfl
  · rw [hs]

/-- Lists in the order of the identifiers are equal if they have the same rules. -/
theorem eq_of_mem_iff {rules rules' : List Rule} (h : rules.Pairwise fun a b => a.id.before b.id)
    (h' : rules'.Pairwise fun a b => a.id.before b.id) (hmem : ∀ r, r ∈ rules ↔ r ∈ rules') :
    rules = rules' := by
  have hnodup : ∀ {rules : List Rule}, (rules.Pairwise fun a b => a.id.before b.id) → rules.Nodup :=
    fun h => h.imp fun hlt he => RuleId.ne_of_before hlt (congrArg Rule.id he)
  refine List.Perm.eq_of_pairwise (fun a b _ _ hab hba => ?_) h h'
    ((List.perm_ext_iff_of_nodup (hnodup h) (hnodup h')).2 hmem)
  exact absurd hba (RuleId.not_before_of_before hab)

/-- A rule of a literal value that no other rule has. -/
theorem exists_fresh_literal (rules : List Rule) :
    ∃ text : Text, ∀ r ∈ rules, r.body.value ≠ .literal text := by
  have hinj : Function.Injective fun n => RuleValue.literal (List.replicate n 'x') := by
    intro m n h
    have hlength := congrArg List.length (RuleValue.literal.inj h)
    simpa using hlength
  obtain ⟨_, ⟨n, rfl⟩, hn⟩ :=
    (Set.infinite_range_of_injective hinj).exists_notMem_finset (rules.map (·.body.value)).toFinset
  refine ⟨List.replicate n 'x', fun r hr he => hn ?_⟩
  exact List.mem_toFinset.2 (List.mem_map.2 ⟨r, hr, he⟩)

/-- Which identifiers have been given out is changed for the one that is given out alone. -/
theorem number_le_lastFor_of_add {record : Record} (hadd : s.add record = .ok (i, t)) {j : RuleId}
    (hne : j ≠ i) : j.number ≤ t.lastFor j ↔ j.number ≤ s.lastFor j := by
  rw [lastFor_of_add hadd]
  split
  · rename_i hsort
    have hnumber : i.number = s.lastFor i + 1 := by
      obtain ⟨rfl, -, -⟩ := add_eq_ok hadd
      exact s.number_nextId record.owner
    have hj : j.number ≠ s.lastFor j + 1 := by
      rw [lastFor_congr s hsort, ← hnumber]
      exact fun h => hne (RuleId.eq_of_number hsort h)
    omega
  · exact Iff.rfl

theorem rules_of_add {record : Record} (hadd : s.add record = .ok (i, t)) :
    t.rules = insertRule (.ofRecord i record) s.rules := by
  obtain ⟨-, -, rfl⟩ := add_eq_ok hadd
  split <;> rfl

/-- A store on the way to `s`: it has the rules of `s` whose identifiers have been given out. -/
structure Stage (s t : RuleStore) : Prop where
  ascending : t.rules.Pairwise fun a b => a.id.before b.id
  mem_iff : ∀ r, r ∈ t.rules ↔ r ∈ s.rules ∧ r.id.number ≤ t.lastFor r.id

theorem Stage.mem_of_add (h : s.Stage t) {record : Record} {t' : RuleStore}
    (hadd : t.add record = .ok (i, t')) (x : Rule) :
    x ∈ t'.rules ↔ x = .ofRecord i record ∨
      (x ∈ s.rules ∧ x.id ≠ i ∧ x.id.number ≤ t'.lastFor x.id) := by
  rw [rules_of_add hadd, (insertRule_perm _ h.ascending).mem_iff, List.mem_cons, List.mem_filter,
    h.mem_iff]
  refine or_congr Iff.rfl ?_
  rw [and_assoc, decide_eq_true_eq, and_comm (a := x.id.number ≤ _)]
  exact and_congr_right fun _ => and_congr_right fun hne =>
    (number_le_lastFor_of_add hadd hne).symm

/-- If the next identifier is that of a rule of `s`, this rule can be added under it. -/
theorem Stage.add (h : s.Stage t) (hs : s.Sound) (hr : r ∈ s.rules)
    (hid : r.id = t.nextId r.body.owner) :
    ∃ t', t.add r.body.toRecord = .ok (r.id, t') ∧ s.Stage t' := by
  have hrecord := (hs.records r hr).ofRecord_toRecord
  have hrule : Rule.ofRecord r.id r.body.toRecord = r :=
    (congrArg (Rule.ofBody r.id) hrecord).trans (hs.records r hr).eq_ofBody.symm
  have hnumber : r.id.number = t.lastFor r.id + 1 := by
    rw [hid]
    exact t.number_nextId r.body.owner
  -- a rule that says the same would be `r` itself, whose number has not been given out
  have hnew : ∀ x ∈ t.rules, x.body ≠ .ofRecord r.body.toRecord := by
    intro x hx he
    obtain ⟨hxs, hle⟩ := (h.mem_iff x).1 hx
    rw [hrecord] at he
    rw [hs.distinct.eq_of_body hxs hr he] at hle
    omega
  have hnonempty : (RuleBody.ofRecord r.body.toRecord).pattern.isEmpty = false := by
    rw [hrecord]
    exact hs.nonempty r hr
  obtain ⟨t', hadd⟩ := exists_add_of_check (check_of_new hnonempty hnew)
  have hadd : t.add r.body.toRecord = .ok (r.id, t') := by
    rw [hid]
    exact hadd
  refine ⟨t', hadd, ?_, fun x => ?_⟩
  · rw [rules_of_add hadd]
    exact insertRule_ascending _ h.ascending
  · rw [h.mem_of_add hadd, hrule]
    constructor
    · rintro (rfl | ⟨hx, -, hle⟩)
      · refine ⟨hr, ?_⟩
        rw [lastFor_of_add hadd, if_pos rfl, hnumber]
      · exact ⟨hx, hle⟩
    · rintro ⟨hx, hle⟩
      by_cases he : x.id = r.id
      · exact .inl (hs.distinct.eq_of_id hx hr he)
      · exact .inr ⟨hx, he, hle⟩

/-- If the next identifier is that of no rule of `s`, it can be given to a rule that is removed
again. -/
theorem Stage.skip (h : s.Stage t) {owner : Owner} (hnone : ∀ r ∈ s.rules, r.id ≠ t.nextId owner) :
    ∃ record t', t.add record = .ok (t.nextId owner, t') ∧
      s.Stage (t'.after (.remove (t.nextId owner))) := by
  obtain ⟨text, htext⟩ := exists_fresh_literal t.rules
  let record : Record := { kind := .equal, pattern := ['x'], value := .literal text, owner }
  have hnew : ∀ r ∈ t.rules, r.body ≠ .ofRecord record :=
    fun r hr he => htext r hr (congrArg RuleBody.value he)
  obtain ⟨t', hadd⟩ : ∃ t', t.add record = .ok (t.nextId owner, t') :=
    exists_add_of_check (check_of_new rfl hnew)
  refine ⟨record, t', hadd, ?_, fun x => ?_⟩
  · rw [rules_after_remove, rules_of_add hadd]
    exact (insertRule_ascending _ h.ascending).filter _
  · rw [rules_after_remove, List.mem_filter, h.mem_of_add hadd, lastFor_after_remove,
      decide_eq_true_eq]
    constructor
    · rintro ⟨rfl | ⟨hx, -, hle⟩, hne⟩
      · exact absurd rfl hne
      · exact ⟨hx, hle⟩
    · rintro ⟨hx, hle⟩
      exact ⟨.inr ⟨hx, hnone x hx, hle⟩, hnone x hx⟩

theorem isTemplate_nextId_eq (t : RuleStore) (owner : Owner) :
    (t.nextId owner).isTemplate = decide (owner = .template) := by
  rw [Bool.eq_iff_iff, isTemplate_nextId, decide_eq_true_eq]

/-- On the way to `s` the next identifier of either sort can be given out. -/
theorem Stage.next (h : s.Stage t) (hs : s.Sound) (happart : s.NumbersTemplatesApart)
    (owner : Owner) :
    ∃ changes, s.Stage (t.afterAll changes) ∧ ∀ i, (t.afterAll changes).lastFor i =
      if i.isTemplate = decide (owner = .template) then t.lastFor i + 1 else t.lastFor i := by
  by_cases hnext : ∃ r ∈ s.rules, r.id = t.nextId owner
  · obtain ⟨r, hr, hid⟩ := hnext
    have howner : r.body.owner = .template ↔ owner = .template := by
      rw [← happart r hr, hid, isTemplate_nextId]
    have hsame : t.nextId owner = t.nextId r.body.owner := by
      unfold nextId
      simp only [howner]
    obtain ⟨t', hadd, hstage⟩ := h.add hs hr (hid.trans hsame)
    refine ⟨[.add r.body.toRecord], ?_⟩
    rw [afterAll, List.foldl_cons, List.foldl_nil, after_add_of_ok hadd]
    refine ⟨hstage, fun i => ?_⟩
    rw [lastFor_of_add hadd, hid, isTemplate_nextId_eq]
  · obtain ⟨record, t', hadd, hstage⟩ := h.skip fun r hr hid => hnext ⟨r, hr, hid⟩
    refine ⟨[.add record, .remove (t.nextId owner)], ?_⟩
    rw [afterAll, List.foldl_cons, List.foldl_cons, List.foldl_nil, after_add_of_ok hadd]
    refine ⟨hstage, fun i => ?_⟩
    rw [lastFor_after_remove, lastFor_of_add hadd, isTemplate_nextId_eq]

/-- On the way to `s` any number of identifiers of either sort can be given out. -/
theorem Stage.raise (h : s.Stage t) (hs : s.Sound) (happart : s.NumbersTemplatesApart)
    (owner : Owner) (n : Nat) :
    ∃ changes, s.Stage (t.afterAll changes) ∧ ∀ i, (t.afterAll changes).lastFor i =
      if i.isTemplate = decide (owner = .template) then t.lastFor i + n else t.lastFor i := by
  induction n with
  | zero => exact ⟨[], h, fun i => (ite_self _).symm⟩
  | succ n ih =>
      obtain ⟨changes, hstage, hlast⟩ := ih
      obtain ⟨more, hstage', hlast'⟩ := hstage.next hs happart owner
      refine ⟨changes ++ more, ?_⟩
      rw [afterAll, List.foldl_append]
      refine ⟨hstage', fun i => (hlast' i).trans ?_⟩
      rw [hlast i]
      split <;> rfl

/-- A sound store in order in which rules of templates are numbered apart can be built. -/
theorem exists_changes_of_sound (hs : s.Sound) (hindexed : s.Indexed)
    (happart : s.NumbersTemplatesApart) : ∃ changes, empty.afterAll changes = s := by
  have hstart : s.Stage empty := by
    refine ⟨.nil, fun r => iff_of_false (List.not_mem_nil) fun ⟨hr, hle⟩ => ?_⟩
    have hlast : empty.lastFor r.id = 0 := by cases r.id <;> rfl
    have hone := (hs.numbers r hr).1
    omega
  obtain ⟨changes, hstage, hlast⟩ := hstart.raise hs happart .case s.lastOrdinary
  obtain ⟨more, hstage', hlast'⟩ := hstage.raise hs happart .template s.lastTemplate
  refine ⟨changes ++ more, ?_⟩
  have happend : empty.afterAll (changes ++ more) = (empty.afterAll changes).afterAll more :=
    List.foldl_append
  have hreachable : (empty.afterAll (changes ++ more)).Reachable := Reachable.empty.afterAll _
  rw [← happend] at hstage' hlast'
  generalize empty.afterAll (changes ++ more) = t at hstage' hlast' hreachable
  have hordinary : t.lastOrdinary = s.lastOrdinary := by
    have h := hlast' (.ordinary 0)
    rw [hlast] at h
    exact h.trans (Nat.zero_add _)
  have htemplate : t.lastTemplate = s.lastTemplate := by
    have h := hlast' (.template 0)
    rw [hlast] at h
    exact h.trans (Nat.zero_add _)
  have hrules : t.rules = s.rules := by
    refine eq_of_mem_iff hstage'.ascending hs.ascending fun r => ?_
    rw [hstage'.mem_iff]
    refine and_iff_left_of_imp fun hr => (hs.numbers r hr).2.trans_eq ?_
    cases r.id
    · exact hordinary.symm
    · exact htemplate.symm
  rw [hreachable.indexed.eq_ofRules, hindexed.eq_ofRules, hordinary, htemplate, hrules]

/-! ## The store of a snapshot -/

/-- The store of a snapshot has all that adding rules guarantees, wherever the bytes come from:
identifiers differ and have numbers among those given out, patterns have alternatives, no two rules
say the same, only rules for similar names have a threshold, and no scope is the empty list. Whether
rules of templates are numbered apart is not examined; the store is one that changes make of the
empty store exactly if they are. -/
theorem admits_of_ofBytes {b : Bytes} (h : ofBytes b = .ok s) :
    (s.rules.map Rule.id).Nodup ∧
      (∀ r ∈ s.rules, 1 ≤ r.id.number ∧ r.id.number ≤ s.lastFor r.id) ∧
      (∀ r ∈ s.rules, r.body.pattern.alternatives ≠ []) ∧
      (s.rules.map Rule.body).Nodup ∧
      (∀ r ∈ s.rules, r.body.threshold ≠ none → r.body.kind = .similar) ∧
      (∀ r ∈ s.rules, r.body.scope ≠ some []) ∧
      ((∃ changes, empty.afterAll changes = s) ↔ s.NumbersTemplatesApart) := by
  have hsound := sound_ofBytes h
  have hkept := hsound.wellKept
  refine ⟨List.pairwise_map.2 (hsound.ascending.imp RuleId.ne_of_before), hkept.numbers,
    hkept.nonempty, hkept.bodies, hkept.thresholds, hkept.scopes, ?_, ?_⟩
  · rintro ⟨changes, rfl⟩
    exact afterAll_keeps (fun c _ _ ht => ht.after c) (List.forall_mem_nil _)
  · exact exists_changes_of_sound hsound (indexed_ofBytes h)

/-- The opening of a letter, which belongs to a template. -/
def openingRecord : Record :=
  { kind := .equal, pattern := "opening".toList, value := .literal "Dear".toList,
    owner := .template }

/-- A payload with the rule of a template under an ordinary identifier. -/
def openingPayload : Payload where
  size := 1
  lastOrdinary := 1
  lastTemplate := 0
  source := none
  entries := [Payload.entryOfRule (.ofRecord (.ordinary 1) openingRecord)]

/-- The store that this payload describes. -/
def openingStore : RuleStore := ofRules [.ofRecord (.ordinary 1) openingRecord] 1 0

/-- The snapshot with this payload. -/
def openingSnapshot : Bytes := Snapshot.frame openingPayload.write

theorem ofBytes_openingSnapshot : ofBytes openingSnapshot = .ok openingStore := by
  refine ofBytes_frame_of_toStore ⟨by decide, by decide, ?_, rfl, ?_⟩ (by decide +kernel) rfl
  · intro digest hdigest
    cases hdigest
  · intro e he
    rw [List.mem_singleton.1 he]
    decide

/-- The rule of a template comes with an ordinary identifier, which adding it never gives it. -/
theorem ofBytes_ordinaryTemplate :
    ∃ s, ofBytes openingSnapshot = .ok s ∧ ¬ s.NumbersTemplatesApart := by
  refine ⟨openingStore, ofBytes_openingSnapshot, fun h => ?_⟩
  have hsort := h (.ofRecord (.ordinary 1) openingRecord) List.mem_cons_self
  exact Bool.false_ne_true (hsort.2 rfl)

/-- The store of this snapshot is in order otherwise, and no changes make it. -/
theorem admits_of_ofBytes_opening :
    ofBytes openingSnapshot = .ok openingStore ∧
      (openingStore.rules.map Rule.id).Nodup ∧
      (∀ r ∈ openingStore.rules, 1 ≤ r.id.number ∧ r.id.number ≤ openingStore.lastFor r.id) ∧
      (openingStore.rules.map Rule.body).Nodup ∧
      ¬ ∃ changes, empty.afterAll changes = openingStore := by
  obtain ⟨hids, hnumbers, -, hbodies, -, -, hbuilt⟩ := admits_of_ofBytes ofBytes_openingSnapshot
  refine ⟨ofBytes_openingSnapshot, hids, hnumbers, hbodies, fun h => ?_⟩
  have hsort := hbuilt.1 h (.ofRecord (.ordinary 1) openingRecord) List.mem_cons_self
  exact Bool.false_ne_true (hsort.2 rfl)

end RuleStore

end Fillout
