import Fillout.Proofs.Rule.Pattern
import Fillout.Proofs.Store.Changes
import Mathlib

set_option autoImplicit false

/-! # Well-kept stores

`RuleStore.WellKept` says what a store guarantees of its rules: they are found under their
identifiers, their patterns are proper, no two of them say the same, their numbers are among those
given out, and they are normalised. Every store that is loaded is well kept, and so is every store
that changes, whether they succeed or fail, make of it (`Loaded.wellKept_of_changes`).

The parts lean on one another. A rule is normalised because it is at all times the rule of some
record (`Rule.IsOfRecord`), also after it has got another pattern or value. No two rules say the
same because a body is compared with those of the other rules before it is put into the store, and
this comparison leaves out exactly the rule whose place it takes. And a new identifier is new
because its number is above all that have been given out.
-/

namespace Fillout

/-- The rule is what some record says, under its identifier. -/
def Rule.IsOfRecord (r : Rule) : Prop := ∃ record, r = .ofRecord r.id record

namespace Rule

variable {r : Rule}

theorem isOfRecord_ofRecord (id : RuleId) (record : Record) : (ofRecord id record).IsOfRecord :=
  ⟨record, rfl⟩

/-- A rule that is the rule of a record is that of its body. -/
theorem IsOfRecord.eq_ofBody (h : r.IsOfRecord) : r = ofBody r.id r.body := by
  obtain ⟨record, he⟩ := h
  rw [he]
  rfl

/-- The record of a rule says what the rule says. -/
theorem IsOfRecord.ofRecord_toRecord (h : r.IsOfRecord) :
    RuleBody.ofRecord r.body.toRecord = r.body := by
  obtain ⟨record, he⟩ := h
  rw [he]
  exact RuleBody.ofRecord_toRecord record

theorem IsOfRecord.withPattern (h : r.IsOfRecord) (pattern : Text) :
    (r.withPattern pattern).IsOfRecord := by
  obtain ⟨record, he⟩ := h
  refine ⟨{ record with pattern }, ?_⟩
  rw [he]
  rfl

theorem IsOfRecord.withValue (h : r.IsOfRecord) (value : RuleValue) :
    (r.withValue value).IsOfRecord := by
  obtain ⟨record, he⟩ := h
  refine ⟨{ record with value }, ?_⟩
  rw [he]
  rfl

end Rule

namespace RuleStore

/-- What a store guarantees of its rules. -/
structure WellKept (s : RuleStore) : Prop where
  /-- Each rule is found under its own identifier. -/
  identifiers : ∀ r ∈ s.rules, s.get? r.id = some r
  /-- Patterns have alternatives. -/
  nonempty : ∀ r ∈ s.rules, r.body.pattern.alternatives ≠ []
  /-- Alternatives are trimmed and not empty, and none comes twice. -/
  proper : ∀ r ∈ s.rules, r.body.pattern.IsProper
  /-- No two rules say the same. -/
  bodies : (s.rules.map Rule.body).Nodup
  /-- Numbers are among those that have been given out. -/
  numbers : ∀ r ∈ s.rules, 1 ≤ r.id.number ∧ r.id.number ≤ s.lastFor r.id
  /-- Only rules for similar names have a threshold. -/
  thresholds : ∀ r ∈ s.rules, r.body.threshold ≠ none → r.body.kind = .similar
  /-- No scope is the empty list. -/
  scopes : ∀ r ∈ s.rules, r.body.scope ≠ some []
  /-- A rule for a regular expression has one program for each alternative, and it is that of the
  alternative. -/
  matchers : ∀ r ∈ s.rules, r.body.kind = .regex →
    r.matchers = r.body.pattern.alternatives.map Regex.compile?

/-! ## Putting a rule into a list -/

/-- A rule that is put into a list takes the place of the one with its identifier. -/
theorem insertRule_perm (r : Rule) {rules : List Rule}
    (h : rules.Pairwise fun a b => a.id.before b.id) :
    (insertRule r rules).Perm (r :: rules.filter fun x => x.id ≠ r.id) := by
  induction rules with
  | nil => exact .refl _
  | cons x rules ih =>
      obtain ⟨hx, hrest⟩ := List.pairwise_cons.1 h
      have hbehind : ∀ {i : RuleId}, (i = x.id ∨ i.before x.id = true) →
          rules.filter (fun y => y.id ≠ i) = rules := by
        intro i hi
        refine List.filter_eq_self.2 fun y hy => decide_eq_true fun he => ?_
        have hlt := hx y hy
        rw [he] at hlt
        rcases hi with rfl | hi
        · exact RuleId.ne_of_before hlt rfl
        · exact RuleId.not_before_of_before hi hlt
      rw [insertRule]
      split
      · rename_i hlt
        have hne : x.id ≠ r.id := (RuleId.ne_of_before hlt).symm
        rw [List.filter_cons, if_pos (by simpa using hne), hbehind (.inr hlt)]
      · split
        · rename_i he
          rw [List.filter_cons, if_neg (by simpa using he.symm), hbehind (.inl he)]
        · rename_i he
          rw [List.filter_cons, if_pos (by simpa using Ne.symm he)]
          exact ((ih hrest).cons x).trans (.swap r x _)

/-- The rules that come before a rule stay in front of it. -/
theorem insertRule_append {r : Rule} {before rest : List Rule}
    (h : ∀ x ∈ before, x.id.before r.id = true) :
    insertRule r (before ++ rest) = before ++ insertRule r rest := by
  induction before with
  | nil => rfl
  | cons x before ih =>
      obtain ⟨hx, hrest⟩ := List.forall_mem_cons.1 h
      rw [List.cons_append, insertRule, if_neg (RuleId.not_before_of_before hx),
        if_neg (RuleId.ne_of_before hx).symm, ih hrest]
      rfl

/-- A rule whose identifier comes last is put last. -/
theorem insertRule_eq_append {r : Rule} {rules : List Rule}
    (h : ∀ x ∈ rules, x.id.before r.id = true) : insertRule r rules = rules ++ [r] := by
  have happend : insertRule r (rules ++ []) = rules ++ insertRule r [] := insertRule_append h
  rwa [List.append_nil] at happend

/-- A rule whose identifier comes first is put first. -/
theorem insertRule_eq_cons {r : Rule} {rules : List Rule}
    (h : ∀ x ∈ rules, r.id.before x.id = true) : insertRule r rules = r :: rules := by
  cases rules with
  | nil => rfl
  | cons x rules => exact if_pos (h x List.mem_cons_self)

/-- A rule takes the place of the one with its identifier. -/
theorem insertRule_cons_of_id {r o : Rule} (h : o.id = r.id) (rest : List Rule) :
    insertRule r (o :: rest) = r :: rest := by
  rw [insertRule, h, RuleId.before_irrefl, if_neg Bool.false_ne_true, if_pos rfl]

/-! ## Rules beside one another -/

/-- The rules under other identifiers. -/
def others (s : RuleStore) (id : RuleId) : List Rule := s.rules.filter fun r => r.id ≠ id

/-- Whether a body may stand beside some rules. -/
def examineBeside (rules : List Rule) (body : RuleBody) : Except StoreError Unit :=
  if body.pattern.isEmpty then .error .emptyPattern
  else
    match rules.find? fun r => r.body = body with
    | some r => .error (.duplicate r.id)
    | none => .ok ()

/-! ## Initial stores and changes -/

/-- The facts from which it follows that a store is well kept. -/
structure Sound (s : RuleStore) : Prop where
  ascending : s.rules.Pairwise fun a b => a.id.before b.id
  records : ∀ r ∈ s.rules, r.IsOfRecord
  nonempty : ∀ r ∈ s.rules, r.body.pattern.isEmpty = false
  bodies : s.rules.Pairwise fun a b => a.body ≠ b.body
  numbers : ∀ r ∈ s.rules, 1 ≤ r.id.number ∧ r.id.number ≤ s.lastFor r.id

variable {s s' : RuleStore} {id : RuleId} {r : Rule}

theorem Sound.wellKept (h : s.Sound) : s.WellKept where
  identifiers _ hr := find?_id h.ascending hr
  nonempty r hr := by
    have := h.nonempty r hr
    unfold RulePattern.isEmpty at this
    simpa using this
  proper r hr := by
    obtain ⟨record, he⟩ := h.records r hr
    rw [he]
    exact RulePattern.isProper_ofText record.pattern
  bodies := List.pairwise_map.2 h.bodies
  numbers := h.numbers
  thresholds r hr := by
    obtain ⟨record, he⟩ := h.records r hr
    rw [he]
    exact RuleBody.kind_of_threshold
  scopes r hr := by
    obtain ⟨record, he⟩ := h.records r hr
    rw [he]
    exact RuleBody.scope_ofRecord_ne record
  matchers r hr hk := by
    obtain ⟨record, he⟩ := h.records r hr
    rw [he] at hk ⊢
    exact if_pos hk

/-- The identifiers of the rules ascend, and no two rules say the same. -/
structure Distinct (s : RuleStore) : Prop where
  ascending : s.rules.Pairwise fun a b => a.id.before b.id
  bodies : s.rules.Pairwise fun a b => a.body ≠ b.body

theorem Sound.distinct (h : s.Sound) : s.Distinct := ⟨h.ascending, h.bodies⟩

/-- Rules that say the same are the same. -/
theorem Distinct.eq_of_body (h : s.Distinct) {a b : Rule} (ha : a ∈ s.rules) (hb : b ∈ s.rules)
    (he : a.body = b.body) : a = b :=
  List.inj_on_of_nodup_map (List.pairwise_map.2 h.bodies) ha hb he

/-- Rules with the same identifier are the same. -/
theorem Distinct.eq_of_id (h : s.Distinct) {a b : Rule} (ha : a ∈ s.rules) (hb : b ∈ s.rules)
    (he : a.id = b.id) : a = b := by
  have hfind := find?_id h.ascending ha
  rw [he, find?_id h.ascending hb] at hfind
  exact (Option.some.inj hfind).symm

/-- A rule that takes the place of the one with its identifier must not say what another one
says. -/
theorem Distinct.insertRule (h : s.Distinct)
    (hnew : ∀ x ∈ s.rules, x.id ≠ r.id → x.body ≠ r.body) (m n : Nat) :
    (ofRules (insertRule r s.rules) m n).Distinct := by
  refine ⟨insertRule_ascending r h.ascending, ?_⟩
  have hperm := insertRule_perm r h.ascending
  refine (hperm.pairwise_iff fun hab => Ne.symm hab).2 (List.pairwise_cons.2 ⟨fun x hx => ?_, ?_⟩)
  · obtain ⟨hx, hid⟩ := List.mem_filter.1 hx
    exact (hnew x hx (of_decide_eq_true hid)).symm
  · exact h.bodies.filter _

/-- A body may stand beside rules exactly if it has alternatives and no rule says the same. -/
theorem examineBeside_eq_ok {rules : List Rule} {body : RuleBody} :
    examineBeside rules body = .ok () ↔
      body.pattern.isEmpty = false ∧ ∀ r ∈ rules, r.body ≠ body := by
  unfold examineBeside
  cases body.pattern.isEmpty with
  | true => simp
  | false =>
      rw [if_neg Bool.false_ne_true, and_iff_right rfl]
      constructor
      · intro h r hr hbody
        split at h
        · cases h
        · rename_i hnone
          exact List.find?_eq_none.1 hnone r hr (decide_eq_true hbody)
      · intro hnew
        rw [List.find?_eq_none.2 fun r hr => by simpa using hnew r hr]

theorem check_eq_examineBeside (s : RuleStore) (id : RuleId) (body : RuleBody) :
    s.check id body = examineBeside (s.others id) body := by
  have hfind : (s.rules.find? fun r => r.id ≠ id && r.body = body) =
      (s.others id).find? fun r => r.body = body := by
    simp only [others, List.find?_filter, Bool.decide_and, Bool.decide_eq_true]
  unfold check examineBeside
  exact hfind ▸ rfl

/-- A body passes the check exactly if it has alternatives and no rule under another identifier says
the same. -/
theorem check_eq_ok {body : RuleBody} :
    s.check id body = .ok () ↔
      body.pattern.isEmpty = false ∧ ∀ r ∈ s.rules, r.id ≠ id → r.body ≠ body := by
  rw [check_eq_examineBeside, examineBeside_eq_ok]
  unfold others
  simp only [List.mem_filter, decide_eq_true_eq, and_imp]

theorem check_of_new {body : RuleBody} (hnonempty : body.pattern.isEmpty = false)
    (hnew : ∀ r ∈ s.rules, r.body ≠ body) : s.check id body = .ok () :=
  check_eq_ok.2 ⟨hnonempty, fun r hr _ => hnew r hr⟩

/-- A record that passes the check is added. -/
theorem exists_add_of_check {record : Record}
    (h : s.check (s.nextId record.owner) (.ofRecord record) = .ok ()) :
    ∃ s', s.add record = .ok (s.nextId record.owner, s') := by
  unfold add
  dsimp only [bind, Except.bind]
  rw [h]
  exact ⟨_, rfl⟩

/-- A rule that has passed the check is put into a sound store, at the place of its identifier. -/
theorem Sound.insertRule (h : s.Sound) (hr : r.IsOfRecord) (hcheck : s.check r.id r.body = .ok ())
    {m n : Nat} (hle : ∀ i, s.lastFor i ≤ (ofRules (insertRule r s.rules) m n).lastFor i)
    (hnumber : 1 ≤ r.id.number ∧
      r.id.number ≤ (ofRules (RuleStore.insertRule r s.rules) m n).lastFor r.id) :
    (ofRules (RuleStore.insertRule r s.rules) m n).Sound := by
  obtain ⟨hempty, hnew⟩ := check_eq_ok.1 hcheck
  obtain ⟨hascending, hbodies⟩ := h.distinct.insertRule hnew m n
  have hmem : ∀ {P : Rule → Prop}, P r → (∀ x ∈ s.rules, P x) →
      ∀ x ∈ RuleStore.insertRule r s.rules, P x := by
    intro P hPr hP x hx
    rcases mem_of_mem_insertRule hx with rfl | hx
    · exact hPr
    · exact hP x hx
  refine ⟨hascending, hmem hr h.records, hmem hempty h.nonempty, hbodies,
    hmem hnumber fun x hx => ?_⟩
  exact ⟨(h.numbers x hx).1, (h.numbers x hx).2.trans (hle x.id)⟩

theorem Sound.add (h : s.Sound) {record : Record} (hadd : s.add record = .ok (id, s')) :
    s'.Sound := by
  have hlast := lastFor_of_add hadd
  obtain ⟨rfl, hcheck, he⟩ := add_eq_ok hadd
  have hle : ∀ i, s.lastFor i ≤ s'.lastFor i := by
    intro i
    rw [hlast]
    split
    · exact Nat.le_succ _
    · exact Nat.le_refl _
  have hnumber : 1 ≤ (s.nextId record.owner).number ∧
      (s.nextId record.owner).number ≤ s'.lastFor (s.nextId record.owner) := by
    rw [hlast, if_pos rfl, number_nextId]
    exact ⟨Nat.succ_le_succ (Nat.zero_le _), Nat.le_refl _⟩
  have hr := Rule.isOfRecord_ofRecord (s.nextId record.owner) record
  split at he
  · rw [he] at hle hnumber ⊢
    exact h.insertRule hr hcheck hle hnumber
  · rw [he] at hle hnumber ⊢
    exact h.insertRule hr hcheck hle hnumber

theorem Sound.replace (h : s.Sound) (hr : r.IsOfRecord) {o : Rule} (ho : o ∈ s.rules)
    (hid : r.id = o.id) (hreplace : s.replace r = .ok s') : s'.Sound := by
  obtain ⟨hcheck, rfl⟩ := replace_eq_ok hreplace
  have hsame :
      ∀ i, (ofRules (RuleStore.insertRule r s.rules) s.lastOrdinary s.lastTemplate).lastFor i =
      s.lastFor i := by
    intro i
    cases i <;> rfl
  refine h.insertRule hr hcheck (fun i => Nat.le_of_eq (hsame i).symm) ?_
  rw [hsame, hid]
  exact h.numbers o ho

theorem sound_nil (m n : Nat) : (ofRules [] m n).Sound :=
  ⟨.nil, List.forall_mem_nil _, List.forall_mem_nil _, .nil, List.forall_mem_nil _⟩

theorem Sound.remove (h : s.Sound) (hremove : s.remove id = .ok (r, s')) : s'.Sound := by
  obtain ⟨-, rfl⟩ := remove_eq_ok hremove
  refine ⟨h.ascending.filter _, fun x hx => h.records x (List.mem_filter.1 hx).1,
    fun x hx => h.nonempty x (List.mem_filter.1 hx).1, h.bodies.filter _, fun x hx => ?_⟩
  have hx' := h.numbers x (List.mem_filter.1 hx).1
  generalize x.id = i at hx' ⊢
  cases i <;> exact hx'

theorem Sound.setPattern (h : s.Sound) {pattern : Text} (hset : s.setPattern id pattern = .ok s') :
    s'.Sound := by
  obtain ⟨o, ho, hreplace⟩ := setPattern_eq_ok hset
  have hmem := List.mem_of_find?_eq_some ho
  exact h.replace (r := o.withPattern pattern) ((h.records o hmem).withPattern pattern) hmem rfl
    hreplace

theorem Sound.setValue (h : s.Sound) {value : RuleValue} (hset : s.setValue id value = .ok s') :
    s'.Sound := by
  obtain ⟨o, ho, hreplace⟩ := setValue_eq_ok hset
  have hmem := List.mem_of_find?_eq_some ho
  exact h.replace (r := o.withValue value) ((h.records o hmem).withValue value) hmem rfl hreplace

/-- Every change keeps a store sound. -/
theorem Sound.after (h : s.Sound) (c : Change) : (s.after c).Sound := by
  rcases s.after_cases c with hs | ⟨hs, -⟩
  · generalize s.after c = s', s.givenId? c = id? at hs
    cases hs with
    | add hadd => exact h.add hadd
    | remove hremove => exact h.remove hremove
    | setPattern hset => exact h.setPattern hset
    | setValue hset => exact h.setValue hset
    | clear => exact sound_nil _ _
  · rw [hs]
    exact h

/-- Every change keeps the rules distinct. -/
theorem Distinct.after (h : s.Distinct) (c : Change) : (s.after c).Distinct := by
  have hreplace : ∀ {r : Rule} {t : RuleStore}, s.replace r = .ok t → t.Distinct := by
    intro r t ht
    obtain ⟨hcheck, rfl⟩ := replace_eq_ok ht
    exact h.insertRule (check_eq_ok.1 hcheck).2 _ _
  rcases s.after_cases c with hs | ⟨hs, -⟩
  · generalize s.after c = s', s.givenId? c = id? at hs
    cases hs with
    | add hadd =>
        obtain ⟨-, hcheck, rfl⟩ := add_eq_ok hadd
        have hnew := (check_eq_ok.1 hcheck).2
        split
        · exact h.insertRule hnew _ _
        · exact h.insertRule hnew _ _
    | remove hremove =>
        obtain ⟨-, rfl⟩ := remove_eq_ok hremove
        exact ⟨h.ascending.filter _, h.bodies.filter _⟩
    | setPattern hset =>
        obtain ⟨_, -, ht⟩ := setPattern_eq_ok hset
        exact hreplace ht
    | setValue hset =>
        obtain ⟨_, -, ht⟩ := setValue_eq_ok hset
        exact hreplace ht
    | clear => exact (sound_nil _ _).distinct
  · rw [hs]
    exact h

theorem Sound.addAll (h : s.Sound) (records : List Record) : (s.addAll records).1.Sound := by
  rw [fst_addAll]
  exact afterAll_keeps (fun c _ _ hs => hs.after c) h

end RuleStore

namespace Payload

/-- Rules that pass the examination have alternatives, and no two of them say the same. -/
theorem checkRules_eq_ok {earlier rules : List Rule} (h : checkRules earlier rules = .ok ()) :
    (∀ r ∈ rules, r.body.pattern.isEmpty = false) ∧ (∀ o ∈ earlier, ∀ r ∈ rules, o.body ≠ r.body) ∧
      rules.Pairwise fun a b => a.body ≠ b.body := by
  induction rules generalizing earlier with
  | nil => exact ⟨List.forall_mem_nil _, fun _ _ => List.forall_mem_nil _, .nil⟩
  | cons r rules ih =>
      rw [checkRules] at h
      split at h
      · cases h
      rename_i hempty
      split at h
      · cases h
      rename_i hnone
      obtain ⟨hrest, hearlier, hpairs⟩ := ih h
      refine ⟨List.forall_mem_cons.2 ⟨eq_false_of_ne_true hempty, hrest⟩, fun o ho => ?_,
        List.pairwise_cons.2 ⟨fun x hx => hearlier r (by simp) x hx, hpairs⟩⟩
      refine List.forall_mem_cons.2 ⟨by simpa using List.find?_eq_none.1 hnone o ho, fun x hx => ?_⟩
      exact hearlier o (List.mem_append_left _ ho) x hx

/-- The rules of entries are those of records, under the identifiers of the entries. -/
theorem isOfRecord_of_entries {entries : List PayloadEntry} {rules : List Rule}
    (h : List.Forall₂ (fun e r => ruleOfEntry e = .ok r) entries rules) :
    ∀ r ∈ rules, r.IsOfRecord ∧ ∃ e ∈ entries, e.id = r.id := by
  induction h with
  | nil => exact List.forall_mem_nil _
  | cons he _ ih =>
      obtain ⟨kind, -, rfl⟩ := ruleOfEntry_eq_ok he
      refine List.forall_mem_cons.2 ⟨⟨Rule.isOfRecord_ofRecord _ _, _, List.mem_cons_self, rfl⟩, ?_⟩
      intro r hr
      obtain ⟨hrecord, e, he, hid⟩ := ih r hr
      exact ⟨hrecord, e, List.mem_cons_of_mem _ he, hid⟩

theorem numbers_of_checkNumbers {p : Payload} (h : p.checkNumbers = .ok ()) :
    ∀ e ∈ p.entries, 1 ≤ e.id.number ∧ e.id.number ≤ p.lastFor e.id := by
  intro e he
  unfold checkNumbers at h
  dsimp only at h
  split at h
  · cases h
  split at h
  · cases h
  split at h
  · cases h
  · rename_i hnone
    have hnot := List.find?_eq_none.1 hnone e.id (List.mem_map_of_mem he)
    simp only [Bool.or_eq_true, decide_eq_true_eq, not_or, not_lt] at hnot
    exact ⟨Nat.one_le_iff_ne_zero.2 hnot.1, hnot.2⟩

end Payload

namespace RuleStore

/-- A store that is empty, or loaded from records, from a text or from a snapshot. -/
inductive Loaded : RuleStore → Prop
  | empty : Loaded empty
  | ofRecords (records : List Record) : Loaded (ofRecords records).1
  | ofText {t : Text} {s : RuleStore} (h : ofText t = .ok s) : Loaded s
  | ofBytes {b : Bytes} {s : RuleStore} (h : ofBytes b = .ok s) : Loaded s

variable {s : RuleStore}

theorem sound_ofBytes {b : Bytes} (h : RuleStore.ofBytes b = .ok s) : s.Sound := by
  obtain ⟨_, p, -, -, hstore⟩ := ofBytes_eq_ok h
  obtain ⟨hnumbers, rules, hrules, hcheck, rfl⟩ := Payload.toStore_eq_ok hstore
  obtain ⟨hnonempty, -, hbodies⟩ := Payload.checkRules_eq_ok hcheck
  have hentry := Payload.isOfRecord_of_entries hrules
  refine ⟨(indexed_ofBytes h).ascending, fun r hr => (hentry r hr).1, hnonempty, hbodies,
    fun r hr => ?_⟩
  obtain ⟨e, he, hid⟩ := (hentry r hr).2
  have hrange := Payload.numbers_of_checkNumbers hnumbers e he
  rw [hid] at hrange
  generalize r.id = i at hrange ⊢
  cases i <;> exact hrange

theorem Loaded.sound (h : s.Loaded) : s.Sound := by
  cases h with
  | empty => exact sound_nil 0 0
  | ofRecords records => exact (sound_nil 0 0).addAll records
  | ofText h =>
      obtain ⟨records, -, rfl⟩ := ofText_eq_ok h
      exact (sound_nil 0 0).addAll records
  | ofBytes h => exact sound_ofBytes h

theorem Reachable.sound (h : s.Reachable) : s.Sound := by
  induction h with
  | empty => exact Loaded.empty.sound
  | ofRecords records => exact (Loaded.ofRecords records).sound
  | ofText h => exact (Loaded.ofText h).sound
  | ofBytes h => exact (Loaded.ofBytes h).sound
  | add _ h ih => exact ih.add h
  | remove _ h ih => exact ih.remove h
  | setPattern _ h ih => exact ih.setPattern h
  | setValue _ h ih => exact ih.setValue h
  | clear => exact sound_nil _ _

/-- The stores that changes make of a loaded store are well kept. The identifiers that are given out
on the way ascend, those of ordinary and of template rules apart, and what a further change gives
out has never been the identifier of a rule before, be it one that was removed. -/
theorem Loaded.wellKept_of_changes (h : s.Loaded) (changes : List Change) :
    (∀ t ∈ s.stages changes, t.WellKept) ∧
      ((s.givenIds changes).Pairwise fun i j => i.isTemplate = j.isTemplate → i.number < j.number) ∧
      ∀ c id, (s.afterAll changes).givenId? c = some id →
        ∀ t ∈ s.stages changes, ∀ r ∈ t.rules, r.id ≠ id := by
  have hsound : ∀ t ∈ s.stages changes, t.Sound :=
    forall_mem_stages (fun _ c ht => ht.after c) h.sound changes
  refine ⟨fun t ht => (hsound t ht).wellKept, givenIds_ascending s changes, ?_⟩
  rintro c id hgiven t ht r hr rfl
  have hr : r.id.number ≤ (s.afterAll changes).lastFor r.id :=
    ((hsound t ht).numbers r hr).2.trans (lastFor_le_afterAll changes r.id t ht)
  rw [(number_of_givenId? hgiven).1] at hr
  exact Nat.not_succ_le_self _ hr

/-- A rule for a name that has another alternative, with spaces and repetitions around it. -/
def nameRecord : Record :=
  { kind := .equal, pattern := " name,first , name,".toList, value := .literal "Ada".toList,
    scope := some [], threshold := some 3 }

/-- The salutation of a letter. -/
def salutationRecord : Record :=
  { kind := .equal, pattern := "salutation".toList, value := .literal "Dear".toList,
    owner := .template }

/-- A store with a rule of either sort. -/
def salutations : RuleStore := (RuleStore.ofRecords [nameRecord, salutationRecord]).1

/-- Changes some of which fail: the record is there already, and a pattern has no alternatives. -/
def salutationChanges : List Change :=
  [.add nameRecord, .remove (.ordinary 1), .add nameRecord, .setPattern (.ordinary 2) " , ".toList,
   .clear, .add salutationRecord, .add nameRecord]

/-- The two rules that are removed come back under new identifiers. -/
theorem wellKept_of_changes_salutations :
    salutations.Loaded ∧ (∀ t ∈ salutations.stages salutationChanges, t.WellKept) ∧
      salutations.givenIds salutationChanges = [.ordinary 2, .template 2, .ordinary 3] ∧
      ([.ordinary 2, .template 2, .ordinary 3] : List RuleId).Pairwise
        (fun i j => i.isTemplate = j.isTemplate → i.number < j.number) ∧
      (salutations.afterAll salutationChanges).givenId?
        (.add { nameRecord with kind := .superstring }) = some (.ordinary 4) ∧
      ∀ t ∈ salutations.stages salutationChanges, ∀ r ∈ t.rules, r.id ≠ .ordinary 4 := by
  have h : salutations.Loaded := .ofRecords _
  have hgiven : salutations.givenIds salutationChanges =
      [.ordinary 2, .template 2, .ordinary 3] := by
    cbv
  have hnext : (salutations.afterAll salutationChanges).givenId?
      (.add { nameRecord with kind := .superstring }) = some (.ordinary 4) := by
    cbv
  obtain ⟨hkept, hascending, hnew⟩ := h.wellKept_of_changes salutationChanges
  rw [hgiven] at hascending
  exact ⟨h, hkept, hgiven, hascending, hnext, hnew _ _ hnext⟩

end RuleStore

end Fillout
