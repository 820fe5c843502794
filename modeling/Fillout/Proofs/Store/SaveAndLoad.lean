import Fillout.Proofs.Record.RoundTrip
import Fillout.Proofs.Search.Renumbering
import Fillout.Proofs.Selection.Inapplicable
import Fillout.Proofs.Store.WellKept
import Mathlib

set_option autoImplicit false

/-! # Saving and loading

The text of a store, loaded again, gives a store with the same rules in the same order
(`LoadedByTags.reload_of_changes`). Identifiers are given out anew, without the gaps that removed
rules have left, and nothing else depends on them: the store is saved as the same text and resolves
every text to the same answers.

The rules are added one after the other, and each must be accepted and come behind those before it
(`Savable.addAll_bodies`). It is accepted because no two rules of the store say the same and because
the record of a rule is read as the body it was made from. It comes behind the others because the
rules of templates, which are numbered apart, were behind the ordinary ones when they were saved.
-/

namespace Fillout

/-- The owner in a change is given by a tag, if there is one. -/
def Change.IsTagged : Change → Prop
  | .add record => record.owner.IsTagged
  | _ => True

namespace RuleStore

/-- A store that is loaded from records, all owners being given by tags, or from a text. -/
inductive LoadedByTags : RuleStore → Prop
  | ofRecords {records : List Record} (h : ∀ r ∈ records, r.owner.IsTagged) :
      LoadedByTags (ofRecords records).1
  | ofText {t : Text} {s : RuleStore} (h : ofText t = .ok s) : LoadedByTags s

/-- The facts from which it follows that nothing is lost when a store is saved and loaded. -/
structure Savable (s : RuleStore) : Prop where
  sound : s.Sound
  owners : ∀ r ∈ s.rules, r.body.owner.IsTagged
  /-- The rules of templates are numbered apart. -/
  sorts : ∀ r ∈ s.rules, r.id.isTemplate = true ↔ r.body.owner = .template

variable {s t : RuleStore}

theorem Savable.after (h : s.Savable) {c : Change} (hc : c.IsTagged) : (s.after c).Savable := by
  have hrule : ∀ r ∈ (s.after c).rules,
      r.body.owner.IsTagged ∧ (r.id.isTemplate = true ↔ r.body.owner = .template) := by
    intro r hr
    rcases mem_rules_after hr with hr | ⟨record, rfl, rfl⟩ | ⟨o, ho, ⟨_, rfl⟩ | ⟨_, rfl⟩⟩
    · exact ⟨h.owners r hr, h.sorts r hr⟩
    · exact ⟨hc, s.isTemplate_nextId record.owner⟩
    · exact ⟨h.owners o ho, h.sorts o ho⟩
    · exact ⟨h.owners o ho, h.sorts o ho⟩
  exact ⟨h.sound.after c, fun r hr => (hrule r hr).1, fun r hr => (hrule r hr).2⟩

theorem Savable.afterAll (h : s.Savable) {changes : List Change}
    (hchanges : ∀ c ∈ changes, c.IsTagged) :
    (s.afterAll changes).Savable := afterAll_keeps (fun c hc _ hs => hs.after (hchanges c hc)) h

theorem savable_empty : empty.Savable :=
  ⟨sound_nil 0 0, List.forall_mem_nil _, List.forall_mem_nil _⟩

theorem LoadedByTags.savable (h : s.LoadedByTags) : s.Savable := by
  have hrecords : ∀ {records : List Record}, (∀ r ∈ records, r.owner.IsTagged) →
      (RuleStore.ofRecords records).1.Savable := by
    intro records h
    unfold RuleStore.ofRecords
    rw [fst_addAll]
    refine savable_empty.afterAll fun c hc => ?_
    obtain ⟨record, hrecord, rfl⟩ := List.mem_map.1 hc
    exact h record hrecord
  cases h with
  | ofRecords h => exact hrecords h
  | ofText h =>
      obtain ⟨records, hread, rfl⟩ := ofText_eq_ok h
      exact hrecords (Record.isTagged_of_listOfText hread)

theorem LoadedByTags.reachable (h : s.LoadedByTags) : s.Reachable := by
  cases h with
  | ofRecords h => exact .ofRecords _
  | ofText h => exact .ofText h

/-! ## Adding the rules of a store again -/

/-- A new identifier comes behind all others, unless it is ordinary and there are template rules. -/
theorem Savable.before_nextId (h : s.Savable) {owner : Owner}
    (hlast : ∀ r ∈ s.rules, r.body.owner = .template → owner = .template) :
    ∀ r ∈ s.rules, r.id.before (s.nextId owner) = true := by
  intro r hr
  have hnumber := (h.sound.numbers r hr).2
  have hsort := h.sorts r hr
  have hnext := s.isTemplate_nextId owner
  have hlarger := s.number_nextId owner
  have hlast := hlast r hr
  generalize r.id = i, s.nextId owner = j at hnumber hsort hnext hlarger ⊢
  cases i with
  | ordinary m =>
      cases j with
      | ordinary n =>
          have hm : m ≤ s.lastOrdinary := hnumber
          have hn : n = s.lastOrdinary + 1 := hlarger
          exact decide_eq_true (by omega)
      | template n => rfl
  | template m =>
      cases j with
      | ordinary n => exact absurd (hnext.2 (hlast (hsort.1 rfl))) Bool.false_ne_true
      | template n =>
          have hm : m ≤ s.lastTemplate := hnumber
          have hn : n = s.lastTemplate + 1 := hlarger
          exact decide_eq_true (by omega)

/-- A rule that says something new and comes last is accepted, and put last. -/
theorem Savable.add_eq_append (h : s.Savable) {record : Record}
    (hnonempty : (RuleBody.ofRecord record).pattern.isEmpty = false)
    (hnew : ∀ r ∈ s.rules, r.body ≠ .ofRecord record)
    (hlast : ∀ r ∈ s.rules, r.body.owner = .template → record.owner = .template) :
    ∃ id t, s.add record = .ok (id, t) ∧ t.rules = s.rules ++ [.ofRecord id record] := by
  have hinsert := insertRule_eq_append (r := .ofRecord (s.nextId record.owner) record)
    (h.before_nextId hlast)
  obtain ⟨t, hadd⟩ := exists_add_of_check (check_of_new hnonempty hnew)
  obtain ⟨-, -, ht⟩ := add_eq_ok hadd
  refine ⟨_, t, hadd, ?_⟩
  rw [ht]
  split <;> exact hinsert

/-- Bodies that are distinct and in order are all accepted, behind the rules that are there. -/
theorem Savable.addAll_bodies (h : s.Savable) {bodies : List RuleBody}
    (hbodies : ∀ b ∈ bodies, b.pattern.isEmpty = false ∧ b.owner.IsTagged ∧
      RuleBody.ofRecord b.toRecord = b)
    (hdistinct : (s.rules.map Rule.body ++ bodies).Pairwise (· ≠ ·))
    (hsorts : (s.rules.map Rule.body ++ bodies).Pairwise fun a b =>
      a.owner = .template → b.owner = .template) :
    ∃ t, s.addAll (bodies.map RuleBody.toRecord) = (t, []) ∧ t.Savable ∧
      t.rules.map Rule.body = s.rules.map Rule.body ++ bodies := by
  induction bodies generalizing s with
  | nil => exact ⟨s, rfl, h, (List.append_nil _).symm⟩
  | cons b bodies ih =>
      obtain ⟨⟨hnonempty, howner, hrecord⟩, hrest⟩ := List.forall_mem_cons.1 hbodies
      have hnew : ∀ r ∈ s.rules, r.body ≠ .ofRecord b.toRecord := by
        intro r hr
        rw [hrecord]
        exact (List.pairwise_append.1 hdistinct).2.2 _ (List.mem_map_of_mem hr) b List.mem_cons_self
      obtain ⟨id, t, hadd, hrules⟩ := h.add_eq_append (by rw [hrecord]; exact hnonempty) hnew
        fun r hr => (List.pairwise_append.1 hsorts).2.2 _
          (List.mem_map_of_mem hr) b List.mem_cons_self
      have ht : t.Savable := by
        rw [← after_add_of_ok hadd]
        exact h.after (c := .add b.toRecord) howner
      have hmap : t.rules.map Rule.body = s.rules.map Rule.body ++ [b] := by
        rw [hrules, List.map_append]
        exact congrArg (s.rules.map Rule.body ++ [·]) hrecord
      obtain ⟨t', hall, ht', hmap'⟩ := ih ht hrest
        (by rw [hmap, List.append_assoc]; exact hdistinct)
        (by rw [hmap, List.append_assoc]; exact hsorts)
      refine ⟨t', ?_, ht', ?_⟩
      · rw [List.map_cons, addAll, hadd]
        exact hall
      · rw [hmap', hmap, List.append_assoc]
        rfl

/-- The records of a store are loaded again to a store with the same bodies. -/
theorem Savable.ofRecords_records (h : s.Savable) :
    ∃ t, ofRecords s.records = (t, []) ∧ t.Savable ∧
      t.rules.map Rule.body = s.rules.map Rule.body := by
  have hbodies : ∀ b ∈ s.rules.map Rule.body, b.pattern.isEmpty = false ∧ b.owner.IsTagged ∧
      RuleBody.ofRecord b.toRecord = b := by
    intro b hb
    obtain ⟨r, hr, rfl⟩ := List.mem_map.1 hb
    exact ⟨h.sound.nonempty r hr, h.owners r hr, (h.sound.records r hr).ofRecord_toRecord⟩
  have hsorts : (s.rules.map Rule.body).Pairwise fun a b =>
      a.owner = .template → b.owner = .template := by
    refine List.pairwise_map.2 (h.sound.ascending.imp_of_mem fun {a b} ha hb hlt howner => ?_)
    rw [← h.sorts a ha] at howner
    rw [← h.sorts b hb]
    generalize a.id = i, b.id = j at hlt howner ⊢
    cases i with
    | ordinary m => cases howner
    | template m =>
        cases j with
        | ordinary n => exact absurd hlt Bool.false_ne_true
        | template n => rfl
  have hall := savable_empty.addAll_bodies hbodies (List.pairwise_map.2 h.sound.bodies) hsorts
  rw [List.map_map] at hall
  exact hall

/-- Stores with the same bodies are the same but for the identifiers of their rules. -/
theorem isRenumbered_of_bodies (hs : s.Sound) (ht : t.Sound)
    (h : t.rules.map Rule.body = s.rules.map Rule.body) : s.IsRenumbered t := by
  have key : ∀ {rules rules' : List Rule}, (∀ r ∈ rules, r.IsOfRecord) →
      (∀ r ∈ rules', r.IsOfRecord) →
      rules'.map Rule.body = rules.map Rule.body → List.Forall₂ Rule.IsRenumbered rules rules' := by
    intro rules
    induction rules with
    | nil =>
        intro rules' _ _ h
        rw [List.map_eq_nil_iff.1 h]
        exact .nil
    | cons r rules ih =>
        intro rules' hrules hrules' h
        cases rules' with
        | nil => cases h
        | cons r' rules' =>
            obtain ⟨hr, hrest⟩ := List.forall_mem_cons.1 hrules
            obtain ⟨hr', hrest'⟩ := List.forall_mem_cons.1 hrules'
            obtain ⟨hbody, hbodies⟩ := List.cons.inj h
            refine .cons ⟨r'.id, ?_⟩ (ih hrest hrest' hbodies)
            rw [hr'.eq_ofBody, hbody, hr.eq_ofBody]
            rfl
  exact key hs.records ht.records h

/-- If a store is loaded from records or from a text, all owners being given by tags, and changed in
any way, and is then saved and loaded, no record is refused, and the rules are the same in the same
order. So are its records and its text, and it resolves every text to the same answers. -/
theorem LoadedByTags.reload_of_changes (h : s.LoadedByTags) {changes : List Change}
    (hchanges : ∀ c ∈ changes, c.IsTagged) :
    ∃ t, Record.listOfText (s.afterAll changes).toText = .ok (s.afterAll changes).records ∧
      RuleStore.ofRecords (s.afterAll changes).records = (t, []) ∧
      RuleStore.ofText (s.afterAll changes).toText = .ok t ∧
      t.rules.map Rule.body = (s.afterAll changes).rules.map Rule.body ∧
      t.records = (s.afterAll changes).records ∧ t.toText = (s.afterAll changes).toText ∧
      ∀ (env : Environment) (ctx : Context) (source : Text),
        Engine.resolveFirst ⟨t, env⟩ ctx source =
          Engine.resolveFirst ⟨s.afterAll changes, env⟩ ctx source ∧
        Engine.resolveBest ⟨t, env⟩ ctx source =
          Engine.resolveBest ⟨s.afterAll changes, env⟩ ctx source := by
  have hkept := h.savable.afterAll hchanges
  have hindexed := (h.reachable.afterAll changes).indexed
  generalize s.afterAll changes = s at hkept hindexed ⊢
  obtain ⟨t, hload, ht, hbodies⟩ := hkept.ofRecords_records
  have hread : Record.listOfText s.toText = .ok s.records := by
    refine Record.listOfText_listToText fun r hr => ?_
    obtain ⟨rule, hrule, rfl⟩ := List.mem_map.1 hr
    exact hkept.owners rule hrule
  have hrecords : t.records = s.records := by
    have hmap : ∀ s : RuleStore, s.records = (s.rules.map Rule.body).map RuleBody.toRecord :=
      fun s => List.map_map.symm
    rw [hmap, hmap, hbodies]
  have htext : RuleStore.ofText s.toText = .ok t := by
    unfold RuleStore.ofText
    rw [hread]
    dsimp only
    rw [hload]
  have hsame := isRenumbered_of_bodies hkept.sound ht.sound hbodies
  have hindexed' : t.Indexed := by
    have hreachable := Reachable.ofRecords s.records
    rw [hload] at hreachable
    exact hreachable.indexed
  refine ⟨t, hread, hload, htext, hbodies, hrecords, ?_, fun env ctx source => ⟨?_, ?_⟩⟩
  · unfold toText
    rw [hrecords]
  · exact Engine.resolveFirst_renumbered hindexed hindexed' hsame env ctx source
  · exact Engine.resolveBest_renumbered hindexed hindexed' hsame env ctx source

/-- Records with quotation marks, backslashes and control characters in their texts. -/
def quotedRecords : List Record :=
  [{ kind := .equal, pattern := "name".toList, value := .literal "Ada".toList },
   { kind := .similar, pattern := "\"a\",\\".toList,
     value := .literal "one\ttwo\x01\x1f\nthree".toList, scope := some ["\"letter\"".toList],
     threshold := some 18446744073709551615, subject := some "\\".toList },
   { kind := .equal, pattern := "opening".toList, value := .literal "Dear".toList,
     owner := .ofTag "template".toList },
   { kind := .date, pattern := "day".toList, value := .computed "today".toList,
     owner := .ofTag "case".toList }]

/-- The store of these records. -/
def quoted : RuleStore := (RuleStore.ofRecords quotedRecords).1

/-- Changes that leave a gap in the identifiers. -/
def quotedChanges : List Change :=
  [.remove (.ordinary 1), .setValue (.template 1) (.literal "Dear \"$\x7bname\x7d$\"".toList),
   .add { kind := .equal, pattern := "name".toList, value := .literal "Bob".toList }]

theorem loadedByTags_quoted : quoted.LoadedByTags := by
  refine .ofRecords ?_
  unfold quotedRecords
  simp only [List.forall_mem_cons]
  exact ⟨Owner.isTagged_default, Owner.isTagged_default, Owner.isTagged_ofTag _,
    Owner.isTagged_ofTag _, List.forall_mem_nil _⟩

theorem isTagged_quotedChanges : ∀ c ∈ quotedChanges, c.IsTagged := by
  unfold quotedChanges
  simp only [List.forall_mem_cons]
  exact ⟨trivial, trivial, Owner.isTagged_default, List.forall_mem_nil _⟩

/-- The store is saved with the ordinary rules 2, 3 and 4, which are loaded as 1, 2 and 3. -/
theorem reload_of_changes_quoted :
    quoted.LoadedByTags ∧ (∀ c ∈ quotedChanges, c.IsTagged) ∧
      (quoted.afterAll quotedChanges).rules.map Rule.id =
        [.ordinary 2, .ordinary 3, .ordinary 4, .template 1] ∧
      ∃ t, RuleStore.ofText (quoted.afterAll quotedChanges).toText = .ok t ∧
        t.rules.map Rule.id = [.ordinary 1, .ordinary 2, .ordinary 3, .template 1] ∧
        t.toText = (quoted.afterAll quotedChanges).toText := by
  have h := loadedByTags_quoted
  have hchanges := isTagged_quotedChanges
  obtain ⟨hids, hloaded⟩ :
      (quoted.afterAll quotedChanges).rules.map Rule.id =
          [.ordinary 2, .ordinary 3, .ordinary 4, .template 1] ∧
        (RuleStore.ofRecords (quoted.afterAll quotedChanges).records).1.rules.map Rule.id =
          [.ordinary 1, .ordinary 2, .ordinary 3, .template 1] := by cbv
  obtain ⟨t, -, hload, htext, -, -, hsame, -⟩ := h.reload_of_changes hchanges
  rw [hload] at hloaded
  exact ⟨h, hchanges, hids, t, htext, hloaded, hsame⟩

end RuleStore

end Fillout
