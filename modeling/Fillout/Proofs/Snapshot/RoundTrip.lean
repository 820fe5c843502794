import Fillout.Proofs.Snapshot.Frame
import Fillout.Proofs.Snapshot.Payload
import Fillout.Proofs.Store.KeptViews
import Fillout.Proofs.Store.SaveAndLoad
import Mathlib

set_option autoImplicit false

/-! # Snapshots of stores

The snapshot of a store gives back this very store (`LoadedByTags.snapshot_of_changes`): the rules
under their identifiers, with the gaps that removed rules have left, and the numbers given out last.
Nothing that is asked of the two stores, or done to them, can tell them apart, also if the store
that was saved has kept views from earlier questions.

The frame and the bytes of a payload read back for any payload that can be written in full. What is
left is that the payload of a store passes its examination (`Savable.toStore_ofStore`). Every test
in it asks for something that a store keeps anyway: identifiers ascend, their numbers are among
those given out, patterns have alternatives and no two rules say the same. Owners are saved by their
tags, so a profile with the name of another owner is read back as that owner
(`Sound.toStore_ofStore`).
-/

namespace Fillout

/-- The rule with the owner that its tag names. -/
def Rule.readBack (r : Rule) : Rule := .ofBody r.id { r.body with owner := .ofTag r.body.owner.tag }

/-- A rule with an owner that is given by a tag is read back as it is. -/
theorem Rule.IsOfRecord.readBack_eq {r : Rule} (h : r.IsOfRecord) (howner : r.body.owner.IsTagged) :
    r.readBack = r := by
  unfold Rule.readBack
  rw [howner.ofTag_tag]
  exact h.eq_ofBody.symm

namespace Payload

/-! ## The examination -/

theorem ascending_of_pairwise {ids : List RuleId} (h : ids.Pairwise fun i j => i.before j) :
    ascending ids = true := by
  induction ids with
  | nil => rfl
  | cons i ids ih =>
      obtain ⟨hi, hrest⟩ := List.pairwise_cons.1 h
      cases ids with
      | nil => rfl
      | cons j ids =>
          rw [ascending, hi j List.mem_cons_self, ih hrest]
          rfl

/-- Numbers that are in order pass. -/
theorem checkNumbers_eq_ok {p : Payload} (hsize : p.size = p.entries.length)
    (hids : (p.entries.map PayloadEntry.id).Pairwise fun i j => i.before j)
    (hrange : ∀ e ∈ p.entries, 1 ≤ e.id.number ∧ e.id.number ≤ p.lastFor e.id) :
    p.checkNumbers = .ok () := by
  have hfind : (p.entries.map PayloadEntry.id).find?
      (fun i => i.number = 0 || p.lastFor i < i.number) = none := by
    refine List.find?_eq_none.2 fun i hi => ?_
    obtain ⟨e, he, rfl⟩ := List.mem_map.1 hi
    obtain ⟨hone, hlast⟩ := hrange e he
    simp only [Bool.or_eq_true, decide_eq_true_eq, not_or, not_lt]
    exact ⟨Nat.one_le_iff_ne_zero.1 hone, hlast⟩
  unfold checkNumbers
  dsimp only
  rw [if_neg (not_not_intro hsize), ascending_of_pairwise hids, if_neg (by decide), hfind]

/-- Rules that have alternatives, and of which no two say the same, pass. -/
theorem checkRules_of_distinct {earlier rules : List Rule}
    (hnonempty : ∀ r ∈ rules, r.body.pattern.isEmpty = false)
    (hdistinct : (earlier ++ rules).Pairwise fun a b => a.body ≠ b.body) :
    checkRules earlier rules = .ok () := by
  induction rules generalizing earlier with
  | nil => rfl
  | cons r rules ih =>
      obtain ⟨hr, hrest⟩ := List.forall_mem_cons.1 hnonempty
      have hfind : earlier.find? (fun o => o.body = r.body) = none := by
        refine List.find?_eq_none.2 fun o ho => ?_
        simpa using (List.pairwise_append.1 hdistinct).2.2 o ho r List.mem_cons_self
      rw [checkRules, hr, if_neg Bool.false_ne_true, hfind]
      exact ih hrest (by rw [List.append_assoc]; exact hdistinct)

/-- The entry of a rule describes this rule, with the owner that its tag names. -/
theorem ruleOfEntry_entryOfRule {r : Rule} (h : r.IsOfRecord) :
    ruleOfEntry (entryOfRule r) = .ok r.readBack := by
  have hkind : RuleKind.ofName? (entryOfRule r).kind = some r.body.kind :=
    RuleKind.ofName?_name r.body.kind
  have hrecord : Rule.ofRecord r.id { r.body.toRecord with owner := .ofTag r.body.owner.tag } =
      r.readBack :=
    congrArg (fun b : RuleBody => Rule.ofBody r.id { b with owner := .ofTag r.body.owner.tag })
      h.ofRecord_toRecord
  unfold ruleOfEntry
  rw [hkind]
  exact congrArg Except.ok hrecord

theorem mapM_ruleOfEntry {rules : List Rule} (h : ∀ r ∈ rules, r.IsOfRecord) :
    (rules.map entryOfRule).mapM ruleOfEntry = .ok (rules.map Rule.readBack) := by
  induction rules with
  | nil => rfl
  | cons r rules ih =>
      obtain ⟨hr, hrest⟩ := List.forall_mem_cons.1 h
      rw [List.map_cons, List.mapM_cons, ruleOfEntry_entryOfRule hr, ih hrest]
      rfl

end Payload

namespace RuleStore

variable {s : RuleStore}

/-! ## The payload of a store -/

theorem isWritable_ofStore (h : s.Sound) (hlast : ∀ i, s.lastFor i < 2 ^ 64)
    (source : Option Text) : (Payload.ofStore s source).IsWritable where
  lastOrdinary := hlast (.ordinary 0)
  lastTemplate := hlast (.template 0)
  source digest hdigest := by
    obtain ⟨t, -, rfl⟩ := Option.map_eq_some_iff.1 hdigest
    exact Blake3.length_hash _
  size := (List.length_map _).symm
  ids e he := by
    obtain ⟨r, hr, rfl⟩ := List.mem_map.1 he
    exact (h.numbers r hr).2.trans_lt (hlast r.id)

/-- The store with the owners that their tags name. -/
def readBack (s : RuleStore) : RuleStore :=
  ofRules (s.rules.map Rule.readBack) s.lastOrdinary s.lastTemplate

/-- A store with owners that are given by tags is read back as it is. -/
theorem Sound.readBack_eq (h : s.Sound) (hindexed : s.Indexed)
    (howners : ∀ r ∈ s.rules, r.body.owner.IsTagged) : s.readBack = s := by
  have hrules : s.rules.map Rule.readBack = s.rules :=
    (List.map_congr_left fun r hr =>
      (h.records r hr).readBack_eq (howners r hr)).trans s.rules.map_id
  unfold readBack
  rw [hrules]
  exact hindexed.eq_ofRules.symm

/-- The payload of a store describes the store that is read back, unless two rules say the same
then. -/
theorem Sound.toStore_ofStore (h : s.Sound) (source : Option Text) {t : RuleStore} :
    (Payload.ofStore s source).toStore = .ok t ↔
      t = s.readBack ∧ (s.readBack.rules.map Rule.body).Nodup := by
  have hids : ((Payload.ofStore s source).entries.map PayloadEntry.id).Pairwise fun i j =>
      i.before j := by
    unfold Payload.ofStore
    rw [List.map_map]
    exact List.pairwise_map.2 h.ascending
  have hrange : ∀ e ∈ (Payload.ofStore s source).entries,
      1 ≤ e.id.number ∧ e.id.number ≤ (Payload.ofStore s source).lastFor e.id := by
    intro e he
    obtain ⟨r, hr, rfl⟩ := List.mem_map.1 he
    have hnumber := h.numbers r hr
    change 1 ≤ r.id.number ∧ r.id.number ≤ (Payload.ofStore s source).lastFor r.id
    generalize r.id = i at hnumber ⊢
    cases i <;> exact hnumber
  have hnumbers := Payload.checkNumbers_eq_ok (p := Payload.ofStore s source)
    (List.length_map _).symm hids hrange
  have hrules : (Payload.ofStore s source).entries.mapM Payload.ruleOfEntry =
      .ok s.readBack.rules := Payload.mapM_ruleOfEntry h.records
  have hnonempty : ∀ r ∈ s.readBack.rules, r.body.pattern.isEmpty = false :=
    List.forall_mem_map.2 h.nonempty
  have hcheck : Payload.checkRules [] s.readBack.rules = .ok () ↔
      (s.readBack.rules.map Rule.body).Nodup := by
    constructor
    · exact fun hok => List.pairwise_map.2 (Payload.checkRules_eq_ok hok).2.2
    · exact fun hdistinct => Payload.checkRules_of_distinct hnonempty
        (List.pairwise_map.1 hdistinct)
  unfold Payload.toStore
  rw [hnumbers, hrules, ← hcheck]
  dsimp only [bind, Except.bind]
  cases Payload.checkRules [] s.readBack.rules with
  | error flaw => simp
  | ok _ =>
      rw [and_iff_left rfl, Except.ok.injEq]
      exact eq_comm

/-- The payload of a store with owners that are given by tags describes this store. -/
theorem Savable.toStore_ofStore (h : s.Savable) (hindexed : s.Indexed) (source : Option Text) :
    (Payload.ofStore s source).toStore = .ok s := by
  have hread := h.sound.readBack_eq hindexed h.owners
  refine (h.sound.toStore_ofStore source).2 ⟨hread.symm, ?_⟩
  rw [hread]
  exact List.pairwise_map.2 h.sound.bodies

/-- A payload that can be written in full is found again in its snapshot, and examined. -/
theorem ofBytes_frame {p : Payload} (h : p.IsWritable) (hlength : p.write.length < 2 ^ 32) :
    RuleStore.ofBytes (Snapshot.frame p.write) =
      match p.toStore with
      | .error flaw => .error (.invalid flaw)
      | .ok s => .ok s := by
  have hpayload : Snapshot.payloadOf (Snapshot.frame p.write) = .ok p.write := by
    have hframe := Snapshot.payloadOf_frame hlength []
    rw [List.append_nil] at hframe
    exact hframe
  have hread := h.read?_write (by omega)
  cases hstore : p.toStore <;>
    simp only [RuleStore.ofBytes, hpayload, bind, Except.bind, hread, hstore]

/-- If such a payload describes a store, this is the store of the snapshot. -/
theorem ofBytes_frame_of_toStore {p : Payload} (h : p.IsWritable)
    (hlength : p.write.length < 2 ^ 32)
    (hstore : p.toStore = .ok s) : RuleStore.ofBytes (Snapshot.frame p.write) = .ok s := by
  rw [ofBytes_frame h hlength, hstore]

/-- If a store is loaded from records or from a text, all owners being given by tags, and changed in
any way, its snapshot gives back this store, with the same identifiers, the same rules under them
and the same numbers given out last. These numbers have 64 bits, and the header of a snapshot gives
the length of a payload below 2³² bytes. Further questions and changes are answered alike by the
store of the snapshot, which has kept no views yet, and by the store that was saved, whatever views
it has kept. -/
theorem LoadedByTags.snapshot_of_changes (h : s.LoadedByTags) {changes : List Change}
    (hchanges : ∀ c ∈ changes, c.IsTagged) (source : Option Text)
    (hlast : ∀ i, (s.afterAll changes).lastFor i < 2 ^ 64)
    (hlength : (Payload.ofStore (s.afterAll changes) source).write.length < 2 ^ 32) :
    RuleStore.ofBytes ((s.afterAll changes).toBytes source) = .ok (s.afterAll changes) ∧
      ∀ k : KeptViews, k.store = s.afterAll changes → k.Fresh → ∀ requests : List Request,
        answersOf KeptViews.handle { store := s.afterAll changes } requests =
          answersOf KeptViews.handle k requests := by
  have hreachable := h.reachable.afterAll changes
  have hsavable := h.savable.afterAll hchanges
  refine ⟨ofBytes_frame_of_toStore (isWritable_ofStore hsavable.sound hlast source) hlength
    (hsavable.toStore_ofStore hreachable.indexed source), fun k hk hfresh requests => ?_⟩
  have hloaded := (KeptViews.fresh_ofStore (s.afterAll changes)).answersOf_eq hreachable requests
  have hsaved := hfresh.answersOf_eq (by rw [hk]; exact hreachable) requests
  rw [hk] at hsaved
  exact hloaded.trans hsaved.symm

theorem lastFor_quoted (i : RuleId) : (quoted.afterAll quotedChanges).lastFor i < 2 ^ 64 := by
  have hordinary : (quoted.afterAll quotedChanges).lastOrdinary < 2 ^ 64 := by decide +kernel
  have htemplate : (quoted.afterAll quotedChanges).lastTemplate < 2 ^ 64 := by decide +kernel
  cases i
  · exact hordinary
  · exact htemplate

/-- The store with a gap in its identifiers is saved after it has kept its order of priority. -/
theorem snapshot_of_changes_quoted :
    quoted.LoadedByTags ∧ (∀ c ∈ quotedChanges, c.IsTagged) ∧
      (∀ i, (quoted.afterAll quotedChanges).lastFor i < 2 ^ 64) ∧
      (Payload.ofStore (quoted.afterAll quotedChanges) (some "[]".toList)).write.length < 2 ^ 32 ∧
      (quoted.afterAll quotedChanges).rules.map Rule.id =
        [.ordinary 2, .ordinary 3, .ordinary 4, .template 1] ∧
      RuleStore.ofBytes ((quoted.afterAll quotedChanges).toBytes (some "[]".toList)) =
        .ok (quoted.afterAll quotedChanges) ∧
      ∀ requests : List Request,
        answersOf KeptViews.handle { store := quoted.afterAll quotedChanges } requests =
          answersOf KeptViews.handle
            (KeptViews.handle
              { store := quoted.afterAll quotedChanges } .inPriorityOrder).2 requests := by
  have hlast := lastFor_quoted
  have hlength : (Payload.ofStore (quoted.afterAll quotedChanges) (some "[]".toList)).write.length <
      2 ^ 32 := by decide +kernel
  have hids : (quoted.afterAll quotedChanges).rules.map Rule.id =
      [.ordinary 2, .ordinary 3, .ordinary 4, .template 1] := by decide +kernel
  obtain ⟨hload, hanswers⟩ := loadedByTags_quoted.snapshot_of_changes isTagged_quotedChanges
    (some "[]".toList) hlast hlength
  have hindexed := (loadedByTags_quoted.reachable.afterAll quotedChanges).indexed
  have hkept := (KeptViews.fresh_ofStore _).handle hindexed .inPriorityOrder
  exact ⟨loadedByTags_quoted, isTagged_quotedChanges, hlast, hlength, hids, hload,
    hanswers _ hkept.2.1 hkept.2.2⟩

end RuleStore

end Fillout
