import Fillout.Proofs.Store.WellKept

set_option autoImplicit false

/-! # Giving a rule its own pattern

A rule shows its pattern as one text. This text may be given to the rule again: whatever text the
pattern was read from at first, it is read again as the same alternatives, and nothing changes in
the rule (`Rule.IsOfRecord.withPattern_text`).

Nor does anything change in the store. The rule that is put into its own place passes the check,
because the check leaves out the rule with the same identifier, and no other rule says the same
(`Reachable.setPattern_text`).
-/

namespace Fillout

/-- A rule of a record that gets the pattern that it shows stays as it is. -/
theorem Rule.IsOfRecord.withPattern_text {r : Rule} (h : r.IsOfRecord) :
    r.withPattern r.body.pattern.text = r := by
  have hpattern : RulePattern.ofText r.body.pattern.text = r.body.pattern := by
    obtain ⟨record, he⟩ := h
    rw [he]
    exact RulePattern.ofText_text record.pattern
  unfold Rule.withPattern
  rw [hpattern]
  exact h.eq_ofBody.symm

namespace RuleStore

variable {s : RuleStore} {r : Rule}

/-- A rule of the list is put into its own place. -/
theorem insertRule_of_mem {rules : List Rule} (h : rules.Pairwise fun a b => a.id.before b.id)
    (hr : r ∈ rules) : insertRule r rules = rules := by
  obtain ⟨before, after, rfl⟩ := List.append_of_mem hr
  have hbefore : ∀ x ∈ before, x.id.before r.id = true := fun x hx =>
    (List.pairwise_append.1 h).2.2 x hx r List.mem_cons_self
  rw [insertRule_append hbefore, insertRule_cons_of_id rfl]

/-- A rule of a sound store passes the check for its own place. -/
theorem Sound.check_of_mem (h : s.Sound) (hr : r ∈ s.rules) : s.check r.id r.body = .ok () :=
  check_eq_ok.2 ⟨h.nonempty r hr, fun _ hx hid hbody =>
    hid (congrArg Rule.id (h.distinct.eq_of_body hx hr hbody))⟩

/-- Putting a rule in its own place leaves the store as it is. -/
theorem Reachable.replace_of_mem (h : s.Reachable) (hr : r ∈ s.rules) : s.replace r = .ok s := by
  unfold RuleStore.replace
  rw [h.sound.check_of_mem hr, insertRule_of_mem h.sound.ascending hr]
  exact congrArg Except.ok h.indexed.eq_ofRules.symm

/-- A rule that is given the pattern that it shows leaves the store as it is. -/
theorem Reachable.setPattern_text (h : s.Reachable) (hr : r ∈ s.rules) :
    s.setPattern r.id r.body.pattern.text = .ok s := by
  unfold RuleStore.setPattern
  rw [h.sound.wellKept.identifiers r hr]
  dsimp only
  rw [(h.sound.records r hr).withPattern_text, h.replace_of_mem hr]

/-- The alternatives of a pattern are the entries of the text that it is read from, trimmed and not
empty, each once and in the order in which they come first; and the text that the pattern is shown
as is read as the same pattern. So a rule of a store may be given the pattern that it shows, and
nothing changes; and the record of the rule of a record says what the rule says, whatever the
identifiers. -/
theorem Reachable.patterns_read_again (h : s.Reachable) (source : Text) (record : Record)
    (i j : RuleId) :
    (let p := RulePattern.ofText source
      let entries := Template.splitEntries source
      RulePattern.ofText p.text = p ∧ (∀ a ∈ p.alternatives, a.trim = a ∧ a ≠ []) ∧
        p.alternatives.Nodup ∧ (∀ a, a ∈ p.alternatives ↔ a ∈ entries) ∧
        p.alternatives.Pairwise fun a b => entries.idxOf a < entries.idxOf b) ∧
      (∀ r ∈ s.rules, s.setPattern r.id r.body.pattern.text = .ok s) ∧
      (Rule.ofRecord j (Rule.ofRecord i record).toRecord).body = (Rule.ofRecord i record).body := by
  have hproper := RulePattern.isProper_ofText source
  have hmem : ∀ a, a ∈ (RulePattern.ofText source).alternatives ↔
      a ∈ Template.splitEntries source := by
    intro a
    rw [RulePattern.ofText, RulePattern.mem_firstOccurrences, and_iff_left List.not_mem_nil]
  exact ⟨⟨RulePattern.ofText_text source, hproper.trimmed, hproper.nodup, hmem,
      RulePattern.firstOccurrences_pairwise [] _⟩,
    fun _ hr => h.setPattern_text hr, RuleBody.ofRecord_toRecord record⟩

/-- A rule with entries that are blank or come again, with parentheses, and with a quotation that is
left open at the end. -/
def untidyRecord : Record :=
  { kind := .regex, pattern := " b , (or x, y), ,b, 'a, b".toList, scope := some [],
    threshold := some 3 }

/-- A store with such a rule, and with another. -/
def untidy : RuleStore := (RuleStore.ofRecords [untidyRecord, nameRecord]).1

/-- The untidy pattern is shown without what does not count, and may be given to its rule again. -/
theorem patterns_read_again_untidy :
    let p := RulePattern.ofText untidyRecord.pattern
    let r := Rule.ofRecord (.ordinary 1) untidyRecord
    untidy.Reachable ∧ p.alternatives = ["b".toList, "(or x, y)".toList, "'a, b".toList] ∧
      RulePattern.ofText "b, (or x, y), 'a, b".toList = p ∧ r ∈ untidy.rules ∧
      untidy.setPattern (.ordinary 1) "b, (or x, y), 'a, b".toList = .ok untidy ∧
      (Rule.ofRecord (.ordinary 7) r.toRecord).body = r.body := by
  intro p r
  have h : untidy.Reachable := .ofRecords _
  have halternatives : p.alternatives = ["b".toList, "(or x, y)".toList, "'a, b".toList] := by
    decide +kernel
  have htext : p.text = "b, (or x, y), 'a, b".toList := by decide +kernel
  have hr : r ∈ untidy.rules := List.mem_of_getElem? (show untidy.rules[0]? = some r by cbv)
  obtain ⟨⟨hagain, -⟩, hset, hrecord⟩ :=
    h.patterns_read_again untidyRecord.pattern untidyRecord (.ordinary 1) (.ordinary 7)
  have hset := hset r hr
  rw [htext] at hagain
  rw [show r.body.pattern.text = _ from htext] at hset
  exact ⟨h, halternatives, hagain, hr, hset, hrecord⟩

end RuleStore

end Fillout
