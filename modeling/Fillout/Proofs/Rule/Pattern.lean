import Fillout.Proofs.Template.Entries
import Fillout.Rule.Basic

set_option autoImplicit false

/-! # Patterns and records that are read again

The pattern of a rule is shown as its alternatives with commas between them. Read again, this text
gives the same pattern (`RulePattern.ofText_text`), whatever text the pattern was first read from.
Hence the record of a rule, normalised again, is the body of the rule
(`RuleBody.ofRecord_toRecord`).
-/

namespace Fillout

namespace RulePattern

theorem firstOccurrences_sublist (seen ts : List Text) : (firstOccurrences seen ts).Sublist ts := by
  induction ts generalizing seen with
  | nil => exact .refl []
  | cons t ts ih =>
      rw [firstOccurrences]
      split
      · exact (ih seen).cons t
      · exact (ih (t :: seen)).cons_cons t

/-- A list in which nothing comes again is kept as it is. -/
theorem firstOccurrences_of_nodup {seen ts : List Text} (h : ts.Nodup) (hnew : ∀ t ∈ ts, t ∉ seen) :
    firstOccurrences seen ts = ts := by
  induction ts generalizing seen with
  | nil => rfl
  | cons t ts ih =>
      obtain ⟨ht, hts⟩ := List.nodup_cons.1 h
      obtain ⟨hseen, hrest⟩ := List.forall_mem_cons.1 hnew
      rw [firstOccurrences, if_neg hseen, ih hts]
      intro u hu hmem
      rcases List.mem_cons.1 hmem with rfl | hmem
      · exact ht hu
      · exact hrest u hu hmem

/-- What is kept stands in the order of the first occurrences. -/
theorem firstOccurrences_pairwise (seen ts : List Text) :
    (firstOccurrences seen ts).Pairwise fun a b => ts.idxOf a < ts.idxOf b := by
  induction ts generalizing seen with
  | nil => exact .nil
  | cons t ts ih =>
      -- behind `t`, what is not `t` comes one place later
      have hbehind : ∀ {seen}, t ∈ seen → (firstOccurrences seen ts).Pairwise fun a b =>
          (t :: ts).idxOf a < (t :: ts).idxOf b := by
        intro seen ht
        have hne : ∀ a ∈ firstOccurrences seen ts, t ≠ a := by
          rintro a ha rfl
          exact (mem_firstOccurrences.1 ha).2 ht
        refine (ih seen).imp_of_mem fun ha hb hlt => ?_
        rw [List.idxOf_cons_ne _ (hne _ ha), List.idxOf_cons_ne _ (hne _ hb)]
        exact Nat.succ_lt_succ hlt
      rw [firstOccurrences]
      split
      · exact hbehind ‹_›
      · refine List.pairwise_cons.2 ⟨fun b hb => ?_, hbehind List.mem_cons_self⟩
        have hne : t ≠ b := by
          rintro rfl
          exact (mem_firstOccurrences.1 hb).2 List.mem_cons_self
        rw [List.idxOf_cons_self, List.idxOf_cons_ne _ hne]
        exact Nat.succ_pos _

/-- Different names with commas between them are the alternatives. -/
theorem alternatives_ofText_join {names : List Text}
    (hunmarked : ∀ p ∈ names, Template.IsUnmarked p)
    (hnonblank : ∀ p ∈ names, p.trim ≠ []) (hnodup : (names.map Text.trim).Nodup) :
    (ofText (Text.join ", ".toList names)).alternatives = names.map Text.trim := by
  show firstOccurrences [] (Template.splitEntries _) = _
  rw [Template.splitEntries_join_of_isUnmarked hunmarked, Template.nonblank_of_forall hnonblank]
  exact firstOccurrences_of_nodup hnodup fun _ _ => List.not_mem_nil

/-- Alternatives as they are listed: without white space at their ends, none of them empty, and each
once. -/
structure IsProper (p : RulePattern) : Prop where
  trimmed : Template.AreTrimmed p.alternatives
  nodup : p.alternatives.Nodup

theorem isProper_ofText (source : Text) : (ofText source).IsProper where
  trimmed t ht :=
    Template.areTrimmed_splitEntries source t ((firstOccurrences_sublist [] _).subset ht)
  nodup := nodup_firstOccurrences [] _

/-- A pattern that has been read from a text is read again from the text it is shown as. -/
theorem ofText_text (source : Text) : ofText (ofText source).text = ofText source := by
  have hproper := isProper_ofText source
  have hparts : (ofText source).alternatives ≠ [] →
      Template.AreParts .nothing (ofText source).alternatives := by
    intro hne
    have hsub : (ofText source).alternatives.Sublist (Template.splitEntries source) :=
      firstOccurrences_sublist [] _
    have hentries : Template.splitEntries source ≠ [] := by
      intro hnil
      rw [hnil] at hsub
      exact hne (List.sublist_nil.1 hsub)
    exact (Template.areParts_splitEntries hentries).sublist hsub hne
  have hsplit := Template.splitEntries_join hparts hproper.trimmed
  show (⟨firstOccurrences [] (Template.splitEntries (ofText source).text)⟩ : RulePattern) = _
  rw [show Template.splitEntries (ofText source).text = (ofText source).alternatives from hsplit,
    firstOccurrences_of_nodup hproper.nodup fun _ _ => List.not_mem_nil]

end RulePattern

namespace RuleBody

/-- A threshold is kept only where it has a meaning. -/
theorem kind_of_threshold {record : Record} (h : (ofRecord record).threshold ≠ none) :
    (ofRecord record).kind = .similar := by
  by_contra hk
  exact h (if_neg hk)

/-- An empty scope counts as none. -/
theorem scope_ofRecord_ne (record : Record) : (ofRecord record).scope ≠ some [] := by
  intro h
  have hmem := (Option.filter_eq_some_iff.1 h).2
  cases hmem

/-- What a record says is said again by the record of its rule. -/
theorem ofRecord_toRecord (record : Record) :
    ofRecord (ofRecord record).toRecord = ofRecord record := by
  have hscope : (ofRecord record).scope.filter (fun names => !names.isEmpty) =
      (ofRecord record).scope := by
    show (record.scope.filter _).filter _ = record.scope.filter _
    cases record.scope with
    | none => rfl
    | some names => cases names <;> rfl
  have hthreshold :
      (if (ofRecord record).kind = .similar then (ofRecord record).threshold else none) =
      (ofRecord record).threshold := by
    by_cases hk : record.kind = .similar
    · exact if_pos hk
    · exact (if_neg hk).trans (if_neg hk).symm
  unfold ofRecord at hscope hthreshold ⊢
  unfold toRecord
  dsimp only at hscope hthreshold ⊢
  rw [RulePattern.ofText_text, hscope, hthreshold]

end RuleBody

end Fillout
