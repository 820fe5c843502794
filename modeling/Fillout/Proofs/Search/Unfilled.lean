import Fillout.Proofs.Search.BestRun
import Fillout.Proofs.Template.Completion
import Mathlib

set_option autoImplicit false

/-! # Unfilled texts that are kept

The search for the best text goes by the score alone, and so it can return a text although it has
met the text with one of its containers filled. Either the value has neither letters nor digits, and
the score is the same; or the container stands in another placeholder, which the value completes,
and the text of this placeholder is not counted any more (`Engine.fillScore_substitute`).
-/

namespace Fillout

namespace Engine

open Template (Container IsFiller Encloses containers fillScore alphanumericCount)

theorem fillScore_le_resolveBest_of_mem (e : Engine) (ctx : Context) {top t : Text}
    (ht : t ∈ (e.query ctx top).produced top ctx.maxDepth) :
    fillScore t ≤ fillScore (e.resolveBest ctx top) := by
  obtain ⟨cache, run⟩ := (e.query ctx top).survey_passes [⟨top, ctx.maxDepth⟩] (.start top) []
  have run : (e.query ctx top).SurveyPasses (.start top ctx.maxDepth) _ := run
  have hleads := run.making.2.2
  calc fillScore t
      ≤ _ := hleads.fillScore_le (List.mem_reverse.1 ht)
    _ = fillScore (e.resolveBest ctx top) := hleads.1

/-- A value in the place of a container adds its letters and digits to the score, unless it gets
into the body of another container. If it has any, the search for the best text does not return the
text without the value when it has met the one with it. Where the value gets into a body, the
letters and digits of the rest of this body are not counted any more, and the text behind its closer
is scored without the dollar sign in front of it. -/
theorem fillScore_substitute (e : Engine) (ctx : Context) (top : Text) {source v : Text}
    {c : Container} (hc : c ∈ containers source) (hv : IsFiller v) :
    ((∀ d ∈ containers (c.substitute v), ∀ l r, ¬ Encloses c v d l r) →
      fillScore (c.substitute v) = fillScore source + alphanumericCount v ∧
        (c.substitute v ∈ (e.query ctx top).produced top ctx.maxDepth →
          e.resolveBest ctx top = source → alphanumericCount v = 0)) ∧
    ∀ d ∈ containers (c.substitute v), ∀ l r, Encloses c v d l r →
      fillScore (c.substitute v) +
          (alphanumericCount l + alphanumericCount r + fillScore ('$' :: d.after)) =
        fillScore source + fillScore d.after := by
  refine ⟨fun hnot => ?_, fun d hd l r h => Template.fillScore_substitute_of_encloses hc hd h⟩
  have hscore := Template.fillScore_substitute_of_not_encloses hc hv hnot
  refine ⟨hscore, fun hmet hbest => ?_⟩
  have hle := e.fillScore_le_resolveBest_of_mem ctx hmet
  rw [hbest, hscore] at hle
  omega

/-- A variable whose value is a dash, and one whose value is a letter. -/
def dashAndLetter : Engine where
  store := (RuleStore.ofRecords
    [{ kind := .equal, pattern := ['a'], value := .literal ['-'] },
     { kind := .equal, pattern := ['b'], value := .literal ['x'] }]).1
  env := .empty

/-- A field for the dash. -/
def dashField : Container := ⟨[], ['a'], []⟩

/-- A field for the letter, in a placeholder with letters of its own. -/
def innerField : Container := ⟨"$\x7ba ".toList, ['b'], " c\x7d$".toList⟩

/-- The placeholder, with the letter filled in. -/
def outerField : Container := ⟨[], "a x c".toList, []⟩

/-- The dash is met, and the field for it is kept; the letter completes the placeholder. -/
theorem fillScore_substitute_dashAndLetter :
    (dashField ∈ containers dashField.source ∧ IsFiller ['-'] ∧
        dashField.substitute ['-'] ∈
          (dashAndLetter.query {} dashField.source).produced dashField.source 100 ∧
        dashAndLetter.resolveBest {} dashField.source = dashField.source ∧
        alphanumericCount ['-'] = 0) ∧
      innerField ∈ containers innerField.source ∧ IsFiller ['x'] ∧
        outerField ∈ containers (innerField.substitute ['x']) ∧
        Encloses innerField ['x'] outerField "a ".toList " c".toList ∧
        fillScore (innerField.substitute ['x']) + 2 = fillScore innerField.source := by
  have hdash : dashField ∈ containers dashField.source := by decide +kernel
  have hinner : innerField ∈ containers innerField.source := by decide +kernel
  have houter : outerField ∈ containers (innerField.substitute ['x']) := by decide +kernel
  have hencloses : Encloses innerField ['x'] outerField "a ".toList " c".toList :=
    ⟨by decide, by decide, by decide⟩
  have hbest : dashAndLetter.resolveBest {} dashField.source = dashField.source := by cbv
  have hmet : dashField.substitute ['-'] ∈
      (dashAndLetter.query {} dashField.source).produced dashField.source 100 := by
    have hproduced : (dashAndLetter.query {} dashField.source).produced dashField.source 100 =
        [dashField.source, ['-']] := by cbv
    rw [hproduced]
    decide
  have hnone : containers (dashField.substitute ['-']) = [] := by decide +kernel
  obtain ⟨-, hkept⟩ := (dashAndLetter.fillScore_substitute {} dashField.source hdash
    (v := ['-']) (by decide)).1 fun d hd => by rw [hnone] at hd; cases hd
  have hcompleted := (dashAndLetter.fillScore_substitute {} innerField.source hinner
    (v := ['x']) (by decide)).2 outerField houter _ _ hencloses
  have hletters : alphanumericCount "a ".toList + alphanumericCount " c".toList +
      fillScore ('$' :: outerField.after) = 2 := by decide +kernel
  have hafter : fillScore outerField.after = 0 := by decide +kernel
  rw [hletters, hafter] at hcompleted
  exact ⟨⟨hdash, by decide, hmet, hbest, hkept hmet hbest⟩, hinner, by decide, houter, hencloses,
    hcompleted⟩

/-- A placeholder in a balanced text stands in another one. With the value for the inner one the
score falls to zero, and the search that has met this text returns the one without the value. -/
theorem resolveBest_innerField :
    Template.isBalanced innerField.source = true ∧
      innerField ∈ containers innerField.source ∧ IsFiller ['x'] ∧
      fillScore (innerField.substitute ['x']) < fillScore innerField.source ∧
      innerField.substitute ['x'] ∈
        (dashAndLetter.query {} innerField.source).produced innerField.source 100 ∧
      dashAndLetter.resolveBest {} innerField.source = innerField.source := by
  refine ⟨by decide, by decide +kernel, by decide, by decide +kernel, ?_, by cbv⟩
  have hproduced : (dashAndLetter.query {} innerField.source).produced innerField.source 100 =
      [innerField.source, innerField.substitute ['x']] := by cbv
  rw [hproduced]
  decide

end Engine

end Fillout
