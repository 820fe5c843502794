import Fillout.Proofs.Search.Lockstep
import Fillout.Proofs.Selection.Inapplicable
import Fillout.Resolve.Engine
import Mathlib

set_option autoImplicit false

/-! # Answers do not depend on rules that may not be used

What an engine answers in a context does not depend on rules that may not be used there, because
they are for other documents or for other subjects: without them every call gives the same answer,
and `explain` the same rules (`Engine.answers_without`).

The exception are expressions that apply `findRule`, since that operator looks at all rules. So the
theorem speaks of calls in which no expression that is evaluated applies it. Which ones are
evaluated is worked out from the entries that the search consults (`Query.evaluationsFor`); a
`findRule` behind an operand that decides the result does no harm, and nor does one in a rule that
is not tried.
-/

namespace Fillout

namespace Query

/-- The expressions that are evaluated for the values of an entry. -/
def evaluationsFor (q : Query) : Template.Entry → List Evaluation
  | .variable key => selectEvaluations q.store q.ctx key
  | .expression text => [⟨⟨q.ctx.field.getD [], q.store.findLiteral?⟩, text⟩]

variable {s s' : RuleStore} {env : Environment} {ctx : Context} {top : Text}

/-- The values of a variable depend on the store only in which rules are selected. -/
theorem variableAsking_of_select {key : Text} (h : select s' ctx key = select s ctx key) :
    variableAsking ⟨s', env, ctx, top⟩ key = variableAsking ⟨s, env, ctx, top⟩ key := by
  have hrules : ∀ ms, rulesAsking ⟨s', env, ctx, top⟩ ms = rulesAsking ⟨s, env, ctx, top⟩ ms := by
    intro ms
    induction ms with
    | nil => rfl
    | cons m ms ih =>
        rw [rulesAsking, rulesAsking, ih]
        rfl
  unfold variableAsking
  dsimp only
  rw [h, hrules]

/-- Without rules that may not be used the same values are offered for an entry, and the same texts
are asked for. -/
theorem agreesOn_without {keep : Rule → Bool} (hs : s.Indexed) (hs' : s'.Indexed)
    (hrules : s'.rules = s.rules.filter keep)
    (hkeep : ∀ r ∈ s.rules, keep r = false → r.applies ctx = false) {e : Template.Entry}
    (h : ∀ x ∈ evaluationsFor ⟨s, env, ctx, top⟩ e, x.appliesFindRule = false) :
    AgreesOn id ⟨s, env, ctx, top⟩ ⟨s', env, ctx, top⟩ e := by
  refine .of_eq ?_
  cases e with
  | «variable» key => exact variableAsking_of_select (select_without hs hs' hrules hkeep h)
  | expression text =>
      have hvalue := Evaluation.evaluate_congr (h _ List.mem_cons_self)
        ⟨ctx.field.getD [], s'.findLiteral?⟩ rfl
      refine congrArg Asking.done ?_
      unfold expressionValues
      dsimp only
      rw [hvalue]

end Query

namespace Engine

variable (e : Engine) (ctx : Context)

/-- The expressions that are evaluated by `resolveFirst` and by `explain`. -/
def evaluationsOfFirst (source : Text) : List Evaluation :=
  let q := e.query ctx source
  (if Template.isFinal source then []
    else q.consulted [⟨source, ctx.maxDepth⟩] (.start source) []).flatMap q.evaluationsFor

/-- The expressions that are evaluated by `resolveBest`. -/
def evaluationsOfBest (source : Text) : List Evaluation :=
  let q := e.query ctx source
  (q.surveyConsulted [⟨source, ctx.maxDepth⟩] (.start source) []).flatMap q.evaluationsFor

/-- The expressions that are evaluated by `oneStep`. -/
def evaluationsOfStep (source : Text) : List Evaluation :=
  let q := e.query ctx source
  (q.eachConsulted (ctx.maxDepth - 1) (Template.containers source) []).flatMap q.evaluationsFor

/-- The expressions that are evaluated by `candidatesFor`. -/
def evaluationsOfCandidates (key : Text) : List Evaluation :=
  let q := e.query ctx (Template.opener ++ key ++ Template.closer)
  (q.variableConsulted (ctx.maxDepth - 1) key []).flatMap q.evaluationsFor

/-- If rules are removed that may not be used in a context, all answers in this context stay as they
are, as long as no expression that is evaluated on the way applies `findRule`. -/
theorem answers_without (s : RuleStore) (h : s.Reachable) (env : Environment) (ctx : Context)
    (ids : List RuleId) (hids : ∀ id ∈ ids, ∀ r, s.get? id = some r → r.applies ctx = false)
    (source key : Text) :
    ((evaluationsOfFirst ⟨s, env⟩ ctx source).any Evaluation.appliesFindRule = false →
      resolveFirst ⟨s.afterAll (ids.map .remove), env⟩ ctx source =
        resolveFirst ⟨s, env⟩ ctx source ∧
        explain ⟨s.afterAll (ids.map .remove), env⟩ ctx source = explain ⟨s, env⟩ ctx source) ∧
    ((evaluationsOfBest ⟨s, env⟩ ctx source).any Evaluation.appliesFindRule = false →
      resolveBest ⟨s.afterAll (ids.map .remove), env⟩ ctx source =
        resolveBest ⟨s, env⟩ ctx source) ∧
    ((evaluationsOfStep ⟨s, env⟩ ctx source).any Evaluation.appliesFindRule = false →
      oneStep ⟨s.afterAll (ids.map .remove), env⟩ ctx source = oneStep ⟨s, env⟩ ctx source) ∧
    ((evaluationsOfCandidates ⟨s, env⟩ ctx key).any Evaluation.appliesFindRule = false →
      candidatesFor ⟨s.afterAll (ids.map .remove), env⟩ ctx key =
        candidatesFor ⟨s, env⟩ ctx key) := by
  have hs := h.indexed
  have hs' := (h.afterAll (ids.map .remove)).indexed
  have hrules := s.rules_afterAll_remove ids
  have hkeep : ∀ r ∈ s.rules, decide (r.id ∉ ids) = false → r.applies ctx = false := by
    intro r hr hmem
    exact hids r.id (by simpa using hmem) r (RuleStore.find?_id hs.ascending hr)
  generalize s.afterAll (ids.map .remove) = s' at hs' hrules ⊢
  -- What is consulted is the same with both stores if none of its expressions applies `findRule`.
  have hagrees : ∀ {top : Text} {entries : List Template.Entry},
      (entries.flatMap (Query.evaluationsFor ⟨s, env, ctx, top⟩)).any Evaluation.appliesFindRule =
        false → ∀ e ∈ entries, Query.AgreesOn id ⟨s, env, ctx, top⟩ ⟨s', env, ctx, top⟩ e := by
    intro top entries hany e he
    refine Query.agreesOn_without hs hs' hrules hkeep fun x hx => ?_
    exact eq_false_of_ne_true (List.any_eq_false.1 hany x (List.mem_flatMap_of_mem he hx))
  refine ⟨fun hany => ?_, fun hany => ?_, fun hany => ?_, fun hany => ?_⟩
  · have hfirst := Query.first_alike source ctx.maxDepth [] fun hf => by
      unfold evaluationsOfFirst at hany
      dsimp only at hany
      rw [if_neg hf] at hany
      exact hagrees hany
    have hid : ∀ r, Query.relabelResult id r = r := by
      rintro ⟨t, origins, cache⟩
      exact congrArg (fun origins => (t, origins, cache)) (List.map_id origins)
    rw [hid, hid] at hfirst
    unfold resolveFirst explain query
    dsimp only
    rw [hfirst]
    exact ⟨rfl, rfl⟩
  · unfold resolveBest query
    dsimp only
    rw [Query.survey_alike (hagrees hany)]
  · exact (Query.allSteps_alike (hagrees hany)).values
  · exact (Query.variableValues_alike (hagrees hany)).values

/-- A name with a value for letters and one of a header for another subject, a formula with
`findRule` behind one that always holds, and a date that depends on both. -/
def letterNames : RuleStore :=
  (RuleStore.ofRecords
    [{ kind := .equal, pattern := "name".toList, value := .literal "Ada".toList,
       scope := some ["letter".toList] },
     { kind := .equal, pattern := "name".toList, value := .literal "Bob".toList, owner := .header,
       subject := some "bob".toList },
     { kind := .formula, pattern := "any, (findrule equal name)".toList,
       value := .literal "from $\x7bname\x7d$".toList },
     { kind := .date, pattern := "day".toList,
       value := .literal "20240131 $\x7bnote\x7d$".toList }]).1

/-- In a letter the header's rule for another subject may be removed. -/
theorem answers_without_letterNames :
    letterNames.Reachable ∧
      (∀ id ∈ [RuleId.ordinary 2], ∀ r, letterNames.get? id = some r →
        r.applies { document := some "letter".toList } = false) ∧
      (evaluationsOfFirst ⟨letterNames, .empty⟩ { document := some "letter".toList }
        "$\x7bday\x7d$".toList).map Evaluation.text =
          ["any".toList] ∧
      (evaluationsOfFirst ⟨letterNames, .empty⟩ { document := some "letter".toList }
        "$\x7bday\x7d$".toList).any Evaluation.appliesFindRule = false ∧
      explain ⟨letterNames, .empty⟩ { document := some "letter".toList } "$\x7bday\x7d$".toList =
        some ⟨"31.01.2024 from Ada".toList, [.ordinary 4]⟩ ∧
      explain ⟨letterNames.afterAll [.remove (.ordinary 2)], .empty⟩
        { document := some "letter".toList } "$\x7bday\x7d$".toList =
          some ⟨"31.01.2024 from Ada".toList, [.ordinary 4]⟩ := by
  have h : letterNames.Reachable := .ofRecords _
  have hids : ∀ id ∈ [RuleId.ordinary 2], ∀ r, letterNames.get? id = some r →
      r.applies { document := some "letter".toList } = false := by
    intro id hid r hr
    rw [List.mem_singleton.1 hid] at hr
    have hall : (letterNames.get? (.ordinary 2)).all
        (fun r => !r.applies { document := some "letter".toList }) = true := by cbv
    rw [hr] at hall
    simpa using hall
  have htexts : (evaluationsOfFirst ⟨letterNames, .empty⟩ { document := some "letter".toList }
      "$\x7bday\x7d$".toList).map Evaluation.text = ["any".toList] := by cbv
  have hany : (evaluationsOfFirst ⟨letterNames, .empty⟩ { document := some "letter".toList }
      "$\x7bday\x7d$".toList).any Evaluation.appliesFindRule = false := by
    refine List.any_eq_false.2 fun x hx => ?_
    have htext := List.mem_map_of_mem (f := Evaluation.text) hx
    rw [htexts, List.mem_singleton] at htext
    have hparse : Expr.parse "any".toList = .ok (.atom "any".toList) := by with_unfolding_all rfl
    rw [Evaluation.appliesFindRule, htext, hparse]
    exact Bool.false_ne_true
  have hexplain : explain ⟨letterNames, .empty⟩ { document := some "letter".toList }
      "$\x7bday\x7d$".toList = some ⟨"31.01.2024 from Ada".toList, [.ordinary 4]⟩ := by cbv
  have hsame := ((answers_without letterNames h .empty { document := some "letter".toList }
    [.ordinary 2] hids "$\x7bday\x7d$".toList []).1 hany).2
  exact ⟨h, hids, htexts, hany, hexplain, hsame.trans hexplain⟩

end Engine

end Fillout
