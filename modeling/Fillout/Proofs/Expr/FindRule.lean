import Fillout.Expr.Eval

set_option autoImplicit false

/-! # Expressions that apply `findRule`

The operator `findRule` is the only way from an expression to the rules. Whether an evaluation gets
there depends on how far it goes: an operator looks at its operands one after the other, and leaves
the rest alone as soon as its result is decided. `Operator.used` says how many operands it looks at,
and `Operator.apply_congr` that no other operand has a part in its result. So
`Expr.appliesFindRule`, which follows the operands that are looked at, tells the evaluations that
apply `findRule` from those for which the rules do not matter (`Expr.eval_congr`).
-/

namespace Fillout

/-- The elements that are looked at until one of them has a property. -/
def lookedAt {α : Type} (p : α → Bool) : List α → List α
  | [] => []
  | x :: xs => if p x then [x] else x :: lookedAt p xs

namespace Expr

namespace Operator

/-- How many operands an operator looks at until its result is decided. -/
def used (s : Scope) (args : Operands) : Operator → Nat
  | equal => if (args.text? 0).any fun p => s.subject == p then 2 else 1
  | substring => if (args.text? 0).any fun p => Text.contains s.subject p then 2 else 1
  | superstring => if (args.text? 0).any fun p => Text.contains p s.subject then 2 else 1
  | similar =>
      match args.text? 0 with
      | none => 1
      | some p =>
          match (args.text? 1).bind threshold? with
          | none => 2
          | some n => if Text.editDistance p s.subject < n then 3 else 2
  | regex => if ((args.text? 0).bind Regex.compile?).any fun p => p.isMatch s.subject then 2 else 1
  | or => (lookedAt isTruthy args).length
  | and => (lookedAt (fun v => !isTruthy v) args).length
  | not => if args.length = 1 then 1 else 0
  | reformatDate => 1
  | transform => if (args.text? 0).isNone then 1 else if (args.text? 1).isNone then 2 else 3
  | findRule => if (args.text? 0).isNone then 1 else 2

theorem firstTruthy_congr {args args' : Operands} (hlength : args'.length = args.length)
    (h : ∀ i < (lookedAt isTruthy args).length, args'[i]? = args[i]?) :
    firstTruthy args' = firstTruthy args := by
  induction args generalizing args' with
  | nil => rw [List.length_eq_zero_iff.1 hlength]
  | cons v args ih =>
      cases args' with
      | nil => cases hlength
      | cons v' args' =>
          rw [lookedAt] at h
          by_cases hv : isTruthy v = true
          · have h0 := h 0 (by simp [hv])
            cases h0
            rw [firstTruthy, firstTruthy, if_pos hv, if_pos hv]
          · rw [if_neg hv] at h
            have h0 := h 0 (by simp)
            cases h0
            rw [firstTruthy, firstTruthy, if_neg hv, if_neg hv]
            exact ih (Nat.succ.inj hlength) fun i hi => h (i + 1) (by simpa using hi)

theorem lastTruthy_congr {args args' : Operands} (hlength : args'.length = args.length)
    (h : ∀ i < (lookedAt (fun v => !isTruthy v) args).length, args'[i]? = args[i]?) (last : Value) :
    lastTruthy last args' = lastTruthy last args := by
  induction args generalizing args' last with
  | nil => rw [List.length_eq_zero_iff.1 hlength]
  | cons v args ih =>
      cases args' with
      | nil => cases hlength
      | cons v' args' =>
          rw [lookedAt] at h
          have h0 := h 0 (by split <;> simp)
          cases h0
          cases v with
          | none => rfl
          | some v =>
              rw [lastTruthy, lastTruthy]
              by_cases hv : v.isTruthy = true
              · rw [if_neg (by simpa [isTruthy] using hv)] at h
                rw [if_pos hv, if_pos hv]
                exact ih (Nat.succ.inj hlength) (fun i hi => h (i + 1) (by simpa using hi)) v
              · rw [if_neg hv, if_neg hv]

/-- All operators but the connectives look at their first operand. -/
theorem used_pos {op : Operator} (hop : op ∉ [.or, .and, .not]) (s : Scope) (args : Operands) :
    0 < op.used s args := by
  cases op with
  | or | and | not => exact absurd (by decide) hop
  | equal | substring | superstring | similar | regex | reformatDate | transform | findRule =>
      simp only [used]
      repeat' split
      all_goals decide

section

variable {s s' : Scope} {args args' : Operands} {op : Operator}
  (h : ∀ i < op.used s args, args'[i]? = args[i]?)

include h

theorem text?_congr {i : Nat} (hi : i < op.used s args) : args'.text? i = args.text? i := by
  unfold Operands.text?
  rw [h i hi]

/-- A predicate looks at its outcome only if it holds. -/
theorem decided_congr {holds : Bool} {i : Nat} (hi : holds = true → i < op.used s args) :
    decided holds (args'.outcome i) = decided holds (args.outcome i) := by
  cases holds with
  | false => rfl
  | true =>
      unfold Operands.outcome
      rw [h i (hi rfl)]

end

/-! ## Operators with more than one text -/

section

variable {s s' : Scope} {args args' : Operands}

theorem similar_congr (hs : s'.subject = s.subject)
    (h : ∀ i < similar.used s args, args'[i]? = args[i]?) :
    similar.apply s' args' = similar.apply s args := by
  simp only [apply, hs, text?_congr h (used_pos (by decide) s args)]
  cases hp : args.text? 0 with
  | none => rfl
  | some p =>
      have hsecond : 1 < similar.used s args := by
        simp only [used, hp]
        repeat' split
        all_goals decide
      dsimp only [bind, Option.bind]
      rw [text?_congr h hsecond]
      cases ht : args.text? 1 with
      | none => rfl
      | some t =>
          dsimp only
          cases hn : threshold? t with
          | none => rfl
          | some n => exact decided_congr h fun hh => by simp_all [used]

theorem not_congr (hlength : args'.length = args.length)
    (h : ∀ i < Operator.not.used s args, args'[i]? = args[i]?) :
    Operator.not.apply s' args' = Operator.not.apply s args := by
  rcases args with _ | ⟨v, _ | ⟨w, args⟩⟩
  · rw [List.length_eq_zero_iff.1 hlength]
    rfl
  · obtain ⟨v', rfl⟩ := List.length_eq_one_iff.1 hlength
    have h0 := h 0 (by simp [used])
    cases h0
    rfl
  · rcases args' with _ | ⟨v', _ | ⟨w', args'⟩⟩
    · cases hlength
    · cases hlength
    · rfl

theorem transform_congr (h : ∀ i < transform.used s args, args'[i]? = args[i]?) :
    transform.apply s' args' = transform.apply s args := by
  simp only [apply, text?_congr h (used_pos (by decide) s args)]
  cases hp : args.text? 0 with
  | none => rfl
  | some p =>
      have hsecond : 1 < transform.used s args := by
        simp only [used, hp]
        repeat' split
        all_goals simp_all
      dsimp only [bind, Option.bind]
      rw [text?_congr h hsecond]
      cases ht : args.text? 1 with
      | none => rfl
      | some t => rw [text?_congr h (by simp [used, hp, ht])]

end

/-- Except for `findRule`, the result depends on the subject, on how many operands there are, and on
those operands that are looked at. -/
theorem apply_congr {s s' : Scope} {args args' : Operands} {op : Operator} (hop : op ≠ findRule)
    (hs : s'.subject = s.subject) (hlength : args'.length = args.length)
    (h : ∀ i < op.used s args, args'[i]? = args[i]?) : op.apply s' args' = op.apply s args := by
  have hfirst : op ∉ [.or, .and, .not] → args'.text? 0 = args.text? 0 := fun hin =>
    text?_congr h (used_pos hin s args)
  cases op with
  | equal | substring | superstring =>
      simp only [apply, hs, hfirst (by decide)]
      cases hp : args.text? 0 with
      | none => rfl
      | some p => exact decided_congr h fun hh => by simp [used, hp, hh]
  | similar => exact similar_congr hs h
  | regex =>
      simp only [apply, hs, hfirst (by decide)]
      cases hp : args.text? 0 with
      | none => rfl
      | some p =>
          dsimp only [bind, Option.bind]
          cases hc : Regex.compile? p with
          | none => rfl
          | some program => exact decided_congr h fun hh => by simp [used, hp, hc, hh]
  | or => exact firstTruthy_congr hlength h
  | and => exact lastTruthy_congr hlength h _
  | not => exact not_congr hlength h
  | reformatDate => simp only [apply, hfirst (by decide)]
  | transform => exact transform_congr h
  | findRule => exact absurd rfl hop

end Operator

mutual

/-- Whether the evaluation of an expression applies `findRule`. -/
def appliesFindRule (s : Scope) : Expr → Bool
  | atom _ => false
  | list (atom name :: args) =>
      match Operator.ofName? name with
      | some .findRule => true
      | some op => ((appliesEach s args).take (op.used s (evalAll s args))).any id
      | none => false
  | list _ => false

/-- Whether the evaluations of operands apply `findRule`. -/
def appliesEach (s : Scope) : List Expr → List Bool
  | [] => []
  | e :: es => appliesFindRule s e :: appliesEach s es

end

mutual

/-- The rules have no part in the value of an expression whose evaluation does not apply
`findRule`. -/
theorem eval_congr {s s' : Scope} (hs : s'.subject = s.subject) :
    ∀ e : Expr, e.appliesFindRule s = false → e.eval s' = e.eval s
  | atom _, _ => rfl
  | list [], _ => rfl
  | list (list _ :: _), _ => rfl
  | list (atom name :: args), h => by
      rw [eval, eval]
      rw [appliesFindRule] at h
      split at h
      · cases h
      · rename_i op hne hop
        rw [hop]
        have hlength : (evalAll s' args).length = (evalAll s args).length := by
          rw [evalAll_eq_map, evalAll_eq_map, List.length_map, List.length_map]
        refine Operator.apply_congr hne hs hlength fun i hi => evalAll_congr hs args i fun hx => ?_
        have hmem : true ∈ (appliesEach s args).take (op.used s (evalAll s args)) :=
          List.mem_of_getElem? ((List.getElem?_take_of_lt hi).trans hx)
        rw [List.any_eq_false] at h
        exact h true hmem rfl
      · rename_i hop
        rw [hop]

theorem evalAll_congr {s s' : Scope} (hs : s'.subject = s.subject) :
    ∀ (es : List Expr) (i : Nat), (appliesEach s es)[i]? ≠ some true →
      (evalAll s' es)[i]? = (evalAll s es)[i]?
  | [], _, _ => rfl
  | e :: es, 0, h => by
      rw [appliesEach, List.getElem?_cons_zero] at h
      rw [evalAll, evalAll, List.getElem?_cons_zero, List.getElem?_cons_zero,
        eval_congr hs e (eq_false_of_ne_true fun he => h (by rw [he]))]
  | e :: es, i + 1, h => by
      rw [appliesEach, List.getElem?_cons_succ] at h
      rw [evalAll, evalAll, List.getElem?_cons_succ, List.getElem?_cons_succ]
      exact evalAll_congr hs es i h

end

end Expr

/-- The evaluation of the expression that a text writes. -/
structure Evaluation where
  scope : Expr.Scope
  text : Text

namespace Evaluation

/-- Whether `findRule` is applied. A text that is no expression is not evaluated. -/
def appliesFindRule (x : Evaluation) : Bool :=
  match Expr.parse x.text with
  | .ok e => e.appliesFindRule x.scope
  | .error _ => false

/-- The rules have no part in the value of an expression that does not apply `findRule`. -/
theorem evaluate_congr {s : Expr.Scope} {t : Text} (h : appliesFindRule ⟨s, t⟩ = false)
    (s' : Expr.Scope) (hs : s'.subject = s.subject) : Expr.evaluate s' t = Expr.evaluate s t := by
  unfold appliesFindRule at h
  unfold Expr.evaluate
  cases hparse : Expr.parse t with
  | ok e =>
      rw [hparse] at h
      exact Expr.eval_congr hs e h
  | error fault => rfl

end Evaluation

end Fillout
