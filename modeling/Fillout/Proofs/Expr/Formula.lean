import Fillout.Expr.Eval

set_option autoImplicit false

/-! # Formulas

Expressions are built from any expressions whatever, the leaves, by `or`, `and` and `not`. A result
is a text, the bare truth or nothing, and the empty text is a result that does not count as true.
The three operators look at nothing but whether their operands count as true when they choose among
them, so a tree of them counts as true exactly if it is true as a Boolean formula over its leaves
(`Formula.holds`), and the laws of Boolean algebra hold as far as truth goes.

What is returned is not a truth value, though. `or` returns the value of the first operand that
counts as true and `and` the value of the last one, if all of them do. A law may change which
operand this is, so `(not (not x))` counts as true if `x` does and returns the bare truth where `x`
returns a text.
-/

namespace Fillout

namespace Expr

/-! ## Spellings -/

namespace Operator

/-- A word that names an operator: its English name or another one, in any case. -/
def Spelling (op : Operator) : Type := { word : Text // op.goesBy word.lower = true }

example : or.goesBy (Text.lower "Oder".toList) = true := by decide

/-- No name belongs to two operators. -/
theorem find?_of_mem_names {op : Operator} {t : Text} (h : t ∈ op.name :: op.aliases) :
    all.find? (·.goesBy t) = some op := by
  revert t
  cases op <;> decide

theorem Spelling.ofName? {op : Operator} (w : op.Spelling) : Operator.ofName? w.val = some op := by
  have hname : op.name = w.val.lower ∨ w.val.lower ∈ op.aliases := by
    simpa [goesBy, List.contains_iff_mem] using w.property
  apply find?_of_mem_names
  rcases hname with he | hmem
  · rw [he]
    exact List.mem_cons_self
  · exact List.mem_cons_of_mem _ hmem

end Operator

open Operator (Spelling firstTruthy lastTruthy)

/-! ## What the three operators return -/

theorem isTruthy_eq_false_iff {v : Option Value} :
    isTruthy v = false ↔ v = none ∨ v = some (.text []) := by
  rcases v with _ | (t | _)
  · simp [isTruthy]
  · cases t <;> simp [isTruthy, Value.isTruthy]
  · simp [isTruthy, Value.isTruthy]

variable (s : Scope)

/-- A list with the name of an operator in front is this operator, applied to the values of the
rest. -/
theorem eval_list {op : Operator} (w : op.Spelling) (args : List Expr) :
    (list (atom w.val :: args)).eval s = op.apply s (args.map (eval s)) := by
  rw [eval, w.ofName?, evalAll_eq_map]

theorem firstTruthy_map (args : List Expr) :
    firstTruthy (args.map (eval s)) =
      (args.find? fun e => isTruthy (e.eval s)).bind (eval s) := by
  induction args with
  | nil => rfl
  | cons e args ih =>
      rw [List.map_cons, firstTruthy, ih, List.find?_cons]
      by_cases he : isTruthy (e.eval s) = true
      · simp [he]
      · simp [he]

/-- The value before the operands is returned only if there are none. -/
theorem lastTruthy_map (last : Value) (args : List Expr) :
    lastTruthy last (args.map (eval s)) =
      if args.all (fun e => isTruthy (e.eval s)) then
        args.getLast?.elim (some last) (eval s)
      else none := by
  induction args generalizing last with
  | nil => rfl
  | cons e args ih =>
      rw [List.map_cons, List.all_cons]
      cases he : e.eval s with
      | none => rfl
      | some v =>
          rw [lastTruthy, ih, show isTruthy (some v) = v.isTruthy from rfl]
          by_cases hv : v.isTruthy = true
          · -- the value handed on is returned only if this operand is the last one
            have hlast : args.getLast?.elim (some v) (eval s) =
                (e :: args).getLast?.elim (some last) (eval s) := by
              rw [List.getLast?_cons]
              cases args.getLast? with
              | none => exact he.symm
              | some d => rfl
            rw [if_pos hv, hv, Bool.true_and, hlast]
          · rw [if_neg hv, eq_false_of_ne_true hv]
            rfl

/-- `or` returns the value of the first operand that counts as true, and nothing if there is
none. -/
theorem eval_or (w : Spelling .or) (args : List Expr) :
    (list (atom w.val :: args)).eval s =
      (args.find? fun e => isTruthy (e.eval s)).bind (eval s) :=
  (eval_list s w args).trans (firstTruthy_map s args)

/-- `and` returns the value of its last operand, or the bare truth if it has none, and nothing if an
operand does not count as true. -/
theorem eval_and (w : Spelling .and) (args : List Expr) :
    (list (atom w.val :: args)).eval s =
      if args.all (fun e => isTruthy (e.eval s)) then
        args.getLast?.elim (some .holds) (eval s)
      else none :=
  (eval_list s w args).trans (lastTruthy_map s .holds args)

/-- `not` returns the bare truth, or nothing. -/
theorem eval_not (w : Spelling .not) (e : Expr) :
    (list [atom w.val, e]).eval s = if isTruthy (e.eval s) then none else some .holds := by
  rw [eval_list]
  show Operator.decided (!isTruthy (e.eval s)) (some .holds) = _
  by_cases he : isTruthy (e.eval s) = true <;> simp [Operator.decided, he]

theorem isTruthy_eval_or (w : Spelling .or) (args : List Expr) :
    isTruthy ((list (atom w.val :: args)).eval s) = args.any fun e => isTruthy (e.eval s) := by
  rw [eval_or]
  cases hfind : args.find? (fun e => isTruthy (e.eval s)) with
  | none =>
      symm
      simpa [isTruthy] using List.find?_eq_none.1 hfind
  | some e =>
      have he : isTruthy (e.eval s) = true := by simpa using List.find?_some hfind
      rw [Option.bind_some, he]
      exact (List.any_eq_true.2 ⟨e, List.mem_of_find?_eq_some hfind, he⟩).symm

theorem isTruthy_eval_and (w : Spelling .and) (args : List Expr) :
    isTruthy ((list (atom w.val :: args)).eval s) = args.all fun e => isTruthy (e.eval s) := by
  rw [eval_and]
  by_cases hall : args.all (fun e => isTruthy (e.eval s)) = true
  · rw [if_pos hall, hall]
    cases hlast : args.getLast? with
    | none => rfl
    | some e => exact List.all_eq_true.1 hall e (List.mem_of_getLast? hlast)
  · rw [if_neg hall, eq_false_of_ne_true hall]
    rfl

theorem isTruthy_eval_not (w : Spelling .not) (e : Expr) :
    isTruthy ((list [atom w.val, e]).eval s) = !isTruthy (e.eval s) := by
  rw [eval_not]
  by_cases he : isTruthy (e.eval s) = true
  · rw [if_pos he, he]
    rfl
  · rw [if_neg he, eq_false_of_ne_true he]
    rfl

/-! ## Formulas over leaves -/

/-- A tree of `or`, `and` and `not` over leaves that are any expressions. Each operator stands in a
spelling of its own. -/
inductive Formula
  | leaf (e : Expr)
  | or (word : Spelling .or) (operands : List Formula)
  | and (word : Spelling .and) (operands : List Formula)
  | not (word : Spelling .not) (operand : Formula)

namespace Formula

mutual

/-- The formula as an expression. -/
def toExpr : Formula → Expr
  | leaf e => e
  | or w fs => .list (.atom w.val :: toExprs fs)
  | and w fs => .list (.atom w.val :: toExprs fs)
  | not w f => .list [.atom w.val, toExpr f]

/-- The formulas as expressions. -/
def toExprs : List Formula → List Expr
  | [] => []
  | f :: fs => toExpr f :: toExprs fs

end

mutual

/-- The truth of a formula, given the truth of its leaves. -/
def holds (truth : Expr → Bool) : Formula → Bool
  | leaf e => truth e
  | or _ fs => anyHolds truth fs
  | and _ fs => allHold truth fs
  | not _ f => !holds truth f

/-- Whether one of the formulas is true. -/
def anyHolds (truth : Expr → Bool) : List Formula → Bool
  | [] => false
  | f :: fs => holds truth f || anyHolds truth fs

/-- Whether all of the formulas are true. -/
def allHold (truth : Expr → Bool) : List Formula → Bool
  | [] => true
  | f :: fs => holds truth f && allHold truth fs

end

variable (truth : Expr → Bool)

theorem anyHolds_eq_any (fs : List Formula) : anyHolds truth fs = fs.any (holds truth) := by
  induction fs with
  | nil => rfl
  | cons f fs ih => rw [anyHolds, ih, List.any_cons]

theorem allHold_eq_all (fs : List Formula) : allHold truth fs = fs.all (holds truth) := by
  induction fs with
  | nil => rfl
  | cons f fs ih => rw [allHold, ih, List.all_cons]

@[simp] theorem holds_or (w : Spelling .or) (fs : List Formula) :
    (or w fs).holds truth = fs.any (holds truth) := by
  rw [holds, anyHolds_eq_any]

@[simp] theorem holds_and (w : Spelling .and) (fs : List Formula) :
    (and w fs).holds truth = fs.all (holds truth) := by
  rw [holds, allHold_eq_all]

@[simp] theorem holds_not (w : Spelling .not) (f : Formula) :
    (not w f).holds truth = !f.holds truth := by
  rw [holds]

mutual

/-- A formula counts as true if it holds. -/
theorem isTruthy_eval_toExpr : (f : Formula) →
    isTruthy (f.toExpr.eval s) = f.holds fun e => isTruthy (e.eval s)
  | leaf e => rfl
  | or w fs => by
      rw [toExpr, isTruthy_eval_or, holds, (eval_toExprs fs).1]
  | and w fs => by
      rw [toExpr, isTruthy_eval_and, holds, (eval_toExprs fs).2]
  | not w f => by
      rw [toExpr, isTruthy_eval_not, holds, isTruthy_eval_toExpr f]

/-- The same of the operands: one of them counts as true if one of them holds, and all do if all
hold. -/
theorem eval_toExprs : (fs : List Formula) →
    ((toExprs fs).any fun e => isTruthy (e.eval s)) = anyHolds (fun e => isTruthy (e.eval s)) fs ∧
      ((toExprs fs).all fun e => isTruthy (e.eval s)) = allHold (fun e => isTruthy (e.eval s)) fs
  | [] => ⟨rfl, rfl⟩
  | f :: fs => by
      obtain ⟨hany, hall⟩ := eval_toExprs fs
      rw [toExprs, List.any_cons, List.all_cons, anyHolds, allHold, isTruthy_eval_toExpr f,
        hany, hall]
      exact ⟨rfl, rfl⟩

end

/-! ## The laws of Boolean algebra -/

/-- The two formulas are either both true or both not. -/
def Agree (f g : Formula) : Prop := isTruthy (f.toExpr.eval s) = isTruthy (g.toExpr.eval s)

/-- Formulas that are equal as Boolean formulas count as true alike. -/
theorem agree_of_holds {f g : Formula} (h : ∀ truth, f.holds truth = g.holds truth) :
    Agree s f g := by
  unfold Agree
  rw [isTruthy_eval_toExpr, isTruthy_eval_toExpr, h]

/-- The laws of Boolean algebra that are left when only truth counts. The words that two operators
of one kind stand in may differ. -/
structure IsBoolean : Prop where
  not_not : ∀ n n' f, Agree s (not n (not n' f)) f
  not_and : ∀ n n' a o fs, Agree s (not n (and a fs)) (or o (fs.map (not n')))
  not_or : ∀ n n' o a fs, Agree s (not n (or o fs)) (and a (fs.map (not n')))
  or_assoc : ∀ o o' o'' fs gs hs, Agree s (or o (fs ++ or o' gs :: hs)) (or o'' (fs ++ gs ++ hs))
  and_assoc : ∀ a a' a'' fs gs hs,
    Agree s (and a (fs ++ and a' gs :: hs)) (and a'' (fs ++ gs ++ hs))

variable (n n' : Spelling .not) (o : Spelling .or) (a : Spelling .and) (fs : List Formula)

theorem holds_not_and (truth : Expr → Bool) :
    (not n (and a fs)).holds truth = (or o (fs.map (not n'))).holds truth := by
  calc (not n (and a fs)).holds truth = !fs.all (holds truth) := by rw [holds_not, holds_and]
    _ = fs.any (fun f => !f.holds truth) := List.not_all_eq_any_not
    _ = (or o (fs.map (not n'))).holds truth := by simp [List.any_map, Function.comp_def]

theorem holds_not_or (truth : Expr → Bool) :
    (not n (or o fs)).holds truth = (and a (fs.map (not n'))).holds truth := by
  calc (not n (or o fs)).holds truth = !fs.any (holds truth) := by rw [holds_not, holds_or]
    _ = fs.all (fun f => !f.holds truth) := List.not_any_eq_all_not
    _ = (and a (fs.map (not n'))).holds truth := by simp [List.all_map, Function.comp_def]

theorem isBoolean : IsBoolean s where
  not_not n n' f := agree_of_holds s fun truth => by simp
  not_and n n' a o fs := agree_of_holds s fun truth => holds_not_and n n' o a fs truth
  not_or n n' o a fs := agree_of_holds s fun truth => holds_not_or n n' o a fs truth
  or_assoc o o' o'' fs gs hs := agree_of_holds s fun truth => by simp
  and_assoc a a' a'' fs gs hs := agree_of_holds s fun truth => by simp

end Formula

/-- Whether a tree of `or`, `and` and `not` counts as true is the truth of the Boolean formula over
its leaves, whatever these are; undefined results and the empty text count as false. So the laws of
Boolean algebra hold as far as truth goes. What is returned is the value of the first operand of
`or` that counts as true, the value of the last operand of `and`, or the bare truth if there are
none, and the bare truth for `not`, or nothing. -/
theorem isTruthy_eval_formula (s : Scope) :
    (∀ v, isTruthy v = false ↔ v = none ∨ v = some (.text [])) ∧
    (∀ f : Formula, isTruthy (f.toExpr.eval s) = f.holds fun e => isTruthy (e.eval s)) ∧
    Formula.IsBoolean s ∧
    (∀ (w : Spelling .or) args, (list (atom w.val :: args)).eval s =
      (args.find? fun e => isTruthy (e.eval s)).bind (eval s)) ∧
    (∀ (w : Spelling .and) args, (list (atom w.val :: args)).eval s =
      if args.all (fun e => isTruthy (e.eval s)) then
        args.getLast?.elim (some .holds) (eval s)
      else none) ∧
    (∀ (w : Spelling .not) e, (list [atom w.val, e]).eval s =
      if isTruthy (e.eval s) then none else some .holds) := by
  refine ⟨fun _ => isTruthy_eq_false_iff, Formula.isTruthy_eval_toExpr s, Formula.isBoolean s,
    ?_, ?_, ?_⟩
  · exact eval_or s
  · exact eval_and s
  · exact eval_not s

end Expr

end Fillout
