import Fillout.Proofs.Search.Lockstep
import Fillout.Proofs.Selection.Tiers
import Fillout.Resolve.Engine
import Mathlib.Data.List.Forall2

set_option autoImplicit false

/-! # Answers do not depend on identifiers

If the rules of two stores are the same one by one but for their identifiers, the same rules are
selected for every variable (`select_renumbered`), with the same alternatives. So the searches in
both stores go the same way, and an engine resolves every text to the same answers
(`Engine.resolveFirst_renumbered`, `Engine.resolveBest_renumbered`): identifiers only count for the
order of the rules.
-/

namespace Fillout

/-- The second rule is the first one under an identifier of its own. -/
def Rule.IsRenumbered (r r' : Rule) : Prop := ∃ id, r' = { r with id }

/-- The rules of the second store are those of the first one, in the same order, under identifiers
of their own. -/
def RuleStore.IsRenumbered (s s' : RuleStore) : Prop :=
  List.Forall₂ Rule.IsRenumbered s.rules s'.rules

/-- The second selection is that of the same rule, under an identifier of its own. -/
def Selected.IsRenumbered (m m' : Selected) : Prop :=
  ∃ id, m' = { m with rule := { m.rule with id } }

/-! ## Selecting among renumbered rules -/

section

variable {α : Type} {R : α → α → Prop} {xs ys : List α}

theorem forall₂_filter (h : List.Forall₂ R xs ys) {p : α → Bool} (hp : ∀ x y, R x y → p y = p x) :
    List.Forall₂ R (xs.filter p) (ys.filter p) :=
  List.rel_filter (fun x y hxy => iff_of_eq (congrArg (· = true) (hp x y hxy).symm)) h

theorem forall₂_preferring (h : List.Forall₂ R xs ys) {p : α → Bool}
    (hp : ∀ x y, R x y → p y = p x) : List.Forall₂ R (preferring p xs) (preferring p ys) :=
  List.rel_append (forall₂_filter h hp)
    (forall₂_filter h fun x y hxy => by rw [hp x y hxy])

theorem any_eq_of_forall₂ (h : List.Forall₂ R xs ys) {p : α → Bool}
    (hp : ∀ x y, R x y → p y = p x) : ys.any p = xs.any p := by
  induction h with
  | nil => rfl
  | cons hxy _ ih => rw [List.any_cons, List.any_cons, hp _ _ hxy, ih]

end

variable {s s' : RuleStore} {ctx : Context} {key : Text}

theorem literalIn?_renumbered {rules rules' : List Rule}
    (h : List.Forall₂ Rule.IsRenumbered rules rules') : literalIn? rules' = literalIn? rules := by
  funext kind alternative
  have hcase : List.Forall₂ Rule.IsRenumbered (preferring Rule.isCase rules)
      (preferring Rule.isCase rules') := forall₂_preferring h (by rintro r _ ⟨id, rfl⟩; rfl)
  have hmatching := forall₂_filter hcase
    (p := fun r => r.body.kind = kind && r.body.pattern.contains alternative)
    (by rintro r _ ⟨id, rfl⟩; rfl)
  unfold literalIn?
  rw [← List.head?_filter, ← List.head?_filter]
  generalize (preferring Rule.isCase rules).filter _ = xs,
    (preferring Rule.isCase rules').filter _ = ys at hmatching
  cases hmatching with
  | nil => rfl
  | cons hr _ =>
      obtain ⟨id, rfl⟩ := hr
      rfl

/-- Which alternative matches does not depend on the identifier. -/
theorem matchingAlternative?_renumbered (r : Rule) (id : RuleId)
    (findRule : RuleKind → Text → Option Text) (key : Text) :
    Rule.matchingAlternative? { r with id } findRule key = r.matchingAlternative? findRule key := by
  unfold Rule.matchingAlternative?
  rw [Rule.firstMatchFrom_eq, Rule.firstMatchFrom_eq]
  rfl

theorem matchingRules_renumbered (ctx : Context) (key : Text)
    (hfind : s'.findLiteral? = s.findLiteral?) {rules rules' : List Rule}
    (h : List.Forall₂ Rule.IsRenumbered rules rules') :
    List.Forall₂ Selected.IsRenumbered (matchingRules s ctx key rules)
      (matchingRules s' ctx key rules') := by
  unfold matchingRules
  rw [hfind]
  refine List.rel_filterMap ?_ h
  rintro r _ ⟨id, rfl⟩
  dsimp only
  rw [matchingAlternative?_renumbered r id,
    show Rule.applies { r with id } ctx = r.applies ctx from rfl]
  split
  · cases r.matchingAlternative? s.findLiteral? key with
    | none => exact .none
    | some i => exact .some ⟨id, rfl⟩
  · exact .none

theorem inTiers_renumbered {ms ms' : List Selected}
    (h : List.Forall₂ Selected.IsRenumbered ms ms') :
    List.Forall₂ Selected.IsRenumbered (inTiers ms) (inTiers ms') := by
  have hheader : ∀ m m', Selected.IsRenumbered m m' → m'.isHeader = m.isHeader := by
    rintro m _ ⟨id, rfl⟩
    rfl
  have hscope : ∀ m m', Selected.IsRenumbered m m' → m'.hasScope = m.hasScope := by
    rintro m _ ⟨id, rfl⟩
    rfl
  have hpersonal : ∀ m m', Selected.IsRenumbered m m' → m'.isPersonal = m.isPersonal := by
    rintro m _ ⟨id, rfl⟩
    rfl
  have hcase : ∀ m m', Selected.IsRenumbered m m' → m'.isCase = m.isCase := by
    rintro m _ ⟨id, rfl⟩
    rfl
  unfold inTiers
  rw [any_eq_of_forall₂ h hheader, any_eq_of_forall₂ h hscope]
  split
  · exact forall₂_filter h hheader
  split
  · exact forall₂_preferring (forall₂_filter h hscope) hcase
  · refine List.rel_append (forall₂_filter h hpersonal) (forall₂_preferring ?_ hcase)
    exact forall₂_filter h fun m m' hm => by rw [hpersonal m m' hm]

/-- In renumbered stores the same rules are selected. -/
theorem select_renumbered (hs : s.Indexed) (hs' : s'.Indexed) (h : s.IsRenumbered s') :
    List.Forall₂ Selected.IsRenumbered (select s ctx key) (select s' ctx key) := by
  have hfind : s'.findLiteral? = s.findLiteral? := by
    rw [hs.findLiteral?_eq, hs'.findLiteral?_eq, literalIn?_renumbered h]
  have hdeclaring : List.Forall₂ Rule.IsRenumbered (s.byPattern key) (s'.byPattern key) := by
    rw [hs.byPattern_eq, hs'.byPattern_eq]
    exact forall₂_filter h (by rintro r _ ⟨id, rfl⟩; rfl)
  have hall : List.Forall₂ Rule.IsRenumbered s.inPriorityOrder s'.inPriorityOrder := by
    rw [hs.inPriorityOrder_eq, hs'.inPriorityOrder_eq]
    exact forall₂_preferring h (by rintro r _ ⟨id, rfl⟩; rfl)
  have hhits := matchingRules_renumbered ctx key hfind hdeclaring
  unfold select
  dsimp only
  have hempty : (matchingRules s' ctx key (s'.byPattern key)).isEmpty =
      (matchingRules s ctx key (s.byPattern key)).isEmpty := by
    generalize matchingRules s ctx key _ = xs, matchingRules s' ctx key _ = ys at hhits
    cases hhits <;> rfl
  rw [hempty]
  split
  · exact matchingRules_renumbered ctx key hfind
      (forall₂_filter hall (by rintro r _ ⟨id, rfl⟩; rfl))
  · exact inTiers_renumbered hhits

/-! ## Searching in renumbered stores -/

namespace Query

variable {env : Environment} {top : Text}

theorem rulesAsking_renumbered {ms ms' : List Selected}
    (h : List.Forall₂ Selected.IsRenumbered ms ms') :
    Asking.Agrees (Alike fun _ => none) (rulesAsking ⟨s, env, ctx, top⟩ ms)
      (rulesAsking ⟨s', env, ctx, top⟩ ms') := by
  induction h with
  | nil => exact .done rfl
  | @cons m m' ms ms' hm _ ih =>
      obtain ⟨id, rfl⟩ := hm
      rw [rulesAsking, rulesAsking]
      refine (Asking.Agrees.refl (R := Eq) (fun _ => rfl) _).bind fun value _ hvalue => ?_
      subst hvalue
      refine ih.bind fun rest rest' hrest => .done (Alike.append ?_ hrest)
      cases value <;> rfl

/-- For an entry the same values are offered in renumbered stores. -/
theorem agreesOn_renumbered (hs : s.Indexed) (hs' : s'.Indexed) (h : s.IsRenumbered s')
    (env : Environment) (ctx : Context) (top : Text) (e : Template.Entry) :
    AgreesOn (fun _ => none) ⟨s, env, ctx, top⟩ ⟨s', env, ctx, top⟩ e := by
  cases e with
  | «variable» key =>
      refine (rulesAsking_renumbered (select_renumbered hs hs' h)).bind
        fun values values' hvalues => ?_
      exact .done ((hvalues.append (.refl _)).filter fun t => decide (t ≠ key ∧ t ≠ top))
  | expression text =>
      have hfind : s'.findLiteral? = s.findLiteral? := by
        rw [hs.findLiteral?_eq, hs'.findLiteral?_eq, literalIn?_renumbered h]
      refine .of_eq (congrArg Asking.done ?_)
      unfold expressionValues
      dsimp only
      rw [hfind]

end Query

namespace Engine

/-- Renumbered stores lead to the same final texts. -/
theorem resolveFirst_renumbered (hs : s.Indexed) (hs' : s'.Indexed) (h : s.IsRenumbered s')
    (env : Environment) (ctx : Context) (source : Text) :
    resolveFirst ⟨s', env⟩ ctx source = resolveFirst ⟨s, env⟩ ctx source := by
  have hfirst := Query.first_alike source ctx.maxDepth [] fun _ e _ =>
    Query.agreesOn_renumbered hs hs' h env ctx source e
  exact congrArg (fun r => r.1) hfirst

/-- Renumbered stores lead to the same best texts. -/
theorem resolveBest_renumbered (hs : s.Indexed) (hs' : s'.Indexed) (h : s.IsRenumbered s')
    (env : Environment) (ctx : Context) (source : Text) :
    resolveBest ⟨s', env⟩ ctx source = resolveBest ⟨s, env⟩ ctx source := by
  unfold resolveBest query
  dsimp only
  rw [Query.survey_alike fun e _ => Query.agreesOn_renumbered hs hs' h env ctx source e]

end Engine

end Fillout
