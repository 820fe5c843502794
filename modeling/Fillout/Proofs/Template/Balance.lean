import Fillout.Proofs.Template.Delimiters

set_option autoImplicit false

/-! # Balanced templates

`isBalanced` counts depths, and `containers` looks for the narrowest span. Up to the first closer of
a text there are only openers to be counted (`isBalancedFrom_append`). In a balanced template the
first closer has openers in front of it, so it ends the first container, and this is what the count
pairs it with (`firstContainer?_of_isBalanced`).

When the first container is replaced by a value without delimiter characters, the count goes on
behind the value as it went on behind the container, with one opener less (`isBalanced_substitute`).
So a balanced template with `n` openers takes exactly `n` values, and no delimiter is left then
(`replaceInTurn?_of_isBalanced`).
-/

namespace Fillout

namespace Template

open Text (cut? Apart)

/-- The openers of a text, counted as `isBalancedFrom` goes through it. -/
def openerCount : Text → Nat
  | '$' :: '{' :: rest => openerCount rest + 1
  | '}' :: '$' :: rest => openerCount rest
  | _ :: rest => openerCount rest
  | [] => 0

/-- A text with its first container replaced, if it has one. -/
def replaceFirst? (source value : Text) : Option Text :=
  (firstContainer? source).map (·.substitute value)

/-- A text with its first container replaced once for each value. -/
def replaceInTurn? (source : Text) (values : List Text) : Option Text :=
  values.foldlM replaceFirst? source

variable {source x w v : Text} {c : Container}

/-! ## Counting up to the first closer -/

theorem isBalancedFrom_cons {c : Char} (hopen : ∀ rest, c = '$' → x = '{' :: rest → False)
    (hclose : ∀ rest, c = '}' → x = '$' :: rest → False) (depth : Nat) :
    isBalancedFrom depth (c :: x) = isBalancedFrom depth x :=
  isBalancedFrom.eq_4 depth c x hopen (fun rest _ => hclose rest) (fun _ rest _ => hclose rest)

section

variable (hx : cut? closer x = none) (hopen : Apart '$' '{' x w) (hclose : Apart '}' '$' x w)

include hx hopen hclose

theorem openerCount_append : openerCount (x ++ w) = openerCount x + openerCount w := by
  fun_induction openerCount x with
  | case1 rest ih =>
    have hrest := (Text.cut?_cons_eq_none (Text.cut?_cons_eq_none hx).2).2
    show openerCount (rest ++ w) + 1 = _
    rw [ih hrest hopen.of_cons.of_cons hclose.of_cons.of_cons, Nat.add_right_comm]
  | case2 => exact absurd rfl (Text.not_pair_of_cut?_eq_none hx _ rfl)
  | case3 c rest ho hc ih =>
    rw [List.cons_append, openerCount.eq_3 c _ (hopen.not_pair ho) (hclose.not_pair hc)]
    exact ih (Text.cut?_cons_eq_none hx).2 hopen.of_cons hclose.of_cons
  | case4 => exact (Nat.zero_add _).symm

theorem isBalancedFrom_append (depth : Nat) :
    isBalancedFrom depth (x ++ w) = isBalancedFrom (depth + openerCount x) w := by
  fun_induction openerCount x generalizing depth with
  | case1 rest ih =>
    have hrest := (Text.cut?_cons_eq_none (Text.cut?_cons_eq_none hx).2).2
    show isBalancedFrom (depth + 1) (rest ++ w) = _
    rw [ih hrest hopen.of_cons.of_cons hclose.of_cons.of_cons, Nat.add_right_comm, Nat.add_assoc]
  | case2 => exact absurd rfl (Text.not_pair_of_cut?_eq_none hx _ rfl)
  | case3 c rest ho hc ih =>
    have hnot := hclose.not_pair hc
    rw [List.cons_append, isBalancedFrom_cons (hopen.not_pair ho) hnot]
    exact ih (Text.cut?_cons_eq_none hx).2 hopen.of_cons hclose.of_cons depth
  | case4 => rfl

end

/-- Without closers, a text balances if nothing is opened. -/
theorem isBalancedFrom_of_cut?_eq_none (hx : cut? closer x = none) (depth : Nat) :
    isBalancedFrom depth x = (depth + openerCount x == 0) := by
  have happend :=
    isBalancedFrom_append (w := []) hx (fun _ h => nomatch h) (fun _ h => nomatch h) depth
  rwa [List.append_nil] at happend

/-- Without closers, openers are counted wherever one stands. -/
theorem openerCount_eq_zero_iff (hx : cut? closer x = none) :
    openerCount x = 0 ↔ cut? opener x = none := by
  fun_induction openerCount x with
  | case1 rest =>
    have hopener : cut? opener ('$' :: '{' :: rest) ≠ none := by simp [cut?, opener]
    exact iff_of_false (Nat.succ_ne_zero _) hopener
  | case2 => exact absurd rfl (Text.not_pair_of_cut?_eq_none hx _ rfl)
  | case3 c rest ho hc ih =>
    rw [ih (Text.cut?_cons_eq_none hx).2, opener, Text.cut?_pair_cons ho, Option.map_eq_none_iff]
  | case4 => exact iff_of_true rfl rfl

theorem openerCount_of_isBody (h : IsBody x) : openerCount x = 0 :=
  (openerCount_eq_zero_iff h.2).2 h.1

section

variable {before after : Text} (h : cut? closer source = some (before, after))

include h

theorem openerCount_of_cut? : openerCount source = openerCount before + openerCount after := by
  have hbefore := Text.cut?_before_eq_none (by decide) h
  rw [← Text.append_of_cut? h, List.append_assoc]
  exact openerCount_append hbefore (apart_closer (by decide)) (apart_closer (by decide))

/-- The first closer closes one of the openers in front of it. -/
theorem isBalancedFrom_of_cut? {depth : Nat} (hs : isBalancedFrom depth source = true) :
    ∃ n, depth + openerCount before = n + 1 ∧ isBalancedFrom n after = true := by
  have hbefore := Text.cut?_before_eq_none (by decide) h
  rw [← Text.append_of_cut? h, List.append_assoc,
    isBalancedFrom_append hbefore (apart_closer (by decide)) (apart_closer (by decide))] at hs
  cases hn : depth + openerCount before with
  | zero =>
      rw [hn] at hs
      cases hs
  | succ n =>
      rw [hn] at hs
      exact ⟨n, rfl, hs⟩

end

/-! ## The first container of a balanced template -/

/-- A balanced template has no delimiters, or its first container ends at the first closer. -/
theorem firstContainer?_of_isBalanced (hs : isBalanced source = true) :
    IsBody source ∨ ∃ c, firstContainer? source = some c ∧
      cut? closer source = some (c.before ++ opener ++ c.body, c.after) := by
  cases hc : cut? closer source with
  | none =>
      rw [isBalanced, isBalancedFrom_of_cut?_eq_none hc, Nat.zero_add, beq_iff_eq] at hs
      exact .inl ⟨(openerCount_eq_zero_iff hc).1 hs, hc⟩
  | some found =>
      obtain ⟨x, rest⟩ := found
      obtain ⟨n, hn, -⟩ := isBalancedFrom_of_cut? hc hs
      have hx := Text.cut?_before_eq_none (by decide) hc
      -- the closer has openers in front of it, so behind the first of them it is the first closer
      cases ho : cut? opener x with
      | none =>
          rw [(openerCount_eq_zero_iff hx).2 ho] at hn
          cases hn
      | some found =>
          obtain ⟨gap, span⟩ := found
          obtain ⟨hopen, hclose⟩ := cuts_of_cut?_closer hc ho
          refine .inr ⟨_, firstContainer?_of_cuts hopen hclose, ?_⟩
          rw [innermost_append, Text.append_of_cut? ho]

/-- The first container of a balanced template is opened once, and nothing is closed before it. -/
theorem openerCount_before (h : cut? closer source = some (c.before ++ opener ++ c.body, c.after))
    (hb : IsBody c.body) :
    cut? closer c.before = none ∧
      openerCount (c.before ++ opener ++ c.body) = openerCount c.before + 1 := by
  have hx := Text.cut?_before_eq_none (by decide) h
  rw [List.append_assoc] at hx ⊢
  have hbefore := Text.cut?_eq_none_of_append_right hx
  refine ⟨hbefore, ?_⟩
  rw [openerCount_append hbefore (apart_opener (by decide)) (Text.apart_of_cut?_eq_none hx)]
  show _ + (openerCount c.body + 1) = _
  rw [openerCount_of_isBody hb]

/-- Replacing the first container of a balanced template leaves it balanced, with one opener
less. -/
theorem isBalanced_substitute (hs : isBalanced source = true)
    (h : cut? closer source = some (c.before ++ opener ++ c.body, c.after)) (hb : IsBody c.body)
    (hv : IsFiller v) :
    isBalanced (c.substitute v) = true ∧ openerCount (c.substitute v) + 1 = openerCount source := by
  obtain ⟨hbefore, hcount⟩ := openerCount_before h hb
  obtain ⟨n, hn, hafter⟩ := isBalancedFrom_of_cut? h hs
  have hopen := hv.apart '$' (.inl rfl) c.before c.after
  have hclose := hv.apart '}' (.inr rfl) c.before c.after
  have hplain := hv.plain
  have hv0 := openerCount_of_isBody hplain.isBody
  have hvopen := hplain.apart (.inl rfl) '{' c.after
  have hvclose := hplain.apart (.inr rfl) '$' c.after
  rw [Container.substitute, List.append_assoc]
  constructor
  · rw [hcount] at hn
    rw [isBalanced, isBalancedFrom_append hbefore hopen hclose,
      isBalancedFrom_append hplain.isBody.2 hvopen hvclose, hv0]
    rwa [show 0 + openerCount c.before + 0 = n by omega]
  · rw [openerCount_append hbefore hopen hclose,
      openerCount_append hplain.isBody.2 hvopen hvclose, hv0, openerCount_of_cut? h, hcount]
    omega

/-! ## Filling in turn -/

/-- A balanced template has no delimiters, or a value can be put in the place of its first
container. -/
theorem replaceFirst?_of_isBalanced (hs : isBalanced source = true) :
    (IsBody source ∧ firstContainer? source = none) ∨
      ∀ v, IsFiller v → ∃ t, replaceFirst? source v = some t ∧ isBalanced t = true ∧
        openerCount t + 1 = openerCount source := by
  rcases firstContainer?_of_isBalanced hs with hbody | ⟨c, hc, hcut⟩
  · refine .inl ⟨hbody, ?_⟩
    unfold firstContainer?
    rw [pieces_of_cut?_opener hbody.1]
    rfl
  · refine .inr fun v hv => ⟨c.substitute v, by rw [replaceFirst?, hc]; rfl, ?_⟩
    exact isBalanced_substitute hs hcut (isBody_of_mem_containers (mem_containers_of_first hc)) hv

/-- A balanced template is final if nothing is opened in it, and then it has no delimiters. -/
theorem isFinal_of_isBalanced (hs : isBalanced source = true) :
    (isFinal source = true ↔ openerCount source = 0) ∧ (isFinal source = true → IsBody source) := by
  rcases replaceFirst?_of_isBalanced hs with ⟨hbody, hnone⟩ | hstep
  · have hfinal : isFinal source = true := by
      rw [isFinal_iff, ← List.head?_eq_none_iff, ← firstContainer?_eq_head?, hnone]
    exact ⟨iff_of_true hfinal (openerCount_of_isBody hbody), fun _ => hbody⟩
  · obtain ⟨t, ht, -, hcount⟩ := hstep ['x'] (by decide)
    have hfinal : ¬ isFinal source = true := by
      rw [isFinal_iff, ← List.head?_eq_none_iff, ← firstContainer?_eq_head?]
      intro hnone
      rw [replaceFirst?, hnone] at ht
      cases ht
    exact ⟨iff_of_false hfinal (by omega), fun h => absurd h hfinal⟩

/-- A balanced template takes as many values as it has openers, whatever they are, and no more. It
stays balanced, it is final as soon as it has taken them all, and then no delimiter is left in
it. -/
theorem replaceInTurn?_of_isBalanced (hs : isBalanced source = true) {values : List Text}
    (hv : ∀ v ∈ values, IsFiller v) :
    ((replaceInTurn? source values).isSome ↔ values.length ≤ openerCount source) ∧
    ∀ t, replaceInTurn? source values = some t →
      isBalanced t = true ∧ openerCount t + values.length = openerCount source ∧
      (isFinal t = true ↔ values.length = openerCount source) ∧ (isFinal t = true → IsBody t) := by
  induction values generalizing source with
  | nil =>
      refine ⟨iff_of_true rfl (Nat.zero_le _), fun t ht => ?_⟩
      cases ht
      have hfinal := isFinal_of_isBalanced hs
      exact ⟨hs, rfl, hfinal.1.trans eq_comm, hfinal.2⟩
  | cons v values ih =>
      obtain ⟨hfirst, hrest⟩ := List.forall_mem_cons.1 hv
      rcases replaceFirst?_of_isBalanced hs with ⟨hbody, hnone⟩ | hstep
      · have hstop : replaceInTurn? source (v :: values) = none := by
          rw [replaceInTurn?, List.foldlM_cons, replaceFirst?, hnone]
          rfl
        rw [hstop, openerCount_of_isBody hbody]
        exact ⟨iff_of_false Bool.false_ne_true (Nat.not_succ_le_zero _), fun t ht => nomatch ht⟩
      · obtain ⟨s, hs', hbalanced, hcount⟩ := hstep v hfirst
        have hturn : replaceInTurn? source (v :: values) = replaceInTurn? s values := by
          rw [replaceInTurn?, List.foldlM_cons, hs']
          rfl
        obtain ⟨hsome, hends⟩ := ih hbalanced hrest
        rw [hturn, hsome, List.length_cons, ← hcount]
        refine ⟨Nat.succ_le_succ_iff.symm, fun t ht => ?_⟩
        obtain ⟨hkept, hleft, hfinal, hbody⟩ := hends t ht
        exact ⟨hkept, by omega, hfinal.trans Nat.succ_inj.symm, hbody⟩

/-- Three openers, one of them around the others, and three values. -/
theorem replaceInTurn?_of_isBalanced_nested :
    let source := "$\x7ba $\x7bb\x7d$$\x7bc\x7d$\x7d$ \x7b$".toList
    let values := ["x".toList, "y z".toList, "ä".toList]
    isBalanced source = true ∧ (∀ v ∈ values, IsFiller v) ∧
      ∃ t, replaceInTurn? source values = some t ∧ isBalanced t = true ∧ isFinal t = true ∧
        IsBody t := by
  intro source values
  have hs : isBalanced source = true := by decide
  have hv : ∀ v ∈ values, IsFiller v := by decide
  have hcount : values.length = openerCount source := by decide
  obtain ⟨hsome, hends⟩ := replaceInTurn?_of_isBalanced hs hv
  obtain ⟨t, ht⟩ := Option.isSome_iff_exists.1 (hsome.2 (Nat.le_of_eq hcount))
  obtain ⟨hbalanced, -, hfinal, hbody⟩ := hends t ht
  exact ⟨hs, hv, t, ht, hbalanced, hfinal.2 hcount, hbody (hfinal.2 hcount)⟩

end Template

end Fillout
