import Fillout.Proofs.Expr.Nesting
import Mathlib.Data.List.DropRight

set_option autoImplicit false

/-! # Printed expressions are read again

An atom is printed as it stands or between double quotes, without escapes. It is read again if its
characters have no meaning where they stand: no quotation mark in a word, and neither a double quote
nor a backslash in a quotation (`IsPrintableAtom`). An expression of such atoms is parsed as itself
from its printed form, also if some of the closing parentheses at its end are missing
(`parse_print`).

Two things are said of a printed form, both by induction on the expression. The reader comes by it
to the expression on its stack (`comes_print`). The look through it ends as it began, outside
quotations, with as many parentheses open as before (`run_print`). So if `k` of the closing
parentheses at the end are taken away, the look ends with `k` more open (`scan_of_append_closings`),
and these are the ones that `parse` puts back.
-/

namespace Fillout

namespace Expr

open Reader (Turn Ends Comes)

/-! ## Atoms that are read as they are printed -/

/-- An atom that is printed as a word has no quotation marks in it, and one that is printed between
double quotes has neither double quotes nor backslashes in it. -/
def IsPrintableAtom (t : Text) : Prop :=
  if needsQuotes t then '"' ∉ t ∧ '\\' ∉ t else '"' ∉ t ∧ '\'' ∉ t

instance (t : Text) : Decidable (IsPrintableAtom t) := inferInstanceAs (Decidable (ite _ _ _))

/-- All atoms of the expression are read as they are printed. -/
def IsPrintable (e : Expr) : Prop := ∀ t ∈ atoms e, IsPrintableAtom t

instance (e : Expr) : Decidable e.IsPrintable := inferInstanceAs (Decidable (∀ t ∈ atoms e, _))

variable {t rest : Text}

theorem IsPrintable.atom (h : (Expr.atom t).IsPrintable) : IsPrintableAtom t :=
  h t List.mem_cons_self

theorem isPrintable_list {items : List Expr} :
    (Expr.list items).IsPrintable ↔ ∀ t ∈ atomsOfItems items, IsPrintableAtom t := Iff.rfl

/-- No word goes on into the text. -/
def EndsWords (rest : Text) : Prop := ∀ c ∈ rest.head?, endsWord c = true

theorem endsWords_nil : EndsWords [] := fun _ hc => nomatch hc

theorem endsWords_cons {c : Char} (hc : endsWord c = true) (rest : Text) :
    EndsWords (c :: rest) := by
  rintro _ ⟨⟩
  exact hc

/-- A word ends where words end. -/
theorem wordAt_of_endsWords {c : Char} (ht : ∀ d ∈ t, endsWord d = false) (hrest : EndsWords rest) :
    wordAt c (t ++ rest) = (c :: t, rest) := by
  have hword : ∀ d ∈ t, (!endsWord d) = true := fun d hd => by rw [ht d hd]; rfl
  have hstop : rest.takeWhile (fun d => !endsWord d) = [] ∧
      rest.dropWhile (fun d => !endsWord d) = rest := by
    cases rest with
    | nil => exact ⟨rfl, rfl⟩
    | cons d rest =>
        have hd : ¬ (!endsWord d) = true := by rw [hrest d rfl]; decide
        exact ⟨List.takeWhile_cons_of_neg hd, List.dropWhile_cons_of_neg hd⟩
  unfold wordAt
  rw [List.takeWhile_append_of_pos hword, List.dropWhile_append_of_pos hword, hstop.1, hstop.2,
    List.append_nil]

/-- A quotation without escapes ends at the next mark. -/
theorem readQuoted?_append {q : Char} (ht : ∀ c ∈ t, c ≠ q ∧ c ≠ '\\') (rest : Text) :
    readQuoted? q (t ++ q :: rest) = some (t, rest) := by
  induction t with
  | nil => cases rest <;> exact if_pos rfl
  | cons c t ih =>
      obtain ⟨⟨hmark, hescape⟩, ht⟩ := List.forall_mem_cons.1 ht
      obtain ⟨d, r, hr⟩ : ∃ d r, t ++ q :: rest = d :: r := by
        cases t <;> exact ⟨_, _, rfl⟩
      have ih := ih ht
      rw [hr] at ih
      rw [List.cons_append, hr, readQuoted?, if_neg hmark, if_neg hescape, ih]
      rfl

theorem endsWord_of_not_needsQuotes (h : needsQuotes t = false) :
    t ≠ [] ∧ ∀ c ∈ t, endsWord c = false := by
  obtain ⟨hempty, hany⟩ := Bool.or_eq_false_iff.1 h
  refine ⟨fun he => ?_, fun c hc => ?_⟩
  · rw [he] at hempty
    cases hempty
  · exact eq_false_of_ne_true (List.any_eq_false.1 hany c hc)

/-- An atom is read from its printed form. -/
theorem readAtom_atomText (h : IsPrintableAtom t) (hrest : EndsWords rest) :
    ∃ c r, atomText t ++ rest = c :: r ∧ endsWord c = false ∧ readAtom c r = (t, rest) := by
  unfold IsPrintableAtom at h
  unfold atomText
  cases hq : needsQuotes t with
  | true =>
      rw [hq, if_pos rfl] at h
      have hplain : ∀ c ∈ t, c ≠ '"' ∧ c ≠ '\\' :=
        fun c hc => ⟨fun he => h.1 (he ▸ hc), fun he => h.2 (he ▸ hc)⟩
      have hquoted : quotedAt? '"' (t ++ '"' :: rest) = some (t, rest) :=
        quotedAt?_eq_some.2 ⟨.inl rfl, readQuoted?_append hplain rest⟩
      refine ⟨'"', t ++ '"' :: rest, by simp, by decide, ?_⟩
      rw [readAtom_eq, hquoted]
      rfl
  | false =>
      rw [hq, if_neg Bool.false_ne_true] at h
      obtain ⟨hne, hword⟩ := endsWord_of_not_needsQuotes hq
      cases t with
      | nil => exact absurd rfl hne
      | cons c t =>
          obtain ⟨hc, ht⟩ := List.forall_mem_cons.1 hword
          have hmark : ¬ (c = '"' ∨ c = '\'') := by
            rintro (rfl | rfl)
            · exact h.1 List.mem_cons_self
            · exact h.2 List.mem_cons_self
          refine ⟨c, t ++ rest, rfl, hc, ?_⟩
          rw [readAtom_eq, quotedAt?, if_neg hmark]
          exact wordAt_of_endsWords ht hrest

/-! ## Reading -/

mutual

/-- The reader comes by a printed expression to the expression on its stack. -/
theorem comes_print : ∀ (e : Expr), e.IsPrintable → ∀ (items : List Expr) (stack : List (List Expr))
    {rest : Text}, EndsWords rest →
    Comes ⟨items :: stack, print e ++ rest⟩ ⟨(e :: items) :: stack, rest⟩
  | .atom t, h, items, stack, rest, hrest => by
      obtain ⟨c, r, hprint, hc, hread⟩ := readAtom_atomText h.atom hrest
      have hturn : Turn ⟨items :: stack, c :: r⟩ _ := .atom hc
      rw [hread] at hturn
      rw [print, hprint]
      exact .single hturn
  | .list es, h, items, stack, rest, _ => by
      rw [print, List.cons_append, List.append_assoc, List.singleton_append]
      have hitems := comes_printItems es (isPrintable_list.1 h) [] (items :: stack) rest
      rw [List.append_nil] at hitems
      have hclose : Turn ⟨es.reverse :: items :: stack, ')' :: rest⟩ _ := .closing
      rw [List.reverse_reverse] at hclose
      exact .head .opening (hitems.tail hclose)

/-- The reader comes by printed items to the items, the last one first, on its stack. -/
theorem comes_printItems : ∀ (es : List Expr), (∀ t ∈ atomsOfItems es, IsPrintableAtom t) →
    ∀ (items : List Expr) (stack : List (List Expr)) (rest : Text),
    Comes ⟨items :: stack, printItems es ++ ')' :: rest⟩
      ⟨(es.reverse ++ items) :: stack, ')' :: rest⟩
  | [], _, _, _, _ => .refl
  | [e], h, items, stack, rest => by
      have he : e.IsPrintable := (List.forall_mem_append.1 h).1
      exact comes_print e he items stack (endsWords_cons (by decide) rest)
  | e :: e' :: es, h, items, stack, rest => by
      obtain ⟨he, hes⟩ := List.forall_mem_append.1 h
      rw [printItems, List.append_assoc, List.cons_append, List.reverse_cons, List.append_assoc]
      · refine (comes_print e he items stack (endsWords_cons (by decide) _)).trans ?_
        exact .head (.blank (by decide)) (comes_printItems (e' :: es) hes (e :: items) stack rest)
      · exact List.cons_ne_nil _ _

end

/-- A printed expression is read as the expression. -/
theorem read_print {e : Expr} (h : e.IsPrintable) (hrest : EndsWords rest) :
    read [] (print e ++ rest) = some (e, rest) := by
  show Reader.read ⟨[], print e ++ rest⟩ = some (e, rest)
  cases e with
  | atom t =>
      obtain ⟨c, r, hprint, hc, hread⟩ := readAtom_atomText h.atom hrest
      have hend : Ends ⟨[], c :: r⟩ _ _ := .atom hc
      rw [hread] at hend
      rw [print, hprint]
      exact Reader.read_of_ends hend
  | list es =>
      rw [print, List.cons_append, List.append_assoc, List.singleton_append]
      have hitems := comes_printItems es (isPrintable_list.1 h) [] [] rest
      rw [List.append_nil] at hitems
      have hend : Ends ⟨[es.reverse], ')' :: rest⟩ _ rest := .list
      rw [List.reverse_reverse] at hend
      exact Reader.read_eq_some_iff.2 ⟨_, .head .opening hitems, hend⟩

/-! ## Looking -/

namespace Scan

variable {s s' : Scan} {depth deepest : Nat}

theorem run_append (s : Scan) (t u : Text) : s.run (t ++ u) = (s.run t).run u := List.foldl_append

/-- Characters without a meaning outside quotations are passed over. -/
theorem run_outside (h : ∀ c ∈ t, (c ≠ '"' ∧ c ≠ '\'') ∧ endsWord c = false) (depth deepest : Nat) :
    (outside depth deepest).run t = outside depth deepest := by
  induction t with
  | nil => rfl
  | cons c t ih =>
      obtain ⟨⟨⟨hdouble, hsingle⟩, hc⟩, ht⟩ := List.forall_mem_cons.1 h
      obtain ⟨-, hopen, hclose⟩ := endsWord_eq_false.1 hc
      rw [run_cons, step_outside, if_neg (not_or.2 ⟨hdouble, hsingle⟩), if_neg hopen, if_neg hclose,
        ih ht]

theorem run_atomText (h : IsPrintableAtom t) (depth deepest : Nat) :
    (outside depth deepest).run (atomText t) = outside depth deepest := by
  unfold IsPrintableAtom at h
  unfold atomText
  cases hq : needsQuotes t with
  | true =>
      rw [hq, if_pos rfl] at h
      have hplain : ∀ c ∈ t, c ≠ '"' ∧ c ≠ '\\' :=
        fun c hc => ⟨fun he => h.1 (he ▸ hc), fun he => h.2 (he ▸ hc)⟩
      have hquoted : (inside depth deepest '"').run (t ++ ['"']) = outside depth deepest := by
        rw [run_append, run_inside depth deepest hplain]
        have hne : '"' ≠ '\\' := by decide
        exact step_inside_end depth deepest hne
      exact hquoted
  | false =>
      rw [hq, if_neg Bool.false_ne_true] at h
      obtain ⟨-, hword⟩ := endsWord_of_not_needsQuotes hq
      exact run_outside (fun c hc =>
        ⟨⟨fun he => h.1 (he ▸ hc), fun he => h.2 (he ▸ hc)⟩, hword c hc⟩) depth deepest

mutual

/-- The look through a printed expression counts its depth and leaves nothing open. -/
theorem run_print : ∀ (e : Expr), e.IsPrintable → ∀ {depth deepest : Nat}, depth ≤ deepest →
    (outside depth deepest).run (print e) = outside depth (max deepest (depth + e.depth))
  | .atom t, h, depth, deepest, hle => by
      rw [print, run_atomText h.atom, Expr.depth, Nat.add_zero, Nat.max_eq_left hle]
  | .list es, h, depth, deepest, hle => by
      have hitems := run_printItems es (isPrintable_list.1 h) (Nat.le_max_right deepest (depth + 1))
      have hrun : (outside depth deepest).run (print (.list es)) =
          ((outside (depth + 1) (max deepest (depth + 1))).run (printItems es)).step ')' := by
        rw [print, run_cons, run_append]
        rfl
      have hdeepest : max (max deepest (depth + 1)) (depth + 1 + depthOfItems es) =
          max deepest (depth + (Expr.list es).depth) := by
        rw [Expr.depth]
        omega
      rw [hrun, hitems, hdeepest]
      rfl

/-- The look through printed items counts the depth of the deepest. -/
theorem run_printItems : ∀ (es : List Expr), (∀ t ∈ atomsOfItems es, IsPrintableAtom t) →
    ∀ {depth deepest : Nat}, depth ≤ deepest →
    (outside depth deepest).run (printItems es) =
      outside depth (max deepest (depth + depthOfItems es))
  | [], _, depth, deepest, hle => by
      rw [printItems, depthOfItems, Nat.add_zero, Nat.max_eq_left hle]
      rfl
  | [e], h, depth, deepest, hle => by
      rw [printItems, run_print e (List.forall_mem_append.1 h).1 hle, depthOfItems, depthOfItems,
        Nat.max_zero]
  | e :: e' :: es, h, depth, deepest, hle => by
      obtain ⟨he, hes⟩ := List.forall_mem_append.1 h
      have hrun : (outside depth deepest).run (printItems (e :: e' :: es)) =
          (((outside depth deepest).run (print e)).step ' ').run (printItems (e' :: es)) := by
        rw [printItems, run_append]
        · rfl
        · exact List.cons_ne_nil _ _
      have hdeepest : max (max deepest (depth + e.depth)) (depth + depthOfItems (e' :: es)) =
          max deepest (depth + depthOfItems (e :: e' :: es)) := by
        show _ = max deepest (depth + max e.depth (depthOfItems (e' :: es)))
        omega
      rw [hrun, run_print e he hle, step_of_isWhitespace (by decide),
        run_printItems (e' :: es) hes (Nat.le_trans hle (Nat.le_max_left _ _)), hdeepest]

end

/-! ## Closing parentheses at the end -/

/-- A quotation is not opened by a closing parenthesis, and an escape begins in quotations only. -/
def IsSound (s : Scan) : Prop :=
  (s.escaped = true → s.quote ≠ none) ∧ ∀ q, s.quote = some q → q ≠ ')'

theorem IsSound.step (h : s.IsSound) (c : Char) : (s.step c).IsSound := by
  rcases s.cases_of with he | ⟨q, he⟩ | he
  · unfold Scan.step
    rw [if_pos he]
    exact ⟨fun hf => (nomatch hf), h.2⟩
  · have hq : ∀ p, some q = some p → p ≠ ')' := by
      rw [he] at h
      exact h.2
    rw [he, step_inside]
    split
    · exact ⟨fun _ => Option.some_ne_none q, hq⟩
    split
    · exact ⟨fun hf => (nomatch hf), fun p hp => nomatch hp⟩
    · exact ⟨fun hf => (nomatch hf), hq⟩
  · rw [he, step_outside]
    split
    · rename_i hmark
      refine ⟨fun hf => (nomatch hf), ?_⟩
      rintro p ⟨⟩ rfl
      exact absurd hmark (by decide)
    split
    · exact ⟨fun hf => (nomatch hf), fun p hp => nomatch hp⟩
    split <;> exact ⟨fun hf => (nomatch hf), fun p hp => nomatch hp⟩

theorem IsSound.run (h : s.IsSound) (t : Text) : (s.run t).IsSound := by
  induction t generalizing s with
  | nil => exact h
  | cons c t ih => exact ih (h.step c)

theorem isSound_outside (depth deepest : Nat) : (outside depth deepest).IsSound :=
  ⟨fun hf => (nomatch hf), fun _ hq => nomatch hq⟩

/-- What closing parentheses leave outside quotations was outside before them, and each of them has
closed one that was open, if there was one. -/
theorem eq_outside_of_run_closings (h : s.IsSound) {k : Nat}
    (hrun : s.run (List.replicate k ')') = outside depth deepest) :
    s = outside s.depth deepest ∧ depth = s.depth - k := by
  induction k generalizing s with
  | zero =>
    exact ⟨by rw [show s = outside depth deepest from hrun]; rfl, congrArg Scan.depth hrun.symm⟩
  | succ k ih =>
      rw [List.replicate_succ, run_cons] at hrun
      obtain ⟨hstep, hdepth⟩ := ih (h.step ')') hrun
      rcases s.cases_of with he | ⟨q, he⟩ | he
      · -- behind the sign of an escape the quotation is open still
        have hquote : (s.step ')').quote = s.quote := by
          unfold Scan.step
          rw [if_pos he]
        rw [hstep] at hquote
        exact absurd hquote.symm (h.1 he)
      · rw [he] at h
        rw [he, step_inside_other _ _ (Ne.symm (h.2 q rfl)) (by decide)] at hstep
        exact absurd (congrArg Scan.quote hstep) (Option.some_ne_none q)
      · have hclose : s.step ')' = outside (s.depth - 1) s.deepest := by
          rw [he]
          rfl
        rw [hclose] at hstep hdepth
        have hdeepest : s.deepest = deepest := congrArg Scan.deepest hstep
        refine ⟨hdeepest ▸ he, ?_⟩
        rw [hdepth]
        exact Nat.sub_right_comm _ _ _ ▸ Nat.sub_sub _ _ _

/-- The same quotation is open in both states, and in the second one at most `n` parentheses
more. -/
structure OpensUpTo (n : Nat) (s s' : Scan) : Prop where
  quote : s'.quote = s.quote
  escaped : s'.escaped = s.escaped
  depth : s'.depth ≤ s.depth + n

theorem OpensUpTo.step {n : Nat} (h : OpensUpTo n s s') (c : Char) :
    OpensUpTo n (s.step c) (s'.step c) := by
  obtain ⟨hquote, hescaped, hdepth⟩ := h
  unfold Scan.step
  rw [hquote, hescaped]
  split
  · exact ⟨rfl, rfl, hdepth⟩
  split
  · split
    · exact ⟨rfl, rfl, hdepth⟩
    split
    · exact ⟨rfl, rfl, hdepth⟩
    · exact ⟨hquote, hescaped, hdepth⟩
  · split
    · exact ⟨rfl, rfl, hdepth⟩
    split
    · exact ⟨rfl, rfl, by simp only; omega⟩
    split
    · exact ⟨rfl, rfl, by simp only; omega⟩
    · exact ⟨hquote, hescaped, hdepth⟩

theorem OpensUpTo.run {n : Nat} (h : OpensUpTo n s s') (t : Text) :
    OpensUpTo n (s.run t) (s'.run t) := by
  induction t generalizing s s' with
  | nil => exact h
  | cons c t ih => exact ih (h.step c)

end Scan

/-- In front of the last `k` closing parentheses of a printed expression the look is outside
quotations and finds `k` parentheses open. -/
theorem scan_of_append_closings {e : Expr} (h : e.IsPrintable) {k : Nat}
    (hprint : print e = t ++ List.replicate k ')') :
    Scan.of t = Scan.outside k (Scan.of t).deepest := by
  have hbefore : ∀ depth, (Scan.outside depth depth).run t =
      Scan.outside ((Scan.outside depth depth).run t).depth (max depth (depth + e.depth)) ∧
      depth = ((Scan.outside depth depth).run t).depth - k := by
    intro depth
    have hrun := Scan.run_print e h (Nat.le_refl depth)
    rw [hprint, Scan.run_append] at hrun
    exact Scan.eq_outside_of_run_closings ((Scan.isSound_outside depth depth).run t) hrun
  obtain ⟨hstart, hzero⟩ := hbefore 0
  obtain ⟨-, hone⟩ := hbefore 1
  -- the count stops at zero: that it has not stopped, the look that starts with one more open shows
  have hmore : Scan.OpensUpTo 1 (Scan.outside 0 0) (Scan.outside 1 1) := ⟨rfl, rfl, Nat.le_refl 1⟩
  have hle := (hmore.run t).depth
  have hdepth : ((Scan.outside 0 0).run t).depth = k := by omega
  show (Scan.outside 0 0).run t = Scan.outside k ((Scan.outside 0 0).run t).deepest
  rw [hstart]
  rw [hdepth]
  rfl

/-- A printed expression that does not nest too deep is parsed as itself, also without some of the
closing parentheses at its end. -/
theorem parse_print (e : Expr) (hatoms : e.IsPrintable) (hdepth : e.depth ≤ maxNesting) :
    parse (print e) = .ok e ∧
      ∀ m k, List.replicate m ')' <:+ print e → k ≤ m → parse ((print e).rdrop k) = .ok e := by
  have hcut : ∀ {t : Text} {k : Nat}, print e = t ++ List.replicate k ')' → parse t = .ok e := by
    intro t k hprint
    have hscan := scan_of_append_closings hatoms hprint
    have hclosed : closed t = print e := by
      rw [closed, hscan, hprint]
      rfl
    have hdeepest : (Scan.of (print e)).deepest = e.depth := by
      have hrun := Scan.run_print e hatoms (Nat.le_refl 0)
      rw [Nat.zero_max, Nat.zero_add] at hrun
      exact congrArg Scan.deepest hrun
    have hread : read [] (print e) = some (e, []) := by
      have hread := read_print hatoms endsWords_nil
      rwa [List.append_nil] at hread
    refine parse_eq_ok.2 ⟨?_, hclosed ▸ readWhole?_eq_some.2 ⟨[], hread, List.forall_mem_nil _⟩⟩
    rw [← deepest_of_closed, hclosed, hdeepest]
    exact hdepth
  refine ⟨hcut (k := 0) (List.append_nil _).symm, ?_⟩
  rintro m k ⟨t, ht⟩ hle
  have hlast : print e = (t ++ List.replicate (m - k) ')') ++ List.replicate k ')' := by
    rw [List.append_assoc, List.replicate_append_replicate, Nat.sub_add_cancel hle, ht]
  have hrdrop : (print e).rdrop k = t ++ List.replicate (m - k) ')' := by
    rw [hlast, List.rdrop, List.length_append, List.length_replicate, Nat.add_sub_cancel]
    exact List.take_left
  exact hrdrop ▸ hcut hlast

/-- Lists in one another, atoms that need quotation marks, and both parentheses at the end
missing. -/
theorem parse_print_or :
    let e : Expr := .list [.atom "or".toList, .atom "b) 'c'".toList, .atom [],
      .list [.atom "not".toList, .atom "d\\".toList]]
    e.IsPrintable ∧ e.depth ≤ maxNesting ∧ print e = "(or \"b) 'c'\" \"\" (not d\\))".toList ∧
      parse "(or \"b) 'c'\" \"\" (not d\\))".toList = .ok e ∧
      parse "(or \"b) 'c'\" \"\" (not d\\".toList = .ok e := by
  intro e
  have hprintable : e.IsPrintable := by decide +kernel
  have hdepth : e.depth ≤ maxNesting := by decide
  have hprint : print e = "(or \"b) 'c'\" \"\" (not d\\))".toList := by decide +kernel
  have hlast : List.replicate 2 ')' <:+ print e :=
    ⟨"(or \"b) 'c'\" \"\" (not d\\".toList, hprint ▸ rfl⟩
  obtain ⟨hwhole, hcut⟩ := parse_print e hprintable hdepth
  have hcut := hcut 2 2 hlast (Nat.le_refl 2)
  rw [hprint] at hwhole hcut
  exact ⟨hprintable, hdepth, hprint, hwhole, hcut⟩

end Expr

end Fillout
