import Fillout.Template

set_option autoImplicit false

/-! # Text in front of containers

A text is inert if no opener stands in it and none can begin at its end. Inert text can be put in
front of a template, taken away or exchanged: the containers are the same, but for what stands
before them (`firstContainer?_append`), and the whole is final if the template is
(`isFinal_append`).

Text with an opener is not inert. The closer of this opener may stand behind a container, and when
the container has been filled, what stands between the two is the body of a container itself.
-/

namespace Fillout

namespace Text

/-- If a needle is first found behind a text, it is found at the same place without this text. -/
theorem cut?_of_append {needle x t before after : Text}
    (h : cut? needle (x ++ t) = some (x ++ before, after)) :
    cut? needle t = some (before, after) := by
  induction x with
  | nil => exact h
  | cons c x ih =>
      rw [List.cons_append, cut?] at h
      split at h
      · cases h
      · obtain ⟨⟨b, a⟩, hcut, heq⟩ := Option.map_eq_some_iff.1 h
        cases heq
        exact ih hcut

/-- What is found in a text is found at the same place if the text goes on. -/
theorem cut?_append_right {needle t before after : Text} (h : cut? needle t = some (before, after))
    (x : Text) : cut? needle (t ++ x) = some (before, after ++ x) := by
  induction t generalizing before with
  | nil =>
      cases needle with
      | nil =>
          cases h
          cases x <;> rfl
      | cons d needle => cases h
  | cons c t ih =>
      rw [cut?] at h
      rw [List.cons_append, cut?, ← List.cons_append]
      split at h
      · rename_i hpre
        cases h
        have hstart := List.isPrefixOf_iff_prefix.1 hpre
        rw [if_pos (List.isPrefixOf_iff_prefix.2 (hstart.trans (List.prefix_append _ x))),
          List.drop_append_of_le_length hstart.length_le]
      · rename_i hpre
        obtain ⟨⟨b, a⟩, hcut, he⟩ := Option.map_eq_some_iff.1 h
        cases he
        -- the needle stands in the text behind `c`, so it is too short to go on into `x`
        have hlength : needle.length ≤ (c :: t).length := by
          rw [← append_of_cut? hcut]
          simp only [List.length_cons, List.length_append]
          omega
        have hnot : ¬ needle.isPrefixOf (c :: t ++ x) = true := fun hlong =>
          hpre (List.isPrefixOf_iff_prefix.2 (List.prefix_of_prefix_length_le
            (List.isPrefixOf_iff_prefix.1 hlong) (List.prefix_append _ x) hlength))
        rw [if_neg hnot, ih hcut]
        rfl

end Text

namespace Template

/-- A text without an opener, at whose end no opener begins. -/
def IsInert (x : Text) : Prop := Text.cut? opener x = none ∧ x.getLast? ≠ some '$'

instance (x : Text) : Decidable (IsInert x) := inferInstanceAs (Decidable (_ ∧ _))

theorem isInert_nil : IsInert [] := ⟨rfl, by decide⟩

/-- An inert text is inert from its second character on, and no opener begins at the first one,
whatever follows. -/
theorem IsInert.tail {c : Char} {x : Text} (h : IsInert (c :: x)) :
    IsInert x ∧ ∀ w, opener.isPrefixOf (c :: (x ++ w)) = false := by
  obtain ⟨hcut, hlast⟩ := h
  rw [Text.cut?] at hcut
  split at hcut
  · cases hcut
  · rename_i hpre
    cases x with
    | nil =>
        refine ⟨isInert_nil, fun w => ?_⟩
        have hc : ('$' == c) = false := beq_eq_false_iff_ne.2 fun he => hlast (by rw [he]; rfl)
        rw [opener, List.isPrefixOf_cons_cons, hc, Bool.false_and]
    | cons d x =>
        refine ⟨⟨Option.map_eq_none_iff.1 hcut, ?_⟩, fun w => ?_⟩
        · rwa [List.getLast?_cons_cons] at hlast
        · simpa [opener, List.isPrefixOf_cons_cons] using hpre

/-- An opener is found behind inert text where it is found without this text. -/
theorem cut?_opener_append {x : Text} (h : IsInert x) (w : Text) :
    Text.cut? opener (x ++ w) =
      (Text.cut? opener w).map fun (before, after) => (x ++ before, after) := by
  induction x with
  | nil =>
      rw [List.nil_append]
      cases Text.cut? opener w <;> rfl
  | cons c x ih =>
      obtain ⟨hx, hpre⟩ := h.tail
      rw [List.cons_append, Text.cut?, if_neg (by rw [hpre w]; decide), ih hx, Option.map_map]
      rfl

/-- What stands behind inert text can stand behind other inert text. -/
theorem IsInert.exchange {x y t : Text} (hx : IsInert x) (hy : IsInert y) (h : IsInert (x ++ t)) :
    IsInert (y ++ t) := by
  have hcut := h.1
  rw [cut?_opener_append hx, Option.map_eq_none_iff] at hcut
  refine ⟨by rw [cut?_opener_append hy, hcut]; rfl, ?_⟩
  rcases List.eq_nil_or_concat t with rfl | ⟨t, c, rfl⟩
  · rw [List.append_nil]
    exact hy.2
  · have hlast := h.2
    rw [List.concat_eq_append, ← List.append_assoc, List.getLast?_concat] at hlast ⊢
    exact hlast

/-! ## The pieces of a text by its first container -/

section

variable {source gap inner : Text}

theorem pieces_of_cut?_opener (ho : Text.cut? opener source = none) :
    pieces source = [.plain source] := by
  rw [pieces]
  split
  · rfl
  · rename_i hs
    rw [ho] at hs
    cases hs

theorem pieces_of_cut?_closer (ho : Text.cut? opener source = some (gap, inner))
    (hc : Text.cut? closer inner = none) : pieces source = [.plain source] := by
  rw [pieces]
  split
  · rfl
  · rename_i hs
    rw [ho] at hs
    cases hs
    split
    · rfl
    · rename_i hs
      rw [hc] at hs
      cases hs

theorem pieces_of_cuts {span rest : Text} (ho : Text.cut? opener source = some (gap, inner))
    (hc : Text.cut? closer inner = some (span, rest)) :
    pieces source =
      .plain (innermost gap span).1 :: .slot (innermost gap span).2 :: pieces rest := by
  rw [pieces]
  split
  · rename_i hs
    rw [ho] at hs
    cases hs
  · rename_i hs
    rw [ho] at hs
    cases hs
    split
    · rename_i hs
      rw [hc] at hs
      cases hs
    · rename_i hs
      rw [hc] at hs
      cases hs
      rfl

end

/-! ## Containers behind inert text -/

/-- The pieces of a text start with a plain one, and inert text in front of the text is added to
this one. -/
theorem pieces_append {x : Text} (h : IsInert x) (w : Text) :
    ∃ t ps, pieces w = .plain t :: ps ∧ pieces (x ++ w) = .plain (x ++ t) :: ps := by
  have hcut := cut?_opener_append h w
  cases ho : Text.cut? opener w with
  | none =>
      rw [ho] at hcut
      exact ⟨w, [], pieces_of_cut?_opener ho, pieces_of_cut?_opener hcut⟩
  | some found =>
      obtain ⟨gap, inner⟩ := found
      rw [ho] at hcut
      cases hc : Text.cut? closer inner with
      | none => exact ⟨w, [], pieces_of_cut?_closer ho hc, pieces_of_cut?_closer hcut hc⟩
      | some found =>
          obtain ⟨span, rest⟩ := found
          -- The innermost opener is looked for behind the gap, and the gap grows by the text in
          -- front.
          have hi : innermost (x ++ gap) span =
              (x ++ (innermost gap span).1, (innermost gap span).2) := by
            unfold innermost
            split <;> simp
          refine ⟨_, _, pieces_of_cuts ho hc, ?_⟩
          rw [pieces_of_cuts hcut hc, hi]

theorem firstContainerBehind?_append (x before : Text) (ps : List Piece) :
    firstContainerBehind? (x ++ before) ps =
      (firstContainerBehind? before ps).map fun c => { c with before := x ++ c.before } := by
  induction ps generalizing before with
  | nil => rfl
  | cons p ps ih =>
      cases p with
      | plain t =>
          rw [firstContainerBehind?, firstContainerBehind?, List.append_assoc]
          exact ih (before ++ t)
      | slot body => rfl

/-- Inert text in front of a template changes nothing of its first container but what stands before
it. -/
theorem firstContainer?_append {x : Text} (h : IsInert x) (w : Text) :
    firstContainer? (x ++ w) =
      (firstContainer? w).map fun c => { c with before := x ++ c.before } := by
  obtain ⟨t, ps, hw, hxw⟩ := pieces_append h w
  unfold firstContainer?
  rw [hw, hxw, firstContainerBehind?, firstContainerBehind?, List.nil_append, List.nil_append]
  exact firstContainerBehind?_append x t ps

/-- Inert text in front of a template has no part in whether it is final. -/
theorem isFinal_append {x : Text} (h : IsInert x) (w : Text) : isFinal (x ++ w) = isFinal w := by
  obtain ⟨t, ps, hw, hxw⟩ := pieces_append h w
  unfold isFinal containerCount
  rw [hw, hxw, List.countP_cons, List.countP_cons]
  rfl

/-! ## What a remainder says of its container -/

/-- The body of the first container ends where its first closer begins. -/
theorem cut?_closer_of_firstContainer? {t : Text} {c : Container} (h : firstContainer? t = some c) :
    Text.cut? closer (c.body ++ closer ++ c.after) = some (c.body, c.after) := by
  unfold firstContainer? at h
  rw [pieces] at h
  split at h
  · cases h
  · split at h
    · cases h
    · rename_i gap inner ho span rest hc
      rw [firstContainerBehind?, firstContainerBehind?, flatMap_text_pieces] at h
      cases h
      have hspan := Text.append_of_cut? hc
      unfold innermost
      split
      · -- Behind the last opener of the span the first closer is still the same.
        rename_i before body hi
        rw [← hspan, ← Text.append_of_cutLast? hi] at hc
        rw [List.append_assoc, List.append_assoc (before ++ opener)] at hc
        rw [List.append_assoc]
        exact Text.cut?_of_append hc
      · rwa [hspan]

/-- Two texts with the same remainder are the same from the body of the first container on. -/
theorem eq_of_remainder_eq {s t : Text} {c d : Container} (hc : firstContainer? s = some c)
    (hd : firstContainer? t = some d) (h : c.remainder = d.remainder) :
    c.body = d.body ∧ c.after = d.after := by
  unfold Container.remainder at h
  rw [List.append_assoc, List.append_assoc, List.append_assoc, List.append_assoc,
    List.append_cancel_left_eq, ← List.append_assoc, ← List.append_assoc] at h
  have hcut := cut?_closer_of_firstContainer? hc
  rw [h, cut?_closer_of_firstContainer? hd] at hcut
  cases c
  cases d
  cases hcut
  exact ⟨rfl, rfl⟩

/-- Only its own text in the place of a container changes nothing. -/
theorem substitute_eq_source {c : Container} {value : Text} :
    c.substitute value = c.source ↔ value = (Piece.slot c.body).text := by
  have hs : c.source = c.before ++ (Piece.slot c.body).text ++ c.after := by
    simp [Container.source, Piece.text]
  rw [hs, Container.substitute, List.append_cancel_right_eq, List.append_cancel_left_eq]

theorem mem_containers_of_first {t : Text} {c : Container} (h : firstContainer? t = some c) :
    c ∈ containers t := by
  rw [firstContainer?_eq_head?] at h
  exact List.mem_of_head? h

/-- A text that is not final has a first container. -/
theorem exists_firstContainer? {t : Text} (h : ¬ isFinal t) : ∃ c, firstContainer? t = some c := by
  cases hc : firstContainer? t with
  | some c => exact ⟨c, rfl⟩
  | none =>
      rw [firstContainer?_eq_head?, List.head?_eq_none_iff] at hc
      exact absurd ((isFinal_iff t).2 hc) h

end Template

end Fillout
