import Fillout.Proofs.Template.Delimiters
import Fillout.Proofs.Template.Score

set_option autoImplicit false

/-! # What a value completes

A value without delimiter characters takes the place of a container. If no opener is left open in
front of the container, or no closer stands behind it that could close it, the value joins the plain
text around it and adds its letters and digits to the score
(`fillScore_substitute_of_not_encloses`).

Otherwise the value completes a placeholder that was open around the container, and gets into its
body. The text of this placeholder was plain text before and is not any more: the score loses its
letters and digits (`fillScore_substitute_of_encloses`). Which of the two it is can be seen from the
pieces behind the last opener in front of the container (`pieces_append_filler`).
-/

namespace Fillout

namespace Template

variable {source t v : Text} {c d : Container}

/-! ## Texts without containers -/

/-- A text is final if no closer stands behind its first opener. -/
theorem isFinal_iff_cuts : isFinal t = true ↔
    ∀ x rest, Text.cut? opener t = some (x, rest) → Text.cut? closer rest = none := by
  unfold isFinal containerCount
  fun_cases pieces t with
  | case1 ho => simp [Piece.isSlot, ho]
  | case2 _ _ ho hc => simp [Piece.isSlot, ho, hc]
  | case3 _ _ ho _ _ hc => simp [Piece.isSlot, ho, hc]

theorem pieces_of_isFinal (h : isFinal t = true) : pieces t = [.plain t] := by
  cases ho : Text.cut? opener t with
  | none => exact pieces_of_cut?_opener ho
  | some found =>
      obtain ⟨x, rest⟩ := found
      exact pieces_of_cut?_closer ho (isFinal_iff_cuts.1 h x rest ho)

theorem isFinal_of_cut?_closer (h : Text.cut? closer t = none) : isFinal t = true :=
  isFinal_iff_cuts.2 fun x _ ho =>
    Text.cut?_eq_none_of_append (x := x ++ opener) (by rwa [Text.append_of_cut? ho])

theorem fillScore_of_isFinal (h : isFinal t = true) : fillScore t = alphanumericCount t := by
  rw [fillScore, pieces_of_isFinal h]
  rfl

/-! ## The pieces around a container -/

/-- A container that stands behind the pieces `ps` and the plain text `t`. The pieces are there
whatever follows them, and none of what stands between them and the closer has a container of its
own. -/
structure Container.StandsBehind (c : Container) (ps : List Piece) (t : Text) : Prop where
  before : c.before = ps.flatMap Piece.text ++ t
  pieces_append : ∀ w, pieces (ps.flatMap Piece.text ++ w) = ps ++ pieces w
  isFinal_prefix : ∀ y, y <+: t ++ opener ++ c.body → isFinal y = true
  pieces_remainder : pieces (t ++ c.remainder) = .plain t :: .slot c.body :: pieces c.after

section

variable {gap span : Text} (ho : Text.cut? opener gap = none) (hc : Text.cut? closer span = none)

include ho hc

/-- The innermost container and what stands in front of it are pieces whatever follows. -/
theorem pieces_innermost_append (w : Text) :
    pieces ((innermost gap span).1 ++ (Piece.slot (innermost gap span).2).text ++ w) =
      .plain (innermost gap span).1 :: .slot (innermost gap span).2 :: pieces w := by
  rw [innermost_append_text, List.append_assoc, List.append_assoc (gap ++ opener),
    ← List.append_assoc span]
  exact pieces_of_cuts (Text.cut?_pair_append (by decide) ho _)
    (Text.cut?_pair_append (by decide) hc w)

/-- As far as the closer no container comes before the innermost one. -/
theorem isFinal_of_prefix {y : Text} (hy : y <+: gap ++ opener ++ span) : isFinal y = true := by
  refine isFinal_iff_cuts.2 fun gap' inner hcut => ?_
  obtain ⟨z, hz⟩ := hy
  have hlong := Text.cut?_append_right hcut z
  rw [hz, opener, Text.cut?_pair_append (by decide) ho] at hlong
  cases hlong
  exact Text.cut?_eq_none_of_append_right hc

end

theorem exists_standsBehind_of_mem (qs : List Piece)
    (hqs : ∀ w, pieces (qs.flatMap Piece.text ++ w) = qs ++ pieces w)
    (h : c ∈ containersBehind (qs.flatMap Piece.text) (pieces source)) :
    ∃ ps t, c.StandsBehind ps t := by
  fun_induction pieces source generalizing qs with
  | case1 => cases h
  | case2 => cases h
  | case3 source gap inner ho span rest hc ih =>
    have hgap := Text.cut?_before_eq_none (by decide) ho
    have hspan := Text.cut?_before_eq_none (by decide) hc
    have hpieces := pieces_innermost_append hgap hspan
    rcases List.mem_cons.1 h with rfl | h
    · refine ⟨qs, (innermost gap span).1, rfl, hqs, fun y hy => ?_, ?_⟩
      · rw [innermost_append] at hy
        exact isFinal_of_prefix hgap hspan hy
      · have hrest := hpieces rest
        rw [List.append_assoc] at hrest
        rwa [Container.remainder, flatMap_text_pieces]
    · -- the innermost container is one more of the pieces in front
      refine ih (qs ++ [.plain (innermost gap span).1, .slot (innermost gap span).2])
        (fun w => ?_) ?_
      · have hw := hpieces w
        simp only [List.flatMap_append, List.flatMap_cons, List.flatMap_nil, List.append_nil,
          List.append_assoc] at hw ⊢
        rw [hqs]
        exact congrArg (qs ++ ·) hw
      · simpa [Piece.text] using h

theorem exists_standsBehind (h : c ∈ containers source) : ∃ ps t, c.StandsBehind ps t :=
  exists_standsBehind_of_mem [] (fun _ => rfl) h

namespace Container.StandsBehind

variable {ps : List Piece}

theorem isFinal (h : c.StandsBehind ps t) : isFinal t = true :=
  h.isFinal_prefix t (by rw [List.append_assoc]; exact List.prefix_append _ _)

theorem pieces_before (h : c.StandsBehind ps t) : pieces c.before = ps ++ [.plain t] := by
  rw [h.before, h.pieces_append, pieces_of_isFinal h.isFinal]

theorem pieces_source (h : c.StandsBehind ps t) :
    pieces c.source = ps ++ .plain t :: .slot c.body :: pieces c.after := by
  rw [← c.before_append_remainder, h.before, List.append_assoc, h.pieces_append, h.pieces_remainder]

theorem fillScore_append (h : c.StandsBehind ps t) (w : Text) :
    fillScore (ps.flatMap Piece.text ++ w) = scoreOf ps + fillScore w := by
  rw [fillScore, h.pieces_append, scoreOf_append]
  rfl

theorem fillScore_before (h : c.StandsBehind ps t) :
    fillScore c.before = scoreOf ps + alphanumericCount t := by
  rw [h.before, h.fillScore_append, fillScore_of_isFinal h.isFinal]

end Container.StandsBehind

/-- The pieces of a text are those in front of a container, the container, and those behind it. -/
theorem pieces_of_mem_containers (h : c ∈ containers source) :
    pieces source = pieces c.before ++ .slot c.body :: pieces c.after := by
  obtain ⟨ps, t, hc⟩ := exists_standsBehind h
  rw [← source_of_mem_containers h, hc.pieces_source, hc.pieces_before, List.append_assoc]
  rfl

/-- The score of a text is what its parts before and behind a container score. -/
theorem fillScore_of_mem_containers (h : c ∈ containers source) :
    fillScore source = fillScore c.before + fillScore c.after := by
  rw [fillScore, pieces_of_mem_containers h, scoreOf_append]
  rfl

/-! ## A value between two texts -/

theorem fillScore_append_of_isInert {x : Text} (h : IsInert x) (w : Text) :
    fillScore (x ++ w) = alphanumericCount x + fillScore w := by
  obtain ⟨t, ps, hw, hxw⟩ := pieces_append h w
  rw [fillScore, fillScore, hw, hxw, scoreOf, scoreOf, alphanumericCount_append, Nat.add_assoc]

/-- The pieces of a text by the last opener in front of the closer that closes it. -/
theorem pieces_of_cutLast? {gap inner span rest b body : Text}
    (ho : Text.cut? opener source = some (gap, inner))
    (hc : Text.cut? closer inner = some (span, rest))
    (hl : Text.cutLast? opener (gap ++ opener ++ span) = some (b, body)) :
    pieces source = .plain b :: .slot body :: pieces rest := by
  rw [cutLast?_opener_append] at hl
  rw [pieces_of_cuts ho hc, Option.some.inj hl]

/-- If an opener stands in front of the first closer of a text, this closer is the first that closes
one. -/
theorem pieces_of_cut?_closer_cutLast? {r rest b body : Text}
    (hc : Text.cut? closer source = some (r, rest)) (hl : Text.cutLast? opener r = some (b, body)) :
    pieces source = .plain b :: .slot body :: pieces rest := by
  cases ho : Text.cut? opener r with
  | none => exact nomatch (Text.cutLast?_eq_none ho).symm.trans hl
  | some found =>
      obtain ⟨gap, span⟩ := found
      obtain ⟨hopen, hclose⟩ := cuts_of_cut?_closer hc ho
      rw [← Text.append_of_cut? ho] at hl
      exact pieces_of_cutLast? hopen hclose hl

/-- Nothing begins at the end of a value, and no opener comes about in front of it. -/
theorem isInert_append_filler (ht : Text.cut? opener t = none) (hv : IsFiller v) :
    IsInert (t ++ v) := by
  refine ⟨?_, fun hlast => ?_⟩
  · have hapart := hv.apart '$' (.inl rfl) t []
    rw [List.append_nil] at hapart
    have hvopen : Text.cut? ['$', '{'] v = none := hv.plain.isBody.1
    rw [opener, Text.cut?_append_of_apart ht hapart, hvopen]
    rfl
  · obtain ⟨v, e, rfl⟩ := (List.eq_nil_or_concat v).resolve_left hv.ne_nil
    rw [List.concat_eq_append, ← List.append_assoc, List.getLast?_concat] at hlast
    exact (hv.plain e (by simp)).1 (Option.some.inj hlast)

/-- A value has no part in where the first closer stands behind it, if none stands in front of
it. -/
theorem cut?_closer_append_filler {s : Text} (hs : Text.cut? closer s = none) (hv : IsFiller v)
    (after : Text) :
    Text.cut? closer (s ++ (v ++ after)) =
      (Text.cut? closer after).map fun (r, rest) => (s ++ (v ++ r), rest) := by
  have hvclose : Text.cut? ['}', '$'] v = none := hv.plain.isBody.2
  rw [closer, Text.cut?_append_of_apart hs (hv.apart '}' (.inr rfl) s after),
    Text.cut?_append_of_apart hvclose (hv.plain.apart (.inr rfl) '$' after), Option.map_map]
  rfl

/-- A value has no part in where the last opener stands in front of it, if none stands behind it. -/
theorem cutLast?_opener_append_filler {r : Text} (hr : Text.cut? opener r = none) (hv : IsFiller v)
    (t : Text) :
    Text.cutLast? opener (t ++ v ++ r) =
      (Text.cutLast? opener t).map fun (b, l) => (b, l ++ v ++ r) := by
  have hvr : Text.cut? ['$', '{'] (v ++ r) = none := by
    rw [Text.cut?_append_of_apart hv.plain.isBody.1 (hv.plain.apart (.inl rfl) '{' r),
      show Text.cut? ['$', '{'] r = none from hr]
    rfl
  rw [List.append_assoc, opener, Text.cutLast?_append_of_apart hvr (hv.apart '$' (.inl rfl) t r)]
  simp only [List.append_assoc]

/-- Behind a text without containers, a value joins the plain text on both sides of it, or it gets
into the body of a container that starts at the last opener in front of it and ends at the first
closer behind it. -/
theorem pieces_append_filler (ht : isFinal t = true) (hv : IsFiller v) (after : Text) :
    (∃ x qs, pieces after = .plain x :: qs ∧
      pieces (t ++ v ++ after) = .plain (t ++ v ++ x) :: qs) ∨
      ∃ b l r rest, t = b ++ opener ++ l ∧ after = r ++ closer ++ rest ∧
        pieces (t ++ v ++ after) = .plain b :: .slot (l ++ v ++ r) :: pieces rest := by
  cases ho : Text.cut? opener t with
  | none =>
      obtain ⟨x, qs, hafter, hwhole⟩ := pieces_append (isInert_append_filler ho hv) after
      exact .inl ⟨x, qs, hafter, hwhole⟩
  | some found =>
      obtain ⟨gap, s⟩ := found
      have hopen := Text.cut?_append_right ho (v ++ after)
      have hclose := cut?_closer_append_filler (isFinal_iff_cuts.1 ht gap s ho) hv after
      rw [← List.append_assoc t] at hopen
      cases hc : Text.cut? closer after with
      | none =>
          rw [hc] at hclose
          exact .inl ⟨after, [], pieces_of_isFinal (isFinal_of_cut?_closer hc),
            pieces_of_cut?_closer hopen hclose⟩
      | some found =>
          obtain ⟨r, rest⟩ := found
          rw [hc] at hclose
          have hwhole : ∀ b body, Text.cutLast? opener (t ++ v ++ r) = some (b, body) →
              pieces (t ++ v ++ after) = .plain b :: .slot body :: pieces rest := by
            intro b body hl
            refine pieces_of_cutLast? hopen hclose ?_
            rwa [← List.append_assoc, ← List.append_assoc, Text.append_of_cut? ho]
          cases hr : Text.cutLast? opener r with
          | some found =>
              -- the closer closes an opener behind the value
              obtain ⟨b, body⟩ := found
              exact .inl ⟨b, _, pieces_of_cut?_closer_cutLast? hc hr,
                hwhole _ _ (Text.cutLast?_append_left hr (t ++ v))⟩
          | none =>
              -- the closer closes the last opener in front of the value
              have hl := cutLast?_opener_append_filler (Text.cutLast?_eq_none_iff.1 hr) hv t
              rw [← Text.append_of_cut? ho, cutLast?_opener_append, Text.append_of_cut? ho] at hl
              refine .inr ⟨(innermost gap s).1, (innermost gap s).2, r, rest, ?_,
                (Text.append_of_cut? hc).symm, hwhole _ _ hl⟩
              rw [innermost_append, Text.append_of_cut? ho]

/-- One value can take the place of another without a text becoming final, or not final any more. -/
theorem isFinal_exchange_filler {v' : Text} (hv : IsFiller v) (hv' : IsFiller v') (t after : Text) :
    isFinal (t ++ v ++ after) = isFinal (t ++ v' ++ after) := by
  cases ho : Text.cut? opener t with
  | none =>
      rw [isFinal_append (isInert_append_filler ho hv),
        isFinal_append (isInert_append_filler ho hv')]
  | some found =>
      obtain ⟨gap, s⟩ := found
      -- the first opener stands in `t`, so a closer behind it makes the text not final
      have hwhole : ∀ {u : Text}, IsFiller u →
          (isFinal (t ++ u ++ after) = true ↔
            Text.cut? closer s = none ∧ Text.cut? closer after = none) := by
        intro u hu
        have hopen := Text.cut?_append_right ho (u ++ after)
        rw [← List.append_assoc] at hopen
        rw [isFinal_iff_cuts]
        constructor
        · intro h
          have hnone := h gap _ hopen
          have hs := Text.cut?_eq_none_of_append_right hnone
          rw [cut?_closer_append_filler hs hu, Option.map_eq_none_iff] at hnone
          exact ⟨hs, hnone⟩
        · rintro ⟨hs, hafter⟩ x rest hcut
          rw [hopen] at hcut
          cases hcut
          rw [cut?_closer_append_filler hs hu, hafter]
          rfl
      exact Bool.eq_iff_iff.2 ((hwhole hv).trans (hwhole hv').symm)

/-! ## The score of what has been filled -/

/-- The value that stands in the place of the container `c` is in the body of `d`, between `l` and
`r`. -/
structure Encloses (c : Container) (v : Text) (d : Container) (l r : Text) : Prop where
  before : c.before = d.before ++ opener ++ l
  body : d.body = l ++ v ++ r
  after : c.after = r ++ closer ++ d.after

/-- A value that completes nothing adds its letters and digits to the score. -/
theorem fillScore_substitute_of_not_encloses (hc : c ∈ containers source) (hv : IsFiller v)
    (hnot : ∀ d ∈ containers (c.substitute v), ∀ l r, ¬ Encloses c v d l r) :
    fillScore (c.substitute v) = fillScore source + alphanumericCount v := by
  obtain ⟨ps, t, hstands⟩ := exists_standsBehind hc
  have hsubstitute : c.substitute v = ps.flatMap Piece.text ++ (t ++ v ++ c.after) := by
    rw [Container.substitute, hstands.before, List.append_assoc, List.append_assoc,
      List.append_assoc]
  rcases pieces_append_filler hstands.isFinal hv c.after with
    ⟨x, qs, hafter, hfilled⟩ | ⟨b, l, r, rest, rfl, hrest, hfilled⟩
  · have hfilled : fillScore (t ++ v ++ c.after) =
        alphanumericCount t + alphanumericCount v + fillScore c.after := by
      rw [fillScore, fillScore, hfilled, hafter, scoreOf, scoreOf, alphanumericCount_append,
        alphanumericCount_append, Nat.add_assoc]
    rw [hsubstitute, hstands.fillScore_append, hfilled, fillScore_of_mem_containers hc,
      hstands.fillScore_before]
    omega
  · refine absurd ?_ (hnot ⟨ps.flatMap Piece.text ++ b, l ++ v ++ r, rest⟩ ?_ l r)
    · exact ⟨by rw [hstands.before]; simp only [List.append_assoc], rfl, hrest⟩
    · have hmem := mem_containersBehind_append [] (ps ++ [.plain b]) (l ++ v ++ r) (pieces rest)
      rw [containers, hsubstitute, hstands.pieces_append, hfilled]
      simpa [flatMap_text_pieces, Piece.text] using hmem

/-- A placeholder that has not been completed is plain text, up to the container in it. -/
theorem fillScore_before_of_encloses (hd : d ∈ containers (c.substitute v)) {l r : Text}
    (h : Encloses c v d l r) :
    fillScore c.before = fillScore d.before + alphanumericCount l := by
  obtain ⟨ps, t, hstands⟩ := exists_standsBehind hd
  have hfinal : isFinal (t ++ opener ++ l) = true := by
    refine hstands.isFinal_prefix _ ⟨v ++ r, ?_⟩
    rw [h.body, List.append_assoc _ l, ← List.append_assoc l]
  calc fillScore c.before
      = fillScore (ps.flatMap Piece.text ++ (t ++ opener ++ l)) := by
        rw [h.before, hstands.before, List.append_assoc, List.append_assoc, ← List.append_assoc t]
    _ = scoreOf ps + alphanumericCount (t ++ opener ++ l) := by
        rw [hstands.fillScore_append, fillScore_of_isFinal hfinal]
    _ = scoreOf ps + (alphanumericCount t + 0 + alphanumericCount l) := by
        rw [alphanumericCount_append, alphanumericCount_append,
          show alphanumericCount opener = 0 by decide +kernel]
    _ = fillScore d.before + alphanumericCount l := by
        rw [hstands.fillScore_before, Nat.add_zero, Nat.add_assoc]

/-- Behind the container the placeholder is plain text too. The second character of its closer can
belong to an opener. -/
theorem fillScore_after_of_encloses (hd : d ∈ containers (c.substitute v)) {l r : Text}
    (h : Encloses c v d l r) :
    fillScore c.after = alphanumericCount r + fillScore ('$' :: d.after) := by
  have hbody := isBody_of_mem_containers hd
  rw [h.body] at hbody
  have hr : Text.cut? ['$', '{'] r = none := Text.cut?_eq_none_of_append hbody.1
  have hinert : IsInert (r ++ ['}']) := by
    refine ⟨?_, by rw [List.getLast?_concat]; decide⟩
    rw [opener, Text.cut?_append_of_apart hr (fun _ => by decide)]
    rfl
  calc fillScore c.after
      = fillScore (r ++ ['}'] ++ '$' :: d.after) := by
        rw [h.after]
        simp [closer]
    _ = alphanumericCount r + 0 + fillScore ('$' :: d.after) := by
        rw [fillScore_append_of_isInert hinert, alphanumericCount_append,
          show alphanumericCount ['}'] = 0 by decide +kernel]

/-- A value that completes a placeholder costs the letters and digits of the placeholder's own text.
They are no longer counted, and neither does the closer any more open a container with what follows
it. -/
theorem fillScore_substitute_of_encloses (hc : c ∈ containers source)
    (hd : d ∈ containers (c.substitute v)) {l r : Text} (h : Encloses c v d l r) :
    fillScore (c.substitute v) +
      (alphanumericCount l + alphanumericCount r + fillScore ('$' :: d.after)) =
      fillScore source + fillScore d.after := by
  have hbefore := fillScore_before_of_encloses hd h
  have hafter := fillScore_after_of_encloses hd h
  rw [fillScore_of_mem_containers hd, fillScore_of_mem_containers hc]
  omega

end Template

end Fillout
