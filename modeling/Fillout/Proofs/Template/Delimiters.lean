import Fillout.Proofs.Template.Flat

set_option autoImplicit false

/-! # Where delimiters stand

Openers and closers have two characters, and the characters differ. So a delimiter can stand in the
one of two neighbouring texts, in the other, or in both at once, with a character in each of them.
If the texts stand `Apart`, the last is excluded, and what is found in the whole is found in one of
the parts (`cut?_append_of_apart`, `cutLast?_append_of_apart`). A value without delimiter characters
stands apart from all texts (`IsFiller`). The bodies of containers have no delimiters in them
(`isBody_of_mem_containers`).
-/

namespace Fillout

namespace Text

variable {needle t before after : Text}

/-! ## What is found first and last -/

theorem cut?_eq_none_of_append {x : Text} (h : cut? needle (x ++ t) = none) :
    cut? needle t = none := by
  induction x with
  | nil => exact h
  | cons c x ih => exact ih (cut?_cons_eq_none h).2

theorem cut?_eq_none_of_append_right {x : Text} (h : cut? needle (t ++ x) = none) :
    cut? needle t = none := by
  cases hcut : cut? needle t with
  | none => rfl
  | some found =>
      rw [cut?_append_right hcut x] at h
      cases h

/-- What stands in a text is found, here or in front. -/
theorem exists_cut?_append (needle before after : Text) :
    ∃ before' after', cut? needle (before ++ needle ++ after) = some (before', after') ∧
      before'.length ≤ before.length := by
  induction before with
  | nil =>
      rw [List.nil_append]
      cases needle with
      | nil => cases after <;> exact ⟨_, _, rfl, Nat.le_refl _⟩
      | cons d needle =>
          refine ⟨[], after, ?_, Nat.le_refl _⟩
          rw [List.cons_append, cut?, if_pos (by simp)]
          simp
  | cons c before ih =>
      rw [List.cons_append, List.cons_append, cut?]
      split
      · exact ⟨_, _, rfl, Nat.zero_le _⟩
      · obtain ⟨before', after', hcut, hle⟩ := ih
        exact ⟨c :: before', after', by rw [hcut]; rfl, Nat.succ_le_succ hle⟩

/-- Nothing is found in front of the first place. -/
theorem cut?_before_eq_none (hne : needle ≠ []) (h : cut? needle t = some (before, after)) :
    cut? needle before = none := by
  cases hcut : cut? needle before with
  | none => rfl
  | some found =>
      obtain ⟨b, a⟩ := found
      have hlonger := cut?_append_right hcut (needle ++ after)
      rw [← List.append_assoc, append_of_cut? h, h] at hlonger
      have hlength := congrArg (·.2.length) (Option.some.inj hlonger)
      have hpos := List.length_pos_iff.2 hne
      simp only [List.length_append] at hlength
      omega

theorem cutLast?_eq_none_iff : cutLast? needle t = none ↔ cut? needle t = none := by
  refine ⟨fun h => ?_, cutLast?_eq_none⟩
  induction t with
  | nil => exact h
  | cons c t ih =>
      rw [cutLast?] at h
      split at h
      · cases h
      · rename_i hrest
        split at h
        · cases h
        · rw [cut?, if_neg ‹_›, ih hrest]
          rfl

/-- Nothing is found behind the last place. -/
theorem cut?_eq_none_of_cutLast? (hne : needle ≠ [])
    (h : cutLast? needle t = some (before, after)) : cut? needle after = none := by
  induction t generalizing before with
  | nil =>
      cases needle with
      | nil => exact absurd rfl hne
      | cons d needle => cases h
  | cons c t ih =>
      rw [cutLast?] at h
      split at h
      · rename_i hrest
        cases h
        exact ih hrest
      · rename_i hrest
        split at h
        · rename_i hpre
          cases h
          cases needle with
          | nil => exact absurd rfl hne
          | cons d needle =>
              -- what follows the needle at `c` is an end of `t`
              rw [List.length_cons, List.drop_succ_cons]
              rw [cutLast?_eq_none_iff, ← List.take_append_drop needle.length t] at hrest
              exact cut?_eq_none_of_append hrest
        · cases h

/-- What is found last in a text is found last behind any other. -/
theorem cutLast?_append_left (h : cutLast? needle t = some (before, after)) (x : Text) :
    cutLast? needle (x ++ t) = some (x ++ before, after) := by
  induction x with
  | nil => exact h
  | cons c x ih => rw [List.cons_append, cutLast?, ih, List.cons_append]

/-! ## Needles of two characters -/

section

variable {c d e : Char} {x w : Text}

theorem isPrefixOf_pair_iff :
    [d, e].isPrefixOf (c :: t) = true ↔ c = d ∧ ∃ rest, t = e :: rest := by
  rw [List.isPrefixOf_iff_prefix]
  constructor
  · rintro ⟨rest, he⟩
    cases he
    exact ⟨rfl, rest, rfl⟩
  · rintro ⟨rfl, rest, rfl⟩
    exact ⟨rest, rfl⟩

/-- A needle that does not begin at `c` is found behind `c`. -/
theorem cut?_pair_cons (h : ∀ rest, c = d → t = e :: rest → False) :
    cut? [d, e] (c :: t) = (cut? [d, e] t).map fun (before, after) => (c :: before, after) :=
  if_neg fun hpre =>
    have ⟨hc, rest, ht⟩ := isPrefixOf_pair_iff.1 hpre
    h rest hc ht

theorem cutLast?_pair_cons (h : ∀ rest, c = d → t = e :: rest → False) :
    cutLast? [d, e] (c :: t) =
      (cutLast? [d, e] t).map fun (before, after) => (c :: before, after) := by
  rw [cutLast?]
  cases cutLast? [d, e] t with
  | some found => rfl
  | none =>
      refine if_neg fun hpre => ?_
      obtain ⟨hc, rest, ht⟩ := isPrefixOf_pair_iff.1 hpre
      exact h rest hc ht

/-- No needle of the characters `d` and `e` has the one at the end of `x` and the other at the start
of `w`. -/
def Apart (d e : Char) (x w : Text) : Prop := x.getLast? = some d → w.head? ≠ some e

theorem Apart.of_cons (h : Apart d e (c :: x) w) : Apart d e x w := by
  cases x with
  | nil => exact fun hlast => nomatch hlast
  | cons c' x =>
      intro hlast
      exact h (by rwa [List.getLast?_cons_cons])

/-- A needle that does not begin at `c` in a text does not begin there if a text that stands apart
follows. -/
theorem Apart.not_pair (h : Apart d e (c :: x) w) (hx : ∀ rest, c = d → x = e :: rest → False) :
    ∀ rest, c = d → x ++ w = e :: rest → False := by
  rintro rest rfl he
  cases x with
  | nil =>
      rw [List.nil_append] at he
      exact h rfl (by rw [he]; rfl)
  | cons c' x =>
      cases he
      exact hx x rfl rfl

theorem apart_of_cut?_eq_none (h : cut? [d, e] (x ++ w) = none) : Apart d e x w := by
  induction x with
  | nil => exact fun hlast => nomatch hlast
  | cons c x ih =>
      obtain ⟨hpre, hrest⟩ := cut?_cons_eq_none h
      intro hlast hhead
      cases x with
      | cons c' x => exact ih hrest (by rwa [List.getLast?_cons_cons] at hlast) hhead
      | nil =>
          cases hlast
          cases w with
          | nil => cases hhead
          | cons c' w =>
              cases hhead
              exact hpre (isPrefixOf_pair_iff.2 ⟨rfl, w, rfl⟩)

theorem not_pair_of_cut?_eq_none (h : cut? [d, e] (c :: t) = none) :
    ∀ rest, c = d → t = e :: rest → False :=
  fun rest hc ht => (cut?_cons_eq_none h).1 (isPrefixOf_pair_iff.2 ⟨hc, rest, ht⟩)

theorem cut?_append_of_apart (hx : cut? [d, e] x = none) (h : Apart d e x w) :
    cut? [d, e] (x ++ w) = (cut? [d, e] w).map fun (before, after) => (x ++ before, after) := by
  induction x with
  | nil => simp
  | cons c x ih =>
      rw [List.cons_append, cut?_pair_cons (h.not_pair (not_pair_of_cut?_eq_none hx)),
        ih (cut?_cons_eq_none hx).2 h.of_cons, Option.map_map]
      rfl

theorem cutLast?_append_of_apart (hw : cut? [d, e] w = none) (h : Apart d e x w) :
    cutLast? [d, e] (x ++ w) =
      (cutLast? [d, e] x).map fun (before, after) => (before, after ++ w) := by
  induction x with
  | nil => exact cutLast?_eq_none hw
  | cons c x ih =>
      by_cases hc : c = d ∧ ∃ rest, x = e :: rest
      · -- the needle begins at `c`, and is the last one if there is none behind it
        obtain ⟨rfl, rest, rfl⟩ := hc
        rw [List.cons_append, cutLast?, cutLast?, ih h.of_cons]
        cases cutLast? [c, e] (e :: rest) with
        | some found => rfl
        | none => simp
      · have hnot : ∀ rest, c = d → x = e :: rest → False := fun rest hd he => hc ⟨hd, rest, he⟩
        rw [List.cons_append, cutLast?_pair_cons (h.not_pair hnot), cutLast?_pair_cons hnot,
          ih h.of_cons, Option.map_map, Option.map_map]
        rfl

end

end Text

namespace Template

/-! ## Values -/

/-- What a container can be replaced by without a delimiter coming about: some text, and none of the
characters that delimiters are made of. -/
structure IsFiller (v : Text) : Prop where
  plain : IsPlain v
  ne_nil : v ≠ []

instance (v : Text) : Decidable (IsFiller v) :=
  decidable_of_iff (IsPlain v ∧ v ≠ []) ⟨fun h => ⟨h.1, h.2⟩, fun h => ⟨h.1, h.2⟩⟩

variable {v : Text}

theorem IsPlain.apart (h : IsPlain v) {d : Char} (hd : d = '$' ∨ d = '}') (e : Char) (w : Text) :
    Text.Apart d e v w := by
  intro hlast
  have hplain := h d (List.mem_of_getLast? hlast)
  rcases hd with rfl | rfl
  · exact absurd rfl hplain.1
  · exact absurd rfl hplain.2.2

theorem IsFiller.apart (h : IsFiller v) (d : Char) {e : Char} (he : e = '{' ∨ e = '$')
    (x w : Text) : Text.Apart d e x (v ++ w) := by
  intro _ hhead
  obtain ⟨c, v, rfl⟩ := List.exists_cons_of_ne_nil h.ne_nil
  have hplain := h.plain c List.mem_cons_self
  cases hhead
  rcases he with rfl | rfl
  · exact absurd rfl hplain.2.1
  · exact absurd rfl hplain.1

theorem apart_opener {d e : Char} {x w : Text} (he : e ≠ '$') : Text.Apart d e x (opener ++ w) :=
  fun _ h => he (Option.some.inj h).symm

theorem apart_closer {d e : Char} {x w : Text} (he : e ≠ '}') : Text.Apart d e x (closer ++ w) :=
  fun _ h => he (Option.some.inj h).symm

/-! ## The bodies of containers -/

theorem cutLast?_opener_opener (t : Text) :
    Text.cutLast? opener ('$' :: '{' :: t) =
      match Text.cutLast? opener t with
      | none => some ([], t)
      | some (before, after) => some ('$' :: '{' :: before, after) := by
  unfold opener
  rw [Text.cutLast?, Text.cutLast?_pair_cons (by rintro _ ⟨⟩)]
  cases Text.cutLast? ['$', '{'] t with
  | some found => rfl
  | none => exact if_pos (by simp)

/-- The innermost opener is the last one in front of the closer. -/
theorem cutLast?_opener_append (gap span : Text) :
    Text.cutLast? opener (gap ++ opener ++ span) = some (innermost gap span) := by
  have hspan : Text.cutLast? opener (opener ++ span) = some (innermost [] span) := by
    show Text.cutLast? opener ('$' :: '{' :: span) = _
    rw [cutLast?_opener_opener]
    unfold innermost
    cases Text.cutLast? opener span <;> rfl
  rw [List.append_assoc, Text.cutLast?_append_left hspan]
  unfold innermost
  cases Text.cutLast? opener span <;> simp

/-- The innermost container with what stands in front of it reaches from the gap to the closer. -/
theorem innermost_append_text (gap span : Text) :
    (innermost gap span).1 ++ (Piece.slot (innermost gap span).2).text =
      gap ++ opener ++ span ++ closer := by
  rw [← innermost_append gap span]
  simp [Piece.text]

/-- The innermost opener has no opener behind it, and no closer if the span has none. -/
theorem isBody_innermost (gap : Text) {span : Text} (h : Text.cut? closer span = none) :
    IsBody (innermost gap span).2 := by
  unfold innermost
  split
  · rename_i before body hlast
    refine ⟨Text.cut?_eq_none_of_cutLast? (by decide) hlast, ?_⟩
    rw [← Text.append_of_cutLast? hlast] at h
    exact Text.cut?_eq_none_of_append h
  · rename_i hlast
    exact ⟨Text.cutLast?_eq_none_iff.1 hlast, h⟩

theorem isBody_of_mem_pieces {t body : Text} (h : .slot body ∈ pieces t) : IsBody body := by
  fun_induction pieces t with
  | case1 => cases List.mem_singleton.1 h
  | case2 => cases List.mem_singleton.1 h
  | case3 source gap inner ho span rest hc ih =>
    rcases List.mem_cons.1 h with he | h
    · cases he
    rcases List.mem_cons.1 h with he | h
    · cases he
      exact isBody_innermost gap (Text.cut?_before_eq_none (by decide) hc)
    · exact ih h

theorem isBody_of_mem_containers {source : Text} {c : Container} (h : c ∈ containers source) :
    IsBody c.body := by
  obtain ⟨l, body, r, hpieces, rfl⟩ := exists_of_mem_containersBehind h
  exact isBody_of_mem_pieces (hpieces ▸ List.mem_append_right l List.mem_cons_self)

/-- If an opener stands in front of the first closer of a text, the closer is the first one behind
the first opener. -/
theorem cuts_of_cut?_closer {source x rest gap span : Text}
    (hc : Text.cut? closer source = some (x, rest)) (ho : Text.cut? opener x = some (gap, span)) :
    Text.cut? opener source = some (gap, span ++ closer ++ rest) ∧
      Text.cut? closer (span ++ closer ++ rest) = some (span, rest) := by
  have hx := Text.cut?_before_eq_none (by decide) hc
  rw [← Text.append_of_cut? ho] at hx
  constructor
  · rw [← Text.append_of_cut? hc, List.append_assoc, List.append_assoc span]
    exact Text.cut?_append_right ho (closer ++ rest)
  · exact Text.cut?_pair_append (by decide) (Text.cut?_eq_none_of_append hx) rest

/-- The first container of a text is the innermost one in front of the first closer behind an
opener. -/
theorem firstContainer?_of_cuts {source gap inner span rest : Text}
    (ho : Text.cut? opener source = some (gap, inner))
    (hc : Text.cut? closer inner = some (span, rest)) :
    firstContainer? source = some ⟨(innermost gap span).1, (innermost gap span).2, rest⟩ := by
  unfold firstContainer?
  rw [pieces_of_cuts ho hc, firstContainerBehind?, firstContainerBehind?, flatMap_text_pieces,
    List.nil_append]

/-- A text in which a closer stands behind an opener has a container. -/
theorem not_isFinal_append (x z y : Text) : ¬ isFinal (x ++ opener ++ z ++ closer ++ y) = true := by
  have hsource : x ++ opener ++ z ++ closer ++ y = x ++ opener ++ (z ++ closer ++ y) := by simp
  obtain ⟨gap, inner, ho, hle⟩ := Text.exists_cut?_append opener x (z ++ closer ++ y)
  have happend := Text.append_of_cut? ho
  -- what stands behind the first opener ends with what stands behind this one
  obtain ⟨w, rfl⟩ : z ++ closer ++ y <:+ inner := by
    refine List.suffix_of_suffix_length_le (List.suffix_append (x ++ opener) _)
      ⟨gap ++ opener, happend⟩ ?_
    have hlength := congrArg List.length happend
    simp only [List.length_append] at hlength ⊢
    omega
  obtain ⟨span, rest, hc, -⟩ := Text.exists_cut?_append closer (w ++ z) y
  rw [hsource]
  unfold isFinal containerCount
  rw [pieces_of_cuts ho (by rwa [← List.append_assoc, ← List.append_assoc])]
  simp [Piece.isSlot]

end Template

end Fillout
