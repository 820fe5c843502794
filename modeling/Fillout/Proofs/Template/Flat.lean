import Fillout.Proofs.Template.Inert

set_option autoImplicit false

/-! # Flat texts

Where plain pieces and containers meet, no opener or closer comes about: the containers of a text
that is made of such clean pieces are those that it was made with (`containers_of_isClean`).

A flat text is made of plain pieces and of containers with plain bodies that offer nothing but bare
variables. A text that comes from filling one of its containers with a flat text is flat.
-/

namespace Fillout

/-! ## Cutting where the needle starts -/

namespace Text

theorem isPrefixOf_cons_of_ne {d c : Char} (h : d ≠ c) (needle t : Text) :
    (d :: needle).isPrefixOf (c :: t) = false := by
  rw [List.isPrefixOf_cons_cons, beq_eq_false_iff_ne.2 h, Bool.false_and]

theorem cut?_eq_none {d : Char} {t : Text} (h : d ∉ t) (needle : Text) :
    cut? (d :: needle) t = none := by
  induction t with
  | nil => rfl
  | cons c t ih =>
      obtain ⟨hc, ht⟩ := List.ne_and_not_mem_of_not_mem_cons h
      rw [cut?, isPrefixOf_cons_of_ne hc, ih ht]
      rfl

theorem cut?_cons_eq_none {needle t : Text} {c : Char} (h : cut? needle (c :: t) = none) :
    ¬ needle.isPrefixOf (c :: t) = true ∧ cut? needle t = none := by
  rw [cut?] at h
  split at h
  · cases h
  · exact ⟨‹_›, Option.map_eq_none_iff.1 h⟩

theorem cutLast?_eq_none {needle t : Text} (h : cut? needle t = none) :
    cutLast? needle t = none := by
  induction t with
  | nil => exact h
  | cons c t ih =>
      obtain ⟨hpre, ht⟩ := cut?_cons_eq_none h
      rw [cutLast?, ih ht]
      exact if_neg hpre

/-- A needle is found behind a text that its first character is not in. -/
theorem cut?_append {d : Char} {t : Text} (h : d ∉ t) (needle rest : Text) :
    cut? (d :: needle) (t ++ (d :: needle) ++ rest) = some (t, rest) := by
  induction t with
  | nil =>
      have hstart : (d :: needle).isPrefixOf (d :: (needle ++ rest)) = true :=
        List.isPrefixOf_iff_prefix.2 (List.prefix_append (d :: needle) rest)
      show cut? (d :: needle) (d :: (needle ++ rest)) = some ([], rest)
      rw [cut?, if_pos hstart]
      simp
  | cons c t ih =>
      obtain ⟨hc, ht⟩ := List.ne_and_not_mem_of_not_mem_cons h
      show cut? (d :: needle) (c :: (t ++ (d :: needle) ++ rest)) = some (c :: t, rest)
      rw [cut?, isPrefixOf_cons_of_ne hc, ih ht]
      rfl

/-- A needle of two characters is found behind a text that it is not in: it does not begin at the
end of the text, because its characters differ. -/
theorem cut?_pair_append {d e : Char} (hne : e ≠ d) {t : Text} (h : cut? [d, e] t = none)
    (rest : Text) : cut? [d, e] (t ++ [d, e] ++ rest) = some (t, rest) := by
  induction t with
  | nil => exact if_pos (by simp)
  | cons c t ih =>
      obtain ⟨hpre, ht⟩ := cut?_cons_eq_none h
      have hlong : ¬ [d, e].isPrefixOf (c :: (t ++ [d, e] ++ rest)) = true := by
        cases t with
        | nil => simp [hne]
        | cons c' t => simpa using hpre
      rw [List.cons_append, List.cons_append, cut?, if_neg hlong, ih ht]
      rfl

end Text

namespace Template

/-! ## Plain, clean and flat -/

/-- A text without the characters that delimiters are made of. -/
def IsPlain (t : Text) : Prop := ∀ c ∈ t, c ≠ '$' ∧ c ≠ '{' ∧ c ≠ '}'

instance (t : Text) : Decidable (IsPlain t) := List.decidableBAll _ t

theorem isPlain_nil : IsPlain [] := fun _ hc => nomatch hc

theorem IsPlain.append {s t : Text} (hs : IsPlain s) (ht : IsPlain t) : IsPlain (s ++ t) := by
  intro c hc
  rcases List.mem_append.1 hc with hc | hc
  · exact hs c hc
  · exact ht c hc

theorem IsPlain.not_mem {t : Text} (h : IsPlain t) : '$' ∉ t ∧ '}' ∉ t :=
  ⟨fun hm => (h _ hm).1 rfl, fun hm => (h _ hm).2.2 rfl⟩

/-- A text with neither an opener nor a closer in it. -/
def IsBody (t : Text) : Prop := Text.cut? opener t = none ∧ Text.cut? closer t = none

instance (t : Text) : Decidable (IsBody t) := inferInstanceAs (Decidable (_ ∧ _))

theorem IsPlain.isBody {t : Text} (h : IsPlain t) : IsBody t :=
  ⟨Text.cut?_eq_none h.not_mem.1 _, Text.cut?_eq_none h.not_mem.2 _⟩

/-- Plain text is a clean piece, and so is a container with any body that a container can have. -/
def Piece.IsClean : Piece → Prop
  | plain t => IsPlain t
  | slot body => IsBody body

instance : DecidablePred Piece.IsClean
  | .plain t => inferInstanceAs (Decidable (IsPlain t))
  | .slot body => inferInstanceAs (Decidable (IsBody body))

/-- Whether an entry is a bare variable. -/
def Entry.isVariable : Entry → Bool
  | .variable _ => true
  | .expression _ => false

/-- Plain text is a flat piece, and so is a container with a plain body whose entries are all bare
variables. -/
def Piece.IsFlat : Piece → Prop
  | plain t => IsPlain t
  | slot body => IsPlain body ∧ ∀ e ∈ entries body, e.isVariable

instance : DecidablePred Piece.IsFlat
  | .plain t => inferInstanceAs (Decidable (IsPlain t))
  | .slot body => inferInstanceAs (Decidable (IsPlain body ∧ ∀ e ∈ entries body, e.isVariable))

theorem Piece.IsFlat.isClean {p : Piece} (h : p.IsFlat) : p.IsClean := by
  cases p with
  | plain t => exact h
  | slot body => exact IsPlain.isBody h.1

/-- A text is flat if it is a concatenation of flat pieces. -/
def IsFlat (t : Text) : Prop :=
  ∃ ps : List Piece, (∀ p ∈ ps, p.IsFlat) ∧ ps.flatMap Piece.text = t

theorem IsPlain.isFlat {t : Text} (h : IsPlain t) : IsFlat t :=
  ⟨[.plain t], by simpa [Piece.IsFlat] using h, by simp [Piece.text]⟩

theorem IsFlat.append {s t : Text} (hs : IsFlat s) (ht : IsFlat t) : IsFlat (s ++ t) := by
  obtain ⟨ps, hps, rfl⟩ := hs
  obtain ⟨rs, hrs, rfl⟩ := ht
  refine ⟨ps ++ rs, fun p hp => ?_, List.flatMap_append⟩
  rcases List.mem_append.1 hp with hp | hp
  · exact hps p hp
  · exact hrs p hp

/-! ## The containers of clean pieces -/

theorem pieces_of_isPlain {t : Text} (h : IsPlain t) : pieces t = [.plain t] :=
  pieces_of_cut?_opener (Text.cut?_eq_none h.not_mem.1 _)

/-- The first container of a text is the one behind plain text. -/
theorem pieces_slot {x body : Text} (hx : IsPlain x) (hb : IsBody body) (rest : Text) :
    pieces (x ++ (Piece.slot body).text ++ rest) = .plain x :: .slot body :: pieces rest := by
  have ho : Text.cut? opener (x ++ (Piece.slot body).text ++ rest) =
      some (x, body ++ closer ++ rest) := by
    rw [show x ++ (Piece.slot body).text ++ rest = x ++ opener ++ (body ++ closer ++ rest) by
      simp [Piece.text]]
    exact Text.cut?_append hx.not_mem.1 _ _
  have hc : Text.cut? closer (body ++ closer ++ rest) = some (body, rest) :=
    Text.cut?_pair_append (by decide) hb.2 rest
  have hi : innermost x body = (x, body) := by
    unfold innermost
    rw [Text.cutLast?_eq_none hb.1]
  rw [pieces_of_cuts ho hc, hi]

/-- The containers behind plain text in front of clean pieces are those of the pieces. -/
theorem containersBehind_pieces {ps : List Piece} (hps : ∀ p ∈ ps, p.IsClean) {x : Text}
    (hx : IsPlain x) (before : Text) :
    containersBehind before (pieces (x ++ ps.flatMap Piece.text)) =
      containersBehind (before ++ x) ps := by
  induction ps generalizing x before with
  | nil =>
      rw [List.flatMap_nil, List.append_nil, pieces_of_isPlain hx]
      rfl
  | cons p ps ih =>
      have hrest : ∀ p ∈ ps, p.IsClean := fun r hr => hps r (List.mem_cons_of_mem p hr)
      rw [List.flatMap_cons, ← List.append_assoc]
      cases p with
      | plain t =>
          -- Plain pieces that meet are one piece of the text, so `x` grows by `t`.
          have ht : IsPlain t := hps _ List.mem_cons_self
          rw [show x ++ (Piece.plain t).text = x ++ t from rfl, ih hrest (hx.append ht),
            containersBehind, List.append_assoc]
      | slot body =>
          have hb : IsBody body := hps (.slot body) List.mem_cons_self
          have hbehind := ih hrest isPlain_nil
            (before ++ x ++ (Piece.slot body).text)
          rw [List.nil_append, List.append_nil] at hbehind
          calc containersBehind before
                (pieces (x ++ (Piece.slot body).text ++ ps.flatMap Piece.text))
              = containersBehind before
                  (.plain x :: .slot body :: pieces (ps.flatMap Piece.text)) := by
                rw [pieces_slot hx hb]
            _ = ⟨before ++ x, body, (pieces (ps.flatMap Piece.text)).flatMap Piece.text⟩ ::
                  containersBehind (before ++ x ++ (Piece.slot body).text)
                    (pieces (ps.flatMap Piece.text)) := by
                rw [containersBehind, containersBehind]
            _ = containersBehind (before ++ x) (.slot body :: ps) := by
                rw [flatMap_text_pieces, hbehind, containersBehind]

/-- The containers of a text that is made of clean pieces are those of the pieces. -/
theorem containers_of_isClean {ps : List Piece} (hps : ∀ p ∈ ps, p.IsClean) :
    containers (ps.flatMap Piece.text) = containersBehind [] ps :=
  containersBehind_pieces hps isPlain_nil []

theorem containerCount_of_isClean {ps : List Piece} (hps : ∀ p ∈ ps, p.IsClean) :
    containerCount (ps.flatMap Piece.text) = ps.countP Piece.isSlot := by
  rw [← length_containers, containers_of_isClean hps, length_containersBehind]

theorem containers_flatMap {ps : List Piece} (hps : ∀ p ∈ ps, p.IsFlat) :
    containers (ps.flatMap Piece.text) = containersBehind [] ps :=
  containers_of_isClean fun p hp => (hps p hp).isClean

theorem containerCount_flatMap {ps : List Piece} (hps : ∀ p ∈ ps, p.IsFlat) :
    containerCount (ps.flatMap Piece.text) = ps.countP Piece.isSlot :=
  containerCount_of_isClean fun p hp => (hps p hp).isClean

/-- Final flat texts, one behind the other, are final. -/
theorem IsFlat.isFinal_append {s t : Text} (hs : IsFlat s) (ht : IsFlat t) (hfs : isFinal s)
    (hft : isFinal t) : isFinal (s ++ t) := by
  obtain ⟨ps, hps, rfl⟩ := hs
  obtain ⟨rs, hrs, rfl⟩ := ht
  have hall : ∀ p ∈ ps ++ rs, p.IsFlat := fun p hp =>
    (List.mem_append.1 hp).elim (hps p) (hrs p)
  have hfs : containerCount (ps.flatMap Piece.text) = 0 := eq_of_beq hfs
  have hft : containerCount (rs.flatMap Piece.text) = 0 := eq_of_beq hft
  rw [containerCount_flatMap hps] at hfs
  rw [containerCount_flatMap hrs] at hft
  unfold isFinal
  rw [← List.flatMap_append, containerCount_flatMap hall, List.countP_append, hfs, hft]
  rfl

/-- A container among pieces is one of the pieces, with those before and behind it. -/
theorem exists_of_mem_containersBehind {before : Text} {ps : List Piece} {c : Container}
    (h : c ∈ containersBehind before ps) : ∃ l body r, ps = l ++ .slot body :: r ∧
      c = ⟨before ++ l.flatMap Piece.text, body, r.flatMap Piece.text⟩ := by
  induction ps generalizing before with
  | nil => cases h
  | cons p ps ih =>
      have hrest : ∀ {before'}, c ∈ containersBehind before' ps → before' = before ++ p.text →
          ∃ l body r, p :: ps = l ++ .slot body :: r ∧
            c = ⟨before ++ l.flatMap Piece.text, body, r.flatMap Piece.text⟩ := by
        rintro _ hc rfl
        obtain ⟨l, body, r, rfl, rfl⟩ := ih hc
        exact ⟨p :: l, body, r, rfl, by rw [List.flatMap_cons, List.append_assoc]⟩
      cases p with
      | plain t => exact hrest h rfl
      | slot body =>
          rcases List.mem_cons.1 h with rfl | h
          · exact ⟨[], body, ps, rfl, by rw [List.flatMap_nil, List.append_nil]⟩
          · exact hrest h rfl

theorem mem_containersBehind_append (before : Text) (l : List Piece) (body : Text)
    (r : List Piece) : ⟨before ++ l.flatMap Piece.text, body, r.flatMap Piece.text⟩ ∈
      containersBehind before (l ++ .slot body :: r) := by
  induction l generalizing before with
  | nil =>
      rw [List.flatMap_nil, List.append_nil]
      exact List.mem_cons_self
  | cons p l ih =>
      rw [List.flatMap_cons, ← List.append_assoc]
      cases p with
      | plain t => exact ih (before ++ t)
      | slot b => exact List.mem_cons_of_mem _ (ih _)

/-- A container of a flat text has a flat piece for itself. -/
theorem IsFlat.slot_of_mem_containers {t : Text} (h : IsFlat t) {c : Container}
    (hc : c ∈ containers t) : (Piece.slot c.body).IsFlat := by
  obtain ⟨ps, hps, rfl⟩ := h
  rw [containers_flatMap hps] at hc
  obtain ⟨l, body, r, rfl, rfl⟩ := exists_of_mem_containersBehind hc
  exact hps _ (List.mem_append_right _ List.mem_cons_self)

/-- Pieces with no container that passes a test are passed over on the way to the first that
does. -/
theorem find?_containersBehind_append {f : Container → Bool}
    {l : List Piece} (hl : ∀ c : Container, .slot c.body ∈ l → f c = false)
    (before : Text) (rest : List Piece) :
    (containersBehind before (l ++ rest)).find? f =
      (containersBehind (before ++ l.flatMap Piece.text) rest).find? f := by
  induction l generalizing before with
  | nil => rw [List.nil_append, List.flatMap_nil, List.append_nil]
  | cons p l ih =>
      have hrest := ih fun c hc => hl c (List.mem_cons_of_mem p hc)
      rw [List.cons_append, List.flatMap_cons, ← List.append_assoc]
      cases p with
      | plain t => exact hrest (before ++ t)
      | slot body =>
          rw [containersBehind, List.find?_cons, hl ⟨before, body, _⟩ List.mem_cons_self]
          exact hrest _

theorem exists_mem_containersBehind {ps : List Piece} {body : Text} (h : .slot body ∈ ps)
    (before : Text) : ∃ c ∈ containersBehind before ps, c.body = body := by
  obtain ⟨l, r, rfl⟩ := List.append_of_mem h
  exact ⟨_, mem_containersBehind_append before l body r, rfl⟩

/-- Flat pieces that make up the same text have the same containers. -/
theorem slot_mem_of_flatMap_eq {ps rs : List Piece} (hps : ∀ p ∈ ps, p.IsFlat)
    (hrs : ∀ r ∈ rs, r.IsFlat) (h : ps.flatMap Piece.text = rs.flatMap Piece.text) {body : Text}
    (hb : .slot body ∈ ps) : .slot body ∈ rs := by
  obtain ⟨c, hc, rfl⟩ := exists_mem_containersBehind hb []
  rw [← containers_flatMap hps, h, containers_flatMap hrs] at hc
  obtain ⟨l, b, r, rfl, rfl⟩ := exists_of_mem_containersBehind hc
  exact List.mem_append_right _ List.mem_cons_self

/-- The first container behind plain text is the one that follows it. -/
theorem firstContainer?_slot {x body : Text} (hx : IsPlain x) (hb : IsBody body) (rest : Text) :
    firstContainer? (x ++ (Piece.slot body).text ++ rest) = some ⟨x, body, rest⟩ := by
  unfold firstContainer?
  rw [pieces_slot hx hb, firstContainerBehind?, firstContainerBehind?, flatMap_text_pieces,
    List.nil_append]

theorem isFinal_of_isPlain {t : Text} (h : IsPlain t) : isFinal t = true := by
  unfold isFinal containerCount
  rw [pieces_of_isPlain h]
  rfl

/-- A flat text is plain, or it is plain text, a container, and a flat rest. -/
theorem IsFlat.cases {t : Text} (h : IsFlat t) :
    IsPlain t ∨ ∃ x body rest, IsPlain x ∧ (Piece.slot body).IsFlat ∧ IsFlat rest ∧
      t = x ++ (Piece.slot body).text ++ rest := by
  obtain ⟨ps, hps, rfl⟩ := h
  induction ps with
  | nil => exact .inl isPlain_nil
  | cons p ps ih =>
      have hrest : ∀ p ∈ ps, p.IsFlat := fun r hr => hps r (List.mem_cons_of_mem p hr)
      have hp : p.IsFlat := hps p List.mem_cons_self
      rw [List.flatMap_cons]
      cases p with
      | slot body =>
          exact .inr ⟨[], body, _, isPlain_nil, hp, ⟨ps, hrest, rfl⟩, rfl⟩
      | plain t =>
          have ht : IsPlain t := hp
          rcases ih hrest with hx | ⟨x, body, rest, hx, hb, hr, he⟩
          · exact .inl (ht.append hx)
          · refine .inr ⟨t ++ x, body, rest, ht.append hx, hb, hr, ?_⟩
            show t ++ ps.flatMap Piece.text = t ++ x ++ (Piece.slot body).text ++ rest
            rw [he, List.append_assoc, List.append_assoc, List.append_assoc]

/-- The first container of a flat text stands between plain text and a flat rest, and has a flat
piece for itself. -/
theorem IsFlat.firstContainer? {t : Text} (h : IsFlat t) {c : Container}
    (hc : Template.firstContainer? t = some c) :
    IsPlain c.before ∧ (Piece.slot c.body).IsFlat ∧ IsFlat c.after := by
  rcases h.cases with ht | ⟨x, body, rest, hx, hb, hr, rfl⟩
  · unfold Template.firstContainer? at hc
    rw [pieces_of_isPlain ht] at hc
    cases hc
  · rw [firstContainer?_slot hx hb.1.isBody] at hc
    cases hc
    exact ⟨hx, hb, hr⟩

end Template

end Fillout
