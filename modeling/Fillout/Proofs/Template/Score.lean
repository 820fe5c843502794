import Fillout.Proofs.Template.Flat

set_option autoImplicit false

/-! # The score of clean pieces

The score of a text that is made of clean pieces is the number of letters and digits in the plain
ones among them (`fillScore_of_isClean`), wherever these meet, and it adds up along the pieces
(`scoreOf_append`).
-/

namespace Fillout

namespace Template

theorem alphanumericCount_append (s t : Text) :
    alphanumericCount (s ++ t) = alphanumericCount s + alphanumericCount t :=
  List.countP_append

theorem scoreOf_append (ps rs : List Piece) : scoreOf (ps ++ rs) = scoreOf ps + scoreOf rs := by
  induction ps with
  | nil => exact (Nat.zero_add _).symm
  | cons p ps ih =>
      cases p with
      | plain t => rw [List.cons_append, scoreOf, scoreOf, ih, Nat.add_assoc]
      | slot body => rw [List.cons_append, scoreOf, scoreOf, ih]

/-- The score of clean pieces behind plain text, read off the text that they make up. -/
theorem scoreOf_pieces {ps : List Piece} (hps : ∀ p ∈ ps, p.IsClean) {x : Text} (hx : IsPlain x) :
    scoreOf (pieces (x ++ ps.flatMap Piece.text)) = alphanumericCount x + scoreOf ps := by
  induction ps generalizing x with
  | nil =>
      rw [List.flatMap_nil, List.append_nil, pieces_of_isPlain hx]
      rfl
  | cons p ps ih =>
      have hrest : ∀ p ∈ ps, p.IsClean := fun r hr => hps r (List.mem_cons_of_mem p hr)
      rw [List.flatMap_cons, ← List.append_assoc]
      cases p with
      | plain t =>
          have ht : IsPlain t := hps _ List.mem_cons_self
          calc scoreOf (pieces (x ++ t ++ ps.flatMap Piece.text))
              = alphanumericCount (x ++ t) + scoreOf ps := ih hrest (hx.append ht)
            _ = alphanumericCount x + (alphanumericCount t + scoreOf ps) := by
                rw [alphanumericCount_append, Nat.add_assoc]
      | slot body =>
          have hb : IsBody body := hps (.slot body) List.mem_cons_self
          have hbehind := ih hrest isPlain_nil
          rw [List.nil_append] at hbehind
          rw [pieces_slot hx hb, scoreOf, scoreOf, hbehind, scoreOf]
          exact congrArg _ (Nat.zero_add _)

/-- The score of a text that is made of clean pieces is the score of the pieces. -/
theorem fillScore_of_isClean {ps : List Piece} (hps : ∀ p ∈ ps, p.IsClean) :
    fillScore (ps.flatMap Piece.text) = scoreOf ps :=
  (scoreOf_pieces hps isPlain_nil).trans (Nat.zero_add _)

theorem fillScore_flatMap {ps : List Piece} (hps : ∀ p ∈ ps, p.IsFlat) :
    fillScore (ps.flatMap Piece.text) = scoreOf ps :=
  fillScore_of_isClean fun p hp => (hps p hp).isClean

end Template

end Fillout
