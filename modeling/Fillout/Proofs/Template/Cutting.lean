import Fillout.Proofs.Template.Completion
import Fillout.Proofs.Template.Spans
import Mathlib.Data.List.Nodup

set_option autoImplicit false

/-! # Cutting at a container

A text can be cut where one of its containers starts. The part in front of the cut has the
containers that stand before this one, and the part behind it has this one and those that follow, at
places that are counted from the cut; the scores of the two parts add up to the score of the text
(`cut_at_container`).

Openers without a closer may stand in front of the cut. None of them has a closer in its own part,
because the first closer behind them is that of the container, so they are plain text there as they
are in the whole (`pieces_of_mem_containers`). Behind the cut the container comes first, and as its
body has no delimiters in it, it ends at the same closer (`pieces_remainder`).

This is why the search for the best text may settle a remainder with the score in front of it:
together the two say what the text scores.
-/

namespace Fillout

namespace Template

open Text (cutBytes?)

variable {source : Text} {c : Container}

/-- A span in a text that `n` bytes have been put in front of. -/
def Span.shift (n : Nat) (sp : Span) : Span := ⟨n + sp.start, n + sp.stop, sp.body⟩

/-! ## The places of the containers among pieces -/

theorem Container.span_append (x before body after : Text) :
    Container.span ⟨x ++ before, body, after⟩ =
      (Container.span ⟨before, body, after⟩).shift x.utf8Length := by
  simp [Container.span, Container.start, Container.stop, Span.shift]

theorem Container.start_lt_stop (c : Container) : c.start < c.stop := by
  unfold Container.start Container.stop
  simp only [Text.utf8Length_append, show opener.utf8Length = 2 from rfl]
  omega

/-- Text in front of pieces shifts the places of their containers. -/
theorem map_span_shift (x before : Text) (ps : List Piece) :
    (containersBehind (x ++ before) ps).map Container.span =
      (containersBehind before ps).map fun d => d.span.shift x.utf8Length := by
  induction ps generalizing before with
  | nil => rfl
  | cons p ps ih =>
      cases p with
      | plain t => rw [containersBehind, containersBehind, List.append_assoc, ih]
      | slot body =>
          rw [containersBehind, containersBehind, List.map_cons, List.map_cons,
            List.append_assoc, ih, Container.span_append]

/-- Of pieces that follow each other, neither part has an influence on the places of the containers
in the other, but that the second part stands behind the first. -/
theorem map_span_append (before : Text) (l r : List Piece) :
    (containersBehind before (l ++ r)).map Container.span =
      (containersBehind before l).map Container.span ++
        (containersBehind (before ++ l.flatMap Piece.text) r).map Container.span := by
  induction l generalizing before with
  | nil =>
      rw [List.flatMap_nil, List.append_nil]
      rfl
  | cons p l ih =>
      rw [List.cons_append, List.flatMap_cons, ← List.append_assoc]
      cases p with
      | plain t => exact ih (before ++ t)
      | slot body => exact congrArg (_ :: ·) (ih _)

/-- No two containers of a text have the same place. -/
theorem nodup_spans (source : Text) : ((containers source).map Container.span).Nodup := by
  refine List.pairwise_map.2
    ((pairwise_containersBehind [] (pieces source)).imp fun {c d} hle he => ?_)
  have hstart : c.start = d.start := congrArg Span.start he
  have hlt := c.start_lt_stop
  omega

/-! ## The two parts -/

/-- A remainder starts with its container. -/
theorem pieces_remainder (h : IsBody c.body) :
    pieces c.remainder = .plain [] :: .slot c.body :: pieces c.after :=
  pieces_slot isPlain_nil h c.after

theorem fillScore_remainder (h : IsBody c.body) : fillScore c.remainder = fillScore c.after := by
  rw [fillScore, pieces_remainder h, scoreOf, scoreOf]
  exact Nat.zero_add _

/-- The first span of a remainder, counted from the start of the text, is that of its container. -/
theorem map_span_remainder (h : IsBody c.body) :
    (containers c.remainder).map (fun d => d.span.shift c.start) =
      c.span :: (containersBehind (c.before ++ (Piece.slot c.body).text) (pieces c.after)).map
        Container.span := by
  rw [containers, pieces_remainder h, Container.start, ← map_span_shift, containersBehind,
    containersBehind, List.append_nil, List.append_nil, flatMap_text_pieces, List.map_cons]

/-- The places of the containers of a text are those of the part in front of a container and,
shifted, those of the remainder. -/
theorem map_span_of_mem_containers (h : c ∈ containers source) :
    (containers source).map Container.span =
      (containers c.before).map Container.span ++
        (containers c.remainder).map (fun d => d.span.shift c.start) := by
  have hremainder := map_span_remainder (isBody_of_mem_containers h)
  calc (containers source).map Container.span
      = (containersBehind [] (pieces c.before ++ .slot c.body :: pieces c.after)).map
          Container.span := by
        rw [containers, pieces_of_mem_containers h]
    _ = (containersBehind [] (pieces c.before)).map Container.span ++
          (containersBehind c.before (.slot c.body :: pieces c.after)).map Container.span := by
        rw [map_span_append, List.nil_append, flatMap_text_pieces]
    _ = (containers c.before).map Container.span ++
          (containers c.remainder).map (fun d => d.span.shift c.start) := by
        rw [hremainder, containersBehind, flatMap_text_pieces, List.map_cons, containers]

/-- A text can be cut where a container starts. In front of the cut are the containers before it, at
their places; behind the cut are the container and those that follow it, at places that are counted
from the cut. The score of the text is the sum of the scores of the two parts. -/
theorem cut_at_container {cs ds : List Container} (h : containers source = cs ++ c :: ds) :
    cutBytes? c.start source = some (c.before, c.remainder) ∧
    (containers c.before).map Container.span = cs.map Container.span ∧
    (containers c.remainder).map (fun d => d.span.shift c.start) = (c :: ds).map Container.span ∧
    fillScore source = fillScore c.before + fillScore c.remainder := by
  have hmem : c ∈ containers source := by
    rw [h]
    exact List.mem_append_right cs List.mem_cons_self
  have hbody := isBody_of_mem_containers hmem
  have hspans := map_span_of_mem_containers hmem
  have hnodup := nodup_spans source
  rw [h, List.map_append, List.map_cons] at hspans hnodup
  -- no other container has its place, so both lists of places are split at the same one
  obtain ⟨hcs, hds⟩ :=
    not_or.1 (mt List.mem_append.2 (List.nodup_cons.1 (List.nodup_middle.1 hnodup)).1)
  rw [map_span_remainder hbody] at hspans ⊢
  obtain ⟨hbefore, -, hbehind⟩ := (List.append_cons_inj_of_notMem hcs hds).1 hspans
  refine ⟨cutBytes?_start hmem, hbefore.symm, ?_, ?_⟩
  · rw [List.map_cons, hbehind]
  · rw [fillScore_remainder hbody, fillScore_of_mem_containers hmem]

/-- A field in a placeholder that has no closer of its own, between two other fields. The closer of
the field takes the dollar sign of what looks like one more opener. -/
def crowdedField : Container :=
  ⟨"\x7d$\x7bä\x7d$ $\x7bx ".toList, ['b'], "\x7bc\x7d$ $\x7bd\x7d$ $".toList⟩

/-- The fields in front of the cut and behind it have their places, and the placeholder has none. -/
theorem cut_at_container_crowdedField :
    containers crowdedField.source =
      [⟨"\x7d".toList, ['ä'], " $\x7bx $\x7bb\x7d$\x7bc\x7d$ $\x7bd\x7d$ $".toList⟩] ++
        crowdedField ::
        [⟨"\x7d$\x7bä\x7d$ $\x7bx $\x7bb\x7d$\x7bc\x7d$ ".toList, ['d'], " $".toList⟩] ∧
    cutBytes? 12 crowdedField.source = some (crowdedField.before, crowdedField.remainder) ∧
    (containers crowdedField.before).map Container.span = [⟨1, 7, ['ä']⟩] ∧
    (containers crowdedField.remainder).map (fun d => d.span.shift 12) =
      [⟨12, 17, ['b']⟩, ⟨22, 27, ['d']⟩] ∧
    fillScore crowdedField.source = 2 := by
  have h : containers crowdedField.source =
      [⟨"\x7d".toList, ['ä'], " $\x7bx $\x7bb\x7d$\x7bc\x7d$ $\x7bd\x7d$ $".toList⟩] ++
        crowdedField ::
        [⟨"\x7d$\x7bä\x7d$ $\x7bx $\x7bb\x7d$\x7bc\x7d$ ".toList, ['d'], " $".toList⟩] := by
    decide +kernel
  obtain ⟨hcut, hbefore, hbehind, hscore⟩ := cut_at_container h
  refine ⟨h, hcut, hbefore.trans ?_, hbehind.trans ?_, hscore.trans ?_⟩
  · decide
  · decide
  · decide +kernel

end Template

end Fillout
