import Fillout.Proofs.Search.Dominance
import Fillout.Proofs.Search.SideBySide

set_option autoImplicit false

/-! # How good the best text is

The search for the best text fills the first container that can be filled, and no other. A field
that can be filled for ever keeps those behind it from being filled
(`Engine.resolveBest_growingField`), and then better texts can be made of the source than the one
that is returned.

A text is *finished* if none of its containers can be filled. Whatever the order in which containers
are filled to make a finished text, the same text is reached by filling first containers
(`fillsFirst_of_rewrites`), because what a container is filled with does not depend on the text
around it. So no text that can still be finished is better than the one that is returned, if all
texts are flat, no value depends on another search, and the limit is never met
(`Engine.fillScore_le_resolveBest`). Where no value has a container, every text can be finished, and
the search stays on one level (`Engine.fillScore_le_resolveBest_of_plain`): then a field without
values does not keep the others from being filled.
-/

namespace Fillout

namespace Query

open Template (Piece scoreOf fillScore)

variable {q : Query} {source : Text}

/-! ## Finishing a text -/

/-- No container of the text can be filled. -/
def IsFinished (q : Query) (t : Text) : Prop := ∀ u, ¬ q.Rewrites t u

/-- Flat pieces are made into quiet ones: each piece stays, if it is quiet, or its container is
filled, and what takes its place is made into quiet pieces. -/
inductive Finishes (q : Query) : List Piece → List Piece → Prop
  | nil : Finishes q [] []
  | keep {p : Piece} {ps fs : List Piece} (hp : q.AreQuiet [p]) (h : Finishes q ps fs) :
      Finishes q (p :: ps) (p :: fs)
  | fill {body : Text} {vs fs ps gs : List Piece} (hb : (Piece.slot body).IsFlat)
      (hvs : ∀ p ∈ vs, p.IsFlat) (hv : q.Yields body (vs.flatMap Piece.text))
      (hfill : Finishes q vs fs) (h : Finishes q ps gs) : Finishes q (.slot body :: ps) (fs ++ gs)

namespace Finishes

variable {ps fs rs gs : List Piece}

theorem of_areQuiet (h : q.AreQuiet ps) : q.Finishes ps ps := by
  induction ps with
  | nil => exact .nil
  | cons p ps ih =>
      refine .keep ⟨fun r hr => ?_, fun b hb => ?_⟩ (ih h.of_cons)
      · rw [List.mem_singleton.1 hr]
        exact h.1 p List.mem_cons_self
      · rw [← List.mem_singleton.1 hb] at h
        exact h.2 b List.mem_cons_self

theorem areQuiet (h : q.Finishes ps fs) : q.AreQuiet fs := by
  induction h with
  | nil => exact areQuiet_nil
  | keep hp _ ih => exact hp.append ih
  | fill _ _ _ _ _ ihfill ih => exact ihfill.append ih

theorem append (h : q.Finishes ps fs) (h' : q.Finishes rs gs) :
    q.Finishes (ps ++ rs) (fs ++ gs) := by
  induction h with
  | nil => exact h'
  | keep hp _ ih => exact .keep hp ih
  | fill hb hvs hv hfill _ _ ih =>
      rw [List.append_assoc]
      exact .fill hb hvs hv hfill ih

/-- What stands in front is made into the front of the quiet pieces. -/
theorem of_append (h : q.Finishes (ps ++ rs) fs) :
    ∃ fs₁ fs₂, fs = fs₁ ++ fs₂ ∧ q.Finishes ps fs₁ ∧ q.Finishes rs fs₂ := by
  induction ps generalizing fs with
  | nil => exact ⟨[], fs, rfl, .nil, h⟩
  | cons p ps ih =>
      rw [List.cons_append] at h
      cases h with
      | keep hp h =>
          obtain ⟨fs₁, fs₂, rfl, h₁, h₂⟩ := ih h
          exact ⟨p :: fs₁, fs₂, rfl, .keep hp h₁, h₂⟩
      | fill hb hvs hv hfill h =>
          obtain ⟨gs₁, gs₂, rfl, h₁, h₂⟩ := ih h
          exact ⟨_, gs₂, (List.append_assoc _ _ _).symm, .fill hb hvs hv hfill h₁, h₂⟩

/-- Filling containers does not lower the score. -/
theorem scoreOf_le (h : q.Finishes ps fs) : scoreOf ps ≤ scoreOf fs := by
  induction h with
  | nil => exact Nat.le_refl _
  | @keep p ps fs _ _ ih =>
      calc scoreOf ([p] ++ ps)
          = scoreOf [p] + scoreOf ps := Template.scoreOf_append [p] ps
        _ ≤ scoreOf [p] + scoreOf fs := Nat.add_le_add_left ih _
        _ = scoreOf ([p] ++ fs) := (Template.scoreOf_append [p] fs).symm
  | @fill body vs fs ps gs _ _ _ _ _ _ ih =>
      calc scoreOf (.slot body :: ps)
          = scoreOf ps := rfl
        _ ≤ scoreOf gs := ih
        _ ≤ scoreOf fs + scoreOf gs := Nat.le_add_left _ _
        _ = scoreOf (fs ++ gs) := (Template.scoreOf_append fs gs).symm

end Finishes

/-- A container of flat pieces with a value to put in its place can be filled. -/
theorem exists_rewrites_of_yields (h : q.IsDirect) {ps : List Piece} (hps : ∀ p ∈ ps, p.IsFlat)
    {b v : Text} (hb : .slot b ∈ ps) (hv : q.Yields b v) :
    ∃ u, q.Rewrites (ps.flatMap Piece.text) u := by
  obtain ⟨c, hc, rfl⟩ := Template.exists_mem_containersBehind hb []
  obtain ⟨⟨key, hkey, w, hw, rfl⟩, hne⟩ := hv
  have hmem : c ∈ Template.containers (ps.flatMap Piece.text) := by
    rw [Template.containers_flatMap hps]
    exact hc
  refine ⟨c.substitute w.value, c, hmem, key, hkey, q.resolveNested 0, [], w, ?_, rfl, fun he => ?_⟩
  · rw [variableValues_eq h]
    exact hw
  · rw [← Template.source_of_mem_containers hmem] at he
    exact hne (Template.substitute_eq_source.1 he)

/-- A flat text is finished if its pieces are quiet. -/
theorem isFinished_iff (h : q.IsFlat) {ps : List Piece} (hps : ∀ p ∈ ps, p.IsFlat) :
    q.IsFinished (ps.flatMap Piece.text) ↔ q.AreQuiet ps := by
  constructor
  · intro hf
    refine ⟨hps, fun b hb v hv => ?_⟩
    obtain ⟨u, hu⟩ := exists_rewrites_of_yields h.isDirect hps hb hv
    exact hf u hu
  · intro hquiet u hu
    obtain ⟨l, body, r, vs, rfl, -, hv, -⟩ := hu.exists_pieces h hps
    exact hquiet.2 body (List.mem_append_right _ List.mem_cons_self) _ hv

/-- Flat pieces of which a finished text can be made, in whichever order, can be made into quiet
pieces that make up this text. -/
theorem finishes_of_rewrites (h : q.IsFlat) {s t : Text}
    (hst : Relation.ReflTransGen q.Rewrites s t) (ht : q.IsFinished t) {ps : List Piece}
    (hps : ∀ p ∈ ps, p.IsFlat) (hs : ps.flatMap Piece.text = s) :
    ∃ fs, q.Finishes ps fs ∧ fs.flatMap Piece.text = t := by
  induction hst using Relation.ReflTransGen.head_induction_on generalizing ps with
  | refl =>
      rw [← hs] at ht
      exact ⟨ps, .of_areQuiet ((isFinished_iff h hps).1 ht), hs⟩
  | head hstep _ ih =>
      rw [← hs] at hstep
      obtain ⟨l, body, r, vs, rfl, hvs, hv, rfl⟩ := hstep.exists_pieces h hps
      obtain ⟨hl, hr⟩ := List.forall_mem_append.1 hps
      obtain ⟨hb, hr⟩ := List.forall_mem_cons.1 hr
      obtain ⟨fs, hfs, he⟩ :=
        ih (List.forall_mem_append.2 ⟨List.forall_mem_append.2 ⟨hl, hvs⟩, hr⟩) rfl
      -- What the value is made into takes the place of the container.
      obtain ⟨fs, fs₃, rfl, hfs, h₃⟩ := hfs.of_append
      obtain ⟨fs₁, fs₂, rfl, h₁, h₂⟩ := hfs.of_append
      refine ⟨fs₁ ++ (fs₂ ++ fs₃), h₁.append (.fill hb hvs hv h₂ h₃), ?_⟩
      rw [← he, List.append_assoc]

/-- No finished text that can be made of a flat text has a lower score. -/
theorem fillScore_le_of_rewrites (h : q.IsFlat) {s t : Text} (hs : Template.IsFlat s)
    (hst : Relation.ReflTransGen q.Rewrites s t) (ht : q.IsFinished t) :
    fillScore s ≤ fillScore t := by
  obtain ⟨ps, hps, rfl⟩ := hs
  obtain ⟨fs, hfs, rfl⟩ := finishes_of_rewrites h hst ht hps rfl
  rw [Template.fillScore_flatMap hps, Template.fillScore_flatMap hfs.areQuiet.1]
  exact hfs.scoreOf_le

/-! ## Filling first containers instead -/

/-- The container behind quiet pieces is filled, if it can be filled. -/
theorem fillsFirst_append {l vs r : List Piece} {body : Text} (hl : q.AreQuiet l)
    (hb : (Piece.slot body).IsFlat) (hr : ∀ p ∈ r, p.IsFlat)
    (hv : q.Yields body (vs.flatMap Piece.text)) :
    q.FillsFirst ((l ++ .slot body :: r).flatMap Piece.text)
      ((l ++ (vs ++ r)).flatMap Piece.text) := by
  obtain ⟨w, hw, he⟩ := mem_plainSteps (c := ⟨l.flatMap Piece.text, body, r.flatMap Piece.text⟩) hv
  refine ⟨_, firstFillable?_append hl hb hr hv, w, hw, ?_⟩
  rw [he, Template.Container.substitute, List.append_assoc, ← List.flatMap_append,
    ← List.flatMap_append]

/-- Pieces behind quiet ones are made into quiet pieces by filling first containers. -/
theorem Finishes.fillsFirst {ps fs : List Piece} (h : q.Finishes ps fs) (hps : ∀ p ∈ ps, p.IsFlat)
    {l rest : List Piece} (hl : q.AreQuiet l) (hrest : ∀ p ∈ rest, p.IsFlat) :
    Relation.ReflTransGen q.FillsFirst ((l ++ (ps ++ rest)).flatMap Piece.text)
      ((l ++ (fs ++ rest)).flatMap Piece.text) := by
  induction h generalizing l rest with
  | nil => exact .refl
  | @keep p ps fs hp _ ih =>
      have hbehind := ih (List.forall_mem_cons.1 hps).2 (hl.append hp) hrest
      rw [List.append_assoc, List.append_assoc] at hbehind
      exact hbehind
  | @fill body vs fs ps gs hb hvs hv hfill _ ihfill ih =>
      have hps : ∀ p ∈ ps, p.IsFlat := (List.forall_mem_cons.1 hps).2
      have hbehind : ∀ p ∈ ps ++ rest, p.IsFlat := List.forall_mem_append.2 ⟨hps, hrest⟩
      have hstep : q.FillsFirst ((l ++ .slot body :: (ps ++ rest)).flatMap Piece.text)
          ((l ++ (vs ++ (ps ++ rest))).flatMap Piece.text) := fillsFirst_append hl hb hbehind hv
      have hvalue := ihfill hvs hl hbehind
      have hothers := ih hps (hl.append hfill.areQuiet) hrest
      rw [List.append_assoc, List.append_assoc] at hothers
      rw [List.append_assoc]
      exact .head hstep (hvalue.trans hothers)

/-- A finished text that can be made of a flat text, in whichever order, is reached by filling first
containers. -/
theorem fillsFirst_of_rewrites (h : q.IsFlat) {s t : Text} (hs : Template.IsFlat s)
    (hst : Relation.ReflTransGen q.Rewrites s t) (ht : q.IsFinished t) :
    Relation.ReflTransGen q.FillsFirst s t := by
  obtain ⟨ps, hps, rfl⟩ := hs
  obtain ⟨fs, hfs, rfl⟩ := finishes_of_rewrites h hst ht hps rfl
  have hnil : ∀ p ∈ ([] : List Piece), p.IsFlat := fun _ hp => nomatch hp
  have hrun := hfs.fillsFirst hps areQuiet_nil hnil
  rw [List.append_nil, List.append_nil] at hrun
  exact hrun

/-- A search that has come to its end has a champion with at least the score of every text that can
still be finished. -/
theorem fillScore_le_champion (h : q.IsFlat) (hs : Template.IsFlat source) {s : Survey}
    (hend : q.Surveyed source [] s) {t u : Text} (hst : Relation.ReflTransGen q.Rewrites source t)
    (htu : Relation.ReflTransGen q.Rewrites t u) (hu : q.IsFinished u) :
    fillScore t ≤ fillScore s.champion.text := by
  have ht : Template.IsFlat t := isFlat_of_rewrites h hs hst
  calc fillScore t
      ≤ fillScore u := fillScore_le_of_rewrites h ht htu hu
    _ ≤ s.champion.score :=
        fillScore_le_of_fillsFirst h hs hend (fillsFirst_of_rewrites h hs (hst.trans htu) hu)
    _ = fillScore s.champion.text := hend.leads.score

/-! ## Values without containers -/

/-- Every text can be finished. -/
theorem exists_isFinished (h : q.HasPlainValues) {s : Text} (hs : Template.IsFlat s) :
    ∃ t, Relation.ReflTransGen q.Rewrites s t ∧ q.IsFinished t := by
  induction hn : Template.containerCount s using Nat.strong_induction_on generalizing s with
  | _ n ih =>
    by_cases hf : q.IsFinished s
    · exact ⟨s, .refl, hf⟩
    · obtain ⟨u, hu⟩ := not_forall_not.1 hf
      have hlt : Template.containerCount u < n := hn ▸ hu.containerCount_lt h hs
      obtain ⟨t, hut, ht⟩ := ih _ hlt (isFlat_of_rewrites h.isFlat hs (.single hu)) rfl
      exact ⟨t, .head hu hut, ht⟩

/-- The search for the best text stays on one level. -/
theorem staysWithin_of_plainValues (h : q.HasPlainValues) (hs : Template.IsFlat source) {left : Nat}
    (hleft : left ≠ 0) (skips : SkipTest) (s : Survey) (cache : Cache) :
    q.staysWithin skips [⟨source, left⟩] s cache = true := by
  refine staysWithin_of_forall (P := fun n => Template.IsFlat n.text ∧ n.left = left)
    ?_ ?_ ?_ s cache
  · rintro node ⟨-, he⟩
    rw [he]
    exact hleft
  · rintro node s cache ⟨hflat, he⟩ n hn
    have hwithin : Template.isFinal node.text ∨ node.left ≠ 0 := .inr (he ▸ hleft)
    rcases surveyIntoBy_cases h.isFlat.isDirect skips s cache hwithin with
      ⟨-, hr⟩ | ⟨c, hc, ⟨-, hr⟩ | hr⟩
    · rw [hr] at hn
      cases hn
    · rw [hr] at hn
      cases hn
    · rw [hr] at hn
      obtain ⟨v, hv, rfl⟩ := List.mem_map.1 hn
      have hstep : q.FillsFirst node.text v.value := ⟨c, hc, v, (mem_of_mem_unseen hv).1, rfl⟩
      have hrw := hstep.rewrites h.isFlat hflat
      refine ⟨isFlat_of_rewrites h.isFlat hflat (.single hrw), ?_⟩
      rw [Node.child, if_pos (hrw.containerCount_lt h hflat)]
      exact he
  · intro n hn
    rw [List.mem_singleton.1 hn]
    exact ⟨hs, rfl⟩

/-! ## Steps within the limit -/

/-- A container of a text that has levels left is filled. The new text stays on the level of the
other one, or it opens a level. -/
def RewritesWithin (q : Query) (a b : Node) : Prop :=
  a.left ≠ 0 ∧ q.Rewrites a.text b.text ∧ b = a.child b.text

end Query

namespace Engine

open Template (fillScore)

/-- Where no rule is a date or a switch, all values and defaults and the source are flat, and the
search never meets the limit, the text that is returned can be made of the source, and no text that
can be made of it, in whichever order its containers are filled, and that can still be finished, has
a higher score. -/
theorem fillScore_le_resolveBest (e : Engine) (ctx : Context) (source : Text)
    (hq : (e.query ctx source).IsFlat) (hs : Template.IsFlat source)
    (hwithin : (e.query ctx source).staysWithin Settled.covers [⟨source, ctx.maxDepth⟩]
      (.start source) [] = true) :
    Relation.ReflTransGen (e.query ctx source).Rewrites source (e.resolveBest ctx source) ∧
      ∀ t u, Relation.ReflTransGen (e.query ctx source).Rewrites source t →
        Relation.ReflTransGen (e.query ctx source).Rewrites t u →
        (e.query ctx source).IsFinished u → fillScore t ≤ fillScore (e.resolveBest ctx source) := by
  have hend := Query.surveyed_of_staysWithin hq.isDirect SkipTest.isSound_covers hwithin
  rw [Query.surveyBy_covers] at hend
  refine ⟨(Query.rewrites_of_fillsFirst hq hs (hend.reached _ hend.leads.met)).1, ?_⟩
  intro t u hst htu hu
  exact Query.fillScore_le_champion hq hs hend hst htu hu

/-- Two fields are filled, one by way of the other, and the gap between them stays. -/
theorem fillScore_le_resolveBest_twoFields :
    (twoFields.query {} gapFields).IsFlat ∧ Template.IsFlat gapFields ∧
      (twoFields.query {} gapFields).staysWithin Settled.covers [⟨gapFields, 100⟩]
        (.start gapFields) [] = true ∧
      twoFields.resolveBest {} gapFields = "x $\x7bg\x7d$ x".toList ∧
      (twoFields.query {} gapFields).IsFinished "x $\x7bg\x7d$ x".toList ∧
      Relation.ReflTransGen (twoFields.query {} gapFields).Rewrites gapFields
          (twoFields.resolveBest {} gapFields) ∧
        ∀ t u, Relation.ReflTransGen (twoFields.query {} gapFields).Rewrites gapFields t →
          Relation.ReflTransGen (twoFields.query {} gapFields).Rewrites t u →
          (twoFields.query {} gapFields).IsFinished u →
            fillScore t ≤ fillScore (twoFields.resolveBest {} gapFields) := by
  have hq := isFlat_query_twoFields {} gapFields
  have hwithin : (twoFields.query {} gapFields).staysWithin Settled.covers [⟨gapFields, 100⟩]
      (.start gapFields) [] = true := by cbv
  have hgap : ∀ v, ¬ (twoFields.query {} gapFields).Yields ['g'] v := by
    rintro v ⟨⟨key, hkey, w, hw, -⟩, -⟩
    have hentries : Template.entries ['g'] = [.variable ['g']] := by decide +kernel
    rw [hentries, List.mem_singleton, Template.Entry.variable.injEq] at hkey
    have hnone : (twoFields.query {} gapFields).plainValues ['g'] = [] := by cbv
    rw [hkey, hnone] at hw
    cases hw
  have hquiet : (twoFields.query {} gapFields).AreQuiet
      ([.plain "x ".toList] ++ ([.slot ['g']] ++ [.plain " x".toList])) :=
    (Query.areQuiet_plain (by decide)).append
      ((Query.areQuiet_slot (by decide) hgap).append (Query.areQuiet_plain (by decide)))
  refine ⟨hq, isFlat_gapFields, hwithin, by cbv, ?_, ?_⟩
  · exact (Query.isFinished_iff hq hquiet.1).2 hquiet
  · exact twoFields.fillScore_le_resolveBest {} gapFields hq isFlat_gapFields hwithin

/-- A field whose value has the field itself in it, and another one. -/
def growingField : Engine where
  store := (RuleStore.ofRecords
    [{ kind := .equal, pattern := ['a'], value := .literal "1$\x7ba\x7d$".toList },
     { kind := .equal, pattern := ['c'], value := .literal ['x'] }]).1
  env := .empty

/-- The two fields, side by side. -/
def growingFields : Text := "$\x7ba\x7d$ $\x7bc\x7d$".toList

/-- The first field uses up the levels, and the other one is not filled, although it could have
been: the text with both of them filled is not found. -/
theorem resolveBest_growingField :
    growingField.resolveBest { maxDepth := 1 } growingFields = "1$\x7ba\x7d$ $\x7bc\x7d$".toList ∧
      Relation.ReflTransGen (growingField.query { maxDepth := 1 } growingFields).RewritesWithin
        ⟨growingFields, 1⟩ ⟨"1$\x7ba\x7d$ x".toList, 0⟩ ∧
      fillScore "1$\x7ba\x7d$ $\x7bc\x7d$".toList < fillScore "1$\x7ba\x7d$ x".toList := by
  -- The other field is filled first, which opens no level, and then the growing one.
  have hother : (growingField.query { maxDepth := 1 } growingFields).RewritesWithin
      ⟨growingFields, 1⟩ ⟨"$\x7ba\x7d$ x".toList, 1⟩ := by
    refine ⟨by decide,
      ⟨⟨"$\x7ba\x7d$ ".toList, ['c'], []⟩, ?_, ['c'], ?_, fun _ cache => (none, cache),
      [], ⟨['x'], some (.ordinary 2)⟩, ?_, rfl, by decide⟩, ?_⟩
    · decide +kernel
    · decide +kernel
    · decide +kernel
    · cbv
  have hgrowing : (growingField.query { maxDepth := 1 } growingFields).RewritesWithin
      ⟨"$\x7ba\x7d$ x".toList, 1⟩ ⟨"1$\x7ba\x7d$ x".toList, 0⟩ := by
    refine ⟨by decide, ⟨⟨[], ['a'], " x".toList⟩, ?_, ['a'], ?_, fun _ cache => (none, cache),
      [], ⟨"1$\x7ba\x7d$".toList, some (.ordinary 1)⟩, ?_, rfl, by decide⟩, ?_⟩
    · decide +kernel
    · decide +kernel
    · decide +kernel
    · cbv
  exact ⟨by cbv, .tail (.single hother) hgrowing, by cbv⟩

/-- Where no rule is a date or a switch, the source is flat, and no value or default has a
container, no text that can be made of the source, in whichever order its containers are filled, has
a higher score than the one that is returned, under every limit but zero. -/
theorem fillScore_le_resolveBest_of_plain (e : Engine) (ctx : Context) (source : Text)
    (hq : (e.query ctx source).HasPlainValues) (hs : Template.IsFlat source)
    (hlimit : ctx.maxDepth ≠ 0) {t : Text}
    (ht : Relation.ReflTransGen (e.query ctx source).Rewrites source t) :
    fillScore t ≤ fillScore (e.resolveBest ctx source) := by
  have hwithin := Query.staysWithin_of_plainValues hq hs hlimit Settled.covers (.start source) []
  have hend := Query.surveyed_of_staysWithin hq.isFlat.isDirect SkipTest.isSound_covers hwithin
  rw [Query.surveyBy_covers] at hend
  obtain ⟨u, htu, hu⟩ := Query.exists_isFinished hq (Query.isFlat_of_rewrites hq.isFlat hs ht)
  exact Query.fillScore_le_champion hq.isFlat hs hend ht htu hu

end Engine

end Fillout
