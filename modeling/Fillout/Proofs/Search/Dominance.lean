import Fillout.Proofs.Search.Completeness
import Fillout.Proofs.Search.SurveyRun
import Fillout.Proofs.Template.Score

set_option autoImplicit false

/-! # Leaving dominated remainders alone

The search for the best text leaves a remainder alone if it has looked into it behind text with at
least the same score. `Engine.fillScore_resolveBest_eq` says that this costs no score if all texts
are flat, no value depends on another search, and the limit is never met.

In a flat text, the containers that cannot be filled stay where they are, like plain text; such
pieces are called *quiet*. A text is quiet pieces in front of a rest, and filling the first
container that can be filled is filling one of the rest. Since scores add up, the search only has to
keep up with each text: to meet the same rest behind quiet pieces of at least the same score
(`KeepsUp`). It keeps up with the text it starts with, and if it keeps up with a text, then with
those that come next (`KeepsUp.fillsFirst`).
-/

namespace Fillout

/-- Two texts with the same remainder are the same from the container on if its body is plain. -/
theorem Template.eq_of_remainder_eq_of_isPlain {c d : Container} (hc : IsPlain c.body)
    (hd : IsPlain d.body) (h : c.remainder = d.remainder) :
    c.body = d.body ∧ c.after = d.after := by
  have hfirst : ∀ {b : Container}, IsPlain b.body →
      firstContainer? b.remainder = some ⟨[], b.body, b.after⟩ := by
    intro b hb
    exact firstContainer?_slot isPlain_nil hb.isBody b.after
  have hsame := hfirst hc
  rw [h, hfirst hd] at hsame
  cases c
  cases d
  cases hsame
  exact ⟨rfl, rfl⟩

namespace Query

open Template (Piece scoreOf fillScore)

variable {q : Query} {source : Text} {s : Survey}

/-! ## Quiet pieces -/

/-- Flat pieces that cannot be filled. -/
def AreQuiet (q : Query) (ps : List Piece) : Prop :=
  (∀ p ∈ ps, p.IsFlat) ∧ ∀ b, .slot b ∈ ps → ∀ v, ¬ q.Yields b v

theorem areQuiet_nil : q.AreQuiet [] := ⟨fun _ hp => (nomatch hp), fun _ hb => nomatch hb⟩

theorem AreQuiet.append {l l' : List Piece} (hl : q.AreQuiet l) (hl' : q.AreQuiet l') :
    q.AreQuiet (l ++ l') := by
  refine ⟨List.forall_mem_append.2 ⟨hl.1, hl'.1⟩, fun b hb => ?_⟩
  rcases List.mem_append.1 hb with hb | hb
  · exact hl.2 b hb
  · exact hl'.2 b hb

theorem AreQuiet.of_cons {p : Piece} {l : List Piece} (h : q.AreQuiet (p :: l)) : q.AreQuiet l :=
  ⟨fun r hr => h.1 r (List.mem_cons_of_mem p hr), fun b hb => h.2 b (List.mem_cons_of_mem p hb)⟩

/-- Plain text is quiet. -/
theorem areQuiet_plain {t : Text} (h : Template.IsPlain t) : q.AreQuiet [.plain t] := by
  refine ⟨List.forall_mem_singleton.2 h, fun b hb => ?_⟩
  cases List.mem_singleton.1 hb

/-- A container with nothing to put in its place is quiet. -/
theorem areQuiet_slot {body : Text} (h : (Piece.slot body).IsFlat)
    (hbody : ∀ v, ¬ q.Yields body v) : q.AreQuiet [.slot body] := by
  refine ⟨List.forall_mem_singleton.2 h, fun b hb => ?_⟩
  cases List.mem_singleton.1 hb
  exact hbody

/-! ## The first container that can be filled -/

/-- A container with a flat body can be filled if there is a value to put in its place. -/
theorem fillable_iff {c : Template.Container} (hb : (Piece.slot c.body).IsFlat) :
    q.canFill c = true ↔ ∃ v, q.Yields c.body v := by
  rw [canFill, Bool.not_eq_true', List.isEmpty_eq_false_iff_exists_mem]
  constructor
  · rintro ⟨w, hw⟩
    obtain ⟨v, hv, -⟩ := yields_of_mem_plainSteps hb hw
    exact ⟨v, hv⟩
  · rintro ⟨v, hv⟩
    obtain ⟨w, hw, -⟩ := mem_plainSteps hv
    exact ⟨w, hw⟩

/-- Quiet pieces are passed over on the way to the first container that can be filled. -/
theorem find?_containersBehind_append {l : List Piece} (hl : q.AreQuiet l) (before : Text)
    (rest : List Piece) :
    (Template.containersBehind before (l ++ rest)).find? q.canFill =
      (Template.containersBehind (before ++ l.flatMap Piece.text) rest).find? q.canFill := by
  refine Template.find?_containersBehind_append (fun c hc => ?_) before rest
  rw [← Bool.not_eq_true, fillable_iff (hl.1 _ hc)]
  rintro ⟨v, hv⟩
  exact hl.2 c.body hc v hv

/-- The first container that can be filled among flat pieces stands behind quiet ones. -/
theorem exists_of_find?_containersBehind {ps : List Piece} (hps : ∀ p ∈ ps, p.IsFlat)
    {before : Text} {c : Template.Container}
    (hc : (Template.containersBehind before ps).find? q.canFill = some c) :
    ∃ l body r, ps = l ++ .slot body :: r ∧ q.AreQuiet l ∧
      c = ⟨before ++ l.flatMap Piece.text, body, r.flatMap Piece.text⟩ := by
  induction ps generalizing before with
  | nil => cases hc
  | cons p ps ih =>
      have hp : p.IsFlat := hps p List.mem_cons_self
      -- A quiet piece is put in front of those that are found to be quiet behind it.
      have hpass : q.AreQuiet [p] →
          (Template.containersBehind (before ++ p.text) ps).find? q.canFill = some c →
          ∃ l body r, p :: ps = l ++ .slot body :: r ∧ q.AreQuiet l ∧
            c = ⟨before ++ l.flatMap Piece.text, body, r.flatMap Piece.text⟩ := by
        intro hquiet hc
        obtain ⟨l, body, r, rfl, hl, rfl⟩ := ih (fun r hr => hps r (List.mem_cons_of_mem p hr)) hc
        exact ⟨p :: l, body, r, rfl, hquiet.append hl,
          by rw [List.flatMap_cons, List.append_assoc]⟩
      cases p with
      | plain t => exact hpass (areQuiet_plain hp) hc
      | slot body =>
          rw [Template.containersBehind] at hc
          by_cases hv : ∃ v, q.Yields body v
          · rw [List.find?_cons_of_pos ((fillable_iff hp).2 hv)] at hc
            cases hc
            exact ⟨[], body, ps, rfl, areQuiet_nil, by rw [List.flatMap_nil, List.append_nil]⟩
          · rw [List.find?_cons_of_neg (fun h => hv ((fillable_iff hp).1 h))] at hc
            exact hpass (areQuiet_slot hp fun v h => hv ⟨v, h⟩) hc

/-- In a text of flat pieces behind quiet ones, the first container that can be filled is one of the
pieces behind, with quiet pieces before it. -/
theorem exists_of_firstFillable? {l rest : List Piece} (hl : q.AreQuiet l)
    (hrest : ∀ p ∈ rest, p.IsFlat) {c : Template.Container}
    (hc : q.firstFillable? ((l ++ rest).flatMap Piece.text) = some c) :
    ∃ l₂ body r, rest = l₂ ++ .slot body :: r ∧ q.AreQuiet l₂ ∧
      c = ⟨(l ++ l₂).flatMap Piece.text, body, r.flatMap Piece.text⟩ := by
  unfold firstFillable? at hc
  rw [Template.containers_flatMap (List.forall_mem_append.2 ⟨hl.1, hrest⟩),
    find?_containersBehind_append hl, List.nil_append] at hc
  obtain ⟨l₂, body, r, rfl, hl₂, rfl⟩ := exists_of_find?_containersBehind hrest hc
  exact ⟨l₂, body, r, rfl, hl₂, by rw [List.flatMap_append]⟩

/-- The container behind quiet pieces is the first one that can be filled, if it can be filled. -/
theorem firstFillable?_append {l r : List Piece} {body v : Text} (hl : q.AreQuiet l)
    (hb : (Piece.slot body).IsFlat) (hr : ∀ p ∈ r, p.IsFlat) (hv : q.Yields body v) :
    q.firstFillable? ((l ++ .slot body :: r).flatMap Piece.text) =
      some ⟨l.flatMap Piece.text, body, r.flatMap Piece.text⟩ := by
  have hps : ∀ p ∈ l ++ .slot body :: r, p.IsFlat :=
    List.forall_mem_append.2 ⟨hl.1, List.forall_mem_cons.2 ⟨hb, hr⟩⟩
  unfold firstFillable?
  rw [Template.containers_flatMap hps, find?_containersBehind_append hl, List.nil_append,
    Template.containersBehind]
  exact List.find?_cons_of_pos ((fillable_iff hb).2 ⟨v, hv⟩)

/-- Filling the first container that can be filled, in a text of flat pieces behind quiet ones, puts
flat pieces in the place of one of the pieces behind. -/
theorem FillsFirst.exists_pieces (h : q.IsFlat) {l rest : List Piece} (hl : q.AreQuiet l)
    (hrest : ∀ p ∈ rest, p.IsFlat) {t : Text}
    (hst : q.FillsFirst ((l ++ rest).flatMap Piece.text) t) :
    ∃ l₂ body r vs, rest = l₂ ++ .slot body :: r ∧ q.AreQuiet l₂ ∧ (∀ p ∈ vs, p.IsFlat) ∧
      q.Yields body (vs.flatMap Piece.text) ∧
      t = (l ++ l₂ ++ (vs ++ r)).flatMap Piece.text := by
  obtain ⟨c, hc, w, hw, rfl⟩ := hst
  obtain ⟨l₂, body, r, rfl, hl₂, rfl⟩ := exists_of_firstFillable? hl hrest hc
  have hb : (Piece.slot body).IsFlat := hrest _ (List.mem_append_right _ List.mem_cons_self)
  obtain ⟨v, hv, he⟩ := yields_of_mem_plainSteps hb hw
  obtain ⟨vs, hvs, rfl⟩ := hv.isFlat h
  refine ⟨l₂, body, r, vs, rfl, hl₂, hvs, hv, ?_⟩
  rw [he, Template.Container.substitute, List.append_assoc, ← List.flatMap_append,
    ← List.flatMap_append]

/-- Filling the first container that can be filled is one of the ways of filling a container. -/
theorem FillsFirst.rewrites (h : q.IsFlat) {t u : Text} (ht : Template.IsFlat t)
    (hst : q.FillsFirst t u) : q.Rewrites t u := by
  obtain ⟨c, hc, w, hw, rfl⟩ := hst
  exact rewrites_of_mem_plainSteps h ht (mem_containers_of_firstFillable? hc) hw

/-- What is reached from a flat text by filling first containers can be made of it, and is flat. -/
theorem rewrites_of_fillsFirst (h : q.IsFlat) (hs : Template.IsFlat source) {t : Text}
    (ht : Relation.ReflTransGen q.FillsFirst source t) :
    Relation.ReflTransGen q.Rewrites source t ∧ Template.IsFlat t := by
  induction ht with
  | refl => exact ⟨.refl, hs⟩
  | tail _ hstep ih =>
      have hrw := ih.1.tail (hstep.rewrites h ih.2)
      exact ⟨hrw, isFlat_of_rewrites h hs hrw⟩

/-! ## Keeping up -/

/-- The search has met the rest of a text behind quiet pieces with at least the score of the quiet
pieces in front of it. -/
def KeepsUp (q : Query) (s : Survey) (t : Text) : Prop :=
  ∃ l l' rest, q.AreQuiet l ∧ q.AreQuiet l' ∧ (∀ p ∈ rest, p.IsFlat) ∧ scoreOf l ≤ scoreOf l' ∧
    t = (l ++ rest).flatMap Piece.text ∧ (l' ++ rest).flatMap Piece.text ∈ s.visited

theorem keepsUp_of_mem {t : Text} (ht : Template.IsFlat t) (hmem : t ∈ s.visited) :
    q.KeepsUp s t := by
  obtain ⟨ps, hps, rfl⟩ := ht
  exact ⟨[], [], ps, areQuiet_nil, areQuiet_nil, hps, Nat.le_refl _, rfl, hmem⟩

/-- If a search that has come to its end keeps up with a text, it keeps up with those that come
next. -/
theorem KeepsUp.fillsFirst (h : q.IsFlat) (hs : Template.IsFlat source)
    (hend : q.Surveyed source [] s) {t u : Text} (ht : q.KeepsUp s t) (hst : q.FillsFirst t u) :
    q.KeepsUp s u := by
  obtain ⟨l, l', rest, hl, hl', hrest, hle, rfl, hmem⟩ := ht
  obtain ⟨l₂, body, r, vs, rfl, hl₂, hvs, hv, rfl⟩ := hst.exists_pieces h hl hrest
  obtain ⟨hb, hr⟩ := List.forall_mem_cons.1 (List.forall_mem_append.1 hrest).2
  -- The search has looked into this remainder, behind text with at least as good a score.
  rw [← List.append_assoc] at hmem
  have hfirst := firstFillable?_append (hl'.append hl₂) hb hr hv
  obtain ⟨score, hscore, t, ht, d, hd, hsame, hbefore, hfilled⟩ := hend.lookedInto hmem hfirst
  -- Its text is flat too, so it has the same container and the same text behind it.
  obtain ⟨ts, hts, rfl⟩ := (rewrites_of_fillsFirst h hs (hend.reached t ht)).2
  obtain ⟨l₃, b, r₃, rfl, hl₃, rfl⟩ := exists_of_firstFillable? areQuiet_nil hts hd
  have hb₃ : (Piece.slot b).IsFlat := hts _ (List.mem_append_right _ List.mem_cons_self)
  obtain ⟨rfl, hafter⟩ := Template.eq_of_remainder_eq_of_isPlain hb₃.1 hb.1 hsame
  obtain ⟨w, hw, hmade⟩ :=
    mem_plainSteps (c := ⟨l₃.flatMap Piece.text, b, r₃.flatMap Piece.text⟩) hv
  refine ⟨l ++ l₂, l₃, vs ++ r, hl.append hl₂, hl₃, List.forall_mem_append.2 ⟨hvs, hr⟩, ?_, rfl, ?_⟩
  · calc scoreOf (l ++ l₂)
        = scoreOf l + scoreOf l₂ := Template.scoreOf_append l l₂
      _ ≤ scoreOf l' + scoreOf l₂ := Nat.add_le_add_right hle _
      _ = fillScore ((l' ++ l₂).flatMap Piece.text) := by
          rw [Template.fillScore_flatMap (hl'.append hl₂).1, Template.scoreOf_append]
      _ ≤ score := hscore
      _ = scoreOf l₃ := by
          rw [← hbefore]
          exact Template.fillScore_flatMap hl₃.1
  · have hvisited := hfilled w hw
    rw [hmade, Template.Container.substitute] at hvisited
    dsimp only at hafter
    rwa [hafter, List.append_assoc, ← List.flatMap_append, ← List.flatMap_append] at hvisited

/-- A search that has come to its end has a champion with at least the score of every text that is
reached by filling first containers. -/
theorem fillScore_le_of_fillsFirst (h : q.IsFlat) (hs : Template.IsFlat source)
    (hend : q.Surveyed source [] s) {t : Text} (ht : Relation.ReflTransGen q.FillsFirst source t) :
    fillScore t ≤ s.champion.score := by
  have hkeeps : q.KeepsUp s t := by
    induction ht with
    | refl => exact keepsUp_of_mem hs hend.started
    | tail _ hstep ih => exact ih.fillsFirst h hs hend hstep
  obtain ⟨l, l', rest, hl, hl', hrest, hle, rfl, hmem⟩ := hkeeps
  calc fillScore ((l ++ rest).flatMap Piece.text)
      = scoreOf l + scoreOf rest := by
        rw [Template.fillScore_flatMap (List.forall_mem_append.2 ⟨hl.1, hrest⟩),
          Template.scoreOf_append]
    _ ≤ scoreOf l' + scoreOf rest := Nat.add_le_add_right hle _
    _ = fillScore ((l' ++ rest).flatMap Piece.text) := by
        rw [Template.fillScore_flatMap (List.forall_mem_append.2 ⟨hl'.1, hrest⟩),
          Template.scoreOf_append]
    _ ≤ s.champion.score := hend.leads.best _ hmem

/-- Two searches that come to their ends without meeting the limit find texts with the same score,
whichever sound tests they use. -/
theorem fillScore_champion_eq (h : q.IsFlat) (hs : Template.IsFlat source) {left : Nat}
    {cache : Cache} {skips skips' : SkipTest} (hskips : skips.IsSound) (hskips' : skips'.IsSound)
    (hwithin : q.staysWithin skips [⟨source, left⟩] (.start source) cache = true)
    (hwithin' : q.staysWithin skips' [⟨source, left⟩] (.start source) cache = true) :
    fillScore (q.surveyBy skips [⟨source, left⟩] (.start source) cache).champion.text =
      fillScore (q.surveyBy skips' [⟨source, left⟩] (.start source) cache).champion.text := by
  have hend := surveyed_of_staysWithin h.isDirect hskips hwithin
  have hend' := surveyed_of_staysWithin h.isDirect hskips' hwithin'
  refine Nat.le_antisymm ?_ ?_
  · rw [← hend'.leads.score]
    exact fillScore_le_of_fillsFirst h hs hend' (hend.reached _ hend.leads.met)
  · rw [← hend.leads.score]
    exact fillScore_le_of_fillsFirst h hs hend (hend'.reached _ hend'.leads.met)

end Query

namespace Engine

/-- The text with the highest score that the search reaches if no remainder is left alone. -/
def resolveBestUnsettled (e : Engine) (ctx : Context) (source : Text) : Text :=
  ((e.query ctx source).surveyBy .never [⟨source, ctx.maxDepth⟩] (.start source) []).champion.text

/-- Where no rule is a date or a switch, all values and defaults and the source are flat, and
neither search meets the limit, leaving dominated remainders alone costs no score. -/
theorem fillScore_resolveBest_eq (e : Engine) (ctx : Context) (source : Text)
    (hq : (e.query ctx source).IsFlat) (hs : Template.IsFlat source)
    (hwithin : (e.query ctx source).staysWithin Settled.covers [⟨source, ctx.maxDepth⟩]
      (.start source) [] = true)
    (hwithin' : (e.query ctx source).staysWithin .never [⟨source, ctx.maxDepth⟩]
      (.start source) [] = true) :
    Template.fillScore (e.resolveBest ctx source) =
      Template.fillScore (e.resolveBestUnsettled ctx source) := by
  unfold resolveBest resolveBestUnsettled
  rw [← Query.surveyBy_covers]
  exact Query.fillScore_champion_eq hq hs SkipTest.isSound_covers SkipTest.isSound_never hwithin
    hwithin'

/-- A form with two values for the first field, the better one first, and none for the second. -/
def gapForm : Engine where
  store := (RuleStore.ofRecords
    [{ kind := .equal, pattern := ['a'], value := .literal "xx".toList },
     { kind := .equal, pattern := ['a'], value := .literal ['y'] },
     { kind := .equal, pattern := ['b'], value := .literal ['z'] }]).1
  env := .empty

/-- The fields of the form. -/
def gapFields : Text := "$\x7ba\x7d$ $\x7bg\x7d$ $\x7bb\x7d$".toList

theorem isFlat_query_gapForm (ctx : Context) (source : Text) :
    (gapForm.query ctx source).IsFlat := by
  refine Query.isFlat_of_literals ?_ ?_ fun _ _ ht => nomatch ht
  · show ∀ r ∈ gapForm.store.rules, _
    decide
  · show ∀ r ∈ gapForm.store.rules, _
    decide +kernel

theorem isFlat_gapFields : Template.IsFlat gapFields :=
  ⟨[.slot ['a'], .plain [' '], .slot ['g'], .plain [' '], .slot ['b']], by decide, rfl⟩

/-- The rest of the form is left alone behind the second value, and the gap stays in both texts. -/
theorem fillScore_resolveBest_eq_gapForm :
    (gapForm.query {} gapFields).IsFlat ∧ Template.IsFlat gapFields ∧
      (gapForm.query {} gapFields).staysWithin Settled.covers [⟨gapFields, 100⟩]
        (.start gapFields) [] = true ∧
      (gapForm.query {} gapFields).staysWithin .never [⟨gapFields, 100⟩]
        (.start gapFields) [] = true ∧
      gapForm.resolveBest {} gapFields = "xx $\x7bg\x7d$ z".toList ∧
      Template.fillScore (gapForm.resolveBest {} gapFields) =
        Template.fillScore (gapForm.resolveBestUnsettled {} gapFields) := by
  have hq := isFlat_query_gapForm {} gapFields
  have hwithin : (gapForm.query {} gapFields).staysWithin Settled.covers [⟨gapFields, 100⟩]
      (.start gapFields) [] = true := by cbv
  have hwithin' : (gapForm.query {} gapFields).staysWithin .never [⟨gapFields, 100⟩]
      (.start gapFields) [] = true := by cbv
  exact ⟨hq, isFlat_gapFields, hwithin, hwithin', by cbv,
    gapForm.fillScore_resolveBest_eq {} _ hq isFlat_gapFields hwithin hwithin'⟩

end Engine

end Fillout
