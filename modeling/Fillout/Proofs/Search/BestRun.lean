import Fillout.Proofs.Search.Derivation
import Fillout.Proofs.Search.SurveyRun

set_option autoImplicit false

/-! # Where the best text comes from

The search for the best text takes up one text after the other; what it takes up it also puts on its
stack. So the texts that it produces are those that are ever on the stack (`mem_produced_iff`), and
what holds of the nodes on the stack at all stages holds of all of them. In particular, each of them
is made from the source: one container after the other, not always the leftmost one, is replaced by
a value that is offered for one of its entries (`Making`).

The champion is kept beside the stack. What links the two is the order in which texts are taken up:
the champion has a better score than all texts before it, and no text behind it has a better one
(`Survey.LeadsFirst`). Each text that is taken up keeps this, whether it becomes the champion or
not.

`Engine.resolveBest_earliest` puts this together. No rules, values or limits are excluded.
-/

namespace Fillout

/-! ## The first of the best -/

namespace Survey

/-- The champion is the first of the texts taken up that have the highest score. -/
def LeadsFirst (s : Survey) : Prop :=
  s.champion.score = Template.fillScore s.champion.text ∧
    ∃ earlier later, s.visited.reverse = earlier ++ s.champion.text :: later ∧
      (∀ t ∈ earlier, Template.fillScore t < s.champion.score) ∧
      ∀ t ∈ later, Template.fillScore t ≤ s.champion.score

theorem leadsFirst_start (source : Text) : (start source).LeadsFirst :=
  ⟨rfl, [], [], rfl, List.forall_mem_nil _, List.forall_mem_nil _⟩

theorem LeadsFirst.mem {s : Survey} (h : s.LeadsFirst) : s.champion.text ∈ s.visited := by
  obtain ⟨-, earlier, later, hmet, -, -⟩ := h
  rw [← List.mem_reverse, hmet]
  exact List.mem_append_right _ List.mem_cons_self

theorem LeadsFirst.fillScore_le {s : Survey} (h : s.LeadsFirst) {t : Text} (ht : t ∈ s.visited) :
    Template.fillScore t ≤ s.champion.score := by
  obtain ⟨hscore, earlier, later, hmet, hearlier, hlater⟩ := h
  rw [← List.mem_reverse, hmet] at ht
  rcases List.mem_append.1 ht with ht | ht
  · exact Nat.le_of_lt (hearlier t ht)
  rcases List.mem_cons.1 ht with rfl | ht
  · exact Nat.le_of_eq hscore.symm
  · exact hlater t ht

/-- The champion is found by its score: it is the first text that has it. -/
theorem LeadsFirst.text_eq {s : Survey} (h : s.LeadsFirst) {t : Text} {earlier later : List Text}
    (hmet : s.visited = later ++ t :: earlier) (ht : Template.fillScore t = s.champion.score)
    (hearlier : ∀ u ∈ earlier, Template.fillScore u ≠ s.champion.score) : s.champion.text = t := by
  obtain ⟨hscore, before, after, hfirst, hbefore, -⟩ := h
  have hchampion : s.visited.reverse.find? (fun u => Template.fillScore u == s.champion.score) =
      some s.champion.text := by
    refine List.find?_eq_some_iff_append.2
      ⟨beq_iff_eq.2 hscore.symm, before, after, hfirst, fun u hu => ?_⟩
    rw [Bool.not_eq_true', beq_eq_false_iff_ne]
    exact Nat.ne_of_lt (hbefore u hu)
  have hfound : s.visited.reverse.find? (fun u => Template.fillScore u == s.champion.score) =
      some t := by
    refine List.find?_eq_some_iff_append.2
      ⟨beq_iff_eq.2 ht, earlier.reverse, later.reverse, by simp [hmet], fun u hu => ?_⟩
    rw [Bool.not_eq_true', beq_eq_false_iff_ne]
    exact hearlier u (List.mem_reverse.1 hu)
  rw [hchampion] at hfound
  exact Option.some.inj hfound

/-- A text that is taken up becomes the champion only if it is better than all texts before it. -/
theorem LeadsFirst.record {s : Survey} (h : s.LeadsFirst) (t : Text) : (s.record t).LeadsFirst := by
  have hreverse : (s.record t).visited.reverse = s.visited.reverse ++ [t] := List.reverse_cons
  by_cases hlt : s.champion.score < Template.fillScore t
  · have hnew : (s.record t).champion = ⟨t, Template.fillScore t⟩ := if_pos hlt
    refine ⟨by rw [hnew], s.visited.reverse, [], ?_, ?_, List.forall_mem_nil _⟩
    · rw [hreverse, hnew]
    · rw [hnew]
      exact fun u hu => Nat.lt_of_le_of_lt (h.fillScore_le (List.mem_reverse.1 hu)) hlt
  · have hold : (s.record t).champion = s.champion := if_neg hlt
    obtain ⟨hscore, earlier, later, hmet, hearlier, hlater⟩ := h
    rw [LeadsFirst, hold, hreverse, hmet]
    refine ⟨hscore, earlier, later ++ [t], by simp, hearlier, ?_⟩
    refine List.forall_mem_append.2 ⟨hlater, List.forall_mem_singleton.2 ?_⟩
    exact Nat.le_of_not_lt hlt

theorem LeadsFirst.foldl_record (news : List Candidate) {s : Survey} (h : s.LeadsFirst) :
    (news.foldl (fun s v => s.record v.value) s).LeadsFirst := by
  induction news generalizing s with
  | nil => exact h
  | cons v news ih => exact ih (h.record v.value)

theorem LeadsFirst.fill {s : Survey} (h : s.LeadsFirst) (node : Node) (c : Template.Container)
    (steps : List Candidate) : (s.fill node c steps).LeadsFirst :=
  LeadsFirst.foldl_record _ h

/-- Taking up texts puts them in front of those that have been met, the last one first. -/
theorem visited_fill (s : Survey) (node : Node) (c : Template.Container) (steps : List Candidate) :
    (s.fill node c steps).visited =
      ((unseen s.visited steps).map Candidate.value).reverse ++ s.visited := by
  have hrecord : ∀ (news : List Candidate) (s : Survey),
      (news.foldl (fun s v => s.record v.value) s).visited =
        (news.map Candidate.value).reverse ++ s.visited := by
    intro news
    induction news with
    | nil => exact fun _ => rfl
    | cons v news ih =>
        intro s
        rw [List.foldl_cons, ih, List.map_cons, List.reverse_cons, List.append_assoc]
        rfl
  exact hrecord _ _

end Survey

namespace Query

variable (q : Query)

/-! ## Turns -/

/-- The first container of a node that can be filled, with the texts this leads to. The values may
depend on texts one level further down. -/
def firstStepsFrom? (node : Node) (cache : Cache) :
    Option (Template.Container × List Candidate) × Cache :=
  q.firstSteps? (q.resolveNested (node.left - 1)) (Template.containers node.text) cache

/-- A turn leaves its text alone, or it fills the first container that can be filled and takes up
what this leads to. -/
theorem surveyInto_cases (node : Node) (s : Survey) (cache : Cache) :
    q.surveyInto node s cache = ([], s, cache) ∨
      q.surveyInto node s cache = ([], s, (q.firstStepsFrom? node cache).2) ∨
      ∃ c steps, 0 < node.left ∧ (q.firstStepsFrom? node cache).1 = some (c, steps) ∧
        q.surveyInto node s cache =
          ((unseen s.visited steps).map fun v => node.child v.value, s.fill node c steps,
            (q.firstStepsFrom? node cache).2) := by
  unfold surveyInto surveyIntoBy firstStepsFrom?
  by_cases hl : node.left = 0
  · exact .inl (if_pos hl)
  · rw [if_neg hl]
    rcases q.firstSteps? (q.resolveNested (node.left - 1))
      (Template.containers node.text) cache with
      ⟨_ | ⟨c, steps⟩, cache'⟩
    · exact .inr (.inl rfl)
    · dsimp only
      split
      · exact .inr (.inl rfl)
      · refine .inr (.inr ⟨c, steps, Nat.pos_of_ne_zero hl, rfl, ?_⟩)
        rw [Survey.takeUp_eq]
        rfl

/-- The search for the best text between two turns. -/
structure SurveyStage where
  stack : List Node
  survey : Survey
  cache : Cache

/-- The stage at which the search for the best text below `source` starts. -/
def SurveyStage.start (source : Text) (left : Nat) : SurveyStage :=
  ⟨[⟨source, left⟩], .start source, []⟩

/-- The search looks into the next text. -/
inductive SurveyTurn : SurveyStage → SurveyStage → Prop
  | mk (node : Node) (rest : List Node) (s : Survey) (cache : Cache) :
      SurveyTurn ⟨node :: rest, s, cache⟩
        ⟨(q.surveyInto node s cache).1 ++ rest, (q.surveyInto node s cache).2.1,
          (q.surveyInto node s cache).2.2⟩

/-- The search gets from one stage to another in any number of turns. -/
def SurveyPasses : SurveyStage → SurveyStage → Prop := Relation.ReflTransGen q.SurveyTurn

/-- The search gets to the end of its stack. -/
theorem survey_passes (stack : List Node) (s : Survey) (cache : Cache) :
    ∃ cache', q.SurveyPasses ⟨stack, s, cache⟩ ⟨[], q.survey stack s cache, cache'⟩ := by
  induction ha : Agenda.mk stack using Agenda.wellFounded.induction generalizing stack s cache with
  | _ a ih =>
    subst ha
    cases stack with
    | nil =>
        rw [survey_nil]
        exact ⟨cache, .refl⟩
    | cons node rest =>
        obtain ⟨cache', hpasses⟩ := ih _ (.keep (q.surveyInto_smaller node s cache)) _
          (q.surveyInto node s cache).2.1 (q.surveyInto node s cache).2.2 rfl
        rw [survey_cons]
        exact ⟨cache', .head (.mk node rest s cache) hpasses⟩

variable {q} {source : Text} {left : Nat} {b : SurveyStage}

/-- What every turn keeps is kept by a whole search. -/
theorem SurveyPasses.invariant {P : SurveyStage → Prop} {a b : SurveyStage}
    (keep : ∀ {a b}, P a → q.SurveyTurn a b → P b) (run : q.SurveyPasses a b) (h : P a) : P b := by
  induction run with
  | refl => exact h
  | tail _ turn ih => exact keep ih turn

/-- No turn changes where the search comes to. -/
theorem SurveyPasses.survey_eq (run : q.SurveyPasses (.start source left) b) :
    q.survey b.stack b.survey b.cache = q.survey [⟨source, left⟩] (.start source) [] := by
  refine run.invariant (P := fun b => q.survey b.stack b.survey b.cache = _) ?_ rfl
  rintro _ _ ha ⟨node, rest, s, cache⟩
  rw [← ha]
  exact (q.survey_cons node rest s cache).symm

/-! ## What is produced -/

/-- The texts that the search for the best text produces, in order. -/
def produced (q : Query) (source : Text) (left : Nat) : List Text :=
  (q.survey [⟨source, left⟩] (.start source) []).visited.reverse

/-- A turn takes up the texts that it puts on the stack, and no others. -/
theorem mem_visited_surveyInto (node : Node) (s : Survey) (cache : Cache) {t : Text} :
    t ∈ (q.surveyInto node s cache).2.1.visited ↔
      (∃ n ∈ (q.surveyInto node s cache).1, n.text = t) ∨ t ∈ s.visited := by
  have hskip : t ∈ s.visited ↔ (∃ n ∈ ([] : List Node), n.text = t) ∨ t ∈ s.visited :=
    ⟨.inr, fun h => h.resolve_left fun ⟨_, hn, _⟩ => nomatch hn⟩
  rcases q.surveyInto_cases node s cache with he | he | ⟨c, steps, -, -, he⟩
  · rw [he]
    exact hskip
  · rw [he]
    exact hskip
  · rw [he, Survey.mem_visited_fill]
    refine or_congr_left ?_
    constructor
    · rintro ⟨v, hv, rfl⟩
      exact ⟨node.child v.value, List.mem_map_of_mem hv, rfl⟩
    · rintro ⟨n, hn, rfl⟩
      obtain ⟨v, hv, rfl⟩ := List.mem_map.1 hn
      exact ⟨v, hv, rfl⟩

theorem SurveyPasses.mem_visited {a : SurveyStage} (run : q.SurveyPasses a b) {t : Text}
    (h : t ∈ a.survey.visited) : t ∈ b.survey.visited := by
  refine run.invariant (P := fun b => t ∈ b.survey.visited) ?_ h
  rintro _ _ ht ⟨node, rest, s, cache⟩
  exact (mem_visited_surveyInto node s cache).2 (.inr ht)

/-- The texts taken up at a stage are those that have been on the stack. -/
theorem SurveyPasses.mem_visited_iff (run : q.SurveyPasses (.start source left) b) :
    (∀ n ∈ b.stack, n.text ∈ b.survey.visited) ∧
      ∀ t ∈ b.survey.visited,
        ∃ a, q.SurveyPasses (.start source left) a ∧ ∃ n ∈ a.stack, n.text = t := by
  induction run with
  | refl =>
      refine ⟨fun n hn => ?_, fun t ht => ?_⟩
      · rw [List.mem_singleton.1 hn]
        exact List.mem_cons_self
      · exact ⟨.start source left, .refl, _, List.mem_cons_self, (List.mem_singleton.1 ht).symm⟩
  | tail run turn ih =>
      obtain ⟨hstack, hmet⟩ := ih
      have hturn := run.tail turn
      obtain ⟨node, rest, s, cache⟩ := turn
      refine ⟨fun n hn => (mem_visited_surveyInto node s cache).2 ?_, fun t ht => ?_⟩
      · rcases List.mem_append.1 hn with hn | hn
        · exact .inl ⟨n, hn, rfl⟩
        · exact .inr (hstack n (List.mem_cons_of_mem node hn))
      · rcases (mem_visited_surveyInto node s cache).1 ht with ⟨n, hn, rfl⟩ | ht
        · exact ⟨_, hturn, n, List.mem_append_left rest hn, rfl⟩
        · exact hmet t ht

/-- The texts that are produced are those that are on the stack at some stage. -/
theorem mem_produced_iff {t : Text} :
    t ∈ q.produced source left ↔
      ∃ b, q.SurveyPasses (.start source left) b ∧ ∃ n ∈ b.stack, n.text = t := by
  rw [produced, List.mem_reverse]
  constructor
  · intro ht
    obtain ⟨cache', run⟩ := q.survey_passes [⟨source, left⟩] (.start source) []
    exact run.mem_visited_iff.2 t ht
  · rintro ⟨b, run, n, hn, rfl⟩
    obtain ⟨cache', hend⟩ := q.survey_passes b.stack b.survey b.cache
    rw [← run.survey_eq]
    exact hend.mem_visited (run.mem_visited_iff.1 n hn)

/-! ## How it is made -/

/-- From `source`, with `left` levels, one container after the other is replaced by a value offered
for one of its entries, in a text that has levels left. Each of these steps is one of those that the
search gets when it looks into the text. -/
inductive Making (q : Query) (source : Text) (left : Nat) : Node → Prop
  | start : Making q source left ⟨source, left⟩
  | step {node : Node} {c : Template.Container} {v : Candidate} {rest : List Node} {s : Survey}
      {cache : Cache} {steps : List Candidate} (hnode : Making q source left node)
      (hl : 0 < node.left) (hc : c ∈ Template.containers node.text) (hv : q.Fills q.Resolves c v)
      (hpass : q.SurveyPasses (.start source left) ⟨node :: rest, s, cache⟩)
      (hsteps : (q.firstStepsFrom? node cache).1 = some (c, steps))
      (hmem : ⟨c.substitute v.value, v.rule?⟩ ∈ steps) :
      Making q source left (node.child (c.substitute v.value))

/-- The first container that can be filled is one of the containers, and what this leads to are
steps. -/
theorem firstSteps?_sound {σ : Type} {nested : Nested σ} {Ok : σ → Prop} {R : Text → Text → Prop}
    (h : Sound nested Ok R) (cs : List Template.Container) {state : σ} (hs : Ok state) :
    Ok (q.firstSteps? nested cs state).2 ∧
      ∀ c steps, (q.firstSteps? nested cs state).1 = some (c, steps) →
        c ∈ cs ∧ ∀ s ∈ steps, ∃ v, q.Fills R c v ∧ s = ⟨c.substitute v.value, v.rule?⟩ := by
  induction cs generalizing state with
  | nil => exact ⟨hs, fun c steps hfound => nomatch hfound⟩
  | cons c cs ih =>
      obtain ⟨hkept, hsteps⟩ := containerSteps_sound (q := q) h c hs
      rw [firstSteps?]
      rcases hfill : q.containerSteps nested c state with ⟨_ | ⟨v, vs⟩, state'⟩
      · rw [hfill] at hkept
        obtain ⟨hkept, hfound⟩ := ih hkept
        refine ⟨hkept, fun d steps hd => ?_⟩
        obtain ⟨hmem, hsteps⟩ := hfound d steps hd
        exact ⟨List.mem_cons_of_mem c hmem, hsteps⟩
      · rw [hfill] at hkept hsteps
        refine ⟨hkept, ?_⟩
        rintro _ _ ⟨⟩
        exact ⟨List.mem_cons_self, hsteps⟩

theorem firstStepsFrom?_sound (node : Node) {cache : Cache} (hc : q.CacheSound cache) :
    q.CacheSound (q.firstStepsFrom? node cache).2 ∧
      ∀ c steps, (q.firstStepsFrom? node cache).1 = some (c, steps) →
        c ∈ Template.containers node.text ∧
          ∀ s ∈ steps, ∃ v, q.Fills q.Resolves c v ∧ s = ⟨c.substitute v.value, v.rule?⟩ :=
  firstSteps?_sound (resolveNested_sound _) _ hc

/-- The source is the text that was taken up first. -/
theorem SurveyPasses.source_suffix (run : q.SurveyPasses (.start source left) b) :
    [source] <:+ b.survey.visited := by
  refine run.invariant (P := fun b => [source] <:+ b.survey.visited) ?_ (List.suffix_refl _)
  rintro _ _ ha ⟨node, rest, s, cache⟩
  rcases q.surveyInto_cases node s cache with he | he | ⟨c, steps, -, -, he⟩
  · rw [he]
    exact ha
  · rw [he]
    exact ha
  · rw [he]
    dsimp only
    rw [Survey.visited_fill]
    exact ha.trans (List.suffix_append _ _)

/-- At all stages the cache is right, the nodes on the stack are made from the source, and the
champion is the first of the best texts so far. -/
theorem SurveyPasses.making (run : q.SurveyPasses (.start source left) b) :
    q.CacheSound b.cache ∧ (∀ n ∈ b.stack, q.Making source left n) ∧ b.survey.LeadsFirst := by
  induction run with
  | refl =>
      refine ⟨.nil, fun n hn => ?_, Survey.leadsFirst_start source⟩
      rw [List.mem_singleton.1 hn]
      exact .start
  | tail run turn ih =>
      obtain ⟨node, rest, s, cache⟩ := turn
      obtain ⟨hcache, hstack, hleads⟩ := ih
      obtain ⟨hnode, hrest⟩ := List.forall_mem_cons.1 hstack
      obtain ⟨hcache', hfound⟩ := firstStepsFrom?_sound node hcache
      rcases q.surveyInto_cases node s cache with he | he | ⟨c, steps, hl, hsteps, he⟩
      · rw [he]
        exact ⟨hcache, hrest, hleads⟩
      · rw [he]
        exact ⟨hcache', hrest, hleads⟩
      · rw [he]
        obtain ⟨hc, hfills⟩ := hfound c steps hsteps
        refine ⟨hcache', List.forall_mem_append.2 ⟨fun n hn => ?_, hrest⟩, hleads.fill node c steps⟩
        obtain ⟨w, hw, rfl⟩ := List.mem_map.1 hn
        have hmem := (mem_of_mem_unseen hw).1
        obtain ⟨v, hv, rfl⟩ := hfills w hmem
        exact .step hnode hl hc hv run hsteps hmem

/-- A final text is the only one that is produced from it. -/
theorem survey_of_isFinal {t : Text} (h : Template.isFinal t = true) (left : Nat) (cache : Cache) :
    q.survey [⟨t, left⟩] (.start t) cache = .start t := by
  have hturn : q.surveyInto ⟨t, left⟩ (.start t) cache = ([], .start t, cache) := by
    unfold surveyInto surveyIntoBy
    rw [(Template.isFinal_iff t).1 h]
    exact ite_self _
  rw [survey_cons, hturn]
  exact survey_nil q _ _

end Query

namespace Engine

open Template (fillScore)

theorem isFinal_of_resolveFirst (e : Engine) {ctx : Context} {source r : Text}
    (h : e.resolveFirst ctx source = some r) : Template.isFinal r = true := by
  unfold resolveFirst Query.first at h
  split at h
  · cases h
    assumption
  · rcases hx : (e.query ctx source).explore [⟨source, ctx.maxDepth⟩] (.start source) [] with
      ⟨_ | t, origins, cache⟩
    · rw [hx] at h
      cases h
    · rw [hx] at h
      cases h
      exact (Query.explore_derivation hx).1

/-- The texts that the search for the best text produces are those that are ever on its stack. The
source is the first of them, and all of them are made from the source by replacing one container
after the other by a value that is offered. The text that is returned is the first of those with the
highest score, which is not below that of the source. A text that the search for a final text has
returned is left as it is by both searches, in every context. -/
theorem resolveBest_earliest (e : Engine) (ctx : Context) (source : Text) :
    let q := e.query ctx source
    (∀ t, t ∈ q.produced source ctx.maxDepth ↔
        ∃ b, q.SurveyPasses (.start source ctx.maxDepth) b ∧ ∃ n ∈ b.stack, n.text = t) ∧
      (q.produced source ctx.maxDepth).head? = some source ∧
      (∀ t ∈ q.produced source ctx.maxDepth, ∃ n, q.Making source ctx.maxDepth n ∧ n.text = t) ∧
      (∃ earlier later,
        q.produced source ctx.maxDepth = earlier ++ e.resolveBest ctx source :: later ∧
          (∀ t ∈ earlier, fillScore t < fillScore (e.resolveBest ctx source)) ∧
          ∀ t ∈ later, fillScore t ≤ fillScore (e.resolveBest ctx source)) ∧
      fillScore source ≤ fillScore (e.resolveBest ctx source) ∧
      ∀ r, e.resolveFirst ctx source = some r →
        ∀ ctx', e.resolveBest ctx' r = r ∧ e.resolveFirst ctx' r = some r := by
  intro q
  obtain ⟨cache, run⟩ := q.survey_passes [⟨source, ctx.maxDepth⟩] (.start source) []
  have run : q.SurveyPasses (.start source ctx.maxDepth) _ := run
  obtain ⟨hscore, earlier, later, hproduced, hearlier, hlater⟩ := run.making.2.2
  have hproduced : q.produced source ctx.maxDepth = earlier ++ e.resolveBest ctx source :: later :=
    hproduced
  have hscore : _ = fillScore (e.resolveBest ctx source) := hscore
  rw [hscore] at hearlier hlater
  have hhead : (q.produced source ctx.maxDepth).head? = some source := by
    obtain ⟨l, hl⟩ := run.source_suffix
    have hl : l ++ [source] = _ := hl
    rw [Query.produced, ← hl, List.reverse_append]
    rfl
  refine ⟨fun t => Query.mem_produced_iff, hhead, fun t ht => ?_,
    ⟨earlier, later, hproduced, hearlier, hlater⟩, ?_, fun r hr ctx' => ?_⟩
  · obtain ⟨b, run, n, hn, rfl⟩ := Query.mem_produced_iff.1 ht
    exact ⟨n, run.making.2.1 n hn, rfl⟩
  · rw [← hscore]
    exact run.making.2.2.fillScore_le (List.mem_reverse.1 (List.mem_of_head? hhead))
  · have hfinal := e.isFinal_of_resolveFirst hr
    refine ⟨?_, ?_⟩
    · unfold resolveBest
      rw [Query.survey_of_isFinal hfinal]
      rfl
    · unfold resolveFirst Query.first
      rw [if_pos hfinal]

end Engine

end Fillout
