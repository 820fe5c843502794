import Fillout.Proofs.Search.Offers
import Fillout.Proofs.Template.Inert

set_option autoImplicit false

/-! # Searches whose values depend on nothing

If no rule is a date or a switch, the values that are offered for a container are the same at every
time, whatever has been resolved before (`containerSteps_eq`). A search then moves along one
relation between texts: the leftmost container is filled with a value that is offered for it
(`FillsLeftmost`). All that it looks into, and what it finds, is reached by this relation
(`reaches_of_passes`, `reaches_of_first`).

Conversely, if a search is never cut at the limit and has come to its end, nothing that it has met
is final, and whatever text it has met, the texts that come next have been met for this text or for
another one with the same remainder (`exists_looksInto_of_passes`). The two may differ in what
stands before the remainder: it takes a further argument to say that nothing is missed.
-/

namespace Fillout

namespace Query

variable (q : Query)

/-! ## Values that depend on no other search -/

/-- No rule is a date or a switch. -/
def IsDirect (q : Query) : Prop :=
  ∀ r ∈ q.store.rules, r.body.kind ≠ .date ∧ r.body.kind ≠ .switch

/-- The values for a variable when all rules offer their plain values. -/
def plainValues (key : Text) : List Candidate :=
  let values := (select q.store q.ctx key).filterMap fun m =>
    (q.plainValue? m.rule).map fun t => ⟨t, some m.rule.id⟩
  let last := ((q.env.defaultFor? key q.ctx).map fun t => ⟨t, none⟩).toList
  (values ++ last).filter fun c => c.value ≠ key ∧ c.value ≠ q.top

/-- The values for an entry when all rules offer their plain values. -/
def plainEntryValues : Template.Entry → List Candidate
  | .variable key => q.plainValues key
  | .expression text => q.expressionValues text

/-- The texts that filling a container leads to when all rules offer their plain values. -/
def plainSteps (c : Template.Container) : List Candidate :=
  (((Template.entries c.body).flatMap q.plainEntryValues).map fun v =>
    { v with value := c.substitute v.value }).filter fun s => s.value ≠ c.source

section

variable {q} {σ : Type}

theorem ruleValues_eq {ms : List Selected}
    (h : ∀ m ∈ ms, m.rule.body.kind ≠ .date ∧ m.rule.body.kind ≠ .switch) (nested : Nested σ)
    (state : σ) :
    q.ruleValues nested ms state =
      (ms.filterMap fun m => (q.plainValue? m.rule).map fun t => ⟨t, some m.rule.id⟩, state) := by
  induction ms with
  | nil => rfl
  | cons m ms ih =>
      have hm : q.ruleValue nested m state = (q.plainValue? m.rule, state) := by
        obtain ⟨hd, hs⟩ := h m List.mem_cons_self
        unfold ruleValue
        split
        · rename_i hk
          exact absurd hk hd
        · rename_i hk
          exact absurd hk hs
        · rfl
      rw [ruleValues, hm, List.filterMap_cons]
      dsimp only
      rw [ih fun m' hm' => h m' (List.mem_cons_of_mem m hm')]
      cases q.plainValue? m.rule <;> rfl

/-- What is offered for a variable does not depend on what is known of other texts. -/
theorem variableValues_eq (h : q.IsDirect) (nested : Nested σ) (key : Text) (state : σ) :
    q.variableValues nested key state = (q.plainValues key, state) := by
  have hkinds : ∀ m ∈ select q.store q.ctx key,
      m.rule.body.kind ≠ .date ∧ m.rule.body.kind ≠ .switch := by
    intro m hm
    exact h m.rule (rule_of_mem_select hm).1
  unfold variableValues
  rw [ruleValues_eq hkinds]
  rfl

theorem entriesValues_eq (h : q.IsDirect) (nested : Nested σ) (es : List Template.Entry)
    (state : σ) : q.entriesValues nested es state = (es.flatMap q.plainEntryValues, state) := by
  induction es with
  | nil => rfl
  | cons e es ih =>
      have he : q.entryValues nested e state = (q.plainEntryValues e, state) := by
        cases e with
        | «variable» key => exact variableValues_eq h nested key state
        | expression text => rfl
      rw [entriesValues, he]
      dsimp only
      rw [ih]
      rfl

theorem containerSteps_eq (h : q.IsDirect) (nested : Nested σ) (c : Template.Container)
    (state : σ) : q.containerSteps nested c state = (q.plainSteps c, state) := by
  unfold containerSteps
  rw [entriesValues_eq h]
  rfl

/-- The steps put values for the entries of the container in its place, but for its own text. -/
theorem mem_plainSteps_iff {c : Template.Container} {s : Candidate} :
    s ∈ q.plainSteps c ↔ ∃ e ∈ Template.entries c.body, ∃ v ∈ q.plainEntryValues e,
      v.value ≠ (Template.Piece.slot c.body).text ∧
        s = { v with value := c.substitute v.value } := by
  unfold plainSteps
  constructor
  · intro hs
    obtain ⟨hs, hne⟩ := List.mem_filter.1 hs
    obtain ⟨v, hv, rfl⟩ := List.mem_map.1 hs
    obtain ⟨e, he, hv⟩ := List.mem_flatMap.1 hv
    exact ⟨e, he, v, hv, fun h => of_decide_eq_true hne (Template.substitute_eq_source.2 h), rfl⟩
  · rintro ⟨e, he, v, hv, hne, rfl⟩
    refine List.mem_filter.2 ⟨List.mem_map.2 ⟨v, List.mem_flatMap.2 ⟨e, he, hv⟩, rfl⟩, ?_⟩
    exact decide_eq_true fun h => hne (Template.substitute_eq_source.1 h)

/-- What holds of all values of rules and all defaults holds of the values for a variable. -/
theorem forall_mem_plainValues {P : Text → Prop}
    (hvalues : ∀ r ∈ q.store.rules, ∀ t, q.plainValue? r = some t → P t)
    (hdefaults : ∀ key t, q.env.defaultFor? key q.ctx = some t → P t) {key : Text} :
    ∀ v ∈ q.plainValues key, P v.value := by
  intro v hv
  obtain ⟨hv, -⟩ := List.mem_filter.1 hv
  rcases List.mem_append.1 hv with hv | hv
  · obtain ⟨m, hm, hmap⟩ := List.mem_filterMap.1 hv
    obtain ⟨t, ht, rfl⟩ := Option.map_eq_some_iff.1 hmap
    exact hvalues m.rule (rule_of_mem_select hm).1 t ht
  · obtain ⟨t, ht, rfl⟩ := Option.map_eq_some_iff.1 (Option.mem_toList.1 hv)
    exact hdefaults key t ht

end

/-! ## Where a search can get to -/

/-- The leftmost container of a text is filled with a value that is offered for it. This changes the
text. -/
def FillsLeftmost (s t : Text) : Prop :=
  ∃ c, Template.firstContainer? s = some c ∧ ∃ v ∈ q.plainSteps c, v.value = t

/-- A text is reached from another by filling leftmost containers, one after the other. -/
def Reaches : Text → Text → Prop := Relation.ReflTransGen q.FillsLeftmost

variable {q} {node : Node} {rest : List Node} {p : Progress} {cache : Cache} {source : Text}
  {left : Nat}

theorem stepsFrom_eq (h : q.IsDirect) (node : Node) (c : Template.Container) (cache : Cache) :
    q.stepsFrom node c cache = (q.plainSteps c, cache) :=
  containerSteps_eq h _ c cache

/-- What a turn gets from a text is reached from where this text is reached from. -/
theorem lookInto_reaches (h : q.IsDirect) (hn : q.Reaches source node.text) (p : Progress)
    (cache : Cache) :
    (∀ n ∈ (q.lookInto node p cache).2.1, q.Reaches source n.text) ∧
      ∀ t, (q.lookInto node p cache).1 = some t → q.Reaches source t ∧ Template.isFinal t := by
  rcases q.lookInto_cases node p cache with ⟨-, he⟩ | ⟨c, -, hc, -, he⟩
  · rw [he]
    exact ⟨fun n hn => (nomatch hn), fun t ht => nomatch ht⟩
  · have hstep : ∀ s ∈ (q.stepsFrom node c cache).1, q.Reaches source s.value := by
      intro s hs
      rw [stepsFrom_eq h] at hs
      exact hn.tail ⟨c, hc, s, hs, rfl⟩
    obtain ⟨hnodes, hfound⟩ := Progress.exists_step_of_takeUp node (q.stepsFrom node c cache).1
      (p.settle c.remainder node.left)
    rw [he]
    refine ⟨fun n hn => ?_, fun t ht => ?_⟩
    · obtain ⟨s, hs, rfl⟩ := hnodes n hn
      exact hstep s hs
    · obtain ⟨hf, s, hs, rfl⟩ := hfound t ht
      exact ⟨hstep s hs, hf⟩

/-- A search only looks into texts that are reached from its source. -/
theorem reaches_of_passes (h : q.IsDirect) {b : Stage}
    (run : q.Passes (.start source left cache) b) : ∀ n ∈ b.stack, q.Reaches source n.text := by
  refine run.invariant (P := fun b => ∀ n ∈ b.stack, q.Reaches source n.text) ?_ fun n hn => ?_
  · rintro _ _ hs ⟨hl⟩ n hn
    rcases List.mem_append.1 hn with hn | hn
    · exact (lookInto_reaches h (hs _ List.mem_cons_self) _ _).1 n (by rw [hl]; exact hn)
    · exact hs n (List.mem_cons_of_mem _ hn)
  · rw [List.mem_singleton.1 hn]
    exact .refl

/-- What a search finds is final and reached from its source. -/
theorem reaches_of_first (h : q.IsDirect) {t : Text}
    (hfound : (q.first source left cache).1 = some t) :
    q.Reaches source t ∧ Template.isFinal t := by
  unfold first at hfound
  split at hfound
  · cases hfound
    exact ⟨.refl, ‹_›⟩
  · rcases q.explore_passes [⟨source, left⟩] (.start source) cache with
      ⟨p', cache', -, he⟩ | ⟨node, rest, p', cache', t', nodes, p'', cache'', run, hl, he⟩
    · rw [he] at hfound
      cases hfound
    · rw [he] at hfound
      cases hfound
      have hnode := reaches_of_passes h run node List.mem_cons_self
      exact (lookInto_reaches h hnode p' cache').2 t (by rw [hl])

/-! ## Searches that are never cut -/

/-- No stage of the search has a text to look into whose levels are used up. -/
def NeverCut (q : Query) (start : Stage) : Prop :=
  ∀ node rest p cache, q.Passes start ⟨node :: rest, p, cache⟩ → node.left ≠ 0

/-- Whether a search comes to its end in at most `fuel` turns, and all texts that it looks into have
levels left. -/
def runsUncut (q : Query) : Nat → Stage → Bool
  | 0, _ => false
  | fuel + 1, ⟨stack, p, cache⟩ =>
      match stack with
      | [] => true
      | node :: rest =>
          node.left != 0 &&
            match q.lookInto node p cache with
            | (some _, _, _, _) => true
            | (none, children, p, cache) => q.runsUncut fuel ⟨children ++ rest, p, cache⟩

theorem neverCut_of_runsUncut {start : Stage} {fuel : Nat} (h : q.runsUncut fuel start = true) :
    q.NeverCut start := by
  intro node rest p cache run
  have hkeep : ∃ fuel, q.runsUncut fuel ⟨node :: rest, p, cache⟩ = true := by
    refine run.invariant (P := fun b => ∃ fuel, q.runsUncut fuel b = true) ?_ ⟨fuel, h⟩
    rintro _ _ ⟨fuel, hrun⟩ ⟨hl⟩
    cases fuel with
    | zero => cases hrun
    | succ fuel =>
        have hrest := (Bool.and_eq_true_iff.1 hrun).2
        rw [hl] at hrest
        exact ⟨fuel, hrest⟩
  obtain ⟨fuel, hrun⟩ := hkeep
  cases fuel with
  | zero => cases hrun
  | succ fuel => exact bne_iff_ne.1 (Bool.and_eq_true_iff.1 hrun).1

/-! ## What a search has met when it comes to its end -/

/-- The search gets to a text with the leftmost container `c`. -/
def LooksInto (q : Query) (start : Stage) (t : Text) (c : Template.Container) : Prop :=
  (∃ node rest p cache, q.Passes start ⟨node :: rest, p, cache⟩ ∧ node.text = t) ∧
    Template.firstContainer? t = some c

/-- The invariant of a search that has found nothing yet. The texts that it has met are not final,
and each of them is still to be looked into, or its remainder has been looked into: then the texts
that filling the container leads to, for some text with this remainder, have been met. -/
structure Explored (q : Query) (start b : Stage) : Prop where
  unfinished : ∀ t ∈ b.progress.visited, ¬ Template.isFinal t
  queued : ∀ t ∈ b.progress.visited, (∃ n ∈ b.stack, n.text = t) ∨
    ∃ c, q.LooksInto start t c ∧ c.remainder ∈ b.progress.settled.map Prod.fst
  filled : ∀ remainder ∈ b.progress.settled.map Prod.fst, ∃ t c, q.LooksInto start t c ∧
    c.remainder = remainder ∧ ∀ v ∈ q.plainSteps c, v.value ∈ b.progress.visited

theorem mem_of_covers {settled : Settled} {remainder : Text} {score left : Nat}
    (h : settled.covers remainder score left) : remainder ∈ settled.map Prod.fst := by
  obtain ⟨seen, hseen, -⟩ := (Option.any_eq_true _ _).1 h
  obtain ⟨l₁, l₂, rfl, -⟩ := List.lookup_eq_some_iff.1 hseen
  simp

/-- A text that is skipped, but not for its levels, has no part in the invariant any more. -/
theorem Explored.skip {start : Stage} (hs : Explored q start ⟨node :: rest, p, cache⟩)
    (run : q.Passes start ⟨node :: rest, p, cache⟩) (hl : node.left ≠ 0) (hskip : Skips node p) :
    Explored q start ⟨rest, p, cache⟩ := by
  refine ⟨hs.unfinished, fun t ht => ?_, hs.filled⟩
  rcases hs.queued t ht with ⟨n, hn, rfl⟩ | hdone
  · rcases List.mem_cons.1 hn with rfl | hn
    · obtain ⟨c, hc⟩ := Template.exists_firstContainer? (hs.unfinished _ ht)
      rcases hskip with h0 | hnone | ⟨d, hd, hcov⟩
      · exact absurd h0 hl
      · rw [hnone] at hc
        cases hc
      · exact .inr ⟨d, ⟨⟨n, rest, p, cache, run, rfl⟩, hd⟩, mem_of_covers hcov⟩
    · exact .inl ⟨n, hn, rfl⟩
  · exact .inr hdone

/-- If filling a container leads to no new final text, all the texts that it leads to have been met
from then on, and the new ones are to be looked into next. -/
theorem met_of_fillFirst (h : q.IsDirect) {c : Template.Container} {children : List Node}
    {p' : Progress} {cache' : Cache}
    (hfill : q.fillFirst node c p cache = (none, children, p', cache')) :
    p'.settled = (c.remainder, 0, node.left) :: p.settled ∧
      (∀ t ∈ p.visited, t ∈ p'.visited) ∧ (∀ s ∈ q.plainSteps c, s.value ∈ p'.visited) ∧
      ∀ t ∈ p'.visited, t ∈ p.visited ∨ ¬ Template.isFinal t ∧ ∃ n ∈ children, n.text = t := by
  cases hf : (unseen p.visited (q.stepsFrom node c cache).1).find?
      fun s => Template.isFinal s.value with
  | some s =>
      obtain ⟨news, -, he⟩ := q.fillFirst_of_find?_some hf
      rw [he] at hfill
      cases hfill
  | none =>
      rw [q.fillFirst_of_find?_none hf] at hfill
      rw [stepsFrom_eq h] at hf hfill
      cases hfill
      have hmem : ∀ t, t ∈ ((unseen p.visited (q.plainSteps c)).foldl (Progress.record node.text)
          (p.settle c.remainder node.left)).visited ↔
          (∃ s ∈ unseen p.visited (q.plainSteps c), s.value = t) ∨ t ∈ p.visited := by
        intro t
        rw [Progress.visited_foldl_record, List.mem_append, List.mem_reverse, List.mem_map]
        rfl
      refine ⟨Progress.settled_foldl_record _ _ _, fun t ht => (hmem t).2 (.inr ht), ?_, ?_⟩
      · intro s hs
        rcases mem_seen_or_unseen hs with hold | hnew
        · exact (hmem _).2 (.inr hold)
        · exact (hmem _).2 (.inl hnew)
      · intro t ht
        rcases (hmem t).1 ht with ⟨s, hs, rfl⟩ | hold
        · exact .inr ⟨List.find?_eq_none.1 hf s hs, _, List.mem_map_of_mem hs, rfl⟩
        · exact .inl hold

/-- Filling the leftmost container of a text, without finding a final text, keeps the invariant. -/
theorem Explored.fill (h : q.IsDirect) {start : Stage}
    (hs : Explored q start ⟨node :: rest, p, cache⟩)
    (run : q.Passes start ⟨node :: rest, p, cache⟩) {c : Template.Container}
    (hc : Template.firstContainer? node.text = some c) {children : List Node} {p' : Progress}
    {cache' : Cache} (hfill : q.fillFirst node c p cache = (none, children, p', cache')) :
    Explored q start ⟨children ++ rest, p', cache'⟩ := by
  have hlooks : q.LooksInto start node.text c := ⟨⟨node, rest, p, cache, run, rfl⟩, hc⟩
  obtain ⟨hset, hkept, hsteps, hmet⟩ := met_of_fillFirst h hfill
  have hkeys : p'.settled.map Prod.fst = c.remainder :: p.settled.map Prod.fst := by
    rw [hset]
    rfl
  refine ⟨fun t ht => ?_, fun t ht => ?_, fun remainder hr => ?_⟩
  · rcases hmet t ht with hold | ⟨hf, -⟩
    · exact hs.unfinished t hold
    · exact hf
  · -- The text that has been looked into is settled now, and the new ones are on the stack.
    rw [hkeys]
    rcases hmet t ht with hold | ⟨-, n, hn, rfl⟩
    · rcases hs.queued t hold with ⟨n, hn, rfl⟩ | ⟨d, hd, hmem⟩
      · rcases List.mem_cons.1 hn with rfl | hn
        · exact .inr ⟨c, hlooks, List.mem_cons_self⟩
        · exact .inl ⟨n, List.mem_append_right _ hn, rfl⟩
      · exact .inr ⟨d, hd, List.mem_cons_of_mem _ hmem⟩
    · exact .inl ⟨n, List.mem_append_left _ hn, rfl⟩
  · rw [hkeys] at hr
    rcases List.mem_cons.1 hr with rfl | hr
    · exact ⟨node.text, c, hlooks, rfl, hsteps⟩
    · obtain ⟨t, d, hd, he, hfilled⟩ := hs.filled remainder hr
      exact ⟨t, d, hd, he, fun v hv => hkept _ (hfilled v hv)⟩

/-- All stages of a search that is never cut have the invariant. -/
theorem explored_of_passes (h : q.IsDirect) (hf : ¬ Template.isFinal source)
    (hcut : q.NeverCut (.start source left cache)) {b : Stage}
    (run : q.Passes (.start source left cache) b) :
    Explored q (.start source left cache) b := by
  induction run with
  | refl =>
      refine ⟨fun t ht => ?_, fun t ht => ?_, fun _ hr => nomatch hr⟩
      · rw [List.mem_singleton.1 ht]
        exact hf
      · exact .inl ⟨_, List.mem_cons_self, (List.mem_singleton.1 ht).symm⟩
  | tail run turn ih =>
      obtain ⟨hl⟩ := turn
      rename_i node rest children p p' cache cache'
      rcases q.lookInto_cases node p cache with ⟨hskip, he⟩ | ⟨c, -, hc, -, he⟩
      · rw [he] at hl
        cases hl
        exact ih.skip run (hcut _ _ _ _ run) hskip
      · rw [he] at hl
        exact ih.fill h run hc hl

/-- A search that has come to its end without being cut has met no final text. It has got to all
texts that it has met, and the texts that come next have been met for each of them, or for another
one with the same remainder. -/
theorem exists_looksInto_of_passes (h : q.IsDirect) (hf : ¬ Template.isFinal source)
    (hcut : q.NeverCut (.start source left cache)) {cache' : Cache}
    (run : q.Passes (.start source left cache) ⟨[], p, cache'⟩) {t : Text} (ht : t ∈ p.visited) :
    ∃ c, q.LooksInto (.start source left cache) t c ∧
      ∃ u d, q.LooksInto (.start source left cache) u d ∧ d.remainder = c.remainder ∧
        ∀ v ∈ q.plainSteps d, v.value ∈ p.visited := by
  have hend := explored_of_passes h hf hcut run
  rcases hend.queued t ht with ⟨n, hn, -⟩ | ⟨c, hc, hset⟩
  · cases hn
  · exact ⟨c, hc, hend.filled _ hset⟩

end Query

end Fillout
