import Fillout.Proofs.Search.Direct
import Fillout.Resolve.Engine
import Mathlib

set_option autoImplicit false

/-! # Leaving settled remainders alone

`Query.exploreUnsettled` is the search without the test for settled remainders: it looks into a text
even if it has looked into the same remainder behind another text. The test can lose an answer
(`Engine.resolveFirst_nestedAlternatives`). With a placeholder inside a placeholder, an opener
stands before the remainder whose closer stands in the remainder. When the container between the two
has been filled, what stands between them is the body of a container, and part of it stood before
the remainder.

Inert text before the remainder has no such part. `Engine.resolveFirst_of_unsettled` says that the
test loses nothing if two texts with the same remainder differ in nothing but inert text before it,
no value depends on another search, and the search is never cut at the limit. The proof goes along
the steps of the other search: each text that it gets to has been met by the search with the test,
up to inert text in front (`MeetsBehind.fillsLeftmost`).
-/

namespace Fillout

namespace Query

variable (q : Query)

/-! ## The search without the test -/

/-- Looks into the texts of a stack until a final text is found, whatever remainders have been
looked into before. -/
def exploreUnsettled (stack : List Node) (p : Progress) (cache : Cache) :
    Option Text × List Origin × Cache :=
  match stack with
  | [] => (none, p.origins, cache)
  | node :: rest =>
      if _h : node.left = 0 then exploreUnsettled rest p cache
      else
        match Template.firstContainer? node.text with
        | none => exploreUnsettled rest p cache
        | some c =>
            let nested := cached fun source cache =>
              let r := exploreUnsettled [⟨source, node.left - 1⟩] (.start source) cache
              (r.1, r.2.2)
            let r := q.containerSteps nested c cache
            let taken := Progress.takeUp node r.1 p
            match taken.1 with
            | some t => (some t, taken.2.2.origins, r.2)
            | none => exploreUnsettled (taken.2.1 ++ rest) taken.2.2 r.2
termination_by Agenda.mk stack
decreasing_by
  · exact .skip _ _
  · exact .skip _ _
  · exact .restart (Node.smaller_of_left (Nat.sub_one_lt _h)) _
  · exact .keep (Progress.takeUp_smaller (Nat.pos_of_ne_zero _h) _ _)

/-- Searches for a final text below `source`, without the test. -/
def firstUnsettled (source : Text) (left : Nat) (cache : Cache) :
    Option Text × List Origin × Cache :=
  if Template.isFinal source then (some source, [], cache)
  else q.exploreUnsettled [⟨source, left⟩] (.start source) cache

variable {q} {source : Text} {left : Nat} {p : Progress} {cache cache' : Cache}

/-- What the search without the test finds is final and reached from its source. -/
theorem reaches_of_exploreUnsettled (h : q.IsDirect) {stack : List Node}
    (hstack : ∀ n ∈ stack, q.Reaches source n.text) {t : Text}
    (hfound : (q.exploreUnsettled stack p cache).1 = some t) :
    q.Reaches source t ∧ Template.isFinal t := by
  induction ha : Agenda.mk stack using Agenda.wellFounded.induction generalizing stack p cache with
  | _ a ih =>
    subst ha
    rw [exploreUnsettled.eq_def] at hfound
    cases stack with
    | nil => cases hfound
    | cons node rest =>
        have hrest : ∀ n ∈ rest, q.Reaches source n.text :=
          fun n hn => hstack n (List.mem_cons_of_mem node hn)
        dsimp only at hfound
        split at hfound
        · exact ih _ (.skip node rest) hrest hfound rfl
        · rename_i hl
          split at hfound
          · exact ih _ (.skip node rest) hrest hfound rfl
          · rename_i c hc
            rw [containerSteps_eq h] at hfound
            have hstep : ∀ s ∈ q.plainSteps c, q.Reaches source s.value :=
              fun s hs => (hstack node List.mem_cons_self).tail ⟨c, hc, s, hs, rfl⟩
            obtain ⟨hnodes, hfinal⟩ := Progress.exists_step_of_takeUp node (q.plainSteps c) p
            split at hfound
            · rename_i r hr
              cases hfound
              obtain ⟨hf, s, hs, rfl⟩ := hfinal t hr
              exact ⟨hstep s hs, hf⟩
            · refine ih _ (.keep ?_) (fun n hn => ?_) hfound rfl
              · exact Progress.takeUp_smaller (Nat.pos_of_ne_zero hl) _ p
              · rcases List.mem_append.1 hn with hn | hn
                · obtain ⟨s, hs, rfl⟩ := hnodes n hn
                  exact hstep s hs
                · exact hrest n hn

theorem reaches_of_firstUnsettled (h : q.IsDirect) {t : Text}
    (hfound : (q.firstUnsettled source left cache).1 = some t) :
    q.Reaches source t ∧ Template.isFinal t := by
  unfold firstUnsettled at hfound
  split at hfound
  · cases hfound
    exact ⟨.refl, ‹_›⟩
  · exact reaches_of_exploreUnsettled h
      (fun n hn => by rw [List.mem_singleton.1 hn]; exact .refl) hfound

/-! ## Exchanging what stands before a remainder -/

/-- Where the search gets to two texts with the same remainder, the same stands before it, or inert
text in both. -/
def InertBefore (q : Query) (start : Stage) : Prop :=
  ∀ s c t d, q.LooksInto start s c → q.LooksInto start t d → c.remainder = d.remainder →
    c.before = d.before ∨ Template.IsInert c.before ∧ Template.IsInert d.before

/-- The search has met a text, up to inert text in front. -/
def MeetsBehind (p : Progress) (t : Text) : Prop :=
  ∃ x y w, Template.IsInert x ∧ Template.IsInert y ∧ t = y ++ w ∧ x ++ w ∈ p.visited

/-- What a container can be filled with depends on its body only. -/
theorem exists_of_mem_plainSteps {c : Template.Container} {s : Candidate}
    (hs : s ∈ q.plainSteps c) :
    ∃ v, s.value = c.substitute v ∧ ∀ d : Template.Container, d.body = c.body →
      ∃ u ∈ q.plainSteps d, u.value = d.substitute v := by
  obtain ⟨e, he, v, hv, hne, rfl⟩ := mem_plainSteps_iff.1 hs
  refine ⟨v.value, rfl, fun d hd => ⟨{ v with value := d.substitute v.value }, ?_, rfl⟩⟩
  rw [← hd] at he hne
  exact mem_plainSteps_iff.2 ⟨e, he, v, hv, hne, rfl⟩

/-- A search that has come to its end without being cut has met, up to inert text in front, what
comes next for every text that it has met up to inert text in front. -/
theorem MeetsBehind.fillsLeftmost (h : q.IsDirect) (hf : ¬ Template.isFinal source)
    (hcut : q.NeverCut (.start source left cache))
    (hinert : q.InertBefore (.start source left cache))
    (run : q.Passes (.start source left cache) ⟨[], p, cache'⟩) {s t : Text}
    (hs : MeetsBehind p s) (hst : q.FillsLeftmost s t) : MeetsBehind p t := by
  obtain ⟨x, y, w, hx, hy, rfl, hmem⟩ := hs
  obtain ⟨c, hc, step, hstep, rfl⟩ := hst
  rw [Template.firstContainer?_append hy, Option.map_eq_some_iff] at hc
  obtain ⟨b, hb, rfl⟩ := hc
  obtain ⟨c, hlooks, u, d, hd, hsame, hfilled⟩ :=
    exists_looksInto_of_passes h hf hcut run hmem
  have hfirst : c = { b with before := x ++ b.before } := by
    have hc := hlooks.2
    rw [Template.firstContainer?_append hx, hb] at hc
    exact (Option.some.inj hc).symm
  obtain ⟨hbody, hafter⟩ := Template.eq_of_remainder_eq hd.2 hlooks.2 hsame
  obtain ⟨v, hv, hother⟩ := exists_of_mem_plainSteps hstep
  subst hfirst
  obtain ⟨r, hr, he⟩ := hother d hbody
  have hvisited := hfilled r hr
  rw [he, Template.Container.substitute, hafter] at hvisited
  rw [hv, Template.Container.substitute]
  dsimp only at hvisited hafter hbody ⊢
  rcases hinert _ _ _ _ hlooks hd hsame.symm with heq | ⟨hbefore, hother⟩
  · -- The container has been filled behind the very text that is met here.
    refine ⟨x, y, b.before ++ v ++ b.after, hx, hy, by simp, ?_⟩
    dsimp only at heq
    rw [← heq] at hvisited
    simpa using hvisited
  · -- It has been filled behind other inert text, which takes the place of `x`.
    refine ⟨d.before, y ++ b.before, v ++ b.after, hother, hx.exchange hy hbefore, by simp, ?_⟩
    simpa using hvisited

/-- A search that has come to its end without being cut has missed nothing that is reached by
filling leftmost containers, if it exchanges inert text only. -/
theorem not_isFinal_of_reaches (h : q.IsDirect) (hf : ¬ Template.isFinal source)
    (hcut : q.NeverCut (.start source left cache))
    (hinert : q.InertBefore (.start source left cache))
    (run : q.Passes (.start source left cache) ⟨[], p, cache'⟩) {t : Text}
    (ht : q.Reaches source t) : ¬ Template.isFinal t := by
  have hmeets : MeetsBehind p t := by
    induction ht with
    | refl =>
        exact ⟨[], [], source, Template.isInert_nil, Template.isInert_nil, rfl,
          Passes.mem_visited run List.mem_cons_self⟩
    | tail _ hstep ih => exact ih.fillsLeftmost h hf hcut hinert run hstep
  obtain ⟨x, y, w, hx, hy, rfl, hmem⟩ := hmeets
  have hunfinished := (explored_of_passes h hf hcut run).unfinished _ hmem
  rw [Template.isFinal_append hx] at hunfinished
  rwa [Template.isFinal_append hy]

/-! ## Checking a search -/

/-- The nodes that a search looks into in at most `fuel` turns. -/
def nodesWithin (q : Query) : Nat → Stage → List Node
  | 0, _ => []
  | fuel + 1, ⟨stack, p, cache⟩ =>
      match stack with
      | [] => []
      | node :: rest =>
          node ::
            match q.lookInto node p cache with
            | (some _, _, _, _) => []
            | (none, children, p, cache) => q.nodesWithin fuel ⟨children ++ rest, p, cache⟩

/-- Whether the containers of texts with the same remainder are the same, or stand behind inert
text. -/
def exchangesInert (containers : List Template.Container) : Bool :=
  containers.all fun c => containers.all fun d =>
    c.remainder != d.remainder || c.before == d.before ||
      (decide (Template.IsInert c.before) && decide (Template.IsInert d.before))

theorem mem_nodesWithin {start : Stage} {fuel : Nat} (h : q.runsUncut fuel start = true)
    {node : Node} {rest : List Node} (run : q.Passes start ⟨node :: rest, p, cache⟩) :
    node ∈ q.nodesWithin fuel start := by
  have hkeep : ∃ k, q.runsUncut k ⟨node :: rest, p, cache⟩ = true ∧
      ∀ n ∈ q.nodesWithin k ⟨node :: rest, p, cache⟩, n ∈ q.nodesWithin fuel start := by
    refine run.invariant (P := fun b => ∃ k, q.runsUncut k b = true ∧
      ∀ n ∈ q.nodesWithin k b, n ∈ q.nodesWithin fuel start) ?_ ⟨fuel, h, fun n hn => hn⟩
    rintro _ _ ⟨k, hk, hsub⟩ ⟨hl⟩
    cases k with
    | zero => cases hk
    | succ k =>
        have hrest := (Bool.and_eq_true_iff.1 hk).2
        rw [hl] at hrest
        refine ⟨k, hrest, fun n hn => hsub n ?_⟩
        rw [nodesWithin]
        simp only [hl]
        exact List.mem_cons_of_mem _ hn
  obtain ⟨k, hk, hsub⟩ := hkeep
  cases k with
  | zero => cases hk
  | succ k => exact hsub node List.mem_cons_self

theorem inertBefore_of_nodesWithin {start : Stage} {fuel : Nat}
    (hrun : q.runsUncut fuel start = true)
    (h : exchangesInert ((q.nodesWithin fuel start).filterMap fun n =>
      Template.firstContainer? n.text) = true) : q.InertBefore start := by
  have hmem : ∀ t c, q.LooksInto start t c →
      c ∈ (q.nodesWithin fuel start).filterMap fun n => Template.firstContainer? n.text := by
    rintro t c ⟨⟨node, rest, p, cache, run, rfl⟩, hc⟩
    exact List.mem_filterMap.2 ⟨node, mem_nodesWithin hrun run, hc⟩
  intro s c t d hs ht hsame
  have hpair := List.all_eq_true.1 (List.all_eq_true.1 h c (hmem s c hs)) d (hmem t d ht)
  simp only [hsame, bne_self_eq_false, Bool.false_or, Bool.or_eq_true, beq_iff_eq,
    Bool.and_eq_true, decide_eq_true_eq] at hpair
  exact hpair

end Query

namespace Engine

/-- The first final text that the search without the test for settled remainders reaches. -/
def resolveFirstUnsettled (e : Engine) (ctx : Context) (source : Text) : Option Text :=
  ((e.query ctx source).firstUnsettled source ctx.maxDepth []).1

/-- Where no rule is a date or a switch, the search is never cut at the limit, and two texts with
the same remainder differ in nothing but inert text before it, the test for settled remainders loses
no answer. -/
theorem resolveFirst_of_unsettled (e : Engine) (ctx : Context) (source : Text)
    (hq : (e.query ctx source).IsDirect)
    (hcut : (e.query ctx source).NeverCut (.start source ctx.maxDepth []))
    (hinert : (e.query ctx source).InertBefore (.start source ctx.maxDepth []))
    (h : (e.resolveFirstUnsettled ctx source).isSome) : (e.resolveFirst ctx source).isSome := by
  obtain ⟨t, ht⟩ := Option.isSome_iff_exists.1 h
  obtain ⟨hreach, hfinal⟩ := Query.reaches_of_firstUnsettled hq ht
  rw [Option.isSome_iff_ne_none]
  intro hnone
  obtain ⟨hf, p, cache, run⟩ := Query.passes_of_first_eq_none _ hnone
  exact Query.not_isFinal_of_reaches hq hf hcut hinert run hreach hfinal

/-- A letter in a language that has to be looked up, and before it a row that cannot be filled,
whose first field has two values. -/
def letters : Engine where
  store := (RuleStore.ofRecords
    [{ kind := .equal, pattern := ['a'], value := .literal "$\x7bx\x7d$ $\x7bz\x7d$".toList },
     { kind := .equal, pattern := ['a'], value := .literal "$\x7bhi.$\x7bl\x7d$\x7d$".toList },
     { kind := .equal, pattern := ['x'], value := .literal ['1'] },
     { kind := .equal, pattern := ['x'], value := .literal ['2'] },
     { kind := .equal, pattern := ['l'], value := .literal "de".toList },
     { kind := .equal, pattern := "hi.de".toList, value := .literal "Hallo".toList }]).1
  env := .empty

/-- The rest of the row is looked into behind `1` and left alone behind `2`; then the letter is
found. -/
theorem resolveFirst_of_unsettled_letters :
    (letters.query {} "$\x7ba\x7d$".toList).IsDirect ∧
      (letters.query {} "$\x7ba\x7d$".toList).NeverCut (.start "$\x7ba\x7d$".toList 100 []) ∧
      (letters.query {} "$\x7ba\x7d$".toList).InertBefore (.start "$\x7ba\x7d$".toList 100 []) ∧
      letters.resolveFirstUnsettled {} "$\x7ba\x7d$".toList = some "Hallo".toList ∧
      (letters.resolveFirst {} "$\x7ba\x7d$".toList).isSome := by
  have hq : (letters.query {} "$\x7ba\x7d$".toList).IsDirect := by
    show ∀ r ∈ letters.store.rules, _
    decide
  have hrun : (letters.query {} "$\x7ba\x7d$".toList).runsUncut 8
      (.start "$\x7ba\x7d$".toList 100 []) = true := by cbv
  have hcut := Query.neverCut_of_runsUncut hrun
  have hinert : (letters.query {} "$\x7ba\x7d$".toList).InertBefore
      (.start "$\x7ba\x7d$".toList 100 []) := Query.inertBefore_of_nodesWithin hrun (by cbv)
  have hfound : letters.resolveFirstUnsettled {} "$\x7ba\x7d$".toList =
      some "Hallo".toList := by cbv
  refine ⟨hq, hcut, hinert, hfound, ?_⟩
  exact letters.resolveFirst_of_unsettled {} _ hq hcut hinert (by rw [hfound]; rfl)

/-- Two values with a placeholder inside a placeholder, of which the second can be filled. -/
def nestedAlternatives : Engine where
  store := (RuleStore.ofRecords
    [{ kind := .equal, pattern := ['a'], value := .literal "$\x7bx.$\x7bl\x7d$\x7d$".toList },
     { kind := .equal, pattern := ['a'], value := .literal "$\x7by.$\x7bl\x7d$\x7d$".toList },
     { kind := .equal, pattern := ['l'], value := .literal ['1'] },
     { kind := .equal, pattern := "y.1".toList, value := .literal "ok".toList }]).1
  env := .empty

/-- Both values have the same remainder from the placeholder inside on. It is looked into for the
first value, which leads nowhere, and left alone for the second, which would lead to the answer. -/
theorem resolveFirst_nestedAlternatives :
    nestedAlternatives.resolveFirstUnsettled {} "$\x7ba\x7d$".toList = some "ok".toList ∧
      nestedAlternatives.resolveFirst {} "$\x7ba\x7d$".toList = none :=
  ⟨by cbv, by cbv⟩

end Engine

end Fillout
