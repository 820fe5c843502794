import Fillout.Proofs.Search.Asking
import Fillout.Proofs.Search.Clocked
import Mathlib.Order.Filter.AtTopBot.Basic

set_option autoImplicit false

/-! # Every run returns

If depths are machine words and the limit of the context is one of them, every clock that is long
enough lets the searches of `Fillout.Proofs.Search.Clocked` run to the end, and what they return is
what `Query.explore` and `Query.survey` give (`exploreAt_returns`, `surveyAt_returns`). The
induction is the one along `Agenda.Smaller`: with `limit - depth` for the levels left, a text on the
stack is a node, and so the pair of `limit - depth` and the number of containers decreases from a
text to its children and to the texts that its values depend on. No depth overflows, since only a
text above the limit is looked into.
-/

namespace Fillout

open Filter

/-- For every clock that is long enough, a run gives the answer `a`. -/
def Returns {α : Type} (run : Nat → Except Stop α) (a : α) : Prop :=
  ∃ n, ∀ fuel, n ≤ fuel → run fuel = .ok a

theorem returns_of_eventually {α : Type} {run : Nat → Except Stop α} {a : α}
    (h : ∀ᶠ fuel in atTop, run fuel = .ok a) : Returns run a :=
  eventually_atTop.1 h

/-- What holds of every long enough clock with one tick more, holds of every long enough clock. -/
theorem eventually_of_succ {P : Nat → Prop} (h : ∀ᶠ fuel in atTop, P (fuel + 1)) :
    ∀ᶠ fuel in atTop, P fuel := by
  obtain ⟨n, hn⟩ := eventually_atTop.1 h
  refine eventually_atTop.2 ⟨n + 1, fun fuel hf => ?_⟩
  cases fuel with
  | zero => omega
  | succ fuel => exact hn fuel (by omega)

/-! ## Depths and levels -/

theorem deeper_of_lt {largest depth : Nat} (h : depth < largest) :
    deeper largest depth = .ok (depth + 1) := if_pos h

/-- A pending text as a node: below `limit`, this many levels are left. -/
def Pending.node (limit : Nat) (n : Pending) : Node := ⟨n.text, limit - n.depth⟩

/-- Above the limit, a text that comes from another one has a depth, and that depth leaves it the
levels that `Node.child` gives it. -/
theorem Pending.child_of_lt {largest limit : Nat} (hw : limit ≤ largest) {parent : Pending}
    (hd : parent.depth < limit) (text : Text) :
    ∃ child, parent.child largest text = .ok child ∧
      child.node limit = (parent.node limit).child text := by
  unfold Pending.child Node.child Pending.node
  split
  · exact ⟨_, rfl, rfl⟩
  · rw [deeper_of_lt (by omega)]
    refine ⟨⟨text, parent.depth + 1⟩, rfl, ?_⟩
    rw [Nat.sub_add_eq]

/-- The entries with the levels that are left below `limit` in place of the depths. -/
def levelsOf (limit : Nat) (settled : Settled) : Settled :=
  settled.map fun (t, score, depth) => (t, score, limit - depth)

/-- At least as many levels are left exactly if the depth is no greater. -/
theorem covers_levelsOf {limit depth : Nat} {settled : Settled}
    (h : ∀ x ∈ settled, x.2.2 < limit) (hd : depth < limit) (remainder : Text) (score : Nat) :
    (levelsOf limit settled).covers remainder score (limit - depth) =
      settled.coversAt remainder score depth := by
  have hlevels : (levelsOf limit settled).lookup remainder =
      (settled.lookup remainder).map fun seen => (seen.1, limit - seen.2) :=
    Settled.lookup_map (fun depth => limit - depth) settled remainder
  unfold Settled.covers Settled.coversAt
  rw [hlevels]
  cases hl : settled.lookup remainder with
  | none => rfl
  | some seen =>
      obtain ⟨seenScore, seenDepth⟩ := seen
      obtain ⟨l₁, l₂, rfl, -⟩ := List.lookup_eq_some_iff.1 hl
      -- From `limit` on, subtraction would lose the order of the depths.
      have hseen : seenDepth < limit := h (remainder, seenScore, seenDepth) (by simp)
      have hiff : limit - depth ≤ limit - seenDepth ↔ seenDepth ≤ depth := by omega
      show (decide (score ≤ seenScore) && decide (limit - depth ≤ limit - seenDepth)) =
        (decide (score ≤ seenScore) && decide (seenDepth ≤ depth))
      rw [decide_eq_decide.2 hiff]

/-- Progress with the levels that are left in place of the depths. -/
def Progress.levels (limit : Nat) (p : Progress) : Progress :=
  { p with settled := levelsOf limit p.settled }

/-- A survey with the levels that are left in place of the depths. -/
def Survey.levels (limit : Nat) (s : Survey) : Survey :=
  { s with settled := levelsOf limit s.settled }

/-- Above the limit, taking up texts on a machine does not stop, and does what `Progress.takeUp`
does. -/
theorem Progress.takeUpAt_levels {largest limit : Nat} (hw : limit ≤ largest) {parent : Pending}
    (hd : parent.depth < limit) (steps : List Candidate) (p : Progress) :
    ∃ found nodes p', takeUpAt largest parent steps p = .ok (found, nodes, p') ∧
      takeUp (parent.node limit) steps (p.levels limit) =
        (found, nodes.map (Pending.node limit), p'.levels limit) ∧ p'.settled = p.settled := by
  induction steps generalizing p with
  | nil => exact ⟨none, [], p, rfl, rfl, rfl⟩
  | cons s rest ih =>
      by_cases hs : s.value ∈ p.visited
      · obtain ⟨found, nodes, p', hat, ht, hp⟩ := ih p
        refine ⟨found, nodes, p', ?_, ?_, hp⟩
        · rw [takeUpAt, if_pos hs, hat]
        · rw [takeUp_of_mem (p := p.levels limit) hs, ht]
      · rw [takeUpAt, if_neg hs]
        dsimp only
        by_cases hf : Template.isFinal s.value
        · rw [if_pos hf, takeUp_of_final (p := p.levels limit) hs hf]
          exact ⟨some s.value, [], p.record parent.text s, rfl, rfl, rfl⟩
        · obtain ⟨found, nodes, p', hat, ht, hp⟩ := ih (p.record parent.text s)
          obtain ⟨child, hchild, hnode⟩ := parent.child_of_lt hw hd s.value
          refine ⟨found, child :: nodes, p', ?_, ?_, hp⟩
          · rw [if_neg hf, hchild, hat]
            rfl
          · have hrec : (p.levels limit).record (parent.node limit).text s =
                (p.record parent.text s).levels limit := rfl
            rw [takeUp_of_new (p := p.levels limit) hs hf, hrec, ht, List.map_cons, hnode]

/-- Above the limit, taking up texts on a machine does not stop, and does what `Survey.takeUp`
does. -/
theorem Survey.takeUpAt_levels {largest limit : Nat} (hw : limit ≤ largest) {parent : Pending}
    (hd : parent.depth < limit) (steps : List Candidate) (s : Survey) :
    ∃ nodes s', takeUpAt largest parent steps s = .ok (nodes, s') ∧
      takeUp (parent.node limit) steps (s.levels limit) =
        (nodes.map (Pending.node limit), s'.levels limit) ∧ s'.settled = s.settled := by
  induction steps generalizing s with
  | nil => exact ⟨[], s, rfl, rfl, rfl⟩
  | cons c rest ih =>
      by_cases hc : c.value ∈ s.visited
      · obtain ⟨nodes, s', hat, ht, hs⟩ := ih s
        refine ⟨nodes, s', ?_, ?_, hs⟩
        · rw [takeUpAt, if_pos hc, hat]
        · rw [takeUp_of_mem (s := s.levels limit) hc, ht]
      · obtain ⟨nodes, s', hat, ht, hs⟩ := ih (s.record c.value)
        obtain ⟨child, hchild, hnode⟩ := parent.child_of_lt hw hd c.value
        refine ⟨child :: nodes, s', ?_, ?_, hs⟩
        · rw [takeUpAt, if_neg hc]
          dsimp only
          rw [hchild, hat]
          rfl
        · have hrec : (s.levels limit).record c.value = (s.record c.value).levels limit := rfl
          rw [takeUp_of_new (s := s.levels limit) hc, hrec, ht, List.map_cons, hnode]

/-! ## Candidates on a machine -/

/-- Every clock that is long enough lets `f` hand on the cache without stopping, and do what `g`
does. -/
def Tracks {α : Type} (f : Nat → Except Stop Cache → α × Except Stop Cache)
    (g : Cache → α × Cache) : Prop :=
  ∀ cache, ∀ᶠ fuel in atTop, f fuel (.ok cache) = ((g cache).1, .ok (g cache).2)

namespace Query

section Candidates

variable {q : Query} {nestedAt : Nat → Nested (Except Stop Cache)} {nested : Nested Cache}
  (h : ∀ source, Tracks (fun fuel => nestedAt fuel source) (nested source))

include h

/-- If answers are tracked, whatever asks for them is. -/
theorem run_tracks {α : Type} (x : Asking α) :
    Tracks (fun fuel => x.run (nestedAt fuel)) (x.run nested) := by
  induction x with
  | done a => exact fun cache => .of_forall fun _ => rfl
  | ask source next ih =>
      intro cache
      filter_upwards [h source cache, ih (nested source cache).1 (nested source cache).2]
        with fuel hf hnext
      rw [Asking.run, hf]
      exact hnext

theorem variableValues_tracks (key : Text) :
    Tracks (fun fuel => q.variableValues (nestedAt fuel) key) (q.variableValues nested key) := by
  intro cache
  simpa only [run_variableAsking] using run_tracks h (q.variableAsking key) cache

theorem containerSteps_tracks (c : Template.Container) :
    Tracks (fun fuel => q.containerSteps (nestedAt fuel) c) (q.containerSteps nested c) := by
  intro cache
  simpa only [run_stepsAsking] using run_tracks h (q.stepsAsking c) cache

theorem allSteps_tracks (cs : List Template.Container) :
    Tracks (fun fuel => q.allSteps (nestedAt fuel) cs) (q.allSteps nested cs) := by
  induction cs with
  | nil => exact fun cache => .of_forall fun _ => rfl
  | cons c cs ih =>
      intro cache
      filter_upwards [containerSteps_tracks (q := q) h c cache,
        ih (q.containerSteps nested c cache).2] with fuel hc hcs
      simp only [allSteps, hc, hcs]

theorem firstSteps?_tracks (cs : List Template.Container) :
    Tracks (fun fuel => q.firstSteps? (nestedAt fuel) cs) (q.firstSteps? nested cs) := by
  induction cs with
  | nil => exact fun cache => .of_forall fun _ => rfl
  | cons c cs ih =>
      intro cache
      filter_upwards [containerSteps_tracks (q := q) h c cache,
        ih (q.containerSteps nested c cache).2] with fuel hc hcs
      simp only [firstSteps?, hc]
      rcases hsteps : q.containerSteps nested c cache with ⟨_ | ⟨s, steps⟩, cache'⟩
      · rw [hsteps] at hcs
        exact hcs
      · rfl

end Candidates

/-! ## The loops -/

variable {q : Query} {largest : Nat}

/-- If the search one level deeper returns, so does resolving a text that a value depends on. -/
theorem nestedAt_tracks {depth left : Nat} (hd : depth < largest)
    (h : ∀ source cache, ∀ᶠ fuel in atTop,
      q.exploreAt largest fuel [⟨source, depth + 1⟩] (.start source) cache =
        .ok (q.explore [⟨source, left⟩] (.start source) cache)) (source : Text) :
    Tracks (fun fuel => nestedAt largest (q.exploreAt largest fuel) depth source)
      (q.resolveNested left source) := by
  intro cache
  unfold resolveNested cached
  cases hl : cache.lookup source with
  | some result =>
      refine .of_forall fun fuel => ?_
      unfold nestedAt
      dsimp only
      rw [hl]
  | none =>
      filter_upwards [h source ((source, none) :: cache)] with fuel hf
      unfold nestedAt firstAt
      dsimp only
      rw [hl, deeper_of_lt hd]
      dsimp only [Bind.bind, Except.bind]
      rw [hf]
      cases Template.isFinal source <;> rfl

/-- A text that the search skips, the loop skips. -/
theorem exploreAt_of_skips {node : Pending} {p : Progress}
    (hp : ∀ x ∈ p.settled, x.2.2 < q.ctx.maxDepth)
    (h : Skips (node.node q.ctx.maxDepth) (p.levels q.ctx.maxDepth)) (fuel : Nat)
    (rest : List Pending) (cache : Cache) :
    q.exploreAt largest (fuel + 1) (node :: rest) p cache =
      q.exploreAt largest fuel rest p cache := by
  rw [exploreAt]
  by_cases hd : q.ctx.maxDepth ≤ node.depth
  · rw [if_pos hd]
  · rw [if_neg hd]
    rcases h with hl | hc | ⟨c, hc, hs⟩
    · have hl : q.ctx.maxDepth - node.depth = 0 := hl
      omega
    · have hc : Template.firstContainer? node.text = none := hc
      rw [hc]
    · have hc : Template.firstContainer? node.text = some c := hc
      have hcov := covers_levelsOf hp (Nat.lt_of_not_le hd) c.remainder 0
      rw [hc]
      dsimp only
      rw [if_pos (hcov ▸ hs)]

/-- A text whose leftmost container the search fills, the loop fills as well. -/
theorem exploreAt_of_container {node : Pending} {c : Template.Container} {p p' : Progress}
    {cache cache' : Cache} {steps : List Candidate} {found : Option Text} {nodes : List Pending}
    {fuel : Nat} (hd : node.depth < q.ctx.maxDepth)
    (hc : Template.firstContainer? node.text = some c)
    (hs : ¬ p.settled.coversAt c.remainder 0 node.depth)
    (hsteps : q.containerSteps (nestedAt largest (q.exploreAt largest fuel) node.depth) c
      (.ok cache) = (steps, .ok cache')) (rest : List Pending) :
    Progress.takeUpAt largest node steps (p.settle c.remainder node.depth) =
      .ok (found, nodes, p') →
    q.exploreAt largest (fuel + 1) (node :: rest) p cache =
      match found with
      | some t => .ok (some t, p'.origins, cache')
      | none => q.exploreAt largest fuel (nodes ++ rest) p' cache' := by
  intro ht
  rw [exploreAt, if_neg (Nat.not_le.2 hd), hc]
  dsimp only
  rw [if_neg hs, hsteps]
  dsimp only [Bind.bind, Except.bind]
  rw [ht]
  cases found <;> rfl

/-- Above the limit, filling a container on a machine does not stop, and does what `fillFirst`
does. -/
theorem fillFirst_levels (hw : q.ctx.maxDepth ≤ largest) {node : Pending}
    (hd : node.depth < q.ctx.maxDepth) (c : Template.Container) {p : Progress}
    (hp : ∀ x ∈ p.settled, x.2.2 < q.ctx.maxDepth) (cache : Cache) :
    ∃ found nodes p',
      Progress.takeUpAt largest node (q.stepsFrom (node.node q.ctx.maxDepth) c cache).1
        (p.settle c.remainder node.depth) = .ok (found, nodes, p') ∧
      q.fillFirst (node.node q.ctx.maxDepth) c (p.levels q.ctx.maxDepth) cache =
        (found, nodes.map (Pending.node q.ctx.maxDepth), p'.levels q.ctx.maxDepth,
          (q.stepsFrom (node.node q.ctx.maxDepth) c cache).2) ∧
      ∀ x ∈ p'.settled, x.2.2 < q.ctx.maxDepth := by
  obtain ⟨found, nodes, p', hat, ht, hset⟩ := Progress.takeUpAt_levels hw hd
    (q.stepsFrom (node.node q.ctx.maxDepth) c cache).1 (p.settle c.remainder node.depth)
  refine ⟨found, nodes, p', hat, ?_, ?_⟩
  · have ht' : Progress.takeUp (node.node q.ctx.maxDepth)
        (q.stepsFrom (node.node q.ctx.maxDepth) c cache).1
        ((p.levels q.ctx.maxDepth).settle c.remainder (node.node q.ctx.maxDepth).left) = _ := ht
    unfold fillFirst
    dsimp only
    rw [ht']
  · rw [hset]
    exact List.forall_mem_cons.2 ⟨hd, hp⟩

/-- If the searches one level deeper return, one turn of the loop does what one turn of the search
does. -/
theorem exploreAt_turn (hw : q.ctx.maxDepth ≤ largest) (node : Pending) {p : Progress}
    (hp : ∀ x ∈ p.settled, x.2.2 < q.ctx.maxDepth) (cache : Cache)
    (hdown : node.depth < q.ctx.maxDepth → ∀ source cache, ∀ᶠ fuel in atTop,
      q.exploreAt largest fuel [⟨source, node.depth + 1⟩] (.start source) cache =
        .ok (q.explore [⟨source, q.ctx.maxDepth - node.depth - 1⟩] (.start source) cache)) :
    ∃ found nodes p' cache',
      q.lookInto (node.node q.ctx.maxDepth) (p.levels q.ctx.maxDepth) cache =
        (found, nodes.map (Pending.node q.ctx.maxDepth), p'.levels q.ctx.maxDepth, cache') ∧
      (∀ x ∈ p'.settled, x.2.2 < q.ctx.maxDepth) ∧
      ∀ rest, ∀ᶠ fuel in atTop, q.exploreAt largest (fuel + 1) (node :: rest) p cache =
        match found with
        | some t => .ok (some t, p'.origins, cache')
        | none => q.exploreAt largest fuel (nodes ++ rest) p' cache' := by
  rcases q.lookInto_cases (node.node q.ctx.maxDepth) (p.levels q.ctx.maxDepth) cache with
    ⟨hskip, h⟩ | ⟨c, hl, hc, hs, h⟩
  · exact ⟨none, [], p, cache, h, hp, fun rest => .of_forall fun fuel =>
      exploreAt_of_skips hp hskip fuel rest cache⟩
  · have hl : 0 < q.ctx.maxDepth - node.depth := hl
    have hd : node.depth < q.ctx.maxDepth := by omega
    have hcov : ¬ p.settled.coversAt c.remainder 0 node.depth := by
      rw [← covers_levelsOf hp hd]
      exact hs
    obtain ⟨found, nodes, p', hat, hfill, hp'⟩ := fillFirst_levels hw hd c hp cache
    refine ⟨found, nodes, p', _, h.trans hfill, hp', fun rest => ?_⟩
    filter_upwards [containerSteps_tracks (q := q)
      (nestedAt_tracks (Nat.lt_of_lt_of_le hd hw) (hdown hd)) c cache] with fuel hsteps
    have hturn := exploreAt_of_container hd hc hcov hsteps rest hat
    cases found <;> exact hturn

/-- Every clock that is long enough lets the search for a final text run to the end. -/
theorem exploreAt_returns (hw : q.ctx.maxDepth ≤ largest) (stack : List Pending) (p : Progress)
    (cache : Cache) (hp : ∀ x ∈ p.settled, x.2.2 < q.ctx.maxDepth) :
    ∀ᶠ fuel in atTop, q.exploreAt largest fuel stack p cache =
      .ok (q.explore (stack.map (Pending.node q.ctx.maxDepth))
        (p.levels q.ctx.maxDepth) cache) := by
  induction ha : Agenda.mk (stack.map (Pending.node q.ctx.maxDepth))
    using Agenda.wellFounded.induction generalizing stack p cache with
  | _ a ih =>
    subst ha
    apply eventually_of_succ
    cases stack with
    | nil =>
        rw [List.map_nil, explore_nil]
        exact .of_forall fun _ => rfl
    | cons node rest =>
        -- Values are looked up one level deeper, which is a smaller agenda whatever the rest is.
        have hdown : node.depth < q.ctx.maxDepth → ∀ source cache, ∀ᶠ fuel in atTop,
            q.exploreAt largest fuel [⟨source, node.depth + 1⟩] (.start source) cache =
              .ok (q.explore [⟨source, q.ctx.maxDepth - node.depth - 1⟩] (.start source)
                cache) := by
          intro hd source cache'
          have hlt : Node.Smaller ⟨source, q.ctx.maxDepth - (node.depth + 1)⟩
              (node.node q.ctx.maxDepth) := Node.smaller_of_left (by
            show q.ctx.maxDepth - (node.depth + 1) < q.ctx.maxDepth - node.depth
            omega)
          rw [← Nat.sub_add_eq]
          exact ih _ (.restart hlt _) [⟨source, node.depth + 1⟩] (.start source) cache'
            (fun x hx => nomatch hx) rfl
        obtain ⟨found, nodes, p', cache', hinto, hp', hturn⟩ :=
          exploreAt_turn hw node hp cache hdown
        have hsmall := q.lookInto_smaller (node.node q.ctx.maxDepth) (p.levels q.ctx.maxDepth)
          cache
        rw [hinto] at hsmall
        rw [List.map_cons, explore_cons, hinto]
        cases found with
        | some t => exact hturn rest
        | none =>
            have hrest := ih _ (.keep hsmall) (nodes ++ rest) p' cache' hp'
              (by rw [List.map_append])
            rw [List.map_append] at hrest
            filter_upwards [hturn rest, hrest] with fuel hf hr
            rw [hf]
            exact hr

/-- The search for a final text below `source` returns at every depth. -/
theorem exploreAt_start_returns (hw : q.ctx.maxDepth ≤ largest) (depth : Nat) (source : Text)
    (cache : Cache) :
    ∀ᶠ fuel in atTop, q.exploreAt largest fuel [⟨source, depth⟩] (.start source) cache =
      .ok (q.explore [⟨source, q.ctx.maxDepth - depth⟩] (.start source) cache) :=
  exploreAt_returns hw [⟨source, depth⟩] (.start source) cache fun _ hx => nomatch hx

/-- Resolving a text that a value of a text at `depth` depends on returns, unless the depth is the
largest one. -/
theorem nestedAt_returns (hw : q.ctx.maxDepth ≤ largest) {depth : Nat} (hd : depth < largest)
    (source : Text) :
    Tracks (fun fuel => nestedAt largest (q.exploreAt largest fuel) depth source)
      (q.resolveNested (q.ctx.maxDepth - depth - 1) source) := by
  rw [← Nat.sub_add_eq]
  exact nestedAt_tracks hd (exploreAt_start_returns hw (depth + 1)) source

/-- At the limit, the loop goes on with the next text. -/
theorem surveyAt_of_limit {node : Pending} (hd : q.ctx.maxDepth ≤ node.depth) (fuel : Nat)
    (rest : List Pending) (s : Survey) (cache : Cache) :
    q.surveyAt largest (fuel + 1) (node :: rest) s cache =
      q.surveyAt largest fuel rest s cache := by
  rw [surveyAt]
  by_cases hc : Template.containers node.text = []
  · rw [if_pos hc]
  · rw [if_neg hc, if_pos hd]

/-- Above the limit, the loop fills the first container that can be filled. -/
theorem surveyAt_of_steps {node : Pending} {cache cache' : Cache}
    {found : Option (Template.Container × List Candidate)} {fuel : Nat}
    (hd : node.depth < q.ctx.maxDepth) (rest : List Pending) (s : Survey) :
    q.firstSteps? (nestedAt largest (q.exploreAt largest fuel) node.depth)
      (Template.containers node.text) (.ok cache) = (found, .ok cache') →
    q.surveyAt largest (fuel + 1) (node :: rest) s cache =
      match found with
      | none => q.surveyAt largest fuel rest s cache'
      | some (c, steps) =>
          if s.settled.coversAt c.remainder (Template.fillScore c.before) node.depth then
            q.surveyAt largest fuel rest s cache'
          else
            (Survey.takeUpAt largest node steps
                (s.settle c.remainder (Template.fillScore c.before) node.depth)).bind
              fun (nodes, s) => q.surveyAt largest fuel (nodes ++ rest) s cache' := by
  intro hsteps
  rw [surveyAt]
  by_cases hc : Template.containers node.text = []
  · rw [hc] at hsteps
    cases hsteps
    rw [if_pos hc]
  · rw [if_neg hc, if_neg (Nat.not_le.2 hd)]
    dsimp only
    rw [hsteps]
    cases found <;> rfl

/-- One turn of the loop does what one turn of the search does. -/
theorem surveyAt_turn (hw : q.ctx.maxDepth ≤ largest) (node : Pending) {s : Survey}
    (hs : ∀ x ∈ s.settled, x.2.2 < q.ctx.maxDepth) (cache : Cache) :
    ∃ nodes s' cache',
      q.surveyInto (node.node q.ctx.maxDepth) (s.levels q.ctx.maxDepth) cache =
        (nodes.map (Pending.node q.ctx.maxDepth), s'.levels q.ctx.maxDepth, cache') ∧
      (∀ x ∈ s'.settled, x.2.2 < q.ctx.maxDepth) ∧
      ∀ rest, ∀ᶠ fuel in atTop, q.surveyAt largest (fuel + 1) (node :: rest) s cache =
        q.surveyAt largest fuel (nodes ++ rest) s' cache' := by
  unfold surveyInto surveyIntoBy
  by_cases hd : q.ctx.maxDepth ≤ node.depth
  · have hl : (node.node q.ctx.maxDepth).left = 0 := Nat.sub_eq_zero_of_le hd
    rw [if_pos hl]
    exact ⟨[], s, cache, rfl, hs, fun rest => .of_forall fun fuel =>
      surveyAt_of_limit hd fuel rest s cache⟩
  · have hd := Nat.lt_of_not_le hd
    have hl : (node.node q.ctx.maxDepth).left ≠ 0 := Nat.sub_ne_zero_of_lt hd
    have hfirst := firstSteps?_tracks (q := q)
      (nestedAt_returns hw (Nat.lt_of_lt_of_le hd hw)) (Template.containers node.text) cache
    have hnode : q.firstSteps? (q.resolveNested ((node.node q.ctx.maxDepth).left - 1))
        (Template.containers (node.node q.ctx.maxDepth).text) cache =
          q.firstSteps? (q.resolveNested (q.ctx.maxDepth - node.depth - 1))
            (Template.containers node.text) cache := rfl
    rw [if_neg hl, hnode]
    rcases hr : q.firstSteps? (q.resolveNested (q.ctx.maxDepth - node.depth - 1))
      (Template.containers node.text) cache with ⟨_ | ⟨c, steps⟩, cache'⟩ <;> rw [hr] at hfirst
    · refine ⟨[], s, cache', rfl, hs, fun rest => ?_⟩
      filter_upwards [hfirst] with fuel hfound
      exact surveyAt_of_steps hd rest s hfound
    · have hcov := covers_levelsOf hs hd c.remainder (Template.fillScore c.before)
      dsimp only
      by_cases hc : s.settled.coversAt c.remainder (Template.fillScore c.before) node.depth
      · refine ⟨[], s, cache', if_pos (hcov.trans hc), hs, fun rest => ?_⟩
        filter_upwards [hfirst] with fuel hfound
        rw [surveyAt_of_steps hd rest s hfound]
        exact if_pos hc
      · obtain ⟨nodes, s', hat, ht, hset⟩ := Survey.takeUpAt_levels hw hd steps
          (s.settle c.remainder (Template.fillScore c.before) node.depth)
        have ht : Survey.takeUp (node.node q.ctx.maxDepth) steps
            ((s.levels q.ctx.maxDepth).settle c.remainder (Template.fillScore c.before)
              (node.node q.ctx.maxDepth).left) = _ := ht
        refine ⟨nodes, s', cache', ?_, ?_, fun rest => ?_⟩
        · rw [if_neg (hcov.symm ▸ hc), ht]
        · rw [hset]
          exact List.forall_mem_cons.2 ⟨hd, hs⟩
        · filter_upwards [hfirst] with fuel hfound
          rw [surveyAt_of_steps hd rest s hfound]
          dsimp only
          rw [if_neg hc, hat]
          rfl

/-- Every clock that is long enough lets the search for the best text run to the end. -/
theorem surveyAt_returns (hw : q.ctx.maxDepth ≤ largest) (stack : List Pending) (s : Survey)
    (cache : Cache) (hs : ∀ x ∈ s.settled, x.2.2 < q.ctx.maxDepth) :
    ∃ s', (∀ᶠ fuel in atTop, q.surveyAt largest fuel stack s cache = .ok s') ∧
      s'.levels q.ctx.maxDepth =
        q.survey (stack.map (Pending.node q.ctx.maxDepth)) (s.levels q.ctx.maxDepth) cache := by
  induction ha : Agenda.mk (stack.map (Pending.node q.ctx.maxDepth))
    using Agenda.wellFounded.induction generalizing stack s cache with
  | _ a ih =>
    subst ha
    cases stack with
    | nil =>
        refine ⟨s, eventually_of_succ (.of_forall fun _ => rfl), ?_⟩
        rw [List.map_nil, survey_nil]
    | cons node rest =>
        -- Nested searches return by themselves, so the induction is about this loop alone.
        obtain ⟨nodes, s₁, cache₁, hinto, hs₁, hturn⟩ := surveyAt_turn hw node hs cache
        have hsmall := q.surveyInto_smaller (node.node q.ctx.maxDepth) (s.levels q.ctx.maxDepth)
          cache
        rw [hinto] at hsmall
        obtain ⟨s', hrest, hs'⟩ := ih _ (.keep hsmall) (nodes ++ rest) s₁ cache₁ hs₁
          (by rw [List.map_append])
        refine ⟨s', eventually_of_succ ?_, ?_⟩
        · filter_upwards [hturn rest, hrest] with fuel hf hr
          rw [hf, hr]
        · rw [hs', List.map_cons, survey_cons, hinto, List.map_append]

end Query

end Fillout
