import Fillout.Proofs.Search.Turn
import Fillout.Resolve.Engine

set_option autoImplicit false

/-! # The search as a recursion

`Query.explore` keeps the texts that it has still to look into on a stack, and records for every
text where it came from. `Query.descend` is the same search without either: it looks into a text,
and then searches below the first of the texts that come from it, all the way down, before it turns
to the second. The rules on the way to a final text are put together on the way back. What both
share is what they remember: the texts met, the remainders looked into, and the cache.

`Engine.explain_eq_traverse` says that the two are the same: they find the same text by the same
rules, and leave the same cache. The proof relates the stack to what the recursion has still to do
(`explore_descend`): the nodes on top of the stack are the texts that come from the current one, and
what is below them is not touched until these are done.
-/

namespace Fillout

/-- What a recursive search remembers. -/
structure Memory where
  visited : List Text
  settled : Settled

/-- The memory of a search that starts with a text. -/
def Memory.start (source : Text) : Memory := ⟨[source], []⟩

/-- Applies a function to one item after the other until there is a result, and hands a state on. -/
def firstInTurn {α β σ : Type} (f : α → σ → Option β × σ) : List α → σ → Option β × σ
  | [], state => (none, state)
  | a :: rest, state =>
      match f a state with
      | (some b, state) => (some b, state)
      | (none, state) => firstInTurn f rest state

instance : WellFoundedRelation Node := ⟨Node.Smaller, Node.smaller_wellFounded⟩

namespace Query

variable (q : Query)

/-- Searches below a node: the first final text, with the rules applied on the way to it. -/
def descend (node : Node) (state : Memory × Cache) : Option Explanation × Memory × Cache :=
  if _h : node.left = 0 then (none, state)
  else
    match Template.firstContainer? node.text with
    | none => (none, state)
    | some c =>
        if state.1.settled.covers c.remainder 0 node.left then (none, state)
        else
          let nested := cached fun source cache =>
            let r := descend ⟨source, node.left - 1⟩ (.start source, cache)
            (r.1.map Explanation.result, r.2.2)
          let r := q.containerSteps nested c state.2
          let news := unseen state.1.visited r.1
          let state : Memory × Cache :=
            (⟨(news.map Candidate.value).reverse ++ state.1.visited,
              (c.remainder, 0, node.left) :: state.1.settled⟩, r.2)
          match news.find? fun s => Template.isFinal s.value with
          | some s => (some ⟨s.value, s.rule?.toList⟩, state)
          | none =>
              firstInTurn (fun s state =>
                let r := descend (node.child s.value) state
                (r.1.map fun x => ⟨x.result, s.rule?.toList ++ x.rules⟩, r.2)) news state
termination_by node
decreasing_by
  · exact Node.smaller_of_left (Nat.sub_one_lt _h)
  · exact Node.child_smaller (Nat.pos_of_ne_zero _h) _

/-- Searches for a final text below `source`, of which `left` levels may be opened. -/
def traverse (source : Text) (left : Nat) (cache : Cache) : Option Explanation × Cache :=
  if Template.isFinal source then (some ⟨source, []⟩, cache)
  else
    let r := q.descend ⟨source, left⟩ (.start source, cache)
    (r.1, r.2.2)

end Query

/-! ## Progress that is only added to -/

namespace Progress

/-- What a recursive search would remember. -/
def memory (p : Progress) : Memory := ⟨p.visited, p.settled⟩

/-- `p'` knows all texts that `p` knows, with the same rules on the way to them. -/
def Extends (p p' : Progress) : Prop :=
  ∀ t ∈ p.visited, t ∈ p'.visited ∧ ruleChain p'.origins t = ruleChain p.origins t

theorem Extends.refl (p : Progress) : p.Extends p := fun _ ht => ⟨ht, rfl⟩

theorem Extends.trans {p₁ p₂ p₃ : Progress} (h₁ : p₁.Extends p₂) (h₂ : p₂.Extends p₃) :
    p₁.Extends p₃ := by
  intro t ht
  obtain ⟨ht₂, he₂⟩ := h₁ t ht
  obtain ⟨ht₃, he₃⟩ := h₂ t ht₂
  exact ⟨ht₃, he₃.trans he₂⟩

theorem extends_settle (p : Progress) (remainder : Text) (left : Nat) :
    p.Extends (p.settle remainder left) := fun _ ht => ⟨ht, rfl⟩

/-- Recording a text that `p` does not know changes nothing for `p`. -/
theorem Extends.record {p p' : Progress} (h : p.Extends p') (parent : Text) {s : Candidate}
    (hs : s.value ∉ p.visited) : p.Extends (p'.record parent s) := by
  intro t ht
  obtain ⟨ht', he⟩ := h t ht
  have hne : s.value ≠ t := fun he => hs (he ▸ ht)
  exact ⟨List.mem_cons_of_mem _ ht', (if_neg hne).trans he⟩

theorem Extends.foldl_record {p p' : Progress} (h : p.Extends p') (parent : Text)
    {news : List Candidate} (hnew : ∀ s ∈ news, s.value ∉ p.visited) :
    p.Extends (news.foldl (Progress.record parent) p') := by
  induction news generalizing p' with
  | nil => exact h
  | cons s news ih =>
      exact ih (h.record parent (hnew s List.mem_cons_self))
        fun u hu => hnew u (List.mem_cons_of_mem s hu)

theorem ruleChain_record (parent : Text) (p : Progress) (s : Candidate) :
    ruleChain (p.record parent s).origins s.value =
      ruleChain p.origins parent ++ s.rule?.toList :=
  if_pos rfl

/-- The rules on the way to a text that has been taken up are those on the way to its parent and the
one that supplied the value. -/
theorem ruleChain_foldl_record {parent : Text} {p : Progress} (hp : parent ∈ p.visited)
    {news : List Candidate} (hnew : ∀ s ∈ news, s.value ∉ p.visited)
    (hnodup : (news.map Candidate.value).Nodup) :
    ∀ s ∈ news, s.value ∈ (news.foldl (record parent) p).visited ∧
      ruleChain (news.foldl (record parent) p).origins s.value =
        ruleChain p.origins parent ++ s.rule?.toList := by
  induction news generalizing p with
  | nil => exact fun s hs => nomatch hs
  | cons u news ih =>
      have hu := (Extends.refl p).record parent (hnew u List.mem_cons_self)
      have hnodup' := List.nodup_cons.1 hnodup
      have hnew' : ∀ s ∈ news, s.value ∉ (p.record parent u).visited := by
        intro s hs hmem
        rcases List.mem_cons.1 hmem with he | hmem
        · exact hnodup'.1 (he ▸ List.mem_map_of_mem hs)
        · exact hnew s (List.mem_cons_of_mem u hs) hmem
      intro s hs
      rcases List.mem_cons.1 hs with rfl | hs
      · obtain ⟨hmem, hchain⟩ := (Extends.refl (p.record parent s)).foldl_record parent hnew'
          s.value List.mem_cons_self
        exact ⟨hmem, hchain.trans (ruleChain_record parent p s)⟩
      · obtain ⟨hmem, hchain⟩ := ih (hu _ hp).1 hnew' hnodup'.2 s hs
        refine ⟨hmem, ?_⟩
        rw [List.foldl_cons, hchain, (hu _ hp).2]

end Progress

theorem nodup_unseen (seen : List Text) (steps : List Candidate) :
    ((unseen seen steps).map Candidate.value).Nodup := by
  induction steps generalizing seen with
  | nil => exact List.nodup_nil
  | cons s rest ih =>
      rw [unseen]
      split
      · exact ih seen
      · rw [List.map_cons, List.nodup_cons]
        refine ⟨fun h => ?_, ih _⟩
        obtain ⟨u, hu, he⟩ := List.mem_map.1 h
        exact (mem_of_mem_unseen hu).2 (he ▸ List.mem_cons_self)

namespace Query

variable {q : Query}

/-! ## One turn of the recursion -/

theorem descend_of_skips {node : Node} {p : Progress} (h : Skips node p) (cache : Cache) :
    q.descend node (p.memory, cache) = (none, p.memory, cache) := by
  rw [descend]
  rcases h with hl | hc | ⟨c, hc, hs⟩
  · rw [dif_pos hl]
  · rw [hc]
    split <;> rfl
  · rw [hc]
    split
    · rfl
    · exact if_pos hs

/-- The recursion fills the leftmost container and goes on below what this leads to. -/
theorem descend_of_container {node : Node} {c : Template.Container} {p : Progress}
    (hl : 0 < node.left) (hc : Template.firstContainer? node.text = some c)
    (hs : ¬ p.settled.covers c.remainder 0 node.left) (cache : Cache)
    (hn : q.resolveNested (node.left - 1) = cached fun source cache =>
      ((q.descend ⟨source, node.left - 1⟩ (.start source, cache)).1.map Explanation.result,
        (q.descend ⟨source, node.left - 1⟩ (.start source, cache)).2.2)) :
    let news := unseen p.visited (q.stepsFrom node c cache).1
    let state := ((news.foldl (Progress.record node.text) (p.settle c.remainder node.left)).memory,
      (q.stepsFrom node c cache).2)
    q.descend node (p.memory, cache) =
      match news.find? fun s => Template.isFinal s.value with
      | some s => (some ⟨s.value, s.rule?.toList⟩, state)
      | none =>
          firstInTurn (fun s state =>
            ((q.descend (node.child s.value) state).1.map fun x =>
                ⟨x.result, s.rule?.toList ++ x.rules⟩,
              (q.descend (node.child s.value) state).2)) news state := by
  rw [descend, dif_neg (Nat.ne_of_gt hl), hc]
  unfold stepsFrom Progress.memory
  dsimp only
  rw [hn, if_neg hs, Progress.visited_foldl_record, Progress.settled_foldl_record]
  rfl

/-! ## The stack is what the recursion has still to do -/

/-- What a search has found is what the recursion has found, with `rules` in front of its rules. If
the recursion has found nothing, the search goes on with the rest of the stack, and remembers the
same. -/
def Agrees (q : Query) (rules : List RuleId) (p : Progress) (rest : List Node)
    (below : Option Explanation × Memory × Cache)
    (found : Option Text × List Origin × Cache) : Prop :=
  match below with
  | (some x, _, cache) =>
      ∃ origins, found = (some x.result, origins, cache) ∧
        ruleChain origins x.result = rules ++ x.rules
  | (none, memory, cache) =>
      ∃ p', p'.memory = memory ∧ p.Extends p' ∧ found = q.explore rest p' cache

theorem Agrees.of_extends {rules : List RuleId} {p p' : Progress} {rest : List Node}
    {below : Option Explanation × Memory × Cache} {found : Option Text × List Origin × Cache}
    (h : Agrees q rules p' rest below found) (hext : p.Extends p') :
    Agrees q rules p rest below found := by
  obtain ⟨_ | x, memory, cache⟩ := below
  · obtain ⟨p'', hm, hext', he⟩ := h
    exact ⟨p'', hm, hext.trans hext', he⟩
  · exact h

/-- If searching below each of the nodes agrees with the recursion, so does searching below all of
them in turn. -/
theorem firstInTurn_agrees {node : Node} {rules : List RuleId} {rest : List Node}
    (ih : ∀ s : Candidate, ∀ rest p cache, s.value ∈ p.visited →
      Agrees q (ruleChain p.origins s.value) p rest
        (q.descend (node.child s.value) (p.memory, cache))
        (q.explore (node.child s.value :: rest) p cache))
    (todo : List Candidate) (p : Progress) (cache : Cache)
    (htodo : ∀ s ∈ todo, s.value ∈ p.visited ∧
      ruleChain p.origins s.value = rules ++ s.rule?.toList) :
    Agrees q rules p rest
      (firstInTurn (fun s state =>
        ((q.descend (node.child s.value) state).1.map fun x =>
            ⟨x.result, s.rule?.toList ++ x.rules⟩,
          (q.descend (node.child s.value) state).2)) todo (p.memory, cache))
      (q.explore (todo.map (fun s => node.child s.value) ++ rest) p cache) := by
  induction todo generalizing p cache with
  | nil => exact ⟨p, rfl, .refl p, rfl⟩
  | cons s todo iht =>
      obtain ⟨hs, hchain⟩ := htodo s List.mem_cons_self
      have hfirst := ih s (todo.map (fun s => node.child s.value) ++ rest) p cache hs
      rw [List.map_cons, List.cons_append, firstInTurn]
      rcases hd : q.descend (node.child s.value) (p.memory, cache) with ⟨_ | x, m, cache'⟩
      · -- Nothing below `s`: both go on with the next text, and remember the same.
        rw [hd] at hfirst
        obtain ⟨p', rfl, hext, he⟩ := hfirst
        have hrest := iht p' cache' fun u hu => by
          obtain ⟨hu, huc⟩ := htodo u (List.mem_cons_of_mem s hu)
          obtain ⟨hu', huc'⟩ := hext _ hu
          exact ⟨hu', huc'.trans huc⟩
        rw [he]
        exact hrest.of_extends hext
      · -- Found below `s`: the rest of the stack is never looked at.
        rw [hd] at hfirst
        obtain ⟨origins, he, hc⟩ := hfirst
        refine ⟨origins, he, ?_⟩
        rw [hc, hchain, List.append_assoc]

/-- Searching below a node with a stack does the same as searching below it by recursion. -/
theorem explore_descend (node : Node) (rest : List Node) (p : Progress) (cache : Cache)
    (hp : node.text ∈ p.visited) :
    Agrees q (ruleChain p.origins node.text) p rest (q.descend node (p.memory, cache))
      (q.explore (node :: rest) p cache) := by
  induction node using Node.smaller_wellFounded.induction generalizing rest p cache with
  | _ node ih =>
    rw [explore_cons]
    rcases q.lookInto_cases node p cache with ⟨hskip, h⟩ | ⟨c, hl, hc, hs, h⟩
    · rw [h, descend_of_skips hskip]
      exact ⟨p, rfl, .refl p, rfl⟩
    · -- Values depend on the same results, since the recursion below agrees as well.
      have hn : q.resolveNested (node.left - 1) = cached fun source cache =>
          ((q.descend ⟨source, node.left - 1⟩ (.start source, cache)).1.map Explanation.result,
            (q.descend ⟨source, node.left - 1⟩ (.start source, cache)).2.2) := by
        unfold resolveNested
        congr 1
        funext source cache'
        have hdown := ih ⟨source, node.left - 1⟩
          (Node.smaller_of_left (Nat.sub_one_lt (Nat.ne_of_gt hl))) [] (.start source) cache'
          List.mem_cons_self
        change Agrees q _ _ _ (q.descend _ (.start source, cache')) _ at hdown
        rcases hd : q.descend ⟨source, node.left - 1⟩
          (.start source, cache') with ⟨_ | x, m, cache''⟩
        · rw [hd] at hdown
          obtain ⟨p', -, -, he⟩ := hdown
          rw [he, explore_nil]
          rfl
        · rw [hd] at hdown
          obtain ⟨origins, he, -⟩ := hdown
          rw [he]
          rfl
      have hnew : ∀ s ∈ unseen p.visited (q.stepsFrom node c cache).1, s.value ∉ p.visited :=
        fun s hs => (mem_of_mem_unseen hs).2
      -- The children are recorded before any of them is looked into, by both.
      have hext := p.extends_settle c.remainder node.left
      have hturn := descend_of_container hl hc hs cache hn
      dsimp only at hturn
      rw [h, hturn]
      cases hf : (unseen p.visited (q.stepsFrom node c cache).1).find?
          fun s => Template.isFinal s.value with
      | some s =>
          obtain ⟨news, hnews, he⟩ := q.fillFirst_of_find?_some hf
          obtain ⟨-, hchain⟩ :=
            hext.foldl_record node.text (fun u hu => hnew u (hnews u hu)) node.text hp
          rw [he]
          refine ⟨_, rfl, ?_⟩
          rw [Progress.ruleChain_record, hchain]
      | none =>
          rw [q.fillFirst_of_find?_none hf]
          have hchildren : ∀ s : Candidate, ∀ rest p cache, s.value ∈ p.visited →
              Agrees q (ruleChain p.origins s.value) p rest
                (q.descend (node.child s.value) (p.memory, cache))
                (q.explore (node.child s.value :: rest) p cache) :=
            fun s rest p cache hs => ih _ (Node.child_smaller hl s.value) rest p cache hs
          have htodo := Progress.ruleChain_foldl_record
            (p := p.settle c.remainder node.left) hp hnew (nodup_unseen _ _)
          exact (firstInTurn_agrees hchildren _ _ _ htodo).of_extends
            (hext.foldl_record node.text hnew)

end Query

theorem Query.first_eq_traverse (q : Query) (source : Text) (left : Nat) (cache : Cache) :
    ((q.first source left cache).1.map fun t => ⟨t, ruleChain (q.first source left cache).2.1 t⟩,
      (q.first source left cache).2.2) = q.traverse source left cache := by
  unfold Query.first Query.traverse
  by_cases hf : Template.isFinal source
  · rw [if_pos hf, if_pos hf]
    rfl
  · rw [if_neg hf, if_neg hf]
    have h := Query.explore_descend (q := q) ⟨source, left⟩ [] (.start source) cache
      List.mem_cons_self
    change Query.Agrees q _ _ _ (q.descend _ (.start source, cache)) _ at h
    rcases hd : q.descend ⟨source, left⟩ (.start source, cache) with ⟨_ | x, m, cache'⟩
    · rw [hd] at h
      obtain ⟨p', -, -, he⟩ := h
      rw [he, q.explore_nil]
      rfl
    · rw [hd] at h
      obtain ⟨origins, he, hc⟩ := h
      rw [he]
      dsimp only [Option.map_some]
      rw [hc]
      rfl

/-- The search with a stack finds the same text as the recursive search, by the same rules, and
leaves the same cache, whatever it is asked for and with whatever levels and cache it starts; so the
answers of the engine are those of the recursive search. -/
theorem Engine.explain_eq_traverse (e : Engine) (ctx : Context) (source : Text) :
    (∀ text left cache,
      (((e.query ctx source).first text left cache).1.map fun t =>
          ⟨t, ruleChain ((e.query ctx source).first text left cache).2.1 t⟩,
        ((e.query ctx source).first text left cache).2.2) =
        (e.query ctx source).traverse text left cache) ∧
      e.explain ctx source = ((e.query ctx source).traverse source ctx.maxDepth []).1 ∧
      e.resolveFirst ctx source =
        ((e.query ctx source).traverse source ctx.maxDepth []).1.map Explanation.result := by
  have h := (e.query ctx source).first_eq_traverse
  refine ⟨h, ?_, ?_⟩
  · rw [← h]
    rfl
  · rw [← h, Option.map_map]
    exact Option.map_id'.symm

end Fillout
