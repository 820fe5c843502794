import Fillout.Proofs.Search.Asking
import Fillout.Proofs.Search.Turn
import Mathlib.Data.Nat.Find

set_option autoImplicit false

/-! # Values that are worked out afresh

`Query.value?` resolves a text without a cache: every text that a value depends on is resolved anew,
one level further down, and there is no outcome if the limit is met anywhere on the way. A value
that depends on itself would be worked out at every level down to the last one, so it has no outcome
either.

If there is an outcome, it does not depend on the levels that are left: any number of further levels
leads to the same (`value?_raise`). Nor does it depend on the cache: the search finds the value that
is worked out afresh, whatever has been resolved before it, as long as the cache says nothing wrong
(`resolveNested_of_value?`). A text that is being resolved stands in the cache without a result. It
is not asked for, though, because all that it depends on has a value at levels where itself it has
none: this is why the induction takes the least level at which a text has a value.
-/

namespace Fillout

/-! ## More levels -/

/-- A text to look into with `k` more levels. -/
def Node.raise (k : Nat) (n : Node) : Node := ⟨n.text, n.left + k⟩

/-- The progress of a search that has `k` more levels. -/
def Progress.raise (k : Nat) (p : Progress) : Progress :=
  { p with settled := p.settled.map fun (t, score, left) => (t, score, left + k) }

theorem Node.Smaller.left_le {a b : Node} (h : a.Smaller b) : a.left ≤ b.left := by
  rcases Prod.lex_def.1 h with hlt | ⟨he, -⟩
  · exact Nat.le_of_lt hlt
  · exact Nat.le_of_eq he

theorem Node.child_raise {n : Node} (h : 0 < n.left) (k : Nat) (t : Text) :
    (n.raise k).child t = (n.child t).raise k := by
  unfold Node.child Node.raise
  dsimp only
  split
  · rfl
  · rw [Nat.sub_add_comm h]

namespace Progress

theorem covers_raise (k : Nat) (p : Progress) (remainder : Text) (score left : Nat) :
    (p.raise k).settled.covers remainder score (left + k) =
      p.settled.covers remainder score left := by
  have hl : (p.raise k).settled.lookup remainder =
      (p.settled.lookup remainder).map fun seen => (seen.1, seen.2 + k) :=
    Settled.lookup_map (fun left => left + k) p.settled remainder
  unfold Settled.covers
  rw [hl]
  cases p.settled.lookup remainder with
  | none => rfl
  | some seen =>
      show (decide (score ≤ seen.1) && decide (left + k ≤ seen.2 + k)) =
        (decide (score ≤ seen.1) && decide (left ≤ seen.2))
      rw [decide_eq_decide.2 (Nat.add_le_add_iff_right (n := k))]

theorem takeUp_raise {parent : Node} (h : 0 < parent.left) (k : Nat) (steps : List Candidate)
    (p : Progress) :
    takeUp (parent.raise k) steps (p.raise k) =
      ((takeUp parent steps p).1, (takeUp parent steps p).2.1.map (Node.raise k),
        (takeUp parent steps p).2.2.raise k) := by
  induction steps generalizing p with
  | nil => rfl
  | cons s rest ih =>
      by_cases hs : s.value ∈ p.visited
      · rw [takeUp_of_mem hs, takeUp_of_mem (p := p.raise k) hs, ih]
      · by_cases hf : Template.isFinal s.value
        · rw [takeUp_of_final hs hf, takeUp_of_final (p := p.raise k) hs hf]
          rfl
        · have hrec :
              (p.raise k).record (parent.raise k).text s = (p.record parent.text s).raise k :=
            rfl
          rw [takeUp_of_new hs hf, takeUp_of_new (p := p.raise k) hs hf, hrec, ih,
            Node.child_raise h]
          rfl

end Progress

namespace Query

theorem skips_raise {node : Node} {p : Progress} (hl : node.left ≠ 0) (k : Nat) :
    Skips (node.raise k) (p.raise k) ↔ Skips node p := by
  have hr : (node.raise k).left ≠ 0 := fun h => hl (Nat.eq_zero_of_add_eq_zero_right h)
  unfold Skips
  rw [eq_false hl, eq_false hr]
  simp only [Node.raise, Progress.covers_raise]

variable (q : Query)

/-! ## Without a cache -/

/-- Looks into the texts of a stack until a final text is found, and resolves afresh every text that
a value depends on. There is no outcome if a text has no levels left. -/
def exploreAfresh (stack : List Node) (p : Progress) : Option (Option Text) :=
  match stack with
  | [] => some none
  | node :: rest =>
      if _h : node.left = 0 then none
      else
        match Template.firstContainer? node.text with
        | none => exploreAfresh rest p
        | some c =>
            if p.settled.covers c.remainder 0 node.left then exploreAfresh rest p
            else
              let values := fun source =>
                if Template.isFinal source then some (some source)
                else exploreAfresh [⟨source, node.left - 1⟩] (.start source)
              match (q.stepsAsking c).given? values with
              | none => none
              | some steps =>
                  let taken := Progress.takeUp node steps (p.settle c.remainder node.left)
                  match taken.1 with
                  | some t => some (some t)
                  | none => exploreAfresh (taken.2.1 ++ rest) taken.2.2
termination_by Agenda.mk stack
decreasing_by
  · exact .skip _ _
  · exact .skip _ _
  · exact .restart (Node.smaller_of_left (Nat.sub_one_lt _h)) _
  · exact .keep (Progress.takeUp_smaller (Nat.pos_of_ne_zero _h) _ _)

/-- What a text resolves to with `left` levels, worked out afresh. There is no outcome if the limit
is met on the way. -/
def value? (left : Nat) (source : Text) : Option (Option Text) :=
  if Template.isFinal source then some (some source)
  else q.exploreAfresh [⟨source, left⟩] (.start source)

variable {q} {node : Node} {rest : List Node} {p : Progress}

theorem exploreAfresh_of_skips (hl : node.left ≠ 0) (h : Skips node p) :
    q.exploreAfresh (node :: rest) p = q.exploreAfresh rest p := by
  rw [exploreAfresh, dif_neg hl]
  rcases h with h0 | hc | ⟨c, hc, hs⟩
  · exact absurd h0 hl
  · rw [hc]
  · rw [hc]
    exact if_pos hs

theorem exploreAfresh_of_container {c : Template.Container} (hl : 0 < node.left)
    (hc : Template.firstContainer? node.text = some c)
    (hs : ¬ p.settled.covers c.remainder 0 node.left) :
    q.exploreAfresh (node :: rest) p =
      ((q.stepsAsking c).given? (q.value? (node.left - 1))).bind fun steps =>
        match Progress.takeUp node steps (p.settle c.remainder node.left) with
        | (some t, _, _) => some (some t)
        | (none, nodes, p) => q.exploreAfresh (nodes ++ rest) p := by
  rw [exploreAfresh, dif_neg (Nat.ne_of_gt hl), hc]
  dsimp only
  rw [if_neg hs]
  change (match (q.stepsAsking c).given? (q.value? (node.left - 1)) with
    | none => none
    | some steps => _) = _
  cases (q.stepsAsking c).given? (q.value? (node.left - 1)) with
  | none => rfl
  | some steps =>
      dsimp only [Option.bind_some]
      rcases Progress.takeUp node steps (p.settle c.remainder node.left) with ⟨_ | t, nodes, p'⟩ <;>
        rfl

/-- A search that has an outcome has levels left for the next text. -/
theorem left_pos_of_exploreAfresh {r : Option Text}
    (h : q.exploreAfresh (node :: rest) p = some r) : 0 < node.left := by
  refine Nat.pos_of_ne_zero fun h0 => ?_
  rw [exploreAfresh, dif_pos h0] at h
  cases h

/-! ## More levels change nothing -/

/-- With more levels a search that works everything out has the same outcome. -/
theorem exploreAfresh_raise {stack : List Node} {p : Progress} {r : Option Text}
    (h : q.exploreAfresh stack p = some r) (k : Nat) :
    q.exploreAfresh (stack.map (Node.raise k)) (p.raise k) = some r := by
  induction ha : Agenda.mk stack using Agenda.wellFounded.induction generalizing stack p r with
  | _ a ih =>
    subst ha
    cases stack with
    | nil =>
        rw [exploreAfresh] at h
        rw [List.map_nil, exploreAfresh, h]
    | cons node rest =>
        have hl := left_pos_of_exploreAfresh h
        have hr : 0 < (node.raise k).left := Nat.add_pos_left hl k
        rw [List.map_cons]
        rcases q.lookInto_cases node p [] with ⟨hskip, -⟩ | ⟨c, -, hc, hs, -⟩
        · rw [exploreAfresh_of_skips (Nat.ne_of_gt hl) hskip] at h
          rw [exploreAfresh_of_skips (Nat.ne_of_gt hr) ((skips_raise (Nat.ne_of_gt hl) k).2 hskip)]
          exact ih _ (.skip node rest) h rfl
        · -- What the values depend on has the same values with more levels, by the induction.
          have hvalues : ∀ source result, q.value? (node.left - 1) source = some result →
              q.value? ((node.raise k).left - 1) source = some result := by
            intro source result hv
            have hleft : (node.raise k).left - 1 = node.left - 1 + k := Nat.sub_add_comm hl
            unfold value? at hv ⊢
            split at hv
            · rwa [if_pos ‹_›]
            · rw [if_neg ‹_›, hleft]
              exact ih _ (.restart (Node.smaller_of_left (Nat.sub_one_lt (Nat.ne_of_gt hl))) rest)
                hv rfl
          have hcov : ¬ (p.raise k).settled.covers c.remainder 0 (node.raise k).left := by
            rw [Node.raise, Progress.covers_raise]
            exact hs
          have hset : (p.raise k).settle c.remainder (node.raise k).left =
              (p.settle c.remainder node.left).raise k := rfl
          rw [exploreAfresh_of_container hl hc hs] at h
          obtain ⟨steps, hsteps, hrest⟩ := Option.bind_eq_some_iff.1 h
          have hsmall := Progress.takeUp_smaller hl steps (p.settle c.remainder node.left)
          rw [exploreAfresh_of_container hr hc hcov, Asking.given?_mono hvalues hsteps,
            Option.bind_some, hset, Progress.takeUp_raise hl]
          rcases ht : Progress.takeUp node steps (p.settle c.remainder node.left) with
            ⟨_ | t, nodes, p'⟩
          · rw [ht] at hrest hsmall
            dsimp only
            rw [← List.map_append]
            exact ih _ (.keep hsmall) hrest rfl
          · rw [ht] at hrest
            exact hrest

/-- With more levels a text has the same value. -/
theorem value?_raise {left : Nat} {source : Text} {r : Option Text}
    (h : q.value? left source = some r) (k : Nat) : q.value? (left + k) source = some r := by
  unfold value? at h ⊢
  split at h
  · rwa [if_pos ‹_›]
  · rw [if_neg ‹_›]
    exact exploreAfresh_raise h k

theorem value?_of_le {left left' : Nat} {source : Text} {r : Option Text}
    (h : q.value? left source = some r) (hle : left ≤ left') : q.value? left' source = some r := by
  obtain ⟨k, rfl⟩ := Nat.exists_eq_add_of_le hle
  exact value?_raise h k

/-- A text has at most one value, at whatever levels it is worked out. -/
theorem value?_unique {left left' : Nat} {source : Text} {r r' : Option Text}
    (h : q.value? left source = some r) (h' : q.value? left' source = some r') : r = r' := by
  have hmax := value?_of_le h (Nat.le_max_left left left')
  rw [value?_of_le h' (Nat.le_max_right left left')] at hmax
  exact (Option.some.inj hmax).symm

/-- With fewer levels a text has no value that it does not have. -/
theorem value?_eq_none_of_le {left left' : Nat} {source : Text}
    (h : q.value? left' source = none) (hle : left ≤ left') : q.value? left source = none := by
  cases hv : q.value? left source with
  | none => rfl
  | some r =>
      rw [value?_of_le hv hle] at h
      cases h

/-- A text that has a value has it from some number of levels on, and none below. -/
theorem exists_least_value? {left : Nat} {source : Text} {r : Option Text}
    (h : q.value? left source = some r) :
    ∃ m ≤ left, q.value? m source = some r ∧ ∀ l < m, q.value? l source = none := by
  have hex : ∃ m, q.value? m source = some r := ⟨left, h⟩
  refine ⟨Nat.find hex, Nat.find_min' hex h, Nat.find_spec hex, fun l hlt => ?_⟩
  cases hv : q.value? l source with
  | none => rfl
  | some r' => exact absurd (value?_unique hv h ▸ hv) (Nat.find_min hex hlt)

/-! ## The cache changes nothing -/

/-- The cache says nothing wrong: every entry is the value of its text, but for the texts that are
being resolved. -/
def CacheTrue (q : Query) (resolving : List Text) (cache : Cache) : Prop :=
  ∀ s result, cache.lookup s = some result → s ∈ resolving ∨ ∃ left, q.value? left s = some result

theorem CacheTrue.nil : q.CacheTrue [] [] := fun _ _ h => nomatch h

/-- A text that is going to be resolved has no result until then. -/
theorem CacheTrue.begin {resolving : List Text} {cache : Cache} (h : q.CacheTrue resolving cache)
    (source : Text) : q.CacheTrue (source :: resolving) ((source, none) :: cache) := by
  intro s result hl
  rw [List.lookup_cons] at hl
  split at hl
  · rename_i he
    exact .inl (List.mem_cons.2 (.inl (eq_of_beq he)))
  · exact (h s result hl).imp_left (List.mem_cons_of_mem source)

/-- When a text has been resolved, its value is in the cache. -/
theorem CacheTrue.finish {resolving : List Text} {cache : Cache} {source : Text} {left : Nat}
    {r : Option Text} (h : q.CacheTrue (source :: resolving) cache)
    (hv : q.value? left source = some r) : q.CacheTrue resolving ((source, r) :: cache) := by
  intro s result hl
  rw [List.lookup_cons] at hl
  split at hl
  · rename_i he
    cases hl
    rw [eq_of_beq he]
    exact .inr ⟨left, hv⟩
  · rename_i he
    rcases h s result hl with hs | hs
    · rcases List.mem_cons.1 hs with rfl | hs
      · simp at he
      · exact .inl hs
    · exact .inr hs

/-- If the values are worked out, filling a container leads to the same texts, whoever gives the
answers. -/
theorem containerSteps_of_given? {nested : Nested Cache} {Ok : Cache → Prop} {left : Nat}
    (h : ∀ source result cache, q.value? left source = some result → Ok cache →
      (nested source cache).1 = result ∧ Ok (nested source cache).2)
    {c : Template.Container} {steps : List Candidate}
    (hsteps : (q.stepsAsking c).given? (q.value? left) = some steps) {cache : Cache}
    (hc : Ok cache) :
    (q.containerSteps nested c cache).1 = steps ∧ Ok (q.containerSteps nested c cache).2 := by
  rw [← run_stepsAsking]
  exact Asking.run_of_given? h hsteps hc

/-- If below `bound` levels every text that has a value is resolved to it, then a search with `k`
more levels finds what the search that works everything out finds. -/
theorem explore_of_exploreAfresh {bound : Nat} (k : Nat) {P : Cache → Prop}
    (hn : ∀ left < bound, ∀ source result cache, q.value? left source = some result → P cache →
      (q.resolveNested (left + k) source cache).1 = result ∧
        P (q.resolveNested (left + k) source cache).2)
    {stack : List Node} (hstack : ∀ n ∈ stack, n.left ≤ bound) {p : Progress} {r : Option Text}
    (h : q.exploreAfresh stack p = some r) {cache : Cache} (hc : P cache) :
    (q.explore (stack.map (Node.raise k)) (p.raise k) cache).1 = r ∧
      P (q.explore (stack.map (Node.raise k)) (p.raise k) cache).2.2 := by
  induction ha : Agenda.mk stack using Agenda.wellFounded.induction
    generalizing stack p r cache with
  | _ a ih =>
    subst ha
    cases stack with
    | nil =>
        rw [exploreAfresh] at h
        rw [List.map_nil, explore_nil]
        exact ⟨Option.some.inj h, hc⟩
    | cons node rest =>
        have hl := left_pos_of_exploreAfresh h
        have hrestBound : ∀ n ∈ rest, n.left ≤ bound :=
          fun n hn => hstack n (List.mem_cons_of_mem node hn)
        rw [List.map_cons, explore_cons]
        rcases q.lookInto_cases (node.raise k) (p.raise k) cache with
          ⟨hskip, hlook⟩ | ⟨c, -, hcont, hs, hlook⟩
        · rw [exploreAfresh_of_skips (Nat.ne_of_gt hl)
            ((skips_raise (Nat.ne_of_gt hl) k).1 hskip)] at h
          rw [hlook]
          exact ih _ (.skip node rest) hrestBound h hc rfl
        · have hcov : ¬ p.settled.covers c.remainder 0 node.left := by
            rw [Node.raise, Progress.covers_raise] at hs
            exact hs
          rw [exploreAfresh_of_container hl hcont hcov] at h
          obtain ⟨steps, hsteps, hrest⟩ := Option.bind_eq_some_iff.1 h
          -- The values depend on texts with fewer levels, below the bound.
          have hlt : node.left - 1 < bound :=
            Nat.lt_of_lt_of_le (Nat.sub_one_lt (Nat.ne_of_gt hl)) (hstack node List.mem_cons_self)
          have hleft : (node.raise k).left - 1 = node.left - 1 + k := Nat.sub_add_comm hl
          obtain ⟨hfrom, hkeep⟩ := containerSteps_of_given? (hn _ hlt) hsteps hc
          rw [← hleft] at hfrom hkeep
          have hset : (p.raise k).settle c.remainder (node.raise k).left =
              (p.settle c.remainder node.left).raise k := rfl
          have hsmall := Progress.takeUp_smaller hl steps (p.settle c.remainder node.left)
          rw [hlook]
          unfold fillFirst stepsFrom
          dsimp only
          rw [hfrom, hset, Progress.takeUp_raise hl]
          rcases ht : Progress.takeUp node steps (p.settle c.remainder node.left) with
            ⟨_ | t, nodes, p'⟩
          · rw [ht] at hrest hsmall
            dsimp only at hrest hsmall ⊢
            rw [← List.map_append]
            refine ih _ (.keep hsmall) (fun n hn => ?_) hrest hkeep rfl
            rcases List.mem_append.1 hn with hn | hn
            · exact Nat.le_trans (hsmall n hn).left_le (hstack node List.mem_cons_self)
            · exact hrestBound n hn
          · rw [ht] at hrest
            exact ⟨Option.some.inj hrest, hkeep⟩

/-- A text that has a value is resolved to it, with any number of further levels and whatever has
been resolved before, as long as the cache says nothing wrong and no text is being resolved that has
a value at these levels. The cache says nothing wrong afterwards. -/
theorem resolveNested_of_value? {left : Nat} {source : Text} {r : Option Text}
    (h : q.value? left source = some r) (k : Nat) {resolving : List Text} {cache : Cache}
    (hr : ∀ s ∈ resolving, q.value? left s = none) (hc : q.CacheTrue resolving cache) :
    (q.resolveNested (left + k) source cache).1 = r ∧
      q.CacheTrue resolving (q.resolveNested (left + k) source cache).2 := by
  induction left using Nat.strongRecOn generalizing source r k resolving cache with
  | ind left ih =>
    unfold resolveNested cached
    split
    · rename_i result hl
      rcases hc source result hl with hmem | ⟨left', hv⟩
      · rw [hr source hmem] at h
        cases h
      · exact ⟨value?_unique hv h, hc⟩
    · by_cases hf : Template.isFinal source
      · have hv := h
        unfold value? at hv
        rw [if_pos hf] at hv ⊢
        cases hv
        exact ⟨rfl, (hc.begin source).finish h⟩
      · rw [if_neg hf]
        -- At the least level at which it has a value, the text does not depend on itself.
        obtain ⟨m, hle, hm, hleast⟩ := exists_least_value? h
        have hbelow : ∀ l < m, ∀ s ∈ source :: resolving, q.value? l s = none := by
          intro l hlt s hs
          rcases List.mem_cons.1 hs with rfl | hs
          · exact hleast l hlt
          · exact value?_eq_none_of_le (hr s hs) (Nat.le_trans (Nat.le_of_lt hlt) hle)
        obtain ⟨j, rfl⟩ := Nat.exists_eq_add_of_le hle
        have hexplore : q.exploreAfresh [⟨source, m⟩] (.start source) = some r := by
          unfold value? at hm
          rwa [if_neg hf] at hm
        obtain ⟨hfound, hkeep⟩ := explore_of_exploreAfresh (j + k)
          (P := q.CacheTrue (source :: resolving))
          (fun l hlt s result cache hv hcache =>
            ih l (Nat.lt_of_lt_of_le hlt hle) hv (j + k) (hbelow l hlt) hcache)
          (fun n hn => by rw [List.mem_singleton.1 hn]) hexplore (hc.begin source)
        rw [Nat.add_assoc]
        change (q.explore [⟨source, m + (j + k)⟩] (.start source) ((source, none) :: cache)).1 = r
          at hfound
        refine ⟨hfound, ?_⟩
        show q.CacheTrue resolving ((source, _) :: _)
        rw [hfound]
        exact hkeep.finish hm

/-- Between two requests no text is being resolved. -/
theorem resolveNested_of_cacheTrue {left : Nat} {source : Text} {r : Option Text}
    (h : q.value? left source = some r) (k : Nat) {cache : Cache} (hc : q.CacheTrue [] cache) :
    (q.resolveNested (left + k) source cache).1 = r ∧
      q.CacheTrue [] (q.resolveNested (left + k) source cache).2 :=
  resolveNested_of_value? h k (fun _ hs => absurd hs List.not_mem_nil) hc

end Query

end Fillout
