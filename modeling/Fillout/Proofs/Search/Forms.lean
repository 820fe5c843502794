import Fillout.Proofs.Search.Direct
import Fillout.Proofs.Template.Flat

set_option autoImplicit false

/-! # Forms without choices to take back

A form is plain text with fields in it, containers for which only plain values are offered. Filling
a field leads to a form with one field less, so a search in a form stays on its level, and what it
looks into has fewer and fewer fields.

The search for a final text goes down along the first values. Nothing keeps it from doing so: all
texts that it has met have at least as many fields as the one that it looks into, and all remainders
that it has looked into have more (`IsAhead`). So if all fields have values, it finds the text with
the first ones (`first_of_isForm`). A field without values stays in all texts that are reached, and
then nothing is found (`first_of_isStuck`).
-/

namespace Fillout

/-- A piece with the text that `choose` has for its body in the place of a container, if it has
one. -/
def Template.Piece.fill (choose : Text → Option Text) : Template.Piece → Text
  | .plain t => t
  | .slot body => (choose body).getD (Template.Piece.slot body).text

/-- Nothing is put in for pieces that all stay as they are. -/
theorem Template.flatMap_fill_of_forall {choose : Text → Option Text} {ps : List Template.Piece}
    (h : ∀ b, .slot b ∈ ps → choose b = none) :
    ps.flatMap (Template.Piece.fill choose) = ps.flatMap Template.Piece.text := by
  refine congrArg List.flatten (List.map_congr_left ?_)
  rintro (t | b) hp
  · rfl
  · rw [Template.Piece.fill, h b hp]
    rfl

namespace Query

open Template (Piece IsPlain IsBody)

variable {q : Query} {rest : List Piece} {left : Nat}

/-! ## Forms -/

/-- The values that are offered for the entries of a container, in order. -/
def values (q : Query) (body : Text) : List Text :=
  (q.entriesValues (q.resolveNested (q.ctx.maxDepth - 1)) (Template.entries body) []).1.map
    Candidate.value

/-- A piece of a form: plain text, or a field, a container for which only plain values are
offered. -/
def Accepts (q : Query) : Piece → Prop
  | .plain t => IsPlain t
  | .slot b => IsBody b ∧ ∀ v ∈ q.values b, IsPlain v

instance (q : Query) : DecidablePred q.Accepts
  | .plain t => inferInstanceAs (Decidable (IsPlain t))
  | .slot b => inferInstanceAs (Decidable (IsBody b ∧ ∀ v ∈ q.values b, IsPlain v))

/-- All pieces are plain text and fields. -/
def IsForm (q : Query) (ps : List Piece) : Prop := ∀ p ∈ ps, q.Accepts p

instance (q : Query) (ps : List Piece) : Decidable (q.IsForm ps) := List.decidableBAll q.Accepts ps

namespace IsForm

theorem plain (h : q.IsForm rest) {t : Text} (ht : .plain t ∈ rest) : IsPlain t := h _ ht

theorem body (h : q.IsForm rest) {b : Text} (hb : .slot b ∈ rest) : IsBody b := (h _ hb).1

theorem values (h : q.IsForm rest) {b : Text} (hb : .slot b ∈ rest) : ∀ v ∈ q.values b, IsPlain v :=
  (h _ hb).2

theorem isClean (h : q.IsForm rest) : ∀ p ∈ rest, p.IsClean := by
  intro p hp
  cases p with
  | plain t => exact h.plain hp
  | slot b => exact h.body hp

theorem tail {p : Piece} (h : q.IsForm (p :: rest)) : q.IsForm rest :=
  (List.forall_mem_cons.1 h).2

end IsForm

/-! ## Steps -/

theorem values_eq (h : q.IsDirect) (body : Text) :
    q.values body = ((Template.entries body).flatMap q.plainEntryValues).map Candidate.value := by
  unfold values
  rw [entriesValues_eq h]

/-- If all values are plain, each of them makes a step. -/
theorem values_plainSteps (h : q.IsDirect) {c : Template.Container}
    (hvalues : ∀ v ∈ q.values c.body, IsPlain v) :
    (q.plainSteps c).map Candidate.value = (q.values c.body).map c.substitute := by
  have hall : ∀ s ∈ ((Template.entries c.body).flatMap q.plainEntryValues).map
      (fun v => ({ v with value := c.substitute v.value } : Candidate)),
      decide (s.value ≠ c.source) = true := by
    intro s hs
    obtain ⟨v, hv, rfl⟩ := List.mem_map.1 hs
    rw [decide_eq_true_eq]
    intro he
    -- the text of a container is not plain
    have hslot : v.value = (Piece.slot c.body).text := Template.substitute_eq_source.1 he
    have hplain : IsPlain v.value := hvalues _ (by rw [values_eq h]; exact List.mem_map_of_mem hv)
    rw [hslot] at hplain
    exact hplain.not_mem.1 List.mem_cons_self
  unfold plainSteps
  rw [List.filter_eq_self.2 hall, values_eq h, List.map_map, List.map_map]
  rfl

/-- The number of fields of a form, behind plain text. -/
theorem containerCount_form (hform : q.IsForm rest) {x : Text} (hx : IsPlain x) :
    Template.containerCount (x ++ rest.flatMap Piece.text) = rest.countP Piece.isSlot := by
  have hclean : ∀ p ∈ Piece.plain x :: rest, p.IsClean :=
    List.forall_mem_cons.2 ⟨hx, hform.isClean⟩
  have hcount := Template.containerCount_of_isClean hclean
  rw [List.flatMap_cons] at hcount
  exact hcount

theorem isFinal_form_iff (hform : q.IsForm rest) {x : Text} (hx : IsPlain x) :
    Template.isFinal (x ++ rest.flatMap Piece.text) = true ↔ ∀ b, .slot b ∉ rest := by
  unfold Template.isFinal
  rw [containerCount_form hform hx, beq_iff_eq, List.countP_eq_zero]
  constructor
  · exact fun hnone b hb => hnone _ hb rfl
  · rintro hnone (t | b) hp hslot
    · cases hslot
    · exact hnone b hp

/-- The steps from a field put its values in its place. -/
theorem value_of_mem_plainSteps (h : q.IsDirect) {c : Template.Container}
    (hvalues : ∀ v ∈ q.values c.body, IsPlain v) {w : Candidate} (hw : w ∈ q.plainSteps c) :
    ∃ v ∈ q.values c.body, w.value = c.substitute v := by
  have hmem : w.value ∈ (q.values c.body).map c.substitute :=
    values_plainSteps h hvalues ▸ List.mem_map_of_mem hw
  obtain ⟨v, hv, he⟩ := List.mem_map.1 hmem
  exact ⟨v, hv, he.symm⟩

/-- Filling the first field of a form leads to the rest of the form, behind plain text. -/
theorem form_of_mem_plainSteps (h : q.IsDirect) {b x : Text} (hform : q.IsForm (.slot b :: rest))
    (hx : IsPlain x) {w : Candidate}
    (hw : w ∈ q.plainSteps ⟨x, b, rest.flatMap Piece.text⟩) :
    ∃ y, IsPlain y ∧ w.value = y ++ rest.flatMap Piece.text := by
  have hvalues := hform.values List.mem_cons_self
  obtain ⟨v, hv, he⟩ := value_of_mem_plainSteps h hvalues hw
  exact ⟨x ++ v, hx.append (hvalues v hv), he⟩

/-! ## The first values -/

/-- A search is ahead of forms with `n` fields: all texts that it has met have at least as many, and
all remainders that it has looked into have more. -/
structure IsAhead (p : Progress) (n : Nat) : Prop where
  visited : ∀ t ∈ p.visited, n ≤ Template.containerCount t
  settled : ∀ r ∈ p.settled.map Prod.fst, n < Template.containerCount r

section

variable {b x : Text} {p : Progress}

theorem containerCount_remainder (hform : q.IsForm (.slot b :: rest)) :
    Template.containerCount (Template.Container.mk x b (rest.flatMap Piece.text)).remainder =
      rest.countP Piece.isSlot + 1 :=
  (containerCount_form hform Template.isPlain_nil).trans (List.countP_cons_of_pos rfl)

/-- A search that is ahead fills the first field of a form. -/
theorem lookInto_form (hleft : left ≠ 0) (hform : q.IsForm (.slot b :: rest)) (hx : IsPlain x)
    (cache : Cache) (hp : IsAhead p (rest.countP Piece.isSlot + 1)) :
    q.lookInto ⟨x ++ (Piece.slot b).text ++ rest.flatMap Piece.text, left⟩ p cache =
      q.fillFirst ⟨x ++ (Piece.slot b).text ++ rest.flatMap Piece.text, left⟩
        ⟨x, b, rest.flatMap Piece.text⟩ p cache := by
  have hfirst := Template.firstContainer?_slot hx (hform.body List.mem_cons_self)
    (rest.flatMap Piece.text)
  rcases q.lookInto_cases ⟨x ++ (Piece.slot b).text ++ rest.flatMap Piece.text, left⟩ p cache with
    ⟨hskip, -⟩ | ⟨c, -, hc, -, he⟩
  · rcases hskip with hzero | hnone | ⟨c, hc, hcovers⟩
    · exact absurd hzero hleft
    · rw [hfirst] at hnone
      cases hnone
    · rw [hfirst] at hc
      cases hc
      have hlt := hp.settled _ (mem_of_covers hcovers)
      rw [containerCount_remainder hform] at hlt
      exact absurd hlt (Nat.lt_irrefl _)
  · rw [hfirst] at hc
    cases hc
    exact he

/-- If a search is ahead, filling the first field of a form with its first value leads to a new
text. -/
theorem unseen_form (h : q.IsDirect) (hform : q.IsForm (.slot b :: rest)) (hx : IsPlain x)
    {v : Text}
    {vs : List Text} (hv : q.values b = v :: vs) (hp : IsAhead p (rest.countP Piece.isSlot + 1)) :
    ∃ s ss, s.value = x ++ v ++ rest.flatMap Piece.text ∧
      unseen p.visited (q.plainSteps ⟨x, b, rest.flatMap Piece.text⟩) = s :: ss := by
  have hsteps := values_plainSteps h (c := ⟨x, b, rest.flatMap Piece.text⟩)
    (hform.values List.mem_cons_self)
  rw [hv, List.map_cons] at hsteps
  obtain ⟨s, ss, hss, hs, -⟩ := List.map_eq_cons_iff.1 hsteps
  refine ⟨s, unseen (s.value :: p.visited) ss, hs, ?_⟩
  rw [hss, unseen, if_neg]
  -- All texts that have been met have more fields than the new one.
  intro hmet
  have hle := hp.visited _ hmet
  obtain ⟨y, hy, he⟩ := form_of_mem_plainSteps h hform hx (hss ▸ List.mem_cons_self)
  rw [he, containerCount_form hform.tail hy] at hle
  exact Nat.not_succ_le_self _ hle

/-- If the first field of a form is the last one too, the text with its first value is found. -/
theorem fillFirst_last (h : q.IsDirect) (hform : q.IsForm (.slot b :: rest)) (hx : IsPlain x)
    {v : Text} {vs : List Text} (hv : q.values b = v :: vs) (node : Node) (cache : Cache)
    (hp : IsAhead p (rest.countP Piece.isSlot + 1)) (hlast : ∀ d, .slot d ∉ rest) :
    (q.fillFirst node ⟨x, b, rest.flatMap Piece.text⟩ p cache).1 =
      some (x ++ v ++ rest.flatMap Piece.text) := by
  obtain ⟨s, ss, hs, hunseen⟩ := unseen_form h hform hx hv hp
  have hfinal : Template.isFinal s.value = true := by
    rw [hs]
    exact (isFinal_form_iff hform.tail
      (hx.append (hform.values List.mem_cons_self v (hv ▸ List.mem_cons_self)))).2 hlast
  have hfind : (unseen p.visited
      (q.stepsFrom node ⟨x, b, rest.flatMap Piece.text⟩ cache).1).find?
        (fun s => Template.isFinal s.value) = some s := by
    rw [stepsFrom_eq h, hunseen]
    exact List.find?_cons_of_pos hfinal
  obtain ⟨news, -, he⟩ := q.fillFirst_of_find?_some hfind
  rw [he, hs]

/-- If there are more fields, the text with the first value is looked into next, and the search is
ahead of it. -/
theorem fillFirst_form (h : q.IsDirect) (hform : q.IsForm (.slot b :: rest)) (hx : IsPlain x)
    {v : Text} {vs : List Text} (hv : q.values b = v :: vs) (left : Nat) (cache : Cache)
    (hp : IsAhead p (rest.countP Piece.isSlot + 1)) {d : Text} (hd : .slot d ∈ rest) :
    ∃ children p',
      q.fillFirst ⟨x ++ (Piece.slot b).text ++ rest.flatMap Piece.text, left⟩
          ⟨x, b, rest.flatMap Piece.text⟩ p cache =
        (none, ⟨x ++ v ++ rest.flatMap Piece.text, left⟩ :: children, p', cache) ∧
      IsAhead p' (rest.countP Piece.isSlot) := by
  generalize hnode : Node.mk (x ++ (Piece.slot b).text ++ rest.flatMap Piece.text) left = node
  generalize hc : Template.Container.mk x b (rest.flatMap Piece.text) = c
  obtain ⟨s, ss, hs, hunseen⟩ := unseen_form h hform hx hv hp
  rw [hc] at hunseen
  have hform' : ∀ u ∈ s :: ss, ∃ y, IsPlain y ∧ u.value = y ++ rest.flatMap Piece.text := by
    intro u hu
    rw [← hunseen, ← hc] at hu
    exact form_of_mem_plainSteps h hform hx (mem_of_mem_unseen hu).1
  have hcount : ∀ u ∈ s :: ss, Template.containerCount u.value = rest.countP Piece.isSlot := by
    intro u hu
    obtain ⟨y, hy, he⟩ := hform' u hu
    rw [he, containerCount_form hform.tail hy]
  have hfind : (unseen p.visited (q.stepsFrom node c cache).1).find?
      (fun s => Template.isFinal s.value) = none := by
    rw [stepsFrom_eq h, hunseen]
    refine List.find?_eq_none.2 fun u hu hfinal => ?_
    obtain ⟨y, hy, he⟩ := hform' u hu
    rw [he] at hfinal
    exact (isFinal_form_iff hform.tail hy).1 hfinal d hd
  -- A field less is left, so the text stays on the level.
  have hchild : node.child s.value = ⟨x ++ v ++ rest.flatMap Piece.text, left⟩ := by
    have hless : Template.containerCount s.value < Template.containerCount node.text := by
      have htext : node.text = x ++ (Piece.slot b :: rest).flatMap Piece.text := by
        rw [← hnode, List.flatMap_cons, List.append_assoc]
      rw [hcount s List.mem_cons_self, htext, containerCount_form hform hx,
        List.countP_cons_of_pos rfl]
      exact Nat.lt_succ_self _
    rw [Node.child, if_pos hless, hs, ← hnode]
  refine ⟨ss.map fun u => node.child u.value,
    (s :: ss).foldl (Progress.record node.text) (p.settle c.remainder node.left), ?_, ?_, ?_⟩
  · rw [q.fillFirst_of_find?_none hfind, stepsFrom_eq h, hunseen, List.map_cons, hchild]
  · rw [Progress.visited_foldl_record]
    intro t ht
    rcases List.mem_append.1 ht with ht | ht
    · obtain ⟨u, hu, rfl⟩ := List.mem_map.1 (List.mem_reverse.1 ht)
      exact Nat.le_of_eq (hcount u hu).symm
    · exact Nat.le_of_succ_le (hp.visited t ht)
  · rw [Progress.settled_foldl_record]
    refine List.forall_mem_cons.2 ⟨?_, fun r hr => Nat.lt_of_succ_lt (hp.settled r hr)⟩
    rw [← hc]
    dsimp only
    rw [containerCount_remainder hform]
    exact Nat.lt_succ_self _

/-- A search that is ahead of a form whose fields all have values finds the text with the first
values. -/
theorem explore_form (h : q.IsDirect) (hleft : left ≠ 0) (hform : q.IsForm rest)
    (hvalues : ∀ b, .slot b ∈ rest → q.values b ≠ []) {d : Text} (hd : .slot d ∈ rest)
    (hx : IsPlain x)
    (stack : List Node) (cache : Cache) (hp : IsAhead p (rest.countP Piece.isSlot)) :
    (q.explore (⟨x ++ rest.flatMap Piece.text, left⟩ :: stack) p cache).1 =
      some (x ++ rest.flatMap (Piece.fill fun b => (q.values b).head?)) := by
  induction rest generalizing d x p stack with
  | nil => cases hd
  | cons r rest ih =>
      have hrest : ∀ b, .slot b ∈ rest → q.values b ≠ [] :=
        fun b hb => hvalues b (List.mem_cons_of_mem r hb)
      rw [List.flatMap_cons, List.flatMap_cons, ← List.append_assoc, ← List.append_assoc]
      cases r with
      | plain t =>
          -- The text stays the same: `t` belongs to the plain text in front from here on.
          have hd : .slot d ∈ rest := (List.mem_cons.1 hd).resolve_left nofun
          have ht : IsPlain t := hform.plain List.mem_cons_self
          exact ih hform.tail hrest hd (hx.append ht) stack hp
      | slot b =>
          obtain ⟨v, vs, hv⟩ := List.exists_cons_of_ne_nil (hvalues b List.mem_cons_self)
          have hvplain : IsPlain v := hform.values List.mem_cons_self v (hv ▸ List.mem_cons_self)
          have hfill : (Piece.slot b).fill (fun b => (q.values b).head?) = v := by
            rw [Piece.fill, hv]
            rfl
          rw [List.countP_cons_of_pos rfl] at hp
          rw [hfill, explore_cons, lookInto_form hleft hform hx cache hp]
          by_cases hlast : ∀ d, .slot d ∉ rest
          · have hfound := fillFirst_last h hform hx hv
              ⟨x ++ (Piece.slot b).text ++ rest.flatMap Piece.text, left⟩ cache hp hlast
            rw [Template.flatMap_fill_of_forall fun d hd => absurd hd (hlast d)]
            split
            · rename_i t children p' cache' he
              rw [he] at hfound
              exact hfound
            · rename_i children p' cache' he
              rw [he] at hfound
              cases hfound
          · obtain ⟨d, hd⟩ := not_forall_not.1 hlast
            obtain ⟨children, p', he, hp'⟩ := fillFirst_form h hform hx hv left cache hp hd
            rw [he]
            exact ih hform.tail hrest hd (hx.append hvplain) (children ++ stack) hp'

end

/-! ## Fields without values -/

/-- In a form with fields, plain text stands in front of the first of them. -/
theorem IsForm.exists_first (hform : q.IsForm rest) {d : Text} (hd : .slot d ∈ rest) :
    ∃ y b r, IsPlain y ∧ q.IsForm (.slot b :: r) ∧ (d = b ∨ .slot d ∈ r) ∧
      rest.flatMap Piece.text = y ++ (Piece.slot b).text ++ r.flatMap Piece.text := by
  induction rest with
  | nil => cases hd
  | cons p rest ih =>
      cases p with
      | plain t =>
          obtain ⟨y, b, r, hy, hr, hd, he⟩ :=
            ih hform.tail ((List.mem_cons.1 hd).resolve_left nofun)
          refine ⟨t ++ y, b, r, (hform.plain List.mem_cons_self).append hy, hr, hd, ?_⟩
          rw [List.flatMap_cons, he, List.append_assoc, List.append_assoc, List.append_assoc]
          rfl
      | slot b =>
          refine ⟨[], b, rest, Template.isPlain_nil, hform, ?_, rfl⟩
          rcases List.mem_cons.1 hd with hd | hd
          · cases hd
            exact .inl rfl
          · exact .inr hd

/-- A text is stuck if it is plain text in front of a form with a field without values. -/
def IsStuck (q : Query) (t : Text) : Prop :=
  ∃ x rest d, IsPlain x ∧ q.IsForm rest ∧ .slot d ∈ rest ∧ q.values d = [] ∧
    t = x ++ rest.flatMap Piece.text

theorem IsStuck.not_isFinal {t : Text} (ht : q.IsStuck t) : ¬ Template.isFinal t = true := by
  obtain ⟨x, rest, d, hx, hform, hd, -, rfl⟩ := ht
  exact fun hfinal => (isFinal_form_iff hform hx).1 hfinal d hd

/-- Filling the first field leaves the one without values in its place. -/
theorem IsStuck.fillsLeftmost (h : q.IsDirect) {t u : Text} (ht : q.IsStuck t)
    (hfills : q.FillsLeftmost t u) : q.IsStuck u := by
  obtain ⟨x, rest, d, hx, hform, hd, hnone, rfl⟩ := ht
  obtain ⟨y, b, r, hy, hr, hd, he⟩ := hform.exists_first hd
  obtain ⟨c, hc, w, hw, rfl⟩ := hfills
  rw [he, ← List.append_assoc, ← List.append_assoc,
    Template.firstContainer?_slot (hx.append hy) (hr.body List.mem_cons_self)] at hc
  cases hc
  -- The first field is the one without values, and cannot be filled, or it stands before that one.
  rcases hd with rfl | hd
  · obtain ⟨v, hv, -⟩ := value_of_mem_plainSteps h (hr.values List.mem_cons_self) hw
    have hv : v ∈ q.values d := hv
    rw [hnone] at hv
    cases hv
  · obtain ⟨z, hz, he⟩ := form_of_mem_plainSteps h hr (hx.append hy) hw
    exact ⟨z, r, d, hz, hr.tail, hd, hnone, he⟩

theorem IsStuck.reaches (h : q.IsDirect) {t u : Text} (ht : q.IsStuck t) (hreach : q.Reaches t u) :
    q.IsStuck u := by
  induction hreach with
  | refl => exact ht
  | tail _ hstep ih => exact ih.fillsLeftmost h hstep

/-- A search finds nothing from a form with a field without values. -/
theorem first_of_isStuck (h : q.IsDirect) {source : Text} (hs : q.IsStuck source) (left : Nat)
    (cache : Cache) : (q.first source left cache).1 = none := by
  refine Option.eq_none_iff_forall_ne_some.2 fun t ht => ?_
  obtain ⟨hreach, hfinal⟩ := reaches_of_first h ht
  exact (hs.reaches h hreach).not_isFinal hfinal

/-- A search finds the text with the first values from a form whose fields all have values. -/
theorem first_of_isForm (h : q.IsDirect) (hform : q.IsForm rest)
    (hvalues : ∀ b, .slot b ∈ rest → q.values b ≠ []) {left : Nat} (hleft : left ≠ 0)
    (cache : Cache) :
    (q.first (rest.flatMap Piece.text) left cache).1 =
      some (rest.flatMap (Piece.fill fun b => (q.values b).head?)) := by
  have hempty := isFinal_form_iff hform Template.isPlain_nil
  rw [List.nil_append] at hempty
  unfold first
  by_cases hnone : ∀ b, .slot b ∉ rest
  · rw [if_pos (hempty.2 hnone), Template.flatMap_fill_of_forall fun b hb => absurd hb (hnone b)]
  · obtain ⟨d, hd⟩ := not_forall_not.1 hnone
    rw [if_neg fun hfinal => hnone (hempty.1 hfinal)]
    have hahead : IsAhead (.start (rest.flatMap Piece.text)) (rest.countP Piece.isSlot) := by
      refine ⟨fun t ht => ?_, fun r hr => nomatch hr⟩
      rw [List.mem_singleton.1 ht]
      exact Nat.le_of_eq (containerCount_form hform Template.isPlain_nil).symm
    exact explore_form h hleft hform hvalues hd Template.isPlain_nil [] cache hahead

end Query

end Fillout
