import Fillout.Proofs.Search.BestRun
import Fillout.Proofs.Search.Potential

set_option autoImplicit false

/-! # The best text of a form

In a form the search for the best text comes to the text in which all fields are filled with the
best of their values, and if there is a choice between equally good ones, it takes up the one with
the first of them first (`survey_form`).

The way there leads along the favourites, the first ones of the best values for each field. The text
that is next on this way is always on the stack, and only texts that promise less are above it,
because the favourite has more letters and digits than the values before it (`OnTheWay`). What comes
of these texts promises less too, so neither the next text nor its remainder can have been met
behind text that is as good (`Awaits`), and it is not left alone.

`Engine.resolve_form` says what both searches return for a form.
-/

namespace Fillout

namespace Query

open Template (Piece fillScore alphanumericCount containerCount)
open Template.Container (between)

variable {q : Query} {ts l r : List Piece} {b : Text}

/-! ## Turns -/

theorem surveyInto_of_forall (h : q.IsDirect) (hform : q.IsForm ts)
    (hnone : ∀ d, .slot d ∈ ts → q.values d = []) {left : Nat} (hleft : left ≠ 0) (s : Survey)
    (cache : Cache) : q.surveyInto ⟨ts.flatMap Piece.text, left⟩ s cache = ([], s, cache) := by
  have hwithin : Template.isFinal (Node.mk (ts.flatMap Piece.text) left).text ∨
      (Node.mk (ts.flatMap Piece.text) left).left ≠ 0 := .inr hleft
  rcases surveyIntoBy_cases h Settled.covers s cache hwithin with ⟨-, he⟩ | ⟨c, hc, -⟩
  · exact he
  · rw [firstFillable?_of_forall h hform hnone] at hc
    cases hc

/-- A turn leaves the rest of the form alone, or it fills the first field that has values. What this
leads to stays on the level. -/
theorem FirstField.surveyInto (hf : q.FirstField l b r) (h : q.IsDirect) {left : Nat}
    (hleft : left ≠ 0) (s : Survey) (cache : Cache) :
    let node : Node := ⟨(l ++ .slot b :: r).flatMap Piece.text, left⟩
    let c := between l b r
    (s.settled.covers c.remainder (fillScore c.before) left = true ∧
        q.surveyInto node s cache = ([], s, cache)) ∨
      q.surveyInto node s cache =
        ((unseen s.visited (q.plainSteps c)).map fun w => ⟨w.value, left⟩,
          s.fill node c (q.plainSteps c), cache) := by
  intro node c
  have hwithin : Template.isFinal node.text ∨ node.left ≠ 0 := .inr hleft
  rcases surveyIntoBy_cases h Settled.covers s cache hwithin with ⟨hnone, -⟩ | ⟨d, hd, hturn⟩
  · rw [hf.firstFillable? h] at hnone
    cases hnone
  · rw [hf.firstFillable? h] at hd
    cases hd
    refine hturn.imp_right fun he => he.trans ?_
    refine congrArg (·, _, cache) (List.map_congr_left fun w hw => ?_)
    obtain ⟨v, hv, he⟩ := hf.exists_of_mem_plainSteps h (mem_of_mem_unseen hw).1
    have hless : containerCount w.value < containerCount node.text := by
      rw [he]
      exact Nat.lt_of_succ_le (Nat.le_of_eq (hf.containerCount_fill hv).symm)
    exact congrArg (Node.mk w.value) (if_pos hless)

/-! ## What is met -/

/-- Some fields of the form `ps` have been filled, and this promises no more than the form does. -/
def IsFilling (q : Query) (ps : List Piece) (t : Text) : Prop :=
  ∃ ts, q.IsForm ts ∧ (∀ b, .slot b ∈ ts → .slot b ∈ ps) ∧ q.potentialOf ts ≤ q.potentialOf ps ∧
    ts.flatMap Piece.text = t

/-- All texts on the stack are on the level of the form, and come from it, and so does all that has
been met. -/
structure StaysInForm (q : Query) (ps : List Piece) (left : Nat) (stack : List Node) (s : Survey) :
    Prop where
  stacked : ∀ n ∈ stack, n.left = left ∧ q.IsFilling ps n.text
  visited : ∀ t ∈ s.visited, q.IsFilling ps t

section

variable {ps : List Piece} {left : Nat} {node : Node} {rest : List Node} {s : Survey}

theorem FirstField.isFilling (hf : q.FirstField l b r) (h : q.IsDirect)
    (hps : ∀ d, .slot d ∈ l ++ .slot b :: r → .slot d ∈ ps)
    (hle : q.potentialOf (l ++ .slot b :: r) ≤ q.potentialOf ps) {w : Candidate}
    (hw : w ∈ q.plainSteps (between l b r)) : q.IsFilling ps w.value := by
  have hlew := hf.potential_le h hw
  obtain ⟨v, hv, he⟩ := hf.exists_of_mem_plainSteps h hw
  rw [he, potential_of_isForm (hf.fill hv), potential_of_isForm hf.form] at hlew
  refine ⟨l ++ .plain v :: r, hf.fill hv, fun d hd => hps d ?_, Nat.le_trans hlew hle, he.symm⟩
  rcases List.mem_append.1 hd with hd | hd
  · exact List.mem_append_left _ hd
  · exact List.mem_append_right _
      (List.mem_cons_of_mem _ ((List.mem_cons.1 hd).resolve_left nofun))

/-- What a turn gets from a text stays on the level, comes from the form, and promises no more than
the text does. What it settles promises as much, with the text that stood before it. -/
theorem IsFilling.turn (hn : q.IsFilling ps node.text) (h : q.IsDirect) (hleft : node.left ≠ 0)
    (s : Survey) (cache : Cache) :
    (∀ m ∈ (q.surveyInto node s cache).1, m.left = node.left ∧ q.IsFilling ps m.text ∧
        q.potential m.text ≤ q.potential node.text) ∧
      (∀ t ∈ (q.surveyInto node s cache).2.1.visited, t ∈ s.visited ∨
        q.IsFilling ps t ∧ q.potential t ≤ q.potential node.text) ∧
      ∀ x ∈ (q.surveyInto node s cache).2.1.settled, x ∈ s.settled ∨
        x.2.1 + q.potential x.1 = q.potential node.text := by
  obtain ⟨text, left⟩ := node
  obtain ⟨ts, hform, hps, hle, rfl⟩ := hn
  rcases hform.exists_firstField with hnone | ⟨l, b, r, rfl, hf⟩
  · rw [surveyInto_of_forall h hform hnone hleft]
    exact ⟨List.forall_mem_nil _, fun _ ht => .inl ht, fun _ hx => .inl hx⟩
  rcases hf.surveyInto h hleft s cache with ⟨-, he⟩ | he
  · rw [he]
    exact ⟨List.forall_mem_nil _, fun _ ht => .inl ht, fun _ hx => .inl hx⟩
  · have hnews : ∀ w ∈ unseen s.visited (q.plainSteps (between l b r)), q.IsFilling ps w.value ∧
        q.potential w.value ≤ q.potential ((l ++ .slot b :: r).flatMap Piece.text) := by
      intro w hw
      have hw := (mem_of_mem_unseen hw).1
      exact ⟨hf.isFilling h hps hle hw, hf.potential_le h hw⟩
    rw [he]
    refine ⟨fun m hm => ?_, fun t ht => ?_, fun x hx => ?_⟩
    · obtain ⟨w, hw, rfl⟩ := List.mem_map.1 hm
      exact ⟨rfl, hnews w hw⟩
    · rcases (s.mem_visited_fill _ _ _).1 ht with ⟨w, hw, rfl⟩ | ht
      · exact .inr (hnews w hw)
      · exact .inl ht
    · rw [Survey.settled_fill] at hx
      rcases List.mem_cons.1 hx with rfl | hx
      · exact .inr hf.potential.symm
      · exact .inl hx

theorem StaysInForm.turn (hs : q.StaysInForm ps left (node :: rest) s) (h : q.IsDirect)
    (hleft : left ≠ 0) (cache : Cache) :
    q.StaysInForm ps left ((q.surveyInto node s cache).1 ++ rest)
      (q.surveyInto node s cache).2.1 := by
  obtain ⟨⟨rfl, hn⟩, hrest⟩ := List.forall_mem_cons.1 hs.stacked
  obtain ⟨hnodes, hvisited, -⟩ := hn.turn h hleft s cache
  refine ⟨List.forall_mem_append.2 ⟨fun m hm => ?_, hrest⟩, fun t ht => ?_⟩
  · exact ⟨(hnodes m hm).1, (hnodes m hm).2.1⟩
  · exact (hvisited t ht).elim (hs.visited t) And.left

/-! ## The way of the favourites -/

/-- The pieces `ts` come of the form `ps` when fields are filled with favourites: with favourites in
the fields that are left, both make the same text, and both promise the same. -/
structure OnTrack (q : Query) (ps ts : List Piece) : Prop where
  form : q.IsForm ts
  fill : ts.flatMap (Piece.fill q.favourite?) = ps.flatMap (Piece.fill q.favourite?)
  potential : q.potentialOf ts = q.potentialOf ps

theorem FirstField.onTrack (hf : q.FirstField l b r) (ht : q.OnTrack ps (l ++ .slot b :: r))
    {v : Text} (hv : v ∈ q.values b) (hfav : q.favourite? b = some v)
    (hmost : q.most b = alphanumericCount v) :
    q.OnTrack ps (l ++ .plain v :: r) := by
  refine ⟨hf.fill hv, ?_, ?_⟩
  · have hfill : (Piece.slot b).fill q.favourite? = v := by
      rw [Piece.fill, hfav]
      rfl
    rw [← ht.fill, List.flatMap_append, List.flatMap_append, List.flatMap_cons, List.flatMap_cons,
      hfill]
    rfl
  · have hput := q.potentialOf_fill l r b v
    rw [hmost] at hput
    exact (Nat.add_right_cancel hput).trans ht.potential

/-- The next text on the way of the favourites has not been looked into, nor anything as good as
it. -/
structure Awaits (q : Query) (ps : List Piece) (s : Survey) (l : List Piece) (b : Text)
    (r : List Piece) : Prop where
  track : q.OnTrack ps (l ++ .slot b :: r)
  field : q.FirstField l b r
  visited : ∀ t ∈ s.visited,
    containerCount t < containerCount ((l ++ .slot b :: r).flatMap Piece.text) →
      q.potential t < q.potentialOf ps
  settled : ∀ x ∈ s.settled, containerCount x.1 ≤ containerCount (between l b r).remainder →
    x.2.1 + q.potential x.1 < q.potentialOf ps

/-- All favourites have been filled in. The texts that were met before promise less, or have more
fields. -/
structure Arrived (q : Query) (ps : List Piece) (s : Survey) (ts : List Piece) : Prop where
  track : q.OnTrack ps ts
  filled : ∀ d, .slot d ∈ ts → q.values d = []
  met : ∃ later earlier, s.visited = later ++ ts.flatMap Piece.text :: earlier ∧
    ∀ t ∈ earlier, q.potential t < q.potentialOf ps ∨
      containerCount (ts.flatMap Piece.text) < containerCount t

theorem Arrived.turn (hs : q.Arrived ps s ts) (node : Node) (cache : Cache) :
    q.Arrived ps (q.surveyInto node s cache).2.1 ts := by
  rcases q.surveyInto_cases node s cache with he | he | ⟨c, steps, -, -, he⟩
  · rw [he]
    exact hs
  · rw [he]
    exact hs
  · obtain ⟨later, earlier, hmet, hearlier⟩ := hs.met
    refine ⟨hs.track, hs.filled, ((unseen s.visited steps).map Candidate.value).reverse ++ later,
      earlier, ?_, hearlier⟩
    rw [he, Survey.visited_fill, hmet, List.append_assoc]

/-- The next text on the way of the favourites is on the stack, and those above it promise less than
the form. Or the search has arrived. -/
def OnTheWay (q : Query) (ps : List Piece) (left : Nat) (stack : List Node) (s : Survey) : Prop :=
  (∃ l b r, q.Awaits ps s l b r ∧ ∃ above below,
      stack = above ++ ⟨(l ++ .slot b :: r).flatMap Piece.text, left⟩ :: below ∧
        ∀ n ∈ above, q.potential n.text < q.potentialOf ps) ∨
    ∃ ts, q.Arrived ps s ts

/-- What promises less does not disturb. -/
theorem Awaits.mono {s' : Survey} (hs : q.Awaits ps s l b r)
    (hvisited : ∀ t ∈ s'.visited, t ∈ s.visited ∨ q.potential t < q.potentialOf ps)
    (hsettled : ∀ x ∈ s'.settled, x ∈ s.settled ∨ x.2.1 + q.potential x.1 < q.potentialOf ps) :
    q.Awaits ps s' l b r := by
  refine ⟨hs.track, hs.field, fun t ht hcount => ?_, fun x hx hcount => ?_⟩
  · exact (hvisited t ht).elim (fun ht => hs.visited t ht hcount) id
  · exact (hsettled x hx).elim (fun hx => hs.settled x hx hcount) id

/-- The rest of the next text has not been looked into behind text that is as good. -/
theorem Awaits.not_covers (hs : q.Awaits ps s l b r) :
    ¬ s.settled.covers (between l b r).remainder (fillScore (between l b r).before) left =
      true := by
  intro hcovers
  -- Together with the text before it, what is settled would promise as much as the form.
  obtain ⟨x, hx, hsame, hle⟩ := SkipTest.isSound_covers _ _ _ _ hcovers
  have hlt := hs.settled x hx (Nat.le_of_eq (congrArg containerCount hsame))
  have hpotential := hs.field.potential
  rw [potential_of_isForm hs.field.form, hs.track.potential] at hpotential
  rw [hsame] at hlt
  omega

/-- Filling the next field leads to a new text with the favourite. Those that come before it promise
less. -/
theorem Awaits.exists_unseen (hs : q.Awaits ps s l b r) (h : q.IsDirect) :
    ∃ v ∈ q.values b, q.OnTrack ps (l ++ .plain v :: r) ∧ ∃ us w ws,
      unseen s.visited (q.plainSteps (between l b r)) = us ++ w :: ws ∧
        w.value = (l ++ .plain v :: r).flatMap Piece.text ∧
        ∀ u ∈ us, q.potential u.value < q.potentialOf ps := by
  have hf := hs.field
  obtain ⟨v, hv, hfav, hmost, as, w, cs, hsplit, hw, hlow⟩ := hf.exists_favourite_step h
  rw [potential_of_isForm hf.form, hs.track.potential] at hlow
  have htrack := hf.onTrack hs.track hv hfav hmost
  have hbest : q.potential w.value = q.potentialOf ps := by
    rw [hw, potential_of_isForm htrack.form, htrack.potential]
  -- It is new because it promises what the form does, and no text with as few fields that was met
  -- does.
  have hnew : w.value ∉ s.visited := by
    intro hmet
    have hless : containerCount w.value <
        containerCount ((l ++ .slot b :: r).flatMap Piece.text) := by
      rw [hw, hf.containerCount_fill hv]
      exact Nat.lt_succ_self _
    exact Nat.ne_of_lt (hs.visited _ hmet hless) hbest
  have hdiffer : ∀ a ∈ as, a.value ≠ w.value :=
    fun a ha he => Nat.ne_of_lt (hlow a ha) (he ▸ hbest)
  obtain ⟨ws, hunseen⟩ := unseen_append_cons (r := cs) hnew hdiffer
  refine ⟨v, hv, htrack, unseen s.visited as, w, ws, hsplit ▸ hunseen, hw, fun u hu => ?_⟩
  exact hlow u (mem_of_mem_unseen hu).1

/-- If no field is left that has values, the search has arrived. -/
theorem Awaits.arrive (hs : q.Awaits ps s l b r) {v : Text} (hv : v ∈ q.values b)
    (htrack : q.OnTrack ps (l ++ .plain v :: r))
    (hnone : ∀ d, .slot d ∈ l ++ .plain v :: r → q.values d = []) {us ws : List Candidate}
    {w : Candidate} (hunseen : unseen s.visited (q.plainSteps (between l b r)) = us ++ w :: ws)
    (hw : w.value = (l ++ .plain v :: r).flatMap Piece.text)
    (hlow : ∀ u ∈ us, q.potential u.value < q.potentialOf ps) (node : Node) :
    q.Arrived ps (s.fill node (between l b r) (q.plainSteps (between l b r)))
      (l ++ .plain v :: r) := by
  refine ⟨htrack, hnone, (ws.map Candidate.value).reverse,
    (us.map Candidate.value).reverse ++ s.visited, ?_, fun t ht => ?_⟩
  · rw [Survey.visited_fill, hunseen, ← hw]
    simp
  · rcases List.mem_append.1 ht with ht | ht
    · obtain ⟨u, hu, rfl⟩ := List.mem_map.1 (List.mem_reverse.1 ht)
      exact .inl (hlow u hu)
    · refine (Nat.lt_or_ge (containerCount t) _).imp (hs.visited t ht) fun hle => ?_
      rw [hs.field.containerCount_fill hv] at hle
      exact hle

/-- If there is one, the text with the favourite is the next on the way. What has just been taken up
has as many fields, and what has been settled has more fields than what remains from the next one
on. -/
theorem Awaits.advance {l' r' : List Piece} {b' : Text}
    (hs : q.Awaits ps s l b (l' ++ .slot b' :: r')) (h : q.IsDirect) {v : Text}
    (hv : v ∈ q.values b) (htrack : q.OnTrack ps (l ++ .plain v :: l' ++ .slot b' :: r'))
    (hf : q.FirstField (l ++ .plain v :: l') b' r') (node : Node) :
    let c := between l b (l' ++ .slot b' :: r')
    q.Awaits ps (s.fill node c (q.plainSteps c)) (l ++ .plain v :: l') b' r' := by
  intro c
  have hcount := hs.field.containerCount_fill hv
  have hpieces : l ++ .plain v :: l' ++ .slot b' :: r' = l ++ .plain v :: (l' ++ .slot b' :: r') :=
    List.append_assoc _ _ _
  refine ⟨htrack, hf, fun t ht hless => ?_, fun x hx hle => ?_⟩
  · rw [hpieces] at hless
    rcases (s.mem_visited_fill _ _ _).1 ht with ⟨u, hu, rfl⟩ | ht
    · obtain ⟨v', hv', he⟩ := hs.field.exists_of_mem_plainSteps h (mem_of_mem_unseen hu).1
      have hcount' := hs.field.containerCount_fill hv'
      rw [he] at hless
      omega
    · exact hs.visited t ht (by omega)
  · have hmore : containerCount c.remainder = _ := hs.field.containerCount_remainder
    rw [hf.containerCount_remainder] at hle
    rw [List.countP_append, List.countP_cons_of_pos rfl] at hmore
    rw [Survey.settled_fill] at hx
    rcases List.mem_cons.1 hx with rfl | hx
    · dsimp only at hle
      omega
    · have hless : containerCount x.1 ≤ containerCount c.remainder := by omega
      exact hs.settled x hx hless

/-- When the next text is looked into, the search gets on along the way. -/
theorem Awaits.turn (hs : q.Awaits ps s l b r) (h : q.IsDirect) (hleft : left ≠ 0)
    (below : List Node) (cache : Cache) :
    let turn := q.surveyInto ⟨(l ++ .slot b :: r).flatMap Piece.text, left⟩ s cache
    q.OnTheWay ps left (turn.1 ++ below) turn.2.1 := by
  intro turn
  obtain ⟨v, hv, htrack, us, w, ws, hunseen, hw, hlow⟩ := hs.exists_unseen h
  -- Nothing keeps the search from filling the field.
  have he : turn = _ :=
    (hs.field.surveyInto h hleft s cache).resolve_left fun hskip => hs.not_covers hskip.1
  rw [he]
  rcases hs.field.next hv with hnone | ⟨l', b', r', rfl, hf⟩
  · exact .inr ⟨_, hs.arrive hv htrack hnone hunseen hw hlow _⟩
  · have hpieces : l ++ .plain v :: (l' ++ .slot b' :: r') =
        l ++ .plain v :: l' ++ .slot b' :: r' :=
      (List.append_assoc l (.plain v :: l') _).symm
    rw [hpieces] at htrack hw
    refine .inl ⟨_, b', r', hs.advance h hv htrack hf _, us.map fun u => ⟨u.value, left⟩,
      (ws.map fun u => ⟨u.value, left⟩) ++ below, ?_, fun n hn => ?_⟩
    · rw [hunseen, ← hw]
      simp
    · obtain ⟨u, hu, rfl⟩ := List.mem_map.1 hn
      exact hlow u hu

/-- Every turn keeps to the way. -/
theorem OnTheWay.turn (hs : q.OnTheWay ps left (node :: rest) s)
    (hin : q.StaysInForm ps left (node :: rest) s) (h : q.IsDirect) (hleft : left ≠ 0)
    (cache : Cache) :
    q.OnTheWay ps left ((q.surveyInto node s cache).1 ++ rest) (q.surveyInto node s cache).2.1 := by
  rcases hs with ⟨l, b, r, hs, above, below, hstack, hlow⟩ | ⟨ts, hs⟩
  · -- The turn looks into the text that is waited for, or into one above it.
    cases above with
    | nil =>
        cases hstack
        exact hs.turn h hleft rest cache
    | cons _ above =>
        cases hstack
        obtain ⟨hnode, habove⟩ := List.forall_mem_cons.1 hlow
        obtain ⟨rfl, hn⟩ := hin.stacked node List.mem_cons_self
        obtain ⟨hnodes, hvisited, hsettled⟩ := hn.turn h hleft s cache
        have hawaits := hs.mono
          (fun t ht => (hvisited t ht).imp_right fun ht => Nat.lt_of_le_of_lt ht.2 hnode)
          (fun x hx => (hsettled x hx).imp_right fun he =>
            Nat.lt_of_le_of_lt (Nat.le_of_eq he) hnode)
        have hlow : ∀ m ∈ (q.surveyInto node s cache).1, q.potential m.text < q.potentialOf ps :=
          fun m hm => Nat.lt_of_le_of_lt (hnodes m hm).2.2 hnode
        exact .inl ⟨l, b, r, hawaits, _ ++ above, below, (List.append_assoc _ _ _).symm,
          List.forall_mem_append.2 ⟨hlow, habove⟩⟩
  · exact .inr ⟨ts, hs.turn node cache⟩

/-- At all stages, the search stays in the form and is on the way of the favourites. -/
theorem SurveyPasses.onTheWay {stage : SurveyStage}
    (run : q.SurveyPasses (.start (ps.flatMap Piece.text) left) stage) (h : q.IsDirect)
    (hleft : left ≠ 0) (hform : q.IsForm ps) :
    q.StaysInForm ps left stage.stack stage.survey ∧
      q.OnTheWay ps left stage.stack stage.survey := by
  refine run.invariant (P := fun stage => q.StaysInForm ps left stage.stack stage.survey ∧
    q.OnTheWay ps left stage.stack stage.survey) ?_ ⟨?_, ?_⟩
  · rintro _ _ ⟨hin, hway⟩ ⟨node, rest, s, cache⟩
    exact ⟨hin.turn h hleft cache, hway.turn hin h hleft cache⟩
  · have hfilling : q.IsFilling ps (ps.flatMap Piece.text) :=
      ⟨ps, hform, fun _ hb => hb, Nat.le_refl _, rfl⟩
    exact ⟨List.forall_mem_singleton.2 ⟨rfl, hfilling⟩, List.forall_mem_singleton.2 hfilling⟩
  · have htrack : q.OnTrack ps ps := ⟨hform, rfl, rfl⟩
    rcases hform.exists_firstField with hnone | ⟨l, b, r, rfl, hf⟩
    · exact .inr ⟨ps, htrack, hnone, [], [], rfl, List.forall_mem_nil _⟩
    · refine .inl ⟨l, b, r, ⟨htrack, hf, fun t ht hlt => ?_, List.forall_mem_nil _⟩, [], [], rfl,
        List.forall_mem_nil _⟩
      rw [List.mem_singleton.1 ht] at hlt
      exact absurd hlt (Nat.lt_irrefl _)

/-- A search that has arrived has met the form with favourites in all its fields that have
values. -/
theorem Arrived.text_eq (hs : q.Arrived ps s ts) :
    ts.flatMap Piece.text = ps.flatMap (Piece.fill q.favourite?) := by
  rw [← hs.track.fill, Template.flatMap_fill_of_forall]
  intro b hb
  rw [favourite?, hs.filled b hb]
  rfl

/-- This text has the score that the form promises. -/
theorem Arrived.fillScore_eq (hs : q.Arrived ps s ts) :
    fillScore (ts.flatMap Piece.text) = q.potentialOf ps := by
  rw [Template.fillScore_of_isClean hs.track.form.isClean, ← potentialOf_of_forall hs.filled,
    hs.track.potential]

theorem IsFilling.potential_le {t : Text} (ht : q.IsFilling ps t) :
    q.potential t ≤ q.potentialOf ps := by
  obtain ⟨ts, hform, -, hle, rfl⟩ := ht
  rw [potential_of_isForm hform]
  exact hle

theorem fillScore_le_potential (t : Text) : fillScore t ≤ q.potential t := Nat.le_add_right _ _

/-- If all fields have values with letters or digits, a text that has the score that the form
promises has no field left. -/
theorem IsFilling.containerCount_eq_zero {t : Text} (ht : q.IsFilling ps t)
    (hpos : ∀ b, .slot b ∈ ps → 0 < q.most b) (hscore : fillScore t = q.potentialOf ps) :
    containerCount t = 0 := by
  obtain ⟨ts, hform, hsub, hle, rfl⟩ := ht
  -- The potential is not above the score, so the fields that are left have nothing to add.
  have hsum :
      ((Template.containers (ts.flatMap Piece.text)).map fun c => q.most c.body).sum = 0 := by
    rw [← potential_of_isForm hform, Query.potential, hscore] at hle
    omega
  rw [List.sum_eq_zero_iff_forall_eq_nat] at hsum
  rw [← Template.length_containers, List.length_eq_zero_iff, List.eq_nil_iff_forall_not_mem]
  intro c hc
  have hzero := hsum _ (List.mem_map_of_mem hc)
  rw [Template.containers_of_isClean hform.isClean] at hc
  obtain ⟨l, b, r, rfl, rfl⟩ := Template.exists_of_mem_containersBehind hc
  have hb := hpos b (hsub b (by simp))
  dsimp only at hzero
  omega

/-- The search for the best text of a form gets the score that the form promises. If all fields have
values with letters or digits, it gets the text with the favourites. -/
theorem survey_form (h : q.IsDirect) (hleft : left ≠ 0) (hform : q.IsForm ps) :
    let best :=
      (q.survey [⟨ps.flatMap Piece.text, left⟩] (.start (ps.flatMap Piece.text)) []).champion
    fillScore best.text = q.potential (ps.flatMap Piece.text) ∧
      ((∀ b, .slot b ∈ ps → 0 < q.most b) → best.text = ps.flatMap (Piece.fill q.favourite?)) := by
  intro best
  obtain ⟨cache, run⟩ :=
    q.survey_passes [⟨ps.flatMap Piece.text, left⟩] (.start (ps.flatMap Piece.text)) []
  have run : q.SurveyPasses (.start (ps.flatMap Piece.text) left) _ := run
  obtain ⟨hin, hway⟩ := run.onTheWay h hleft hform
  rcases hway with ⟨l, b, r, -, above, below, hstack, -⟩ | ⟨ts, harrived⟩
  · exact absurd hstack.symm (by simp)
  have hleads := run.making.2.2
  obtain ⟨after, before, hvisited, hbefore⟩ := harrived.met
  have hscore : best.score = q.potentialOf ps := by
    refine Nat.le_antisymm ?_ ?_
    · calc best.score
          = fillScore best.text := hleads.1
        _ ≤ q.potential best.text := fillScore_le_potential _
        _ ≤ q.potentialOf ps := (hin.visited _ hleads.mem).potential_le
    · rw [← harrived.fillScore_eq]
      exact hleads.fillScore_le (hvisited ▸ List.mem_append_right _ List.mem_cons_self)
  refine ⟨by rw [← hleads.1, hscore, potential_of_isForm hform], fun hpos => ?_⟩
  rw [← harrived.text_eq]
  -- No text that was met before has this score: it promises less, or has a field left.
  refine hleads.text_eq hvisited (harrived.fillScore_eq.trans hscore.symm) fun t ht he => ?_
  have he := he.trans hscore
  have hfilling := hin.visited t (hvisited ▸ List.mem_append_right _ (List.mem_cons_of_mem _ ht))
  have hzero := hfilling.containerCount_eq_zero hpos he
  rcases hbefore t ht with hlt | hlt
  · exact Nat.not_lt_of_le (he ▸ fillScore_le_potential t) hlt
  · exact Nat.not_lt_zero _ (hzero ▸ hlt)

end

end Query

namespace Engine

open Template (Piece fillScore alphanumericCount)

/-- What the two searches return for a form of any number of fields, if no rule is a date or a
switch and there is a level to open. The search for a final text puts the first value in for each
field, and finds nothing if a field has no value. The search for the best text adds to the score
what the best value for each field has, and if all fields have values with letters or digits, it
puts the first of the best values in for each of them. -/
theorem resolve_form (e : Engine) (ctx : Context) (ps : List Piece)
    (hdirect : (e.query ctx (ps.flatMap Piece.text)).IsDirect)
    (hform : (e.query ctx (ps.flatMap Piece.text)).IsForm ps) (hlimit : 1 ≤ ctx.maxDepth) :
    let source := ps.flatMap Piece.text
    let q := e.query ctx source
    ((∀ b, .slot b ∈ ps → q.values b ≠ []) →
        e.resolveFirst ctx source = some (ps.flatMap (Piece.fill fun b => (q.values b).head?))) ∧
      (∀ b, .slot b ∈ ps → q.values b = [] → e.resolveFirst ctx source = none) ∧
      fillScore (e.resolveBest ctx source) =
        fillScore source + ((Template.containers source).map fun c =>
          ((q.values c.body).map alphanumericCount).max?.getD 0).sum ∧
      ((∀ b, .slot b ∈ ps → ∃ v ∈ q.values b, 0 < alphanumericCount v) →
        e.resolveBest ctx source =
          ps.flatMap (Piece.fill fun b => (q.values b).argmax alphanumericCount)) := by
  intro source q
  have hleft : ctx.maxDepth ≠ 0 := Nat.ne_of_gt hlimit
  obtain ⟨hscore, hbest⟩ := Query.survey_form hdirect hleft hform
  refine ⟨fun hvalues => Query.first_of_isForm hdirect hform hvalues hleft [], fun b hb hnone => ?_,
    hscore, fun hpos => hbest fun b hb => ?_⟩
  · have hstuck : q.IsStuck source := ⟨[], ps, b, Template.isPlain_nil, hform, hb, hnone, rfl⟩
    exact Query.first_of_isStuck hdirect hstuck ctx.maxDepth []
  · obtain ⟨v, hv, hlt⟩ := hpos b hb
    exact Nat.lt_of_lt_of_le hlt (Query.le_most hv)

/-- Three values for one variable, the last two of them equally good, and one for another. -/
def tieForm : Engine where
  store := (RuleStore.ofRecords
    [{ kind := .equal, pattern := ['a'], value := .literal ['x'] },
     { kind := .equal, pattern := ['a'], value := .literal "yy".toList },
     { kind := .equal, pattern := ['a'], value := .literal "zz".toList },
     { kind := .equal, pattern := ['b'], value := .literal "ww".toList }]).1
  env := .empty

/-- A field for the one variable, and a field for both. -/
def tieFields : List Piece := [.slot ['a'], .plain ['-'], .slot "b, a".toList]

/-- Both searches fill in values for both fields, one the first ones, the other the first of the
best. -/
theorem resolve_form_tieForm :
    let source := tieFields.flatMap Piece.text
    (tieForm.query {} source).IsDirect ∧ (tieForm.query {} source).IsForm tieFields ∧
      tieForm.resolveFirst {} source = some "x-ww".toList ∧
      tieForm.resolveBest {} source = "yy-ww".toList := by
  intro source
  have hdirect : (tieForm.query {} source).IsDirect := by
    show ∀ r ∈ tieForm.store.rules, _
    decide
  have hform : (tieForm.query {} source).IsForm tieFields := by decide +kernel
  have hfields : ∀ b, .slot b ∈ tieFields → b = ['a'] ∨ b = "b, a".toList := by
    intro b hb
    simpa [tieFields] using hb
  obtain ⟨hfirst, -, -, hbest⟩ := tieForm.resolve_form {} tieFields hdirect hform (by decide)
  refine ⟨hdirect, hform, (hfirst fun b hb => ?_).trans ?_, (hbest fun b hb => ?_).trans ?_⟩
  · rcases hfields b hb with rfl | rfl <;> decide +kernel
  · decide +kernel
  · rcases hfields b hb with rfl | rfl <;> decide +kernel
  · decide +kernel

end Engine

end Fillout
