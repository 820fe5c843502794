import Fillout.Proofs.Search.Direct
import Fillout.Proofs.Search.SurveyTurn

set_option autoImplicit false

/-! # What the search for the best text has met

If no rule is a date or a switch, the search for the best text moves along one relation between
texts: the first container that can be filled at all is filled (`FillsFirst`). `Surveyed` is what
every turn keeps, and `surveyed_of_staysWithin` what follows for a search that has come to its end
without meeting the limit: the champion is the best of the texts that have been met, and whatever
text has been met, the texts that come next have been met for this text, or for another one that has
the same remainder and at least as good a score before it.

The only thing that has to be known of the test for the remainders that are left alone is that it
leaves none alone that has not been looked into with such a score (`SkipTest.IsSound`).
-/

namespace Fillout

/-! ## Taking up texts -/

namespace Survey

/-- The unseen steps are taken up, and no others. -/
theorem takeUp_eq (parent : Node) (steps : List Candidate) (s : Survey) :
    takeUp parent steps s =
      ((unseen s.visited steps).map fun c => parent.child c.value,
        (unseen s.visited steps).foldl (fun s c => s.record c.value) s) := by
  induction steps generalizing s with
  | nil => rfl
  | cons c rest ih =>
      rw [unseen]
      by_cases hc : c.value ∈ s.visited
      · rw [if_pos hc, takeUp_of_mem hc]
        exact ih s
      · rw [if_neg hc, takeUp_of_new hc, ih (s.record c.value)]
        rfl

/-- The champion is the best of the texts that have been met. -/
structure Leads (s : Survey) : Prop where
  met : s.champion.text ∈ s.visited
  score : s.champion.score = Template.fillScore s.champion.text
  best : ∀ t ∈ s.visited, Template.fillScore t ≤ s.champion.score

theorem leads_start (source : Text) : (Survey.start source).Leads := by
  refine ⟨List.mem_cons_self, rfl, fun t ht => ?_⟩
  rw [List.mem_singleton.1 ht]
  exact Nat.le_refl _

/-- Each text challenges the champion when it is taken up. -/
theorem Leads.record {s : Survey} (h : s.Leads) (t : Text) : (s.record t).Leads := by
  by_cases hlt : s.champion.score < Template.fillScore t
  · have hnew : (s.record t).champion = ⟨t, Template.fillScore t⟩ := if_pos hlt
    refine ⟨?_, ?_, fun u hu => ?_⟩
    · rw [hnew]
      exact List.mem_cons_self
    · rw [hnew]
    · rw [hnew]
      rcases List.mem_cons.1 hu with rfl | hu
      · exact Nat.le_refl _
      · exact Nat.le_trans (h.best u hu) (Nat.le_of_lt hlt)
  · have hold : (s.record t).champion = s.champion := if_neg hlt
    refine ⟨?_, ?_, fun u hu => ?_⟩
    · rw [hold]
      exact List.mem_cons_of_mem t h.met
    · rw [hold]
      exact h.score
    · rw [hold]
      rcases List.mem_cons.1 hu with rfl | hu
      · exact Nat.le_of_not_lt hlt
      · exact h.best u hu

theorem Leads.foldl_record (news : List Candidate) {s : Survey} (h : s.Leads) :
    (news.foldl (fun s v => s.record v.value) s).Leads := by
  induction news generalizing s with
  | nil => exact h
  | cons v news ih => exact ih (h.record v.value)

theorem settled_foldl_record (news : List Candidate) (s : Survey) :
    (news.foldl (fun s v => s.record v.value) s).settled = s.settled := by
  induction news generalizing s with
  | nil => rfl
  | cons v news ih => exact ih (s.record v.value)

theorem mem_visited_foldl_record (news : List Candidate) (s : Survey) {t : Text} :
    t ∈ (news.foldl (fun s v => s.record v.value) s).visited ↔
      (∃ v ∈ news, v.value = t) ∨ t ∈ s.visited := by
  induction news generalizing s with
  | nil =>
      constructor
      · exact .inr
      · rintro (⟨v, hv, -⟩ | ht)
        · cases hv
        · exact ht
  | cons u news ih =>
      rw [List.foldl_cons, ih]
      constructor
      · rintro (⟨v, hv, rfl⟩ | ht)
        · exact .inl ⟨v, List.mem_cons_of_mem u hv, rfl⟩
        · rcases List.mem_cons.1 ht with rfl | ht
          · exact .inl ⟨u, List.mem_cons_self, rfl⟩
          · exact .inr ht
      · rintro (⟨v, hv, rfl⟩ | ht)
        · rcases List.mem_cons.1 hv with rfl | hv
          · exact .inr List.mem_cons_self
          · exact .inl ⟨v, hv, rfl⟩
        · exact .inr (List.mem_cons_of_mem u.value ht)

/-- The survey after the container `c` of a node has been filled: its remainder is settled, and the
unseen texts that this leads to are taken up. -/
def fill (s : Survey) (node : Node) (c : Template.Container) (steps : List Candidate) : Survey :=
  (unseen s.visited steps).foldl (fun s v => s.record v.value)
    (s.settle c.remainder (Template.fillScore c.before) node.left)

section

variable (s : Survey) (node : Node) (c : Template.Container) (steps : List Candidate)

theorem Leads.fill {s : Survey} (h : s.Leads) : (s.fill node c steps).Leads :=
  Leads.foldl_record _ ⟨h.met, h.score, h.best⟩

theorem settled_fill : (s.fill node c steps).settled =
    (c.remainder, Template.fillScore c.before, node.left) :: s.settled :=
  settled_foldl_record _ _

/-- The new ones among the texts that have been met are those of the unseen steps. -/
theorem mem_visited_fill {t : Text} : t ∈ (s.fill node c steps).visited ↔
    (∃ v ∈ unseen s.visited steps, v.value = t) ∨ t ∈ s.visited :=
  mem_visited_foldl_record _ _

end

end Survey

/-! ## Sound tests -/

namespace SkipTest

/-- A remainder is left alone only if it has been looked into with at least this score before it. -/
def IsSound (skips : SkipTest) : Prop :=
  ∀ settled remainder score left, skips settled remainder score left = true →
    ∃ x ∈ settled, x.1 = remainder ∧ score ≤ x.2.1

theorem isSound_covers : IsSound Settled.covers := by
  intro settled remainder score left h
  obtain ⟨⟨seenScore, seenLeft⟩, hseen, hle⟩ := (Option.any_eq_true _ _).1 h
  obtain ⟨l₁, l₂, rfl, -⟩ := List.lookup_eq_some_iff.1 hseen
  refine ⟨(remainder, seenScore, seenLeft), by simp, rfl, ?_⟩
  exact of_decide_eq_true (Bool.and_eq_true_iff.1 hle).1

theorem isSound_never : IsSound never := fun _ _ _ _ h => nomatch h

end SkipTest

/-! ## Filling the first container that can be filled -/

namespace Query

variable (q : Query)

/-- Whether filling a container leads to any text, if no value depends on another search. -/
def canFill (c : Template.Container) : Bool := !(q.plainSteps c).isEmpty

/-- The first container of a text that can be filled. -/
def firstFillable? (s : Text) : Option Template.Container := (Template.containers s).find? q.canFill

/-- The first container of a text that can be filled is filled. -/
def FillsFirst (s t : Text) : Prop :=
  ∃ c, q.firstFillable? s = some c ∧ ∃ v ∈ q.plainSteps c, v.value = t

variable {q} {source : Text} {skips : SkipTest} {node : Node} {rest : List Node} {s : Survey}
  {cache : Cache}

theorem firstSteps?_eq {σ : Type} (h : q.IsDirect) (nested : Nested σ)
    (cs : List Template.Container) (state : σ) :
    q.firstSteps? nested cs state =
      ((cs.find? q.canFill).map fun c => (c, q.plainSteps c), state) := by
  induction cs with
  | nil => rfl
  | cons c cs ih =>
      rw [firstSteps?, containerSteps_eq h, List.find?_cons, canFill]
      cases hc : q.plainSteps c with
      | nil => exact ih
      | cons v vs =>
          show (some (c, v :: vs), state) = (some (c, q.plainSteps c), state)
          rw [hc]

/-- The search fills the first container that can be filled. -/
theorem firstSteps?_containers {σ : Type} (h : q.IsDirect) (nested : Nested σ) (t : Text)
    (state : σ) :
    q.firstSteps? nested (Template.containers t) state =
      ((q.firstFillable? t).map fun c => (c, q.plainSteps c), state) :=
  firstSteps?_eq h nested (Template.containers t) state

theorem firstFillable?_of_isFinal {t : Text} (h : Template.isFinal t) :
    q.firstFillable? t = none := by
  unfold firstFillable?
  rw [(Template.isFinal_iff t).1 h]
  rfl

theorem mem_containers_of_firstFillable? {t : Text} {c : Template.Container}
    (h : q.firstFillable? t = some c) : c ∈ Template.containers t :=
  List.mem_of_find?_eq_some h

/-- A turn that does not meet the limit finds nothing to fill, or it leaves the remainder alone, or
it fills the first container that can be filled and takes up what this leads to. -/
theorem surveyIntoBy_cases (h : q.IsDirect) (skips : SkipTest) (s : Survey) (cache : Cache)
    (hwithin : Template.isFinal node.text ∨ node.left ≠ 0) :
    (q.firstFillable? node.text = none ∧ q.surveyIntoBy skips node s cache = ([], s, cache)) ∨
    ∃ c, q.firstFillable? node.text = some c ∧
      (skips s.settled c.remainder (Template.fillScore c.before) node.left = true ∧
          q.surveyIntoBy skips node s cache = ([], s, cache) ∨
        q.surveyIntoBy skips node s cache =
          ((unseen s.visited (q.plainSteps c)).map fun v => node.child v.value,
            s.fill node c (q.plainSteps c), cache)) := by
  unfold surveyIntoBy
  rw [firstSteps?_containers h]
  by_cases hl : node.left = 0
  · have hf : Template.isFinal node.text := hwithin.resolve_right (not_not_intro hl)
    exact .inl ⟨firstFillable?_of_isFinal hf, if_pos hl⟩
  · rw [if_neg hl]
    cases hc : q.firstFillable? node.text with
    | none => exact .inl ⟨rfl, rfl⟩
    | some c =>
        refine .inr ⟨c, rfl, ?_⟩
        by_cases hs : skips s.settled c.remainder (Template.fillScore c.before) node.left = true
        · exact .inl ⟨hs, if_pos hs⟩
        · refine .inr ((if_neg hs).trans ?_)
          dsimp only
          rw [Survey.takeUp_eq]
          rfl

/-! ## What every turn keeps -/

/-- The texts that come next have been met for some text with this remainder and this score before
it. -/
def LookedInto (q : Query) (s : Survey) (remainder : Text) (score : Nat) : Prop :=
  ∃ t ∈ s.visited, ∃ c, q.firstFillable? t = some c ∧ c.remainder = remainder ∧
    Template.fillScore c.before = score ∧ ∀ v ∈ q.plainSteps c, v.value ∈ s.visited

/-- The invariant of the search for the best text. The texts that it has met are reached from its
source, and each of them is still to be looked into, or its remainder has been looked into with at
least as good a score before it. -/
structure Surveyed (q : Query) (source : Text) (stack : List Node) (s : Survey) : Prop where
  leads : s.Leads
  started : source ∈ s.visited
  reached : ∀ t ∈ s.visited, Relation.ReflTransGen q.FillsFirst source t
  stacked : ∀ n ∈ stack, n.text ∈ s.visited
  queued : ∀ t ∈ s.visited, ∀ c, q.firstFillable? t = some c → (∃ n ∈ stack, n.text = t) ∨
    ∃ x ∈ s.settled, x.1 = c.remainder ∧ Template.fillScore c.before ≤ x.2.1
  filled : ∀ x ∈ s.settled, q.LookedInto s x.1 x.2.1

theorem surveyed_start (left : Nat) : q.Surveyed source [⟨source, left⟩] (.start source) := by
  have hmet : ∀ t ∈ (Survey.start source).visited, t = source := fun t ht => List.mem_singleton.1 ht
  refine ⟨Survey.leads_start source, List.mem_cons_self, fun t ht => ?_, fun n hn => ?_,
    fun t ht c _ => ?_, fun x hx => nomatch hx⟩
  · rw [hmet t ht]
  · rw [List.mem_singleton.1 hn]
    exact List.mem_cons_self
  · exact .inl ⟨_, List.mem_cons_self, (hmet t ht).symm⟩

/-- A text with nothing to fill, or whose remainder has been looked into with at least as good a
score before it, has no part in the invariant any more. -/
theorem Surveyed.skip (hs : q.Surveyed source (node :: rest) s)
    (hskip : ∀ c, q.firstFillable? node.text = some c →
      ∃ x ∈ s.settled, x.1 = c.remainder ∧ Template.fillScore c.before ≤ x.2.1) :
    q.Surveyed source rest s := by
  refine ⟨hs.leads, hs.started, hs.reached, fun n hn => ?_, fun t ht c hc => ?_, hs.filled⟩
  · exact hs.stacked n (List.mem_cons_of_mem node hn)
  · rcases hs.queued t ht c hc with ⟨n, hn, rfl⟩ | hdone
    · rcases List.mem_cons.1 hn with rfl | hn
      · exact .inr (hskip c hc)
      · exact .inl ⟨n, hn, rfl⟩
    · exact .inr hdone

theorem LookedInto.mono {s s' : Survey} {remainder : Text} {score : Nat}
    (h : q.LookedInto s remainder score) (hsub : ∀ t ∈ s.visited, t ∈ s'.visited) :
    q.LookedInto s' remainder score := by
  obtain ⟨t, ht, c, hc, hrem, hscore, hsteps⟩ := h
  exact ⟨t, hsub t ht, c, hc, hrem, hscore, fun v hv => hsub _ (hsteps v hv)⟩

/-- Filling the first container that can be filled, and taking up what this leads to, keeps the
invariant. -/
theorem Surveyed.fill (hs : q.Surveyed source (node :: rest) s) {c : Template.Container}
    (hc : q.firstFillable? node.text = some c) :
    q.Surveyed source
      ((unseen s.visited (q.plainSteps c)).map (fun v => node.child v.value) ++ rest)
      (s.fill node c (q.plainSteps c)) := by
  have hmet : ∀ t, t ∈ (s.fill node c (q.plainSteps c)).visited ↔
      (∃ v ∈ unseen s.visited (q.plainSteps c), v.value = t) ∨ t ∈ s.visited :=
    fun t => s.mem_visited_fill node c (q.plainSteps c)
  have hkept : ∀ t ∈ s.visited, t ∈ (s.fill node c (q.plainSteps c)).visited :=
    fun t ht => (hmet t).2 (.inr ht)
  have hsteps : ∀ v ∈ q.plainSteps c, v.value ∈ (s.fill node c (q.plainSteps c)).visited := by
    intro v hv
    rcases mem_seen_or_unseen hv with hold | hnew
    · exact hkept v.value hold
    · exact (hmet v.value).2 (.inl hnew)
  have hnode : node.text ∈ s.visited := hs.stacked node List.mem_cons_self
  refine ⟨hs.leads.fill node c _, hkept source hs.started, fun t ht => ?_, fun n hn => ?_,
    fun t ht d hd => ?_, fun x hx => ?_⟩
  · -- What is new comes next after the text of the node.
    rcases (hmet t).1 ht with ⟨v, hv, rfl⟩ | hold
    · exact (hs.reached node.text hnode).tail ⟨c, hc, v, (mem_of_mem_unseen hv).1, rfl⟩
    · exact hs.reached t hold
  · rcases List.mem_append.1 hn with hn | hn
    · obtain ⟨v, hv, rfl⟩ := List.mem_map.1 hn
      exact hsteps v (mem_of_mem_unseen hv).1
    · exact hkept n.text (hs.stacked n (List.mem_cons_of_mem node hn))
  · -- The text of the node is settled now, and the new ones are on the stack.
    rw [Survey.settled_fill]
    rcases (hmet t).1 ht with ⟨v, hv, rfl⟩ | hold
    · exact .inl ⟨node.child v.value, List.mem_append_left _ (List.mem_map_of_mem hv), rfl⟩
    · rcases hs.queued t hold d hd with ⟨n, hn, rfl⟩ | ⟨x, hx, hrem, hle⟩
      · rcases List.mem_cons.1 hn with rfl | hn
        · rw [hc] at hd
          cases hd
          exact .inr ⟨_, List.mem_cons_self, rfl, Nat.le_refl _⟩
        · exact .inl ⟨n, List.mem_append_right _ hn, rfl⟩
      · exact .inr ⟨x, List.mem_cons_of_mem _ hx, hrem, hle⟩
  · rw [Survey.settled_fill] at hx
    rcases List.mem_cons.1 hx with rfl | hx
    · exact ⟨node.text, hkept node.text hnode, c, hc, rfl, rfl, hsteps⟩
    · exact (hs.filled x hx).mono hkept

/-- A turn that does not meet the limit keeps the invariant. -/
theorem Surveyed.turn (h : q.IsDirect) (hskips : skips.IsSound)
    (hs : q.Surveyed source (node :: rest) s)
    (hwithin : Template.isFinal node.text ∨ node.left ≠ 0) :
    q.Surveyed source ((q.surveyIntoBy skips node s cache).1 ++ rest)
      (q.surveyIntoBy skips node s cache).2.1 := by
  rcases surveyIntoBy_cases h skips s cache hwithin with ⟨hnone, he⟩ | ⟨c, hc, ⟨hskip, he⟩ | he⟩
  · rw [he]
    refine hs.skip fun c hc => ?_
    rw [hnone] at hc
    cases hc
  · rw [he]
    refine hs.skip fun d hd => ?_
    rw [hc] at hd
    cases hd
    exact hskips _ _ _ _ hskip
  · rw [he]
    exact hs.fill hc

/-- The invariant holds at the end of a search that never meets the limit. -/
theorem surveyed_of_staysWithin (h : q.IsDirect) (hskips : skips.IsSound) {left : Nat}
    (hwithin : q.staysWithin skips [⟨source, left⟩] (.start source) cache = true) :
    q.Surveyed source [] (q.surveyBy skips [⟨source, left⟩] (.start source) cache) :=
  surveyBy_invariant (P := q.Surveyed source) (fun hs hw => hs.turn h hskips hw) hwithin
    (surveyed_start left)

/-- At its end a search has met what comes next for each text that it has met, behind text with at
least as good a score. -/
theorem Surveyed.lookedInto (hs : q.Surveyed source [] s) {t : Text} (ht : t ∈ s.visited)
    {c : Template.Container} (hc : q.firstFillable? t = some c) :
    ∃ score, Template.fillScore c.before ≤ score ∧ q.LookedInto s c.remainder score := by
  rcases hs.queued t ht c hc with ⟨n, hn, -⟩ | ⟨x, hx, hrem, hle⟩
  · cases hn
  · exact ⟨x.2.1, hle, hrem ▸ hs.filled x hx⟩

end Query

end Fillout
