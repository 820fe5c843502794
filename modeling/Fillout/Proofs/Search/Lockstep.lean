import Fillout.Proofs.Search.Consulted

set_option autoImplicit false

/-! # Searches in lockstep

Two queries agree on an entry if they offer the same values for it and ask for the same texts on the
way (`Query.AgreesOn`). Rules may be named differently: `relabel` says how the names of the one and
of the other are to be read, and is the identity if the names agree too. If two queries agree on all
entries that the search of one of them consults, the search of the other one goes the same way, turn
by turn, with the same cache (`explore_alike`, `survey_alike`).

Both searches take the induction over the agenda. In a turn the nested searches come first: they
start over with fewer levels left, so they go the same way by induction, and the container gets the
same answers.
-/

namespace Fillout

/-! ## Computations that ask the same -/

namespace Asking

variable {α β σ : Type}

/-- Two computations ask for the same texts, and with the same answers they come to results that are
related. -/
inductive Agrees (R : α → α → Prop) : Asking α → Asking α → Prop
  | done {a a' : α} (h : R a a') : Agrees R (.done a) (.done a')
  | ask {source : Text} {next next' : Option Text → Asking α}
      (h : ∀ result, Agrees R (next result) (next' result)) :
      Agrees R (.ask source next) (.ask source next')

variable {R : α → α → Prop} {S : β → β → Prop}

theorem Agrees.refl (hR : ∀ a, R a a) (x : Asking α) : Agrees R x x := by
  induction x with
  | done a => exact .done (hR a)
  | ask source next ih => exact .ask ih

theorem Agrees.bind {x x' : Asking α} {f f' : α → Asking β} (hx : Agrees R x x')
    (hf : ∀ a a', R a a' → Agrees S (f a) (f' a')) : Agrees S (x.bind f) (x'.bind f') := by
  induction hx with
  | done h => exact hf _ _ h
  | ask _ ih => exact .ask ih

/-- With the same answers to what is asked, the results are related and the states are the same. -/
theorem Agrees.run {x x' : Asking α} (hx : Agrees R x x') {nested nested' : Nested σ} {state : σ}
    (h : ∀ a ∈ x.asked nested state, nested' a.1 a.2 = nested a.1 a.2) :
    R (x.run nested state).1 (x'.run nested' state).1 ∧
      (x'.run nested' state).2 = (x.run nested state).2 := by
  induction hx generalizing state with
  | done hR => exact ⟨hR, rfl⟩
  | @ask source _ _ _ ih =>
      obtain ⟨hhere, hrest⟩ := List.forall_mem_cons.1 h
      rw [Asking.run, Asking.run, hhere]
      exact ih _ hrest

end Asking

/-! ## The names of rules -/

section

variable (g : Option RuleId → Option RuleId)

/-- The candidate with its rule named in another way. -/
def Candidate.relabel (c : Candidate) : Candidate := { c with rule? := g c.rule? }

/-- The origin with its rule named in another way. -/
def Origin.relabel (o : Origin) : Origin := { o with rule? := g o.rule? }

/-- The progress with the rules of the origins named in another way. -/
def Progress.relabel (p : Progress) : Progress :=
  { p with origins := p.origins.map (Origin.relabel g) }

/-- Candidates are the same but for the names of their rules. -/
def Alike (cs cs' : List Candidate) : Prop :=
  cs'.map (Candidate.relabel g) = cs.map (Candidate.relabel g)

variable {g}

theorem Alike.refl (cs : List Candidate) : Alike g cs cs := rfl

theorem Alike.append {as as' bs bs' : List Candidate} (ha : Alike g as as') (hb : Alike g bs bs') :
    Alike g (as ++ bs) (as' ++ bs') := by
  unfold Alike at *
  rw [List.map_append, List.map_append, ha, hb]

theorem Alike.filter {cs cs' : List Candidate} (h : Alike g cs cs') (p : Text → Bool) :
    Alike g (cs.filter fun c => p c.value) (cs'.filter fun c => p c.value) := by
  have hfilter : ∀ cs : List Candidate, (cs.filter fun c => p c.value).map (Candidate.relabel g) =
      (cs.map (Candidate.relabel g)).filter fun c => p c.value := by
    intro cs
    rw [List.filter_map]
    rfl
  unfold Alike at *
  rw [hfilter, hfilter, h]

theorem Alike.map {cs cs' : List Candidate} (h : Alike g cs cs') (f : Text → Text) :
    Alike g (cs.map fun c => { c with value := f c.value })
      (cs'.map fun c => { c with value := f c.value }) := by
  have hmap : ∀ cs : List Candidate,
      (cs.map fun c => { c with value := f c.value }).map (Candidate.relabel g) =
        (cs.map (Candidate.relabel g)).map fun c => { c with value := f c.value } := by
    intro cs
    rw [List.map_map, List.map_map]
    rfl
  unfold Alike at *
  rw [hmap, hmap, h]

theorem Alike.values {cs cs' : List Candidate} (h : Alike g cs cs') :
    cs'.map Candidate.value = cs.map Candidate.value := by
  have hvalues : ∀ cs : List Candidate,
      (cs.map (Candidate.relabel g)).map Candidate.value = cs.map Candidate.value := by
    intro cs
    rw [List.map_map]
    rfl
  unfold Alike at h
  rw [← hvalues, ← hvalues cs, h]

theorem takeUp_relabel (parent : Node) (steps : List Candidate) (p : Progress) :
    Progress.takeUp parent (steps.map (Candidate.relabel g)) (p.relabel g) =
      ((Progress.takeUp parent steps p).1, (Progress.takeUp parent steps p).2.1,
        (Progress.takeUp parent steps p).2.2.relabel g) := by
  induction steps generalizing p with
  | nil => rfl
  | cons s rest ih =>
      rw [List.map_cons]
      by_cases hs : s.value ∈ p.visited
      · rw [Progress.takeUp_of_mem hs,
          Progress.takeUp_of_mem (p := p.relabel g) (s := s.relabel g) hs]
        exact ih p
      · by_cases hf : Template.isFinal s.value
        · rw [Progress.takeUp_of_final hs hf,
            Progress.takeUp_of_final (p := p.relabel g) (s := s.relabel g) hs hf]
          rfl
        · rw [Progress.takeUp_of_new hs hf,
            Progress.takeUp_of_new (p := p.relabel g) (s := s.relabel g) hs hf]
          have hrec : (p.relabel g).record parent.text (s.relabel g) =
              (p.record parent.text s).relabel g := rfl
          rw [hrec, ih]
          rfl

/-- Alike steps are taken up alike. -/
theorem Alike.takeUp {steps steps' : List Candidate} (h : Alike g steps steps') (parent : Node)
    {p p' : Progress} (hp : p'.relabel g = p.relabel g) :
    (Progress.takeUp parent steps' p').1 = (Progress.takeUp parent steps p).1 ∧
      (Progress.takeUp parent steps' p').2.1 = (Progress.takeUp parent steps p).2.1 ∧
      (Progress.takeUp parent steps' p').2.2.relabel g =
        (Progress.takeUp parent steps p).2.2.relabel g := by
  have hsame := takeUp_relabel (g := g) parent steps' p'
  unfold Alike at h
  rw [h, hp, takeUp_relabel] at hsame
  simp only [Prod.mk.injEq] at hsame
  exact ⟨hsame.1.symm, hsame.2.1.symm, hsame.2.2.symm⟩

theorem Alike.survey_takeUp {steps steps' : List Candidate} (h : Alike g steps steps')
    (parent : Node)
    (s : Survey) : Survey.takeUp parent steps' s = Survey.takeUp parent steps s := by
  have hvalues := h.values
  clear h
  induction steps generalizing steps' s with
  | nil => rw [List.map_eq_nil_iff.1 hvalues]
  | cons c steps ih =>
      cases steps' with
      | nil => cases hvalues
      | cons c' steps' =>
          obtain ⟨hvalue, hrest⟩ := List.cons.inj hvalues
          by_cases hs : c.value ∈ s.visited
          · rw [Survey.takeUp_of_mem hs, Survey.takeUp_of_mem (by rw [hvalue]; exact hs)]
            exact ih s hrest
          · rw [Survey.takeUp_of_new hs, Survey.takeUp_of_new (by rw [hvalue]; exact hs), hvalue,
              ih _ hrest]

end

/-! ## Agreement on entries -/

namespace Query

/-- The values that are offered for an entry. -/
def entryAsking (q : Query) : Template.Entry → Asking (List Candidate)
  | .variable key => q.variableAsking key
  | .expression text => .done (q.expressionValues text)

/-- Two queries offer the same values for an entry, and ask for the same texts on the way. -/
def AgreesOn (g : Option RuleId → Option RuleId) (q q' : Query) (e : Template.Entry) : Prop :=
  Asking.Agrees (Alike g) (q.entryAsking e) (q'.entryAsking e)

variable {g : Option RuleId → Option RuleId} {q q' : Query}

theorem AgreesOn.of_eq {e : Template.Entry} (h : q'.entryAsking e = q.entryAsking e) :
    AgreesOn g q q' e := by
  unfold AgreesOn
  rw [h]
  exact .refl (fun cs => Alike.refl cs) _

theorem entriesAsking_agrees {es : List Template.Entry} (h : ∀ e ∈ es, AgreesOn g q q' e) :
    Asking.Agrees (Alike g) (q.entriesAsking es) (q'.entriesAsking es) := by
  have hcons : ∀ (q : Query) (e : Template.Entry) (es : List Template.Entry),
      q.entriesAsking (e :: es) = (q.entryAsking e).bind fun values =>
        (q.entriesAsking es).bind fun rest => .done (values ++ rest) := by
    intro q e es
    cases e <;> rfl
  induction es with
  | nil => exact .done rfl
  | cons e es ih =>
      obtain ⟨he, hes⟩ := List.forall_mem_cons.1 h
      rw [hcons, hcons]
      exact he.bind fun _ _ hvalues => (ih hes).bind fun _ _ hrest => .done (hvalues.append hrest)

theorem stepsAsking_agrees {c : Template.Container}
    (h : ∀ e ∈ Template.entries c.body, AgreesOn g q q' e) :
    Asking.Agrees (Alike g) (q.stepsAsking c) (q'.stepsAsking c) :=
  (entriesAsking_agrees h).bind fun _ _ hvalues =>
    .done ((hvalues.map c.substitute).filter fun t => decide (t ≠ c.source))

/-- Containers are filled alike if the entries that are consulted agree, and so do the searches for
what is asked. -/
theorem containerSteps_alike {left : Nat} {c : Template.Container} {cache : Cache}
    (h : ∀ e ∈ q.containerConsulted left c cache, AgreesOn g q q' e)
    (hnested : ∀ x, (∀ e ∈ q.nestedConsulted left x, AgreesOn g q q' e) →
      q'.resolveNested left x.1 x.2 = q.resolveNested left x.1 x.2) :
    Alike g (q.containerSteps (q.resolveNested left) c cache).1
        (q'.containerSteps (q'.resolveNested left) c cache).1 ∧
      (q'.containerSteps (q'.resolveNested left) c cache).2 =
        (q.containerSteps (q.resolveNested left) c cache).2 := by
  rw [containerConsulted, List.forall_mem_append] at h
  obtain ⟨hhere, hasked⟩ := h
  rw [← run_stepsAsking, ← run_stepsAsking]
  refine (stepsAsking_agrees hhere).run fun x hx => hnested x fun e he => ?_
  exact hasked e (List.mem_flatMap_of_mem hx he)

/-! ## The search for a final text -/

/-- What a search comes to, with the rules of the origins named in another way. -/
def relabelResult (g : Option RuleId → Option RuleId) (r : Option Text × List Origin × Cache) :
    Option Text × List Origin × Cache :=
  (r.1, r.2.1.map (Origin.relabel g), r.2.2)

/-- If the searches for what is not known yet go the same way, so does resolving. -/
theorem resolveNested_eq {left : Nat} {x : Text × Cache}
    (h : (∀ e ∈ q.consulted [⟨x.1, left⟩] (.start x.1) ((x.1, none) :: x.2), AgreesOn g q q' e) →
      relabelResult g (q'.explore [⟨x.1, left⟩] (.start x.1) ((x.1, none) :: x.2)) =
        relabelResult g (q.explore [⟨x.1, left⟩] (.start x.1) ((x.1, none) :: x.2)))
    (hx : ∀ e ∈ q.nestedConsulted left x, AgreesOn g q q' e) :
    q'.resolveNested left x.1 x.2 = q.resolveNested left x.1 x.2 := by
  obtain ⟨source, cache⟩ := x
  unfold resolveNested cached
  cases hcache : cache.lookup source with
  | some result => rfl
  | none =>
      by_cases hf : Template.isFinal source = true
      · simp only [hf, if_true]
      · unfold nestedConsulted at hx
        rw [if_neg (by simp [hcache, hf])] at hx
        have hsame := h hx
        unfold relabelResult at hsame
        simp only [Prod.mk.injEq] at hsame
        simp only [hf, hsame.1, hsame.2.2]

/-- A text is looked into alike. -/
theorem lookInto_alike (q q' : Query) (node : Node) {p p' : Progress} (cache : Cache)
    (hp : p'.relabel g = p.relabel g)
    (hsteps : ∀ c, node.filled? p.settled = some c →
      Alike g (q.stepsFrom node c cache).1 (q'.stepsFrom node c cache).1 ∧
        (q'.stepsFrom node c cache).2 = (q.stepsFrom node c cache).2) :
    (q'.lookInto node p' cache).1 = (q.lookInto node p cache).1 ∧
      (q'.lookInto node p' cache).2.1 = (q.lookInto node p cache).2.1 ∧
      (q'.lookInto node p' cache).2.2.1.relabel g = (q.lookInto node p cache).2.2.1.relabel g ∧
      (q'.lookInto node p' cache).2.2.2 = (q.lookInto node p cache).2.2.2 := by
  obtain ⟨hvisited, hsettled, horigins⟩ := Progress.mk.inj hp
  rw [lookInto_eq, lookInto_eq, hsettled]
  cases hc : node.filled? p.settled with
  | none => exact ⟨rfl, rfl, hp, rfl⟩
  | some c =>
      obtain ⟨halike, hcache⟩ := hsteps c hc
      have hsettle : (p'.settle c.remainder node.left).relabel g =
          (p.settle c.remainder node.left).relabel g := by
        unfold Progress.settle Progress.relabel
        dsimp only
        rw [hvisited, horigins, hsettled]
      obtain ⟨hfound, hnodes, hprogress⟩ := halike.takeUp node hsettle
      exact ⟨hfound, hnodes, hprogress, hcache⟩

/-- If two queries agree on what the search of one of them consults, the other one's goes the same
way. -/
theorem explore_alike {stack : List Node} {p p' : Progress} {cache : Cache}
    (h : ∀ e ∈ q.consulted stack p cache, AgreesOn g q q' e) (hp : p'.relabel g = p.relabel g) :
    relabelResult g (q'.explore stack p' cache) = relabelResult g (q.explore stack p cache) := by
  induction ha : Agenda.mk stack using Agenda.wellFounded.induction
    generalizing stack p p' cache with
  | _ a ih =>
    subst ha
    cases stack with
    | nil =>
        rw [explore_nil, explore_nil]
        exact congrArg (fun p => (none, p.origins, cache)) hp
    | cons node rest =>
        rw [consulted_cons, List.forall_mem_append] at h
        obtain ⟨hhere, hrest⟩ := h
        have hturn := lookInto_alike q q' node cache hp fun c hc => by
          have hleft : node.left ≠ 0 := by
            intro hl
            rw [Node.filled?, if_pos hl] at hc
            cases hc
          rw [hc] at hhere
          refine containerSteps_alike hhere fun x hx => resolveNested_eq (fun hx => ?_) hx
          exact ih _ (.restart (Node.smaller_of_left (Nat.sub_one_lt hleft)) rest) hx rfl rfl
        have hsmall := q.lookInto_smaller node p cache
        rw [explore_cons, explore_cons]
        rcases hl : q.lookInto node p cache with ⟨found, children, p₁, cache₁⟩
        rcases hl' : q'.lookInto node p' cache with ⟨found', children', p₁', cache₁'⟩
        rw [hl, hl'] at hturn
        rw [hl] at hrest hsmall
        obtain ⟨hfound, hchildren, hp₁, hcache⟩ := hturn
        dsimp only at hfound hchildren hp₁ hcache
        subst hfound hchildren hcache
        cases found' with
        | some t =>
            refine congrArg (fun origins => (some t, origins, cache₁')) ?_
            exact congrArg Progress.origins hp₁
        | none => exact ih _ (.keep hsmall) hrest hp₁ rfl

theorem resolveNested_alike {left : Nat} {x : Text × Cache}
    (hx : ∀ e ∈ q.nestedConsulted left x, AgreesOn g q q' e) :
    q'.resolveNested left x.1 x.2 = q.resolveNested left x.1 x.2 :=
  resolveNested_eq (fun hx => explore_alike hx rfl) hx

/-- The search for a final text below `source` goes the same way. -/
theorem first_alike (source : Text) (left : Nat) (cache : Cache)
    (h : ¬ Template.isFinal source →
      ∀ e ∈ q.consulted [⟨source, left⟩] (.start source) cache, AgreesOn g q q' e) :
    relabelResult g (q'.first source left cache) = relabelResult g (q.first source left cache) := by
  unfold first
  by_cases hf : Template.isFinal source
  · rw [if_pos hf, if_pos hf]
  · rw [if_neg hf, if_neg hf]
    exact explore_alike (h hf) rfl

/-! ## Single steps and the search for the best text -/

theorem allSteps_alike {left : Nat} {cs : List Template.Container} {cache : Cache}
    (h : ∀ e ∈ q.eachConsulted left cs cache, AgreesOn g q q' e) :
    Alike g (q.allSteps (q.resolveNested left) cs cache).1
      (q'.allSteps (q'.resolveNested left) cs cache).1 := by
  induction cs generalizing cache with
  | nil =>
      rw [allSteps, allSteps]
      rfl
  | cons c cs ih =>
      rw [eachConsulted, List.forall_mem_append] at h
      obtain ⟨hsteps, hcache⟩ := containerSteps_alike h.1 fun _ => resolveNested_alike
      simp only [allSteps, hcache]
      exact hsteps.append (ih h.2)

theorem firstSteps?_alike {left : Nat} {cs : List Template.Container} {cache : Cache}
    (h : ∀ e ∈ q.firstConsulted left cs cache, AgreesOn g q q' e) :
    ((q'.firstSteps? (q'.resolveNested left) cs cache).2 =
      (q.firstSteps? (q.resolveNested left) cs cache).2) ∧
    (((q.firstSteps? (q.resolveNested left) cs cache).1 = none ∧
        (q'.firstSteps? (q'.resolveNested left) cs cache).1 = none) ∨
      ∃ c steps steps', Alike g steps steps' ∧
        (q.firstSteps? (q.resolveNested left) cs cache).1 = some (c, steps) ∧
        (q'.firstSteps? (q'.resolveNested left) cs cache).1 = some (c, steps')) := by
  induction cs generalizing cache with
  | nil =>
      rw [firstSteps?, firstSteps?]
      exact ⟨rfl, .inl ⟨rfl, rfl⟩⟩
  | cons c cs ih =>
      rw [firstConsulted, List.forall_mem_append] at h
      obtain ⟨hhere, hrest⟩ := h
      obtain ⟨hsteps, hcache⟩ := containerSteps_alike hhere fun _ => resolveNested_alike
      rw [firstSteps?, firstSteps?]
      rcases hq : q.containerSteps (q.resolveNested left) c cache with ⟨steps, cache₁⟩
      rcases hq' : q'.containerSteps (q'.resolveNested left) c cache with ⟨steps', cache₁'⟩
      rw [hq, hq'] at hsteps hcache
      rw [hq] at hrest
      dsimp only at hsteps hcache
      subst hcache
      cases steps with
      | nil =>
          cases steps' with
          | nil => exact ih hrest
          | cons s' steps' => cases hsteps
      | cons s steps =>
          cases steps' with
          | nil => cases hsteps
          | cons s' steps' => exact ⟨rfl, .inr ⟨c, _, _, hsteps, rfl, rfl⟩⟩

theorem surveyInto_alike {node : Node} {s : Survey} {cache : Cache}
    (h : ∀ e ∈ if node.left = 0 then []
      else q.firstConsulted (node.left - 1) (Template.containers node.text) cache,
        AgreesOn g q q' e) :
    q'.surveyInto node s cache = q.surveyInto node s cache := by
  unfold surveyInto surveyIntoBy
  by_cases hl : node.left = 0
  · rw [if_pos hl, if_pos hl]
  · rw [if_neg hl] at h
    rw [if_neg hl, if_neg hl]
    obtain ⟨hcache, hfirst⟩ := firstSteps?_alike h
    rcases hq : q.firstSteps? _ (Template.containers node.text) cache with ⟨first, cache₁⟩
    rcases hq' : q'.firstSteps? _ (Template.containers node.text) cache with ⟨first', cache₁'⟩
    rw [hq, hq'] at hcache hfirst
    dsimp only at hcache hfirst
    subst hcache
    obtain ⟨rfl, rfl⟩ | ⟨c, steps, steps', hsteps, rfl, rfl⟩ := hfirst
    · rfl
    · dsimp only
      rw [hsteps.survey_takeUp]

/-- The search for the best text goes the same way. -/
theorem survey_alike {stack : List Node} {s : Survey} {cache : Cache}
    (h : ∀ e ∈ q.surveyConsulted stack s cache, AgreesOn g q q' e) :
    q'.survey stack s cache = q.survey stack s cache := by
  induction ha : Agenda.mk stack using Agenda.wellFounded.induction generalizing stack s cache with
  | _ a ih =>
    subst ha
    cases stack with
    | nil => rw [survey_nil, survey_nil]
    | cons node rest =>
        rw [surveyConsulted, List.forall_mem_append] at h
        obtain ⟨hhere, hrest⟩ := h
        rw [survey_cons, survey_cons, surveyInto_alike hhere]
        exact ih _ (.keep (q.surveyInto_smaller node s cache)) hrest rfl

/-- The values of a variable are the same. -/
theorem variableValues_alike {left : Nat} {key : Text} {cache : Cache}
    (h : ∀ e ∈ q.variableConsulted left key cache, AgreesOn g q q' e) :
    Alike g (q.variableValues (q.resolveNested left) key cache).1
      (q'.variableValues (q'.resolveNested left) key cache).1 := by
  rw [variableConsulted, List.forall_mem_cons] at h
  obtain ⟨hhere, hasked⟩ := h
  rw [← run_variableAsking, ← run_variableAsking]
  refine (Asking.Agrees.run hhere fun x hx => resolveNested_alike (g := g) fun e he => ?_).1
  exact hasked e (List.mem_flatMap_of_mem hx he)

end Query

end Fillout
