import Fillout.Proofs.Search.Turn
import Fillout.Proofs.Selection.Basic

set_option autoImplicit false

/-! # What the engine offers

A declarative account of the values that are offered for the entries of a container, and of the
texts that a text resolves to. Neither stacks nor caches nor limits have a part in it: a text
resolves to a final text if filling leftmost containers with offered values leads there, and the
value of a date or a switch is offered if the text it depends on resolves.

The functions of `Fillout.Resolve.Candidates` offer nothing else, whatever their state, as long as
what they are told about other texts is right (`Sound`); and what the search tells them is right
(`resolveNested_sound`), because all results in the cache are (`CacheSound`).
-/

namespace Fillout

namespace Query

variable {σ : Type} (q : Query)

/-! ## Offers -/

/-- A value is offered by a selected rule, when `R` says what other texts resolve to. -/
inductive OfferedBy (R : Text → Text → Prop) : Text → Selected → Prop
  /-- A date offers what its value resolves to, with the compact dates expanded. -/
  | date {m : Selected} {raw t : Text} (hk : m.rule.body.kind = .date)
      (hv : q.plainValue? m.rule = some raw) (hr : R raw t) :
      OfferedBy R (Calendar.reformatCompactDates t) m
  /-- A switch offers whether its text resolves to the alternative at the place that matched. -/
  | switch {m : Selected} {source t : Text} {alternatives : List Text}
      (hk : m.rule.body.kind = .switch)
      (hv : switchParts? m.rule.body.value = some (source, alternatives)) (hr : R source t) :
      OfferedBy R (if alternatives[m.alternative]? = some t then ['1'] else ['0']) m
  /-- Any other rule offers its value. -/
  | plain {m : Selected} {t : Text} (hd : m.rule.body.kind ≠ .date)
      (hs : m.rule.body.kind ≠ .switch) (hv : q.plainValue? m.rule = some t) : OfferedBy R t m

theorem rule?_of_mem_expressionValues {q : Query} {text : Text} {v : Candidate}
    (h : v ∈ q.expressionValues text) : v.rule? = none := by
  unfold expressionValues at h
  split at h
  · split at h
    · cases h
    · rw [List.mem_singleton.1 h]
  · cases h

/-- A value is offered for an entry of a container, when `R` says what other texts resolve to. -/
inductive Offers (R : Text → Text → Prop) : Template.Entry → Candidate → Prop
  | rule {key t : Text} {m : Selected} (hm : m ∈ select q.store q.ctx key)
      (ho : q.OfferedBy R t m) (hk : t ≠ key) (ht : t ≠ q.top) :
      Offers R (.variable key) ⟨t, some m.rule.id⟩
  | default {key t : Text} (hd : q.env.defaultFor? key q.ctx = some t) (hk : t ≠ key)
      (ht : t ≠ q.top) : Offers R (.variable key) ⟨t, none⟩
  | expression {text : Text} {v : Candidate} (hv : v ∈ q.expressionValues text) :
      Offers R (.expression text) v

/-- The rule that a value comes from is a rule of the store that may be used. -/
theorem Offers.rule_applies {q : Query} {R : Text → Text → Prop} {e : Template.Entry}
    {v : Candidate} (h : q.Offers R e v) {id : RuleId} (hid : v.rule? = some id) :
    ∃ r ∈ q.store.rules, r.id = id ∧ r.applies q.ctx := by
  cases h with
  | rule hm =>
      cases hid
      exact ⟨_, (rule_of_mem_select hm).1, rfl, (rule_of_mem_select hm).2⟩
  | default => cases hid
  | expression hv =>
      rw [rule?_of_mem_expressionValues hv] at hid
      cases hid

/-- Filling the container `c` with the value `v` is a step: `v` is offered for one of the entries,
and it changes the text. -/
def Fills (R : Text → Text → Prop) (c : Template.Container) (v : Candidate) : Prop :=
  (∃ e ∈ Template.entries c.body, q.Offers R e v) ∧ c.substitute v.value ≠ c.source

/-- A text resolves to a final text: filling leftmost containers leads there. -/
inductive Resolves : Text → Text → Prop
  | final {t : Text} (h : Template.isFinal t) : Resolves t t
  | step {s t : Text} {c : Template.Container} {e : Template.Entry} {v : Candidate}
      (hc : Template.firstContainer? s = some c) (he : e ∈ Template.entries c.body)
      (ho : q.Offers Resolves e v) (hne : c.substitute v.value ≠ c.source)
      (ht : Resolves (c.substitute v.value) t) : Resolves s t

/-- What the outcome of a step resolves to, the text resolves to. -/
theorem Resolves.of_fills {q : Query} {s t : Text} {c : Template.Container} {v : Candidate}
    (hc : Template.firstContainer? s = some c) (hv : q.Fills q.Resolves c v)
    (ht : q.Resolves (c.substitute v.value) t) : q.Resolves s t := by
  obtain ⟨⟨e, he, ho⟩, hne⟩ := hv
  exact .step hc he ho hne ht

/-! ## Nothing else is offered -/

/-- What `nested` says other texts resolve to is right, by `R`, as long as its state is in order,
and its state stays in order. -/
structure Sound (nested : Nested σ) (Ok : σ → Prop) (R : Text → Text → Prop) : Prop where
  keeps : ∀ {source state}, Ok state → Ok (nested source state).2
  right : ∀ {source state}, Ok state → ∀ t, (nested source state).1 = some t → R source t

variable {q} {nested : Nested σ} {Ok : σ → Prop} {R : Text → Text → Prop}

theorem switchValue_sound (h : Sound nested Ok R) (m : Selected) {state : σ} (hs : Ok state) :
    Ok (switchValue nested m state).2 ∧
      ∀ t, m.rule.body.kind = .switch → (switchValue nested m state).1 = some t →
        q.OfferedBy R t m := by
  unfold switchValue
  cases hp : switchParts? m.rule.body.value with
  | none => exact ⟨hs, fun t _ ht => nomatch ht⟩
  | some parts =>
      obtain ⟨source, alternatives⟩ := parts
      have hk : Ok (nested source state).2 := h.keeps hs
      have hr : ∀ t, (nested source state).1 = some t → R source t := h.right hs
      dsimp only
      split
      · rename_i state' hn
        rw [hn] at hk
        exact ⟨hk, fun t _ ht => nomatch ht⟩
      · rename_i t state' hn
        rw [hn] at hk hr
        refine ⟨hk, fun u hkind hu => ?_⟩
        cases hu
        exact .switch hkind hp (hr _ rfl)

theorem dateValue_sound (h : Sound nested Ok R) (m : Selected) {state : σ} (hs : Ok state) :
    Ok (q.dateValue nested m.rule state).2 ∧
      ∀ t, m.rule.body.kind = .date → (q.dateValue nested m.rule state).1 = some t →
        q.OfferedBy R t m := by
  unfold dateValue
  cases hp : q.plainValue? m.rule with
  | none => exact ⟨hs, fun t _ ht => nomatch ht⟩
  | some raw =>
      refine ⟨h.keeps hs, fun t hkind ht => ?_⟩
      obtain ⟨u, hu, rfl⟩ := Option.map_eq_some_iff.1 ht
      exact .date hkind hp (h.right hs u hu)

theorem ruleValue_sound (h : Sound nested Ok R) (m : Selected) {state : σ} (hs : Ok state) :
    Ok (q.ruleValue nested m state).2 ∧
      ∀ t, (q.ruleValue nested m state).1 = some t → q.OfferedBy R t m := by
  unfold ruleValue
  split
  · rename_i hk
    have hd := dateValue_sound (q := q) h m hs
    exact ⟨hd.1, fun t => hd.2 t hk⟩
  · rename_i hk
    have hw := switchValue_sound (q := q) h m hs
    exact ⟨hw.1, fun t => hw.2 t hk⟩
  · rename_i hd hw
    exact ⟨hs, fun t ht => .plain hd hw ht⟩

theorem ruleValues_sound (h : Sound nested Ok R) (ms : List Selected) {state : σ}
    (hs : Ok state) :
    Ok (q.ruleValues nested ms state).2 ∧
      ∀ v ∈ (q.ruleValues nested ms state).1,
        ∃ m ∈ ms, q.OfferedBy R v.value m ∧ v.rule? = some m.rule.id := by
  induction ms generalizing state with
  | nil => exact ⟨hs, fun v hv => nomatch hv⟩
  | cons m ms ih =>
      obtain ⟨hk, ho⟩ := ruleValue_sound (q := q) h m hs
      obtain ⟨hk', ho'⟩ := ih hk
      refine ⟨hk', fun v hv => ?_⟩
      rcases List.mem_append.1 hv with hv | hv
      · obtain ⟨t, ht, rfl⟩ := Option.map_eq_some_iff.1 (Option.mem_toList.1 hv)
        exact ⟨m, List.mem_cons_self, ho t ht, rfl⟩
      · obtain ⟨m', hm', hv'⟩ := ho' v hv
        exact ⟨m', List.mem_cons_of_mem m hm', hv'⟩

theorem variableValues_sound (h : Sound nested Ok R) (key : Text) {state : σ} (hs : Ok state) :
    Ok (q.variableValues nested key state).2 ∧
      ∀ v ∈ (q.variableValues nested key state).1, q.Offers R (.variable key) v := by
  obtain ⟨hk, ho⟩ := ruleValues_sound (q := q) h (select q.store q.ctx key) hs
  refine ⟨hk, fun v hv => ?_⟩
  obtain ⟨hv, hne⟩ := List.mem_filter.1 hv
  obtain ⟨hkey, htop⟩ := of_decide_eq_true hne
  obtain ⟨t, rule?⟩ := v
  rcases List.mem_append.1 hv with hv | hv
  · obtain ⟨m, hm, hb, hr⟩ := ho _ hv
    cases hr
    exact .rule hm hb hkey htop
  · obtain ⟨u, hu, he⟩ := Option.map_eq_some_iff.1 (Option.mem_toList.1 hv)
    cases he
    exact .default hu hkey htop

theorem entryValues_sound (h : Sound nested Ok R) (e : Template.Entry) {state : σ}
    (hs : Ok state) :
    Ok (q.entryValues nested e state).2 ∧
      ∀ v ∈ (q.entryValues nested e state).1, q.Offers R e v := by
  cases e with
  | «variable» key => exact variableValues_sound h key hs
  | expression text => exact ⟨hs, fun v hv => .expression hv⟩

theorem entriesValues_sound (h : Sound nested Ok R) (es : List Template.Entry) {state : σ}
    (hs : Ok state) :
    Ok (q.entriesValues nested es state).2 ∧
      ∀ v ∈ (q.entriesValues nested es state).1, ∃ e ∈ es, q.Offers R e v := by
  induction es generalizing state with
  | nil => exact ⟨hs, fun v hv => nomatch hv⟩
  | cons e es ih =>
      obtain ⟨hk, ho⟩ := entryValues_sound (q := q) h e hs
      obtain ⟨hk', ho'⟩ := ih hk
      refine ⟨hk', fun v hv => ?_⟩
      rcases List.mem_append.1 hv with hv | hv
      · exact ⟨e, List.mem_cons_self, ho v hv⟩
      · obtain ⟨e', he', hv'⟩ := ho' v hv
        exact ⟨e', List.mem_cons_of_mem e he', hv'⟩

/-- All that filling a container leads to are steps. -/
theorem containerSteps_sound (h : Sound nested Ok R) (c : Template.Container) {state : σ}
    (hs : Ok state) :
    Ok (q.containerSteps nested c state).2 ∧
      ∀ s ∈ (q.containerSteps nested c state).1,
        ∃ v, q.Fills R c v ∧ s = ⟨c.substitute v.value, v.rule?⟩ := by
  obtain ⟨hk, ho⟩ := entriesValues_sound (q := q) h (Template.entries c.body) hs
  refine ⟨hk, fun s hs => ?_⟩
  obtain ⟨hs, hne⟩ := List.mem_filter.1 hs
  obtain ⟨v, hv, rfl⟩ := List.mem_map.1 hs
  exact ⟨v, ⟨ho v hv, of_decide_eq_true hne⟩, rfl⟩

/-! ## What the search says is right -/

/-- All results in the cache are right. -/
def CacheSound (q : Query) (cache : Cache) : Prop :=
  ∀ s t, (s, some t) ∈ cache → q.Resolves s t

theorem CacheSound.nil : q.CacheSound [] := fun _ _ h => nomatch h

theorem CacheSound.cons {cache : Cache} (h : q.CacheSound cache) {s : Text} {result : Option Text}
    (hr : ∀ t, result = some t → q.Resolves s t) : q.CacheSound ((s, result) :: cache) := by
  intro s' t hm
  rcases List.mem_cons.1 hm with he | hm
  · cases he
    exact hr t rfl
  · exact h s' t hm

/-- Going by way of the cache keeps a search right. -/
theorem cached_sound {search : Nested Cache} (h : Sound search q.CacheSound q.Resolves) :
    Sound (cached search) q.CacheSound q.Resolves := by
  have key : ∀ source cache, q.CacheSound cache → q.CacheSound (cached search source cache).2 ∧
      ∀ t, (cached search source cache).1 = some t → q.Resolves source t := by
    intro source cache hc
    unfold cached
    split
    · rename_i result hl
      refine ⟨hc, fun t ht => ?_⟩
      obtain ⟨l₁, l₂, he, -⟩ := List.lookup_eq_some_iff.1 hl
      refine hc source t ?_
      have hres : result = some t := ht
      rw [he, hres]
      simp
    · -- While the text is being resolved it has no value, and that says nothing wrong.
      have hopen : q.CacheSound ((source, none) :: cache) := hc.cons fun _ h => nomatch h
      by_cases hf : Template.isFinal source
      · have hr : ∀ t, some source = some t → q.Resolves source t := by
          rintro t ⟨⟩
          exact .final hf
        rw [if_pos hf]
        exact ⟨hopen.cons hr, hr⟩
      · rw [if_neg hf]
        exact ⟨(h.keeps hopen).cons (h.right hopen), h.right hopen⟩
  exact ⟨fun hc => (key _ _ hc).1, fun hc => (key _ _ hc).2⟩

/-- All that a node leads to are steps, and the cache stays right. -/
theorem stepsFrom_sound {node : Node}
    (hn : Sound (q.resolveNested (node.left - 1)) q.CacheSound q.Resolves)
    (c : Template.Container) {cache : Cache} (hc : q.CacheSound cache) :
    q.CacheSound (q.stepsFrom node c cache).2 ∧
      ∀ s ∈ (q.stepsFrom node c cache).1,
        ∃ v, q.Fills q.Resolves c v ∧ s = ⟨c.substitute v.value, v.rule?⟩ :=
  containerSteps_sound hn c hc

/-- A turn keeps the cache right; the nodes it hands on, and the final text it may find, come from
filling the container. -/
theorem fillFirst_sound {node : Node}
    (hn : Sound (q.resolveNested (node.left - 1)) q.CacheSound q.Resolves)
    (c : Template.Container) (p : Progress) {cache : Cache} (hc : q.CacheSound cache) :
    q.CacheSound (q.fillFirst node c p cache).2.2.2 ∧
      (∀ n ∈ (q.fillFirst node c p cache).2.1, ∃ v, q.Fills q.Resolves c v ∧
        n = node.child (c.substitute v.value)) ∧
      ∀ t, (q.fillFirst node c p cache).1 = some t → Template.isFinal t ∧
        ∃ v, q.Fills q.Resolves c v ∧ t = c.substitute v.value := by
  obtain ⟨hk, ho⟩ := stepsFrom_sound hn c hc
  obtain ⟨hnodes, hfound⟩ := Progress.exists_step_of_takeUp node (q.stepsFrom node c cache).1
    (p.settle c.remainder node.left)
  refine ⟨hk, fun n hn => ?_, fun t ht => ?_⟩
  · obtain ⟨s, hs, rfl⟩ := hnodes n hn
    obtain ⟨v, hv, rfl⟩ := ho s hs
    exact ⟨v, hv, rfl⟩
  · obtain ⟨hf, s, hs, rfl⟩ := hfound t ht
    obtain ⟨v, hv, rfl⟩ := ho s hs
    exact ⟨hf, v, hv, rfl⟩

theorem resolves_of_mem_singleton (source : Text) (left : Nat) :
    ∀ n ∈ [(⟨source, left⟩ : Node)], ∀ t, q.Resolves n.text t → q.Resolves source t := by
  intro n hn t ht
  rw [List.mem_singleton.1 hn] at ht
  exact ht

/-- A search keeps the cache right, and what it finds is right: if all that the texts on its stack
resolve to, `source` resolves to, then `source` resolves to what it finds. -/
theorem explore_sound (source : Text) (stack : List Node) (p : Progress) (cache : Cache)
    (hc : q.CacheSound cache)
    (hs : ∀ n ∈ stack, ∀ t, q.Resolves n.text t → q.Resolves source t) :
    q.CacheSound (q.explore stack p cache).2.2 ∧
      ∀ t, (q.explore stack p cache).1 = some t → q.Resolves source t := by
  induction ha : Agenda.mk stack using Agenda.wellFounded.induction
    generalizing source stack p cache with
  | _ a ih =>
    subst ha
    cases stack with
    | nil =>
        rw [explore_nil]
        exact ⟨hc, fun t ht => nomatch ht⟩
    | cons node rest =>
        rw [explore_cons]
        have hrest : ∀ n ∈ rest, ∀ t, q.Resolves n.text t → q.Resolves source t :=
          fun n hn => hs n (List.mem_cons_of_mem node hn)
        rcases q.lookInto_cases node p cache with ⟨-, h⟩ | ⟨c, hl, hcont, -, h⟩
        · rw [h]
          exact ih _ (.skip node rest) source rest p cache hc hrest rfl
        · -- The texts that values depend on are resolved one level further down.
          have hdown : ∀ s x, q.CacheSound x →
              q.CacheSound (q.explore [⟨s, node.left - 1⟩] (.start s) x).2.2 ∧
                ∀ t, (q.explore [⟨s, node.left - 1⟩] (.start s) x).1 = some t →
                  q.Resolves s t := by
            intro s x hx
            have hlt : Node.Smaller ⟨s, node.left - 1⟩ node :=
              Node.smaller_of_left (Nat.sub_one_lt (Nat.ne_of_gt hl))
            exact ih _ (.restart hlt rest) s [⟨s, node.left - 1⟩] (.start s) x hx
              (resolves_of_mem_singleton s _) rfl
          have hnested : Sound (q.resolveNested (node.left - 1)) q.CacheSound q.Resolves :=
            cached_sound ⟨fun hx => (hdown _ _ hx).1, fun hx => (hdown _ _ hx).2⟩
          have hnode : ∀ t v, q.Fills q.Resolves c v → q.Resolves (c.substitute v.value) t →
              q.Resolves source t := fun t v hv ht =>
            hs node List.mem_cons_self t (.of_fills hcont hv ht)
          obtain ⟨hk, hchildren, hfound⟩ := fillFirst_sound hnested c p hc
          have hsmall := q.lookInto_smaller node p cache
          rw [h] at hsmall ⊢
          split
          · rename_i t nodes p' cache' hfill
            rw [hfill] at hk hfound
            refine ⟨hk, fun u hu => ?_⟩
            cases hu
            obtain ⟨hfinal, v, hv, rfl⟩ := hfound t rfl
            exact hnode _ v hv (.final hfinal)
          · rename_i nodes p' cache' hfill
            rw [hfill] at hk hchildren hsmall
            refine ih _ (.keep hsmall) source (nodes ++ rest) p' cache' hk (fun n hn t ht => ?_) rfl
            rcases List.mem_append.1 hn with hn | hn
            · obtain ⟨v, hv, rfl⟩ := hchildren n hn
              exact hnode t v hv ht
            · exact hrest n hn t ht

/-- What a search says of a text that a value depends on is right. -/
theorem resolveNested_sound (left : Nat) :
    Sound (q.resolveNested left) q.CacheSound q.Resolves :=
  have hstart source cache (hc : q.CacheSound cache) :=
    explore_sound source _ (.start source) cache hc (resolves_of_mem_singleton source left)
  cached_sound ⟨fun hc => (hstart _ _ hc).1, fun hc => (hstart _ _ hc).2⟩

end Query

end Fillout
