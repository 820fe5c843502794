import Fillout.Proofs.Rule.Pattern
import Fillout.Proofs.Search.Afresh
import Fillout.Proofs.Selection.Tiers
import Fillout.Proofs.Template.Flat
import Fillout.Proofs.Template.QuotedEntries
import Fillout.Resolve.Engine

set_option autoImplicit false

/-! # Switches

A switch is written with two lists: the names that it is for, and the alternatives for a variable.
For the name at some place its value tells whether the variable resolves to the alternative at this
place.

The place of a name is the one in the list as it is written, because no name is blank or comes
twice. The place of an alternative is counted without the blank ones, which are no entries. So the
two go together up to the first blank alternative (`switchValue_at_place`). Behind it a name is
compared with a later alternative than the one that was written for it
(`switchValue_blankAlternative`).
-/

namespace Fillout

open Template (IsPlain IsUnmarked Piece nonblank opener closer)

/-! ## How a switch is written -/

/-- Names and alternatives that a switch over the variable `v` can be written with: the names are
different and none of them is the variable, and each has an alternative, which may be blank. -/
structure AreSwitchTexts (names : List Text) (v : Text) (alternatives : List Text) : Prop where
  names_unmarked : ∀ p ∈ names, IsUnmarked p
  names_nonblank : ∀ p ∈ names, p.trim ≠ []
  names_nodup : (names.map Text.trim).Nodup
  alternatives_unmarked : ∀ a ∈ alternatives, IsUnmarked a
  length_eq : alternatives.length = names.length
  isWritten : (Template.Entry.variable v).IsWritten
  isPlain : IsPlain v
  no_equals : '=' ∉ v
  not_mem : v ∉ names.map Text.trim

instance (names : List Text) (v : Text) (alternatives : List Text) :
    Decidable (AreSwitchTexts names v alternatives) :=
  have : Decidable (Template.Entry.variable v).IsWritten :=
    inferInstanceAs (Decidable (v ≠ [] ∧ v.trim = v ∧ IsUnmarked v))
  decidable_of_iff
    ((∀ p ∈ names, IsUnmarked p ∧ p.trim ≠ []) ∧ (names.map Text.trim).Nodup ∧
      (∀ a ∈ alternatives, IsUnmarked a) ∧ alternatives.length = names.length ∧
      (Template.Entry.variable v).IsWritten ∧ IsPlain v ∧ '=' ∉ v ∧ v ∉ names.map Text.trim)
    ⟨fun ⟨hnames, hnodup, halternatives, hlength, hwritten, hplain, hequals, hmem⟩ =>
      ⟨fun p hp => (hnames p hp).1, fun p hp => (hnames p hp).2, hnodup, halternatives, hlength,
        hwritten, hplain, hequals, hmem⟩,
    fun h => ⟨fun p hp => ⟨h.names_unmarked p hp, h.names_nonblank p hp⟩, h.names_nodup,
      h.alternatives_unmarked, h.length_eq, h.isWritten, h.isPlain, h.no_equals, h.not_mem⟩⟩

namespace Record

/-- A switch over a variable: for each of the names, an alternative. -/
def switchOver (v : Text) (names alternatives : List Text) (owner : Owner) : Record where
  kind := .switch
  pattern := Text.join ", ".toList names
  value := .literal (v ++ " = ".toList ++ Text.join ", ".toList alternatives)
  owner := owner

/-- A rule that gives a variable a text. -/
def giving (v t : Text) (owner : Owner) : Record where
  kind := .equal
  pattern := v
  value := .literal t
  owner := owner

end Record

variable {names alternatives : List Text} {v t : Text} {owner : Owner} {i : Nat}

namespace AreSwitchTexts

theorem alternatives_switchOver (h : AreSwitchTexts names v alternatives) :
    (RuleBody.ofRecord (.switchOver v names alternatives owner)).pattern.alternatives =
      names.map Text.trim :=
  RulePattern.alternatives_ofText_join h.names_unmarked h.names_nonblank h.names_nodup

theorem alternatives_giving (h : AreSwitchTexts names v alternatives) :
    (RuleBody.ofRecord (.giving v t owner)).pattern.alternatives = [v] := by
  show RulePattern.firstOccurrences [] (Template.splitEntries v) = [v]
  rw [h.isWritten.splitEntries_eq]
  rfl

/-- The value of the switch asks for the variable, and lists the alternatives that are not blank. -/
theorem switchParts?_switchOver (h : AreSwitchTexts names v alternatives) (owner : Owner) :
    Query.switchParts? (Record.switchOver v names alternatives owner).value =
      some ((Piece.slot v).text, nonblank alternatives) := by
  have hblank : ∀ c ∈ [' '], Unicode.isWhitespace c := List.forall_mem_singleton.2 (by decide)
  have hcut : Text.cut? ['='] (v ++ " = ".toList ++ Text.join ", ".toList alternatives) =
      some (v ++ [' '], ' ' :: Text.join ", ".toList alternatives) := by
    have hne : '=' ∉ v ++ [' '] := by simp [h.no_equals]
    rw [← Text.cut?_append hne [] _]
    simp
  have hname : (v ++ [' ']).trim = v := by
    rw [Text.trim_append_right hblank, h.isWritten.2.1]
  have hlist : Template.splitEntries (' ' :: Text.join ", ".toList alternatives) =
      nonblank alternatives := by
    rw [← Template.splitEntries_join_of_isUnmarked h.alternatives_unmarked]
    exact Template.splitEntries_append hblank _
  unfold Query.switchParts? Record.switchOver
  dsimp only
  rw [hcut, Option.map_some, hname, hlist, if_pos (Template.isFinal_of_isPlain h.isPlain)]
  rfl

end AreSwitchTexts

/-! ## The variable -/

namespace Query

variable {q : Query} {m : Selected}

/-- What a rule that is selected alone gives a variable is the first value that is offered for
it. -/
theorem given?_variableAsking (hselect : select q.store q.ctx v = [m])
    (hkind : m.rule.body.kind = .equal) (hvalue : m.rule.body.value = .literal t) (hne : t ≠ v)
    (htop : t ≠ q.top) (values : Text → Option (Option Text)) :
    ∃ rest, (q.variableAsking v).given? values = some (⟨t, some m.rule.id⟩ :: rest) := by
  have hrule : q.ruleAsking m = .done (some t) := by
    rw [ruleAsking, hkind]
    dsimp only
    rw [plainValue?, hvalue]
  have hrules : (q.rulesAsking [m]).given? values = some [⟨t, some m.rule.id⟩] := by
    rw [rulesAsking, rulesAsking, hrule]
    rfl
  rw [variableAsking, Asking.given?_bind, hselect, hrules, Option.bind_some]
  dsimp only [Asking.given?]
  rw [List.cons_append, List.filter_cons_of_pos (by simp [hne, htop])]
  exact ⟨_, rfl⟩

/-- Plain text is not a container. -/
theorem ne_slot_of_isPlain (ht : IsPlain t) (v : Text) : t ≠ (Piece.slot v).text := by
  rintro rfl
  exact ht.not_mem.1 (by simp [Piece.text, opener])

/-- The first value of a variable is the first text that filling a container around it leads to. -/
theorem given?_stepsAsking (hentries : Template.entries v = [.variable v]) (ht : IsPlain t)
    {values : Text → Option (Option Text)} {r? : Option RuleId} {rest : List Candidate}
    (hoffer : (q.variableAsking v).given? values = some (⟨t, r?⟩ :: rest)) :
    ∃ steps, (q.stepsAsking ⟨[], v, []⟩).given? values = some (⟨t, r?⟩ :: steps) := by
  have hvalues : (q.entriesAsking [.variable v]).given? values = some (⟨t, r?⟩ :: rest) := by
    rw [entriesAsking, entriesAsking, Asking.given?_bind, hoffer]
    simp [Asking.bind, Asking.given?]
  have hsubstitute : (⟨[], v, []⟩ : Template.Container).substitute t = t := List.append_nil t
  have hchanged : t ≠ (⟨[], v, []⟩ : Template.Container).source := by
    simpa [Template.Container.source, Piece.text] using ne_slot_of_isPlain ht v
  rw [stepsAsking, Asking.given?_bind]
  dsimp only
  rw [hentries, hvalues, Option.bind_some, Asking.given?, List.map_cons, hsubstitute,
    List.filter_cons_of_pos (by simpa using hchanged)]
  exact ⟨_, rfl⟩

/-- A variable whose first value is plain text is resolved to it. -/
theorem value?_slot (hv : IsPlain v) (hentries : Template.entries v = [.variable v])
    (ht : IsPlain t) {left : Nat} {r? : Option RuleId} {rest : List Candidate}
    (hoffer : (q.variableAsking v).given? (q.value? left) = some (⟨t, r?⟩ :: rest)) :
    q.value? (left + 1) (Piece.slot v).text = some (some t) := by
  have hfirst : Template.firstContainer? (Piece.slot v).text = some ⟨[], v, []⟩ := by
    have hslot := Template.firstContainer?_slot Template.isPlain_nil hv.isBody []
    rwa [List.nil_append, List.append_nil] at hslot
  have hopen : ¬ Template.isFinal (Piece.slot v).text = true := by
    intro hfinal
    have hmem := Template.mem_containers_of_first hfirst
    rw [(Template.isFinal_iff _).1 hfinal] at hmem
    cases hmem
  have hcovers : ¬ (Progress.start (Piece.slot v).text).settled.covers
      (⟨[], v, []⟩ : Template.Container).remainder 0 (left + 1) = true := by
    simp [Progress.start, Settled.covers]
  have hnew : t ∉ [(Piece.slot v).text] := fun hmem =>
    ne_slot_of_isPlain ht v (List.mem_singleton.1 hmem)
  obtain ⟨steps, hsteps⟩ := given?_stepsAsking hentries ht hoffer
  unfold value?
  rw [if_neg hopen, exploreAfresh_of_container (Nat.succ_pos left) hfirst hcovers,
    Nat.add_sub_cancel,
    hsteps, Option.bind_some, Progress.takeUp_of_final hnew (Template.isFinal_of_isPlain ht)]

end Query

/-! ## The value of a switch -/

section

variable {s : RuleStore} {i₁ i₂ : RuleId} {owner₁ owner₂ : Owner}
  (h : AreSwitchTexts names v alternatives) (hs : s.Indexed)
  (hrules : ∀ r, r ∈ s.rules ↔ r = .ofRecord i₁ (.switchOver v names alternatives owner₁) ∨
    r = .ofRecord i₂ (.giving v t owner₂))

include h hs hrules

/-- The name at a place selects the switch, with this place. -/
theorem select_name (hi : i < names.length) :
    select s {} names[i].trim = [⟨.ofRecord i₁ (.switchOver v names alternatives owner₁), i⟩] := by
  have hplace : (names.map Text.trim)[i]? = some names[i].trim := by
    rw [List.getElem?_map, List.getElem?_eq_getElem hi, Option.map_some]
  have hmem := List.mem_of_getElem? hplace
  rw [← h.alternatives_switchOver] at hplace
  refine select_of_declaring_alone hs ((hrules _).2 (.inl rfl)) (.inr (.inr rfl)) rfl hplace ?_
  intro x hx hdeclares
  rcases (hrules x).1 hx with rfl | rfl
  · rfl
  · -- the other rule is for the variable, which is none of the names
    have hv : names[i].trim ∈ [v] := by
      rwa [← h.alternatives_giving]
    exact absurd (List.mem_singleton.1 hv ▸ hmem) h.not_mem

/-- The variable selects the rule that gives it its text. -/
theorem select_variable :
    select s {} v = [⟨.ofRecord i₂ (.giving v t owner₂), 0⟩] := by
  have hplace : (RuleBody.ofRecord (.giving v t owner₂)).pattern.alternatives[0]? = some v := by
    rw [h.alternatives_giving]
    rfl
  refine select_of_declaring_alone hs ((hrules _).2 (.inr rfl)) (.inl rfl) rfl hplace ?_
  intro x hx hdeclares
  rcases (hrules x).1 hx with rfl | rfl
  · have hv : v ∈ names.map Text.trim := by
      rwa [← h.alternatives_switchOver]
    exact absurd hv h.not_mem
  · rfl

/-- The value of the switch compares the text of the variable with the alternative at the place,
where blank alternatives take no place. -/
theorem switchValue_nonblank (ht : IsPlain t) (hne : t ≠ v) {q : Query} (hstore : q.store = s)
    (hctx : q.ctx = {}) (htop : t ≠ q.top) {left : Nat} (hleft : 0 < left) {cache : Cache}
    (hcache : q.CacheTrue [] cache) (i : Nat) :
    (Query.switchValue (q.resolveNested left)
      ⟨.ofRecord i₁ (.switchOver v names alternatives owner₁), i⟩ cache).1 =
        some (if (nonblank alternatives)[i]? = some t then ['1'] else ['0']) := by
  have hselect : select q.store q.ctx v = [⟨.ofRecord i₂ (.giving v t owner₂), 0⟩] := by
    rw [hstore, hctx, select_variable h hs hrules]
  obtain ⟨rest, hoffer⟩ := Query.given?_variableAsking hselect rfl rfl hne htop (q.value? 0)
  have hvalue := Query.value?_slot h.isPlain h.isWritten.entries_eq ht hoffer
  obtain ⟨k, rfl⟩ := Nat.exists_eq_add_of_le hleft
  have hnested := (Query.resolveNested_of_cacheTrue hvalue k hcache).1
  have hparts : Query.switchParts?
      (Rule.ofRecord i₁ (.switchOver v names alternatives owner₁)).body.value =
        some ((Piece.slot v).text, nonblank alternatives) := h.switchParts?_switchOver owner₁
  unfold Query.switchValue
  rw [hparts]
  dsimp only
  rcases hresult : q.resolveNested (0 + 1 + k) (Piece.slot v).text cache with ⟨result, cache'⟩
  rw [hresult] at hnested
  cases hnested
  rfl

end

/-- In a store with a switch and a rule that gives its variable a text, the name at each place
selects the switch. The value tells whether the text is the alternative that comes at this place
among those that are not blank. If there is no blank one up to the place, this is the alternative
that was written for the name. -/
theorem switchValue_at_place (h : AreSwitchTexts names v alternatives) (ht : IsPlain t)
    (hne : t ≠ v) (s : RuleStore) (hs : s.Reachable) (i₁ i₂ : RuleId) (owner₁ owner₂ : Owner)
    (hrules : ∀ r, r ∈ s.rules ↔ r = .ofRecord i₁ (.switchOver v names alternatives owner₁) ∨
      r = .ofRecord i₂ (.giving v t owner₂))
    (env : Environment) (top : Text) (htop : t ≠ top) (i : Nat) (hi : i < names.length) :
    let q : Query := ⟨s, env, {}, top⟩
    let m : Selected := ⟨.ofRecord i₁ (.switchOver v names alternatives owner₁), i⟩
    select s {} names[i].trim = [m] ∧
      ∀ left, 0 < left → ∀ cache, q.CacheTrue [] cache →
        let value := (Query.switchValue (q.resolveNested left) m cache).1
        value = some (if (nonblank alternatives)[i]? = some t then ['1'] else ['0']) ∧
          ((∀ a ∈ alternatives.take (i + 1), a.trim ≠ []) →
            value = some (if alternatives[i]?.map Text.trim = some t then ['1'] else ['0'])) := by
  intro q m
  refine ⟨select_name h hs.indexed hrules hi, fun left hleft cache hcache => ?_⟩
  have hvalue :=
    switchValue_nonblank h hs.indexed hrules ht hne (q := q) rfl rfl htop hleft hcache i
  refine ⟨hvalue, fun hnonblank => ?_⟩
  rwa [Template.getElem?_nonblank hnonblank] at hvalue

/-- A switch over the marital status of a person. -/
def statusBoxes : Record :=
  .switchOver "status".toList ["box.single".toList, "box.married".toList]
    ["single".toList, "married ".toList] .default

/-- The switch and the status, which is data of the document. -/
def filledStatus : RuleStore :=
  (RuleStore.ofRecords [statusBoxes, .giving "status".toList "married".toList .case]).1

/-- The second name selects the switch with the second alternative, which is the status. -/
theorem switchValue_at_place_filledStatus :
    let q : Query := ⟨filledStatus, .empty, {}, "$\x7bbox.married\x7d$".toList⟩
    let m : Selected := ⟨.ofRecord (.ordinary 1) statusBoxes, 1⟩
    filledStatus.Reachable ∧ select filledStatus {} "box.married".toList = [m] ∧
      (Query.switchValue (q.resolveNested 99) m []).1 = some ['1'] := by
  intro q m
  have hrules : filledStatus.rules = [.ofRecord (.ordinary 1) statusBoxes,
      .ofRecord (.ordinary 2) (.giving "status".toList "married".toList .case)] := by cbv
  have htexts : AreSwitchTexts ["box.single".toList, "box.married".toList] "status".toList
      ["single".toList, "married ".toList] := by decide +kernel
  have hreachable : filledStatus.Reachable := .ofRecords _
  obtain ⟨hselect, hvalue⟩ := switchValue_at_place (t := "married".toList) htexts (by decide)
      (by decide)
    filledStatus hreachable (.ordinary 1) (.ordinary 2) .default .case
    (fun r => by rw [hrules]; simp [statusBoxes]) .empty q.top (by decide) 1 (by decide)
  refine ⟨hreachable, hselect, ?_⟩
  exact (hvalue 99 (by decide) [] .nil).2 (by decide +kernel)

/-- A switch whose first alternative is blank. -/
def blankAlternative : Record :=
  .switchOver ['v'] ["p1".toList, "p2".toList] [[], ['x']] .default

/-- The second alternative is the text of the variable, but the value of the switch for the second
name says that it is not: behind the blank alternative it is the first one. -/
theorem switchValue_blankAlternative :
    AreSwitchTexts ["p1".toList, "p2".toList] ['v'] [[], ['x']] ∧
      blankAlternative.value = .literal "v = , x".toList ∧
      let s := (RuleStore.ofRecords [blankAlternative, .giving ['v'] ['x'] .default]).1
      (select s {} "p2".toList).map (fun m => (m.rule.id, m.alternative)) = [(.ordinary 1, 1)] ∧
      (Engine.mk s .empty).candidatesFor {} "p2".toList = [['0']] ∧
      (Engine.mk s .empty).candidatesFor {} "p1".toList = [['1']] := by
  exact ⟨by decide +kernel, rfl, by cbv, by cbv, by cbv⟩

end Fillout
