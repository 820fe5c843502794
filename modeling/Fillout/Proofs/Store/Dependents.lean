import Fillout.Proofs.Search.Asking
import Fillout.Proofs.Store.Reachable
import Fillout.Proofs.Template.References

set_option autoImplicit false

/-! # Rules that depend on a variable

`dependingOn` finds the rules of a store whose value refers to a variable in one of its containers.
What a value is made of is decided elsewhere: the value of a date is resolved first, and a switch
resolves the text in front of the equals sign of its value. `Rule.LooksUp` says which variables this
comes to, and `Query.looksUp_of_asks` that these are all.

The variables of the containers of a value are found, and so are those of the text that a switch
compares if this text has containers, for they are containers of the value as well
(`slot_mem_pieces_append`). A switch may also name its variable without a container. Then there is
nothing to be found: `dependingOn` does not report it (`exists_lookedUp_not_mem_dependingOn`).
-/

namespace Fillout

open Template (HasVariable)

/-! ## What a rule looks up -/

/-- The variables that have to be known to make a value of a rule, by one level: those of the
containers of its literal value, and for a switch those of the text that it compares. -/
def Rule.LooksUp (r : Rule) (v : Text) : Prop :=
  (∃ t, r.body.value = .literal t ∧ HasVariable t v) ∨
    (r.body.kind = .switch ∧
      ∃ source alternatives, Query.switchParts? r.body.value = some (source, alternatives) ∧
        HasVariable source v)

/-- The rule is a switch that gives its variable by the bare name: in front of the equals sign its
value has no container. -/
def Rule.ComparesName (r : Rule) : Prop :=
  r.body.kind = .switch ∧ ∃ t left right, r.body.value = .literal t ∧
    Text.cut? ['='] t = some (left, right) ∧ Template.isFinal left.trim = true

/-- The computation may ask for a text. -/
inductive Asking.Asks {α : Type} (source : Text) : Asking α → Prop
  | now {next : Option Text → Asking α} : Asks source (.ask source next)
  | later {other : Text} {next : Option Text → Asking α} (result : Option Text)
      (h : Asks source (next result)) : Asks source (.ask other next)

/-- What the engine has resolved for a rule with a literal value, and what it makes the value of
without resolving, has only variables that the rule looks up. -/
theorem Query.looksUp_of_asks (q : Query) (m : Selected) {t v : Text}
    (ht : m.rule.body.value = .literal t) :
    (∀ source, (q.ruleAsking m).Asks source → HasVariable source v → m.rule.LooksUp v) ∧
      (∀ u, q.ruleAsking m = .done (some u) → HasVariable u v → m.rule.LooksUp v) := by
  have hplain : q.plainValue? m.rule = some t := by
    unfold plainValue?
    rw [ht]
  have hvalue : HasVariable t v → m.rule.LooksUp v := fun h => .inl ⟨t, ht, h⟩
  have hoffered : (q.ruleAsking m) = .done (q.plainValue? m.rule) →
      (∀ source, (q.ruleAsking m).Asks source → HasVariable source v → m.rule.LooksUp v) ∧
        (∀ u, q.ruleAsking m = .done (some u) → HasVariable u v → m.rule.LooksUp v) := by
    intro hdone
    rw [hdone, hplain]
    refine ⟨fun _ ha => (nomatch ha), ?_⟩
    rintro u ⟨⟩
    exact hvalue
  cases hkind : m.rule.body.kind with
  | date =>
      have hask : q.ruleAsking m =
          .ask t fun result => .done (result.map Calendar.reformatCompactDates) := by
        rw [ruleAsking, hkind]
        dsimp only
        rw [dateAsking, hplain]
      rw [hask]
      refine ⟨?_, fun _ ha => nomatch ha⟩
      rintro source (_ | ⟨_, ⟨⟩⟩)
      exact hvalue
  | switch =>
      have hask : q.ruleAsking m = switchAsking m := by
        rw [ruleAsking, hkind]
      rw [hask, switchAsking]
      cases hparts : switchParts? m.rule.body.value with
      | none => exact ⟨fun _ ha => (nomatch ha), fun _ ha => nomatch ha⟩
      | some parts =>
          obtain ⟨source, alternatives⟩ := parts
          refine ⟨?_, fun _ ha => nomatch ha⟩
          rintro _ (_ | ⟨_, ⟨⟩⟩) h
          exact .inr ⟨hkind, source, alternatives, hparts, h⟩
  | _ =>
      refine hoffered ?_
      rw [ruleAsking, hkind]

namespace RuleStore

variable {s : RuleStore} {r : Rule} {t : Text}

theorem mem_dependingOn {v : Text} (ht : r.body.value = .literal t) :
    r ∈ s.dependingOn v ↔ r ∈ s.rules ∧ Template.references t v = true := by
  rw [dependingOn, List.mem_filter, ht]
  rfl

/-- A rule of the store is found for each variable in a container of its literal value. It is found
for all other variables that it looks up as well, unless it compares a bare name; and if its value
has no container it is not found for any variable. -/
theorem mem_dependingOn_of_looksUp (hr : r ∈ s.rules) (ht : r.body.value = .literal t) :
    (∀ v, HasVariable t v → r ∈ s.dependingOn v) ∧
      (¬ r.ComparesName → ∀ v, r.LooksUp v → r ∈ s.dependingOn v) ∧
      (Template.isFinal t = true → ∀ v, r ∉ s.dependingOn v) := by
  have hvalue : ∀ v, HasVariable t v → r ∈ s.dependingOn v := fun v h =>
    (mem_dependingOn ht).2 ⟨hr, h.references⟩
  refine ⟨hvalue, fun hname v hlooks => ?_, fun hfinal v hdep => ?_⟩
  · rcases hlooks with ⟨u, hu, h⟩ | ⟨hswitch, source, alternatives, hparts, h⟩
    · rw [ht] at hu
      cases hu
      exact hvalue v h
    · rw [ht] at hparts
      obtain ⟨⟨left, right⟩, hcut, he⟩ := Option.map_eq_some_iff.1 hparts
      have hcontainers : ¬ Template.isFinal left.trim = true := fun hfinal =>
        hname ⟨hswitch, t, left, right, ht, hcut, hfinal⟩
      dsimp only at he
      rw [if_neg hcontainers] at he
      cases he
      have happend := h.of_trim (['='] ++ right)
      rw [← List.append_assoc, Text.append_of_cut? hcut] at happend
      exact hvalue v happend
  · have hrefers := ((mem_dependingOn ht).1 hdep).2
    rw [Template.references_of_isFinal hfinal] at hrefers
    cases hrefers

/-- A switch over the marital status of a person, which is given as a template. -/
def maritalStatus : Record :=
  { kind := .switch, pattern := "box.single, box.married".toList,
    value := .literal "$\x7bstatus, (or family)\x7d$ = single, married".toList }

/-- The same switch with the bare name of the status. -/
def maritalStatusByName : Record :=
  { maritalStatus with value := .literal "status = single, married".toList }

/-- A store with both switches. -/
def maritalBoxes : RuleStore := (RuleStore.ofRecords [maritalStatus, maritalStatusByName]).1

/-- The switch that gives its variable in a container is found for it. -/
theorem mem_dependingOn_of_looksUp_maritalStatus :
    let r := Rule.ofRecord (.ordinary 1) maritalStatus
    r ∈ maritalBoxes.rules ∧ ¬ r.ComparesName ∧ r.LooksUp "status".toList ∧
      r ∈ maritalBoxes.dependingOn "status".toList := by
  intro r
  have hr : r ∈ maritalBoxes.rules := List.mem_of_getElem? (show maritalBoxes.rules[0]? = _ by cbv)
  have hcut : Text.cut? ['='] "$\x7bstatus, (or family)\x7d$ = single, married".toList =
      some ("$\x7bstatus, (or family)\x7d$ ".toList, " single, married".toList) := by decide +kernel
  have hname : ¬ r.ComparesName := by
    rintro ⟨-, t, left, right, ht, he, hfinal⟩
    cases ht
    rw [hcut] at he
    cases he
    revert hfinal
    decide +kernel
  have hcontainer : HasVariable "$\x7bstatus, (or family)\x7d$ = single, married".toList
      "status".toList := by
    refine Template.hasVariable_iff.2 ⟨"status, (or family)".toList, ?_, ?_⟩ <;> decide +kernel
  have hlooks : r.LooksUp "status".toList := .inl ⟨_, rfl, hcontainer⟩
  exact ⟨hr, hname, hlooks, (mem_dependingOn_of_looksUp hr rfl).2.1 hname _ hlooks⟩

/-- The switch that compares the bare name looks its variable up and is not found. -/
theorem exists_lookedUp_not_mem_dependingOn :
    ¬ ∀ s : RuleStore, s.Reachable → ∀ r ∈ s.rules, ∀ t, r.body.value = .literal t →
      ∀ v, r.LooksUp v → r ∈ s.dependingOn v := by
  intro h
  have hr : Rule.ofRecord (.ordinary 2) maritalStatusByName ∈ maritalBoxes.rules :=
    List.mem_of_getElem? (show maritalBoxes.rules[1]? = _ by cbv)
  have hparts : Query.switchParts? (.literal "status = single, married".toList) =
      some ("$\x7bstatus\x7d$".toList, ["single".toList, "married".toList]) := by decide +kernel
  have hcontainer : HasVariable "$\x7bstatus\x7d$".toList "status".toList := by
    refine Template.hasVariable_iff.2 ⟨"status".toList, ?_, ?_⟩ <;> decide +kernel
  have hlooks : (Rule.ofRecord (.ordinary 2) maritalStatusByName).LooksUp "status".toList :=
    .inr ⟨rfl, _, _, hparts, hcontainer⟩
  have hmem := h maritalBoxes (.ofRecords _) _ hr _ rfl _ hlooks
  have hrefers := ((mem_dependingOn rfl).1 hmem).2
  revert hrefers
  decide +kernel

end RuleStore

end Fillout
