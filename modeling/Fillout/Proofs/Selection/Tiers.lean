import Fillout.Proofs.Selection.Basic
import Fillout.Proofs.Store.Reachable
import Mathlib

set_option autoImplicit false

/-! # The tiers of the selected rules

`select` asks the index for the rules that declare a name, and scans the rules in the order of
priority if there are none. `rulesInTiers` says which rules are selected, and in which order, in
terms of the list of rules alone: it filters the list and puts the parts one behind the other. For
reachable stores the two are the same (`select_eq_rulesInTiers`), so the views of a store never add,
lose, repeat or move a rule.

The header tier looks at the rules that declare the name. A header's rule that declares it leaves no
other rule a say (`select_of_declaring_header`). A header's rule that matches the name in another
way does (`select_letterheads`): the index has nothing of it, and the scan does not prefer it.
-/

namespace Fillout

/-! ## The first alternative that matches -/

namespace Rule

variable {r : Rule} {findRule : RuleKind → Text → Option Text} {key : Text} {i : Nat}

/-- Whether some alternative matches the name `key`. -/
def matchesName (r : Rule) (findRule : RuleKind → Text → Option Text) (key : Text) : Bool :=
  r.body.pattern.alternatives.zipIdx.any fun x => r.alternativeMatches findRule key x.2 x.1

/-- The alternative at place `i` matches the name `key`, and none before it does. -/
def IsFirstMatch (r : Rule) (findRule : RuleKind → Text → Option Text) (key : Text) (i : Nat) :
    Prop :=
  (∃ a, r.body.pattern.alternatives[i]? = some a ∧ r.alternativeMatches findRule key i a) ∧
    ∀ j < i, ∀ a, r.body.pattern.alternatives[j]? = some a →
      ¬ r.alternativeMatches findRule key j a

theorem firstMatchFrom_eq (r : Rule) (findRule : RuleKind → Text → Option Text) (key : Text)
    (i : Nat) (alternatives : List Text) :
    r.firstMatchFrom findRule key i alternatives =
      ((alternatives.zipIdx i).find? fun x => r.alternativeMatches findRule key x.2 x.1).map
        Prod.snd := by
  induction alternatives generalizing i with
  | nil => rfl
  | cons a rest ih =>
      rw [firstMatchFrom, List.zipIdx_cons]
      by_cases ha : r.alternativeMatches findRule key i a
      · rw [if_pos ha, List.find?_cons, ha]
        rfl
      · rw [if_neg ha, List.find?_cons, eq_false_of_ne_true ha]
        exact ih (i + 1)

theorem isSome_matchingAlternative? (r : Rule) (findRule : RuleKind → Text → Option Text)
    (key : Text) :
    (r.matchingAlternative? findRule key).isSome = r.matchesName findRule key := by
  unfold matchingAlternative? matchesName
  rw [firstMatchFrom_eq, Option.isSome_map, List.isSome_find?]

theorem isFirstMatch_of_matchingAlternative? (h : r.matchingAlternative? findRule key = some i) :
    r.IsFirstMatch findRule key i := by
  unfold matchingAlternative? at h
  rw [firstMatchFrom_eq, Option.map_eq_some_iff] at h
  obtain ⟨⟨a, k⟩, hfind, rfl⟩ := h
  obtain ⟨hmatch, n, hn, he, hbefore⟩ := List.find?_eq_some_iff_getElem.1 hfind
  rw [List.getElem_zipIdx, Nat.zero_add] at he
  cases he
  rw [List.length_zipIdx] at hn
  refine ⟨⟨_, List.getElem?_eq_getElem hn, hmatch⟩, fun j hj b hb => ?_⟩
  have hnot := hbefore j hj
  rw [List.getElem_zipIdx, Nat.zero_add] at hnot
  rw [List.getElem?_eq_getElem (by omega)] at hb
  cases hb
  simpa using hnot

/-- Rules of these kinds match by the alternative that is the name, and no alternative comes
twice. -/
theorem matchingAlternative?_of_getElem?
    (hkind : r.body.kind = .equal ∨ r.body.kind = .date ∨ r.body.kind = .switch)
    (hnodup : r.body.pattern.alternatives.Nodup) (hi : r.body.pattern.alternatives[i]? = some key) :
    r.matchingAlternative? findRule key = some i := by
  have hmatches : ∀ j a, r.alternativeMatches findRule key j a = true ↔ a = key := by
    intro j a
    unfold alternativeMatches
    rcases hkind with hk | hk | hk <;> rw [hk] <;> exact beq_iff_eq
  have hsome : r.matchesName findRule key = true :=
    List.any_eq_true.2 ⟨(key, i), List.mem_zipIdx_iff_getElem?.2 hi, (hmatches i key).2 rfl⟩
  rw [← isSome_matchingAlternative?] at hsome
  obtain ⟨j, hj⟩ := Option.isSome_iff_exists.1 hsome
  obtain ⟨⟨a, ha, hmatch⟩, -⟩ := isFirstMatch_of_matchingAlternative? hj
  rw [(hmatches j a).1 hmatch] at ha
  rw [hj, (List.getElem?_inj (List.getElem?_eq_some_iff.1 ha).1 hnodup).1 (ha.trans hi.symm)]

end Rule

/-! ## Selecting from a list of rules -/

/-- The literal value that `findRule` gives for a list of rules in the order of their
identifiers. -/
def literalIn? (rules : List Rule) (kind : RuleKind) (alternative : Text) : Option Text :=
  ((preferring Rule.isCase rules).find? fun r =>
    r.body.kind = kind && r.body.pattern.contains alternative).bind fun r => r.body.value.literal?

/-- The rules of a list that may be used in a context and match `key`. -/
def usableRules (rules : List Rule) (ctx : Context) (key : Text) : List Rule :=
  rules.filter fun r => r.applies ctx && r.matchesName (literalIn? rules) key

/-- The rules of a list that offer a value for `key`, in order. -/
def rulesInTiers (rules : List Rule) (ctx : Context) (key : Text) : List Rule :=
  let usable := usableRules rules ctx key
  let declaring := usable.filter fun r => r.body.pattern.contains key
  let headers := declaring.filter fun r => r.body.owner = .header && r.body.subject.isSome
  let restricted := declaring.filter fun r => r.body.scope.isSome
  if headers ≠ [] then headers
  else if restricted ≠ [] then preferring Rule.isCase restricted
  else if declaring ≠ [] then
    declaring.filter (fun r => r.body.subject.isSome) ++
      preferring Rule.isCase (declaring.filter fun r => r.body.subject.isNone)
  else preferring Rule.isCase (usable.filter fun r => r.body.kind ≠ .equal)

variable {s : RuleStore} {ctx : Context} {key : Text}

theorem RuleStore.Indexed.findLiteral?_eq (h : s.Indexed) :
    s.findLiteral? = literalIn? s.rules := by
  funext kind alternative
  unfold findLiteral? findRule?
  rw [h.inPriorityOrder_eq]
  rfl

theorem map_rule_matchingRules (store : RuleStore) (ctx : Context) (key : Text)
    (rules : List Rule) : (matchingRules store ctx key rules).map Selected.rule =
      rules.filter fun r => r.applies ctx && r.matchesName store.findLiteral? key := by
  unfold matchingRules
  induction rules with
  | nil => rfl
  | cons r rules ih =>
      rw [List.filterMap_cons, List.filter_cons, ← r.isSome_matchingAlternative?]
      by_cases ha : r.applies ctx
      · cases hm : r.matchingAlternative? store.findLiteral? key with
        | none => simpa [ha, hm] using ih
        | some i => simpa [ha, hm] using ih
      · simpa [ha] using ih

/-- The alternative of a rule among those that match is the first one that does. -/
theorem isFirstMatch_of_mem_matchingRules {store : RuleStore} {rules : List Rule} {m : Selected}
    (h : m ∈ matchingRules store ctx key rules) :
    m.rule.IsFirstMatch store.findLiteral? key m.alternative := by
  obtain ⟨r, -, hm⟩ := List.mem_filterMap.1 h
  split at hm
  · obtain ⟨i, hi, rfl⟩ := Option.map_eq_some_iff.1 hm
    exact Rule.isFirstMatch_of_matchingAlternative? hi
  · cases hm

/-- The rules among those selected for which a property holds. -/
theorem map_rule_filter (p : Rule → Bool) (hits : List Selected) :
    (hits.filter fun m => p m.rule).map Selected.rule = (hits.map Selected.rule).filter p := by
  rw [List.filter_map]
  rfl

theorem map_rule_preferring (p : Rule → Bool) (hits : List Selected) :
    (preferring (fun m => p m.rule) hits).map Selected.rule =
      preferring p (hits.map Selected.rule) := by
  unfold preferring
  rw [List.map_append, map_rule_filter, map_rule_filter fun r => !p r]

/-- The tiers of the rules that declare the name, in terms of the rules alone. -/
theorem map_rule_inTiers (hits : List Selected) :
    (inTiers hits).map Selected.rule =
      let declaring := hits.map Selected.rule
      let headers := declaring.filter fun r => r.body.owner = .header && r.body.subject.isSome
      let restricted := declaring.filter fun r => r.body.scope.isSome
      if headers ≠ [] then headers
      else if restricted ≠ [] then preferring Rule.isCase restricted
      else declaring.filter (fun r => r.body.subject.isSome) ++
        preferring Rule.isCase (declaring.filter fun r => r.body.subject.isNone) := by
  have hany : ∀ p : Rule → Bool, hits.any (fun m => p m.rule) = true ↔
      (hits.map Selected.rule).filter p ≠ [] := by
    intro p
    simp [List.filter_eq_nil_iff]
  have hheader := hany fun r => r.body.owner = .header && r.body.subject.isSome
  have hscope := hany fun r => r.body.scope.isSome
  unfold inTiers
  dsimp only
  by_cases hh : hits.any Selected.isHeader
  · rw [if_pos hh, if_pos (hheader.1 hh)]
    exact map_rule_filter (fun r => r.body.owner = .header && r.body.subject.isSome) hits
  · rw [if_neg hh, if_neg (mt hheader.2 hh)]
    by_cases hr : hits.any Selected.hasScope
    · rw [if_pos hr, if_pos (hscope.1 hr), ← map_rule_filter]
      exact map_rule_preferring Rule.isCase _
    · have hrest : (hits.filter fun m => !m.isPersonal) =
          hits.filter fun m => m.rule.body.subject.isNone :=
        List.filter_congr fun m _ => Option.not_isSome _
      rw [if_neg hr, if_neg (mt hscope.2 hr), List.map_append, hrest, ← map_rule_filter,
        ← map_rule_filter, ← map_rule_preferring]
      rfl

/-- Which rules are selected, and in which order, can be said of the list of rules alone. -/
theorem map_rule_select (h : s.Indexed) (ctx : Context) (key : Text) :
    (select s ctx key).map Selected.rule = rulesInTiers s.rules ctx key := by
  have hdeclaring : (matchingRules s ctx key (s.byPattern key)).map Selected.rule =
      (usableRules s.rules ctx key).filter fun r => r.body.pattern.contains key := by
    rw [map_rule_matchingRules, h.byPattern_eq, h.findLiteral?_eq, usableRules, List.filter_filter,
      List.filter_filter]
    exact List.filter_congr fun r _ => Bool.and_comm _ _
  have hnil : (matchingRules s ctx key (s.byPattern key)).isEmpty = true ↔
      (usableRules s.rules ctx key).filter (fun r => r.body.pattern.contains key) = [] := by
    rw [← hdeclaring, List.isEmpty_iff, List.map_eq_nil_iff]
  unfold select rulesInTiers
  dsimp only
  by_cases hn : (matchingRules s ctx key (s.byPattern key)).isEmpty = true
  · -- No usable rule declares the name, so all others are gone through.
    rw [if_pos hn, hnil.1 hn, map_rule_matchingRules, h.inPriorityOrder_eq, h.findLiteral?_eq]
    simp only [List.filter_nil, ne_eq, not_true_eq_false, if_false]
    unfold usableRules preferring priorityOrder
    simp only [List.filter_append, List.filter_filter]
    congr 1 <;> exact List.filter_congr fun r _ => by ac_rfl
  · rw [if_neg hn, map_rule_inTiers, hdeclaring]
    dsimp only
    rw [if_pos (mt hnil.2 hn)]

theorem inTiers_singleton (m : Selected) : inTiers [m] = [m] := by
  unfold inTiers preferring
  cases hh : m.isHeader <;> cases hs : m.hasScope <;> cases hp : m.isPersonal <;>
    cases hc : m.isCase <;>
    simp [hh, hs, hp, hc]

/-- A rule that is the only one to declare a name is selected alone, with the place of the name. -/
theorem select_of_declaring_alone (h : s.Indexed) {r : Rule} (hr : r ∈ s.rules)
    (hkind : r.body.kind = .equal ∨ r.body.kind = .date ∨ r.body.kind = .switch)
    (happlies : r.applies ctx) {i : Nat} (hi : r.body.pattern.alternatives[i]? = some key)
    (halone : ∀ x ∈ s.rules, key ∈ x.body.pattern.alternatives → x = r) :
    select s ctx key = [⟨r, i⟩] := by
  have hby : s.byPattern key = [r] := by
    have hnodup : s.rules.Nodup :=
      h.ascending.imp fun hlt he => RuleId.ne_of_before hlt (congrArg Rule.id he)
    rw [h.byPattern_eq, ← List.perm_singleton,
      List.perm_ext_iff_of_nodup (hnodup.filter _) (List.nodup_singleton r)]
    intro x
    rw [List.mem_filter, List.mem_singleton, RulePattern.contains, List.contains_iff_mem]
    refine ⟨fun hx => halone x hx.1 hx.2, ?_⟩
    rintro rfl
    exact ⟨hr, List.mem_of_getElem? hi⟩
  have hhits : matchingRules s ctx key (s.byPattern key) = [⟨r, i⟩] := by
    rw [hby, matchingRules, List.filterMap_cons, if_pos happlies,
      Rule.matchingAlternative?_of_getElem? hkind (h.alternatives r hr) hi]
    rfl
  unfold select
  rw [hhits]
  exact inTiers_singleton ⟨r, i⟩

/-! ## Each rule once -/

theorem preferring_perm {α : Type} (p : α → Bool) (xs : List α) : (preferring p xs).Perm xs :=
  List.filter_append_perm p xs

/-- The rules that offer a value are some of the rules of the list, in another order. -/
theorem exists_sublist_perm_rulesInTiers (rules : List Rule) (ctx : Context) (key : Text) :
    ∃ part, part.Sublist rules ∧ (rulesInTiers rules ctx key).Perm part := by
  have husable : (usableRules rules ctx key).Sublist rules := List.filter_sublist
  have hdeclaring := (List.filter_sublist (p := fun r => r.body.pattern.contains key)).trans husable
  unfold rulesInTiers
  dsimp only
  split
  · exact ⟨_, List.filter_sublist.trans hdeclaring, .refl _⟩
  split
  · exact ⟨_, List.filter_sublist.trans hdeclaring, preferring_perm _ _⟩
  split
  · refine ⟨_, hdeclaring, ?_⟩
    have hrest : ∀ r : Rule, r.body.subject.isNone = !r.body.subject.isSome :=
      fun r => (Option.not_isSome _).symm
    simp only [hrest]
    exact ((preferring_perm _ _).append_left _).trans (List.filter_append_perm _ _)
  · exact ⟨_, List.filter_sublist.trans husable, preferring_perm _ _⟩

/-- Rules of a store have different identifiers. -/
theorem RuleStore.Indexed.nodup_ids (h : s.Indexed) : (s.rules.map Rule.id).Nodup := by
  exact List.pairwise_map.2 (h.ascending.imp fun hlt => RuleId.ne_of_before hlt)

theorem nodup_ids_select (h : s.Indexed) (ctx : Context) (key : Text) :
    ((select s ctx key).map fun m => m.rule.id).Nodup := by
  obtain ⟨part, hpart, hperm⟩ := exists_sublist_perm_rulesInTiers s.rules ctx key
  have hids : (select s ctx key).map (fun m => m.rule.id) =
      (rulesInTiers s.rules ctx key).map Rule.id := by
    rw [← map_rule_select h, List.map_map]
    rfl
  rw [hids, (hperm.map Rule.id).nodup_iff]
  exact h.nodup_ids.sublist (hpart.map Rule.id)

/-- What is selected matches by its first alternative that does. -/
theorem isFirstMatch_of_mem_select (h : s.Indexed) {m : Selected} (hm : m ∈ select s ctx key) :
    m.rule.IsFirstMatch (literalIn? s.rules) key m.alternative := by
  rw [← h.findLiteral?_eq]
  unfold select at hm
  dsimp only at hm
  split at hm
  · exact isFirstMatch_of_mem_matchingRules hm
  · exact isFirstMatch_of_mem_matchingRules (mem_of_mem_inTiers hm)

/-! ## Selection -/

/-- In a reachable store the rules that are selected for a name are those that the tiers pick from
the list of rules, which is in the order of the identifiers. No rule is selected twice, and each
comes with the first of its alternatives that matches. -/
theorem select_eq_rulesInTiers (s : RuleStore) (h : s.Reachable) (ctx : Context) (key : Text) :
    (select s ctx key).map Selected.rule = rulesInTiers s.rules ctx key ∧
      (s.rules.Pairwise fun a b => a.id.before b.id) ∧
      ((select s ctx key).map fun m => m.rule.id).Nodup ∧
      ∀ m ∈ select s ctx key, m.rule.IsFirstMatch (literalIn? s.rules) key m.alternative :=
  have hindexed := h.indexed
  ⟨map_rule_select hindexed ctx key, hindexed.ascending, nodup_ids_select hindexed ctx key,
    fun _ hm => isFirstMatch_of_mem_select hindexed hm⟩

/-- A header's address, under two names. -/
def headerAddress : Record :=
  { kind := .equal, pattern := "addr, po".toList, value := .literal "header".toList,
    owner := .header, subject := some "bob".toList }

/-- Addresses of the case, of two persons and of everyone, and a rule for all names with a dot. -/
def addresses : RuleStore :=
  (RuleStore.ofRecords
    [{ kind := .equal, pattern := "home, addr".toList, value := .literal "general".toList },
     { kind := .equal, pattern := "addr".toList, value := .literal "case".toList, owner := .case },
     { kind := .equal, pattern := "addr".toList, value := .literal "personal".toList,
       owner := .person, subject := some "ada".toList },
     headerAddress,
     { kind := .substring, pattern := ".".toList, value := .literal "dot".toList }]).1

/-- For one subject the name has all tiers but that of the header, and for another one this tier
alone; a name that no rule declares is scanned for. -/
theorem select_eq_rulesInTiers_addresses :
    addresses.Reachable ∧
      ((select addresses { subject := some "ada".toList } "addr".toList).map Selected.rule =
        rulesInTiers addresses.rules { subject := some "ada".toList } "addr".toList) ∧
      ((select addresses { subject := some "ada".toList } "addr".toList).map
        fun m => (m.rule.id, m.alternative)) =
          [(.ordinary 3, 0), (.ordinary 2, 0), (.ordinary 1, 1)] ∧
      ((select addresses { subject := some "bob".toList } "addr".toList).map fun m => m.rule.id) =
        [.ordinary 4] ∧
      ((select addresses {} "old.addr".toList).map fun m => m.rule.id) = [.ordinary 5] := by
  have h : addresses.Reachable := .ofRecords _
  exact ⟨h, (select_eq_rulesInTiers addresses h _ _).1, by cbv, by cbv, by cbv⟩

/-! ## Rules of a header -/

/-- If a header's rule of the active subject may be used, declares the name and matches it, it is
selected, and all rules that are selected are rules of a header for the active subject. -/
theorem select_of_declaring_header (s : RuleStore) (h : s.Reachable) (ctx : Context) (key : Text)
    {r : Rule} (hr : r ∈ s.rules) (howner : r.body.owner = .header)
    (hsubject : r.body.subject.isSome ∧ r.body.subject = ctx.subject) (happlies : r.applies ctx)
    (hmatch : (r.matchingAlternative? s.findLiteral? key).isSome)
    (hdeclares : key ∈ r.body.pattern.alternatives) :
    r ∈ (select s ctx key).map Selected.rule ∧
      ∀ m ∈ select s ctx key, m.rule.body.owner = .header ∧ m.rule.body.subject = ctx.subject := by
  have hindexed := h.indexed
  rw [r.isSome_matchingAlternative?, hindexed.findLiteral?_eq] at hmatch
  have hheader : r ∈ ((usableRules s.rules ctx key).filter fun r =>
      r.body.pattern.contains key).filter fun r =>
        r.body.owner = .header && r.body.subject.isSome := by
    simp [usableRules, RulePattern.contains, hr, howner, hsubject.1, happlies, hmatch, hdeclares]
  have hselect := map_rule_select hindexed ctx key
  unfold rulesInTiers at hselect
  dsimp only at hselect
  rw [if_pos (List.ne_nil_of_mem hheader)] at hselect
  refine ⟨by rw [hselect]; exact hheader, fun m hm => ?_⟩
  have hrule : m.rule ∈ (select s ctx key).map Selected.rule := List.mem_map_of_mem hm
  rw [hselect] at hrule
  simp only [usableRules, List.mem_filter, Bool.and_eq_true, decide_eq_true_eq] at hrule
  obtain ⟨⟨⟨-, hused, -⟩, -⟩, hown, hsome⟩ := hrule
  -- A rule with a subject may be used for this subject only.
  obtain ⟨name, hname⟩ := Option.isSome_iff_exists.1 hsome
  have hactive := (Bool.and_eq_true_iff.1 hused).2
  unfold Rule.subjectMatches at hactive
  rw [hname] at hactive ⊢
  exact ⟨hown, (eq_of_beq hactive).symm⟩

/-- For the second subject the name has a rule of a header, which is selected alone. -/
theorem select_of_declaring_header_addresses :
    addresses.Reachable ∧
      ∃ r ∈ addresses.rules, r.body.owner = .header ∧
        (r.body.subject.isSome ∧ r.body.subject = some "bob".toList) ∧
        r.applies { subject := some "bob".toList } ∧
        (r.matchingAlternative? addresses.findLiteral? "addr".toList).isSome ∧
        "addr".toList ∈ r.body.pattern.alternatives ∧
        r ∈ (select addresses { subject := some "bob".toList } "addr".toList).map Selected.rule ∧
        ∀ m ∈ select addresses { subject := some "bob".toList } "addr".toList,
          m.rule.body.owner = .header ∧ m.rule.body.subject = some "bob".toList := by
  have h : addresses.Reachable := .ofRecords _
  have hr : Rule.ofRecord (.ordinary 4) headerAddress ∈ addresses.rules :=
    List.mem_of_getElem? (show addresses.rules[3]? = _ by cbv)
  have hmatch : ((Rule.ofRecord (.ordinary 4) headerAddress).matchingAlternative?
      addresses.findLiteral? "addr".toList).isSome := by cbv
  have hdeclares : "addr".toList ∈
      (Rule.ofRecord (.ordinary 4) headerAddress).body.pattern.alternatives := by decide
  refine ⟨h, _, hr, rfl, ⟨rfl, rfl⟩, rfl, hmatch, hdeclares, ?_⟩
  exact select_of_declaring_header addresses h { subject := some "bob".toList } _ hr rfl ⟨rfl, rfl⟩
    rfl hmatch hdeclares

/-- A header's value for all names with a dot. -/
def letterhead : Record :=
  { kind := .substring, pattern := ['.'], value := .literal "header".toList, owner := .header,
    subject := some "ada".toList }

/-- A header's rule between rules for everyone: one for all names with `street` in them and one for
a single name. -/
def letterheads : RuleStore :=
  (RuleStore.ofRecords
    [{ kind := .substring, pattern := "street".toList, value := .literal "general".toList },
      letterhead,
     { kind := .equal, pattern := "home.street".toList, value := .literal "exact".toList }]).1

/-- The header's rule matches two names that it does not declare. For one of them a rule for
everyone is selected before it, and for the other one, which another rule declares, it is not
selected. -/
theorem select_letterheads :
    letterheads.Reachable ∧
      (∃ r ∈ letterheads.rules, r.body.owner = .header ∧ r.body.subject = some "ada".toList ∧
        r.applies { subject := some "ada".toList } ∧
        (r.matchingAlternative? letterheads.findLiteral? "work.street".toList).isSome ∧
        (r.matchingAlternative? letterheads.findLiteral? "home.street".toList).isSome) ∧
      ((select letterheads { subject := some "ada".toList } "work.street".toList).map
        fun m => m.rule.body.owner) = [.default, .header] ∧
      ((select letterheads { subject := some "ada".toList } "home.street".toList).map
        fun m => m.rule.body.owner) = [.default] := by
  have hr : Rule.ofRecord (.ordinary 2) letterhead ∈ letterheads.rules :=
    List.mem_of_getElem? (show letterheads.rules[1]? = _ by cbv)
  exact ⟨.ofRecords _, ⟨_, hr, rfl, rfl, rfl, by cbv, by cbv⟩, by cbv, by cbv⟩

end Fillout
