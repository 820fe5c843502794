import Fillout.Proofs.Json.RoundTrip
import Fillout.Record.Stream
import Fillout.Proofs.Store.Reachable

set_option autoImplicit false

/-! # Records that are written and read

A list of records is read back from the text that is written for it
(`Record.listOfText_listToText`). The fields of a record are written in the order of `Field.all`,
some of them left out; reading them fills a draft, field by field, with what the record says
(`Draft.put`), and the draft is finished to the record.

An owner is written as its tag, so only an owner that is given by a tag is read back
(`Owner.IsTagged`): a profile must not be named like an owner of another sort. Owners that are read
are always of this sort (`Record.isTagged_of_listOfText`).
-/

namespace Fillout

open Json (Reads EndsNumber isBlank stringText prettyAt newLine memberText moreLines)

/-- The owner is given by a tag. A profile that is named like an owner of another sort is not. -/
def Owner.IsTagged (o : Owner) : Prop := ∃ tag, o = .ofTag tag

theorem Owner.isTagged_ofTag (t : Text) : (Owner.ofTag t).IsTagged := ⟨t, rfl⟩

theorem Owner.isTagged_default : Owner.default.IsTagged := ⟨"default".toList, by decide⟩

theorem Owner.IsTagged.ofTag_tag {o : Owner} (h : o.IsTagged) : .ofTag o.tag = o := by
  obtain ⟨t, rfl⟩ := h
  rw [tag_ofTag]

namespace Record

/-! ## Fields -/

/-- What has been read is judged. -/
theorem reads_readJudged {α : Type} {judge : Json.Shape → Except Fault α} {text : Text}
    {shape : Json.Shape} {x : α} (h : Reads (δ := Fault) Json.readShape text shape)
    (hjudge : judge shape = .ok x) :
    Reads (readJudged judge) text x := by
  intro blanks rest hblanks hrest
  unfold readJudged
  rw [h blanks rest hblanks hrest]
  dsimp only [bind, Except.bind]
  rw [hjudge]
  rfl

theorem reads_readText (t : Text) : Reads readText (stringText t) t :=
  reads_readJudged (Json.readShape_string t) rfl

theorem reads_readKind (k : RuleKind) : Reads readKind (stringText k.name) k := by
  intro blanks rest hblanks _
  have hname : kindOfName k.name = .ok k := by
    unfold kindOfName
    rw [RuleKind.ofExactName?_name]
  unfold readKind stringText
  rw [List.cons_append, List.append_assoc, Json.skipBlanks_append hblanks rfl]
  simp only [if_true, List.singleton_append, Json.readString_escape, bind, Except.bind, hname]
  rfl

theorem reads_readRuleValue (depth : Nat) (v : RuleValue) :
    Reads readRuleValue (prettyAt depth (valueToJson v)) v := by
  have hread : Reads (δ := Fault) (Json.readValue valueDepth) (prettyAt depth (valueToJson v))
      (valueToJson v) := by
    cases v with
    | literal t => exact Json.readValue_string _ t
    | computed p => exact Json.readValue_object _ depth _ p
  have hjudge : judgeValue (valueToJson v) = .ok v := by
    cases v <;> rfl
  intro blanks rest hblanks hrest
  unfold readRuleValue
  rw [hread blanks rest hblanks hrest]
  dsimp only [bind, Except.bind]
  rw [hjudge]
  rfl

theorem reads_readScope (depth : Nat) (names : List Text) :
    Reads readScope (prettyAt depth (.array (names.map .string))) (some names) := by
  intro blanks rest hblanks _
  obtain ⟨t, ht, hlist⟩ := Json.readList_prettyAt .string depth
    (fun t (_ : t ∈ names) => reads_readText t) fun t _ => ⟨'"', _, rfl, rfl, by decide⟩
  unfold readScope
  rw [ht, List.cons_append, Json.readShape_bracket hblanks]
  dsimp only [bind, Except.bind]
  rw [hlist]

theorem reads_threshold (n : UInt64) :
    Reads (readJudged thresholdOfShape) (Text.ofNat n.toNat) (some n) := by
  have hlt := n.toNat_lt
  refine reads_readJudged (Json.readShape_natural (Nat.le_sub_one_of_lt hlt)) ?_
  refine (dif_pos hlt).trans ?_
  rw [UInt64.ofNatLT_toNat]

theorem reads_subject (t : Text) : Reads (readJudged optionalTextOfShape) (stringText t) (some t) :=
  reads_readJudged (Json.readShape_string t) rfl

/-- What is written for a field of a record, if something is. -/
def fieldJson? (r : Record) : Field → Option Json
  | .kind => some (.string r.kind.name)
  | .pattern => some (.string r.pattern)
  | .value => some (valueToJson r.value)
  | .scope => r.scope.map fun names => .array (names.map .string)
  | .threshold => r.threshold.map fun n => .number (.natural n.toNat)
  | .owner => some (.string r.owner.tag)
  | .subject => r.subject.map .string

/-- The fields that are written of a record, with what is written for them. -/
def fields (r : Record) : List (Field × Json) :=
  Field.all.filterMap fun f => (r.fieldJson? f).map fun v => (f, v)

theorem toJson_eq (r : Record) : r.toJson = .object (r.fields.map fun m => (m.1.name, m.2)) := by
  obtain ⟨kind, pattern, value, scope, threshold, owner, subject⟩ := r
  cases scope <;> cases threshold <;> cases subject <;> rfl

theorem mem_fields {r : Record} {m : Field × Json} (h : m ∈ r.fields) :
    r.fieldJson? m.1 = some m.2 := by
  obtain ⟨f, -, hf⟩ := List.mem_filterMap.1 h
  obtain ⟨v, hv, rfl⟩ := Option.map_eq_some_iff.1 hf
  exact hv

theorem nodup_fields (r : Record) : (r.fields.map Prod.fst).Nodup := by
  obtain ⟨kind, pattern, value, scope, threshold, owner, subject⟩ := r
  cases scope <;> cases threshold <;> cases subject <;>
    simp [fields, fieldJson?, Field.all]

/-- The draft with one more field, as the record has it. -/
def Draft.put (r : Record) (d : Draft) : Field → Draft
  | .kind => { d with kind := some r.kind }
  | .pattern => { d with pattern := some r.pattern }
  | .value => { d with value := some r.value }
  | .scope => { d with scope := some r.scope }
  | .threshold => { d with threshold := some r.threshold }
  | .owner => { d with owner := some r.owner }
  | .subject => { d with subject := some r.subject }

theorem Draft.has_put (r : Record) (d : Draft) (f g : Field) :
    (d.put r f).has g = (decide (g = f) || d.has g) := by
  cases f <;> cases g <;> rfl

/-- With all fields that are written the draft is complete: the others are as they are by
default. -/
theorem finish_put (r : Record) :
    ((r.fields.map Prod.fst).foldl (Draft.put r) {}).finish = .ok r := by
  obtain ⟨kind, pattern, value, scope, threshold, owner, subject⟩ := r
  cases scope <;> cases threshold <;> cases subject <;> rfl

theorem reads_map {α β : Type} {reader : Json.Reader Fault α} {text : Text} {x : α} (f : α → β)
    (h : Reads reader text x) :
    Reads (fun t => (reader t).map fun (x, t) => (f x, t)) text (f x) := by
  intro blanks rest hblanks hrest
  dsimp only
  rw [h blanks rest hblanks hrest]
  rfl

/-- Every field is read back. -/
theorem reads_field {r : Record} (howner : r.owner.IsTagged) {f : Field} {v : Json}
    (h : r.fieldJson? f = some v) (depth : Nat) (d : Draft) :
    Reads (d.read f) (prettyAt depth v) (d.put r f) := by
  cases f with
  | kind =>
      cases h
      exact reads_map (fun x => { d with kind := some x }) (reads_readKind r.kind)
  | pattern =>
      cases h
      exact reads_map (fun x => { d with pattern := some x }) (reads_readText r.pattern)
  | value =>
      cases h
      exact reads_map (fun x => { d with value := some x }) (reads_readRuleValue depth r.value)
  | scope =>
      obtain ⟨names, hnames, rfl⟩ := Option.map_eq_some_iff.1 h
      have hread := reads_map (fun x => { d with scope := some x }) (reads_readScope depth names)
      rw [← hnames] at hread
      exact hread
  | threshold =>
      obtain ⟨n, hn, rfl⟩ := Option.map_eq_some_iff.1 h
      have hread := reads_map (fun x => { d with threshold := some x }) (reads_threshold n)
      rw [← hn] at hread
      exact hread
  | owner =>
      cases h
      have hread :=
        reads_map (fun x => { d with owner := some (.ofTag x) }) (reads_readText r.owner.tag)
      rw [howner.ofTag_tag] at hread
      exact hread
  | subject =>
      obtain ⟨t, ht, rfl⟩ := Option.map_eq_some_iff.1 h
      have hread := reads_map (fun x => { d with subject := some x }) (reads_subject t)
      rw [← ht] at hread
      exact hread

/-! ## Members -/

theorem reads_readMember {r : Record} (howner : r.owner.IsTagged) {m : Field × Json}
    (hm : m ∈ r.fields) (depth : Nat) {d : Draft} (hnew : d.has m.1 = false) :
    Reads d.readMember (memberText depth (m.1.name, m.2)) (d.put r m.1) := by
  intro blanks rest hblanks hrest
  have htext : memberText depth (m.1.name, m.2) ++ rest =
      '"' :: (Json.escape m.1.name ++ '"' :: ':' :: ([' '] ++ (prettyAt depth m.2 ++ rest))) := by
    unfold memberText stringText
    simp
  have hread := reads_field howner (mem_fields hm) depth d [' '] rest
    (List.forall_mem_singleton.2 rfl) hrest
  unfold Draft.readMember
  rw [htext, Json.skipBlanks_append hblanks rfl]
  dsimp only
  rw [if_pos rfl, Json.readString_escape]
  dsimp only [bind, Except.bind]
  rw [Field.ofName?_name]
  dsimp only
  rw [hnew]
  unfold Json.expectMark
  rw [Json.skipBlanks_cons rfl]
  simp only [Bool.false_eq_true, if_false, if_true]
  exact hread

/-- Members are read up to the closing brace, each into the draft. -/
theorem readMembers_moreLines {r : Record} (howner : r.owner.IsTagged) {m : Field × Json}
    {ms : List (Field × Json)} (hms : ∀ m' ∈ m :: ms, m' ∈ r.fields)
    (hnodup : ((m :: ms).map Prod.fst).Nodup) {d : Draft}
    (hnew : ∀ m' ∈ m :: ms, d.has m'.1 = false) {fuel : Nat} (hfuel : ms.length < fuel)
    {blanks : Text} (hblanks : ∀ c ∈ blanks, isBlank c = true) (depth outer : Nat) (rest : Text) :
    Draft.readMembers fuel d (blanks ++ (memberText depth (m.1.name, m.2) ++
        (moreLines depth (ms.map fun m => memberText depth (m.1.name, m.2)) ++
          (newLine outer ++ '}' :: rest)))) =
      .ok (((m :: ms).map Prod.fst).foldl (Draft.put r) d, rest) := by
  induction ms generalizing m d fuel blanks with
  | nil =>
      obtain ⟨fuel, rfl⟩ := Nat.exists_eq_add_one_of_ne_zero (Nat.ne_of_gt hfuel)
      have hread := reads_readMember howner (hms m List.mem_cons_self) depth
        (hnew m List.mem_cons_self)
      rw [Draft.readMembers, hread blanks _ hblanks (Json.endsNumber_moreLines _ _ _ _)]
      dsimp only [bind, Except.bind]
      rw [List.map_nil, show moreLines depth [] = [] from rfl, List.nil_append,
        Json.skipBlanks_append Json.isBlank_of_mem_newLine rfl]
      rfl
  | cons next ms ih =>
      obtain ⟨fuel, rfl⟩ :=
        Nat.exists_eq_add_one_of_ne_zero (Nat.ne_of_gt (Nat.zero_lt_of_lt hfuel))
      obtain ⟨hm, hrest⟩ := List.forall_mem_cons.1 hms
      obtain ⟨hfresh, hnew⟩ := List.forall_mem_cons.1 hnew
      rw [List.map_cons, List.nodup_cons] at hnodup
      have hread := reads_readMember howner hm depth hfresh
      have hnew' : ∀ m' ∈ next :: ms, (d.put r m.1).has m'.1 = false := by
        intro m' hm'
        have hne : m'.1 ≠ m.1 := fun he => hnodup.1 (he ▸ List.mem_map_of_mem hm')
        rw [Draft.has_put, hnew m' hm', decide_eq_false hne]
        rfl
      rw [Draft.readMembers, hread blanks _ hblanks (Json.endsNumber_moreLines _ _ _ _)]
      dsimp only [bind, Except.bind]
      rw [List.map_cons, Json.moreLines_cons, List.cons_append, Json.skipBlanks_cons rfl]
      dsimp only
      rw [if_pos rfl, List.append_assoc, List.append_assoc,
        ih hrest hnodup.2 hnew' (Nat.lt_of_succ_lt_succ hfuel) Json.isBlank_of_mem_newLine]
      rfl

/-! ## Records -/

/-- What is written for a record. -/
theorem prettyAt_toJson (r : Record) (depth : Nat) : ∃ m ms, r.fields = m :: ms ∧
    prettyAt depth r.toJson =
      '{' :: (newLine (depth + 1) ++ (memberText (depth + 1) (m.1.name, m.2) ++
      (moreLines (depth + 1) (ms.map fun m => memberText (depth + 1) (m.1.name, m.2)) ++
        (newLine depth ++ ['}'])))) := by
  obtain ⟨m, ms, hfields⟩ : ∃ m ms, r.fields = m :: ms := ⟨_, _, rfl⟩
  refine ⟨m, ms, hfields, ?_⟩
  rw [toJson_eq, hfields, List.map_cons, prettyAt, Json.prettyMembers_cons, List.map_map]
  · simp only [List.append_assoc]
    rfl
  · exact List.cons_ne_nil _ _

/-- A record is read back. -/
theorem reads_read {r : Record} (howner : r.owner.IsTagged) (depth : Nat) :
    Reads read (prettyAt depth r.toJson) r := by
  intro blanks rest hblanks _
  obtain ⟨m, ms, hfields, htext⟩ := prettyAt_toJson r depth
  have hnodup := nodup_fields r
  rw [hfields] at hnodup
  generalize hbody : newLine (depth + 1) ++ (memberText (depth + 1) (m.1.name, m.2) ++
    (moreLines (depth + 1) (ms.map fun m => memberText (depth + 1) (m.1.name, m.2)) ++
      (newLine depth ++ '}' :: rest))) = body
  have htext : prettyAt depth r.toJson ++ rest = '{' :: body := by
    rw [htext, ← hbody]
    simp
  have hlength : ms.length < body.length + 1 := by
    have := Json.length_le_length_moreLines (depth + 1)
      (ms.map fun m => memberText (depth + 1) (m.1.name, m.2))
    rw [← hbody]
    simp only [List.length_append, List.length_map] at this ⊢
    omega
  have hmembers := readMembers_moreLines howner (fun m' hm' => hfields ▸ hm') hnodup (d := {})
    (fun m' _ => by cases m'.1 <;> rfl) hlength (List.forall_mem_nil _) (depth + 1) depth rest
  have hskip : Json.skipBlanks body = memberText (depth + 1) (m.1.name, m.2) ++
      (moreLines (depth + 1) (ms.map fun m => memberText (depth + 1) (m.1.name, m.2)) ++
        (newLine depth ++ '}' :: rest)) := by
    rw [← hbody]
    exact Json.skipBlanks_append Json.isBlank_of_mem_newLine rfl _
  obtain ⟨more, hmore⟩ : ∃ more, memberText (depth + 1) (m.1.name, m.2) ++
      (moreLines (depth + 1) (ms.map fun m => memberText (depth + 1) (m.1.name, m.2)) ++
        (newLine depth ++ '}' :: rest)) = '"' :: more := ⟨_, rfl⟩
  have hobject : readObject body = .ok (r, rest) := by
    unfold readObject
    rw [List.nil_append, hmore] at hmembers
    rw [hskip, hmore]
    simp only [Char.reduceEq, if_false, hmembers, bind, Except.bind]
    rw [← hfields, finish_put]
    rfl
  unfold read
  rw [htext, Json.readShape_brace hblanks]
  exact hobject

/-- Records are read back from the text that is written for them. -/
theorem listOfText_listToText {records : List Record} (h : ∀ r ∈ records, r.owner.IsTagged) :
    listOfText (listToText records) = .ok records := by
  obtain ⟨t, ht, hlist⟩ := Json.readList_prettyAt toJson 0
    (fun r hr => reads_read (h r hr) 1) (fun r _ => by
      obtain ⟨m, ms, -, htext⟩ := prettyAt_toJson r 1
      exact ⟨'{', _, htext, rfl, by decide⟩)
  have hread : readRecords ('[' :: t) = .ok (records, []) := by
    have hlist := hlist []
    rw [List.append_nil] at hlist
    unfold readRecords
    rw [← List.nil_append ('[' :: t), Json.readShape_bracket (List.forall_mem_nil _)]
    exact hlist
  unfold listOfText readAll listToText Json.pretty
  rw [ht, hread]
  rfl

/-! ## Owners that are read -/

/-- The owner, if one has been read, is the one that its tag stands for. -/
def Draft.IsTagged (d : Draft) : Prop := ∀ o ∈ d.owner, o.IsTagged

theorem Draft.isTagged_empty : ({} : Draft).IsTagged := fun _ h => nomatch h

variable {d d' : Draft} {t rest : Text}

theorem Draft.IsTagged.read (h : d.IsTagged) {f : Field} (hread : d.read f t = .ok (d', rest)) :
    d'.IsTagged := by
  have hmap : ∀ {α : Type} {x : Except StreamError (α × Text)} {g : α × Text → Draft × Text},
      x.map g = .ok (d', rest) → ∃ a, (g a).1 = d' := by
    intro α x g hx
    cases x with
    | error e => cases hx
    | ok a => exact ⟨a, congrArg Prod.fst (Except.ok.inj hx)⟩
  unfold Draft.read at hread
  cases f with
  | owner =>
      obtain ⟨⟨tag, _⟩, rfl⟩ := hmap hread
      intro o ho
      cases ho
      exact Owner.isTagged_ofTag tag
  | _ =>
      obtain ⟨_, rfl⟩ := hmap hread
      exact h

theorem Draft.IsTagged.readMember (h : d.IsTagged) (hread : d.readMember t = .ok (d', rest)) :
    d'.IsTagged := by
  unfold Draft.readMember at hread
  split at hread
  · cases hread
  split at hread
  · obtain ⟨⟨key, t⟩, -, hread⟩ := bind_eq_ok hread
    dsimp only at hread
    split at hread
    · split at hread
      · cases hread
      · obtain ⟨_, -, hread⟩ := bind_eq_ok hread
        exact h.read hread
    · obtain ⟨_, -, hread⟩ := bind_eq_ok hread
      obtain ⟨_, -, hread⟩ := bind_eq_ok hread
      cases hread
      exact h
  · cases hread

theorem Draft.IsTagged.readMembers (h : d.IsTagged) {fuel : Nat}
    (hread : Draft.readMembers fuel d t = .ok (d', rest)) : d'.IsTagged := by
  induction fuel generalizing d t with
  | zero => cases hread
  | succ fuel ih =>
      rw [Draft.readMembers] at hread
      obtain ⟨⟨d₁, t₁⟩, hmember, hread⟩ := bind_eq_ok hread
      dsimp only at hread
      split at hread
      · cases hread
      split at hread
      · exact ih (h.readMember hmember) hread
      split at hread
      · cases hread
        exact h.readMember hmember
      · cases hread

theorem Draft.IsTagged.readItems (h : d.IsTagged) {count : Nat} {fs : List Field}
    (hread : Draft.readItems count fs d t = .ok (d', rest)) : d'.IsTagged := by
  induction fs generalizing d t count with
  | nil =>
      cases hread
      exact h
  | cons f fs ih =>
      rw [Draft.readItems] at hread
      obtain ⟨⟨more, t₁⟩, -, hread⟩ := bind_eq_ok hread
      dsimp only at hread
      split at hread
      · obtain ⟨⟨d₁, t₂⟩, hfield, hread⟩ := bind_eq_ok hread
        exact ih (h.read hfield) hread
      · split at hread
        · cases hread
        · cases hread
          exact h

/-- A record without an owner belongs to the profile by default. -/
theorem Draft.IsTagged.finish (h : d.IsTagged) {r : Record} (hfinish : orFail d.finish = .ok r) :
    r.owner.IsTagged := by
  unfold Draft.finish at hfinish
  split at hfinish
  · cases hfinish
  · cases hfinish
  · cases hfinish
    show (d.owner.getD .default).IsTagged
    cases ho : d.owner with
    | none => exact Owner.isTagged_default
    | some o => exact h o ho

theorem isTagged_of_readObject {r : Record} (h : readObject t = .ok (r, rest)) :
    r.owner.IsTagged := by
  unfold readObject at h
  dsimp only at h
  split at h
  · cases h
  split at h
  · obtain ⟨⟨d, t₁⟩, hempty, h⟩ := bind_eq_ok h
    cases hempty
    obtain ⟨r', hfinish, h⟩ := bind_eq_ok h
    cases h
    exact Draft.isTagged_empty.finish hfinish
  · obtain ⟨⟨d, t₁⟩, hmembers, h⟩ := bind_eq_ok h
    obtain ⟨r', hfinish, h⟩ := bind_eq_ok h
    cases h
    exact (Draft.isTagged_empty.readMembers hmembers).finish hfinish

theorem isTagged_of_readArray {r : Record} (h : readArray t = .ok (r, rest)) :
    r.owner.IsTagged := by
  obtain ⟨⟨d, t₁⟩, hitems, h⟩ := bind_eq_ok h
  obtain ⟨r', hfinish, h⟩ := bind_eq_ok h
  obtain ⟨_, -, h⟩ := bind_eq_ok h
  cases h
  exact (Draft.isTagged_empty.readItems hitems).finish hfinish

theorem isTagged_of_read {r : Record} (h : read t = .ok (r, rest)) : r.owner.IsTagged := by
  obtain ⟨⟨shape, t₁⟩, -, h⟩ := bind_eq_ok h
  dsimp only at h
  split at h
  · exact isTagged_of_readObject h
  · exact isTagged_of_readArray h
  · cases h

theorem isTagged_of_listOfText {records : List Record} (h : listOfText t = .ok records) :
    ∀ r ∈ records, r.owner.IsTagged := by
  obtain ⟨⟨records', rest⟩, hread, h⟩ := bind_eq_ok h
  dsimp only at h
  split at h
  · cases h
    obtain ⟨⟨shape, t₁⟩, -, hread⟩ := bind_eq_ok hread
    dsimp only at hread
    split at hread
    · exact Json.forall_mem_of_readList (fun _ _ _ h => isTagged_of_read h) hread
    · cases hread
  · cases h

end Record

end Fillout
