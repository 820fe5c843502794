import Fillout.Proofs.Search.Transparency
import Fillout.Proofs.Template.Flat

set_option autoImplicit false

/-! # Entries in turn

One step from a text asks the entries of its containers for their values, from left to right, and
puts each value into the place of the container that the entry stands in. What has been resolved for
one entry is known to those behind it. So the texts that one step leads to are those that a single
pass over the entries leads to, whatever containers they are in (`Query.allSteps_eq`), and each
entry offers what it offers in the state that the entries before it have left
(`Query.fst_fillInTurn`).

In a text that is nothing but a container with one bare variable there is no such entry, and one
step leads to the values that are offered for the variable. For this it does not matter what the
name of the variable looks like: as long as no delimiter stands in it, none comes about where it
meets the delimiters around it (`Template.containers_slot`).

Together, these are the two ways to ask an engine for values (`Engine.oneStep_eq_candidatesFor`).
They need not say the same of a variable in a text with others: what has been resolved for an entry
on the left can take a value away, unless all texts that are asked for can be worked out afresh
(`Engine.valuesAfter_eq`).
-/

namespace Fillout

namespace Template

/-- The entries of the containers of a text, each with its container, from left to right. -/
def placedEntries (source : Text) : List (Container × Entry) :=
  (containers source).flatMap fun c => (entries c.body).map fun entry => (c, entry)

theorem source_of_mem_placedEntries {source : Text} {x : Container × Entry}
    (h : x ∈ placedEntries source) : x.1.source = source := by
  obtain ⟨c, hc, hx⟩ := List.mem_flatMap.1 h
  obtain ⟨entry, -, rfl⟩ := List.mem_map.1 hx
  exact source_of_mem_containers hc

/-- A container on its own is the only container of its text. -/
theorem containers_slot {body : Text} (h : IsBody body) :
    containers (opener ++ body ++ closer) = [⟨[], body, []⟩] := by
  have hclean : ∀ p ∈ [Piece.slot body], p.IsClean := List.forall_mem_singleton.2 h
  have hpieces := containers_of_isClean hclean
  rwa [List.flatMap_singleton] at hpieces

/-- A bare variable on its own is the only entry of its text. -/
theorem placedEntries_slot {key : Text} (hkey : splitEntries key = [key])
    (hbare : key.head? ≠ some '(') (h : IsBody key) :
    placedEntries (opener ++ key ++ closer) = [(⟨[], key, []⟩, .variable key)] := by
  have hentries : entries key = [.variable key] := by
    rw [entries, hkey, List.map_singleton, Entry.ofText, if_neg hbare]
  rw [placedEntries, containers_slot h, List.flatMap_singleton, hentries]
  rfl

end Template

namespace Query

variable {σ : Type} (q : Query) (nested : Nested σ)

/-- The state that is left when entries have been asked for their values one after the other. -/
def stateAfter (earlier : List Template.Entry) (state : σ) : σ :=
  earlier.foldl (fun state entry => (q.entryValues nested entry state).2) state

/-- The texts that values in the place of a container lead to. -/
def fillings (c : Template.Container) (values : List Candidate) : List Candidate :=
  (values.map fun v => { v with value := c.substitute v.value }).filter fun s => s.value ≠ c.source

/-- The texts that filling containers with the values of their entries leads to, when the entries
are asked one after the other. -/
def fillInTurn : List (Template.Container × Template.Entry) → σ → List Candidate × σ
  | [], state => ([], state)
  | (c, entry) :: xs, state =>
      let r := q.entryValues nested entry state
      let rest := fillInTurn xs r.2
      (fillings c r.1 ++ rest.1, rest.2)

theorem fillings_append (c : Template.Container) (values values' : List Candidate) :
    fillings c (values ++ values') = fillings c values ++ fillings c values' := by
  rw [fillings, List.map_append, List.filter_append]
  rfl

theorem map_value_fillings (c : Template.Container) (values : List Candidate) :
    (fillings c values).map Candidate.value =
      ((values.map Candidate.value).map c.substitute).filter (· ≠ c.source) := by
  rw [fillings, List.map_map, List.filter_map, List.filter_map, List.map_map]
  rfl

theorem fillInTurn_append (xs ys : List (Template.Container × Template.Entry)) (state : σ) :
    q.fillInTurn nested (xs ++ ys) state =
      ((q.fillInTurn nested xs state).1 ++
        (q.fillInTurn nested ys (q.fillInTurn nested xs state).2).1,
        (q.fillInTurn nested ys (q.fillInTurn nested xs state).2).2) := by
  induction xs generalizing state with
  | nil => rfl
  | cons x xs ih =>
      rw [List.cons_append, fillInTurn, fillInTurn, ih]
      simp only [List.append_assoc]

theorem fillInTurn_map (c : Template.Container) (entries : List Template.Entry) (state : σ) :
    q.fillInTurn nested (entries.map fun entry => (c, entry)) state =
      (fillings c (q.entriesValues nested entries state).1,
        (q.entriesValues nested entries state).2) := by
  induction entries generalizing state with
  | nil => rfl
  | cons entry entries ih =>
      rw [entriesValues, List.map_cons, fillInTurn, ih]
      dsimp only
      rw [fillings_append]

/-- Filling a container asks its entries in turn. -/
theorem containerSteps_eq_fillInTurn (c : Template.Container) (state : σ) :
    q.containerSteps nested c state =
      q.fillInTurn nested ((Template.entries c.body).map fun entry => (c, entry)) state :=
  (q.fillInTurn_map nested c (Template.entries c.body) state).symm

/-- One step asks the entries of all containers in turn. -/
theorem allSteps_eq (cs : List Template.Container) (state : σ) :
    q.allSteps nested cs state =
      q.fillInTurn nested
        (cs.flatMap fun c => (Template.entries c.body).map fun entry => (c, entry)) state := by
  induction cs generalizing state with
  | nil => rfl
  | cons c cs ih =>
      rw [allSteps, List.flatMap_cons, fillInTurn_append, ← containerSteps_eq_fillInTurn]
      dsimp only
      rw [ih]

/-- Each entry offers what it offers in the state that those before it have left. -/
theorem fst_fillInTurn (xs : List (Template.Container × Template.Entry)) (state : σ) :
    (q.fillInTurn nested xs state).1 =
      xs.zipIdx.flatMap fun ((c, entry), i) =>
        fillings c
          (q.entryValues nested entry
            (q.stateAfter nested ((xs.take i).map Prod.snd) state)).1 := by
  induction xs generalizing state with
  | nil => rfl
  | cons x xs ih =>
      rw [fillInTurn, List.zipIdx_cons', List.flatMap_cons, List.flatMap_map]
      dsimp only
      rw [ih]
      rfl

/-! ## What has been resolved before -/

section

variable {q} {left : Nat}

/-- If all that an entry asks for can be worked out afresh, the entry offers what comes of it, and
the cache says nothing wrong afterwards. -/
theorem entryValues_of_given? {entry : Template.Entry} {values : List Candidate}
    (h : (q.entriesAsking [entry]).given? (q.value? left) = some values) {cache : Cache}
    (hc : q.CacheTrue [] cache) :
    (q.entryValues (q.resolveNested left) entry cache).1 = values ∧
      q.CacheTrue [] (q.entryValues (q.resolveNested left) entry cache).2 := by
  have hrun : ((q.entriesAsking [entry]).run (q.resolveNested left) cache).1 = values ∧
      q.CacheTrue [] ((q.entriesAsking [entry]).run (q.resolveNested left) cache).2 :=
    Asking.run_of_given? (fun source r cache hr hc => resolveNested_of_cacheTrue hr 0 hc) h hc
  have hentry : q.entriesValues (q.resolveNested left) [entry] cache =
      ((q.entryValues (q.resolveNested left) entry cache).1 ++ [],
        (q.entryValues (q.resolveNested left) entry cache).2) := rfl
  rwa [run_entriesAsking, hentry, List.append_nil] at hrun

theorem cacheTrue_stateAfter {earlier : List Template.Entry}
    (h : ∀ x ∈ earlier, ((q.entriesAsking [x]).given? (q.value? left)).isSome) {cache : Cache}
    (hc : q.CacheTrue [] cache) :
    q.CacheTrue [] (q.stateAfter (q.resolveNested left) earlier cache) := by
  induction earlier generalizing cache with
  | nil => exact hc
  | cons x earlier ih =>
      obtain ⟨values, hx⟩ := Option.isSome_iff_exists.1 (h x List.mem_cons_self)
      exact ih (fun y hy => h y (List.mem_cons_of_mem x hy)) (entryValues_of_given? hx hc).2

end

end Query

namespace Engine

variable (e : Engine) (ctx : Context)

/-- The values that are offered for an entry in one step from `source`, if the entries `earlier`
have been asked for theirs before. -/
def valuesAfter (source : Text) (earlier : List Template.Entry)
    (entry : Template.Entry) : List Text :=
  let q := e.query ctx source
  let nested := q.resolveNested (ctx.maxDepth - 1)
  ((q.entryValues nested entry (q.stateAfter nested earlier [])).1).map Candidate.value

/-- The values that are offered for a variable are those of an entry that is the first to be
asked. -/
theorem candidatesFor_eq_valuesAfter (key : Text) :
    e.candidatesFor ctx key =
      e.valuesAfter ctx (Template.opener ++ key ++ Template.closer) [] (.variable key) := rfl

/-- A variable does not offer the text that was asked for. -/
theorem ne_of_mem_candidatesFor {key value : Text} (h : value ∈ e.candidatesFor ctx key) :
    value ≠ Template.opener ++ key ++ Template.closer := by
  obtain ⟨v, hv, rfl⟩ := List.mem_map.1 h
  exact (of_decide_eq_true (List.mem_filter.1 hv).2).2

/-- If all that the entries ask for can be worked out afresh, it does not matter for what an entry
offers which others have been asked before. -/
theorem valuesAfter_eq {source : Text} {earlier : List Template.Entry} {entry : Template.Entry}
    (h : ∀ x ∈ entry :: earlier, (((e.query ctx source).entriesAsking [x]).given?
      ((e.query ctx source).value? (ctx.maxDepth - 1))).isSome) :
    e.valuesAfter ctx source earlier entry = e.valuesAfter ctx source [] entry := by
  obtain ⟨values, hvalues⟩ := Option.isSome_iff_exists.1 (h entry List.mem_cons_self)
  have hcache := Query.cacheTrue_stateAfter (fun x hx => h x (List.mem_cons_of_mem entry hx)) .nil
  exact congrArg (List.map Candidate.value)
    ((Query.entryValues_of_given? hvalues hcache).1.trans
      (Query.entryValues_of_given? hvalues .nil).1.symm)

/-- One step puts what each entry offers, when it is its turn, into the place of its container. -/
theorem oneStep_eq (source : Text) :
    e.oneStep ctx source =
      (Template.placedEntries source).zipIdx.flatMap fun ((c, entry), i) =>
        ((e.valuesAfter ctx source (((Template.placedEntries source).take i).map Prod.snd)
          entry).map c.substitute).filter (· ≠ source) := by
  unfold oneStep
  dsimp only
  rw [Query.allSteps_eq, Query.fst_fillInTurn, List.map_flatMap]
  refine List.flatMap_congr fun x hx => ?_
  have hsource := Template.source_of_mem_placedEntries (List.fst_mem_of_mem_zipIdx hx)
  rw [Query.map_value_fillings, hsource]
  rfl

/-- One step asks the entries of all containers in turn, and puts the values of each into the place
of its container, but for those that change nothing. If there is but one entry and it is a bare
variable, this leads to the values that are offered for the variable. -/
theorem oneStep_eq_candidatesFor :
    (∀ key, Template.splitEntries key = [key] → key.head? ≠ some '(' → Template.IsBody key →
      e.oneStep ctx (Template.opener ++ key ++ Template.closer) = e.candidatesFor ctx key) ∧
    ∀ source, e.oneStep ctx source =
      (Template.placedEntries source).zipIdx.flatMap fun ((c, entry), i) =>
        ((e.valuesAfter ctx source (((Template.placedEntries source).take i).map Prod.snd)
          entry).map c.substitute).filter (· ≠ source) := by
  refine ⟨fun key hkey hbare hbody => ?_, e.oneStep_eq ctx⟩
  have hsubstitute : Template.Container.substitute ⟨[], key, []⟩ = id :=
    funext fun value => List.append_nil value
  calc e.oneStep ctx (Template.opener ++ key ++ Template.closer)
      = ((e.candidatesFor ctx key).map (Template.Container.substitute ⟨[], key, []⟩)).filter
          (· ≠ Template.opener ++ key ++ Template.closer) := by
        rw [e.oneStep_eq, Template.placedEntries_slot hkey hbare hbody, List.zipIdx_singleton,
          List.flatMap_singleton, candidatesFor_eq_valuesAfter]
        rfl
    _ = (e.candidatesFor ctx key).filter (· ≠ Template.opener ++ key ++ Template.closer) := by
        rw [hsubstitute, List.map_id]
    _ = e.candidatesFor ctx key :=
        List.filter_eq_self.2 fun value hvalue =>
          decide_eq_true (e.ne_of_mem_candidatesFor ctx hvalue)

/-- Two values for a variable whose name begins and ends like a delimiter. -/
def bracketedName : Engine where
  store := (RuleStore.ofRecords
    [{ kind := .equal, pattern := "\x7ba$".toList, value := .literal ['x'] },
     { kind := .equal, pattern := "\x7ba$".toList, value := .literal "$\x7bb\x7d$".toList }]).1
  env := .empty

/-- The name between delimiters is a container with this name as its only entry. Of two dates that
depend on each other, the one that is asked for first has a value; in the same step a third one,
which depends on it, has none, although it is offered one when it is asked for by itself. -/
theorem oneStep_eq_candidatesFor_bracketedName :
    (Template.splitEntries "\x7ba$".toList = ["\x7ba$".toList] ∧ "\x7ba$".toList.head? ≠ some '(' ∧
      Template.IsBody "\x7ba$".toList ∧
      bracketedName.oneStep {} (Template.opener ++ "\x7ba$".toList ++ Template.closer) =
        bracketedName.candidatesFor {} "\x7ba$".toList ∧
      bracketedName.candidatesFor {} "\x7ba$".toList = [['x'], "$\x7bb\x7d$".toList]) ∧
    mutualDates.oneStep {} "$\x7bd\x7d$ $\x7bf\x7d$".toList = ["x $\x7bf\x7d$".toList] ∧
    mutualDates.candidatesFor {} ['f'] = [['x']] := by
  have hsplit : Template.splitEntries "\x7ba$".toList = ["\x7ba$".toList] := by decide +kernel
  have hbare : "\x7ba$".toList.head? ≠ some '(' := by decide
  have hbody : Template.IsBody "\x7ba$".toList := by decide
  have hplaced : Template.placedEntries "$\x7bd\x7d$ $\x7bf\x7d$".toList =
      [(⟨[], ['d'], " $\x7bf\x7d$".toList⟩, .variable ['d']),
        (⟨"$\x7bd\x7d$ ".toList, ['f'], []⟩, .variable ['f'])] := by decide +kernel
  have hd : mutualDates.valuesAfter {} "$\x7bd\x7d$ $\x7bf\x7d$".toList [] (.variable ['d']) =
      [['x']] := by
    cbv
  have hf : mutualDates.valuesAfter {} "$\x7bd\x7d$ $\x7bf\x7d$".toList [.variable ['d']]
      (.variable ['f']) = [] := by
    cbv
  refine ⟨⟨hsplit, hbare, hbody,
    (bracketedName.oneStep_eq_candidatesFor {}).1 _ hsplit hbare hbody, by cbv⟩, ?_, by cbv⟩
  rw [(mutualDates.oneStep_eq_candidatesFor {}).2, hplaced]
  simp only [List.zipIdx_cons, List.zipIdx_nil, List.flatMap_cons, List.flatMap_nil, List.take_zero,
    List.map_nil, List.take_succ_cons, List.map_cons, hd, hf]
  decide

end Engine

end Fillout
