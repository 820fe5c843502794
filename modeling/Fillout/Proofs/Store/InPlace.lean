import Fillout.Proofs.Snapshot.RoundTrip
import Fillout.Proofs.Store.Refusals
import Mathlib

set_option autoImplicit false

/-! # Changes at their place

`KeptViews.perform` does a change at its place, step by step: the identifier is worked out, the body
is examined, the number is counted, the rule is put in, the views are dropped. A step that fails
leaves what the steps before it have done. Since nothing is written before all has been examined, a
change that fails leaves everything as it was: the rules, the numbers given out last and the views
that are kept, and with them all later answers (`Reached.fails_iff_refuses`).

Numbers have 64 bits here, and behind the largest one comes zero (`nextNumber`), as where sums are
not checked for being too large. (Where they are checked, an addition at the largest number does not
return, and has examined and written nothing.) Once numbers have begun again, an identifier that is
given out may be that of a rule, whose place the new one takes. So a store that is changed at its
place need not stay sound; what stays is that identifiers ascend and that no two rules say the same
(`Distinct.perform`), and no more than this is needed for what is refused. As long as no number
comes to its end, changes at their place are those of `RuleStore.attempt` (`perform_on`), and the
answers are the same (`answersOf_handleInPlace`).
-/

namespace Fillout

/-- The number behind a number of 64 bits. Behind the largest one comes zero. -/
def nextNumber (n : Nat) : Nat := (n + 1) % 2 ^ 64

theorem nextNumber_of_lt {n : Nat} (h : n + 1 < 2 ^ 64) : nextNumber n = n + 1 :=
  Nat.mod_eq_of_lt h

namespace RuleStore

/-- The identifier that an owner is given at its place. -/
def idInPlace (s : RuleStore) (owner : Owner) : RuleId :=
  if owner = .template then .template (nextNumber s.lastTemplate)
  else .ordinary (nextNumber s.lastOrdinary)

/-- The rules beside which a body is put: all of them, or those that it does not replace. -/
def beside (s : RuleStore) : Option RuleId → List Rule
  | none => s.rules
  | some id => s.others id

/-- The store with a record under an identifier, whose number is the one given out last then. -/
def put (s : RuleStore) (id : RuleId) (record : Record) : RuleStore :=
  if id.isTemplate then ofRules (insertRule (.ofRecord id record) s.rules) s.lastOrdinary id.number
  else ofRules (insertRule (.ofRecord id record) s.rules) id.number s.lastTemplate

end RuleStore

namespace KeptViews

open RuleStore (examineBeside)

/-! ## The steps -/

/-- Work on a store at its place. What has been done before a failure stays done. -/
abbrev InPlace := ExceptT StoreError (StateM KeptViews)

/-- What work returns, and what it leaves. -/
def InPlace.on {α : Type} (work : InPlace α) (k : KeptViews) : Except StoreError α × KeptViews :=
  work.run.run k

/-- Examines whether a body may be put in, be it in the place of a rule. -/
def examine (replaced : Option RuleId) (body : RuleBody) : InPlace Unit := do
  match examineBeside ((← get).store.beside replaced) body with
  | .ok () => return ()
  | .error e => throw e

/-- The rule with an identifier, if there is one. -/
def find (id : RuleId) : InPlace Rule := do
  match (← get).store.get? id with
  | some r => return r
  | none => throw (.unknown id)

/-- Counts the identifier that an owner is given. -/
def countId (owner : Owner) : InPlace Unit :=
  modify fun k =>
    if owner = .template then
      { k with store := { k.store with lastTemplate := nextNumber k.store.lastTemplate } }
    else { k with store := { k.store with lastOrdinary := nextNumber k.store.lastOrdinary } }

/-- Makes other rules of those that are there. -/
def changeRules (change : List Rule → List Rule) : InPlace Unit :=
  modify fun k => { k with
    store := .ofRules (change k.store.rules) k.store.lastOrdinary k.store.lastTemplate }

/-- Drops the views that are kept. -/
def dropViews : InPlace Unit := modify fun k => { store := k.store }

/-- Puts a changed rule in the place of the one with its identifier. -/
def replace (r : Rule) : InPlace Unit := do
  examine (some r.id) r.body
  changeRules (RuleStore.insertRule r)
  dropViews

/-- Does a change, and returns the identifier that it gives out. -/
def perform : Change → InPlace (Option RuleId)
  | .add record => do
      -- The identifier is only given out by `countId`, after the examination.
      let id := (← get).store.idInPlace record.owner
      examine none (.ofRecord record)
      countId record.owner
      changeRules (RuleStore.insertRule (.ofRecord id record))
      dropViews
      return some id
  | .remove id => do
      let _ ← find id
      changeRules fun rules => rules.filter fun x => x.id ≠ id
      dropViews
      return none
  | .setPattern id pattern => do
      let r ← find id
      replace (r.withPattern pattern)
      return none
  | .setValue id value => do
      let r ← find id
      replace (r.withValue value)
      return none
  | .clear => do
      changeRules fun _ => []
      dropViews
      return none

/-- What is answered when changes are done at their place. -/
def handleInPlace (k : KeptViews) : Request → Answer × KeptViews
  | .change c => (.changed ((perform c).on k).1, ((perform c).on k).2)
  | q => k.handle q

/-! ## What the steps come to -/

/-- What is returned and left if the making of a new store decides: the new store without views, or
all as it is. -/
def settle {α : Type} (k : KeptViews) :
    Except StoreError (α × RuleStore) → Except StoreError α × KeptViews
  | .ok (a, s) => (.ok a, { store := s })
  | .error e => (.error e, k)

variable {α β : Type} {k k' : KeptViews} {e : StoreError} {id : RuleId} {r : Rule}

theorem settle_eq_error {x : Except StoreError (α × RuleStore)} :
    (k.settle x).1 = .error e ↔ x = .error e := by
  cases x <;> simp [settle]

theorem store_settle_attempt (k : KeptViews) (c : Change) :
    (k.settle (k.store.attempt c)).2.store = k.store.after c := by
  unfold RuleStore.after
  cases k.store.attempt c <;> rfl

theorem InPlace.bind_on_ok {x : InPlace α} {a : α} (h : x.on k = (.ok a, k')) (f : α → InPlace β) :
    (x >>= f).on k = (f a).on k' := by
  unfold InPlace.on at h ⊢
  rw [ExceptT.run_bind, StateT.run_bind, h]
  rfl

theorem InPlace.bind_on_error {x : InPlace α} (h : x.on k = (.error e, k')) (f : α → InPlace β) :
    (x >>= f).on k = (.error e, k') := by
  unfold InPlace.on at h ⊢
  rw [ExceptT.run_bind, StateT.run_bind, h]
  rfl

theorem examine_on (replaced : Option RuleId) (body : RuleBody) (k : KeptViews) :
    (examine replaced body).on k = (examineBeside (k.store.beside replaced) body, k) := by
  refine (InPlace.bind_on_ok (x := get) (a := k) rfl _).trans ?_
  cases examineBeside (k.store.beside replaced) body <;> rfl

theorem find_on_some (h : k.store.get? id = some r) : (find id).on k = (.ok r, k) := by
  refine (InPlace.bind_on_ok (x := get) (a := k) rfl _).trans ?_
  rw [h]
  rfl

theorem find_on_none (h : k.store.get? id = none) : (find id).on k = (.error (.unknown id), k) := by
  refine (InPlace.bind_on_ok (x := get) (a := k) rfl _).trans ?_
  rw [h]
  rfl

theorem replace_on (r : Rule) (k : KeptViews) :
    (replace r).on k = k.settle ((k.store.replace r).map fun s => ((), s)) := by
  have hexamine := examine_on (some r.id) r.body k
  unfold replace RuleStore.replace
  rw [RuleStore.check_eq_examineBeside]
  cases hcheck : examineBeside (k.store.others r.id) r.body with
  | error e =>
      rw [RuleStore.beside, hcheck] at hexamine
      exact InPlace.bind_on_error hexamine _
  | ok _ =>
      rw [RuleStore.beside, hcheck] at hexamine
      -- The two steps behind the examination always succeed, one after the other.
      exact InPlace.bind_on_ok hexamine _

theorem update_on (id : RuleId) (change : Rule → Rule) (k : KeptViews) :
    (do let r ← find id; replace (change r); return none : InPlace (Option RuleId)).on k =
      k.settle ((k.store.update id change).map fun s => (none, s)) := by
  unfold RuleStore.update
  cases hget : k.store.get? id with
  | none => exact InPlace.bind_on_error (find_on_none hget) _
  | some r =>
      refine (InPlace.bind_on_ok (find_on_some hget) _).trans ?_
      have hreplace := replace_on (change r) k
      dsimp only
      cases hresult : k.store.replace (change r) with
      | error e =>
          rw [hresult] at hreplace
          exact InPlace.bind_on_error hreplace _
      | ok s =>
          rw [hresult] at hreplace
          exact InPlace.bind_on_ok hreplace _

/-- A record is put under the next identifier, unless it is refused a place beside the rules. -/
theorem perform_add_on (record : Record) (k : KeptViews) :
    (perform (.add record)).on k =
      k.settle ((examineBeside k.store.rules (.ofRecord record)).map fun _ =>
        (some (k.store.idInPlace record.owner),
          k.store.put (k.store.idInPlace record.owner) record)) := by
  refine (InPlace.bind_on_ok (x := get) (a := k) rfl _).trans ?_
  have hexamine := examine_on none (.ofRecord record) k
  cases hcheck : examineBeside k.store.rules (.ofRecord record) with
  | error e =>
      rw [RuleStore.beside, hcheck] at hexamine
      exact InPlace.bind_on_error hexamine _
  | ok _ =>
      rw [RuleStore.beside, hcheck] at hexamine
      refine (InPlace.bind_on_ok hexamine _).trans ?_
      refine (InPlace.bind_on_ok (x := countId record.owner) rfl _).trans ?_
      -- The number that is counted is that of the identifier.
      by_cases howner : record.owner = .template
      · simp only [RuleStore.idInPlace, if_pos howner]
        rfl
      · simp only [RuleStore.idInPlace, if_neg howner]
        rfl

/-- All changes but additions are done at their place as they make new stores. -/
theorem perform_on_of_not_add {c : Change} (hc : ¬∃ record, c = .add record) (k : KeptViews) :
    (perform c).on k = k.settle (k.store.attempt c) := by
  cases c with
  | add record => exact absurd ⟨record, rfl⟩ hc
  | remove id =>
      unfold RuleStore.attempt RuleStore.remove
      dsimp only
      cases hget : k.store.get? id with
      | none => exact InPlace.bind_on_error (find_on_none hget) _
      | some r => exact InPlace.bind_on_ok (find_on_some hget) _
  | setPattern id pattern => exact update_on id (fun r => r.withPattern pattern) k
  | setValue id value => exact update_on id (fun r => r.withValue value) k
  | clear => rfl

/-- A change that fails at its place leaves everything as it was. -/
theorem perform_on_eq_self {c : Change} (h : ((perform c).on k).1 = .error e) :
    ((perform c).on k).2 = k := by
  have hsettled : ∃ x, (perform c).on k = k.settle x := by
    by_cases hc : ∃ record, c = .add record
    · obtain ⟨record, rfl⟩ := hc
      exact ⟨_, perform_add_on record k⟩
    · exact ⟨_, perform_on_of_not_add hc k⟩
  obtain ⟨x, hx⟩ := hsettled
  rw [hx, settle_eq_error] at h
  rw [hx, h]
  rfl

/-! ## Until a number comes to its end -/

theorem idInPlace_eq_nextId {s : RuleStore} (hroom : ∀ i, s.lastFor i + 1 < 2 ^ 64)
    (owner : Owner) : s.idInPlace owner = s.nextId owner := by
  have hordinary : nextNumber s.lastOrdinary = s.lastOrdinary + 1 :=
    nextNumber_of_lt (hroom (.ordinary 0))
  have htemplate : nextNumber s.lastTemplate = s.lastTemplate + 1 :=
    nextNumber_of_lt (hroom (.template 0))
  unfold RuleStore.idInPlace RuleStore.nextId
  rw [hordinary, htemplate]

/-- If there are numbers left, a change at its place leaves the new store without views, or fails
and leaves everything as it was. -/
theorem perform_on (h : k.store.Sound) (hroom : ∀ i, k.store.lastFor i + 1 < 2 ^ 64) (c : Change) :
    (perform c).on k = k.settle (k.store.attempt c) := by
  by_cases hc : ∃ record, c = .add record
  · obtain ⟨record, rfl⟩ := hc
    rw [perform_add_on, idInPlace_eq_nextId hroom]
    unfold RuleStore.attempt RuleStore.add
    dsimp only
    rw [RuleStore.check_eq_examineBeside, h.others_nextId]
    cases examineBeside k.store.rules (.ofRecord record) <;> rfl
  · exact perform_on_of_not_add hc k

/-- A request is answered at its place as by a store that is made anew, if there are numbers
left. -/
theorem handleInPlace_eq (h : k.store.Sound) (hroom : ∀ i, k.store.lastFor i + 1 < 2 ^ 64)
    (q : Request) : k.handleInPlace q = k.handle q := by
  cases q with
  | change c =>
      unfold handleInPlace handle
      dsimp only
      rw [perform_on h hroom]
      cases k.store.attempt c <;> rfl
  | byPattern key => rfl
  | inPriorityOrder => rfl
  | findRule kind alternative => rfl

/-- A request leaves the store as it is, or makes the store after a change of it. -/
theorem store_handle (k : KeptViews) (q : Request) :
    (k.handle q).2.store = k.store ∨ ∃ c, (k.handle q).2.store = k.store.after c := by
  cases q with
  | change c =>
      refine .inr ⟨c, ?_⟩
      unfold handle RuleStore.after
      dsimp only
      cases k.store.attempt c <;> rfl
  | byPattern key => exact .inl rfl
  | inPriorityOrder => exact .inl rfl
  | findRule kind alternative => exact .inl rfl

/-- Requests are answered at their place as by stores that are made anew, if there are more numbers
left than requests. -/
theorem answersOf_handleInPlace (h : k.store.Sound) (requests : List Request)
    (hroom : ∀ i, k.store.lastFor i + requests.length < 2 ^ 64) :
    answersOf handleInPlace k requests = answersOf handle k requests := by
  induction requests generalizing k with
  | nil => rfl
  | cons q requests ih =>
      have hlength : ∀ i, k.store.lastFor i + (requests.length + 1) < 2 ^ 64 := hroom
      have hq := handleInPlace_eq h (fun i => by have := hlength i; omega) q
      rw [answersOf, answersOf, hq]
      congr 1
      rcases k.store_handle q with hsame | ⟨c, hafter⟩
      · exact ih (by rwa [hsame]) fun i => by rw [hsame]; have := hlength i; omega
      · refine ih (by rw [hafter]; exact h.after c) fun i => ?_
        have := hlength i
        rw [hafter]
        rcases k.store.lastFor_after c i with hi | hi <;> omega

end KeptViews

namespace RuleStore

open KeptViews (perform handleInPlace)

variable {s : RuleStore} {k : KeptViews}

/-! ## What is refused, with numbers that come to an end -/

/-- A store that is loaded, or comes about by changes at their place, whatever views have been
kept. -/
inductive Reached : RuleStore → Prop
  | loaded {s : RuleStore} (h : s.Loaded) : Reached s
  | change {k : KeptViews} (h : Reached k.store) (c : Change) : Reached ((perform c).on k).2.store

/-- A record that says what no rule says may be put under any identifier. -/
theorem Distinct.put (h : s.Distinct) (id : RuleId) {record : Record}
    (hnew : ∀ r ∈ s.rules, r.body ≠ .ofRecord record) : (s.put id record).Distinct := by
  have hr : ∀ x ∈ s.rules, x.id ≠ (Rule.ofRecord id record).id →
      x.body ≠ (Rule.ofRecord id record).body := fun x hx _ => hnew x hx
  unfold RuleStore.put
  split
  · exact h.insertRule hr _ _
  · exact h.insertRule hr _ _

/-- A change at its place keeps the rules distinct, be the identifier that it gives out new or
not. -/
theorem Distinct.perform (h : k.store.Distinct) (c : Change) :
    ((perform c).on k).2.store.Distinct := by
  by_cases hc : ∃ record, c = .add record
  · obtain ⟨record, rfl⟩ := hc
    rw [KeptViews.perform_add_on]
    cases hexamine : examineBeside k.store.rules (.ofRecord record) with
    | error e => exact h
    | ok _ =>
        have hnew := (examineBeside_eq_ok.1 hexamine).2
        exact h.put (k.store.idInPlace record.owner) hnew
  · rw [KeptViews.perform_on_of_not_add hc, KeptViews.store_settle_attempt]
    exact h.after c

theorem Reached.distinct (h : s.Reached) : s.Distinct := by
  induction h with
  | loaded h => exact h.sound.distinct
  | change _ c ih => exact ih.perform c

/-- A change at its place fails with the error with which it must fail. -/
theorem Distinct.perform_eq_error (h : k.store.Distinct) (c : Change) (e : StoreError) :
    ((KeptViews.perform c).on k).1 = .error e ↔ k.store.Refuses c e := by
  by_cases hc : ∃ record, c = .add record
  · obtain ⟨record, rfl⟩ := hc
    rw [KeptViews.perform_add_on, KeptViews.settle_eq_error, map_eq_error]
    exact examineBeside_eq_error fun x hx y hy => h.eq_of_body hx hy
  · rw [KeptViews.perform_on_of_not_add hc, KeptViews.settle_eq_error]
    exact h.attempt_eq_error hc

/-- A change of one rule at its place that succeeds leaves the other rules and the numbers as they
are, and drops the views. -/
theorem Distinct.settle_update_eq_ok (h : k.store.Distinct) (change : Rule → Rule)
    (hid : ∀ r, (change r).id = r.id) {id : RuleId} {id? : Option RuleId} {k' : KeptViews}
    (hok : k.settle ((k.store.update id change).map fun s => (none, s)) = (.ok id?, k')) :
    id? = none ∧ k' = { store := k'.store } ∧
      ∃ r ∈ k.store.rules, r.id = id ∧ (∀ x ∈ k.store.rules, x.id = id → x = r) ∧
        k'.store = ofRules (k.store.rules.map fun x => if x.id = id then change x else x)
          k.store.lastOrdinary k.store.lastTemplate := by
  cases hupdate : k.store.update id change with
  | error e =>
      rw [hupdate] at hok
      cases hok
  | ok s =>
      rw [hupdate] at hok
      cases hok
      exact ⟨rfl, rfl, h.update_eq_ok change hid hupdate⟩

/-- A change of a store at its place fails exactly with the errors with which it must fail. Then it
leaves everything as it was, whatever views have been kept, and all that is asked later is answered
as if the change had not been asked for. If a pattern or a value is changed, the pattern with its
programs, or the value, is all that is changed, and of this one rule alone. -/
theorem Reached.fails_iff_refuses (h : k.store.Reached) :
    (∀ c e, ((perform c).on k).1 = .error e ↔ k.store.Refuses c e) ∧
    (∀ c e, ((perform c).on k).1 = .error e →
      ((perform c).on k).2 = k ∧
        ∀ later, answersOf handleInPlace k (.change c :: later) =
          .changed (.error e) :: answersOf handleInPlace k later) ∧
    (∀ id pattern id? k', (perform (.setPattern id pattern)).on k = (.ok id?, k') →
      id? = none ∧ k' = { store := k'.store } ∧
        ∃ r ∈ k.store.rules, r.id = id ∧ (∀ x ∈ k.store.rules, x.id = id → x = r) ∧
          k'.store = ofRules
            (k.store.rules.map fun x =>
              if x.id = id then
                { x with
                  body := { x.body with pattern := .ofText pattern }
                  matchers := matchersOf x.body.kind (.ofText pattern) }
              else x)
            k.store.lastOrdinary k.store.lastTemplate) ∧
    ∀ id value id? k', (perform (.setValue id value)).on k = (.ok id?, k') →
      id? = none ∧ k' = { store := k'.store } ∧
        ∃ r ∈ k.store.rules, r.id = id ∧ (∀ x ∈ k.store.rules, x.id = id → x = r) ∧
          k'.store = ofRules
            (k.store.rules.map fun x =>
              if x.id = id then { x with body := { x.body with value := value } } else x)
            k.store.lastOrdinary k.store.lastTemplate := by
  have hdistinct := h.distinct
  refine ⟨hdistinct.perform_eq_error, fun c e hc => ?_, fun id pattern id? k' hset => ?_,
    fun id value id? k' hset => ?_⟩
  · have hkept := KeptViews.perform_on_eq_self hc
    refine ⟨hkept, fun later => ?_⟩
    rw [answersOf, handleInPlace, hc, hkept]
  · have hon := KeptViews.update_on id (fun r => r.withPattern pattern) k
    exact hdistinct.settle_update_eq_ok (fun r => r.withPattern pattern) (fun _ => rfl)
      (hon.symm.trans hset)
  · have hon := KeptViews.update_on id (fun r => r.withValue value) k
    exact hdistinct.settle_update_eq_ok (fun r => r.withValue value) (fun _ => rfl)
      (hon.symm.trans hset)

/-- The two streets in a store that has given out the largest number. -/
def lastStreets : RuleStore := ofRules twoStreets.rules (2 ^ 64 - 1) 0

/-- There is a snapshot of this store. -/
theorem loaded_lastStreets : lastStreets.Loaded := by
  have hstreets : twoStreets.LoadedByTags := by
    refine .ofRecords (List.forall_mem_cons.2 ⟨Owner.isTagged_default, ?_⟩)
    exact List.forall_mem_singleton.2 (Owner.isTagged_ofTag "case".toList)
  have hkept := hstreets.savable.sound
  have hle : ∀ i, twoStreets.lastFor i ≤ lastStreets.lastFor i := by
    have hordinary : twoStreets.lastOrdinary ≤ lastStreets.lastOrdinary := by decide +kernel
    have htemplate : twoStreets.lastTemplate ≤ lastStreets.lastTemplate := by decide +kernel
    intro i
    cases i
    · exact hordinary
    · exact htemplate
  have hlast : ∀ i, lastStreets.lastFor i < 2 ^ 64 := by
    intro i
    cases i
    · exact Nat.sub_lt (by decide) (by decide)
    · exact Nat.pos_of_ne_zero (by decide)
  have hsound : lastStreets.Sound :=
    ⟨hkept.ascending, hkept.records, hkept.nonempty, hkept.bodies, fun r hr =>
      ⟨(hkept.numbers r hr).1, (hkept.numbers r hr).2.trans (hle r.id)⟩⟩
  have hindexed : lastStreets.Indexed :=
    indexed_ofRules hsound.ascending hstreets.reachable.indexed.alternatives _ _
  have hread := hsound.readBack_eq hindexed hstreets.savable.owners
  have hlength : (Payload.ofStore lastStreets none).write.length < 2 ^ 32 := by decide +kernel
  refine .ofBytes (ofBytes_frame_of_toStore (isWritable_ofStore hsound hlast none) hlength
    ((hsound.toStore_ofStore none).2 ⟨hread.symm, ?_⟩))
  rw [hread]
  exact List.pairwise_map.2 hsound.bodies

/-- The first of the two streets once more, with blanks and repetitions in it and a threshold that
has no meaning. -/
def streetAgain : Record :=
  { kind := .equal, pattern := " street ,,street".toList, value := .literal "Main Street".toList,
    scope := some [], threshold := some 3 }

/-- It is refused and leaves the store as it is, also the index, which has been filled before; and
so is a pattern without alternatives. A rule may be given its own pattern. The next rule that is put
in has the number zero, since there is none behind the largest one. -/
theorem fails_iff_refuses_lastStreets :
    let k : KeptViews := { store := lastStreets, index? := some (.ofRules lastStreets.rules) }
    lastStreets.Reached ∧ lastStreets.Refuses (.add streetAgain) (.duplicate (.ordinary 1)) ∧
      (perform (.add streetAgain)).on k = (.error (.duplicate (.ordinary 1)), k) ∧
      (perform (.add { streetAgain with pattern := " ,".toList })).on k =
        (.error .emptyPattern, k) ∧
      (∃ s', (perform (.setPattern (.ordinary 1) "street".toList)).on k =
        (.ok none, { store := s' })) ∧
      ((perform (.add { streetAgain with kind := .substring })).on k).1 =
        .ok (some (.ordinary 0)) := by
  intro k
  have h : k.store.Reached := .loaded loaded_lastStreets
  obtain ⟨hiff, hkept, hpattern, -⟩ := h.fails_iff_refuses
  have hagain : ((perform (.add streetAgain)).on k).1 = .error (.duplicate (.ordinary 1)) := by cbv
  have hempty : ((perform (.add { streetAgain with pattern := " ,".toList })).on k).1 =
      .error .emptyPattern := by cbv
  have hown : ((perform (.setPattern (.ordinary 1) "street".toList)).on k).1 = .ok none := by cbv
  have hzero : ((perform (.add { streetAgain with kind := .substring })).on k).1 =
      .ok (some (.ordinary 0)) := by cbv
  have hdropped := (hpattern _ _ none _ (Prod.ext hown rfl)).2.1
  exact ⟨h, (hiff _ _).1 hagain, Prod.ext hagain (hkept _ _ hagain).1,
    Prod.ext hempty (hkept _ _ hempty).1, ⟨_, Prod.ext hown hdropped⟩, hzero⟩

end RuleStore

end Fillout
