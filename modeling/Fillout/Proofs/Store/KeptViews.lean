import Fillout.Proofs.Store.Changes
import Mathlib

set_option autoImplicit false

/-! # Views that are kept

A store works out its two views when they are first asked for, keeps them for later questions, and
drops them with a change that succeeds; a change that fails leaves them alone. `KeptViews` is a
store with what it has kept, and `KeptViews.handle` says what a request does to it: a question may
fill a view, and the identifiers in a view are looked up in the rules each time. `RuleStore.handle`
is the store whose views are worked out at their place.

The invariant is `KeptViews.Fresh`: what has been kept is the view of the rules that are there now.
It holds when nothing has been kept yet, and each request keeps it (`Fresh.handle`), since a view is
only ever filled from the present rules and the rules only change where the views are dropped. So
all answers are those that the rules give (`Reachable.answers_eq`).
-/

namespace Fillout

/-- A change of a store, or a question that is answered from a view. -/
inductive Request
  | change (c : Change)
  | byPattern (key : Text)
  | inPriorityOrder
  | findRule (kind : RuleKind) (alternative : Text)

/-- What a request is answered with. -/
inductive Answer
  | changed (result : Except StoreError (Option RuleId))
  | rules (rules : List Rule)
  | rule (rule? : Option Rule)

/-- Whether a rule comes before another one in the order of priority. -/
def Rule.Precedes (a b : Rule) : Prop :=
  (a.isCase = true ∧ b.isCase = false) ∨ (a.isCase = b.isCase ∧ a.id.before b.id = true)

/-- Answers one request after the other. -/
def answersOf {σ : Type} (handle : σ → Request → Answer × σ) (s : σ) : List Request → List Answer
  | [] => []
  | q :: rest => (handle s q).1 :: answersOf handle (handle s q).2 rest

namespace RuleStore

/-- What a store answers, and the store afterwards. -/
def handle (s : RuleStore) : Request → Answer × RuleStore
  | .change c => (.changed ((s.attempt c).map Prod.fst), s.after c)
  | .byPattern key => (.rules (s.byPattern key), s)
  | .inPriorityOrder => (.rules s.inPriorityOrder, s)
  | .findRule kind alternative => (.rule (s.findRule? kind alternative), s)

/-- What the rules answer when they are gone through for each question. -/
def handleAfresh (s : RuleStore) : Request → Answer × RuleStore
  | .change c => (.changed ((s.attempt c).map Prod.fst), s.after c)
  | .byPattern key => (.rules (s.rules.filter fun r => r.body.pattern.contains key), s)
  | .inPriorityOrder => (.rules (priorityOrder s.rules), s)
  | .findRule kind alternative =>
      (.rule ((priorityOrder s.rules).find? fun r =>
        r.body.kind = kind && r.body.pattern.contains alternative), s)

/-- The store after requests. -/
def afterRequests (s : RuleStore) (requests : List Request) : RuleStore :=
  requests.foldl (fun s q => (s.handleAfresh q).2) s

end RuleStore

/-- A store with the views that it has kept. -/
structure KeptViews where
  store : RuleStore
  index? : Option PatternIndex := none
  priority? : Option (List RuleId) := none

namespace KeptViews

/-- The index of alternatives, from what has been kept or from the rules. -/
def index (k : KeptViews) : PatternIndex := k.index?.getD (.ofRules k.store.rules)

/-- The order of priority, from what has been kept or from the rules. -/
def priority (k : KeptViews) : List RuleId :=
  k.priority?.getD ((priorityOrder k.store.rules).map Rule.id)

/-- What is answered, and what has been kept afterwards. -/
def handle (k : KeptViews) : Request → Answer × KeptViews
  | .change c =>
      match k.store.attempt c with
      | .ok (id?, s) => (.changed (.ok id?), { store := s })
      | .error e => (.changed (.error e), k)
  | .byPattern key =>
      (.rules ((k.index.get key).filterMap k.store.get?), { k with index? := some k.index })
  | .inPriorityOrder =>
      (.rules (k.priority.filterMap k.store.get?), { k with priority? := some k.priority })
  | .findRule kind alternative =>
      (.rule ((k.priority.filterMap k.store.get?).find? fun r =>
        r.body.kind = kind && r.body.pattern.contains alternative),
        { k with priority? := some k.priority })

/-- What has been kept is right for the rules that are there. -/
structure Fresh (k : KeptViews) : Prop where
  index : k.index = .ofRules k.store.rules
  priority : k.priority = (priorityOrder k.store.rules).map Rule.id

variable {k : KeptViews}

theorem fresh_ofStore (s : RuleStore) : ({ store := s } : KeptViews).Fresh := ⟨rfl, rfl⟩

/-- A request is answered as from the rules, makes the store that it makes without views, and keeps
the views fresh. -/
theorem Fresh.handle (h : k.Fresh) (hstore : k.store.Indexed) (q : Request) :
    (k.handle q).1 = (k.store.handleAfresh q).1 ∧
      (k.handle q).2.store = (k.store.handleAfresh q).2 ∧ (k.handle q).2.Fresh := by
  have hindex := h.index
  have hpriority := h.priority
  -- The views of the store itself are fresh, too, and their answers are known.
  have hrules : k.priority.filterMap k.store.get? = priorityOrder k.store.rules := by
    rw [hpriority, ← hstore.priority]
    exact hstore.inPriorityOrder_eq
  cases q with
  | change c =>
      cases hattempt : k.store.attempt c with
      | ok result =>
          simp only [KeptViews.handle, RuleStore.handleAfresh, RuleStore.after, hattempt]
          exact ⟨rfl, trivial, fresh_ofStore _⟩
      | error e =>
          simp only [KeptViews.handle, RuleStore.handleAfresh, RuleStore.after, hattempt]
          exact ⟨rfl, trivial, h⟩
  | byPattern key =>
      refine ⟨congrArg Answer.rules ?_, rfl, hindex, hpriority⟩
      rw [hindex, ← hstore.index]
      exact hstore.byPattern_eq key
  | inPriorityOrder => exact ⟨congrArg Answer.rules hrules, rfl, hindex, hpriority⟩
  | findRule kind alternative =>
      refine ⟨?_, rfl, hindex, hpriority⟩
      simp only [KeptViews.handle, RuleStore.handleAfresh, hrules]

end KeptViews

namespace RuleStore

variable {s : RuleStore}

/-- The store whose views are worked out at their place answers as its rules do. -/
theorem Indexed.handle_eq (h : s.Indexed) (q : Request) : s.handle q = s.handleAfresh q := by
  cases q with
  | change c => rfl
  | byPattern key => exact congrArg (fun rules => (Answer.rules rules, s)) (h.byPattern_eq key)
  | inPriorityOrder => exact congrArg (fun rules => (Answer.rules rules, s)) h.inPriorityOrder_eq
  | findRule kind alternative =>
      unfold handle handleAfresh findRule?
      rw [h.inPriorityOrder_eq]

theorem Reachable.after (h : s.Reachable) (c : Change) : (s.after c).Reachable := by
  rcases s.after_cases c with hs | ⟨hs, -⟩
  · generalize s.after c = s', s.givenId? c = id? at hs
    cases hs with
    | add hadd => exact h.add hadd
    | remove hremove => exact h.remove hremove
    | setPattern hset => exact h.setPattern hset
    | setValue hset => exact h.setValue hset
    | clear => exact h.clear
  · rw [hs]
    exact h

theorem Reachable.handleAfresh (h : s.Reachable) (q : Request) :
    (s.handleAfresh q).2.Reachable := by
  cases q with
  | change c => exact h.after c
  | byPattern key => exact h
  | inPriorityOrder => exact h
  | findRule kind alternative => exact h

theorem Reachable.afterRequests (h : s.Reachable) (requests : List Request) :
    (s.afterRequests requests).Reachable := by
  induction requests generalizing s with
  | nil => exact h
  | cons q requests ih => exact ih (h.handleAfresh q)

end RuleStore

/-- Fresh views stay fresh, so what has been kept shows in no answer. -/
theorem KeptViews.Fresh.answersOf_eq {k : KeptViews} (h : k.Fresh) (hstore : k.store.Reachable)
    (requests : List Request) :
    answersOf KeptViews.handle k requests = answersOf RuleStore.handleAfresh k.store requests := by
  induction requests generalizing k with
  | nil => rfl
  | cons q requests ih =>
      obtain ⟨hanswer, hnext, hfresh⟩ := h.handle hstore.indexed q
      have hrest := ih hfresh (by rw [hnext]; exact hstore.handleAfresh q)
      rw [hnext] at hrest
      exact congrArg₂ List.cons hanswer hrest

namespace RuleStore

variable {s : RuleStore}

/-- The order of priority has the rules of the case in front, and the identifiers ascend in each of
the two parts. -/
theorem priorityOrder_pairwise {rules : List Rule}
    (h : rules.Pairwise fun a b => a.id.before b.id) :
    (priorityOrder rules).Pairwise Rule.Precedes := by
  have hpart : ∀ b, (rules.filter fun r => r.isCase == b).Pairwise Rule.Precedes := by
    intro b
    refine List.pairwise_filter.2 (h.imp fun hlt ha hb => .inr ⟨?_, hlt⟩)
    rw [eq_of_beq ha, eq_of_beq hb]
  unfold priorityOrder
  refine List.pairwise_append.2 ⟨?_, ?_, fun a ha b hb => .inl ⟨?_, ?_⟩⟩
  · simpa using hpart true
  · simpa using hpart false
  · exact (List.mem_filter.1 ha).2
  · simpa using (List.mem_filter.1 hb).2

/-- Whatever questions and changes, failing ones among them, have come before, the answers of a
store are those that its present rules give, with views that are kept and with views that are worked
out at their place. The rules are in the order of their identifiers, so those that have an
alternative are listed once and in this order; the order of priority consists of all rules, those of
the case in front. -/
theorem Reachable.answers_eq (h : s.Reachable) (requests : List Request) :
    answersOf KeptViews.handle { store := s } requests =
      answersOf RuleStore.handleAfresh s requests ∧
      answersOf handle s requests = answersOf RuleStore.handleAfresh s requests ∧
      ((s.afterRequests requests).rules.Pairwise fun a b => a.id.before b.id) ∧
      (priorityOrder (s.afterRequests requests).rules).Perm (s.afterRequests requests).rules ∧
      (priorityOrder (s.afterRequests requests).rules).Pairwise Rule.Precedes := by
  have hascending := (h.afterRequests requests).indexed.ascending
  refine ⟨(KeptViews.fresh_ofStore s).answersOf_eq h requests, ?_, hascending,
    List.filter_append_perm Rule.isCase _, priorityOrder_pairwise hascending⟩
  clear hascending
  induction requests generalizing s with
  | nil => rfl
  | cons q requests ih => rw [answersOf, answersOf, h.indexed.handle_eq q, ih (h.handleAfresh q)]

/-- Two rules for one name, the second one of the case. -/
def twoStreets : RuleStore :=
  (RuleStore.ofRecords
    [{ kind := .equal, pattern := "street".toList, value := .literal "Main Street".toList },
     { kind := .equal, pattern := "street, road".toList, value := .literal "Mill Road".toList,
       owner := .case }]).1

/-- Both views are filled before a change that fails and again before one that succeeds. -/
def streetRequests : List Request :=
  [.byPattern "street".toList, .inPriorityOrder, .change (.setPattern (.ordinary 2) []),
   .byPattern "street".toList, .findRule .equal "street".toList,
   .change (.setPattern (.ordinary 2) "road".toList), .findRule .equal "street".toList,
   .byPattern "street".toList]

/-- The rule that has lost the name is found first before the change, and not found after it. -/
theorem answers_eq_twoStreets :
    twoStreets.Reachable ∧
      answersOf KeptViews.handle { store := twoStreets } streetRequests =
        answersOf RuleStore.handleAfresh twoStreets streetRequests ∧
      (priorityOrder (twoStreets.afterRequests streetRequests).rules).Pairwise Rule.Precedes ∧
      ((twoStreets.afterRequests (streetRequests.take 5)).findRule?
        .equal "street".toList).map Rule.id = some (.ordinary 2) ∧
      ((twoStreets.afterRequests streetRequests).findRule?
        .equal "street".toList).map Rule.id = some (.ordinary 1) := by
  have h : twoStreets.Reachable := .ofRecords _
  obtain ⟨hkept, -, -, -, horder⟩ := h.answers_eq streetRequests
  exact ⟨h, hkept, horder, by cbv, by cbv⟩

end RuleStore

end Fillout
