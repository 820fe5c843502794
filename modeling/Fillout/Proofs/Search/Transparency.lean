import Fillout.Proofs.Search.Afresh
import Fillout.Resolve.Engine
import Mathlib

set_option autoImplicit false

/-! # What the cache changes

All texts that dates and switches depend on are resolved by way of one cache, and what stands in it
may depend on how it got there. A text that is resolved while another is being resolved may miss
values that depend on the latter, or may meet the limit because it stands further down; and what is
found then is what every later request for it is told. So the value of a date can depend on which
fields have been filled before (`Engine.resolveNested_mutualDates`).

It does not if the texts that have been resolved before, and those that are asked for now, have
values that can be worked out afresh: then a request returns this value, as it does with an empty
cache (`Query.resolveNested_cacheAfter`).
-/

namespace Fillout

namespace Query

variable (q : Query)

/-- The cache after texts have been resolved one after the other, each with some number of
levels. -/
def cacheAfter (requests : List (Text × Nat)) : Cache :=
  requests.foldl (fun cache x => (q.resolveNested x.2 x.1 cache).2) []

variable {q}

theorem cacheTrue_cacheAfter {requests : List (Text × Nat)}
    (h : ∀ x ∈ requests, (q.value? x.2 x.1).isSome) : q.CacheTrue [] (q.cacheAfter requests) := by
  have key : ∀ cache, q.CacheTrue [] cache → q.CacheTrue []
      (requests.foldl (fun cache x => (q.resolveNested x.2 x.1 cache).2) cache) := by
    induction requests with
    | nil => exact fun cache hc => hc
    | cons x requests ih =>
        intro cache hc
        obtain ⟨r, hr⟩ := Option.isSome_iff_exists.1 (h x List.mem_cons_self)
        exact ih (fun y hy => h y (List.mem_cons_of_mem x hy)) _
          (resolveNested_of_cacheTrue hr 0 hc).2
  exact key [] .nil

/-- If the values of all texts that have been resolved can be worked out, they have no part in what
comes after them: a text whose value can be worked out resolves to the same, and a container can be
filled with the same values, if all that they depend on can be worked out. -/
theorem resolveNested_cacheAfter (q : Query) (requests : List (Text × Nat)) (left : Nat)
    (h : ∀ x ∈ requests, (q.value? x.2 x.1).isSome) :
    (∀ source, (q.value? left source).isSome →
      (q.resolveNested left source (q.cacheAfter requests)).1 =
        (q.resolveNested left source []).1) ∧
    ∀ c, ((q.stepsAsking c).given? (q.value? left)).isSome →
      (q.containerSteps (q.resolveNested left) c (q.cacheAfter requests)).1 =
        (q.containerSteps (q.resolveNested left) c []).1 := by
  have hcache := cacheTrue_cacheAfter h
  have hvalue : ∀ source r cache, q.value? left source = some r → q.CacheTrue [] cache →
      (q.resolveNested left source cache).1 = r ∧
        q.CacheTrue [] (q.resolveNested left source cache).2 :=
    fun source r cache hr hc => resolveNested_of_cacheTrue hr 0 hc
  refine ⟨fun source hs => ?_, fun c hc => ?_⟩
  · obtain ⟨r, hr⟩ := Option.isSome_iff_exists.1 hs
    exact (hvalue source r _ hr hcache).1.trans (hvalue source r [] hr .nil).1.symm
  · obtain ⟨steps, hsteps⟩ := Option.isSome_iff_exists.1 hc
    exact (containerSteps_of_given? hvalue hsteps hcache).1.trans
      (containerSteps_of_given? hvalue hsteps .nil).1.symm

end Query

namespace Engine

/-- A date that depends on a variable. -/
def datesInARow : Engine where
  store := (RuleStore.ofRecords
    [{ kind := .date, pattern := ['d'], value := .literal "$\x7be\x7d$".toList },
     { kind := .equal, pattern := ['e'], value := .literal "20200229".toList }]).1
  env := .empty

/-- It does not matter that `e` has been resolved before: the date resolves to the same, and so does
the text that it depends on. -/
theorem resolveNested_cacheAfter_datesInARow :
    (∀ x ∈ [("$\x7be\x7d$".toList, 99)], ((datesInARow.query {} []).value? x.2 x.1).isSome) ∧
    ((datesInARow.query {} []).value? 99 "$\x7bd\x7d$".toList).isSome ∧
    (((datesInARow.query {} []).stepsAsking ⟨[], ['d'], []⟩).given?
      ((datesInARow.query {} []).value? 99)).isSome ∧
    ((datesInARow.query {} []).resolveNested 99 "$\x7bd\x7d$".toList
      ((datesInARow.query {} []).cacheAfter [("$\x7be\x7d$".toList, 99)])).1 =
        some "29.02.2020".toList ∧
    (((datesInARow.query {} []).containerSteps ((datesInARow.query {} []).resolveNested 99)
      ⟨[], ['d'], []⟩ ((datesInARow.query {} []).cacheAfter [("$\x7be\x7d$".toList, 99)])).1.map
        Candidate.value) = ["29.02.2020".toList] := by
  have h : ∀ x ∈ [("$\x7be\x7d$".toList, 99)],
      ((datesInARow.query {} []).value? x.2 x.1).isSome := List.forall_mem_singleton.2 (by cbv)
  have hd : ((datesInARow.query {} []).value? 99 "$\x7bd\x7d$".toList).isSome := by cbv
  have hc : (((datesInARow.query {} []).stepsAsking ⟨[], ['d'], []⟩).given?
      ((datesInARow.query {} []).value? 99)).isSome := by cbv
  obtain ⟨htext, hfield⟩ := (datesInARow.query {} []).resolveNested_cacheAfter _ 99 h
  refine ⟨h, hd, hc, ?_, ?_⟩
  · rw [htext _ hd]
    cbv
  · rw [hfield _ hc]
    cbv

/-- Two dates that depend on each other, one of which has another value as well, and a date that
depends on the other one. -/
def mutualDates : Engine where
  store := (RuleStore.ofRecords
    [{ kind := .date, pattern := ['d'], value := .literal "$\x7be\x7d$".toList },
     { kind := .date, pattern := ['e'], value := .literal "$\x7bd\x7d$".toList },
     { kind := .equal, pattern := ['e'], value := .literal ['x'] },
     { kind := .date, pattern := ['f'], value := .literal "$\x7bd\x7d$".toList }]).1
  env := .empty

/-- While `e` is being resolved, `d` has no value, and so it has none afterwards; asked for first,
it has one. For this reason two dates can be filled in one order and not in the other. -/
theorem resolveNested_mutualDates :
    ((mutualDates.query {} []).resolveNested 99 "$\x7bd\x7d$".toList
        ((mutualDates.query {} []).cacheAfter [("$\x7be\x7d$".toList, 99)])).1 = none ∧
      ((mutualDates.query {} []).resolveNested 99 "$\x7bd\x7d$".toList []).1 = some ['x'] ∧
      mutualDates.resolveFirst {} "$\x7bd\x7d$ $\x7bf\x7d$".toList = none ∧
      mutualDates.resolveFirst {} "$\x7bf\x7d$ $\x7bd\x7d$".toList = some "x x".toList :=
  ⟨by cbv, by cbv, by cbv, by cbv⟩

end Engine

end Fillout
