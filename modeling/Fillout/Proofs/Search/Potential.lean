import Fillout.Proofs.Search.Forms
import Fillout.Proofs.Search.SurveyRun
import Fillout.Proofs.Template.Score
import Mathlib

set_option autoImplicit false

/-! # What a form promises

The potential of a text is its score with what the best values for its containers would add. A form
whose fields have been filled with these values has the score that it had as a potential before.

The search for the best text fills the first field that has values; the fields before it stay as
they are (`FirstField`). Each value takes from the potential what the best one would have added, and
adds its own letters and digits. So no text promises more than the one it comes from
(`FirstField.potential_le`), and what stands before the field and what comes from it on promise
their shares, whatever the other one is (`FirstField.potential`).
-/

namespace Fillout

/-- In front of the one that `argmax` chooses stand only smaller ones. -/
theorem exists_of_argmax {α : Type} [DecidableEq α] {f : α → Nat} {xs : List α} {m : α}
    (h : xs.argmax f = some m) : ∃ l r, xs = l ++ m :: r ∧ ∀ a ∈ l, f a < f m := by
  obtain ⟨hmem, -, hfirst⟩ := List.argmax_eq_some_iff.1 h
  obtain ⟨l, r, rfl, hnew⟩ := List.eq_append_cons_of_mem hmem
  refine ⟨l, r, rfl, fun a ha => Nat.lt_of_not_le fun hle => ?_⟩
  have hidx := hfirst a (List.mem_append_left _ ha) hle
  rw [List.idxOf_append_of_notMem hnew, List.idxOf_append_of_mem ha] at hidx
  have hlt := List.idxOf_lt_length_iff.2 ha
  omega

/-- The container between pieces. -/
def Template.Container.between (l : List Template.Piece) (body : Text) (r : List Template.Piece) :
    Template.Container :=
  ⟨l.flatMap Template.Piece.text, body, r.flatMap Template.Piece.text⟩

theorem Template.Container.substitute_between (l : List Template.Piece) (b : Text)
    (r : List Template.Piece) (v : Text) :
    (between l b r).substitute v = (l ++ .plain v :: r).flatMap Template.Piece.text := by
  rw [List.flatMap_append, List.flatMap_cons, ← List.append_assoc]
  rfl

namespace Query

open Template (Piece IsPlain fillScore scoreOf alphanumericCount containerCount)

variable {q : Query} {ts l r : List Piece} {b : Text}

/-! ## What can still be filled in -/

/-- The most letters and digits that one of the values for a container has. -/
def most (q : Query) (body : Text) : Nat := ((q.values body).map alphanumericCount).max?.getD 0

/-- The value that has the most letters and digits, the first one if there are several. -/
def favourite? (q : Query) (body : Text) : Option Text := (q.values body).argmax alphanumericCount

/-- The score of a text, and what the best values for its containers would add to it. -/
def potential (q : Query) (t : Text) : Nat :=
  fillScore t + ((Template.containers t).map fun c => q.most c.body).sum

/-- The potential of the text that pieces make up. -/
def potentialOf (q : Query) : List Piece → Nat
  | [] => 0
  | .plain t :: ps => alphanumericCount t + q.potentialOf ps
  | .slot b :: ps => q.most b + q.potentialOf ps

theorem potentialOf_append (l r : List Piece) :
    q.potentialOf (l ++ r) = q.potentialOf l + q.potentialOf r := by
  induction l with
  | nil => exact (Nat.zero_add _).symm
  | cons p l ih =>
      cases p with
      | plain t => rw [List.cons_append, potentialOf, potentialOf, ih, Nat.add_assoc]
      | slot b => rw [List.cons_append, potentialOf, potentialOf, ih, Nat.add_assoc]

/-- What putting a value in for a field changes. -/
theorem potentialOf_fill (l r : List Piece) (b v : Text) :
    q.potentialOf (l ++ .plain v :: r) + q.most b =
      q.potentialOf (l ++ .slot b :: r) + alphanumericCount v := by
  rw [potentialOf_append, potentialOf_append, potentialOf, potentialOf]
  omega

theorem potential_of_isForm (hform : q.IsForm ts) :
    q.potential (ts.flatMap Piece.text) = q.potentialOf ts := by
  have hsum : ∀ (ts : List Piece) (before : Text),
      scoreOf ts + ((Template.containersBehind before ts).map fun c => q.most c.body).sum =
        q.potentialOf ts := by
    intro ts
    induction ts with
    | nil => exact fun _ => rfl
    | cons p ts ih =>
        intro before
        cases p with
        | plain t => rw [Template.containersBehind, scoreOf, potentialOf, Nat.add_assoc, ih]
        | slot b =>
            rw [Template.containersBehind, scoreOf, potentialOf, List.map_cons, List.sum_cons,
              Nat.add_left_comm, ih]
  rw [potential, Template.fillScore_of_isClean hform.isClean,
    Template.containers_of_isClean hform.isClean, hsum]

theorem most_of_values_eq_nil (h : q.values b = []) : q.most b = 0 := by
  rw [most, h]
  rfl

/-- Pieces without values can only add their own score. -/
theorem potentialOf_of_forall (h : ∀ d, .slot d ∈ l → q.values d = []) :
    q.potentialOf l = scoreOf l := by
  induction l with
  | nil => rfl
  | cons p l ih =>
      have hl := ih fun d hd => h d (List.mem_cons_of_mem p hd)
      cases p with
      | plain t => rw [potentialOf, scoreOf, hl]
      | slot d =>
          rw [potentialOf, scoreOf, hl, most_of_values_eq_nil (h d List.mem_cons_self),
            Nat.zero_add]

theorem le_most {v : Text} (hv : v ∈ q.values b) : alphanumericCount v ≤ q.most b := by
  have hmem : alphanumericCount v ∈ (q.values b).map alphanumericCount := List.mem_map_of_mem hv
  obtain ⟨m, hm⟩ := Option.isSome_iff_exists.1 (List.isSome_max?_of_mem hmem)
  rw [most, hm]
  exact (List.max?_eq_some_iff.1 hm).2 _ hmem

/-- If there are values, one of them is the favourite, and those before it have fewer letters and
digits. -/
theorem exists_favourite (h : q.values b ≠ []) : ∃ us v ws, q.values b = us ++ v :: ws ∧
    q.favourite? b = some v ∧ q.most b = alphanumericCount v ∧
      ∀ u ∈ us, alphanumericCount u < alphanumericCount v := by
  obtain ⟨v, hv⟩ := Option.ne_none_iff_exists'.1
    (mt (List.argmax_eq_none (f := alphanumericCount)).1 h)
  obtain ⟨us, ws, hsplit, hless⟩ := exists_of_argmax hv
  refine ⟨us, v, ws, hsplit, hv, ?_, hless⟩
  -- `most` is the greatest of the numbers that `argmax` compares.
  have hmax : ((q.values b).map alphanumericCount).max? = some (alphanumericCount v) := by
    refine List.max?_eq_some_iff.2 ⟨List.mem_map_of_mem (List.argmax_mem hv), fun n hn => ?_⟩
    obtain ⟨u, hu, rfl⟩ := List.mem_map.1 hn
    exact List.le_of_mem_argmax hu hv
  rw [most, hmax]
  rfl

/-! ## The first field that has values -/

open Template.Container (between)

theorem canFill_eq (h : q.IsDirect) {c : Template.Container}
    (hvalues : ∀ v ∈ q.values c.body, IsPlain v) : q.canFill c = !(q.values c.body).isEmpty := by
  have hempty := congrArg List.isEmpty (values_plainSteps h hvalues)
  rw [List.isEmpty_map, List.isEmpty_map] at hempty
  rw [canFill, hempty]

/-- A form with a field `b` that has values, behind fields that have none. -/
structure FirstField (q : Query) (l : List Piece) (b : Text) (r : List Piece) : Prop where
  form : q.IsForm (l ++ .slot b :: r)
  before : ∀ d, .slot d ∈ l → q.values d = []
  offers : q.values b ≠ []

/-- No field of a form has values, or there is a first field that has. -/
theorem IsForm.exists_firstField (hform : q.IsForm ts) :
    (∀ d, .slot d ∈ ts → q.values d = []) ∨
      ∃ l b r, ts = l ++ .slot b :: r ∧ q.FirstField l b r := by
  suffices hsplit : (∀ d, .slot d ∈ ts → q.values d = []) ∨ ∃ l b r, ts = l ++ .slot b :: r ∧
      (∀ d, .slot d ∈ l → q.values d = []) ∧ q.values b ≠ [] by
    refine hsplit.imp_right ?_
    rintro ⟨l, b, r, rfl, hl, hb⟩
    exact ⟨l, b, r, rfl, hform, hl, hb⟩
  clear hform
  induction ts with
  | nil => exact .inl fun d hd => nomatch hd
  | cons p ts ih =>
      by_cases hp : ∀ d, p = .slot d → q.values d = []
      · -- The piece is put in front of those that are found to have no values.
        have hcons : ∀ {l : List Piece}, (∀ d, .slot d ∈ l → q.values d = []) →
            ∀ d, .slot d ∈ p :: l → q.values d = [] := fun hl d hd =>
          (List.mem_cons.1 hd).elim (fun he => hp d he.symm) (hl d)
        rcases ih with hts | ⟨l, b, r, rfl, hl, hb⟩
        · exact .inl (hcons hts)
        · exact .inr ⟨p :: l, b, r, rfl, hcons hl, hb⟩
      · obtain ⟨b, hnot⟩ := not_forall.1 hp
        obtain ⟨rfl, hb⟩ := Classical.not_imp.1 hnot
        exact .inr ⟨[], b, ts, rfl, (fun d hd => nomatch hd), hb⟩

/-- Among pieces without values nothing can be filled. -/
theorem canFill_eq_false (h : q.IsDirect) (hl : ∀ d, .slot d ∈ l → q.values d = [])
    (c : Template.Container) (hc : .slot c.body ∈ l) : q.canFill c = false := by
  have hnone := hl c.body hc
  rw [canFill_eq h (by rw [hnone]; exact List.forall_mem_nil _), hnone]
  rfl

theorem firstFillable?_of_forall (h : q.IsDirect) (hform : q.IsForm ts)
    (hnone : ∀ d, .slot d ∈ ts → q.values d = []) :
    q.firstFillable? (ts.flatMap Piece.text) = none := by
  have hpass := Template.find?_containersBehind_append (canFill_eq_false h hnone) [] []
  rw [List.append_nil] at hpass
  rw [firstFillable?, Template.containers_of_isClean hform.isClean, hpass]
  rfl

namespace FirstField

variable (hf : q.FirstField l b r)

include hf

theorem form_left : q.IsForm l := fun p hp => hf.form p (List.mem_append_left _ hp)

theorem form_right : q.IsForm (.slot b :: r) := fun p hp => hf.form p (List.mem_append_right l hp)

theorem isPlain_of_mem {v : Text} (hv : v ∈ q.values b) : IsPlain v :=
  hf.form_right.values List.mem_cons_self v hv

theorem firstFillable? (h : q.IsDirect) :
    q.firstFillable? ((l ++ .slot b :: r).flatMap Piece.text) = some (between l b r) := by
  have hfill : q.canFill (between l b r) = true := by
    rw [canFill_eq h fun _ => hf.isPlain_of_mem, Bool.not_eq_true', List.isEmpty_eq_false_iff]
    exact hf.offers
  rw [Query.firstFillable?, Template.containers_of_isClean hf.form.isClean,
    Template.find?_containersBehind_append (canFill_eq_false h hf.before), List.nil_append,
    Template.containersBehind]
  exact List.find?_cons_of_pos hfill

/-- What stands before the first field that has values adds its score only. -/
theorem potential : q.potential ((l ++ .slot b :: r).flatMap Piece.text) =
    fillScore (between l b r).before + q.potential (between l b r).remainder := by
  have hright : (between l b r).remainder = (Piece.slot b :: r).flatMap Piece.text := rfl
  rw [potential_of_isForm hf.form, hright, potential_of_isForm hf.form_right, potentialOf_append,
    potentialOf_of_forall hf.before]
  exact congrArg (· + _) (Template.fillScore_of_isClean hf.form_left.isClean).symm

theorem containerCount_remainder :
    containerCount (between l b r).remainder = r.countP Piece.isSlot + 1 :=
  (Template.containerCount_of_isClean hf.form_right.isClean).trans (List.countP_cons_of_pos rfl)

/-! ### Filling it -/

theorem fill {v : Text} (hv : v ∈ q.values b) : q.IsForm (l ++ .plain v :: r) :=
  List.forall_mem_append.2
    ⟨hf.form_left, List.forall_mem_cons.2 ⟨hf.isPlain_of_mem hv, hf.form_right.tail⟩⟩

/-- Filling the field leaves one field less. -/
theorem containerCount_fill {v : Text} (hv : v ∈ q.values b) :
    containerCount ((l ++ .slot b :: r).flatMap Piece.text) =
      containerCount ((l ++ .plain v :: r).flatMap Piece.text) + 1 := by
  rw [Template.containerCount_of_isClean hf.form.isClean,
    Template.containerCount_of_isClean (hf.fill hv).isClean, List.countP_append, List.countP_append,
    List.countP_cons_of_pos rfl, List.countP_cons_of_neg Bool.false_ne_true, Nat.add_assoc]

/-- The steps put the values in for the field, in order. -/
theorem plainSteps (h : q.IsDirect) : (q.plainSteps (between l b r)).map Candidate.value =
    (q.values b).map fun v => (l ++ .plain v :: r).flatMap Piece.text := by
  rw [values_plainSteps h fun _ => hf.isPlain_of_mem]
  exact List.map_congr_left fun v _ => Template.Container.substitute_between l b r v

theorem exists_of_mem_plainSteps (h : q.IsDirect) {w : Candidate}
    (hw : w ∈ q.plainSteps (between l b r)) :
    ∃ v ∈ q.values b, w.value = (l ++ .plain v :: r).flatMap Piece.text := by
  obtain ⟨v, hv, he⟩ := value_of_mem_plainSteps h (fun _ => hf.isPlain_of_mem) hw
  exact ⟨v, hv, he.trans (Template.Container.substitute_between l b r v)⟩

/-- No value promises more than the field does. -/
theorem potential_le (h : q.IsDirect) {w : Candidate} (hw : w ∈ q.plainSteps (between l b r)) :
    q.potential w.value ≤ q.potential ((l ++ .slot b :: r).flatMap Piece.text) := by
  obtain ⟨v, hv, he⟩ := hf.exists_of_mem_plainSteps h hw
  rw [he, potential_of_isForm (hf.fill hv), potential_of_isForm hf.form]
  have hfill := q.potentialOf_fill l r b v
  have hle := le_most hv
  omega

/-- Among the steps is one with the favourite, and those before it promise less than the field
does. -/
theorem exists_favourite_step (h : q.IsDirect) :
    ∃ v ∈ q.values b, q.favourite? b = some v ∧ q.most b = alphanumericCount v ∧ ∃ as w cs,
      q.plainSteps (between l b r) = as ++ w :: cs ∧
        w.value = (l ++ .plain v :: r).flatMap Piece.text ∧
        ∀ a ∈ as, q.potential a.value < q.potential ((l ++ .slot b :: r).flatMap Piece.text) := by
  obtain ⟨us, v, ws, hvalues, hfav, hmost, hless⟩ := exists_favourite hf.offers
  have hsteps := hf.plainSteps h
  rw [hvalues, List.map_append, List.map_cons] at hsteps
  obtain ⟨as, bs, hsplit, has, hbs⟩ := List.map_eq_append_iff.1 hsteps
  obtain ⟨w, cs, rfl, hw, -⟩ := List.map_eq_cons_iff.1 hbs
  refine ⟨v, hvalues ▸ List.mem_append_right _ List.mem_cons_self, hfav, hmost, as, w, cs,
    hsplit, hw, fun a ha => ?_⟩
  have hmem : a.value ∈ us.map fun v => (l ++ .plain v :: r).flatMap Piece.text :=
    has ▸ List.mem_map_of_mem ha
  obtain ⟨u, hu, he⟩ := List.mem_map.1 hmem
  have hu' : u ∈ q.values b := hvalues ▸ List.mem_append_left _ hu
  have hfill := q.potentialOf_fill l r b u
  have hlt := hless u hu
  rw [← he, potential_of_isForm (hf.fill hu'), potential_of_isForm hf.form]
  omega

/-- When the field has been filled, no field has values any more, or the first that has is one
behind it. -/
theorem next {v : Text} (hv : v ∈ q.values b) :
    (∀ d, .slot d ∈ l ++ .plain v :: r → q.values d = []) ∨
      ∃ l' b' r', r = l' ++ .slot b' :: r' ∧ q.FirstField (l ++ .plain v :: l') b' r' := by
  have hfilled : ∀ {l' : List Piece}, (∀ d, .slot d ∈ l' → q.values d = []) →
      ∀ d, .slot d ∈ l ++ .plain v :: l' → q.values d = [] := by
    intro l' hl' d hd
    rcases List.mem_append.1 hd with hd | hd
    · exact hf.before d hd
    · exact hl' d ((List.mem_cons.1 hd).resolve_left nofun)
  rcases hf.form_right.tail.exists_firstField with hnone | ⟨l', b', r', rfl, hf'⟩
  · exact .inl (hfilled hnone)
  · refine .inr ⟨l', b', r', rfl, ?_, hfilled hf'.before, hf'.offers⟩
    have hform := hf.fill hv
    rwa [List.append_assoc]

end FirstField

end Query

end Fillout
