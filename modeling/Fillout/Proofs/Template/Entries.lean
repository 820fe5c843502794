import Fillout.Proofs.Text.Trimming
import Fillout.Template

set_option autoImplicit false

/-! # Splitting at the outer commas

`splitOuter` cuts a text where a comma stands outside parentheses and quotation marks. Whether it
does depends on what is open in front of it, and an `Outer` says what this is. Each part but the
last one starts and ends with nothing open (`AreParts`), because a comma is an outer one only then;
the last part may leave open what it likes.

So the parts can be told by looking at each of them alone, and with commas between them they are
split into the same parts again (`splitOuter_intercalate`). White space at the ends of a part opens
and closes nothing, and any of the parts may be left out. Hence a list of entries, with or without
the entries that come again, is the list of entries of its texts with commas between them
(`splitEntries_join`).
-/

namespace Fillout

namespace Template

open Unicode (isWhitespace)

/-! ## What is open -/

/-- What is open at a place of a text: parentheses, and a quotation mark. -/
structure Outer where
  depth : Nat
  quote : Option Char

namespace Outer

/-- Nothing is open. -/
def nothing : Outer := ⟨0, none⟩

/-- One character further. An outer comma ends the part. -/
def step (o : Outer) (c : Char) : Option Outer :=
  match o.quote with
  | some q => some ⟨o.depth, if c = q then none else some q⟩
  | none =>
      if c = '"' ∨ c = '\'' then some ⟨o.depth, some c⟩
      else if c = '(' then some ⟨o.depth + 1, none⟩
      else if c = ')' then some ⟨o.depth - 1, none⟩
      else if c = ',' ∧ o.depth = 0 then none
      else some o

/-- What is open behind a text that has no outer comma. -/
def after (o : Outer) (t : Text) : Option Outer := t.foldlM step o

theorem after_append (o : Outer) (s t : Text) :
    o.after (s ++ t) = (o.after s).bind fun o => o.after t :=
  List.foldlM_append

theorem after_cons {o o' : Outer} {c : Char} (h : o.step c = some o') (t : Text) :
    o.after (c :: t) = o'.after t := by
  rw [after, List.foldlM_cons, h]
  rfl

/-- Only quotation marks open a quotation. -/
def IsProper (o : Outer) : Prop := ∀ q, o.quote = some q → q = '"' ∨ q = '\''

theorem isProper_nothing : nothing.IsProper := fun _ h => nomatch h

theorem IsProper.step {o o' : Outer} {c : Char} (ho : o.IsProper) (h : o.step c = some o') :
    o'.IsProper := by
  obtain ⟨depth, quote⟩ := o
  unfold Outer.step at h
  cases quote with
  | some q =>
      cases h
      intro q' hq'
      dsimp only at hq'
      split at hq'
      · cases hq'
      · cases hq'
        exact ho q rfl
  | none =>
      dsimp only at h
      split at h
      · rename_i hc
        cases h
        intro q hq
        cases hq
        exact hc
      · repeat' split at h
        all_goals cases h
        all_goals exact fun q hq => nomatch hq

/-- White space opens and closes nothing. -/
theorem step_of_isWhitespace {o : Outer} (ho : o.IsProper) {c : Char} (hc : isWhitespace c) :
    o.step c = some o := by
  have hne : ∀ d : Char, isWhitespace d = false → c ≠ d := by
    rintro d hd rfl
    rw [hc] at hd
    cases hd
  obtain ⟨depth, quote⟩ := o
  unfold step
  cases quote with
  | some q =>
      have hq : c ≠ q := hne q (by rcases ho q rfl with rfl | rfl <;> decide)
      dsimp only
      rw [if_neg hq]
  | none =>
      dsimp only
      rw [if_neg (not_or.2 ⟨hne '"' (by decide), hne '\'' (by decide)⟩),
        if_neg (hne '(' (by decide)),
        if_neg (hne ')' (by decide)), if_neg fun h => hne ',' (by decide) h.1]

theorem after_of_forall_isWhitespace {o : Outer} (ho : o.IsProper) {w : Text}
    (hw : ∀ c ∈ w, isWhitespace c) : o.after w = some o := by
  induction w with
  | nil => rfl
  | cons c w ih =>
      obtain ⟨hc, hrest⟩ := List.forall_mem_cons.1 hw
      rw [after_cons (step_of_isWhitespace ho hc), ih hrest]

theorem IsProper.after {o o' : Outer} {t : Text} (ho : o.IsProper) (h : o.after t = some o') :
    o'.IsProper := by
  induction t generalizing o with
  | nil =>
      cases h
      exact ho
  | cons c t ih =>
      obtain ⟨o₁, hstep, hrest⟩ := Option.bind_eq_some_iff.1 h
      exact ih (ho.step hstep) hrest

/-- Trimming a part does not change what is open behind it. -/
theorem after_trim (t : Text) : nothing.after t.trim = nothing.after t := by
  obtain ⟨w, hw, hstart⟩ := Text.exists_append_trimStart t
  obtain ⟨v, hv, hend⟩ := Text.exists_trimEnd_append t.trimStart
  have hmiddle : nothing.after t = nothing.after t.trimStart := by
    conv_lhs => rw [hstart]
    rw [after_append, after_of_forall_isWhitespace isProper_nothing hw]
    rfl
  rw [hmiddle]
  conv_rhs => rw [hend, after_append]
  show nothing.after t.trim = (nothing.after t.trim).bind fun o => o.after v
  cases ht : nothing.after t.trim with
  | none => rfl
  | some o => exact (after_of_forall_isWhitespace (isProper_nothing.after ht) hv).symm

end Outer

/-- A text without commas, parentheses and quotation marks. -/
def IsUnmarked (t : Text) : Prop := ∀ c ∈ t, c ∉ [',', '(', ')', '"', '\'']

instance (t : Text) : Decidable (IsUnmarked t) := List.decidableBAll _ t

theorem IsUnmarked.after {t : Text} (h : IsUnmarked t) : Outer.nothing.after t = some .nothing := by
  induction t with
  | nil => rfl
  | cons c t ih =>
      obtain ⟨hc, ht⟩ := List.forall_mem_cons.1 h
      have hstep : Outer.nothing.step c = some .nothing := by
        simp only [List.mem_cons, List.not_mem_nil, or_false, not_or] at hc
        simp [Outer.step, Outer.nothing, hc]
      rw [Outer.after_cons hstep, ih ht]

/-! ## Parts -/

/-- Texts that are the parts of a text of which something is open in front: no part has an outer
comma, and behind each part but the last nothing is open. -/
inductive AreParts : Outer → List Text → Prop
  | last {o : Outer} {t : Text} (h : (o.after t).isSome) : AreParts o [t]
  | more {o : Outer} {t : Text} {ts : List Text} (h : o.after t = some .nothing)
      (hts : AreParts .nothing ts) : AreParts o (t :: ts)

/-- Texts behind each of which nothing is open are parts. -/
theorem areParts_of_forall {ts : List Text} (hne : ts ≠ [])
    (h : ∀ t ∈ ts, Outer.nothing.after t = some .nothing) : AreParts .nothing ts := by
  induction ts with
  | nil => exact absurd rfl hne
  | cons t ts ih =>
      obtain ⟨ht, hts⟩ := List.forall_mem_cons.1 h
      by_cases hnil : ts = []
      · subst hnil
        exact .last (by rw [ht]; rfl)
      · exact .more ht (ih hnil hts)

theorem splitOuter_cons (o : Outer) (c : Char) (t : Text) :
    splitOuter o.depth o.quote (c :: t) =
      match o.step c with
      | some o => consFirst c (splitOuter o.depth o.quote t)
      | none => [] :: splitOuter 0 none t := by
  obtain ⟨depth, quote⟩ := o
  unfold Outer.step
  cases quote with
  | some q => rw [splitOuter]
  | none =>
      dsimp only
      rw [splitOuter]
      split
      · rfl
      split
      · rfl
      split
      · rfl
      split <;> rfl

/-- Splitting a text gives its parts. -/
theorem areParts_splitOuter (o : Outer) (t : Text) : AreParts o (splitOuter o.depth o.quote t) := by
  induction t generalizing o with
  | nil => exact .last rfl
  | cons c t ih =>
      rw [splitOuter_cons]
      cases hstep : o.step c with
      | some o' =>
          dsimp only
          have hparts := ih o'
          generalize splitOuter o'.depth o'.quote t = parts at hparts
          cases hparts with
          | last h => exact .last (by rwa [Outer.after_cons hstep])
          | more h hts => exact .more (by rwa [Outer.after_cons hstep]) hts
      | none =>
          have ho : o = .nothing := by
            obtain ⟨depth, quote⟩ := o
            unfold Outer.step at hstep
            cases quote with
            | some q => cases hstep
            | none =>
                dsimp only at hstep
                split at hstep
                · cases hstep
                split at hstep
                · cases hstep
                split at hstep
                · cases hstep
                split at hstep
                · rename_i hc
                  rw [hc.2]
                  rfl
                · cases hstep
          subst ho
          exact .more rfl (ih .nothing)

/-- A text without an outer comma goes to the front of the first part. -/
theorem splitOuter_append {o o' : Outer} {s : Text} (h : o.after s = some o') (t : Text) :
    splitOuter o.depth o.quote (s ++ t) = (splitOuter o'.depth o'.quote t).modifyHead (s ++ ·) := by
  induction s generalizing o with
  | nil =>
      cases h
      show _ = List.modifyHead id _
      rw [List.modifyHead_id]
      rfl
  | cons c s ih =>
      obtain ⟨o₁, hstep, hrest⟩ := Option.bind_eq_some_iff.1 h
      rw [List.cons_append, splitOuter_cons, hstep]
      have hparts := areParts_splitOuter o' t
      dsimp only
      rw [ih hrest]
      generalize splitOuter o'.depth o'.quote t = parts at hparts
      cases hparts <;> rfl

/-- Parts with commas between them are split into these parts. -/
theorem splitOuter_intercalate {o : Outer} {parts : List Text} (h : AreParts o parts) :
    splitOuter o.depth o.quote (List.intercalate [','] parts) = parts := by
  induction h with
  | @last o t h =>
      obtain ⟨o', ho⟩ := Option.isSome_iff_exists.1 h
      have hsplit := splitOuter_append ho []
      rw [List.append_nil] at hsplit
      rw [List.intercalate_singleton, hsplit]
      show [t ++ []] = [t]
      rw [List.append_nil]
  | @more o t ts h hts ih =>
      have hjoin : List.intercalate [','] (t :: ts) = t ++ ',' :: List.intercalate [','] ts := by
        cases hts <;> simp
      rw [hjoin, splitOuter_append h, splitOuter_cons]
      show List.modifyHead (t ++ ·) ([] :: splitOuter 0 none _) = t :: ts
      rw [show splitOuter 0 none (List.intercalate [','] ts) = ts from ih]
      show (t ++ []) :: ts = t :: ts
      rw [List.append_nil]

/-- Parts stay parts if what is open behind each of them stays the same. -/
theorem AreParts.map {f : Text → Text} (hf : ∀ t, Outer.nothing.after (f t) = Outer.nothing.after t)
    {ts : List Text} (h : AreParts .nothing ts) : AreParts .nothing (ts.map f) := by
  generalize ho : Outer.nothing = o at h
  induction h with
  | last h =>
      subst ho
      exact .last (by rw [hf]; exact h)
  | more h _ ih =>
      subst ho
      exact .more (by rw [hf]; exact h) (ih rfl)

/-- Some of the parts, in order, are parts too. -/
theorem AreParts.sublist {ts us : List Text} (h : AreParts .nothing ts) (hsub : us.Sublist ts)
    (hne : us ≠ []) : AreParts .nothing us := by
  generalize ho : Outer.nothing = o at h
  induction h generalizing us with
  | @last _ t h =>
      subst ho
      rcases List.sublist_singleton.1 hsub with rfl | rfl
      · exact absurd rfl hne
      · exact .last h
  | @more _ t ts h hts ih =>
      subst ho
      rcases List.sublist_cons_iff.1 hsub with hbehind | ⟨vs, rfl, hbehind⟩
      · exact ih hbehind hne rfl
      · by_cases hvs : vs = []
        · subst hvs
          exact .last (by rw [h]; rfl)
        · exact .more h (ih hbehind hvs rfl)

/-! ## Entries -/

/-- Texts without white space at their ends, none of them empty. -/
def AreTrimmed (ts : List Text) : Prop := ∀ t ∈ ts, t.trim = t ∧ t ≠ []

theorem areTrimmed_splitEntries (t : Text) : AreTrimmed (splitEntries t) := by
  intro e he
  obtain ⟨he, hne⟩ := List.mem_filter.1 he
  obtain ⟨s, -, rfl⟩ := List.mem_map.1 he
  exact ⟨Text.trim_trim s, by simpa using hne⟩

/-- The entries of a text are parts, if there are any. -/
theorem areParts_splitEntries {t : Text} (h : splitEntries t ≠ []) :
    AreParts .nothing (splitEntries t) :=
  ((areParts_splitOuter .nothing t).map Outer.after_trim).sublist List.filter_sublist h

/-- White space in front of a text belongs to no entry. -/
theorem splitEntries_append {w : Text} (hw : ∀ c ∈ w, isWhitespace c) (t : Text) :
    splitEntries (w ++ t) = splitEntries t := by
  have hblank : Outer.nothing.after w = some .nothing :=
    Outer.after_of_forall_isWhitespace Outer.isProper_nothing hw
  have hsplit : splitOuter 0 none (w ++ t) = (splitOuter 0 none t).modifyHead (w ++ ·) :=
    splitOuter_append hblank t
  unfold splitEntries
  rw [hsplit]
  cases splitOuter 0 none t with
  | nil => rfl
  | cons part parts =>
    rw [List.modifyHead_cons, List.map_cons, List.map_cons, Text.trim_append_left hw]

/-- The texts of a list without the blank ones, and without white space at the ends of the
others. -/
def nonblank (ts : List Text) : List Text := (ts.map Text.trim).filter fun e => !e.isEmpty

theorem nonblank_of_forall {ts : List Text} (h : ∀ t ∈ ts, t.trim ≠ []) :
    nonblank ts = ts.map Text.trim :=
  List.filter_eq_self.2 (List.forall_mem_map.2 fun t ht => by simpa using h t ht)

/-- Where no text is blank up to a place, the place stays that of the same text. -/
theorem getElem?_nonblank {ts : List Text} {i : Nat} (h : ∀ t ∈ ts.take (i + 1), t.trim ≠ []) :
    (nonblank ts)[i]? = ts[i]?.map Text.trim := by
  induction ts generalizing i with
  | nil => rfl
  | cons t ts ih =>
      obtain ⟨ht, hts⟩ := List.forall_mem_cons.1 h
      have hcons : nonblank (t :: ts) = t.trim :: nonblank ts :=
        List.filter_cons_of_pos (by simpa using ht)
      rw [hcons]
      cases i with
      | zero => rfl
      | succ i => exact ih hts

/-- Parts with commas between them have themselves as entries, but for the blank ones and the white
space at the ends of the others. -/
theorem splitEntries_join_eq {ts : List Text} (hparts : ts ≠ [] → AreParts .nothing ts) :
    splitEntries (Text.join ", ".toList ts) = nonblank ts := by
  cases ts with
  | nil => rfl
  | cons t ts =>
      have hblank : ∀ ts : List Text, ∀ t : Text, Text.join ", ".toList (t :: ts) =
          List.intercalate [','] (t :: ts.map (' ' :: ·)) := by
        intro ts
        induction ts with
        | nil => exact fun t => (List.intercalate_singleton).trans List.intercalate_singleton.symm
        | cons u ts ih =>
            intro t
            unfold Text.join at ih ⊢
            rw [List.intercalate_cons_cons, ih, List.map_cons, List.intercalate_cons_cons]
            cases ts <;> simp
      have hsplit : AreParts .nothing (t :: ts.map (' ' :: ·)) := by
        cases hparts (List.cons_ne_nil t ts) with
        | last h => exact .last h
        | more h hts => exact .more h (hts.map (f := (' ' :: ·)) fun _ => rfl)
      unfold splitEntries
      rw [hblank, show splitOuter 0 none _ = _ from splitOuter_intercalate hsplit, List.map_cons,
        List.map_map]
      rfl

/-- Texts without marks, with commas between them, have themselves as entries in the same way. -/
theorem splitEntries_join_of_isUnmarked {ts : List Text} (h : ∀ t ∈ ts, IsUnmarked t) :
    splitEntries (Text.join ", ".toList ts) = nonblank ts :=
  splitEntries_join_eq fun hne => areParts_of_forall hne fun t ht => (h t ht).after

/-- Trimmed parts with commas between them have themselves as entries. -/
theorem splitEntries_join {ts : List Text} (hparts : ts ≠ [] → AreParts .nothing ts)
    (htrimmed : AreTrimmed ts) : splitEntries (Text.join ", ".toList ts) = ts := by
  have hnonblank : ∀ t ∈ ts, t.trim ≠ [] := fun t ht => (htrimmed t ht).1.symm ▸ (htrimmed t ht).2
  rw [splitEntries_join_eq hparts, nonblank_of_forall hnonblank]
  exact (List.map_congr_left fun s hs => (htrimmed s hs).1).trans (List.map_id _)

end Template

end Fillout
