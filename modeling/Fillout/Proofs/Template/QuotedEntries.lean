import Fillout.Proofs.Expr.Nesting
import Fillout.Proofs.Template.Entries

set_option autoImplicit false

/-! # Lists of names and expressions

A list of entries is written with commas between them, and `splitOuter` has its own idea of what is
quoted: a quotation ends at the next mark of its kind, escaped or not, and a mark in a word opens
one as well. Over an expression it goes along with the reader as long as no quotation has its own
mark in it and all words close the quotations that they open (`QuotesAlike`). Outside quotations it
then has as many parentheses open as the reader has lists on its stack (`Along.turn`), so behind the
expression nothing is open (`QuotesAlike.after_of_whole`).

A list of names and of such expressions is split into these again. In general it is so exactly if
each of them is a part for itself (`splitEntries_join_of_isWritten`): an expression that leaves a
quotation open takes the next comma for its own.
-/

namespace Fillout

namespace Template.Outer

open Fillout.Expr (readQuoted?)

/-! ## What splitting takes for quoted -/

/-- The quotation mark that is open behind a character, if `quote` is the one in front of it. -/
def markStep (quote : Option Char) (c : Char) : Option Char :=
  match quote with
  | some q => if c = q then none else some q
  | none => if c = '"' ∨ c = '\'' then some c else none

variable {t : Text} {c q : Char}

theorem step_of_isMark (hc : c = '"' ∨ c = '\'') (depth : Nat) :
    step ⟨depth, none⟩ c = some ⟨depth, some c⟩ := if_pos hc

/-- In parentheses a character that is none leaves them as they are. -/
theorem step_of_ne_paren (hopen : c ≠ '(') (hclose : c ≠ ')') (depth : Nat) (quote : Option Char) :
    step ⟨depth + 1, quote⟩ c = some ⟨depth + 1, markStep quote c⟩ := by
  unfold step markStep
  cases quote with
  | some q => rfl
  | none =>
      dsimp only
      by_cases hmark : c = '"' ∨ c = '\''
      · rw [if_pos hmark, if_pos hmark]
      · rw [if_neg hmark, if_neg hopen, if_neg hclose, if_neg fun h => Nat.succ_ne_zero depth h.2,
          if_neg hmark]

theorem after_of_ne_paren (ht : ∀ c ∈ t, c ≠ '(' ∧ c ≠ ')') (depth : Nat) (quote : Option Char) :
    after ⟨depth + 1, quote⟩ t = some ⟨depth + 1, t.foldl markStep quote⟩ := by
  induction t generalizing quote with
  | nil => rfl
  | cons c t ih =>
      obtain ⟨⟨hopen, hclose⟩, ht⟩ := List.forall_mem_cons.1 ht
      rw [after_cons (step_of_ne_paren hopen hclose depth quote), ih ht, List.foldl_cons]

theorem step_quoted_mark (depth : Nat) (q : Char) :
    step ⟨depth, some q⟩ q = some ⟨depth, none⟩ := by
  simp [step]

theorem step_quoted_of_ne (hc : c ≠ q) (depth : Nat) :
    step ⟨depth, some q⟩ c = some ⟨depth, some q⟩ := by
  simp [step, hc]

/-- Without its mark in it, a quotation ends where the reader finds its end. -/
theorem after_readQuoted? (hq : q ≠ '\\') (depth : Nat) {text rest : Text}
    (h : readQuoted? q t = some (text, rest)) (hmark : q ∉ text) :
    ∃ before, t = before ++ rest ∧ after ⟨depth, some q⟩ before = some ⟨depth, none⟩ := by
  fun_induction readQuoted? q t generalizing text with
  | case1 => cases h
  | case2 =>
    cases h
    exact ⟨[q], rfl, after_cons (step_quoted_mark depth q) []⟩
  | case3 => cases h
  | case4 =>
    cases h
    exact ⟨[q], rfl, after_cons (step_quoted_mark depth q) []⟩
  | case5 d rest' _ ih =>
    obtain ⟨⟨text, rest⟩, hread, he⟩ := Option.map_eq_some_iff.1 h
    cases he
    -- what stands behind the sign of the escape is not the mark
    obtain ⟨hd, htext⟩ : d ≠ q ∧ q ∉ text := by
      constructor
      · rintro rfl
        exact hmark (by simp)
      · intro hmem
        exact hmark (by split <;> simp [hmem])
    obtain ⟨before, rfl, hafter⟩ := ih hread htext
    refine ⟨'\\' :: d :: before, rfl, ?_⟩
    rw [after_cons (step_quoted_of_ne hq.symm depth),
      after_cons (step_quoted_of_ne hd depth), hafter]
  | case6 c d rest' hne _ ih =>
    obtain ⟨⟨text, rest⟩, hread, he⟩ := Option.map_eq_some_iff.1 h
    cases he
    obtain ⟨before, hbefore, hafter⟩ := ih hread fun hmem => hmark (List.mem_cons_of_mem c hmem)
    refine ⟨c :: before, by rw [hbefore]; rfl, ?_⟩
    rw [after_cons (step_quoted_of_ne hne depth), hafter]

end Template.Outer

namespace Expr

open Template (Outer)

/-! ## Atoms between quotation marks -/

/-- The atoms of a text that are quotations, each with its mark. -/
def quotations : Text → List (Char × Text)
  | [] => []
  | c :: rest =>
      if endsWord c then quotations rest
      else if (quotedAt? c rest).isSome then
        (c, (readAtom c rest).1) :: quotations (readAtom c rest).2
      else quotations (readAtom c rest).2
termination_by t => t.length
decreasing_by
  · exact Nat.lt_succ_self _
  · exact Nat.lt_succ_of_le (length_readAtom c rest)
  · exact Nat.lt_succ_of_le (length_readAtom c rest)

/-- The words of a text close the quotations that they open, and no quotation has its own mark in
it. -/
structure QuotesAlike (t : Text) : Prop where
  words : ∀ w ∈ bareWords t, w.foldl Outer.markStep none = none
  quotations : ∀ p ∈ quotations t, p.1 ∉ p.2

instance (t : Text) : Decidable (QuotesAlike t) :=
  decidable_of_iff
    ((∀ w ∈ bareWords t, w.foldl Outer.markStep none = none) ∧ ∀ p ∈ quotations t, p.1 ∉ p.2)
    ⟨fun h => ⟨h.1, h.2⟩, fun h => ⟨h.1, h.2⟩⟩

variable {source t rest : Text} {c : Char} {e : Expr} {r r' : Reader}

theorem quotations_cons (c : Char) (rest : Text) :
    quotations (c :: rest) =
      if endsWord c then quotations rest
      else if (quotedAt? c rest).isSome then
        (c, (readAtom c rest).1) :: quotations (readAtom c rest).2
      else quotations (readAtom c rest).2 :=
  quotations.eq_def (c :: rest)

theorem QuotesAlike.tail (hc : endsWord c = true) (h : QuotesAlike (c :: rest)) :
    QuotesAlike rest where
  words w hw := h.words w (by rwa [bareWords_of_endsWord hc])
  quotations p hp := h.quotations p (by rwa [quotations_cons, if_pos hc])

theorem QuotesAlike.readAtom (hc : endsWord c = false) (h : QuotesAlike (c :: rest)) :
    QuotesAlike (readAtom c rest).2 where
  words w hw := h.words w (mem_bareWords_of_readAtom hc hw)
  quotations p hp := by
    refine h.quotations p ?_
    rw [quotations_cons, hc, if_neg Bool.false_ne_true]
    split
    · exact List.mem_cons_of_mem _ hp
    · exact hp

/-! ## Splitting along with the reader -/

/-- Where `rest` is left of `source`, splitting has `depth` parentheses open, and no quotation. -/
def OpenAt (source rest : Text) (depth : Nat) : Prop :=
  ∃ before, source = before ++ rest ∧ Outer.nothing.after before = some ⟨depth, none⟩

theorem OpenAt.on {depth depth' : Nat} (h : OpenAt source (t ++ rest) depth)
    (ht : (Outer.mk depth none).after t = some ⟨depth', none⟩) : OpenAt source rest depth' := by
  obtain ⟨before, hsource, hbefore⟩ := h
  refine ⟨before ++ t, by rw [hsource, List.append_assoc], ?_⟩
  rw [Outer.after_append, hbefore, Option.bind_some, ht]

theorem OpenAt.blank {depth : Nat} (h : OpenAt source (t ++ rest) depth)
    (ht : ∀ c ∈ t, Unicode.isWhitespace c = true) : OpenAt source rest depth :=
  h.on (Outer.after_of_forall_isWhitespace (by rintro _ ⟨⟩) ht)

/-- In a list an atom opens and closes nothing. -/
theorem OpenAt.readAtom {depth : Nat} (hc : endsWord c = false) (halike : QuotesAlike (c :: rest))
    (h : OpenAt source (c :: rest) (depth + 1)) :
    OpenAt source (readAtom c rest).2 (depth + 1) := by
  rw [readAtom_eq]
  cases hquoted : quotedAt? c rest with
  | none =>
      have hparens : ∀ d ∈ (wordAt c rest).1, d ≠ '(' ∧ d ≠ ')' :=
        fun d hd => (endsWord_eq_false.1 (endsWord_of_mem_wordAt hc hd)).2
      have hcloses := halike.words (wordAt c rest).1 (by rw [bareWords_of_word hc hquoted]; simp)
      rw [← wordAt_append c rest] at h
      exact h.on (by rw [Outer.after_of_ne_paren hparens, hcloses])
  | some p =>
      obtain ⟨text, after⟩ := p
      obtain ⟨hmark, hread⟩ := quotedAt?_eq_some.1 hquoted
      have hne : c ≠ '\\' := by
        rintro rfl
        exact absurd hmark (by decide)
      have hmem : (c, text) ∈ quotations (c :: rest) := by
        rw [quotations_cons, hc, if_neg Bool.false_ne_true, hquoted, readAtom_eq, hquoted]
        simp
      obtain ⟨before, rfl, hafter⟩ :=
        Outer.after_readQuoted? hne (depth + 1) hread (halike.quotations _ hmem)
      refine OpenAt.on (t := c :: before) h ?_
      rw [Outer.after_cons (Outer.step_of_isMark hmark _), hafter]

/-- Splitting has open what the reader has on its stack, and no atom that is left confuses it. Lists
are open all the time, so that no comma is an outer one. -/
structure Along (source : Text) (r : Reader) : Prop where
  openAt : OpenAt source r.left r.stack.length
  pos : 0 < r.stack.length
  alike : QuotesAlike r.left

/-- A turn of the reader keeps splitting along. -/
theorem Along.turn (h : Along source r) (hturn : r.Turn r') : Along source r' := by
  obtain ⟨hopen, hpos, halike⟩ := h
  cases hturn with
  | @blank stack c rest hc =>
      have hends : endsWord c = true := by rw [endsWord, hc]; rfl
      exact ⟨hopen.blank (t := [c]) (by simpa using hc), hpos, halike.tail hends⟩
  | opening => exact ⟨hopen.on (t := ['(']) rfl, Nat.succ_pos _, halike.tail (by decide)⟩
  | closing => exact ⟨hopen.on (t := [')']) rfl, Nat.succ_pos _, halike.tail (by decide)⟩
  | atom hc => exact ⟨hopen.readAtom hc halike, hpos, halike.readAtom hc⟩

theorem Along.of_comes (h : Along source r) (hcomes : r.Comes r') : Along source r' := by
  induction hcomes with
  | refl => exact h
  | tail _ hturn ih => exact ih.turn hturn

/-- Behind an expression in parentheses nothing is open. -/
theorem QuotesAlike.after_of_whole (halike : QuotesAlike t) (hlist : t.head? = some '(')
    (hread : readWhole? t = some e) : Outer.nothing.after t = some .nothing := by
  obtain ⟨inner, rfl⟩ : ∃ inner, t = '(' :: inner := by
    cases t with
    | nil => cases hlist
    | cons c t =>
        cases hlist
        exact ⟨t, rfl⟩
  obtain ⟨rest, hread, hblank⟩ := readWhole?_eq_some.1 hread
  have hstart : Along ('(' :: inner) ⟨[[]], inner⟩ :=
    ⟨⟨['('], rfl, rfl⟩, Nat.one_pos, halike.tail (by decide)⟩
  have hread : Reader.read ⟨[[]], inner⟩ = some (e, rest) :=
    (Reader.read_of_turn (r := ⟨[], '(' :: inner⟩) .opening).symm.trans hread
  obtain ⟨r, hcomes, hend⟩ := Reader.read_eq_some_iff.1 hread
  obtain ⟨hopen, hpos, -⟩ := hstart.of_comes hcomes
  cases hend with
  | atom => exact absurd hpos (Nat.lt_irrefl 0)
  | list =>
      have hbehind : OpenAt ('(' :: inner) (rest ++ []) 0 := by
        rw [List.append_nil]
        exact hopen.on (t := [')']) rfl
      obtain ⟨before, he, hafter⟩ := hbehind.blank hblank
      rw [he, List.append_nil, hafter]
      rfl

end Expr

namespace Template

open Fillout.Expr (QuotesAlike readWhole?)

/-! ## Lists of entries -/

namespace Entry

/-- The text of an entry, as it stands in a body. -/
def text : Entry → Text
  | .variable name => name
  | .expression t => t

/-- The entry is written as a name without commas, parentheses and quotation marks, or as an
expression in parentheses, without white space at the ends. -/
def IsWritten : Entry → Prop
  | .variable name => name ≠ [] ∧ name.trim = name ∧ ∀ c ∈ name, c ∉ [',', '(', ')', '"', '\'']
  | .expression t => t.head? = some '(' ∧ t.trim = t ∧ (readWhole? t).isSome

/-- What splitting takes for quoted in an expression is what the reader takes for quoted. -/
def QuotesAlike : Entry → Prop
  | .variable _ => True
  | .expression t => Expr.QuotesAlike t

variable {e : Entry}

theorem IsWritten.trimmed (h : e.IsWritten) : e.text.trim = e.text ∧ e.text ≠ [] := by
  match e with
  | .variable name => exact ⟨h.2.1, h.1⟩
  | .expression t =>
      refine ⟨h.2.1, fun he => ?_⟩
      rw [show t = [] from he] at h
      exact nomatch h.1

/-- A written entry is what its text is taken for. -/
theorem IsWritten.ofText_text (h : e.IsWritten) : ofText e.text = e := by
  match e with
  | .variable name =>
      refine if_neg fun hhead => ?_
      exact h.2.2 '(' (List.mem_of_mem_head? hhead) (by decide)
  | .expression t => exact if_pos h.1

/-- A written name is split into itself. -/
theorem IsWritten.splitEntries_eq {name : Text} (h : (Entry.variable name).IsWritten) :
    splitEntries name = [name] := by
  have hjoin : Text.join ", ".toList [name] = name := List.intercalate_singleton
  have hsplit := splitEntries_join_of_isUnmarked (List.forall_mem_singleton.2 h.2.2)
  have hnonblank : ∀ t ∈ [name], t.trim ≠ [] := List.forall_mem_singleton.2 (h.2.1.symm ▸ h.1)
  rwa [hjoin, nonblank_of_forall hnonblank, List.map_singleton, h.2.1] at hsplit

/-- A written name is the only entry of a container around it. -/
theorem IsWritten.entries_eq {name : Text} (h : (Entry.variable name).IsWritten) :
    entries name = [.variable name] := by
  rw [entries, h.splitEntries_eq, List.map_singleton]
  exact congrArg (fun e => [e]) h.ofText_text

theorem IsWritten.after (h : e.IsWritten) (halike : e.QuotesAlike) :
    Outer.nothing.after e.text = some .nothing := by
  match e with
  | .variable name => exact IsUnmarked.after h.2.2
  | .expression t =>
      obtain ⟨e, hread⟩ := Option.isSome_iff_exists.1 h.2.2
      exact halike.after_of_whole h.1 hread

end Entry

/-- Names and expressions with commas between them are split into themselves again exactly if each
of them is a part for itself. Then they are the entries of the whole, of the same kinds. This is so
if in each expression no quotation has its own mark in it, and all words close the quotations that
they open. -/
theorem splitEntries_join_of_isWritten {es : List Entry} (hes : ∀ e ∈ es, e.IsWritten) :
    let texts := es.map Entry.text
    let body := Text.join ", ".toList texts
    (splitEntries body = texts ↔ texts = [] ∨ AreParts .nothing texts) ∧
      (splitEntries body = texts → entries body = es) ∧
      ((∀ e ∈ es, e.QuotesAlike) → splitEntries body = texts) := by
  intro texts body
  have htrimmed : AreTrimmed texts := by
    intro t ht
    obtain ⟨e, he, rfl⟩ := List.mem_map.1 ht
    exact (hes e he).trimmed
  have hsplit : splitEntries body = texts ↔ texts = [] ∨ AreParts .nothing texts := by
    constructor
    · intro h
      by_cases hnil : texts = []
      · exact .inl hnil
      · have hparts := areParts_splitEntries (t := body) (by rwa [h])
        rw [h] at hparts
        exact .inr hparts
    · intro h
      exact splitEntries_join (fun hne => h.resolve_left hne) htrimmed
  refine ⟨hsplit, fun h => ?_, fun halike => hsplit.2 ?_⟩
  · have hkinds : texts.map Entry.ofText = es := by
      rw [List.map_map]
      exact (List.map_congr_left fun e he => (hes e he).ofText_text).trans (List.map_id es)
    rw [entries, h, hkinds]
  · by_cases hnil : texts = []
    · exact .inl hnil
    · refine .inr (areParts_of_forall hnil fun t ht => ?_)
      obtain ⟨e, he, rfl⟩ := List.mem_map.1 ht
      exact (hes e he).after (halike e he)

/-- Names, an expression with commas and parentheses in quotations and a word that closes its
quotation, and an empty expression. -/
theorem splitEntries_join_of_isWritten_quotations :
    let es : List Entry := [.variable "a b".toList,
      .expression "(or \"x, (y\" c's' '\\\\')".toList, .expression "()".toList, .variable ['d']]
    let body := "a b, (or \"x, (y\" c's' '\\\\'), (), d".toList
    (∀ e ∈ es, e.IsWritten) ∧ (∀ e ∈ es, e.QuotesAlike) ∧
      Text.join ", ".toList (es.map Entry.text) = body ∧
      splitEntries body = es.map Entry.text ∧ entries body = es := by
  intro es body
  have hread : (readWhole? "(or \"x, (y\" c's' '\\\\')".toList).isSome := by with_unfolding_all rfl
  have hempty : (readWhole? "()".toList).isSome := by with_unfolding_all rfl
  have hes : ∀ e ∈ es, e.IsWritten := by
    simp only [es, List.forall_mem_cons]
    exact ⟨⟨by decide, by decide +kernel, by simp⟩, ⟨by decide, by decide +kernel, hread⟩,
      ⟨by decide, by decide +kernel, hempty⟩, ⟨by decide, by decide +kernel, by simp⟩,
      List.forall_mem_nil _⟩
  have halike : ∀ e ∈ es, e.QuotesAlike := by
    simp only [es, List.forall_mem_cons]
    have hor : QuotesAlike "(or \"x, (y\" c's' '\\\\')".toList := by decide +kernel
    have hnone : QuotesAlike "()".toList := by decide +kernel
    exact ⟨trivial, hor, hnone, trivial, List.forall_mem_nil _⟩
  have hbody : Text.join ", ".toList (es.map Entry.text) = body := by decide +kernel
  obtain ⟨-, hentries, hsplit⟩ := splitEntries_join_of_isWritten hes
  rw [hbody] at hentries hsplit
  exact ⟨hes, halike, hbody, hsplit halike, hentries (hsplit halike)⟩

/-- A mark that is escaped in a quotation, or one in a word, takes the next comma for quoted. -/
theorem splitEntries_join_swallowed :
    (Entry.expression "(equal \"a\\\"b\" x)".toList).IsWritten ∧
      (Entry.expression "(a'b)".toList).IsWritten ∧ (Entry.variable ['c']).IsWritten ∧
      splitEntries (Text.join ", ".toList ["(equal \"a\\\"b\" x)".toList, ['c']]) =
        ["(equal \"a\\\"b\" x), c".toList] ∧
      splitEntries (Text.join ", ".toList ["(a'b)".toList, ['c']]) = ["(a'b), c".toList] := by
  have hescaped : (readWhole? "(equal \"a\\\"b\" x)".toList).isSome := by with_unfolding_all rfl
  have hword : (readWhole? "(a'b)".toList).isSome := by with_unfolding_all rfl
  exact ⟨⟨by decide, by decide +kernel, hescaped⟩, ⟨by decide, by decide +kernel, hword⟩,
    ⟨by decide, by decide +kernel, by simp⟩, by decide +kernel, by decide +kernel⟩

end Template

end Fillout
