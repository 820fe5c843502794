import Fillout.Proofs.Expr.Nesting
import Fillout.Template

set_option autoImplicit false

/-! # The words of an expression

The words of a text are what stands between white space, parentheses and quotation marks, wherever
these stand. The reader takes an expression apart in another way: blanks in a quotation belong to an
atom, so do quotation marks in a bare word, and an escape is read as one character.

`Spells ws atoms` says what words and atoms have to do with each other all the same. An atom that is
one word is one of the words; and a word is one of the atoms, unless some atom is more than one
word. Nothing is said of words and atoms with backslashes. Each atom is spelled by the words of the
part of the text that it is read from (`words_readAtom`), a turn of the reader takes such a part
from what is left (`Spelled.turn`), and so the words of a text spell the atoms of the expression
that it is parsed as (`spells_of_parse`).
-/

namespace Fillout

namespace Template

variable {s t v w : Text} {c : Char}

/-! ## Words -/

/-- A text without a boundary, which is one word unless it is empty. -/
def IsOneWord (t : Text) : Prop := ∀ c ∈ t, isWordBoundary c = false

instance (t : Text) : Decidable (IsOneWord t) := List.decidableBAll _ t

/-- The words of a text, in order. -/
def words (t : Text) : List Text := (t.splitOnP isWordBoundary).filter fun w => !w.isEmpty

theorem hasWord_iff (hv : v ≠ []) : hasWord t v = true ↔ v ∈ words t := by
  rw [words, List.mem_filter, and_iff_left (by simpa using hv), hasWord, List.contains_iff_mem]

theorem words_append_boundary (hc : isWordBoundary c = true) (s t : Text) :
    words (s ++ c :: t) = words s ++ words t := by
  unfold words
  rw [List.splitOnP_append_cons s t hc, List.filter_append]

/-- A boundary in front of a text belongs to no word. -/
theorem words_cons_boundary (hc : isWordBoundary c = true) (t : Text) : words (c :: t) = words t :=
  words_append_boundary hc [] t

/-- What begins with a boundary ends the word in front of it. -/
theorem words_append (s : Text) (ht : ∀ c ∈ t.head?, isWordBoundary c = true) :
    words (s ++ t) = words s ++ words t := by
  cases t with
  | nil => exact (congrArg words (List.append_nil s)).trans (List.append_nil _).symm
  | cons c t =>
      have hc := ht c rfl
      rw [words_append_boundary hc, words_cons_boundary hc]

theorem words_eq_nil (h : ∀ c ∈ t, isWordBoundary c = true) : words t = [] := by
  induction t with
  | nil => rfl
  | cons c t ih =>
      obtain ⟨hc, ht⟩ := List.forall_mem_cons.1 h
      rw [words_cons_boundary hc, ih ht]

/-- One word is the only word of itself. -/
theorem IsOneWord.mem_words (h : IsOneWord t) : w ∈ words t ↔ w = t ∧ w ≠ [] := by
  rw [words, List.splitOnP_eq_singleton h, List.mem_filter, List.mem_singleton]
  simp

/-- There is no boundary in a word. -/
theorem isOneWord_of_mem_words (hw : w ∈ words t) : IsOneWord w := by
  have hparts : ∀ t : Text, ∀ w ∈ t.splitOnP isWordBoundary, IsOneWord w := by
    intro t
    induction t with
    | nil => simp [IsOneWord]
    | cons d t ih =>
        intro w hw
        rw [List.splitOnP_cons_eq_if_modifyHead] at hw
        split at hw
        · rcases List.mem_cons.1 hw with rfl | hw
          · exact List.forall_mem_nil _
          · exact ih w hw
        · rename_i hd
          obtain ⟨part, parts, hsplit⟩ :=
            List.exists_cons_of_ne_nil (List.splitOnP_ne_nil isWordBoundary t)
          rw [hsplit] at hw ih
          obtain ⟨hpart, hparts⟩ := List.forall_mem_cons.1 ih
          rcases List.mem_cons.1 hw with rfl | hw
          · exact List.forall_mem_cons.2 ⟨eq_false_of_ne_true hd, hpart⟩
          · exact hparts w hw
  exact hparts t w (List.mem_filter.1 hw).1

theorem isWordBoundary_of_endsWord (hc : Expr.endsWord c = true) : isWordBoundary c = true := by
  unfold Expr.endsWord at hc
  simp only [isWordBoundary, hc, Bool.true_or]

theorem isWordBoundary_of_isMark (hc : c = '"' ∨ c = '\'') : isWordBoundary c = true := by
  rcases hc with rfl | rfl <;> decide

end Template

namespace Expr

open Template (isWordBoundary IsOneWord words words_append words_append_boundary words_cons_boundary
  isWordBoundary_of_endsWord isWordBoundary_of_isMark)

variable {source t rest : Text} {c q : Char} {e : Expr} {r r' : Reader}
  {ws ws' atoms atoms' : List Text}

/-! ## Words and atoms -/

/-- Words that spell atoms: an atom that is one word is one of the words, and a word is one of the
atoms, unless some atom is more than one word. -/
structure Spells (ws atoms : List Text) : Prop where
  mem_words : ∀ a ∈ atoms, a ≠ [] → IsOneWord a → '\\' ∉ a → a ∈ ws
  mem_atoms : ∀ w ∈ ws, '\\' ∉ w → w ∈ atoms ∨ ∃ a ∈ atoms, ¬ IsOneWord a

theorem spells_nil : Spells [] [] := ⟨List.forall_mem_nil _, List.forall_mem_nil _⟩

theorem Spells.append (h : Spells ws atoms) (h' : Spells ws' atoms') :
    Spells (ws ++ ws') (atoms ++ atoms') where
  mem_words a ha hne hb hs := by
    rcases List.mem_append.1 ha with ha | ha
    · exact List.mem_append_left _ (h.mem_words a ha hne hb hs)
    · exact List.mem_append_right _ (h'.mem_words a ha hne hb hs)
  mem_atoms w hw hs := by
    rcases List.mem_append.1 hw with hw | hw
    · exact (h.mem_atoms w hw hs).imp (List.mem_append_left _) fun ⟨a, ha, hc⟩ =>
        ⟨a, List.mem_append_left _ ha, hc⟩
    · exact (h'.mem_atoms w hw hs).imp (List.mem_append_right _) fun ⟨a, ha, hc⟩ =>
        ⟨a, List.mem_append_right _ ha, hc⟩

/-- The order of the atoms does not matter. -/
theorem Spells.congr (h : Spells ws atoms) (hmem : ∀ a, a ∈ atoms ↔ a ∈ atoms') :
    Spells ws atoms' where
  mem_words a ha := h.mem_words a ((hmem a).2 ha)
  mem_atoms w hw hs :=
    (h.mem_atoms w hw hs).imp (hmem w).1 fun ⟨a, ha, hc⟩ => ⟨a, (hmem a).1 ha, hc⟩

/-! ## One atom -/

/-- What stands between quotation marks is read as it stands there, but for escapes. -/
theorem exists_body_of_readQuoted? {text after : Text} (h : readQuoted? q t = some (text, after)) :
    ∃ body, t = body ++ q :: after ∧ ('\\' ∉ text → q ∉ text → body = text) ∧
      ('\\' ∉ body → body = text) ∧ ∀ c ∈ body, c ∈ text ∨ c = '\\' := by
  fun_induction readQuoted? q t generalizing text with
  | case1 => cases h
  | case2 =>
    cases h
    exact ⟨[], rfl, fun _ _ => rfl, fun _ => rfl, List.forall_mem_nil _⟩
  | case3 => cases h
  | case4 =>
    cases h
    exact ⟨[], rfl, fun _ _ => rfl, fun _ => rfl, List.forall_mem_nil _⟩
  | case5 d rest _ ih =>
    obtain ⟨⟨text, after⟩, hrest, he⟩ := Option.map_eq_some_iff.1 h
    cases he
    obtain ⟨body, rfl, -, -, hchars⟩ := ih hrest
    refine ⟨'\\' :: d :: body, rfl, fun hslash hmark => ?_, fun hslash => ?_, ?_⟩
    · -- an escape leaves a mark or a backslash
      by_cases hd : d = q ∨ d = '\\'
      · rw [if_pos hd] at hslash hmark
        rcases hd with rfl | rfl
        · exact absurd List.mem_cons_self hmark
        · exact absurd List.mem_cons_self hslash
      · rw [if_neg hd] at hslash
        exact absurd List.mem_cons_self hslash
    · exact absurd List.mem_cons_self hslash
    · refine List.forall_mem_cons.2 ⟨.inr rfl, List.forall_mem_cons.2 ⟨.inl ?_, fun c hc => ?_⟩⟩
      · split <;> simp
      · refine (hchars c hc).imp_left fun hmem => ?_
        split <;> simp [hmem]
  | case6 c d rest hne _ ih =>
    obtain ⟨⟨text, after⟩, hrest, he⟩ := Option.map_eq_some_iff.1 h
    cases he
    obtain ⟨body, hbody, hsame, hplain, hchars⟩ := ih hrest
    refine ⟨c :: body, by rw [hbody]; rfl, fun hslash hmark => ?_, fun hslash => ?_, ?_⟩
    · rw [hsame (fun hm => hslash (List.mem_cons_of_mem c hm)) fun hm =>
        hmark (List.mem_cons_of_mem c hm)]
    · rw [hplain fun hm => hslash (List.mem_cons_of_mem c hm)]
    · refine List.forall_mem_cons.2 ⟨.inl List.mem_cons_self, fun d hd => ?_⟩
      exact (hchars d hd).imp_left (List.mem_cons_of_mem c)

/-- The words of a text spell the atom that it is read as, if the two are the same but for
escapes. -/
theorem spells_of_body {body text : Text}
    (hsame : '\\' ∉ text → IsOneWord text → body = text)
    (hplain : '\\' ∉ body → body = text) (hchars : ∀ c ∈ body, c ∈ text ∨ c = '\\') :
    Spells (words body) [text] where
  mem_words := by
    refine List.forall_mem_singleton.2 fun hne hb hs => ?_
    rw [hsame hs hb]
    exact hb.mem_words.2 ⟨rfl, hne⟩
  mem_atoms w hw hs := by
    by_cases hb : IsOneWord text
    · have hbody : IsOneWord body := by
        intro c hc
        rcases hchars c hc with hmem | rfl
        · exact hb c hmem
        · decide
      obtain ⟨rfl, -⟩ := hbody.mem_words.1 hw
      exact .inl (List.mem_singleton.2 (hplain hs))
    · exact .inr ⟨text, List.mem_singleton_self _, hb⟩

/-- An atom is spelled by the words of the part of the text that it is read from. -/
theorem words_readAtom (c : Char) (rest : Text) :
    ∃ ws, words (c :: rest) = ws ++ words (readAtom c rest).2 ∧
      Spells ws [(readAtom c rest).1] := by
  rw [readAtom_eq]
  cases hquoted : quotedAt? c rest with
  | none =>
      have hbehind : ∀ d ∈ (wordAt c rest).2.head?, isWordBoundary d = true := by
        intro d hd
        have hends := List.head?_dropWhile_not (fun d => !endsWord d) rest
        rw [show (rest.dropWhile fun d => !endsWord d).head? = some d from hd] at hends
        exact isWordBoundary_of_endsWord (by simpa using hends)
      refine ⟨words (wordAt c rest).1, ?_,
        spells_of_body (fun _ _ => rfl) (fun _ => rfl) fun d => .inl⟩
      rw [← wordAt_append c rest]
      exact words_append _ hbehind
  | some p =>
      obtain ⟨text, after⟩ := p
      obtain ⟨hmark, hread⟩ := quotedAt?_eq_some.1 hquoted
      have hbound := isWordBoundary_of_isMark hmark
      obtain ⟨body, rfl, hsame, hplain, hchars⟩ := exists_body_of_readQuoted? hread
      refine ⟨words body, ?_, spells_of_body (fun hs hb => hsame hs fun hm => ?_) hplain hchars⟩
      · rw [words_cons_boundary hbound, words_append_boundary hbound]
        rfl
      · exact absurd (hb c hm) (by simp [hbound])

/-! ## Along with the reader -/

/-- The atoms of the items of the lists that are open. -/
def heldAtoms (stack : List (List Expr)) : List Text := stack.flatMap atomsOfItems

/-- The words of `source` in front of what is left of it spell the atoms. -/
def Spelled (source : Text) (atoms : List Text) (left : Text) : Prop :=
  ∃ ws, words source = ws ++ words left ∧ Spells ws atoms

theorem Spelled.skip (hc : isWordBoundary c = true) (h : Spelled source atoms (c :: rest)) :
    Spelled source atoms rest := by
  obtain ⟨ws, he, hws⟩ := h
  exact ⟨ws, by rw [he, words_cons_boundary hc], hws⟩

theorem Spelled.readAtom (h : Spelled source atoms (c :: rest)) :
    Spelled source (atoms ++ [(readAtom c rest).1]) (readAtom c rest).2 := by
  obtain ⟨ws, he, hws⟩ := h
  obtain ⟨ws', he', hws'⟩ := words_readAtom c rest
  exact ⟨ws ++ ws', by rw [he, he', List.append_assoc], hws.append hws'⟩

theorem Spelled.congr (h : Spelled source atoms rest) (hmem : ∀ a, a ∈ atoms ↔ a ∈ atoms') :
    Spelled source atoms' rest := by
  obtain ⟨ws, he, hws⟩ := h
  exact ⟨ws, he, hws.congr hmem⟩

theorem atomsOfItems_append (items items' : List Expr) :
    atomsOfItems (items ++ items') = atomsOfItems items ++ atomsOfItems items' := by
  induction items with
  | nil => rfl
  | cons item items ih => rw [List.cons_append, atomsOfItems, atomsOfItems, ih, List.append_assoc]

theorem mem_atomsOfItems_reverse {items : List Expr} {a : Text} :
    a ∈ atomsOfItems items.reverse ↔ a ∈ atomsOfItems items := by
  induction items with
  | nil => rfl
  | cons item items ih =>
      rw [List.reverse_cons, atomsOfItems_append, List.mem_append, ih, atomsOfItems, atomsOfItems,
        atomsOfItems, List.append_nil, List.mem_append, or_comm]

/-- The words that a turn takes from what is left spell the atoms that it adds to the open lists. -/
theorem Spelled.turn (h : Spelled source (heldAtoms r.stack) r.left) (hturn : r.Turn r') :
    Spelled source (heldAtoms r'.stack) r'.left := by
  cases hturn with
  | blank hc =>
      refine h.skip (isWordBoundary_of_endsWord ?_)
      rw [endsWord, hc]
      rfl
  | opening => exact h.skip (by decide)
  | closing =>
      refine (h.skip (by decide)).congr fun a => ?_
      simp only [heldAtoms, List.flatMap_cons, atomsOfItems, atoms, List.mem_append,
        mem_atomsOfItems_reverse, or_assoc]
  | atom =>
      refine h.readAtom.congr fun a => ?_
      simp only [heldAtoms, List.flatMap_cons, atomsOfItems, atoms, List.mem_append, or_comm,
        or_assoc]

theorem Spelled.of_comes (hcomes : Reader.Comes ⟨[], source⟩ r) :
    Spelled source (heldAtoms r.stack) r.left := by
  induction hcomes with
  | refl => exact ⟨[], rfl, spells_nil⟩
  | tail _ hturn ih => exact ih.turn hturn

theorem Spelled.ends (h : Spelled source (heldAtoms r.stack) r.left) (hend : r.Ends e rest) :
    Spelled source e.atoms rest := by
  cases hend with
  | list =>
      refine (h.skip (by decide)).congr fun a => ?_
      simp only [heldAtoms, List.flatMap_cons, List.flatMap_nil, List.append_nil, atoms,
        mem_atomsOfItems_reverse]
  | atom => exact h.readAtom

theorem words_closed (t : Text) : words (closed t) = words t := by
  have hclosings : ∀ c ∈ List.replicate (Scan.of t).depth ')', isWordBoundary c = true := by
    intro c hc
    rw [List.eq_of_mem_replicate hc]
    decide
  rw [closed, words_append t fun c hc => hclosings c (List.mem_of_mem_head? hc),
    Template.words_eq_nil hclosings, List.append_nil]

/-- The words of a text spell the atoms of the expression that it is parsed as. -/
theorem spells_of_parse (h : parse t = .ok e) : Spells (words t) e.atoms := by
  obtain ⟨-, hwhole⟩ := parse_eq_ok.1 h
  obtain ⟨rest, hread, hblank⟩ := readWhole?_eq_some.1 hwhole
  have hread : Reader.read ⟨[], closed t⟩ = some (e, rest) := hread
  obtain ⟨r, hcomes, hend⟩ := Reader.read_eq_some_iff.1 hread
  obtain ⟨ws, he, hws⟩ := (Spelled.of_comes hcomes).ends hend
  have hrest : words rest = [] := by
    refine Template.words_eq_nil fun c hc => isWordBoundary_of_endsWord ?_
    rw [endsWord, hblank c hc]
    rfl
  rw [words_closed, hrest, List.append_nil] at he
  rwa [he]

end Expr

end Fillout
