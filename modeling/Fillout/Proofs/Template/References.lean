import Fillout.Proofs.Expr.Words
import Fillout.Proofs.Template.Entries
import Fillout.Proofs.Template.Flat

set_option autoImplicit false

/-! # References to variables

Whether a text refers to a variable is read off the text of its containers: a variable is referred
to by a bare entry, or by a word of an expression. `HasVariable` is the first of these and depends
on containers alone. `Mentions` is what is meant by both, for it asks the reader of expressions for
the atoms.

Atoms and words are the same where every atom is one word, so `references` and `Mentions` agree on
such expressions (`Entry.HasSingleWords`). An atom that is one word is found in any expression. A
quoted name with a blank is not found; its words are, although they are no atoms
(`references_homeAddress`).
-/

namespace Fillout

namespace Template

variable {t v source : Text} {e : Entry}

/-! ## Containers of a longer text -/

/-- The containers of a text are containers of a text that begins with it. -/
theorem slot_mem_pieces_append {body : Text} (h : .slot body ∈ pieces t) (x : Text) :
    .slot body ∈ pieces (t ++ x) := by
  fun_induction pieces t with
  | case1 => cases List.mem_singleton.1 h
  | case2 => cases List.mem_singleton.1 h
  | case3 source gap inner ho span rest hc ih =>
    rw [pieces_of_cuts (Text.cut?_append_right ho x) (Text.cut?_append_right hc x)]
    obtain h | h | h : Piece.slot body = .plain _ ∨ Piece.slot body = .slot _ ∨ _ := by
      simpa only [List.mem_cons] using h
    · cases h
    · exact List.mem_cons_of_mem _ (h ▸ List.mem_cons_self)
    · exact List.mem_cons_of_mem _ (List.mem_cons_of_mem _ (ih h))

/-- White space in front of a text changes nothing of its containers. -/
theorem slot_mem_pieces_of_trim {body : Text} (h : .slot body ∈ pieces t.trim) :
    .slot body ∈ pieces t := by
  obtain ⟨w, hw, hstart⟩ := Text.exists_append_trimStart t
  obtain ⟨v, -, hend⟩ := Text.exists_trimEnd_append t.trimStart
  have hinert : IsInert w := by
    have hdollar : '$' ∉ w := fun hc => absurd (hw _ hc) (by decide)
    exact ⟨Text.cut?_eq_none hdollar _, fun hl => hdollar (List.mem_of_getLast? hl)⟩
  rw [hstart, hend]
  obtain ⟨u, ps, hpieces, hbehind⟩ := pieces_append hinert (t.trimStart.trimEnd ++ v)
  have hmem : .slot body ∈ pieces (t.trimStart.trimEnd ++ v) := slot_mem_pieces_append h v
  rw [hpieces] at hmem
  rw [hbehind]
  rcases List.mem_cons.1 hmem with he | hmem
  · cases he
  · exact List.mem_cons_of_mem _ hmem

/-! ## Bare entries -/

/-- A variable is a bare entry of a container of the text. -/
def HasVariable (t v : Text) : Prop := ∃ c ∈ containers t, .variable v ∈ entries c.body

theorem hasVariable_iff :
    HasVariable t v ↔ ∃ body, .slot body ∈ pieces t ∧ .variable v ∈ entries body := by
  constructor
  · rintro ⟨c, hc, hv⟩
    obtain ⟨l, body, r, hpieces, rfl⟩ := exists_of_mem_containersBehind hc
    exact ⟨body, hpieces ▸ List.mem_append_right l List.mem_cons_self, hv⟩
  · rintro ⟨body, hb, hv⟩
    obtain ⟨c, hc, rfl⟩ := exists_mem_containersBehind hb []
    exact ⟨c, hc, hv⟩

/-- What a part at the start of a text has in its containers, the text has. -/
theorem HasVariable.of_trim (h : HasVariable t.trim v) (x : Text) : HasVariable (t ++ x) v := by
  obtain ⟨body, hb, hv⟩ := hasVariable_iff.1 h
  exact hasVariable_iff.2 ⟨body, slot_mem_pieces_append (slot_mem_pieces_of_trim hb) x, hv⟩

theorem HasVariable.references (h : HasVariable t v) : references t v = true := by
  obtain ⟨c, hc, hv⟩ := h
  refine List.any_eq_true.2 ⟨c, hc, List.any_eq_true.2 ⟨_, hv, ?_⟩⟩
  exact beq_self_eq_true v

theorem references_of_isFinal (h : isFinal t = true) (v : Text) : references t v = false := by
  rw [references, (isFinal_iff t).1 h]
  rfl

/-! ## Atoms of expressions -/

/-- An entry mentions a variable that it is, or that is an atom of it as an expression. -/
def Entry.Mentions (v : Text) : Entry → Prop
  | .variable name => name = v
  | .expression t => ∃ tree, Expr.parse t = .ok tree ∧ v ∈ tree.atoms

/-- Some entry of some container of the text mentions the variable. -/
def Mentions (source v : Text) : Prop := ∃ c ∈ containers source, ∃ e ∈ entries c.body, e.Mentions v

/-- An entry that is a variable, or an expression whose atoms are single words. -/
def Entry.HasSingleWords : Entry → Prop
  | .variable _ => True
  | .expression t => ∃ tree, Expr.parse t = .ok tree ∧ ∀ a ∈ tree.atoms, IsOneWord a

/-- What a text mentions, from the list of all its entries. -/
theorem mentions_iff {es : List Entry}
    (h : (containers source).flatMap (fun c => entries c.body) = es) :
    Mentions source v ↔ ∃ e ∈ es, e.Mentions v := by
  rw [← h]
  simp only [Mentions, List.mem_flatMap]
  exact ⟨fun ⟨c, hc, e, he, hm⟩ => ⟨e, ⟨c, hc, he⟩, hm⟩,
    fun ⟨e, ⟨c, hc, he⟩, hm⟩ => ⟨c, hc, e, he, hm⟩⟩

theorem Entry.mentions_expression {tree : Expr} (hparse : Expr.parse t = .ok tree) :
    (Entry.expression t).Mentions v ↔ v ∈ tree.atoms := by
  simp only [Mentions, hparse, Except.ok.injEq, exists_eq_left']

theorem references_iff : references source v = true ↔
    ∃ c ∈ containers source, ∃ e ∈ entries c.body, e.refersTo v = true := by
  simp only [references, List.any_eq_true]

theorem Entry.refersTo_variable {name : Text} :
    (Entry.variable name).refersTo v = true ↔ name = v :=
  beq_iff_eq

theorem Entry.refersTo_expression (hne : v ≠ []) :
    (Entry.expression t).refersTo v = true ↔ v ∈ words t :=
  hasWord_iff hne

/-- A variable that is one word is found where it is mentioned. -/
theorem Entry.Mentions.refersTo (h : e.Mentions v) (hne : v ≠ []) (hword : IsOneWord v)
    (hs : '\\' ∉ v) : e.refersTo v = true := by
  rcases e with name | t
  · exact refersTo_variable.2 h
  · obtain ⟨tree, hparse, hatom⟩ := h
    exact (refersTo_expression hne).2 ((Expr.spells_of_parse hparse).mem_words v hatom hne hword hs)

/-- Where all atoms are single words, what is found is what is mentioned. -/
theorem Entry.HasSingleWords.refersTo_iff (h : e.HasSingleWords) (hne : v ≠ []) (hs : '\\' ∉ v) :
    e.refersTo v = true ↔ e.Mentions v := by
  rcases e with name | t
  · exact refersTo_variable
  · obtain ⟨tree, hparse, hsingle⟩ := h
    have hspells := Expr.spells_of_parse hparse
    rw [refersTo_expression hne, mentions_expression hparse]
    refine ⟨fun hword => ?_, fun hatom => hspells.mem_words v hatom hne (hsingle v hatom) hs⟩
    rcases hspells.mem_atoms v hword hs with hatom | ⟨a, ha, hbroken⟩
    · exact hatom
    · exact absurd (hsingle a ha) hbroken

/-- A variable that is more than one word is found as a bare entry only. -/
theorem Entry.refersTo_of_not_isOneWord (hbroken : ¬ IsOneWord v) :
    e.refersTo v = true ↔ e = .variable v := by
  have hne : v ≠ [] := by
    rintro rfl
    exact hbroken (List.forall_mem_nil _)
  rcases e with name | t
  · rw [refersTo_variable, Entry.variable.injEq]
  · rw [refersTo_expression hne]
    exact ⟨fun hword => absurd (isOneWord_of_mem_words hword) hbroken, fun he => nomatch he⟩

/-- A variable that is one word is found wherever the text mentions it, and if all atoms are single
words nothing else is found. A variable that is more than one word is found as a bare entry and
never as an atom. -/
theorem references_iff_mentions (source : Text) {v : Text} (hne : v ≠ []) :
    ('\\' ∉ v → IsOneWord v → Mentions source v → references source v = true) ∧
      ('\\' ∉ v → (∀ c ∈ containers source, ∀ e ∈ entries c.body, e.HasSingleWords) →
        (references source v = true ↔ Mentions source v)) ∧
      (¬ IsOneWord v → (references source v = true ↔ HasVariable source v)) := by
  refine ⟨?_, fun hs hsingle => ?_, fun hbroken => ?_⟩
  · rintro hs hword ⟨c, hc, e, he, hmentions⟩
    exact references_iff.2 ⟨c, hc, e, he, hmentions.refersTo hne hword hs⟩
  · rw [references_iff]
    refine exists_congr fun c => and_congr_right fun hc => ?_
    exact exists_congr fun e => and_congr_right fun he => (hsingle c hc e he).refersTo_iff hne hs
  · rw [references_iff]
    refine exists_congr fun c => and_congr_right fun _ => ?_
    simp only [Entry.refersTo_of_not_isOneWord hbroken, exists_eq_right]

/-- An expression with a pattern, a quoted atom and bare ones. Its last parentheses are missing. -/
def titleOrNumber : Text := "(and (regex \"\\d+\" 'nr') (not title".toList

/-- A container with a variable of two words in front of this expression. -/
def addressed : Text := "to $\x7bhome address, ".toList ++ titleOrNumber ++ "\x7d$".toList

/-- The title is a word and an atom, and the address is found as the variable in front. A word of
the address is neither found nor mentioned. -/
theorem references_iff_mentions_addressed :
    (Mentions addressed "title".toList ∧ references addressed "title".toList = true) ∧
      (references addressed "home".toList = false ∧ ¬ Mentions addressed "home".toList) ∧
      HasVariable addressed "home address".toList ∧
        references addressed "home address".toList = true := by
  have hentries : (containers addressed).flatMap (fun c => entries c.body) =
      [.variable "home address".toList, .expression titleOrNumber] := by decide +kernel
  have hparse : Expr.parse titleOrNumber = .ok (.list [.atom "and".toList,
      .list [.atom "regex".toList, .atom "\\d+".toList, .atom "nr".toList],
      .list [.atom "not".toList, .atom "title".toList]]) := by with_unfolding_all rfl
  have hsingle : ∀ c ∈ containers addressed, ∀ e ∈ entries c.body, e.HasSingleWords := by
    rw [← List.forall_mem_flatMap, hentries]
    refine List.forall_mem_cons.2 ⟨trivial, List.forall_mem_singleton.2 ⟨_, hparse, ?_⟩⟩
    decide +kernel
  have htitle : Mentions addressed "title".toList :=
    (mentions_iff hentries).2 ⟨_, by simp, (Entry.mentions_expression hparse).2 (by decide +kernel)⟩
  have hfound : references addressed "title".toList = true :=
    (references_iff_mentions addressed (by decide)).1 (by decide) (by decide) htitle
  have hhome : references addressed "home".toList = false := by decide +kernel
  have hmentions : references addressed "home".toList = true ↔ Mentions addressed "home".toList :=
    (references_iff_mentions addressed (by decide)).2.1 (by decide) hsingle
  have haddress : references addressed "home address".toList = true := by decide +kernel
  have hvariable : references addressed "home address".toList = true ↔
      HasVariable addressed "home address".toList :=
    (references_iff_mentions addressed (by decide)).2.2 (by decide)
  refine ⟨⟨htitle, hfound⟩, ⟨hhome, ?_⟩, hvariable.1 haddress, haddress⟩
  rw [← hmentions, hhome]
  exact Bool.false_ne_true

/-- An expression with a quoted name of two words. -/
def sameAddress : Text := "$\x7b(equal \"home address\")\x7d$".toList

/-- The name is an atom of the expression and is not found; a word of it is no atom and is found. -/
theorem references_homeAddress :
    (Mentions sameAddress "home address".toList ∧
        references sameAddress "home address".toList = false) ∧
      ¬ Mentions sameAddress "home".toList ∧ references sameAddress "home".toList = true := by
  have hentries : (containers sameAddress).flatMap (fun c => entries c.body) =
      [.expression "(equal \"home address\")".toList] := by decide +kernel
  have hparse : Expr.parse "(equal \"home address\")".toList =
      .ok (.list [.atom "equal".toList, .atom "home address".toList]) := by with_unfolding_all rfl
  have hmentions : ∀ v, Mentions sameAddress v ↔
      v = "equal".toList ∨ v = "home address".toList := by
    intro v
    rw [mentions_iff hentries]
    simp only [List.mem_singleton, exists_eq_left, Entry.mentions_expression hparse]
    simp [Expr.atoms, Expr.atomsOfItems]
  simp only [hmentions]
  decide +kernel

end Template

end Fillout
