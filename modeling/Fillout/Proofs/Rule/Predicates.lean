import Fillout.Proofs.Expr.Formula
import Fillout.Proofs.Expr.Printing
import Fillout.Proofs.Template.QuotedEntries
import Fillout.Proofs.Text.Numbers
import Fillout.Store.Basic

set_option autoImplicit false

/-! # Rules and formulas that ask the same

What a rule asks of a name can be asked by a formula too: a rule of the kind `substring` with the
pattern `P` matches the names that a formula rule with the pattern `(substring P)` matches, and
likewise for the other kinds that look at nothing but the name (`RuleKind.operator?`). A rule for
similar names has a threshold besides, which the formula writes in decimal digits.

The two take different ways. The alternative of the one rule is compared as it stands, or was
compiled when the rule was made; that of the other is split from its pattern, looked through for
parentheses, read as an expression and evaluated. A pattern without white space, commas, parentheses
and quotation marks (`Expr.IsBareWord`) comes through all of this unchanged, be there backslashes in
it or what else: it is one entry of a pattern (`splitEntries_of_isBareWord`), and in parentheses
with other such words it is one entry again (`splitEntries_sentence`), which is parsed as the list
of these words (`parse_sentence`).
-/

namespace Fillout

open Unicode (isWhitespace)

/-! ## Bare words -/

namespace Expr

/-- A text that is one word wherever it stands: it is not empty and has no white space, commas,
parentheses and quotation marks in it. -/
def IsBareWord (t : Text) : Prop :=
  t ≠ [] ∧ Template.IsUnmarked t ∧ ∀ c ∈ t, isWhitespace c = false

instance (t : Text) : Decidable (IsBareWord t) :=
  have : Decidable (∀ c ∈ t, isWhitespace c = false) := List.decidableBAll _ t
  inferInstanceAs (Decidable (t ≠ [] ∧ Template.IsUnmarked t ∧ ∀ c ∈ t, isWhitespace c = false))

variable {t : Text} {words : List Text}

theorem IsBareWord.trim_eq (h : IsBareWord t) : t.trim = t :=
  Text.trim_of_ends (fun c hc => h.2.2 c (List.mem_of_mem_head? hc))
    fun c hc => h.2.2 c (List.mem_of_mem_getLast? hc)

theorem IsBareWord.endsWord_eq_false (h : IsBareWord t) : ∀ c ∈ t, endsWord c = false := by
  intro c hc
  have hmark := h.2.1 c hc
  have hblank := h.2.2 c hc
  simp only [List.mem_cons, List.not_mem_nil, or_false, not_or] at hmark
  simp [endsWord, hblank, hmark]

theorem IsBareWord.needsQuotes_eq_false (h : IsBareWord t) : needsQuotes t = false := by
  have hany : t.any endsWord = false :=
    List.any_eq_false.2 fun c hc => by simp [h.endsWord_eq_false c hc]
  unfold needsQuotes
  rw [hany, Bool.or_false]
  simpa using h.1

theorem IsBareWord.isPrintableAtom (h : IsBareWord t) : IsPrintableAtom t := by
  unfold IsPrintableAtom
  rw [h.needsQuotes_eq_false, if_neg Bool.false_ne_true]
  exact ⟨fun hc => h.2.1 _ hc (by decide), fun hc => h.2.1 _ hc (by decide)⟩

/-- A number in decimal digits is a bare word. -/
theorem isBareWord_ofNat (n : Nat) : IsBareWord (Text.ofNat n) := by
  have hdigits := Text.isDigit_of_toNat? (Text.toNat?_ofNat n)
  refine ⟨Text.ofNat_ne_nil n, fun c hc hmark => ?_, fun c hc => ?_⟩
  · have hdigit := hdigits c hc
    simp only [List.mem_cons, List.not_mem_nil, or_false] at hmark
    rcases hmark with rfl | rfl | rfl | rfl | rfl <;> revert hdigit <;> decide
  · exact Text.isWhitespace_of_isDigit (hdigits c hc)

theorem lowerChar_of_isWhitespace {c : Char} (hc : isWhitespace c = true) :
    Text.lowerChar c = c := by
  unfold isWhitespace at hc
  simp only [Bool.or_eq_true, Bool.and_eq_true, decide_eq_true_eq, beq_iff_eq] at hc
  have hother : ¬ ((0x41 ≤ c.toNat && c.toNat ≤ 0x5A) ||
      (0xC0 ≤ c.toNat && c.toNat ≤ 0xDE && c.toNat != 0xD7)) = true := by
    simp only [Bool.or_eq_true, Bool.and_eq_true, decide_eq_true_eq]
    omega
  exact if_neg hother

/-- A word that is a bare word in lower case is one in any case. -/
theorem IsBareWord.of_lower (h : IsBareWord t.lower) : IsBareWord t := by
  have hmem : ∀ c ∈ t, Text.lowerChar c ∈ t.lower := fun c hc => List.mem_map_of_mem hc
  refine ⟨fun he => h.1 (by rw [he]; rfl), fun c hc hmark => ?_, fun c hc => ?_⟩
  · have hlower : Text.lowerChar c = c := by
      simp only [List.mem_cons, List.not_mem_nil, or_false] at hmark
      rcases hmark with rfl | rfl | rfl | rfl | rfl <;> decide
    exact h.2.1 _ (hmem c hc) (by rwa [hlower])
  · refine eq_false_of_ne_true fun hblank => ?_
    have hlower := h.2.2 _ (hmem c hc)
    rw [lowerChar_of_isWhitespace hblank, hblank] at hlower
    cases hlower

/-- The names of operators are bare words. -/
theorem Operator.Spelling.isBareWord {op : Operator} (w : op.Spelling) : IsBareWord w.val := by
  have hnames : ∀ name ∈ op.name :: op.aliases, IsBareWord name := by
    cases op <;> decide
  refine IsBareWord.of_lower (hnames _ ?_)
  have hname := w.property
  rw [Operator.goesBy, Bool.or_eq_true, beq_iff_eq, List.contains_iff_mem] at hname
  exact List.mem_cons.2 (hname.imp_left Eq.symm)

/-! ## Words in parentheses -/

/-- Words in parentheses, with blanks between them. -/
def sentence (words : List Text) : Text := '(' :: (Text.join [' '] words ++ [')'])

example : sentence ["equal".toList, "a\\b".toList] = "(equal a\\b)".toList := by decide

/-- Bare words in parentheses are the printed form of a list of atoms. -/
theorem print_atoms (hwords : ∀ w ∈ words, IsBareWord w) :
    print (.list (words.map .atom)) = sentence words := by
  have hitems : printItems (words.map .atom) = Text.join [' '] words := by
    induction words with
    | nil => rfl
    | cons w words ih =>
        obtain ⟨hw, hrest⟩ := List.forall_mem_cons.1 hwords
        have hword : atomText w = w := by
          unfold atomText
          rw [hw.needsQuotes_eq_false, if_neg Bool.false_ne_true]
        cases words with
        | nil =>
            show atomText w = List.intercalate [' '] [w]
            rw [hword, List.intercalate_singleton]
        | cons v words =>
            show atomText w ++ ' ' :: printItems ((v :: words).map .atom) =
              List.intercalate [' '] (w :: v :: words)
            rw [hword, ih hrest, List.intercalate_cons_cons, List.append_assoc]
            rfl
  rw [print, hitems]
  rfl

theorem atomsOfItems_atoms (words : List Text) : atomsOfItems (words.map .atom) = words := by
  induction words with
  | nil => rfl
  | cons w words ih =>
      show [w] ++ atomsOfItems (words.map .atom) = w :: words
      rw [ih]
      rfl

theorem depthOfItems_atoms (words : List Text) : depthOfItems (words.map .atom) = 0 := by
  induction words with
  | nil => rfl
  | cons w words ih =>
      show max 0 (depthOfItems (words.map .atom)) = 0
      rw [ih]
      rfl

/-- Bare words in parentheses are parsed as the list of these words. -/
theorem parse_sentence (hwords : ∀ w ∈ words, IsBareWord w) :
    parse (sentence words) = .ok (.list (words.map .atom)) := by
  have hprintable : (Expr.list (words.map .atom)).IsPrintable := by
    intro t ht
    rw [atoms, atomsOfItems_atoms] at ht
    exact (hwords t ht).isPrintableAtom
  have hread := read_print hprintable endsWords_nil
  have hscan : Scan.of (sentence words) = Scan.outside 0 1 := by
    have hrun := Scan.run_print _ hprintable (Nat.le_refl 0)
    rwa [print_atoms hwords, depth, depthOfItems_atoms] at hrun
  have hclosed : closed (sentence words) = sentence words := by
    rw [closed, hscan]
    exact List.append_nil _
  rw [List.append_nil, print_atoms hwords] at hread
  refine parse_eq_ok.2 ⟨?_, ?_⟩
  · rw [hscan]
    decide
  · rw [hclosed]
    exact readWhole?_eq_some.2 ⟨[], hread, List.forall_mem_nil _⟩

end Expr

open Fillout.Expr (IsBareWord sentence parse_sentence isBareWord_ofNat eval_list isTruthy)

/-! ## Patterns of one alternative -/

namespace Template

variable {t : Text} {words : List Text}

theorem splitEntries_of_isBareWord (h : IsBareWord t) : splitEntries t = [t] :=
  Entry.IsWritten.splitEntries_eq ⟨h.1, h.trim_eq, h.2.1⟩

/-- Inside parentheses, what has no marks opens and closes nothing. -/
theorem IsUnmarked.after_inside (h : IsUnmarked t) :
    (⟨1, none⟩ : Outer).after t = some ⟨1, none⟩ := by
  induction t with
  | nil => rfl
  | cons c t ih =>
      obtain ⟨hc, ht⟩ := List.forall_mem_cons.1 h
      have hstep : (⟨1, none⟩ : Outer).step c = some ⟨1, none⟩ := by
        simp only [List.mem_cons, List.not_mem_nil, or_false, not_or] at hc
        simp [Outer.step, hc]
      rw [Outer.after_cons hstep, ih ht]

theorem isUnmarked_join (hwords : ∀ w ∈ words, IsBareWord w) :
    IsUnmarked (Text.join [' '] words) := by
  induction words with
  | nil => exact List.forall_mem_nil _
  | cons w words ih =>
      obtain ⟨hw, hrest⟩ := List.forall_mem_cons.1 hwords
      have hblank : IsUnmarked [' '] := by decide
      unfold Text.join at ih ⊢
      cases words with
      | nil =>
          rw [List.intercalate_singleton]
          exact hw.2.1
      | cons v words =>
          rw [List.intercalate_cons_cons]
          exact List.forall_mem_append.2 ⟨List.forall_mem_append.2 ⟨hw.2.1, hblank⟩, ih hrest⟩

/-- Bare words in parentheses are one entry. -/
theorem splitEntries_sentence (hwords : ∀ w ∈ words, IsBareWord w) :
    splitEntries (sentence words) = [sentence words] := by
  have hafter : Outer.nothing.after (sentence words) = some .nothing := by
    have hopen : Outer.nothing.step '(' = some ⟨1, none⟩ := rfl
    rw [sentence, Outer.after_cons hopen, Outer.after_append, (isUnmarked_join hwords).after_inside]
    rfl
  have htrim : (sentence words).trim = sentence words := by
    refine Text.trim_of_ends ?_ ?_
    · rintro c ⟨⟩
      decide
    · intro c hc
      rw [sentence, ← List.cons_append, List.getLast?_concat] at hc
      cases hc
      decide
  have hjoin : Text.join ", ".toList [sentence words] = sentence words := List.intercalate_singleton
  have htrimmed : AreTrimmed [sentence words] :=
    List.forall_mem_singleton.2 ⟨htrim, List.cons_ne_nil _ _⟩
  have hsplit := splitEntries_join
    (fun hne => areParts_of_forall hne (List.forall_mem_singleton.2 hafter)) htrimmed
  rwa [hjoin] at hsplit

end Template

/-! ## Rules of one alternative -/

/-- The operator that asks of a name what rules of a kind ask of it, for the kinds that need nothing
but a pattern. -/
def RuleKind.operator? : RuleKind → Option Expr.Operator
  | equal => some .equal
  | substring => some .substring
  | superstring => some .superstring
  | regex => some .regex
  | similar | formula | date | switch => none

namespace Rule

variable {p : Text} {words : List Text} {r : Rule} (findRule : RuleKind → Text → Option Text)
  (key : Text)

/-- A rule of one alternative matches what this alternative matches. -/
theorem matchingAlternative?_of_singleton (h : r.body.pattern.alternatives = [p]) :
    r.matchingAlternative? findRule key =
      if r.alternativeMatches findRule key 0 p then some 0 else none := by
  rw [matchingAlternative?, h]
  rfl

theorem alternatives_ofRecord {record : Record} (h : Template.splitEntries record.pattern = [p])
    (id : RuleId) : (ofRecord id record).body.pattern.alternatives = [p] := by
  show RulePattern.firstOccurrences [] (Template.splitEntries record.pattern) = [p]
  rw [h]
  rfl

/-- A formula rule for words in parentheses matches where the list of the words counts as true. -/
theorem alternativeMatches_sentence (hwords : ∀ w ∈ words, IsBareWord w)
    (hkind : r.body.kind = .formula) : r.alternativeMatches findRule key 0 (sentence words) =
      isTruthy ((Expr.list (words.map .atom)).eval ⟨key, findRule⟩) := by
  unfold alternativeMatches
  rw [hkind]
  show isTruthy (Expr.evaluate ⟨key, findRule⟩ (sentence words)) = _
  rw [Expr.evaluate, parse_sentence hwords]

/-- A predicate that holds counts as true if its result does. -/
theorem isTruthy_decided {v : Expr.Value} (hv : v.isTruthy = true) (holds : Bool) :
    isTruthy (Expr.Operator.decided holds (some v)) = holds := by
  cases holds with
  | false => rfl
  | true => exact hv

/-- A rule of a regular expression has compiled its alternative when it was made. -/
theorem alternativeMatches_regex (hkind : r.body.kind = .regex)
    (halternatives : r.body.pattern.alternatives = [p])
    (hmatchers : r.matchers = matchersOf r.body.kind r.body.pattern) :
    r.alternativeMatches findRule key 0 p =
      (Regex.compile? p).any fun program => program.isMatch key := by
  have hcompiled : r.matchers = [Regex.compile? p] := by
    rw [hmatchers, hkind, matchersOf, if_pos rfl, halternatives]
    rfl
  unfold alternativeMatches
  rw [hkind, hcompiled]
  rfl

/-- What a rule asks of a name is what the operator of its kind asks of it. -/
theorem alternativeMatches_eq_isTruthy {op : Expr.Operator} (w : op.Spelling)
    (hop : r.body.kind.operator? = some op) (halternatives : r.body.pattern.alternatives = [p])
    (hmatchers : r.matchers = matchersOf r.body.kind r.body.pattern) :
    r.alternativeMatches findRule key 0 p =
      isTruthy ((Expr.list [.atom w.val, .atom p]).eval ⟨key, findRule⟩) := by
  rw [eval_list]
  cases hkind : r.body.kind with
  | equal =>
      rw [hkind] at hop
      cases hop
      unfold alternativeMatches
      rw [hkind]
      show (p == key) = isTruthy (Expr.Operator.decided (key == p) (some .holds))
      rw [isTruthy_decided rfl, BEq.comm]
  | substring =>
      rw [hkind] at hop
      cases hop
      unfold alternativeMatches
      rw [hkind]
      exact (isTruthy_decided rfl (Text.contains key p)).symm
  | superstring =>
      rw [hkind] at hop
      cases hop
      unfold alternativeMatches
      rw [hkind]
      exact (isTruthy_decided rfl (Text.contains p key)).symm
  | regex =>
      rw [hkind] at hop
      cases hop
      rw [alternativeMatches_regex findRule key hkind halternatives hmatchers]
      -- the formula compiles its operand when it is evaluated
      show (Regex.compile? p).any (fun program => program.isMatch key) =
        isTruthy ((Regex.compile? p).bind fun program =>
          Expr.Operator.decided (program.isMatch key) (some .holds))
      cases Regex.compile? p with
      | none => rfl
      | some program => exact (isTruthy_decided rfl (program.isMatch key)).symm
  | similar | formula | date | switch =>
      rw [hkind] at hop
      cases hop

/-- A number in decimal digits is read as a threshold. -/
theorem threshold?_ofNat (n : UInt64) : Expr.threshold? (Text.ofNat n.toNat) = some n.toNat := by
  have hdigits := Text.isDigit_of_toNat? (Text.toNat?_ofNat n.toNat)
  have hread : (Text.ofNat n.toNat).toNat?.filter (· < 2 ^ 64) = some n.toNat := by
    rw [Text.toNat?_ofNat, Option.filter_some, if_pos (decide_eq_true n.toNat_lt)]
  unfold Expr.threshold?
  rw [(isBareWord_ofNat n.toNat).trim_eq]
  generalize Text.ofNat n.toNat = digits at hdigits hread ⊢
  split
  · exact absurd (hdigits '+' List.mem_cons_self) (by decide)
  · exact hread

/-- What a rule for similar names asks of a name is what `similar` asks of it with the same
threshold. -/
theorem alternativeMatches_similar (w : Expr.Operator.Spelling .similar) {n : UInt64}
    (hkind : r.body.kind = .similar) (hthreshold : r.body.threshold = some n) :
    r.alternativeMatches findRule key 0 p =
      isTruthy ((Expr.list
        [.atom w.val, .atom p, .atom (Text.ofNat n.toNat), .atom "true".toList]).eval
          ⟨key, findRule⟩) := by
  rw [eval_list]
  unfold alternativeMatches
  rw [hkind, threshold, hthreshold]
  show decide (Text.editDistance p key < n.toNat) =
    isTruthy ((Expr.threshold? (Text.ofNat n.toNat)).bind fun m =>
      Expr.Operator.decided (decide (Text.editDistance p key < m)) (some (.text "true".toList)))
  rw [threshold?_ofNat, Option.bind_some]
  exact (isTruthy_decided rfl _).symm

/-- Be `p` a bare word and `n` a threshold. A rule of one of the kinds that need nothing but a
pattern, with the pattern `p`, and a formula rule with the operator of this kind and `p` in
parentheses match the same names, whatever stores they are looked at with and whatever else there is
to them; and so do a rule for similar names with the pattern `p` and the threshold `n` and a formula
rule with `similar`, `p`, `n` and `true`. The operator may have any of its names. If `p` is no
regular expression, no name is matched by the rules of regular expressions. -/
theorem matchingAlternative?_eq_formula {p : Text} (hp : IsBareWord p) (s : RuleStore) (key : Text)
    (i j : RuleId) (r f : Record) :
    (∀ (kind : RuleKind) (op : Expr.Operator) (w : op.Spelling), kind.operator? = some op →
      (ofRecord i { r with kind, pattern := p }).matchingAlternative? s.findLiteral? key =
        (ofRecord j { f with
          kind := .formula, pattern := sentence [w.val, p] }).matchingAlternative?
          s.findLiteral? key) ∧
    (∀ (w : Expr.Operator.Spelling .similar) (n : UInt64),
      (ofRecord i { r with
        kind := .similar, pattern := p, threshold := some n }).matchingAlternative?
          s.findLiteral? key =
        (ofRecord j { f with
          kind := .formula
          pattern := sentence [w.val, p, Text.ofNat n.toNat, "true".toList]
          }).matchingAlternative? s.findLiteral? key) ∧
    (Regex.compile? p = none → ∀ w : Expr.Operator.Spelling .regex,
      (ofRecord i { r with kind := .regex, pattern := p }).matchingAlternative? s.findLiteral? key =
        none ∧
        (ofRecord j { f with
          kind := .formula, pattern := sentence [w.val, p] }).matchingAlternative?
          s.findLiteral? key = none) := by
  have hplain := Template.splitEntries_of_isBareWord hp
  have hkinds : ∀ (kind : RuleKind) (op : Expr.Operator) (w : op.Spelling),
      kind.operator? = some op →
      (ofRecord i { r with kind, pattern := p }).matchingAlternative? s.findLiteral? key =
        (ofRecord j { f with
          kind := .formula, pattern := sentence [w.val, p] }).matchingAlternative?
          s.findLiteral? key := by
    intro kind op w hop
    have hwords : ∀ v ∈ [w.val, p], IsBareWord v := by
      simp only [List.forall_mem_cons]
      exact ⟨w.isBareWord, hp, List.forall_mem_nil _⟩
    rw [matchingAlternative?_of_singleton _ key (alternatives_ofRecord hplain i),
      matchingAlternative?_of_singleton _ key
        (alternatives_ofRecord (Template.splitEntries_sentence hwords) j),
      alternativeMatches_eq_isTruthy _ key w hop (alternatives_ofRecord hplain i) rfl,
      alternativeMatches_sentence _ key hwords rfl]
    rfl
  refine ⟨hkinds, fun w n => ?_, fun hinvalid w => ?_⟩
  · have hwords : ∀ v ∈ [w.val, p, Text.ofNat n.toNat, "true".toList], IsBareWord v := by
      simp only [List.forall_mem_cons]
      exact ⟨w.isBareWord, hp, isBareWord_ofNat _, by decide, List.forall_mem_nil _⟩
    rw [matchingAlternative?_of_singleton _ key (alternatives_ofRecord hplain i),
      matchingAlternative?_of_singleton _ key
        (alternatives_ofRecord (Template.splitEntries_sentence hwords) j),
      alternativeMatches_similar _ key w rfl rfl, alternativeMatches_sentence _ key hwords rfl]
    rfl
  · have hnone : (ofRecord i { r with kind := .regex, pattern := p }).matchingAlternative?
        s.findLiteral? key = none := by
      rw [matchingAlternative?_of_singleton _ key (alternatives_ofRecord hplain i),
        alternativeMatches_regex _ key rfl (alternatives_ofRecord hplain i) rfl, hinvalid]
      rfl
    exact ⟨hnone, (hkinds .regex .regex w rfl).symm.trans hnone⟩

/-- A pattern with an opening bracket and a backslash is found in a name that has it, is similar to
other names, and is no regular expression. -/
theorem matchingAlternative?_eq_formula_bracket :
    IsBareWord "[\\d".toList ∧ RuleKind.substring.operator? = some .substring ∧
      Regex.compile? "[\\d".toList = none ∧
      (ofRecord (.ordinary 1) { kind := .formula, pattern := "(Teilstring [\\d)".toList
        }).matchingAlternative? RuleStore.empty.findLiteral? "a[\\d".toList = some 0 ∧
      (ofRecord (.ordinary 1) { kind := .formula, pattern := "(similar [\\d 2 true)".toList
        }).matchingAlternative? RuleStore.empty.findLiteral? "a[\\d".toList = some 0 ∧
      (ofRecord (.ordinary 1) { kind := .formula, pattern := "(REGULÄR [\\d)".toList
        }).matchingAlternative? RuleStore.empty.findLiteral? "a[\\d".toList = none := by
  have hp : IsBareWord "[\\d".toList := by decide
  have hinvalid : Regex.compile? "[\\d".toList = none :=
    Option.isNone_iff_eq_none.1 (by decide +kernel)
  obtain ⟨hkinds, hsimilar, hregex⟩ :=
    matchingAlternative?_eq_formula hp RuleStore.empty "a[\\d".toList
    (.ordinary 1) (.ordinary 1) { kind := .equal, pattern := [] } { kind := .equal, pattern := [] }
  have hsubstring : sentence ["Teilstring".toList, "[\\d".toList] =
      "(Teilstring [\\d)".toList := by decide
  have hclose : sentence ["similar".toList, "[\\d".toList, Text.ofNat 2, "true".toList] =
      "(similar [\\d 2 true)".toList := by decide +kernel
  have hpattern : sentence ["REGULÄR".toList, "[\\d".toList] = "(REGULÄR [\\d)".toList := by decide
  refine ⟨hp, rfl, hinvalid, ?_, ?_, ?_⟩
  · rw [← hsubstring]
    refine (hkinds .substring .substring ⟨"Teilstring".toList, by decide⟩ rfl).symm.trans ?_
    decide +kernel
  · rw [← hclose]
    refine (hsimilar ⟨"similar".toList, by decide⟩ 2).symm.trans ?_
    decide +kernel
  · rw [← hpattern]
    exact (hregex hinvalid ⟨"REGULÄR".toList, by decide⟩).2

end Rule

end Fillout
