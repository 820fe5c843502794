import Fillout.Proofs.Expr.Closings
import Fillout.Proofs.Expr.Scan
import Mathlib.Data.List.TakeWhile

set_option autoImplicit false

/-! # How deep expressions nest

`parse` trusts the look through its text: with what `Scan.of` counts it closes parentheses and
refuses texts that nest too deep. The reader is the measure of both. Each of its turns changes the
height of its stack in one way (`Turn.height_eq`), and the height at the end is the depth of the
expression (`Ends.depth_eq`).

As long as no quotation is left open by a word, the look stays in step with the reader
(`InStep.of_comes`): outside quotations, with as many parentheses open as there are lists on the
stack, and at most as many as the height says. Then `parse` closes exactly the lists that are open,
and refuses exactly what nests too deep.

A word such as `a'` leaves a quotation open. Behind it the look counts no parentheses: a list that
ends there is closed once more and refused, and a list that starts there may nest as deep as it
likes.
-/

namespace Fillout

namespace Expr

open Unicode (isWhitespace)
open Reader (Turn Ends Comes)

variable {input source t rest : Text} {e : Expr} {r r' : Reader}

/-! ## The height of a stack -/

/-- How many lists stand inside one another in what was read, the open ones among them. -/
def height : List (List Expr) → Nat
  | [] => 0
  | items :: stack => max (depthOfItems items + (stack.length + 1)) (height stack)

theorem length_le_height (stack : List (List Expr)) : stack.length ≤ height stack := by
  cases stack with
  | nil => exact Nat.le_refl 0
  | cons items stack => exact Nat.le_trans (Nat.le_add_left _ _) (Nat.le_max_left _ _)

theorem depthOfItems_append (items items' : List Expr) :
    depthOfItems (items ++ items') = max (depthOfItems items) (depthOfItems items') := by
  induction items with
  | nil => exact (Nat.zero_max _).symm
  | cons item items ih => rw [List.cons_append, depthOfItems, depthOfItems, ih, Nat.max_assoc]

theorem depthOfItems_reverse (items : List Expr) :
    depthOfItems items.reverse = depthOfItems items := by
  induction items with
  | nil => rfl
  | cons item items ih =>
      rw [List.reverse_cons, depthOfItems_append, ih, depthOfItems, depthOfItems, depthOfItems,
        Nat.max_zero, Nat.max_comm]

/-- A turn makes the stack higher only by opening a list. -/
theorem Reader.Turn.height_eq (h : r.Turn r') :
    height r'.stack = max (height r.stack) r'.stack.length := by
  cases h with
  | @blank stack => exact (Nat.max_eq_left (length_le_height stack)).symm
  | @opening stack =>
      simp only [height, depthOfItems, List.length_cons]
      omega
  | closing =>
      simp only [height, depthOfItems, depth, depthOfItems_reverse, List.length_cons]
      omega
  | atom =>
      simp only [height, depthOfItems, depth, List.length_cons]
      omega

theorem Reader.Turn.height_of_le (h : r.Turn r') (hle : r'.stack.length ≤ r.stack.length) :
    height r'.stack = height r.stack :=
  h.height_eq.trans (Nat.max_eq_left (Nat.le_trans hle (length_le_height r.stack)))

/-- The height of the stack at the end is the depth of the expression. -/
theorem Reader.Ends.depth_eq (h : r.Ends e rest) : e.depth = height r.stack := by
  cases h with
  | list => simp [height, depth, depthOfItems_reverse]
  | atom => rfl

/-! ## The look in step with the reader -/

/-- Where `rest` is left of `source`, the look is outside quotations with these counts. -/
def Found (source rest : Text) (depth deepest : Nat) : Prop :=
  ∃ before, source = before ++ rest ∧ Scan.of before = Scan.outside depth deepest

theorem Found.on {depth deepest depth' deepest' : Nat} (h : Found source (t ++ rest) depth deepest)
    (hrun : (Scan.outside depth deepest).run t = Scan.outside depth' deepest') :
    Found source rest depth' deepest' := by
  obtain ⟨before, hsource, hscan⟩ := h
  refine ⟨before ++ t, by rw [hsource, List.append_assoc], ?_⟩
  rw [Scan.of_append, hscan, hrun]

/-- The counts of a look through the whole text are not smaller. -/
theorem Found.deepest_le {depth deepest : Nat} (h : Found source rest depth deepest) :
    deepest ≤ (Scan.of source).deepest := by
  obtain ⟨before, rfl, hscan⟩ := h
  have hle := (Scan.of before).deepest_le_run rest
  rw [← Scan.of_append, hscan] at hle
  exact hle

/-- All quotations that the look finds in words are closed there. -/
def WordsClose (t : Text) : Prop := ∀ w ∈ bareWords t, Scan.IsClosed w

instance (t : Text) : Decidable (WordsClose t) := inferInstanceAs (Decidable (∀ w ∈ bareWords t, _))

theorem WordsClose.tail {c : Char} (hc : endsWord c = true) (h : WordsClose (c :: rest)) :
    WordsClose rest := by
  rwa [WordsClose, bareWords_of_endsWord hc] at h

theorem WordsClose.readAtom {c : Char} (hc : endsWord c = false) (h : WordsClose (c :: rest)) :
    WordsClose (readAtom c rest).2 :=
  fun w hw => h w (mem_bareWords_of_readAtom hc hw)

theorem Found.quotation {c : Char} {text after : Text} {depth deepest : Nat}
    (hquoted : quotedAt? c rest = some (text, after)) (h : Found source (c :: rest) depth deepest) :
    Found source after depth deepest := by
  obtain ⟨hmark, hquoted⟩ := quotedAt?_eq_some.1 hquoted
  have hne : c ≠ '\\' := by
    rintro rfl
    exact absurd hmark (by decide)
  obtain ⟨before, rfl, hrun⟩ := Scan.run_readQuoted? depth deepest hne hquoted
  refine Found.on (t := c :: before) h ?_
  rw [Scan.run_cons, Scan.step_outside, if_pos hmark, hrun]

theorem Found.word {c : Char} {depth deepest : Nat} (hc : endsWord c = false)
    (hclosed : Scan.IsClosed (wordAt c rest).1) (h : Found source (c :: rest) depth deepest) :
    Found source (wordAt c rest).2 depth deepest := by
  have hparens : ∀ d ∈ (wordAt c rest).1, d ≠ '(' ∧ d ≠ ')' :=
    fun d hd => (endsWord_eq_false.1 (endsWord_of_mem_wordAt hc hd)).2
  rw [← wordAt_append c rest] at h
  exact h.on (hclosed.run hparens depth deepest)

/-- An atom is passed over, with the quotations in it. -/
theorem Found.readAtom {c : Char} {depth deepest : Nat} (hc : endsWord c = false)
    (hwords : WordsClose (c :: rest)) (h : Found source (c :: rest) depth deepest) :
    Found source (readAtom c rest).2 depth deepest := by
  rw [readAtom_eq]
  cases hquoted : quotedAt? c rest with
  | some p => exact h.quotation hquoted
  | none =>
      refine h.word hc (hwords _ ?_)
      rw [bareWords_of_word hc hquoted]
      exact List.mem_cons_self

/-- The look has counted what the reader has on its stack, and no word that is left confuses it. -/
structure InStep (source : Text) (r : Reader) : Prop where
  found : Found source r.left r.stack.length (height r.stack)
  words : WordsClose r.left

/-- A turn keeps the look in step: what the reader takes, the look counts in the same way. -/
theorem InStep.turn (h : InStep source r) (hturn : r.Turn r') : InStep source r' := by
  obtain ⟨hfound, hwords⟩ := h
  -- opening a list may raise the height, as it may raise the greatest count; no other turn does
  have hheight := hturn.height_eq
  have hsame := hturn.height_of_le
  cases hturn with
  | @blank stack c rest hc =>
      have hends : endsWord c = true := by rw [endsWord, hc]; rfl
      exact ⟨hfound.on (t := [c]) (Scan.step_of_isWhitespace hc _ _), hwords.tail hends⟩
  | opening =>
      refine ⟨hfound.on (t := ['(']) ?_, hwords.tail (by decide)⟩
      rw [hheight]
      rfl
  | closing =>
      refine ⟨hfound.on (t := [')']) ?_, hwords.tail (by decide)⟩
      rw [hsame (Nat.le_succ _)]
      rfl
  | atom hc =>
      refine ⟨?_, hwords.readAtom hc⟩
      rw [hsame (Nat.le_refl _)]
      exact hfound.readAtom hc hwords

theorem InStep.ends (h : InStep source r) (hend : r.Ends e rest) : Found source rest 0 e.depth := by
  obtain ⟨hfound, hwords⟩ := h
  have hdepth := hend.depth_eq
  cases hend with
  | list => exact hfound.on (t := [')']) (hdepth ▸ rfl)
  | atom hc => exact hfound.readAtom hc hwords

/-- As long as words close their quotations, the look stays in step with the reader. -/
theorem InStep.of_comes (hwords : WordsClose t) (h : Comes ⟨[], t⟩ r) : InStep t r := by
  induction h with
  | refl => exact ⟨⟨[], rfl, rfl⟩, hwords⟩
  | tail _ hturn ih => exact ih.turn hturn

/-- Behind an expression the look has nothing open, and has counted its depth. -/
theorem found_of_read (hwords : WordsClose t) (h : read [] t = some (e, rest)) :
    Found t rest 0 e.depth := by
  have hread : Reader.read ⟨[], t⟩ = some (e, rest) := h
  obtain ⟨r, hcomes, hend⟩ := Reader.read_eq_some_iff.1 hread
  exact (InStep.of_comes hwords hcomes).ends hend

/-! ## Whole texts -/

/-- The expression that a text is, with white space around it. -/
def readWhole? (input : Text) : Option Expr :=
  (read [] input).bind fun (e, rest) => if rest.all isWhitespace then some e else none

theorem readWhole?_eq_some :
    readWhole? input = some e ↔
      ∃ rest, read [] input = some (e, rest) ∧ ∀ c ∈ rest, isWhitespace c = true := by
  rw [readWhole?, Option.bind_eq_some_iff]
  constructor
  · rintro ⟨⟨e', rest⟩, hread, he⟩
    obtain ⟨hblank, he⟩ := Option.ite_none_right_eq_some.1 he
    cases he
    exact ⟨rest, hread, List.all_eq_true.1 hblank⟩
  · rintro ⟨rest, hread, hblank⟩
    exact ⟨(e, rest), hread, if_pos (List.all_eq_true.2 hblank)⟩

theorem parse_eq_ok :
    parse input = .ok e ↔
      (Scan.of input).deepest ≤ maxNesting ∧ readWhole? (closed input) = some e := by
  by_cases hdeep : maxNesting < (Scan.of input).deepest
  · simp [parse, hdeep, Nat.not_le.2 hdeep]
  · simp only [parse, if_neg hdeep, readWhole?, and_iff_right (Nat.not_lt.1 hdeep)]
    cases read [] (closed input) with
    | none => simp
    | some p =>
        have hblank : (p.2.dropWhile isWhitespace).isEmpty = p.2.all isWhitespace := by
          rw [Bool.eq_iff_iff, List.isEmpty_iff, List.all_eq_true, List.dropWhile_eq_nil_iff]
        simp only [hblank, Option.bind_some]
        split <;> simp

/-- If its words close their quotations, the look finds in an expression its depth, and nothing open
behind it. -/
theorem scan_of_readWhole? (hwords : WordsClose input) (h : readWhole? input = some e) :
    Scan.of input = Scan.outside 0 e.depth := by
  obtain ⟨rest, hread, hblank⟩ := readWhole?_eq_some.1 h
  obtain ⟨before, rfl, hscan⟩ := found_of_read hwords hread
  rw [Scan.of_append, hscan, Scan.run_of_isWhitespace hblank]

/-- A whole expression stays one if nothing has to be closed behind it, and only then. -/
theorem readWhole?_closed (h : readWhole? input = some e) :
    readWhole? (closed input) = some e ↔ (Scan.of input).depth = 0 := by
  obtain ⟨rest, hread, hblank⟩ := readWhole?_eq_some.1 h
  have hlonger : read [] (closed input) =
      some (e, rest ++ List.replicate (Scan.of input).depth ')') :=
    Reader.read_append_closings (r := ⟨[], input⟩) _ hread
  rw [readWhole?_eq_some, hlonger]
  constructor
  · rintro ⟨_, he, hblank⟩
    cases he
    refine Nat.eq_zero_of_not_pos fun hopen => ?_
    have hclose := hblank ')' (List.mem_append_right _ (List.mem_replicate.2 ⟨hopen.ne', rfl⟩))
    exact absurd hclose (by decide)
  · intro hopen
    rw [hopen, List.replicate_zero, List.append_nil]
    exact ⟨rest, rfl, hblank⟩

/-- A text that is one expression is parsed as this expression exactly if the look finds nothing
open behind it and no nesting that is too deep. If its words close their quotations, this is so
exactly if the expression itself does not nest too deep. -/
theorem parse_eq_ok_iff_of_whole (h : readWhole? input = some e) :
    (parse input = .ok e ↔
      (Scan.of input).depth = 0 ∧ (Scan.of input).deepest ≤ maxNesting) ∧
    (WordsClose input → (parse input = .ok e ↔ e.depth ≤ maxNesting)) := by
  have hparse : parse input = .ok e ↔
      (Scan.of input).depth = 0 ∧ (Scan.of input).deepest ≤ maxNesting := by
    rw [parse_eq_ok, readWhole?_closed h, and_comm]
  refine ⟨hparse, fun hwords => ?_⟩
  rw [hparse, scan_of_readWhole? hwords h]
  exact and_iff_right rfl

/-- Parentheses and escapes in quotations, and a word that closes its quotation, are no obstacle. -/
theorem parse_eq_ok_iff_of_whole_quotations :
    ∃ e, readWhole? "(or \"b\\\") (\" c's' (not d))".toList = some e ∧
      WordsClose "(or \"b\\\") (\" c's' (not d))".toList ∧ e.depth = 2 ∧
      parse "(or \"b\\\") (\" c's' (not d))".toList = .ok e := by
  let e : Expr := .list [.atom "or".toList, .atom "b\") (".toList, .atom "c's'".toList,
    .list [.atom "not".toList, .atom "d".toList]]
  have hread : readWhole? "(or \"b\\\") (\" c's' (not d))".toList = some e := by
    with_unfolding_all rfl
  have hwords : WordsClose "(or \"b\\\") (\" c's' (not d))".toList := by decide +kernel
  exact ⟨e, hread, hwords, rfl, ((parse_eq_ok_iff_of_whole hread).2 hwords).2 (by decide)⟩

/-- A word may leave a quotation open: the look takes the parenthesis behind it for a part of the
quotation, and `parse` closes the list a second time. -/
theorem parse_openWord :
    readWhole? "(a'b)".toList = some (.list [.atom "a'b".toList]) ∧
      (Expr.list [.atom "a'b".toList]).depth ≤ maxNesting ∧
      parse "(a'b)".toList = .error ⟨"(a'b)".toList, .leftover "(a'b)".toList [')']⟩ := by
  refine ⟨by with_unfolding_all rfl, by decide, by with_unfolding_all rfl⟩

/-! ## Parsing -/

/-- The states by which `parse` comes when it reads. -/
def Visits (input : Text) (r : Reader) : Prop :=
  (Scan.of input).deepest ≤ maxNesting ∧ Comes ⟨[], closed input⟩ r

theorem WordsClose.closed (h : WordsClose input) : WordsClose (closed input) := by
  rw [WordsClose, Expr.closed, bareWords_append_closings]
  exact h

theorem deepest_of_closed (input : Text) :
    (Scan.of (closed input)).deepest = (Scan.of input).deepest := by
  rw [closed, Scan.of_append, Scan.deepest_run_closings]

/-- If its words close their quotations, no more than `maxNesting` lists are ever open while a text
is parsed, and no expression that is parsed nests deeper. -/
theorem length_and_depth_le_maxNesting (hwords : WordsClose input) :
    (∀ r, Visits input r → r.stack.length ≤ maxNesting) ∧
      ∀ e, parse input = .ok e → e.depth ≤ maxNesting := by
  -- the look through the text with the parentheses added counts no deeper than `parse` has tested
  have hdeepest : ∀ {rest depth deepest}, (Scan.of input).deepest ≤ maxNesting →
      Found (closed input) rest depth deepest → deepest ≤ maxNesting := by
    intro rest depth deepest hle hfound
    refine Nat.le_trans hfound.deepest_le ?_
    rwa [deepest_of_closed]
  constructor
  · rintro r ⟨hle, hcomes⟩
    have hstep := InStep.of_comes hwords.closed hcomes
    exact Nat.le_trans (length_le_height r.stack) (hdeepest hle hstep.found)
  · intro e h
    obtain ⟨hle, hwhole⟩ := parse_eq_ok.1 h
    obtain ⟨rest, hread, -⟩ := readWhole?_eq_some.1 hwhole
    exact hdeepest hle (found_of_read hwords.closed hread)

/-- A text with a quotation, and with two parentheses that are not closed. -/
theorem length_and_depth_le_maxNesting_unfinished :
    WordsClose "(and \"((\" (not x".toList ∧
      (∀ r, Visits "(and \"((\" (not x".toList r → r.stack.length ≤ maxNesting) ∧
      ∃ e, parse "(and \"((\" (not x".toList = .ok e ∧ e.depth ≤ maxNesting := by
  have hwords : WordsClose "(and \"((\" (not x".toList := by decide +kernel
  have hparse : parse "(and \"((\" (not x".toList =
      .ok (.list [.atom "and".toList, .atom "((".toList,
        .list [.atom "not".toList, .atom "x".toList]]) := by
    with_unfolding_all rfl
  obtain ⟨hstack, hdepth⟩ := length_and_depth_le_maxNesting hwords
  exact ⟨hwords, hstack, _, hparse, hdepth _ hparse⟩

/-! ## Behind an open quotation -/

/-- An atom in `n` lists. -/
def nest : Nat → Expr
  | 0 => .atom ['x']
  | n + 1 => .list [nest n]

/-- A list, not closed, of a word that leaves a quotation open and an atom in `n` lists. -/
def hidden (n : Nat) : Text := "(a' ".toList ++ print (nest n)

theorem depth_nest (n : Nat) : (nest n).depth = n := by
  induction n with
  | zero => rfl
  | succ n ih => rw [nest, depth, depthOfItems, depthOfItems, ih, Nat.max_zero]

theorem print_nest_succ (n : Nat) : print (nest (n + 1)) = '(' :: (print (nest n) ++ [')']) := by
  rw [nest, print, printItems]

theorem mem_print_nest {n : Nat} {c : Char} (h : c ∈ print (nest n)) :
    c = '(' ∨ c = 'x' ∨ c = ')' := by
  induction n with
  | zero => exact .inr (.inl (List.mem_singleton.1 h))
  | succ n ih =>
      rw [print_nest_succ, List.mem_cons, List.mem_append] at h
      rcases h with h | h | h
      · exact .inl h
      · exact ih h
      · exact .inr (.inr (List.mem_singleton.1 h))

/-- The look counts one parenthesis only. -/
theorem scan_hidden (n : Nat) : Scan.of (hidden n) = Scan.inside 1 1 '\'' := by
  have hmarks : ∀ c ∈ print (nest n), c ≠ '\'' ∧ c ≠ '\\' := by
    intro c hc
    rcases mem_print_nest hc with rfl | rfl | rfl <;> decide
  rw [hidden, Scan.of_append]
  exact Scan.run_inside 1 1 hmarks

theorem comes_nest (n : Nat) (items : List Expr) (stack : List (List Expr)) (rest : Text) :
    Comes ⟨items :: stack, print (nest n) ++ ')' :: rest⟩
      ⟨(nest n :: items) :: stack, ')' :: rest⟩ := by
  induction n generalizing items stack rest with
  | zero =>
      have hatom : Turn ⟨items :: stack, 'x' :: ')' :: rest⟩ _ := .atom (by decide)
      exact .single hatom
  | succ n ih =>
      rw [print_nest_succ, List.cons_append, List.append_assoc, List.singleton_append]
      exact .head .opening ((ih [] (items :: stack) (')' :: rest)).tail .closing)

/-- What nests behind an open quotation is parsed, however deep. -/
theorem parse_hidden (n : Nat) :
    parse (hidden n) = .ok (.list [.atom "a'".toList, nest n]) := by
  -- one parenthesis is counted and added; it closes the list around the word
  have hclosed : closed (hidden n) = "(a' ".toList ++ (print (nest n) ++ [')']) := by
    rw [closed, scan_hidden, hidden, List.append_assoc]
    rfl
  have hcomes : Comes ⟨[], "(a' ".toList ++ (print (nest n) ++ [')'])⟩
      ⟨[[nest n, .atom "a'".toList]], [')']⟩ := by
    refine .head .opening (.head (.atom (by decide)) (.head (.blank (by decide)) ?_))
    exact comes_nest n [.atom "a'".toList] [] []
  have hread : Reader.read ⟨[], closed (hidden n)⟩ =
      some (.list [.atom "a'".toList, nest n], []) := by
    rw [hclosed]
    exact Reader.read_eq_some_iff.2 ⟨_, hcomes, .list⟩
  refine parse_eq_ok.2 ⟨?_, readWhole?_eq_some.2 ⟨[], hread, List.forall_mem_nil _⟩⟩
  rw [scan_hidden]
  decide

/-- So the bound on the look is no bound on the expression. -/
theorem maxNesting_lt_depth_of_hidden :
    ∃ e, parse (hidden maxNesting) = .ok e ∧ maxNesting < e.depth := by
  refine ⟨_, parse_hidden maxNesting, ?_⟩
  rw [depth, depthOfItems, depthOfItems, depthOfItems, depth_nest]
  decide

end Expr

end Fillout
