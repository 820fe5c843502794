import Fillout.Unicode.Property

set_option autoImplicit false

/-! # How the classes of characters lie to each other

Two facts about classes that overlap in ASCII only as one expects, but that rest on tables beyond
it: a decimal digit of any script is a word character, and no white space is a decimal digit.

The first one needs no look into the tables, because both classes are made of categories and
membership in a union is membership in one of its parts (`contains_unions`). The second one does,
since white space is given by a list of characters. The categories of these are looked up in the
table itself (`any_valueAt_runs_of_mem_blanks`).
-/

namespace Fillout.Unicode

/-! ## Unions -/

namespace CodeSet

variable {op : Bool → Bool → Bool} {s t : CodeSet}

theorem pairwise_mark {place : Nat} {before after : Bool} {rest : List Nat}
    (hle : ∀ b ∈ rest, place ≤ b) (h : rest.Pairwise (· ≤ ·)) :
    (mark place before after rest).Pairwise (· ≤ ·) := by
  unfold mark
  split
  · exact h
  · exact List.pairwise_cons.2 ⟨hle, h⟩

/-- The bounds of a merge ascend as those of the two sets do. -/
theorem pairwise_mergeFrom {inA inB : Bool} {as bs : List Nat} (ha : as.Pairwise (· ≤ ·))
    (hb : bs.Pairwise (· ≤ ·)) : (mergeFrom op inA inB as bs).Pairwise (· ≤ ·) := by
  fun_induction mergeFrom op inA inB as bs with
  | case1 => exact List.Pairwise.nil
  | case2 inA inB a as ih =>
      rw [List.pairwise_cons] at ha
      refine pairwise_mark (fun x hx => ?_) (ih ha.2 hb)
      rcases mem_mergeFrom hx with hx | hx
      · exact ha.1 x hx
      · cases hx
  | case3 inA inB b bs ih =>
      rw [List.pairwise_cons] at hb
      refine pairwise_mark (fun x hx => ?_) (ih ha hb.2)
      rcases mem_mergeFrom hx with hx | hx
      · cases hx
      · exact hb.1 x hx
  | case4 inA inB a as b bs hab ih =>
      have hb' := List.pairwise_cons.1 hb
      rw [List.pairwise_cons] at ha
      refine pairwise_mark (fun x hx => ?_) (ih ha.2 hb)
      rcases mem_mergeFrom hx with hx | hx
      · exact ha.1 x hx
      · rcases List.mem_cons.1 hx with rfl | hx
        · omega
        · have hle := hb'.1 x hx
          omega
  | case5 inA inB a as b bs _ hba ih =>
      have ha' := List.pairwise_cons.1 ha
      rw [List.pairwise_cons] at hb
      refine pairwise_mark (fun x hx => ?_) (ih ha hb.2)
      rcases mem_mergeFrom hx with hx | hx
      · rcases List.mem_cons.1 hx with rfl | hx
        · omega
        · have hle := ha'.1 x hx
          omega
      · exact hb.1 x hx
  | case6 inA inB a as b bs hab hba ih =>
      rw [List.pairwise_cons] at ha hb
      refine pairwise_mark (fun x hx => ?_) (ih ha.2 hb.2)
      rcases mem_mergeFrom hx with hx | hx
      · exact ha.1 x hx
      · have hle := hb.1 x hx
        omega

theorem ascending_union (hs : s.Ascending) (ht : t.Ascending) : (s.union t).Ascending :=
  pairwise_mergeFrom hs ht

theorem ascending_empty : empty.Ascending := List.Pairwise.nil

theorem pairwise_memberBounds {α : Type} {p : α → Bool} (runs : Runs α) (start : Nat)
    (inside : Bool) : (memberBounds p start inside runs).Pairwise (· ≤ ·) := by
  induction runs generalizing start inside with
  | nil => cases inside <;> simp [memberBounds]
  | cons run rest ih =>
      unfold memberBounds
      split
      · exact ih _ _
      · refine List.pairwise_cons.2 ⟨fun b hb => ?_, ih _ _⟩
        have hle := le_of_mem_memberBounds hb
        omega

theorem ascending_ofRuns {α : Type} (p : α → Bool) (runs : Runs α) : (ofRuns p runs).Ascending :=
  pairwise_memberBounds runs 0 false

/-- The members of a union are those of the two sets. -/
theorem contains_union (hs : s.Ascending) (ht : t.Ascending) (n : Nat) :
    (s.union t).contains n = (s.contains n || t.contains n) :=
  contains_merge rfl hs ht n

theorem contains_foldl_union {sets : List CodeSet} (h : ∀ t ∈ sets, t.Ascending) (hs : s.Ascending)
    (n : Nat) :
    (sets.foldl union s).contains n = (s.contains n || sets.any (·.contains n)) := by
  induction sets generalizing s with
  | nil => rw [List.foldl_nil, List.any_nil, Bool.or_false]
  | cons t sets ih =>
      have ht := h t List.mem_cons_self
      calc (sets.foldl union (s.union t)).contains n
          = ((s.union t).contains n || sets.any (·.contains n)) :=
            ih (fun u hu => h u (List.mem_cons_of_mem t hu)) (ascending_union hs ht)
        _ = (s.contains n || (t :: sets).any (·.contains n)) := by
            rw [contains_union hs ht, List.any_cons, Bool.or_assoc]

/-- The members of a union of several sets are those of any of them. -/
theorem contains_unions {sets : List CodeSet} (h : ∀ t ∈ sets, t.Ascending) (n : Nat) :
    (unions sets).contains n = sets.any (·.contains n) := by
  rw [unions, contains_foldl_union h ascending_empty]
  rfl

end CodeSet

/-! ## Digits are word characters -/

theorem ascending_alphabetic : alphabetic.Ascending :=
  CodeSet.ascending_union (CodeSet.ascending_ofRuns _ _) (CodeSet.ascending_ofTable _)

theorem contains_word (n : Nat) : word.contains n =
    (alphabetic.contains n ||
      ((valueAt Category.runs n).any fun k =>
        k.isMark || k = .decimalNumber || k = .connectorPunctuation) ||
      joinControl.contains n) := by
  have hascending : ∀ s ∈ [alphabetic,
      Category.codeSet fun k => k.isMark || k = .decimalNumber || k = .connectorPunctuation,
      joinControl], s.Ascending := by
    intro s hs
    simp only [List.mem_cons, List.not_mem_nil, or_false] at hs
    rcases hs with rfl | rfl | rfl
    · exact ascending_alphabetic
    · exact CodeSet.ascending_ofRuns _ _
    · unfold CodeSet.Ascending
      decide
  rw [word, CodeSet.contains_unions hascending, List.any_cons, List.any_cons, List.any_cons,
    List.any_nil, Bool.or_false, Bool.or_assoc, Category.codeSet, CodeSet.contains_ofRuns]

theorem contains_decimalDigit (n : Nat) :
    decimalDigit.contains n = (valueAt Category.runs n).any (· = .decimalNumber) := by
  rw [decimalDigit, Category.setOf, Category.codeSet, CodeSet.contains_ofRuns]
  refine congrArg (fun p : Category → Bool => (valueAt Category.runs n).any p) (funext fun k => ?_)
  cases k <;> rfl

/-- A decimal digit of any script may stand in a word. -/
theorem isWord_of_isDecimalDigit {c : Char} (h : isDecimalDigit c = true) : isWord c = true := by
  unfold isDecimalDigit at h
  unfold isWord
  by_cases hc : c.toNat < 0x80
  · rw [if_pos hc] at h ⊢
    simp [Char.isAlphanum, h]
  · rw [if_neg hc, CodeSet.mem] at h ⊢
    rw [contains_decimalDigit, Option.any_eq_true] at h
    obtain ⟨k, hk, hdecimal⟩ := h
    rw [contains_word, hk, Option.any_some, hdecimal]
    simp

/-! ## White space is no digit -/

/-- The lines of a table as lists of characters. In a list one character after the other is at hand,
while it takes the longer to get at a character of a string, the further behind it stands. -/
inductive AreLines : List String → List (List Char) → Prop
  | nil : AreLines [] []
  | cons {line : List Char} {lines : List String} {more : List (List Char)}
      (h : AreLines lines more) :
      AreLines (String.ofList line :: lines) (line :: more)

theorem AreLines.characters {lines : List String} {texts : List (List Char)}
    (h : AreLines lines texts) : characters lines = texts.flatten := by
  induction h with
  | nil => rfl
  | @cons line lines more h ih =>
      show (String.ofList line).toList ++ Unicode.characters lines = line ++ more.flatten
      rw [ih, String.toList_ofList]

/-- The white space beyond ASCII. -/
def blanks : List Nat :=
  [0x85, 0xA0, 0x1680, 0x2000, 0x2001, 0x2002, 0x2003, 0x2004, 0x2005, 0x2006, 0x2007,
    0x2008, 0x2009, 0x200A, 0x2028, 0x2029, 0x202F, 0x205F, 0x3000]

theorem any_valueAt_runs_of_mem_blanks :
    ∀ n ∈ blanks, (valueAt Category.runs n).any (· = .decimalNumber) = false := by
  have htable : ∃ texts, AreLines Category.table texts ∧
      ∀ n ∈ blanks, (valueAt ((labelledRunsFrom 0 [] texts.flatten).filterMap fun run =>
        (Category.ofAbbreviation? run.2).map (run.1, ·)) n).any (· = .decimalNumber) = false := by
    apply Exists.intro
    apply And.intro
    · unfold Category.table
      repeat constructor
    · decide +kernel
  obtain ⟨texts, hlines, hblank⟩ := htable
  unfold Category.runs labelledRuns
  rw [hlines.characters]
  exact hblank

/-- White space is not a decimal digit of any script. -/
theorem isDecimalDigit_of_isWhitespace {c : Char} (h : isWhitespace c = true) :
    isDecimalDigit c = false := by
  unfold isWhitespace at h
  simp only [Bool.or_eq_true, Bool.and_eq_true, decide_eq_true_eq, beq_iff_eq] at h
  unfold isDecimalDigit
  by_cases hc : c.toNat < 0x80
  · rw [if_pos hc]
    refine eq_false_of_ne_true fun hdigit => ?_
    have hbounds : 48 ≤ c.toNat ∧ c.toNat ≤ 57 := Char.isDigit_iff_toNat.1 hdigit
    omega
  · have hmem : c.toNat ∈ blanks := by
      simp only [blanks, List.mem_cons, List.not_mem_nil, or_false]
      omega
    rw [if_neg hc, CodeSet.mem, contains_decimalDigit]
    exact any_valueAt_runs_of_mem_blanks _ hmem

end Fillout.Unicode
