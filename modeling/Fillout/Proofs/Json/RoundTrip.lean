import Fillout.Json.Reader
import Fillout.Json.Writer

set_option autoImplicit false

/-! # What is written is read back

`Json.Reads reader text x` says that a reader finds `x` where `text` is written: it skips blanks in
front, takes the text and leaves what stands behind it. Behind a number something must stand that
does not continue it, and so the condition is made in general; after a value the writer sets a
comma, a new line or nothing.

Strings are read back because each escape is (`readString_escapeChar`), natural numbers because they
are written without leading zeros (`readNumber_ofNat`), and lists because their items are and the
marks between the items begin no item (`readList_prettyAt`).
-/

namespace Fillout

namespace Json

variable {δ α : Type}

/-- Nothing at the start of the text continues a number. -/
def EndsNumber (rest : Text) : Prop :=
  ∀ c ∈ rest.head?, ¬ (c.isDigit = true ∨ c = '.' ∨ c = 'e' ∨ c = 'E')

/-- The reader finds `x` where `text` is written. -/
def Reads (reader : Reader δ α) (text : Text) (x : α) : Prop :=
  ∀ blanks rest : Text, (∀ c ∈ blanks, isBlank c = true) → EndsNumber rest →
    reader (blanks ++ (text ++ rest)) = .ok (x, rest)

theorem endsNumber_cons {c : Char} (h : ¬ (c.isDigit = true ∨ c = '.' ∨ c = 'e' ∨ c = 'E'))
    (rest : Text) : EndsNumber (c :: rest) := by
  intro d hd
  cases hd
  exact h

/-! ## Blanks -/

theorem skipBlanks_append {blanks : Text} (h : ∀ c ∈ blanks, isBlank c = true) {c : Char}
    (hc : isBlank c = false) (rest : Text) : skipBlanks (blanks ++ c :: rest) = c :: rest := by
  induction blanks with
  | nil => exact List.dropWhile_cons_of_neg (by simp [hc])
  | cons b blanks ih =>
      obtain ⟨hb, hblanks⟩ := List.forall_mem_cons.1 h
      exact (List.dropWhile_cons_of_pos hb).trans (ih hblanks)

theorem skipBlanks_cons {c : Char} (hc : isBlank c = false) (rest : Text) :
    skipBlanks (c :: rest) = c :: rest := skipBlanks_append (List.forall_mem_nil _) hc rest

theorem isBlank_of_mem_newLine {depth : Nat} : ∀ c ∈ newLine depth, isBlank c = true := by
  intro c hc
  rcases List.mem_cons.1 hc with rfl | hc
  · rfl
  · rw [List.eq_of_mem_replicate hc]
    rfl

/-! ## Strings -/

theorem hexValue?_hexDigit {d : Nat} (h : d < 16) : hexValue? (hexDigit d) = some d := by
  revert d
  decide

theorem readString_backslash {t rest : Text} {c : Char}
    (h : readEscape t = (.ok (c, rest) : Except (ReadError δ) _)) :
    (readString ('\\' :: t) : Except (ReadError δ) _) =
      (readString rest).map fun (s, rest) => (c :: s, rest) := by
  rw [readString, if_neg (by decide), if_pos rfl]
  split
  · rename_i he
    rw [h] at he
    cases he
  · rename_i he
    rw [h] at he
    cases he
    rfl

theorem readEscape_simple {c d : Char} (h : simpleEscape? c = some d) (hu : c ≠ 'u') (rest : Text) :
    readEscape (c :: rest) = (.ok (d, rest) : Except (ReadError δ) _) := by
  rw [readEscape, if_neg hu, h]

/-- The escape of a control character stands for it. -/
theorem readEscape_control {c : Char} (h : c.toNat < 0x20) (rest : Text) :
    readEscape ('u' :: '0' :: '0' :: hexDigit (c.toNat / 16) :: hexDigit (c.toNat % 16) :: rest) =
      (.ok (c, rest) : Except (ReadError δ) _) := by
  have hhigh := hexValue?_hexDigit (show c.toNat / 16 < 16 by omega)
  have hlow := hexValue?_hexDigit (show c.toNat % 16 < 16 by omega)
  have hvalue : ((0 * 16 + 0) * 16 + c.toNat / 16) * 16 + c.toNat % 16 = c.toNat := by omega
  have hhex : readHex4 ('0' :: '0' :: hexDigit (c.toNat / 16) :: hexDigit (c.toNat % 16) :: rest) =
      (.ok (c.toNat, rest) : Except (ReadError δ) _) := by
    have hzero : hexValue? '0' = some 0 := by decide
    rw [readHex4, hzero, hhigh, hlow]
    dsimp only
    rw [hvalue]
  rw [readEscape, if_pos rfl, hhex]
  dsimp only
  rw [if_neg (by omega), if_neg (by omega), Char.ofNat_toNat]

/-- One character is read back, whether it is escaped or not. -/
theorem readString_escapeChar (c : Char) (t : Text) :
    (readString (escapeChar c ++ t) : Except (ReadError δ) _) =
      (readString t).map fun (s, rest) => (c :: s, rest) := by
  have hsimple : ∀ {e : Char}, simpleEscape? e = some c → e ≠ 'u' →
      (readString ('\\' :: e :: t) : Except (ReadError δ) _) =
        (readString t).map fun (s, rest) => (c :: s, rest) :=
    fun h hu => readString_backslash (readEscape_simple h hu t)
  unfold escapeChar
  iterate 7
    split
    · rename_i h
      exact hsimple (by rw [h]; rfl) (by decide)
  split
  · rename_i h
    exact readString_backslash (readEscape_control h t)
  · rename_i hquote hbackslash _ _ _ _ _ hcontrol
    rw [List.singleton_append, readString, if_neg hquote, if_neg hbackslash, if_neg hcontrol]

theorem readString_escape (t rest : Text) :
    readString (escape t ++ '"' :: rest) = (.ok (t, rest) : Except (ReadError δ) _) := by
  induction t with
  | nil =>
      rw [show escape [] ++ '"' :: rest = '"' :: rest from rfl, readString, if_pos rfl]
  | cons c t ih =>
      have hcons : escape (c :: t) ++ '"' :: rest = escapeChar c ++ (escape t ++ '"' :: rest) := by
        unfold escape
        rw [List.flatMap_cons, List.append_assoc]
      rw [hcons, readString_escapeChar, ih]
      rfl

/-! ## Natural numbers -/

theorem isDigit_digitChar {d : Nat} (h : d < 10) : (Text.digitChar d).isDigit = true := by
  revert d
  decide

theorem digitChar_ne_zero {d : Nat} (h : d < 10) (hd : d ≠ 0) : Text.digitChar d ≠ '0' := by
  revert d
  decide

/-- A number is written in digits, and only zero with a zero in front. -/
theorem exists_ofNat_eq_cons (n : Nat) : ∃ c digits, Text.ofNat n = c :: digits ∧
    c.isDigit = true ∧ (∀ d ∈ digits, d.isDigit = true) ∧ (c = '0' → digits = []) := by
  have key : ∀ n, ∃ c digits, Text.ofNat n = c :: digits ∧
      c.isDigit = true ∧ (∀ d ∈ digits, d.isDigit = true) ∧ (c = '0' → n = 0) := by
    intro n
    induction n using Nat.strongRecOn with
    | ind n ih =>
      rw [Text.ofNat]
      split
      · rename_i h
        refine ⟨_, [], rfl, isDigit_digitChar h, List.forall_mem_nil _, fun hc => ?_⟩
        exact Decidable.byContradiction fun hn => digitChar_ne_zero h hn hc
      · obtain ⟨c, digits, he, hc, hdigits, hzero⟩ := ih (n / 10) (by omega)
        refine ⟨c, digits ++ [Text.digitChar (n % 10)], by rw [he]; rfl, hc, ?_, fun h => ?_⟩
        · refine List.forall_mem_append.2 ⟨hdigits, List.forall_mem_singleton.2 ?_⟩
          exact isDigit_digitChar (Nat.mod_lt n (by decide))
        · have := hzero h
          omega
  obtain ⟨c, digits, he, hc, hdigits, hzero⟩ := key n
  refine ⟨c, digits, he, hc, hdigits, fun h => ?_⟩
  rw [hzero h, Text.ofNat, if_pos (by decide)] at he
  exact (List.cons.inj he).2.symm

theorem le_of_appendDigits? {digits : Text} {m n : Nat} (h : Text.appendDigits? m digits = some n) :
    m ≤ n := by
  induction digits generalizing m with
  | nil => exact Nat.le_of_eq (Option.some.inj h)
  | cons c digits ih =>
      obtain ⟨d, -, h⟩ := Option.bind_eq_some_iff.1 h
      have := ih h
      omega

/-- Digits that write a number of 64 bits are all taken. -/
theorem accumulate_of_appendDigits? {digits : Text} {m n : Nat}
    (h : Text.appendDigits? m digits = some n) (hn : n ≤ Number.maxNatural) :
    accumulate m digits = (n, []) := by
  induction digits generalizing m with
  | nil => exact congrArg (·, []) (Option.some.inj h)
  | cons c digits ih =>
      obtain ⟨d, hd, h⟩ := Option.bind_eq_some_iff.1 h
      unfold Text.digitValue? at hd
      split at hd
      · cases hd
        rw [accumulate, if_pos (Nat.le_trans (le_of_appendDigits? h) hn)]
        exact ih h
      · cases hd

theorem EndsNumber.not_isDigit {rest : Text} (h : EndsNumber rest) :
    ∀ c ∈ rest.head?, c.isDigit = false :=
  fun c hc => eq_false_of_ne_true fun hdigit => h c hc (.inl hdigit)

/-- Digits are taken to their end. -/
theorem readWhole_append {c : Char} {digits rest : Text} (hc : c.isDigit = true)
    (hdigits : ∀ d ∈ digits, d.isDigit = true) (hzero : c = '0' → digits = [])
    (h : EndsNumber rest) :
    readWhole (c :: digits ++ rest) = (.ok (c :: digits, rest) : Except (ReadError δ) _) := by
  have hend := h.not_isDigit
  rw [List.cons_append]
  by_cases h0 : c = '0'
  · rw [hzero h0, List.nil_append]
    refine (if_pos h0).trans ?_
    cases rest with
    | nil => rfl
    | cons d rest => exact if_neg (Bool.eq_false_iff.1 (hend d rfl))
  · have htake : (digits ++ rest).takeWhile Char.isDigit = digits ∧
        (digits ++ rest).dropWhile Char.isDigit = rest := by
      rw [List.takeWhile_append_of_pos hdigits, List.dropWhile_append_of_pos hdigits]
      cases rest with
      | nil => simp
      | cons d rest => simp [hend d rfl]
    refine (if_neg h0).trans ((if_pos hc).trans ?_)
    rw [htake.1, htake.2]

theorem readFraction_of_endsNumber {rest : Text} (h : EndsNumber rest) :
    readFraction rest = (.ok ([], rest) : Except (ReadError δ) _) := by
  unfold readFraction
  split
  · exact absurd (.inr (.inl rfl)) (h '.' rfl)
  · rfl

theorem readExponent_of_endsNumber {rest : Text} (h : EndsNumber rest) :
    readExponent rest = (.ok (none, rest) : Except (ReadError δ) _) := by
  cases rest with
  | nil => rfl
  | cons d rest => exact if_neg fun hd => h d rfl (.inr (.inr hd))

theorem readNumber_ofNat {n : Nat} (hn : n ≤ Number.maxNatural) {rest : Text}
    (h : EndsNumber rest) :
    readNumber (Text.ofNat n ++ rest) = (.ok (.natural n, rest) : Except (ReadError δ) _) := by
  obtain ⟨c, digits, he, hc, hdigits, hzero⟩ := exists_ofNat_eq_cons n
  have hvalue : accumulate 0 (c :: digits) = (n, []) := by
    refine accumulate_of_appendDigits? ?_ hn
    have := Text.toNat?_ofNat n
    rw [he] at this
    simpa [Text.toNat?] using this
  have hnumber : numberOf? false (c :: digits) [] none = some (.natural n) := by
    unfold numberOf?
    rw [hvalue]
    rfl
  rw [he]
  unfold readNumber
  split
  rename_i isNegative t hsign
  have hpositive : isNegative = false ∧ t = c :: digits ++ rest := by
    split at hsign
    · rename_i hcons
      cases hcons
      cases hc
    · cases hsign
      exact ⟨rfl, rfl⟩
  obtain ⟨rfl, rfl⟩ := hpositive
  simp only [bind, Except.bind, readWhole_append hc hdigits hzero h, readFraction_of_endsNumber h,
    readExponent_of_endsNumber h, hnumber]

/-! ## Tokens -/

theorem readShape_string (t : Text) : Reads (δ := δ) readShape (stringText t) (.string t) := by
  intro blanks rest hblanks _
  unfold readShape stringText
  rw [List.cons_append, List.append_assoc, skipBlanks_append hblanks rfl]
  simp only [Char.reduceEq, if_false, if_true, List.singleton_append]
  rw [readString_escape]
  rfl

theorem readShape_natural {n : Nat} (hn : n ≤ Number.maxNatural) :
    Reads (δ := δ) readShape (Text.ofNat n) (.number (.natural n)) := by
  intro blanks rest hblanks hrest
  have hnumber := readNumber_ofNat (δ := δ) hn hrest
  obtain ⟨c, digits, he, hc, -, -⟩ := exists_ofNat_eq_cons n
  have hne : ∀ {d : Char}, d.isDigit = false → c ≠ d := by
    rintro d hd rfl
    rw [hc] at hd
    cases hd
  have hblank : isBlank c = false := by
    unfold isBlank
    simp [hne (show ' '.isDigit = false from rfl), hne (show '\n'.isDigit = false from rfl),
      hne (show '\t'.isDigit = false from rfl), hne (show '\r'.isDigit = false from rfl)]
  unfold readShape
  rw [he] at hnumber ⊢
  rw [List.cons_append, skipBlanks_append hblanks hblank]
  dsimp only
  rw [if_neg (hne rfl), if_neg (hne rfl), if_neg (hne rfl), if_neg (hne rfl), if_neg (hne rfl),
    if_neg (hne rfl), if_pos (.inr hc), ← List.cons_append, hnumber]
  rfl

theorem readShape_bracket {blanks : Text} (h : ∀ c ∈ blanks, isBlank c = true) (rest : Text) :
    readShape (blanks ++ '[' :: rest) = (.ok (.array, rest) : Except (ReadError δ) _) := by
  unfold readShape
  rw [skipBlanks_append h rfl]
  simp only [Char.reduceEq, if_false, if_true]

theorem readShape_brace {blanks : Text} (h : ∀ c ∈ blanks, isBlank c = true) (rest : Text) :
    readShape (blanks ++ '{' :: rest) = (.ok (.object, rest) : Except (ReadError δ) _) := by
  unfold readShape
  rw [skipBlanks_append h rfl]
  simp only [Char.reduceEq, if_false, if_true]

/-! ## Lists and members, one a line -/

/-- What stands behind the first of several texts that are written one a line. -/
def moreLines (depth : Nat) (ts : List Text) : Text :=
  ts.flatMap fun t => ',' :: (newLine depth ++ t)

/-- A member of an object as it is written. -/
def memberText (depth : Nat) (member : Text × Json) : Text :=
  stringText member.1 ++ ": ".toList ++ prettyAt depth member.2

theorem moreLines_cons (depth : Nat) (t : Text) (ts : List Text) :
    moreLines depth (t :: ts) = ',' :: (newLine depth ++ (t ++ moreLines depth ts)) := by
  unfold moreLines
  rw [List.flatMap_cons, List.cons_append, List.append_assoc]

theorem prettyItems_cons (depth : Nat) (item : Json) (items : List Json) :
    prettyItems depth (item :: items) =
      newLine depth ++ (prettyAt depth item ++ moreLines depth (items.map (prettyAt depth))) := by
  induction items generalizing item with
  | nil => simp [prettyItems, moreLines]
  | cons next items ih =>
      rw [prettyItems, ih, List.append_assoc, List.map_cons, moreLines_cons]
      exact List.cons_ne_nil _ _

theorem prettyMembers_cons (depth : Nat) (member : Text × Json) (members : List (Text × Json)) :
    prettyMembers depth (member :: members) =
      newLine depth ++
        (memberText depth member ++ moreLines depth (members.map (memberText depth))) := by
  induction members generalizing member with
  | nil => simp [prettyMembers, moreLines, memberText]
  | cons next members ih =>
      rw [prettyMembers, ih, List.map_cons, moreLines_cons]
      · simp only [memberText, List.append_assoc]
      · exact List.cons_ne_nil _ _

theorem length_le_length_moreLines (depth : Nat) (ts : List Text) :
    ts.length ≤ (moreLines depth ts).length := by
  induction ts with
  | nil => exact Nat.zero_le _
  | cons t ts ih =>
      rw [moreLines_cons]
      simp only [List.length_cons, List.length_append]
      omega

/-- The mark that closes an array or an object. -/
def IsClosing (c : Char) : Prop := c = ']' ∨ c = '}'

theorem IsClosing.isBlank {c : Char} (h : IsClosing c) : isBlank c = false := by
  rcases h with rfl | rfl <;> rfl

theorem IsClosing.ne_comma {c : Char} (h : IsClosing c) : c ≠ ',' := by
  rcases h with rfl | rfl <;> decide

/-- Neither between two lines nor behind the last one does a number go on. -/
theorem endsNumber_moreLines (depth : Nat) (ts : List Text) (outer : Nat) (rest : Text) :
    EndsNumber (moreLines depth ts ++ (newLine outer ++ rest)) := by
  cases ts with
  | nil => exact endsNumber_cons (by decide) _
  | cons t ts => exact endsNumber_cons (by decide) _

/-- Items are read up to the closing mark. -/
theorem readItems_moreLines {close : Char} (hclose : IsClosing close) {item : Reader δ α}
    {write : α → Text} {x : α} {xs : List α} (h : ∀ y ∈ x :: xs, Reads item (write y) y)
    {fuel : Nat}
    (hfuel : xs.length < fuel) {blanks : Text} (hblanks : ∀ c ∈ blanks, isBlank c = true)
    (depth outer : Nat) (rest : Text) :
    readItems close item fuel (blanks ++ (write x ++
        (moreLines depth (xs.map write) ++ (newLine outer ++ close :: rest)))) =
      .ok (x :: xs, rest) := by
  induction xs generalizing x fuel blanks with
  | nil =>
      obtain ⟨fuel, rfl⟩ := Nat.exists_eq_add_one_of_ne_zero (Nat.ne_of_gt hfuel)
      rw [readItems, h x List.mem_cons_self blanks _ hblanks (endsNumber_moreLines _ _ _ _)]
      dsimp only [bind, Except.bind]
      rw [show moreLines depth (([] : List α).map write) = [] from rfl, List.nil_append,
        skipBlanks_append isBlank_of_mem_newLine hclose.isBlank]
      dsimp only
      rw [if_neg hclose.ne_comma, if_pos rfl]
  | cons next xs ih =>
      obtain ⟨fuel, rfl⟩ :=
        Nat.exists_eq_add_one_of_ne_zero (Nat.ne_of_gt (Nat.zero_lt_of_lt hfuel))
      obtain ⟨hx, hrest⟩ := List.forall_mem_cons.1 h
      rw [readItems, hx blanks _ hblanks (endsNumber_moreLines _ _ _ _)]
      dsimp only [bind, Except.bind]
      rw [List.map_cons, moreLines_cons, List.cons_append, skipBlanks_cons rfl]
      dsimp only
      rw [if_pos rfl, List.append_assoc, List.append_assoc,
        ih hrest (Nat.lt_of_succ_lt_succ hfuel) isBlank_of_mem_newLine]

/-- A list of which the first item begins neither with a blank nor with the closing mark is read. -/
theorem readList_moreLines {close : Char} (hclose : IsClosing close) {item : Reader δ α}
    (write : α → Text) {x : α} {xs : List α} (h : ∀ y ∈ x :: xs, Reads item (write y) y)
    {c : Char} {t : Text} (hwrite : write x = c :: t) (hblank : isBlank c = false) (hc : c ≠ close)
    (depth outer : Nat) (rest : Text) :
    readList close item (newLine depth ++ (write x ++
        (moreLines depth (xs.map write) ++ (newLine outer ++ close :: rest)))) =
      .ok (x :: xs, rest) := by
  generalize htext : newLine depth ++ (write x ++
    (moreLines depth (xs.map write) ++ (newLine outer ++ close :: rest))) = text
  have hlength : xs.length < text.length + 1 := by
    have := length_le_length_moreLines depth (xs.map write)
    rw [← htext]
    simp only [List.length_append, List.length_map] at this ⊢
    omega
  have hitems := readItems_moreLines hclose h hlength (List.forall_mem_nil _) depth outer rest
  have hskip : skipBlanks text = write x ++
      (moreLines depth (xs.map write) ++ (newLine outer ++ close :: rest)) := by
    rw [← htext, hwrite]
    exact skipBlanks_append isBlank_of_mem_newLine hblank _
  unfold readList
  rw [hskip, hwrite] at *
  exact (if_neg hc).trans hitems

/-- The items of an array are read from its text. -/
theorem readList_prettyAt {item : Reader δ α} (f : α → Json) (depth : Nat) {xs : List α}
    (h : ∀ x ∈ xs, Reads item (prettyAt (depth + 1) (f x)) x)
    (hstart : ∀ x ∈ xs, ∃ c t, prettyAt (depth + 1) (f x) = c :: t ∧ isBlank c = false ∧ c ≠ ']') :
    ∃ t, prettyAt depth (.array (xs.map f)) = '[' :: t ∧
      ∀ rest, readList ']' item (t ++ rest) = .ok (xs, rest) := by
  cases xs with
  | nil => exact ⟨[']'], rfl, fun rest => rfl⟩
  | cons x xs =>
      obtain ⟨c, t, hwrite, hblank, hc⟩ := hstart x List.mem_cons_self
      refine ⟨prettyItems (depth + 1) ((x :: xs).map f) ++ newLine depth ++ [']'], rfl,
        fun rest => ?_⟩
      have hread := readList_moreLines (.inl rfl) (prettyAt (depth + 1) ∘ f) h hwrite
        hblank hc (depth + 1) depth rest
      rw [List.map_cons, prettyItems_cons, List.map_map]
      simpa only [List.append_assoc, List.singleton_append, Function.comp_apply] using hread

/-- What holds of every item that is read holds of the items of a list that is read. -/
theorem forall_mem_of_readList {close : Char} {item : Reader δ α} {P : α → Prop}
    (h : ∀ t x rest, item t = .ok (x, rest) → P x) {t rest : Text} {xs : List α}
    (hread : readList close item t = .ok (xs, rest)) : ∀ x ∈ xs, P x := by
  have hitems : ∀ (fuel : Nat) {t : Text} {xs : List α},
      readItems close item fuel t = .ok (xs, rest) → ∀ x ∈ xs, P x := by
    intro fuel
    induction fuel with
    | zero => exact fun hread => nomatch hread
    | succ fuel ih =>
        intro t xs hread
        rw [readItems] at hread
        cases hx : item t with
        | error e =>
            rw [hx] at hread
            cases hread
        | ok x =>
            rw [hx] at hread
            dsimp only [bind, Except.bind] at hread
            split at hread
            · cases hread
            split at hread
            · cases hrest : readItems close item fuel _ with
              | error e =>
                  rw [hrest] at hread
                  cases hread
              | ok xs =>
                  rw [hrest] at hread
                  cases hread
                  exact List.forall_mem_cons.2 ⟨h t x.1 x.2 hx, ih hrest⟩
            split at hread
            · cases hread
              exact List.forall_mem_singleton.2 (h t x.1 x.2 hx)
            · cases hread
  unfold readList at hread
  split at hread
  · cases hread
  split at hread
  · cases hread
    exact List.forall_mem_nil _
  · exact hitems _ hread

/-! ## Values -/

theorem readKey_stringText {blanks : Text} (h : ∀ c ∈ blanks, isBlank c = true) (key rest : Text) :
    readKey (blanks ++ (stringText key ++ ':' :: rest)) =
      (.ok (key, rest) : Except (ReadError δ) _) := by
  unfold readKey stringText
  rw [List.cons_append, List.append_assoc, skipBlanks_append h rfl]
  simp only [if_true, List.singleton_append, readString_escape, bind, Except.bind]
  unfold expectMark
  rw [skipBlanks_cons rfl]
  simp only [if_true]

theorem readValue_string (depth : Nat) (t : Text) :
    Reads (δ := δ) (readValue (depth + 1)) (stringText t) (.string t) := by
  intro blanks rest hblanks hrest
  rw [readValue, readShape_string t blanks rest hblanks hrest]
  rfl

/-- An object with one string under one key is read. -/
theorem readValue_object (depth outer : Nat) (key t : Text) :
    Reads (δ := δ) (readValue (depth + 2)) (prettyAt outer (.object [(key, .string t)]))
      (.object [(key, .string t)]) := by
  intro blanks rest hblanks _
  have htext : prettyAt outer (.object [(key, .string t)]) ++ rest = '{' :: (newLine (outer + 1) ++
      (memberText (outer + 1) (key, .string t) ++
        (moreLines (outer + 1) [] ++ (newLine outer ++ '}' :: rest)))) := by
    rw [prettyAt, prettyMembers_cons]
    · simp
    · exact List.cons_ne_nil _ _
  have hmember : ∀ rest, memberText (outer + 1) (key, .string t) ++ rest =
      stringText key ++ ':' :: ([' '] ++ (stringText t ++ rest)) := by
    intro rest
    unfold memberText
    simp [prettyAt, scalarText]
  rw [readValue, htext, readShape_brace hblanks]
  dsimp only [bind, Except.bind]
  rw [if_neg (Nat.succ_ne_zero depth)]
  refine congrArg (Except.map _) (readList_moreLines (.inr rfl) (memberText (outer + 1))
    (List.forall_mem_singleton.2 ?_) (c := '"') rfl rfl (by decide) (outer + 1) outer rest)
  intro blanks rest hblanks hrest
  have hvalue :=
    readValue_string (δ := δ) depth t [' '] rest (List.forall_mem_singleton.2 rfl) hrest
  rw [hmember]
  simp only [readKey_stringText hblanks, hvalue]

end Json

end Fillout
