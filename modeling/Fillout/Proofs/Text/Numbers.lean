import Fillout.Text.Basic

set_option autoImplicit false

/-! # Numbers in decimal digits

What is read as a number are digits, and all digits are read as one. How many digits a number has
and which ones determine each other, but for zeros in front: digits of one length that write one
number are the same (`eq_of_toNat?`).
-/

namespace Fillout

namespace Text

variable {s t : Text} {a b : Char} {k m n : Nat}

/-! ## Digits -/

theorem toNat_of_isDigit (h : a.isDigit = true) : 48 ≤ a.toNat ∧ a.toNat ≤ 57 :=
  Char.isDigit_iff_toNat.1 h

theorem isWhitespace_of_isDigit (h : a.isDigit = true) : Unicode.isWhitespace a = false := by
  obtain ⟨hle, hlt⟩ := toNat_of_isDigit h
  unfold Unicode.isWhitespace
  simp
  omega

theorem digitValue?_eq_some : digitValue? a = some n ↔ a.isDigit = true ∧ a.toNat = n + 48 := by
  unfold digitValue?
  by_cases ha : a.isDigit = true
  · have hle := (toNat_of_isDigit ha).1
    rw [if_pos ha, Option.some.injEq, and_iff_right ha]
    omega
  · simp [ha]

/-! ## What is read as a number -/

theorem toNat?_eq_some : t.toNat? = some n ↔ t ≠ [] ∧ appendDigits? 0 t = some n := by
  cases t with
  | nil =>
      constructor
      · intro h
        cases h
      · intro h
        exact absurd rfl h.1
  | cons c t => exact ⟨fun h => ⟨List.cons_ne_nil c t, h⟩, And.right⟩

theorem isDigit_of_appendDigits? (h : appendDigits? m t = some n) : ∀ c ∈ t, c.isDigit = true := by
  induction t generalizing m with
  | nil => exact List.forall_mem_nil _
  | cons c t ih =>
      obtain ⟨d, hd, ht⟩ := Option.bind_eq_some_iff.1 h
      exact List.forall_mem_cons.2 ⟨(digitValue?_eq_some.1 hd).1, ih ht⟩

/-- What can be read as a number consists of digits. -/
theorem isDigit_of_toNat? (h : t.toNat? = some n) : ∀ c ∈ t, c.isDigit = true :=
  isDigit_of_appendDigits? (toNat?_eq_some.1 h).2

theorem exists_appendDigits? (hdigits : ∀ c ∈ t, c.isDigit = true) (m : Nat) :
    ∃ n, appendDigits? m t = some n := by
  induction t generalizing m with
  | nil => exact ⟨m, rfl⟩
  | cons c t ih =>
      obtain ⟨hc, ht⟩ := List.forall_mem_cons.1 hdigits
      rw [appendDigits?, digitValue?, if_pos hc, Option.bind_some]
      exact ih ht _

/-- Digits can be read as a number, if there is one at all. -/
theorem exists_toNat? (hne : t ≠ []) (hdigits : ∀ c ∈ t, c.isDigit = true) :
    ∃ n, t.toNat? = some n :=
  (exists_appendDigits? hdigits 0).imp fun _ h => toNat?_eq_some.2 ⟨hne, h⟩

theorem toNat?_singleton : toNat? [a] = digitValue? a := by
  show (digitValue? a).bind (fun d => some (0 * 10 + d)) = _
  simp

theorem toNat?_pair (ha : digitValue? a = some m) :
    toNat? [a, b] = (digitValue? b).map (10 * m + ·) := by
  show (digitValue? a).bind
      (fun d => (digitValue? b).bind fun d' => some ((0 * 10 + d) * 10 + d')) = _
  rw [ha, Option.bind_some]
  cases digitValue? b with
  | none => rfl
  | some n => exact congrArg some (show (0 * 10 + m) * 10 + n = 10 * m + n by omega)

/-! ## How a number is written -/

theorem ofNat_ne_nil (n : Nat) : ofNat n ≠ [] :=
  (toNat?_eq_some.1 (toNat?_ofNat n)).1

/-- A number below the `k`-th power of ten has `k` digits at most, but always one. -/
theorem length_ofNat_le (h : n < 10 ^ (k + 1)) : (ofNat n).length ≤ k + 1 := by
  induction k generalizing n with
  | zero =>
      rw [ofNat, if_pos (by omega)]
      exact Nat.le_refl 1
  | succ k ih =>
      rw [ofNat]
      split
      · simp
      · have hshort := ih (show n / 10 < 10 ^ (k + 1) by omega)
        rw [List.length_append]
        simp only [List.length_cons, List.length_nil]
        omega

/-- Digit by digit, a number is written in one way only once it is known how many digits there
are. -/
theorem appendDigits?_injective {a b : Nat} (hlength : s.length = t.length)
    (hs : appendDigits? a s = some n) (ht : appendDigits? b t = some n) : a = b ∧ s = t := by
  induction s generalizing a b t with
  | nil =>
      obtain rfl := List.length_eq_zero_iff.1 hlength.symm
      cases hs
      cases ht
      exact ⟨rfl, rfl⟩
  | cons c s ih =>
      obtain ⟨e, t, rfl⟩ := List.exists_cons_of_length_eq_add_one hlength.symm
      obtain ⟨m, hm, hs⟩ := Option.bind_eq_some_iff.1 hs
      obtain ⟨k, hk, ht⟩ := Option.bind_eq_some_iff.1 ht
      obtain ⟨hsum, rfl⟩ := ih (Nat.succ.inj hlength) hs ht
      obtain ⟨hc, hmc⟩ := digitValue?_eq_some.1 hm
      obtain ⟨he, hke⟩ := digitValue?_eq_some.1 hk
      have hc := toNat_of_isDigit hc
      have he := toNat_of_isDigit he
      have hsame : c = e := Char.toNat_inj.1 (by omega)
      exact ⟨by omega, by rw [hsame]⟩

theorem eq_of_toNat? (hlength : s.length = t.length) (hs : s.toNat? = some n)
    (ht : t.toNat? = some n) : s = t :=
  (appendDigits?_injective hlength (toNat?_eq_some.1 hs).2 (toNat?_eq_some.1 ht).2).2

theorem appendDigits?_zeros (m : Nat) (t : Text) :
    appendDigits? 0 (List.replicate m '0' ++ t) = appendDigits? 0 t := by
  induction m with
  | zero => rfl
  | succ m ih =>
      rw [List.replicate_succ, List.cons_append]
      exact ih

/-- Zeros in front of a number do not change it. -/
theorem toNat?_zeros (h : t.toNat? = some n) (m : Nat) :
    toNat? (List.replicate m '0' ++ t) = some n := by
  obtain ⟨hne, hread⟩ := toNat?_eq_some.1 h
  exact toNat?_eq_some.2 ⟨List.append_ne_nil_of_right_ne_nil _ hne,
    (appendDigits?_zeros m t).trans hread⟩

end Text

end Fillout
