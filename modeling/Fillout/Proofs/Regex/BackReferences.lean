import Fillout.Proofs.Regex.Groups
import Fillout.Proofs.Template.Flat
import Mathlib.Data.List.TakeWhile
import Mathlib.Data.Nat.Init

set_option autoImplicit false

/-! # References to groups mean what they say

A replacement in plain notation is first written in braced notation and then read again. What comes
out is what its author means (`Replacement.Reads`): a number refers to the group with this number,
however many digits it has and whatever follows it, and what is not meant as a reference is copied.

In the braced form every dollar sign is doubled or has a brace behind it that is closed. So the
reader of that form never joins what was written for two signs. Each way to go on in the plain
notation has its equation for `braced` and its equation for `expand`, and `Replacement.Reads.expand`
puts them together by induction on the reading.
-/

namespace Fillout

namespace Regex

namespace Replacement

variable {t rest after name : Text} {c : Char}

/-! ## The meaning of the plain notation -/

/-- A replacement in plain notation, read from left to right, with the text that it stands for. -/
inductive Reads (group : Nat → Text) : Text → Text → Prop
  | nil : Reads group [] []
  | copied {c : Char} {t out : Text} (hc : c ≠ '$') (h : Reads group t out) :
      Reads group (c :: t) (c :: out)
  | doubled {t out : Text} (h : Reads group t out) : Reads group ('$' :: '$' :: t) ('$' :: out)
  | whole {t out : Text} (h : Reads group t out) : Reads group ('$' :: '&' :: t) (group 0 ++ out)
  /-- The digits of a number go as far as they can. -/
  | number {digits t out : Text} {n : Nat} (hread : digits.toNat? = some n)
      (hend : ∀ c ∈ t.head?, c.isDigit = false) (h : Reads group t out) :
      Reads group ('$' :: (digits ++ t)) (group n ++ out)
  /-- A dollar sign of which none of the above holds. -/
  | single {t out : Text} (hnext : ∀ c ∈ t.head?, c ≠ '$' ∧ c ≠ '&' ∧ c.isDigit = false)
      (h : Reads group t out) : Reads group ('$' :: t) ('$' :: out)

/-! ## The reader of the braced notation -/

theorem length_of_reference? {r : Reference} (h : reference? t = some (r, after)) :
    after.length ≤ t.length := by
  unfold reference? at h
  split at h
  · split at h
    · rename_i name after' hcut
      cases h
      rw [← Text.append_of_cut? hcut]
      simp
      omega
    · cases h
  · dsimp only at h
    split at h
    · cases h
    · cases h
      exact (List.dropWhile_suffix isNameChar).length_le

theorem parts_char (hc : c ≠ '$') (fuel : Nat) (rest : Text) :
    parts (fuel + 1) (c :: rest) = .text c :: parts fuel rest :=
  if_pos (bne_iff_ne.2 hc)

theorem parts_dollar (fuel : Nat) (rest : Text) :
    parts (fuel + 1) ('$' :: '$' :: rest) = .text '$' :: parts fuel rest := rfl

theorem parts_reference {r : Reference} (hnext : ∀ more, rest ≠ '$' :: more)
    (hr : reference? rest = some (r, after)) (fuel : Nat) :
    parts (fuel + 1) ('$' :: rest) = .group r :: parts fuel after := by
  rw [parts, if_neg (by decide)]
  · simp only [hr]
  · exact hnext

theorem parts_single (hnext : ∀ more, rest ≠ '$' :: more) (hr : reference? rest = none)
    (fuel : Nat) : parts (fuel + 1) ('$' :: rest) = .text '$' :: parts fuel rest := by
  rw [parts, if_neg (by decide)]
  · simp only [hr]
  · exact hnext

/-- The reader takes one part, and goes on behind it. -/
theorem exists_part (c : Char) (rest : Text) : ∃ part after, after.length ≤ rest.length ∧
    ∀ fuel, parts (fuel + 1) (c :: rest) = part :: parts fuel after := by
  by_cases hc : c = '$'
  · subst hc
    by_cases hdouble : ∃ more, rest = '$' :: more
    · obtain ⟨more, rfl⟩ := hdouble
      exact ⟨.text '$', more, Nat.le_succ _, fun fuel => parts_dollar fuel more⟩
    · have hnext : ∀ more, rest ≠ '$' :: more := not_exists.1 hdouble
      cases hr : reference? rest with
      | none => exact ⟨.text '$', rest, Nat.le_refl _, parts_single hnext hr⟩
      | some found =>
        exact ⟨.group found.1, found.2, length_of_reference? hr, parts_reference hnext hr⟩
  · exact ⟨.text c, rest, Nat.le_refl _, fun fuel => parts_char hc fuel rest⟩

theorem parts_succ {fuel : Nat} (h : t.length ≤ fuel) : parts (fuel + 1) t = parts fuel t := by
  induction fuel generalizing t with
  | zero =>
      obtain rfl := List.length_eq_zero_iff.1 (Nat.le_zero.1 h)
      rfl
  | succ fuel ih =>
      cases t with
      | nil => rfl
      | cons c rest =>
          obtain ⟨part, after, hle, hparts⟩ := exists_part c rest
          have hafter : after.length ≤ fuel := Nat.le_trans hle (Nat.le_of_succ_le_succ h)
          rw [hparts, hparts, ih hafter]

/-- It does not matter how much fuel there is beyond the length of the text. -/
theorem parts_of_le {fuel : Nat} (h : t.length ≤ fuel) : parts fuel t = parts t.length t := by
  induction fuel, h using Nat.le_induction with
  | base => rfl
  | succ fuel h ih => rw [parts_succ h, ih]

section

variable (group : Reference → Text)

theorem expand_cons (hc : c ≠ '$') (t : Text) : expand group (c :: t) = c :: expand group t := by
  unfold expand
  rw [List.length_cons, parts_char hc, List.flatMap_cons]
  rfl

theorem expand_dollar (t : Text) : expand group ('$' :: '$' :: t) = '$' :: expand group t := by
  unfold expand
  rw [List.length_cons, parts_dollar, List.flatMap_cons, List.length_cons,
    parts_of_le (Nat.le_succ _)]
  rfl

/-- A name in braces is a reference, whatever follows the closing brace. -/
theorem expand_reference (hname : '}' ∉ name) (t : Text) :
    expand group ('$' :: '{' :: (name ++ '}' :: t)) = group (.ofText name) ++ expand group t := by
  have hcut : Text.cut? ['}'] (name ++ '}' :: t) = some (name, t) := by
    have h := Text.cut?_append hname [] t
    rwa [List.append_assoc] at h
  have hr : reference? ('{' :: (name ++ '}' :: t)) = some (.ofText name, t) := by
    simp only [reference?, hcut]
  have hnext : ∀ more, '{' :: (name ++ '}' :: t) ≠ '$' :: more := by
    rintro more ⟨⟩
  have hle : t.length ≤ ('{' :: (name ++ '}' :: t)).length := by
    simp
    omega
  unfold expand
  rw [List.length_cons, parts_reference hnext hr, List.flatMap_cons, parts_of_le hle]

end

/-! ## What is written in braced notation -/

theorem braced_nil : braced [] = [] := by
  rw [braced]

theorem braced_cons (hc : c ≠ '$') (t : Text) : braced (c :: t) = c :: braced t := by
  rw [braced.eq_def]
  exact if_pos (bne_iff_ne.2 hc)

theorem braced_doubled (t : Text) : braced ('$' :: '$' :: t) = '$' :: '$' :: braced t := by
  rw [braced, if_neg (by decide)]

theorem braced_whole (t : Text) :
    braced ('$' :: '&' :: t) = '$' :: '{' :: (['0'] ++ '}' :: braced t) := by
  rw [braced, if_neg (by decide)]
  rfl

/-- Digits in front of what is no digit are a maximal run. -/
theorem span_digits {digits : Text} (hdigits : ∀ c ∈ digits, c.isDigit = true)
    (hend : ∀ c ∈ t.head?, c.isDigit = false) :
    (digits ++ t).takeWhile Char.isDigit = digits ∧ (digits ++ t).dropWhile Char.isDigit = t := by
  have hstop : t.takeWhile Char.isDigit = [] ∧ t.dropWhile Char.isDigit = t := by
    cases t with
    | nil => exact ⟨rfl, rfl⟩
    | cons c t =>
        have hc : ¬ c.isDigit = true := Bool.eq_false_iff.1 (hend c rfl)
        exact ⟨List.takeWhile_cons_of_neg hc, List.dropWhile_cons_of_neg hc⟩
  rw [List.takeWhile_append_of_pos hdigits, List.dropWhile_append_of_pos hdigits, hstop.1, hstop.2,
    List.append_nil]
  exact ⟨rfl, rfl⟩

theorem braced_number {digits : Text} {n : Nat} (hread : digits.toNat? = some n)
    (hend : ∀ c ∈ t.head?, c.isDigit = false) :
    braced ('$' :: (digits ++ t)) = '$' :: '{' :: (digits ++ '}' :: braced t) := by
  have hdigits := Text.isDigit_of_toNat? hread
  obtain ⟨htake, hdrop⟩ := span_digits hdigits hend
  obtain ⟨d, more, rfl⟩ : ∃ d more, digits = d :: more := by
    cases digits with
    | nil => cases hread
    | cons d more => exact ⟨d, more, rfl⟩
  have hd := hdigits d List.mem_cons_self
  rw [braced, if_neg (by decide), htake, hdrop]
  · rfl
  · rintro more' ⟨⟩
    cases hd
  · rintro more' ⟨⟩
    cases hd

theorem braced_single (hnext : ∀ c ∈ t.head?, c ≠ '$' ∧ c ≠ '&' ∧ c.isDigit = false) :
    braced ('$' :: t) = '$' :: '$' :: braced t := by
  have htake := (@span_digits t [] (List.forall_mem_nil _) fun c hc => (hnext c hc).2.2).1
  rw [List.nil_append] at htake
  rw [braced, if_neg (by decide), htake]
  · rfl
  · rintro more rfl
    exact (hnext '$' rfl).1 rfl
  · rintro more rfl
    exact (hnext '&' rfl).2.1 rfl

/-! ## The two notations together -/

/-- What is read is what comes out, if the references by digits are those to the groups with these
numbers. -/
theorem Reads.expand {group : Reference → Text} {number : Nat → Text} {out : Text}
    (hgroup : ∀ name n, name.toNat? = some n → group (.ofText name) = number n)
    (h : Reads number t out) :
    Replacement.expand group (braced t) = out := by
  -- the reading says how to go on, and both notations follow it
  induction h with
  | nil =>
      rw [braced_nil]
      rfl
  | copied hc h ih => rw [braced_cons hc, expand_cons group hc, ih]
  | doubled h ih => rw [braced_doubled, expand_dollar, ih]
  | whole h ih => rw [braced_whole, expand_reference group (by decide), ih, hgroup ['0'] 0 rfl]
  | @number digits t out n hread hend h ih =>
      have hbrace : '}' ∉ digits := fun hmem => by
        have hdigit := Text.isDigit_of_toNat? hread '}' hmem
        cases hdigit
      rw [braced_number hread hend, expand_reference group hbrace, ih, hgroup digits n hread]
  | single hnext h ih => rw [braced_single hnext, expand_dollar, ih]

/-- A digit starts a number, behind which something else stands. -/
theorem exists_number (hc : c.isDigit = true) (t : Text) :
    ∃ (digits : Text) (n : Nat) (rest : Text),
    c :: t = digits ++ rest ∧ digits.toNat? = some n ∧ (∀ d ∈ rest.head?, d.isDigit = false) ∧
      rest.length ≤ t.length := by
  obtain ⟨n, hread⟩ := Text.exists_toNat? (List.cons_ne_nil c (t.takeWhile Char.isDigit))
    (List.forall_mem_cons.2 ⟨hc, fun d hd => List.mem_takeWhile_imp hd⟩)
  -- all the digits that follow, and what the run of digits stops at
  refine ⟨c :: t.takeWhile Char.isDigit, n, t.dropWhile Char.isDigit, ?_, hread, fun d hd => ?_,
    (List.dropWhile_suffix Char.isDigit).length_le⟩
  · rw [List.cons_append, List.takeWhile_append_dropWhile]
  · have hstop := List.head?_dropWhile_not Char.isDigit t
    rw [hd] at hstop
    exact hstop

/-- Whatever follows a dollar sign, it is one of the four things that a dollar sign can be. -/
theorem exists_reads_dollar {group : Nat → Text}
    (hshorter : ∀ s : Text, s.length ≤ t.length → ∃ out, Reads group s out) :
    ∃ out, Reads group ('$' :: t) out := by
  obtain ⟨out, ht⟩ := hshorter t (Nat.le_refl _)
  cases t with
  | nil => exact ⟨_, .single (fun _ hd => nomatch hd) ht⟩
  | cons d t =>
      obtain ⟨out', htail⟩ := hshorter t (Nat.le_succ _)
      by_cases hdouble : d = '$'
      · subst hdouble
        exact ⟨_, .doubled htail⟩
      by_cases hwhole : d = '&'
      · subst hwhole
        exact ⟨_, .whole htail⟩
      by_cases hdigit : d.isDigit = true
      · obtain ⟨digits, n, rest, he, hread, hend, hle⟩ := exists_number hdigit t
        obtain ⟨out'', hrest⟩ := hshorter rest (Nat.le_succ_of_le hle)
        rw [he]
        exact ⟨_, .number hread hend hrest⟩
      · refine ⟨_, .single ?_ ht⟩
        rintro _ ⟨⟩
        exact ⟨hdouble, hwhole, eq_false_of_ne_true hdigit⟩

/-- Every text can be read. -/
theorem exists_reads (group : Nat → Text) (t : Text) : ∃ out, Reads group t out := by
  induction hlength : t.length using Nat.strong_induction_on generalizing t with
  | _ length ih =>
      subst hlength
      cases t with
      | nil => exact ⟨[], .nil⟩
      | cons c t =>
          have hshorter : ∀ s : Text, s.length ≤ t.length → ∃ out, Reads group s out := fun s hs =>
            ih s.length (Nat.lt_succ_of_le hs) s rfl
          by_cases hc : c = '$'
          · subst hc
            exact exists_reads_dollar hshorter
          · obtain ⟨out, ht⟩ := hshorter t (Nat.le_refl _)
            exact ⟨_, .copied hc ht⟩

end Replacement

open Replacement (Reads braced expand exists_reads)

variable {pattern whole : Text} {p : Program} {slots : Slots}

/-- In what takes the place of a match, the references of the plain notation mean what they say. -/
theorem expand_braced_iff_reads (hp : compile? pattern = some p)
    (hslots : slots ∈ p.allMatches whole) (replacement out : Text) :
    expand (groupText p whole slots) (braced replacement) = out ↔
      Reads (groupOf whole slots) replacement out := by
  have hexpand : ∀ {out}, Reads (groupOf whole slots) replacement out →
      expand (groupText p whole slots) (braced replacement) = out :=
    Reads.expand fun _ _ hread => groupText_ofText hp hslots hread
  constructor
  · -- there is a reading, and it gives this text
    rintro rfl
    obtain ⟨out, hreads⟩ := exists_reads (groupOf whole slots) replacement
    rwa [hexpand hreads]
  · exact hexpand

/-- A match in which the second group takes no part, and a replacement with every kind of dollar
sign. -/
theorem expand_braced_iff_reads_absentGroup : ∃ p slots,
    compile? "(a)(b)?".toList = some p ∧ slots ∈ p.allMatches "xa".toList ∧
      Reads (groupOf "xa".toList slots) "$1a$2{$&}$$1$".toList "aa{a}$1$".toList := by
  have hcompiles : (compile? "(a)(b)?".toList).isSome = true := by decide +kernel
  have hmatch : #[some 1, some 2, some 1, some 2, none, none] ∈
      (compile? "(a)(b)?".toList).elim [] fun p => p.allMatches "xa".toList := by decide +kernel
  have hexpand : ((compile? "(a)(b)?".toList).map fun p =>
      expand (groupText p "xa".toList #[some 1, some 2, some 1, some 2, none, none])
        (braced "$1a$2{$&}$$1$".toList)) = some "aa{a}$1$".toList := by decide +kernel
  obtain ⟨p, hp⟩ := Option.isSome_iff_exists.1 hcompiles
  rw [hp] at hmatch hexpand
  exact ⟨p, _, hp, hmatch, (expand_braced_iff_reads hp hmatch _ _).1 (Option.some.inj hexpand)⟩

end Regex

end Fillout
