import Fillout.Unicode.CodeSet

set_option autoImplicit false

/-! # Tables of code points, kept as text

Properties of Unicode code points are large tables. They are kept here as short texts, line by line,
and read back by small functions:

* `numbers` reads decimal numbers with a blank between two of them;
* `CodeSet.ofTable` reads numbers as lengths, turn about outside and inside a set, from code point 0
  on;
* `labelledRuns` reads a text such as `65Zyyy26Latn` as runs of the given lengths, from code point 0
  on, each with the label behind its length.

`valueAt` looks up the value of a code point in a list of runs, and `CodeSet.ofRuns` collects the
code points whose value has a property; `contains_ofRuns` says that the two agree.
-/

namespace Fillout.Unicode

/-- The number read so far, `none` between two numbers. -/
def numbersFrom : Option Nat → List Char → List Nat
  | none, [] => []
  | some n, [] => [n]
  | acc, c :: rest =>
      if c.isDigit then
        numbersFrom (some (acc.getD 0 * 10 + (c.toNat - 48))) rest
      else
        match acc with
        | none => numbersFrom none rest
        | some n => n :: numbersFrom none rest

/-- The characters of a table, line after line. -/
def characters (lines : List String) : List Char := lines.flatMap String.toList

/-- The decimal numbers of a table, in order. -/
def numbers (lines : List String) : List Nat := numbersFrom none (characters lines)

/-- The places behind `start`, from the distances between them. -/
def placesFrom (start : Nat) : List Nat → List Nat
  | [] => []
  | distance :: rest => (start + distance) :: placesFrom (start + distance) rest

theorem le_of_mem_placesFrom {distances : List Nat} {start p : Nat}
    (h : p ∈ placesFrom start distances) : start ≤ p := by
  induction distances generalizing start with
  | nil => simp [placesFrom] at h
  | cons d rest ih =>
    rcases List.mem_cons.1 h with rfl | h
    · omega
    · have := ih h
      omega

theorem placesFrom_ascending (distances : List Nat) (start : Nat) :
    (placesFrom start distances).Pairwise (· ≤ ·) := by
  induction distances generalizing start with
  | nil => exact .nil
  | cons d rest ih => exact .cons (fun p h => le_of_mem_placesFrom h) (ih _)

/-- The set of code points that a table of lengths holds. -/
def CodeSet.ofTable (lines : List String) : CodeSet := ⟨placesFrom 0 (numbers lines)⟩

theorem CodeSet.ascending_ofTable (lines : List String) : (CodeSet.ofTable lines).Ascending :=
  placesFrom_ascending _ _

/-! ## Runs of equal values -/

/-- Runs of code points, from code point 0 on: how long each is, and the value of its members. -/
abbrev Runs (α : Type) := List (Nat × α)

/-- The value of the code point that lies `n` behind the start of the runs. -/
def valueAt {α : Type} : Runs α → Nat → Option α
  | [], _ => none
  | (length, a) :: rest, n => if n < length then some a else valueAt rest (n - length)

/-- The bounds of the members of runs that start at `start`, where `inside` is the membership in
front of it; `p` tells the members by their value. -/
def memberBounds {α : Type} (p : α → Bool) (start : Nat) (inside : Bool) : Runs α → List Nat
  | [] => if inside then [start] else []
  | (length, a) :: rest =>
      if p a = inside then memberBounds p (start + length) inside rest
      else start :: memberBounds p (start + length) (p a) rest

/-- The code points with a value of which `p` holds. -/
def CodeSet.ofRuns {α : Type} (p : α → Bool) (runs : Runs α) : CodeSet :=
  ⟨memberBounds p 0 false runs⟩

theorem le_of_mem_memberBounds {α : Type} {p : α → Bool} {runs : Runs α} {start b : Nat}
    {inside : Bool} (h : b ∈ memberBounds p start inside runs) : start ≤ b := by
  induction runs generalizing start inside with
  | nil => cases inside <;> simp_all [memberBounds]
  | cons run rest ih =>
    unfold memberBounds at h
    split at h
    · have := ih h
      omega
    · rcases List.mem_cons.1 h with rfl | h
      · omega
      · have := ih h
        omega

theorem containsFrom_memberBounds {α : Type} {p : α → Bool} (runs : Runs α) (start n : Nat)
    (inside : Bool) :
    CodeSet.containsFrom inside (memberBounds p start inside runs) (start + n) =
      (valueAt runs n).any p := by
  induction runs generalizing start n inside with
  | nil => cases inside <;> simp [memberBounds, valueAt, CodeSet.containsFrom]
  | cons run rest ih =>
    obtain ⟨length, a⟩ := run
    have step :
        CodeSet.containsFrom (p a) (memberBounds p (start + length) (p a) rest) (start + n) =
          (valueAt ((length, a) :: rest) n).any p := by
      unfold valueAt
      split
      · rw [CodeSet.containsFrom_of_lt _ fun b h => by have := le_of_mem_memberBounds h; omega]
        rfl
      · rw [← ih (start + length) (n - length)]
        congr 1
        omega
    unfold memberBounds
    split
    · rename_i h
      rw [← h]
      exact step
    · rename_i h
      rw [CodeSet.containsFrom, if_neg (by omega), ← step]
      congr 1
      cases inside <;> cases e : p a <;> simp_all

/-- A code point is collected if its value has the property. -/
theorem CodeSet.contains_ofRuns {α : Type} (p : α → Bool) (runs : Runs α) (n : Nat) :
    (CodeSet.ofRuns p runs).contains n = (valueAt runs n).any p := by
  simpa [contains, ofRuns] using containsFrom_memberBounds (p := p) runs 0 n false

/-- Runs from their text; `length` and `label` are what has been read of the first. -/
def labelledRunsFrom (length : Nat) (label : List Char) : List Char → Runs (List Char)
  | [] => if label.isEmpty then [] else [(length, label)]
  | c :: rest =>
      if c.isDigit then
        if label.isEmpty then labelledRunsFrom (length * 10 + (c.toNat - 48)) [] rest
        else (length, label) :: labelledRunsFrom (c.toNat - 48) [] rest
      else labelledRunsFrom length (label ++ [c]) rest

/-- The runs that a table holds, each with its label. -/
def labelledRuns (lines : List String) : Runs (List Char) :=
  labelledRunsFrom 0 [] (characters lines)

example : CodeSet.ofTable ["65 26 ", "6 26"] = ⟨[65, 91, 97, 123]⟩ := by decide

example : labelledRuns ["3Zs", "2Lu"] = [(3, ['Z', 's']), (2, ['L', 'u'])] := by decide

end Fillout.Unicode
