set_option autoImplicit false

/-! # Sets of code points

A set of code points is kept as its bounds, in ascending order: the first member of the first
stretch of members, the first code point behind that stretch, the first member of the second
stretch, and so on. A code point is a member if an odd number of bounds lies at or below it.

All operations on sets are one pass over the bounds of two sets (`mergeFrom`), and `contains_merge`
says what it does: membership in the result is the operation on the memberships.
-/

namespace Fillout.Unicode

/-- A set of code points, given by the places where membership changes. -/
structure CodeSet where
  bounds : List Nat
  deriving DecidableEq

namespace CodeSet

/-- Membership of `n`, where `inside` is the membership in front of the first bound. -/
def containsFrom (inside : Bool) : List Nat → Nat → Bool
  | [], _ => inside
  | b :: rest, n => if n < b then inside else containsFrom (!inside) rest n

/-- Whether a code point belongs to the set. -/
def contains (s : CodeSet) (n : Nat) : Bool := containsFrom false s.bounds n

/-- Whether a character belongs to the set. -/
def mem (s : CodeSet) (c : Char) : Bool := s.contains c.toNat

/-- The number of code points. -/
def limit : Nat := 0x110000

/-- The set without members. -/
def empty : CodeSet := ⟨[]⟩

/-- The set of all code points. -/
def all : CodeSet := ⟨[0, limit]⟩

/-- The code points from `first` to `last`. -/
def interval (first last : Nat) : CodeSet := ⟨[first, last + 1]⟩

/-- The set of the given stretches, each from its first to its last member. -/
def ofIntervals (stretches : List (Nat × Nat)) : CodeSet :=
  ⟨stretches.flatMap fun (first, last) => [first, last + 1]⟩

/-- The stretches that bounds enclose, each with its first and its last member. -/
def intervalsOf : List Nat → List (Nat × Nat)
  | first :: stop :: rest => (first, stop - 1) :: intervalsOf rest
  | _ => []

/-- The stretches of members, each with its first and its last member. -/
def intervals (s : CodeSet) : List (Nat × Nat) := intervalsOf s.bounds

/-- A bound in front of `rest`, if membership changes from `before` to `after` there. -/
def mark (place : Nat) (before after : Bool) (rest : List Nat) : List Nat :=
  if before = after then rest else place :: rest

/-- The bounds of the set whose membership is `op` of the memberships `inA` and `inB`, which change
at the bounds of two sets. -/
def mergeFrom (op : Bool → Bool → Bool) (inA inB : Bool) : List Nat → List Nat → List Nat
  | [], [] => []
  | a :: as, [] => mark a (op inA inB) (op (!inA) inB) (mergeFrom op (!inA) inB as [])
  | [], b :: bs => mark b (op inA inB) (op inA (!inB)) (mergeFrom op inA (!inB) [] bs)
  | a :: as, b :: bs =>
      if a < b then
        mark a (op inA inB) (op (!inA) inB) (mergeFrom op (!inA) inB as (b :: bs))
      else if b < a then
        mark b (op inA inB) (op inA (!inB)) (mergeFrom op inA (!inB) (a :: as) bs)
      else
        mark a (op inA inB) (op (!inA) (!inB)) (mergeFrom op (!inA) (!inB) as bs)
termination_by as bs => as.length + bs.length

/-- The code points for which `op` of the memberships in two sets holds; `op` has to be false of
code points in neither set. -/
def merge (op : Bool → Bool → Bool) (s t : CodeSet) : CodeSet :=
  ⟨mergeFrom op false false s.bounds t.bounds⟩

/-- The members of either set. -/
def union (s t : CodeSet) : CodeSet := merge (· || ·) s t

/-- The members of both sets. -/
def inter (s t : CodeSet) : CodeSet := merge (· && ·) s t

/-- The members of the first set only. -/
def diff (s t : CodeSet) : CodeSet := merge (fun a b => a && !b) s t

/-- The members of exactly one of the sets. -/
def symmDiff (s t : CodeSet) : CodeSet := merge (fun a b => a != b) s t

/-- The members of any of the sets. -/
def unions (sets : List CodeSet) : CodeSet := sets.foldl union empty

/-- Bounds in ascending order. -/
def Ascending (s : CodeSet) : Prop := s.bounds.Pairwise (· ≤ ·)

/-! ## What the operations do -/

theorem containsFrom_of_lt {n : Nat} {bounds : List Nat} (inside : Bool)
    (h : ∀ b ∈ bounds, n < b) : containsFrom inside bounds n = inside := by
  cases bounds with
  | nil => rfl
  | cons b rest => simp [containsFrom, h b]

theorem containsFrom_mark {n place : Nat} {before after : Bool} {rest : List Nat}
    (h : n < place → ∀ b ∈ rest, n < b) :
    containsFrom before (mark place before after rest) n =
      if n < place then before else containsFrom after rest n := by
  unfold mark
  by_cases e : before = after
  · subst e
    by_cases hn : n < place
    · simp [hn, containsFrom_of_lt _ (h hn)]
    · simp [hn]
  · have : after = !before := by cases before <;> cases after <;> simp_all
    subst this
    simp [containsFrom]

theorem mem_mark {x place : Nat} {before after : Bool} {rest : List Nat}
    (h : x ∈ mark place before after rest) : x = place ∨ x ∈ rest := by
  unfold mark at h
  split at h
  · exact .inr h
  · simpa using h

/-- A merge has no bounds of its own. -/
theorem mem_mergeFrom {op : Bool → Bool → Bool} {inA inB : Bool} {as bs : List Nat} {x : Nat}
    (h : x ∈ mergeFrom op inA inB as bs) : x ∈ as ∨ x ∈ bs := by
  fun_induction mergeFrom op inA inB as bs with
  | case1 => simp at h
  | case2 _ _ _ _ ih => rcases mem_mark h with rfl | h <;> grind
  | case3 _ _ _ _ ih => rcases mem_mark h with rfl | h <;> grind
  | case4 _ _ _ _ _ _ _ ih => rcases mem_mark h with rfl | h <;> grind
  | case5 _ _ _ _ _ _ _ _ ih => rcases mem_mark h with rfl | h <;> grind
  | case6 _ _ _ _ _ _ _ _ ih => rcases mem_mark h with rfl | h <;> grind

theorem containsFrom_mergeFrom {op : Bool → Bool → Bool} {inA inB : Bool} {as bs : List Nat}
    (n : Nat) (ha : as.Pairwise (· ≤ ·)) (hb : bs.Pairwise (· ≤ ·)) :
    containsFrom (op inA inB) (mergeFrom op inA inB as bs) n =
      op (containsFrom inA as n) (containsFrom inB bs n) := by
  fun_induction mergeFrom op inA inB as bs with
  | case1 => rfl
  | case2 inA inB a as ih =>
    rw [List.pairwise_cons] at ha
    rw [containsFrom_mark (fun h b hb => by have := mem_mergeFrom hb; grind), ih ha.2 hb]
    by_cases h : n < a <;> simp [containsFrom, h]
  | case3 inA inB b bs ih =>
    rw [List.pairwise_cons] at hb
    rw [containsFrom_mark (fun h c hc => by have := mem_mergeFrom hc; grind), ih ha hb.2]
    by_cases h : n < b <;> simp [containsFrom, h]
  | case4 inA inB a as b bs hab ih =>
    rw [List.pairwise_cons] at ha hb
    rw [containsFrom_mark (fun h c hc => by have := mem_mergeFrom hc; grind),
      ih ha.2 (List.pairwise_cons.2 hb)]
    by_cases h : n < a
    · have : n < b := by omega
      simp [containsFrom, h, this]
    · simp [containsFrom, h]
  | case5 inA inB a as b bs _ hba ih =>
    rw [List.pairwise_cons] at ha hb
    rw [containsFrom_mark (fun h c hc => by have := mem_mergeFrom hc; grind),
      ih (List.pairwise_cons.2 ha) hb.2]
    by_cases h : n < b
    · have : n < a := by omega
      simp [containsFrom, h, this]
    · simp [containsFrom, h]
  | case6 inA inB a as b bs hab hba ih =>
    have : a = b := by omega
    subst this
    rw [List.pairwise_cons] at ha hb
    rw [containsFrom_mark (fun h c hc => by have := mem_mergeFrom hc; grind), ih ha.2 hb.2]
    by_cases h : n < a <;> simp [containsFrom, h]

/-- Membership in a merge is the operation on the memberships. -/
theorem contains_merge {op : Bool → Bool → Bool} (hop : op false false = false) {s t : CodeSet}
    (hs : s.Ascending) (ht : t.Ascending) (n : Nat) :
    (merge op s t).contains n = op (s.contains n) (t.contains n) := by
  have := @containsFrom_mergeFrom op false false _ _ n hs ht
  rwa [hop] at this

/-- An interval contains what lies between its ends. -/
theorem contains_interval (first last n : Nat) :
    (interval first last).contains n = (decide (first ≤ n) && decide (n ≤ last)) := by
  by_cases h : n < first <;> by_cases k : n < last + 1 <;>
    simp [interval, contains, containsFrom, h, k] <;> omega

end CodeSet

end Fillout.Unicode
