import Fillout.Proofs.Text.Numbers
import Fillout.Regex.Parser
import Fillout.Regex.Replacement

set_option autoImplicit false

/-! # Groups and their numbers

Two things are known of the groups of every compiled expression (`Groups.IsSound`): their names do
not start with a digit, and their numbers have 32 bits. Only the head of a group adds a group, so
what heads keep is kept by the parser as a whole (`keep_of_readGroupHead`).

A match has two slots for each group, and the machine never changes how many there are
(`Program.size_of_mem_allMatches`). So a text of digits refers to the group with this number however
long it is: where the number is too large to be read as one, there is no such group, and none of
this name either (`groupText_ofText`).
-/

namespace Fillout

namespace Regex

/-! ## What the parser opens -/

/-- What the parser keeps of the groups that it has opened. -/
structure Groups.IsSound (groups : Groups) : Prop where
  count_lt : groups.count < 2 ^ 32
  names : ∀ entry ∈ groups.names, ∃ first ∈ entry.1.head?, isNameChar true first = true

variable {f f' : Flags} {groups groups' : Groups} {t t' : Text}

namespace Groups.IsSound

theorem initial : Groups.IsSound ⟨0, []⟩ := ⟨by decide, List.forall_mem_nil _⟩

theorem next? (h : groups.IsSound) {index : Nat} (hnext : groups.next? = some index) :
    Groups.IsSound ⟨index, groups.names⟩ := by
  unfold Groups.next? at hnext
  split at hnext
  · cases hnext
    exact ⟨‹_›, h.names⟩
  · cases hnext

theorem named (h : groups.IsSound) {name rest : Text} {index : Nat}
    (hnext : groups.next? = some index) (hname : readGroupName groups t = some (name, rest)) :
    Groups.IsSound ⟨index, (name, index) :: groups.names⟩ := by
  refine ⟨(h.next? hnext).count_lt, List.forall_mem_cons.2 ⟨?_, h.names⟩⟩
  unfold readGroupName at hname
  dsimp only at hname
  split at hname
  · rename_i first more _ he
    split at hname
    · cases hname
      exact ⟨first, by rw [he]; rfl, And.left ‹_›⟩
    · cases hname
  · cases hname

end Groups.IsSound

/-- A head opens a group with the next number, with or without a name, or none. -/
theorem readGroupHead_eq_some {head : GroupHead}
    (hread : readGroupHead f groups t = some (head, groups', t')) :
    groups' = groups ∨ ∃ index, groups.next? = some index ∧ (groups' = ⟨index, groups.names⟩ ∨
      ∃ u name rest, readGroupName groups u = some (name, rest) ∧
        groups' = ⟨index, (name, index) :: groups.names⟩) := by
  have hnamed : ∀ u, (groups.next?.bind fun index => (readGroupName groups u).bind fun x =>
      some (GroupHead.group (some index) f,
        (⟨index, (x.1, index) :: groups.names⟩ : Groups), x.2)) = some (head, groups', t') →
      ∃ index, groups.next? = some index ∧ ∃ u name rest,
        readGroupName groups u = some (name, rest) ∧
          groups' = ⟨index, (name, index) :: groups.names⟩ := by
    intro u hu
    obtain ⟨index, hnext, hu⟩ := Option.bind_eq_some_iff.1 hu
    obtain ⟨⟨name, rest⟩, hname, hu⟩ := Option.bind_eq_some_iff.1 hu
    cases hu
    exact ⟨index, hnext, u, name, rest, hname, rfl⟩
  unfold readGroupHead at hread
  dsimp only at hread
  split at hread
  · split at hread
    · cases hread
    · cases hread
    · cases hread
    · cases hread
    · obtain ⟨index, hnext, hname⟩ := hnamed _ hread
      exact .inr ⟨index, hnext, .inr hname⟩
    · obtain ⟨index, hnext, hname⟩ := hnamed _ hread
      exact .inr ⟨index, hnext, .inr hname⟩
    · obtain ⟨⟨inner, u⟩, -, hread⟩ := Option.bind_eq_some_iff.1 hread
      split at hread
      · obtain ⟨x, -, hread⟩ := Option.bind_eq_some_iff.1 hread
        split at hread
        · cases hread
        · cases hread
          exact .inl rfl
      · cases hread
        exact .inl rfl
  · obtain ⟨index, hnext, he⟩ := Option.map_eq_some_iff.1 hread
    cases he
    exact .inr ⟨index, hnext, .inl rfl⟩

/-- What one turn of the reader of parts does with the groups: it stops, it goes on behind something
that opens no group, or behind a directive, or it reads a whole group and goes on behind that. -/
theorem readParts_succ {fuel : Nat} {parts parts' : List Part}
    (hread : readParts (fuel + 1) f groups parts t = some (parts', f', groups', t')) :
    groups' = groups ∨
    (∃ f₁ parts₁ t₁, readParts fuel f₁ groups parts₁ t₁ = some (parts', f', groups', t')) ∨
    ∃ u head groups₁ t₁, readGroupHead f groups u = some (head, groups₁, t₁) ∧
      ((∃ f₁ parts₁, readParts fuel f₁ groups₁ parts₁ t₁ = some (parts', f', groups', t')) ∨
        ∃ inner branches groups₂ t₂ parts₁ t₃,
          readBranches fuel inner groups₁ t₁ = some (branches, groups₂, t₂) ∧
          readParts fuel f groups₂ parts₁ t₃ = some (parts', f', groups', t')) := by
  rw [readParts] at hread
  split at hread
  · cases hread
    exact .inl rfl
  rename_i c rest _
  split at hread
  · cases hread
    exact .inl rfl
  split at hread
  · -- a head, and perhaps the branches of a group and the rest of the parts behind them
    obtain ⟨⟨head, groups₁, t₁⟩, hhead, hread⟩ := Option.bind_eq_some_iff.1 hread
    refine .inr (.inr ⟨rest, head, groups₁, t₁, hhead, ?_⟩)
    cases head with
    | directive f₁ => exact .inl ⟨f₁, _, hread⟩
    | group index inner =>
        obtain ⟨⟨branches, groups₂, t₂⟩, hbranches, hread⟩ := Option.bind_eq_some_iff.1 hread
        dsimp only at hread
        split at hread
        · exact .inr ⟨inner, branches, groups₂, _, _, _, hbranches, hread⟩
        · cases hread
  -- no other part opens a group
  refine .inr (.inl ?_)
  split at hread
  · obtain ⟨_, -, hread⟩ := Option.bind_eq_some_iff.1 hread
    obtain ⟨_, -, hread⟩ := Option.bind_eq_some_iff.1 hread
    exact ⟨_, _, _, hread⟩
  split at hread
  · obtain ⟨_, -, hread⟩ := Option.bind_eq_some_iff.1 hread
    exact ⟨_, _, _, hread⟩
  split at hread
  · obtain ⟨_, -, hread⟩ := Option.bind_eq_some_iff.1 hread
    obtain ⟨_, -, hread⟩ := Option.bind_eq_some_iff.1 hread
    exact ⟨_, _, _, hread⟩
  · obtain ⟨_, -, hread⟩ := Option.bind_eq_some_iff.1 hread
    exact ⟨_, _, _, hread⟩

theorem readBranches_succ {fuel : Nat} {branches : List (Pattern × Nat)}
    (hread : readBranches (fuel + 1) f groups t = some (branches, groups', t')) :
    ∃ parts f₁ groups₁ t₁, readParts fuel f groups [] t = some (parts, f₁, groups₁, t₁) ∧
      (groups' = groups₁ ∨
        ∃ t₂ branches₁, readBranches fuel f₁ groups₁ t₂ = some (branches₁, groups', t')) := by
  rw [readBranches] at hread
  obtain ⟨⟨parts, f₁, groups₁, t₁⟩, hparts, hread⟩ := Option.bind_eq_some_iff.1 hread
  refine ⟨parts, f₁, groups₁, t₁, hparts, ?_⟩
  dsimp only at hread
  split at hread
  · obtain ⟨⟨branches₁, groups₂, t₂⟩, hbranches, hread⟩ := Option.bind_eq_some_iff.1 hread
    cases hread
    exact .inr ⟨_, branches₁, hbranches⟩
  · cases hread
    exact .inl rfl

/-- What the heads of groups keep is kept by the parser as a whole. -/
theorem keep_of_readGroupHead {P : Groups → Prop}
    (hhead : ∀ f groups t head groups' t', P groups →
      readGroupHead f groups t = some (head, groups', t') → P groups') (fuel : Nat) :
    (∀ f groups t branches groups' t', P groups →
      readBranches fuel f groups t = some (branches, groups', t') → P groups') ∧
    (∀ f groups parts t parts' f' groups' t', P groups →
      readParts fuel f groups parts t = some (parts', f', groups', t') → P groups') := by
  -- the two readers call each other, and each call has less fuel
  induction fuel with
  | zero =>
      constructor
      · intro f groups t branches groups' t' _ hread
        rw [readBranches] at hread
        cases hread
      · intro f groups parts t parts' f' groups' t' _ hread
        rw [readParts] at hread
        cases hread
  | succ fuel ih =>
      obtain ⟨ihbranches, ihparts⟩ := ih
      constructor
      · intro f groups t branches groups' t' h hread
        obtain ⟨parts, f₁, groups₁, t₁, hparts, hread⟩ := readBranches_succ hread
        have h₁ := ihparts _ _ _ _ _ _ _ _ h hparts
        rcases hread with rfl | ⟨t₂, branches₁, hread⟩
        · exact h₁
        · exact ihbranches _ _ _ _ _ _ h₁ hread
      · intro f groups parts t parts' f' groups' t' h hread
        rcases readParts_succ hread with
          rfl | ⟨f₁, parts₁, t₁, hread⟩ | ⟨u, head, groups₁, t₁, hu, hread⟩
        · exact h
        · exact ihparts _ _ _ _ _ _ _ _ h hread
        · have h₁ := hhead _ _ _ _ _ _ h hu
          rcases hread with
            ⟨f₁, parts₁, hread⟩ | ⟨inner, branches, groups₂, t₂, parts₁, t₃, hbranches, hread⟩
          · exact ihparts _ _ _ _ _ _ _ _ h₁ hread
          · exact ihparts _ _ _ _ _ _ _ _ (ihbranches _ _ _ _ _ _ h₁ hbranches) hread

theorem Groups.IsSound.readGroupHead (h : groups.IsSound) {head : GroupHead}
    (hread : Regex.readGroupHead f groups t = some (head, groups', t')) : groups'.IsSound := by
  rcases readGroupHead_eq_some hread with rfl | ⟨index, hnext, rfl | ⟨u, name, rest, hname, rfl⟩⟩
  · exact h
  · exact h.next? hnext
  · exact h.named hnext hname

variable {pattern : Text} {p : Program}

/-- The groups of a compiled expression are those that the parser has opened. -/
theorem compile?_eq_some (h : compile? pattern = some p) :
    ∃ groups : Groups, groups.IsSound ∧ p.slots = 2 * (groups.count + 1) ∧
      p.names = groups.names := by
  unfold compile? at h
  obtain ⟨⟨branches, groups, rest⟩, hread, h⟩ := Option.bind_eq_some_iff.1 h
  have hsound :=
    (keep_of_readGroupHead (fun _ _ _ _ _ _ hg hhead => hg.readGroupHead hhead) _).1 _ _ _ _ _ _
    Groups.IsSound.initial hread
  -- whatever else is asked of the expression, its groups are those
  obtain ⟨-, he⟩ := Option.ite_none_right_eq_some.1 h
  cases he
  exact ⟨groups, hsound, rfl, rfl⟩

/-! ## The slots of a match -/

variable {code : Array Instruction} {place : Place} {k : Nat}

/-- Threads with `k` slots. -/
def HaveSlots (k : Nat) (ts : List Thread) : Prop := ∀ t ∈ ts, t.slots.size = k

theorem HaveSlots.reverse {ts : List Thread} (h : HaveSlots k ts) :
    HaveSlots k ts.reverse := fun t ht => h t (List.mem_reverse.1 ht)

/-- Following a thread writes into slots that are there, and adds none. -/
theorem follow_haveSlots {fuel : Nat} {stack : List Thread} {threads : Threads}
    (hstack : HaveSlots k stack) (h : HaveSlots k threads.reversed) :
    HaveSlots k (follow code place fuel stack threads).reversed := by
  induction fuel generalizing stack threads with
  | zero => exact h
  | succ fuel ih =>
      cases stack with
      | nil => exact h
      | cons thread stack =>
          obtain ⟨pc, slots⟩ := thread
          obtain ⟨hslots, hstack⟩ := List.forall_mem_cons.1 hstack
          rw [follow]
          split
          · exact ih hstack h
          dsimp only
          split
          · have hnext : ∀ next, HaveSlots k (⟨next, slots⟩ :: stack) := fun _ =>
              List.forall_mem_cons.2 ⟨hslots, hstack⟩
            -- which characters are word characters, and whether the condition holds
            split <;> split
            · exact ih (hnext _) h
            · exact ih hstack h
            · exact ih (hnext _) h
            · exact ih hstack h
          · exact ih (List.forall_mem_cons.2 ⟨hslots, List.forall_mem_cons.2 ⟨hslots, hstack⟩⟩) h
          · refine ih (List.forall_mem_cons.2 ⟨?_, hstack⟩) h
            rwa [Array.size_setIfInBounds]
          · exact ih hstack (List.forall_mem_cons.2 ⟨hslots, h⟩)

theorem Threads.add_haveSlots {threads : Threads} {thread : Thread}
    (hthread : thread.slots.size = k)
    (h : HaveSlots k threads.reversed) : HaveSlots k (threads.add code place thread).reversed :=
  follow_haveSlots (List.forall_mem_singleton.2 hthread) h

theorem Threads.none_haveSlots (code : Array Instruction) :
    HaveSlots k (Threads.none code).reversed :=
  List.forall_mem_nil _

theorem step_haveSlots {c : Option Char} {ts : List Thread} {threads : Threads}
    (hts : HaveSlots k ts) (h : HaveSlots k threads.reversed) :
    (∀ slots ∈ (step code c place ts threads).1, slots.size = k) ∧
      HaveSlots k (step code c place ts threads).2.reversed := by
  induction ts generalizing threads with
  | nil => exact ⟨fun _ hslots => (Option.not_mem_none _ hslots).elim, h⟩
  | cons thread ts ih =>
      obtain ⟨hthread, hts⟩ := List.forall_mem_cons.1 hts
      rw [step]
      split
      · refine ⟨?_, h⟩
        rintro _ ⟨⟩
        exact hthread
      · split
        · exact ih hts (Threads.add_haveSlots hthread h)
        · exact ih hts h
      · split
        · exact ih hts (Threads.add_haveSlots hthread h)
        · exact ih hts h
      · exact ih hts h

/-- A thread that starts at a place has all its slots. -/
theorem start_haveSlots {threads : Threads} {found : Option Slots}
    (h : HaveSlots p.slots threads.reversed) :
    HaveSlots p.slots
      (if found.isNone then threads.add p.code place ⟨p.start, Array.replicate p.slots none⟩
      else threads).reversed := by
  split
  · exact Threads.add_haveSlots Array.size_replicate h
  · exact h

theorem size_of_or {better found : Option Slots} (hbetter : ∀ slots ∈ better, slots.size = k)
    (hfound : ∀ slots ∈ found, slots.size = k) : ∀ slots ∈ better.or found, slots.size = k := by
  intro slots hslots
  rcases Option.or_eq_some_iff.1 hslots with hslots | ⟨-, hslots⟩
  · exact hbetter slots hslots
  · exact hfound slots hslots

/-- The slots of a run: those found before, or those of a thread that has accepted. -/
theorem size_of_run {position : Nat} {before : Option Char} {threads : Threads}
    {found : Option Slots}
    (h : HaveSlots p.slots threads.reversed) (hfound : ∀ slots ∈ found, slots.size = p.slots) :
    ∀ slots ∈ p.run position before t threads found, slots.size = p.slots := by
  induction t generalizing position before threads found with
  | nil =>
      have hstart := @start_haveSlots p ⟨position, before, none⟩ threads found h
      unfold Program.run
      dsimp only [List.head?_nil]
      -- from here on it does not matter whether a thread has been started
      generalize (if found.isNone = true then _ else threads) = started at hstart ⊢
      split
      · exact hfound
      · exact size_of_or (step_haveSlots hstart.reverse (Threads.none_haveSlots p.code)).1 hfound
  | cons c t ih =>
      have hstart := @start_haveSlots p ⟨position, before, some c⟩ threads found h
      unfold Program.run
      dsimp only [List.head?_cons]
      generalize (if found.isNone = true then _ else threads) = started at hstart ⊢
      split
      · exact hfound
      · obtain ⟨hstep, hnext⟩ := step_haveSlots hstart.reverse (Threads.none_haveSlots p.code)
        exact ih hnext (size_of_or hstep hfound)

theorem size_of_mem_matchesFrom {fuel position : Nat} {lastEnd : Option Nat} {before : Option Char}
    {slots : Slots} (h : slots ∈ p.matchesFrom fuel position lastEnd before t) :
    slots.size = p.slots := by
  induction fuel generalizing position lastEnd before t with
  | zero => cases h
  | succ fuel ih =>
      unfold Program.matchesFrom at h
      split at h
      · cases h
      rename_i slots' hfind
      split at h
      · cases h
      dsimp only at h
      split at h
      · split at h
        · cases h
        · exact ih h
      · rcases List.mem_cons.1 h with rfl | h
        · exact size_of_run (Threads.none_haveSlots p.code)
            (fun _ hslots => (Option.not_mem_none _ hslots).elim)
            slots hfind
        · exact ih h

theorem Program.size_of_mem_allMatches {whole : Text} {slots : Slots}
    (h : slots ∈ p.allMatches whole) : slots.size = p.slots :=
  size_of_mem_matchesFrom h

/-! ## What a number refers to -/

/-- The text of the group with the given number, which is empty if there is no such group or it took
no part. -/
def groupOf (whole : Text) (slots : Slots) (n : Nat) : Text :=
  match groupSpan? slots n with
  | some (start, stop) => (whole.drop start).take (stop - start)
  | none => []

variable {whole name : Text} {slots : Slots} {n : Nat}

theorem groupOf_eq_nil (h : slots.size ≤ 2 * n) : groupOf whole slots n = [] := by
  have hspan : groupSpan? slots n = none := by
    unfold groupSpan?
    rw [Array.getElem?_eq_none h]
    rfl
  rw [groupOf, hspan]

theorem isNameChar_of_isDigit {c : Char} (hc : c.isDigit = true) : isNameChar true c = false := by
  obtain ⟨hle, hlt⟩ := Text.toNat_of_isDigit hc
  have hall : ∀ n < 58, 48 ≤ n → isNameChar true (Char.ofNat n) = false := by decide +kernel
  rw [← Char.ofNat_toNat c]
  exact hall c.toNat (by omega) hle

/-- No group has a number for its name. -/
theorem lookup_names_eq_none (hp : compile? pattern = some p) (hread : name.toNat? = some n) :
    p.names.lookup name = none := by
  obtain ⟨groups, hsound, -, hnames⟩ := compile?_eq_some hp
  refine List.lookup_eq_none_iff.2 fun entry hentry => ?_
  rw [hnames] at hentry
  obtain ⟨first, hfirst, hstart⟩ := hsound.names entry hentry
  refine bne_iff_ne.2 ?_
  rintro rfl
  -- its first character would be a digit
  have hdigit := Text.isDigit_of_toNat? hread first (List.mem_of_head? hfirst)
  rw [isNameChar_of_isDigit hdigit] at hstart
  cases hstart

theorem Replacement.Reference.ofText_of_toNat? (hread : name.toNat? = some n) :
    Reference.ofText name = if n < 2 ^ 64 then .number n else .name name := by
  -- a sign in front of the digits would be read over
  have hsign : ∀ rest, name ≠ '+' :: rest := by
    rintro rest rfl
    have hplus := Text.isDigit_of_toNat? hread '+' List.mem_cons_self
    cases hplus
  simp only [Reference.ofText, hread]

/-- Digits refer to the group with this number, also where there are more digits than a number may
have. -/
theorem groupText_ofText (hp : compile? pattern = some p) (hslots : slots ∈ p.allMatches whole)
    (hread : name.toNat? = some n) :
    groupText p whole slots (.ofText name) = groupOf whole slots n := by
  rw [Replacement.Reference.ofText_of_toNat? hread]
  split
  · rfl
  · -- there are not so many groups
    obtain ⟨groups, hsound, hcount, -⟩ := compile?_eq_some hp
    have hlt := hsound.count_lt
    have hsize := Program.size_of_mem_allMatches hslots
    have hempty : groupOf whole slots n = [] := groupOf_eq_nil (by omega)
    unfold groupText
    dsimp only
    rw [lookup_names_eq_none hp hread, hempty]
    rfl

end Regex

end Fillout
