import Fillout.Template

set_option autoImplicit false

/-! # The agenda of a search

A search keeps a stack of texts that it still has to look into, each with the number of levels that
may still be opened below it. Looking into a text replaces it by texts that are smaller in one of
two ways: either fewer levels are left, or as many are left and the text has fewer containers. The
search may also start over with a text that has fewer levels left. `Agenda.Smaller` describes these
moves, and `Agenda.wellFounded` says that they cannot go on for ever.
-/

namespace Fillout

/-- A text to look into, and the number of levels that may still be opened below it. -/
structure Node where
  text : Text
  left : Nat
  deriving DecidableEq

namespace Node

/-- Fewer levels are left, or as many and there are fewer containers. -/
def Smaller (a b : Node) : Prop :=
  Prod.Lex (· < ·) (· < ·) (a.left, Template.containerCount a.text)
    (b.left, Template.containerCount b.text)

theorem smaller_wellFounded : WellFounded Smaller :=
  InvImage.wf (fun a : Node => (a.left, Template.containerCount a.text))
    (Prod.lex Nat.lt_wfRel Nat.lt_wfRel).wf

/-- A text with fewer levels left is smaller. -/
theorem smaller_of_left {a b : Node} (h : a.left < b.left) : Smaller a b := .left _ _ h

/-- The node of a text that comes from filling a container of `parent`. A text with fewer containers
stays on the level of the parent; any other opens a new level. -/
def child (parent : Node) (text : Text) : Node :=
  ⟨text,
    if Template.containerCount text < Template.containerCount parent.text then parent.left
    else parent.left - 1⟩

theorem child_smaller {parent : Node} (h : 0 < parent.left) (text : Text) :
    Smaller (parent.child text) parent := by
  unfold Smaller child
  dsimp only
  split
  · rename_i hc
    exact .right _ hc
  · exact .left _ _ (by omega)

end Node

/-- The texts that a search still has to look into, the next one first. -/
structure Agenda where
  nodes : List Node

namespace Agenda

/-- The next text is replaced by smaller ones, and the rest is kept or dropped. -/
inductive Smaller : Agenda → Agenda → Prop
  | keep {node : Node} {children rest : List Node} (h : ∀ c ∈ children, Node.Smaller c node) :
      Smaller ⟨children ++ rest⟩ ⟨node :: rest⟩
  | drop {node : Node} {children rest : List Node} (h : ∀ c ∈ children, Node.Smaller c node) :
      Smaller ⟨children⟩ ⟨node :: rest⟩

/-- The next text may be skipped. -/
theorem Smaller.skip (node : Node) (rest : List Node) : Smaller ⟨rest⟩ ⟨node :: rest⟩ :=
  @Smaller.keep node [] rest (by simp)

/-- The search may start over with a text that is smaller than the next one. -/
theorem Smaller.restart {node start : Node} (h : Node.Smaller start node) (rest : List Node) :
    Smaller ⟨[start]⟩ ⟨node :: rest⟩ :=
  @Smaller.drop node [start] rest fun _ hc => List.mem_singleton.1 hc ▸ h

theorem acc_nil : Acc Smaller ⟨[]⟩ := .intro _ fun _ h => nomatch h

theorem acc_cons (node : Node) : ∀ {rest : List Node}, Acc Smaller ⟨rest⟩ →
    Acc Smaller ⟨node :: rest⟩ := by
  induction node using Node.smaller_wellFounded.induction with
  | _ node ih =>
    have append : ∀ {children rest : List Node}, (∀ c ∈ children, Node.Smaller c node) →
        Acc Smaller ⟨rest⟩ → Acc Smaller ⟨children ++ rest⟩ := by
      intro children rest h hr
      induction children with
      | nil => exact hr
      | cons c cs ihc =>
        exact ih c (h c (by simp)) (ihc fun d hd => h d (by simp [hd]))
    intro rest hr
    refine .intro _ fun a ha => ?_
    cases ha with
    | keep h => exact append h hr
    | drop h => simpa using append h acc_nil

/-- Every sequence of moves ends. -/
theorem wellFounded : WellFounded Smaller :=
  ⟨fun ⟨nodes⟩ => by
    induction nodes with
    | nil => exact acc_nil
    | cons node rest ih => exact acc_cons node ih⟩

instance : WellFoundedRelation Agenda := ⟨Smaller, wellFounded⟩

end Agenda

end Fillout
