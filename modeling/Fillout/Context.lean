import Fillout.Text.Basic

set_option autoImplicit false

/-! # Contexts

A context says for whom and into which document text is filled in. Every resolution is given one.
-/

namespace Fillout

/-- The circumstances of a resolution. -/
structure Context where
  /-- The person or case whose private rules may be used. -/
  subject : Option Text := none
  /-- The name of the document that is filled in. -/
  document : Option Text := none
  /-- The key of the field that is filled in; expressions are evaluated for it. -/
  field : Option Text := none
  /-- How many values may be opened one inside the other. -/
  maxDepth : Nat := 100
  deriving DecidableEq

end Fillout
