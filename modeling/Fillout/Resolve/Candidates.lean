import Fillout.Calendar.Compact
import Fillout.Resolve.Selection

set_option autoImplicit false

/-! # Candidates

The values that are offered for a container, and the texts that filling it with them leads to.

The value of a date or a switch depends on a text that has to be resolved first. How that is done is
left open here: `Nested` is a function that resolves a text, with a state in which it keeps what has
been resolved before. Everything in this file takes such a function and hands its state on, and
never looks into the state.
-/

namespace Fillout

/-- What is known of the texts that dates and switches depend on, the newest entry first. A text
that is still being resolved has no result. -/
abbrev Cache := List (Text × Option Text)

/-- Resolves a text that a value depends on, with a state of type `σ`. -/
abbrev Nested (σ : Type) := Text → σ → Option Text × σ

/-- A request to resolve a text: the rules, the environment, the context and the text that was asked
for. -/
structure Query where
  store : RuleStore
  env : Environment
  ctx : Context
  top : Text

/-- A value that is offered, with the rule it comes from, if it comes from one. -/
structure Candidate where
  value : Text
  rule? : Option RuleId
  deriving DecidableEq

namespace Query

variable {σ : Type} (q : Query)

/-- The value of a rule before anything is made of it. -/
def plainValue? (r : Rule) : Option Text :=
  match r.body.value with
  | .literal t => some t
  | .computed name => q.env.compute? name q.ctx

/-- What a switch compares: the text to resolve, and the alternatives. The value of a switch names a
variable, or gives a template, in front of an equals sign, and lists the alternatives behind it. -/
def switchParts? (value : RuleValue) : Option (Text × List Text) :=
  match value with
  | .computed _ => none
  | .literal t =>
      (Text.cut? ['='] t).map fun (left, right) =>
        let name := left.trim
        -- A bare name stands for the variable; with containers of its own it is a template.
        (if Template.isFinal name then Template.opener ++ name ++ Template.closer else name,
          Template.splitEntries right)

/-- The value of a switch at the place of the alternative that matched: whether the text resolves to
the alternative at that place. -/
def switchValue (nested : Nested σ) (m : Selected) (state : σ) : Option Text × σ :=
  match switchParts? m.rule.body.value with
  | none => (none, state)
  | some (source, alternatives) =>
      match nested source state with
      | (none, state) => (none, state)
      | (some t, state) =>
          (some (if alternatives[m.alternative]? = some t then ['1'] else ['0']), state)

/-- The value of a date: the resolved value with its compact dates expanded. -/
def dateValue (nested : Nested σ) (r : Rule) (state : σ) : Option Text × σ :=
  match q.plainValue? r with
  | none => (none, state)
  | some t =>
      let (result, state) := nested t state
      (result.map Calendar.reformatCompactDates, state)

/-- The value that a selected rule offers. -/
def ruleValue (nested : Nested σ) (m : Selected) (state : σ) : Option Text × σ :=
  match m.rule.body.kind with
  | .date => q.dateValue nested m.rule state
  | .switch => switchValue nested m state
  | _ => (q.plainValue? m.rule, state)

/-- The values that selected rules offer, in order. -/
def ruleValues (nested : Nested σ) : List Selected → σ → List Candidate × σ
  | [], state => ([], state)
  | m :: ms, state =>
      let (value, state) := q.ruleValue nested m state
      let (rest, state) := ruleValues nested ms state
      ((value.map fun t => ⟨t, some m.rule.id⟩).toList ++ rest, state)

/-- The values that are offered for a variable: those of the rules, and the default last. Its own
name and the text that was asked for are no values. -/
def variableValues (nested : Nested σ) (key : Text) (state : σ) : List Candidate × σ :=
  let (values, state) := q.ruleValues nested (select q.store q.ctx key) state
  let last := ((q.env.defaultFor? key q.ctx).map fun t => ⟨t, none⟩).toList
  ((values ++ last).filter fun c => c.value ≠ key ∧ c.value ≠ q.top, state)

/-- The value that an expression offers: a text, unless it is empty or the text that was asked
for. -/
def expressionValues (text : Text) : List Candidate :=
  match Expr.evaluate ⟨q.ctx.field.getD [], q.store.findLiteral?⟩ text with
  | some (.text t) => if t = [] ∨ t = q.top then [] else [⟨t, none⟩]
  | _ => []

/-- The values that are offered for an entry of a container. -/
def entryValues (nested : Nested σ) (e : Template.Entry) (state : σ) : List Candidate × σ :=
  match e with
  | .variable key => q.variableValues nested key state
  | .expression text => (q.expressionValues text, state)

/-- The values that are offered for the entries of a container, in order. -/
def entriesValues (nested : Nested σ) : List Template.Entry → σ → List Candidate × σ
  | [], state => ([], state)
  | e :: es, state =>
      let (values, state) := q.entryValues nested e state
      let (rest, state) := entriesValues nested es state
      (values ++ rest, state)

/-- The texts that filling a container leads to. A value that changes nothing leads nowhere. -/
def containerSteps (nested : Nested σ) (c : Template.Container) (state : σ) :
    List Candidate × σ :=
  let (values, state) := q.entriesValues nested (Template.entries c.body) state
  ((values.map fun v => { v with value := c.substitute v.value }).filter fun s =>
    s.value ≠ c.source, state)

/-- The texts that filling any one of the containers leads to. -/
def allSteps (nested : Nested σ) : List Template.Container → σ → List Candidate × σ
  | [], state => ([], state)
  | c :: cs, state =>
      let (steps, state) := q.containerSteps nested c state
      let (rest, state) := allSteps nested cs state
      (steps ++ rest, state)

/-- The first of the containers that can be filled, with the texts this leads to. -/
def firstSteps? (nested : Nested σ) :
    List Template.Container → σ → Option (Template.Container × List Candidate) × σ
  | [], state => (none, state)
  | c :: cs, state =>
      match q.containerSteps nested c state with
      | ([], state) => firstSteps? nested cs state
      | (steps, state) => (some (c, steps), state)

/-- The first container that can be filled among the pieces of a template, which stand behind
`before`. Containers behind it are not looked at. -/
def firstStepsBehind? (nested : Nested σ) (before : Text) :
    List Template.Piece → σ → Option (Template.Container × List Candidate) × σ
  | [], state => (none, state)
  | .plain t :: ps, state => firstStepsBehind? nested (before ++ t) ps state
  | .slot body :: ps, state =>
      let c : Template.Container := ⟨before, body, ps.flatMap Template.Piece.text⟩
      match q.containerSteps nested c state with
      | ([], state) => firstStepsBehind? nested (before ++ (Template.Piece.slot body).text) ps state
      | (steps, state) => (some (c, steps), state)

/-- Going through the pieces finds the first of the containers that can be filled. -/
theorem firstStepsBehind?_eq (nested : Nested σ) (before : Text) (ps : List Template.Piece)
    (state : σ) :
    q.firstStepsBehind? nested before ps state =
      q.firstSteps? nested (Template.containersBehind before ps) state := by
  induction ps generalizing before state with
  | nil => rfl
  | cons p ps ih =>
    cases p with
    | plain t => exact ih (before ++ t) state
    | slot body =>
      simp only [firstStepsBehind?, Template.containersBehind, firstSteps?]
      split <;> simp_all

end Query

end Fillout
