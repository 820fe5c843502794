import Fillout.Resolve.Candidates

set_option autoImplicit false

/-! # Values as computations that ask

What a container can be filled with may depend on what other texts resolve to. An `Asking` is a
computation that is told so on request: it is done, or it asks for a text and goes on with the
answer. `Query.stepsAsking` is such a computation of the texts that filling a container leads to,
and the functions of `Fillout.Resolve.Candidates` are what it does when a `Nested` gives the answers
and hands its state on (`run_stepsAsking`).

So what holds of everything that asks holds of the candidates, and a proof of it has two cases. The
one that matters here: if a table of values has an answer to every question, then whoever gives the
same answers brings about the same outcome, and keeps whatever each single answer keeps
(`Asking.run_of_given?`).
-/

namespace Fillout

/-- A computation that may ask what texts resolve to. -/
inductive Asking (α : Type)
  | done (a : α)
  | ask (source : Text) (next : Option Text → Asking α)

namespace Asking

variable {α β σ : Type}

/-- One computation after the other. -/
def bind : Asking α → (α → Asking β) → Asking β
  | done a, f => f a
  | ask source next, f => ask source fun result => (next result).bind f

/-- What becomes of a computation when `nested` gives the answers. -/
def run (nested : Nested σ) : Asking α → σ → α × σ
  | done a, state => (a, state)
  | ask source next, state => (next (nested source state).1).run nested (nested source state).2

/-- What becomes of a computation when `values` says what texts resolve to. There is no outcome if
it says nothing of a text that is asked for. -/
def given? (values : Text → Option (Option Text)) : Asking α → Option α
  | done a => some a
  | ask source next => (values source).bind fun result => (next result).given? values

theorem run_bind (nested : Nested σ) (x : Asking α) (f : α → Asking β) (state : σ) :
    (x.bind f).run nested state = (f (x.run nested state).1).run nested (x.run nested state).2 := by
  induction x generalizing state with
  | done a => rfl
  | ask source next ih => exact ih _ _

theorem given?_bind (values : Text → Option (Option Text)) (x : Asking α) (f : α → Asking β) :
    (x.bind f).given? values = (x.given? values).bind fun a => (f a).given? values := by
  induction x with
  | done a => rfl
  | ask source next ih =>
      rw [bind, given?, given?, Option.bind_assoc]
      exact Option.bind_congr fun result _ => ih result

/-- Who says more gives the same outcome. -/
theorem given?_mono {values values' : Text → Option (Option Text)}
    (h : ∀ source result, values source = some result → values' source = some result)
    {x : Asking α} {a : α} (hx : x.given? values = some a) : x.given? values' = some a := by
  induction x with
  | done b => exact hx
  | ask source next ih =>
      obtain ⟨result, hv, hnext⟩ := Option.bind_eq_some_iff.1 hx
      exact Option.bind_eq_some_iff.2 ⟨result, h source result hv, ih result hnext⟩

/-- If `nested` gives the answers that `values` has, as long as its state is in order, and its state
stays in order, then the outcome is the same and the state is in order in the end. -/
theorem run_of_given? {values : Text → Option (Option Text)} {nested : Nested σ} {Ok : σ → Prop}
    (h : ∀ source result state, values source = some result → Ok state →
      (nested source state).1 = result ∧ Ok (nested source state).2)
    {x : Asking α} {a : α} (hx : x.given? values = some a) {state : σ} (hs : Ok state) :
    (x.run nested state).1 = a ∧ Ok (x.run nested state).2 := by
  induction x generalizing state with
  | done b => exact ⟨Option.some.inj hx, hs⟩
  | ask source next ih =>
      obtain ⟨result, hv, hnext⟩ := Option.bind_eq_some_iff.1 hx
      obtain ⟨he, hk⟩ := h source result state hv hs
      rw [run, he]
      exact ih result hnext hk

end Asking

/-! ## Candidates that ask -/

namespace Query

variable (q : Query)

/-- The value of a switch. -/
def switchAsking (m : Selected) : Asking (Option Text) :=
  match switchParts? m.rule.body.value with
  | none => .done none
  | some (source, alternatives) => .ask source fun result =>
      .done (result.map fun t => if alternatives[m.alternative]? = some t then ['1'] else ['0'])

/-- The value of a date. -/
def dateAsking (r : Rule) : Asking (Option Text) :=
  match q.plainValue? r with
  | none => .done none
  | some t => .ask t fun result => .done (result.map Calendar.reformatCompactDates)

/-- The value that a selected rule offers. -/
def ruleAsking (m : Selected) : Asking (Option Text) :=
  match m.rule.body.kind with
  | .date => q.dateAsking m.rule
  | .switch => switchAsking m
  | _ => .done (q.plainValue? m.rule)

/-- The values that selected rules offer. -/
def rulesAsking : List Selected → Asking (List Candidate)
  | [] => .done []
  | m :: ms => (q.ruleAsking m).bind fun value => (rulesAsking ms).bind fun rest =>
      .done ((value.map fun t => ⟨t, some m.rule.id⟩).toList ++ rest)

/-- The values that are offered for a variable. -/
def variableAsking (key : Text) : Asking (List Candidate) :=
  (q.rulesAsking (select q.store q.ctx key)).bind fun values =>
    let last := ((q.env.defaultFor? key q.ctx).map fun t => ⟨t, none⟩).toList
    .done ((values ++ last).filter fun c => c.value ≠ key ∧ c.value ≠ q.top)

/-- The values that are offered for the entries of a container. -/
def entriesAsking : List Template.Entry → Asking (List Candidate)
  | [] => .done []
  | .variable key :: es => (q.variableAsking key).bind fun values =>
      (entriesAsking es).bind fun rest => .done (values ++ rest)
  | .expression text :: es => (entriesAsking es).bind fun rest =>
      .done (q.expressionValues text ++ rest)

/-- The texts that filling a container leads to. -/
def stepsAsking (c : Template.Container) : Asking (List Candidate) :=
  (q.entriesAsking (Template.entries c.body)).bind fun values =>
    .done ((values.map fun v => { v with value := c.substitute v.value }).filter fun s =>
      s.value ≠ c.source)

variable {σ : Type} (nested : Nested σ)

theorem run_switchAsking (m : Selected) (state : σ) :
    (switchAsking m).run nested state = switchValue nested m state := by
  unfold switchAsking switchValue
  cases switchParts? m.rule.body.value with
  | none => rfl
  | some parts =>
      obtain ⟨source, alternatives⟩ := parts
      dsimp only [Asking.run]
      rcases nested source state with ⟨_ | t, state'⟩ <;> rfl

theorem run_dateAsking (r : Rule) (state : σ) :
    (q.dateAsking r).run nested state = q.dateValue nested r state := by
  unfold dateAsking dateValue
  cases q.plainValue? r <;> rfl

theorem run_ruleAsking (m : Selected) (state : σ) :
    (q.ruleAsking m).run nested state = q.ruleValue nested m state := by
  unfold ruleAsking ruleValue
  cases m.rule.body.kind with
  | date => exact q.run_dateAsking nested m.rule state
  | switch => exact run_switchAsking nested m state
  | _ => rfl

theorem run_rulesAsking (ms : List Selected) (state : σ) :
    (q.rulesAsking ms).run nested state = q.ruleValues nested ms state := by
  induction ms generalizing state with
  | nil => rfl
  | cons m ms ih =>
      rw [rulesAsking, Asking.run_bind, Asking.run_bind, run_ruleAsking, ih]
      rfl

theorem run_variableAsking (key : Text) (state : σ) :
    (q.variableAsking key).run nested state = q.variableValues nested key state := by
  unfold variableAsking variableValues
  rw [Asking.run_bind, run_rulesAsking]
  rfl

theorem run_entriesAsking (es : List Template.Entry) (state : σ) :
    (q.entriesAsking es).run nested state = q.entriesValues nested es state := by
  induction es generalizing state with
  | nil => rfl
  | cons e es ih =>
      cases e with
      | «variable» key =>
          rw [entriesAsking, Asking.run_bind, Asking.run_bind, run_variableAsking, ih]
          rfl
      | expression text =>
          rw [entriesAsking, Asking.run_bind, ih]
          rfl

/-- Filling a container is what the computation does when `nested` gives the answers. -/
theorem run_stepsAsking (c : Template.Container) (state : σ) :
    (q.stepsAsking c).run nested state = q.containerSteps nested c state := by
  unfold stepsAsking containerSteps
  rw [Asking.run_bind, run_entriesAsking]
  rfl

end Query

end Fillout
