import Fillout.Proofs.Search.Origins
import Fillout.Proofs.Search.SurveyTurn
import Fillout.Resolve.Engine

set_option autoImplicit false

/-! # The searches on a machine

The searches of `Query.explore` and `Query.survey` once more, as loops that nothing keeps from
running for ever. Here the depth of a text counts upwards from the text that was asked for, and it
is a machine word: one level deeper than `largest` there is no depth. A clock of `fuel` ticks stops
every loop, those of nested searches included; each search and the walk back through the origins get
a clock of their own. So a run gives an answer, or it stops because its clock has run down or
because a depth would overflow (`Stop`).
-/

namespace Fillout

/-- Why a run stops without an answer. -/
inductive Stop
  | timeout
  | overflow
  deriving DecidableEq

/-- The depth one level deeper. -/
def deeper (largest depth : Nat) : Except Stop Nat :=
  if depth < largest then .ok (depth + 1) else .error .overflow

/-- A text to look into, and its depth. -/
structure Pending where
  text : Text
  depth : Nat
  deriving DecidableEq

/-- A text that comes from filling a container of `parent`, with its depth. Only a text with fewer
containers stays at the depth of the parent. -/
def Pending.child (largest : Nat) (parent : Pending) (text : Text) : Except Stop Pending :=
  if Template.containerCount text < Template.containerCount parent.text then
    .ok ⟨text, parent.depth⟩
  else (deeper largest parent.depth).map (Pending.mk text)

/-- Whether a remainder has been looked into with at least this score before it and at no greater
depth. The numbers of the entries are depths here. -/
def Settled.coversAt (settled : Settled) (remainder : Text) (score depth : Nat) : Bool :=
  (settled.lookup remainder).any fun (seenScore, seenDepth) =>
    score ≤ seenScore && seenDepth ≤ depth

/-- Takes up the new ones among the texts that come from `parent`, in order, up to the first final
one. -/
def Progress.takeUpAt (largest : Nat) (parent : Pending) :
    List Candidate → Progress → Except Stop (Option Text × List Pending × Progress)
  | [], p => .ok (none, [], p)
  | s :: rest, p =>
      if s.value ∈ p.visited then takeUpAt largest parent rest p
      else do
        let p := p.record parent.text s
        if Template.isFinal s.value then return (some s.value, [], p)
        let node ← parent.child largest s.value
        let (found, nodes, p) ← takeUpAt largest parent rest p
        return (found, node :: nodes, p)

/-- Takes up the new ones among the texts that come from `parent`, in order. -/
def Survey.takeUpAt (largest : Nat) (parent : Pending) :
    List Candidate → Survey → Except Stop (List Pending × Survey)
  | [], s => .ok ([], s)
  | c :: rest, s =>
      if c.value ∈ s.visited then takeUpAt largest parent rest s
      else do
        let node ← parent.child largest c.value
        let (nodes, s) ← takeUpAt largest parent rest (s.record c.value)
        return (node :: nodes, s)

namespace Query

variable (q : Query)

/-- Searches for a final text below `source`, which stands at `depth`; `search` is the loop. -/
def firstAt (search : List Pending → Progress → Cache →
    Except Stop (Option Text × List Origin × Cache)) (source : Text) (depth : Nat) (cache : Cache) :
    Except Stop (Option Text × List Origin × Cache) :=
  if Template.isFinal source then .ok (some source, [], cache)
  else search [⟨source, depth⟩] (.start source) cache

/-- Resolves a text that a value of a text at `depth` depends on. A run that has stopped stays
stopped. -/
def nestedAt (largest : Nat) (search : List Pending → Progress → Cache →
    Except Stop (Option Text × List Origin × Cache)) (depth : Nat) :
    Nested (Except Stop Cache) := fun source state =>
  match state with
  | .error stop => (none, .error stop)
  | .ok cache =>
      match cache.lookup source with
      | some result => (result, .ok cache)
      | none =>
          -- Until the search below returns, the text has no value.
          match deeper largest depth >>= fun depth =>
            firstAt search source depth ((source, none) :: cache) with
          | .error stop => (none, .error stop)
          | .ok (result, _, cache) => (result, .ok ((source, result) :: cache))

/-- The loop of the search for a final text. -/
def exploreAt (largest : Nat) : Nat → List Pending → Progress → Cache →
    Except Stop (Option Text × List Origin × Cache)
  | 0, _, _, _ => .error .timeout
  | _ + 1, [], p, cache => .ok (none, p.origins, cache)
  | fuel + 1, node :: rest, p, cache =>
      if q.ctx.maxDepth ≤ node.depth then exploreAt largest fuel rest p cache
      else
        match Template.firstContainer? node.text with
        | none => exploreAt largest fuel rest p cache
        | some c =>
            if p.settled.coversAt c.remainder 0 node.depth then exploreAt largest fuel rest p cache
            else do
              -- Each search for another text starts with what is left on the clock.
              let nested := nestedAt largest (exploreAt largest fuel) node.depth
              let (steps, state) := q.containerSteps nested c (.ok cache)
              let cache ← state
              match ← Progress.takeUpAt largest node steps (p.settle c.remainder node.depth) with
              | (some t, _, p) => return (some t, p.origins, cache)
              | (none, nodes, p) => exploreAt largest fuel (nodes ++ rest) p cache

/-- The loop of the search for the best text. -/
def surveyAt (largest : Nat) : Nat → List Pending → Survey → Cache → Except Stop Survey
  | 0, _, _, _ => .error .timeout
  | _ + 1, [], s, _ => .ok s
  | fuel + 1, node :: rest, s, cache =>
      if Template.containers node.text = [] then surveyAt largest fuel rest s cache
      else if q.ctx.maxDepth ≤ node.depth then surveyAt largest fuel rest s cache
      else do
        let nested := nestedAt largest (q.exploreAt largest fuel) node.depth
        let (found, state) := q.firstSteps? nested (Template.containers node.text) (.ok cache)
        let cache ← state
        match found with
        | none => surveyAt largest fuel rest s cache
        | some (c, steps) =>
            let score := Template.fillScore c.before
            if s.settled.coversAt c.remainder score node.depth then
              surveyAt largest fuel rest s cache
            else
              let s := s.settle c.remainder score node.depth
              let (nodes, s) ← Survey.takeUpAt largest node steps s
              surveyAt largest fuel (nodes ++ rest) s cache

end Query

namespace Engine

variable (e : Engine) (largest fuel : Nat) (ctx : Context)

/-- `Engine.oneStep` on a machine. -/
def oneStepAt (source : Text) : Except Stop (List Text) :=
  let q := e.query ctx source
  let nested := Query.nestedAt largest (q.exploreAt largest fuel) 0
  let (steps, state) := q.allSteps nested (Template.containers source) (.ok [])
  state.map fun _ => steps.map Candidate.value

/-- `Engine.resolveFirst` on a machine. -/
def resolveFirstAt (source : Text) : Except Stop (Option Text) :=
  (Query.firstAt ((e.query ctx source).exploreAt largest fuel) source 0 []).map Prod.fst

/-- `Engine.resolveBest` on a machine. -/
def resolveBestAt (source : Text) : Except Stop Text :=
  ((e.query ctx source).surveyAt largest fuel [⟨source, 0⟩] (.start source) []).map fun s =>
    s.champion.text

/-- `Engine.explain` on a machine: the rules are collected on the way back from the result. -/
def explainAt (source : Text) : Except Stop (Option Explanation) := do
  let (result, origins, _) ← Query.firstAt ((e.query ctx source).exploreAt largest fuel) source 0 []
  match result with
  | none => return none
  | some t =>
      match rulesBack? origins fuel t with
      | none => throw .timeout
      | some rules => return some ⟨t, rules⟩

/-- `Engine.candidatesFor` on a machine. -/
def candidatesForAt (key : Text) : Except Stop (List Text) :=
  let q := e.query ctx (Template.opener ++ key ++ Template.closer)
  let nested := Query.nestedAt largest (q.exploreAt largest fuel) 0
  let (values, state) := q.variableValues nested key (.ok [])
  state.map fun _ => values.map Candidate.value

end Engine

end Fillout
