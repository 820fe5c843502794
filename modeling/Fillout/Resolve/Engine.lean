import Fillout.Resolve.Best

set_option autoImplicit false

/-! # Resolving templates

An engine is a store of rules with an environment. It answers what a template can be turned into: in
one step, to the end, or as far as possible; and why.
-/

namespace Fillout

/-- A resolved text with the rules that were applied on the way to it. -/
structure Explanation where
  result : Text
  rules : List RuleId
  deriving DecidableEq

/-- An explanation in words. -/
def Explanation.text (e : Explanation) : Text :=
  "result: ".toList ++ e.result.quote ++ ", rules: [".toList ++
    Text.join " -> ".toList (e.rules.map RuleId.text) ++ "]".toList

/-- A store of rules with an environment. -/
structure Engine where
  store : RuleStore
  env : Environment

namespace Engine

variable (e : Engine)

/-- The request to resolve a text. -/
def query (ctx : Context) (top : Text) : Query := ⟨e.store, e.env, ctx, top⟩

/-- The texts that filling one container of `source` leads to; nothing in them is filled further. -/
def oneStep (ctx : Context) (source : Text) : List Text :=
  let q := e.query ctx source
  ((q.allSteps (q.resolveNested (ctx.maxDepth - 1)) (Template.containers source) []).1).map
    Candidate.value

/-- The first final text that the search reaches. -/
def resolveFirst (ctx : Context) (source : Text) : Option Text :=
  ((e.query ctx source).first source ctx.maxDepth []).1

/-- The text with the highest score that the search reaches; the earliest of several, and `source`
itself if none is better. -/
def resolveBest (ctx : Context) (source : Text) : Text :=
  ((e.query ctx source).survey [⟨source, ctx.maxDepth⟩] (.start source) []).champion.text

/-- The first final text with the rules applied on the way to it. -/
def explain (ctx : Context) (source : Text) : Option Explanation :=
  let (result, origins, _) := (e.query ctx source).first source ctx.maxDepth []
  result.map fun t => ⟨t, ruleChain origins t⟩

/-- The values that are offered for a variable. -/
def candidatesFor (ctx : Context) (key : Text) : List Text :=
  let q := e.query ctx (Template.opener ++ key ++ Template.closer)
  ((q.variableValues (q.resolveNested (ctx.maxDepth - 1)) key []).1).map Candidate.value

end Engine

end Fillout
