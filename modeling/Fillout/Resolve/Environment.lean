import Fillout.Calendar.Date
import Fillout.Context
import Fillout.Text.Quoted

set_option autoImplicit false

/-! # Environments

An environment has named providers, which compute a text from the context, and a default for some
variables, which is offered after all rules. Rules and defaults refer to providers by name.
-/

namespace Fillout

/-- The value that is offered for a variable in the last place. -/
inductive DefaultValue
  | static (text : Text)
  | computed (provider : Text)
  deriving DecidableEq

/-- A moment, as the built-in providers show it. -/
structure Moment where
  date : Calendar.Date
  hour : Nat
  minute : Nat

/-- Providers and defaults, by name. -/
structure Environment where
  providers : List (Text × (Context → Text))
  defaults : List (Text × DefaultValue)

namespace Environment

/-- An environment with neither providers nor defaults. -/
def empty : Environment := ⟨[], []⟩

/-- Sets the value of a key in a list of pairs. -/
def put {α : Type} (key : Text) (value : α) : List (Text × α) → List (Text × α)
  | [] => [(key, value)]
  | (k, v) :: rest => if k = key then (key, value) :: rest else (k, v) :: put key value rest

theorem lookup_put {α : Type} (key : Text) (value : α) (pairs : List (Text × α)) (k : Text) :
    (put key value pairs).lookup k = if k = key then some value else pairs.lookup k := by
  induction pairs with
  | nil =>
    rw [put, List.lookup_cons]
    cases h : k == key <;> simp_all
  | cons p rest ih =>
    obtain ⟨k', v⟩ := p
    rw [put]
    by_cases hk : k' = key
    · subst hk
      rw [if_pos rfl, List.lookup_cons, List.lookup_cons]
      cases h : k == k' <;> simp_all
    · rw [if_neg hk, List.lookup_cons, List.lookup_cons, ih]
      cases h : k == k'
      · rfl
      · have : k = k' := by simpa using h
        simp [this, hk]

/-- Adds a provider, in the place of one of the same name. -/
def register (env : Environment) (name : Text) (provider : Context → Text) : Environment :=
  { env with providers := put name provider env.providers }

/-- Sets the default of a variable. -/
def setDefault (env : Environment) (key : Text) (value : DefaultValue) : Environment :=
  { env with defaults := put key value env.defaults }

/-- The environment with the providers `today`, `year` and `now`. -/
def builtIn (now : Moment) : Environment :=
  let two := Calendar.Date.padded 2
  ((empty.register "today".toList fun _ => now.date.dotted).register "year".toList fun _ =>
    Calendar.Date.padded 4 now.date.year).register "now".toList fun _ =>
      two now.hour ++ ':' :: two now.minute

/-- Whether there is a provider of this name. -/
def hasProvider (env : Environment) (name : Text) : Bool := (env.providers.lookup name).isSome

/-- What the provider of this name computes. -/
def compute? (env : Environment) (name : Text) (ctx : Context) : Option Text :=
  (env.providers.lookup name).map fun provider => provider ctx

/-- The default of a variable, if it has one that can be computed. -/
def defaultFor? (env : Environment) (key : Text) (ctx : Context) : Option Text :=
  match env.defaults.lookup key with
  | some (.static t) => some t
  | some (.computed name) => env.compute? name ctx
  | none => none

/-- A default as it is shown. -/
def defaultText : DefaultValue → Text
  | .static t => "Static(".toList ++ t.quote ++ ")".toList
  | .computed p => "Computed(".toList ++ p.quote ++ ")".toList

/-- The environment as it is shown, the names of the providers in alphabetical order. -/
def text (env : Environment) : Text :=
  let comma := ", ".toList
  let names := (env.providers.map (·.1)).mergeSort fun a b => !(b < a)
  let defaults := env.defaults.map fun (k, v) => k.quote ++ ": ".toList ++ defaultText v
  "Environment \x7b providers: [".toList ++ Text.join comma (names.map Text.quote) ++
    "], defaults: \x7b".toList ++ Text.join comma defaults ++ "\x7d \x7d".toList

end Environment

end Fillout
