import CommandScript.Log
import CommandScript.Params
import CommandScript.Tree

/-
  Registries: the command kinds that a script can use, each
  with the way its commands are made from parameters.

  Key definitions include:
    * `Constructor`
    * `Registry`
    * `Registry.register`
    * `Registry.registerConfigurable`
    * `Registry.construct`
-/

namespace CommandScript

/- The way a command is made from its parameters. -/
abbrev Constructor (κ : Type) :=
  Params → Attempt ConfigError κ

namespace Constructor

variable {κ κ' : Type}

/- Make a command that takes no parameters. -/
def plain (command : κ) : Constructor κ :=
  fun params =>
    Attempt.ofExcept (params.denyAll.map fun _ => command)

/- Make the same command, seen as one of another type. -/
def map
    (change : κ → κ')
    (constructor : Constructor κ) : Constructor κ' :=
  fun params => (constructor params).map change

end Constructor

/- Command kinds by their names. -/
structure Registry (κ : Type) where
  constructors : Dictionary (Constructor κ)

namespace Registry

variable {κ κ' : Type}

/- The registry without kinds. -/
def empty : Registry κ where
  constructors := Dictionary.empty

instance : Inhabited (Registry κ) := ⟨empty⟩

/- Set how commands of a kind are made. -/
def insert
    (r : Registry κ)
    (kind : String)
    (constructor : Constructor κ) : Registry κ where
  constructors := r.constructors.insert kind constructor

/- Register a kind that takes no parameters. -/
def register
    (r : Registry κ)
    (kind : String)
    (command : κ) : Registry κ :=
  r.insert kind (Constructor.plain command)

/- Register a kind that its parameters configure. -/
def registerConfigurable
    (r : Registry κ)
    (kind : String)
    (configure : Constructor κ) : Registry κ :=
  r.insert kind configure

/-
  Make a command of a kind; there is none if the kind is not
  registered.
-/
def construct
    (r : Registry κ)
    (kind : String)
    (params : Params) : Option (Attempt ConfigError κ) :=
  (r.constructors.get? kind).map fun constructor =>
    constructor params

/- A kind is made as it has been registered last. -/
theorem construct_registerConfigurable
    (r : Registry κ)
    {kind : String}
    (registered : String)
    (configure : Constructor κ)
    (params : Params) :
    (r.registerConfigurable registered configure).construct
        kind params =
      if kind = registered then some (configure params)
      else r.construct kind params := by
  unfold construct registerConfigurable insert
  by_cases hKind : kind = registered
  · rw [hKind, Dictionary.get?_insert_self]
    simp
  · rw [Dictionary.get?_insert_of_ne _ hKind]
    simp [hKind]

/- Whether a kind is registered. -/
def contains
    (r : Registry κ)
    (kind : String) : Bool :=
  r.constructors.contains kind

/- Only of a registered kind is anything made. -/
theorem construct_eq_none_iff
    {r : Registry κ}
    {kind : String}
    {params : Params} :
    r.construct kind params = none ↔
      r.contains kind = false := by
  unfold construct contains Dictionary.contains
  cases r.constructors.get? kind <;> simp

/- The registered kinds in ascending order. -/
def kinds (r : Registry κ) : List String :=
  r.constructors.keys

/- The number of registered kinds. -/
def size (r : Registry κ) : Nat :=
  r.constructors.size

/- Whether no kind is registered. -/
def isEmpty (r : Registry κ) : Bool :=
  r.constructors.isEmpty

/- What is noted when a kind is about to be registered. -/
def registrationLog
    (r : Registry κ)
    (kind : String) : List Entry :=
  if r.contains kind then [⟨.replaced kind, []⟩] else []

/- The same kinds with commands of another type. -/
def map
    (change : κ → κ')
    (r : Registry κ) : Registry κ' where
  constructors :=
    r.constructors.map (Constructor.map change)

/- A registry in words. -/
def describe (r : Registry κ) : String :=
  describeRecord "CommandRegistry"
    [ ("kinds", Text.bracketed (r.kinds.map Text.quote)) ]

end Registry

end CommandScript
