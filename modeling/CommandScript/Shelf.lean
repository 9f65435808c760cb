import CommandScript.Language
import CommandScript.Steps

/-
  A shelf: the registries that a program has made, from
  nothing or as clones of others, the trees that it has read
  with them, and a log.

  Key definitions include:
    * `Registration`
    * `Registry.answer`
    * `Shelf`
    * `Shelf.Task`
    * `Shelf.Reply`
    * `Shelf.perform`
    * `Shelf.history`
-/

namespace CommandScript

variable {κ : Type}

------------------------------------------------------------
-- Registrations and Lookups
------------------------------------------------------------

/- A kind and what it is registered with. -/
inductive Registration (κ : Type) where
| plain (kind : String) (command : κ)
| configurable (kind : String) (configure : Constructor κ)

namespace Registration

/- The kind that is registered. -/
def kind : Registration κ → String
| .plain kind _ => kind
| .configurable kind _ => kind

/- Register the kind. -/
def addTo
    (r : Registry κ) : Registration κ → Registry κ
| .plain kind command => r.register kind command
| .configurable kind configure =>
    r.registerConfigurable kind configure

end Registration

namespace Registry

/- What a registry can be asked. -/
inductive Question where
| kinds
| size
| isEmpty
| contains (kind : String)
| construct (kind : String) (params : Params)
| describe

/- What a registry can answer. -/
inductive Answer (κ : Type) where
| names (names : List String)
| number (number : Nat)
| truth (truth : Bool)
| made (made : Option (Attempt ConfigError κ))
| text (text : String)

/- Ask a registry. -/
def answer
    (r : Registry κ) : Question → Answer κ
| .kinds => .names r.kinds
| .size => .number r.size
| .isEmpty => .truth r.isEmpty
| .contains kind => .truth (r.contains kind)
| .construct kind params => .made (r.construct kind params)
| .describe => .text r.describe

end Registry

------------------------------------------------------------
-- Shelves
------------------------------------------------------------

/- Registries, trees, and a log. -/
structure Shelf (κ : Type) where
  registries : List (Registry κ)
  trees : List (Group κ)
  log : List Entry

namespace Shelf

/- What can be done with one registry. -/
inductive Deed (κ : Type) where
| register (registration : Registration κ)
| clone
| ask (question : Registry.Question)
| parse (dialect : Dialect) (text : String)

/-
  What can be done at a shelf: make a registry, or do
  something with the one in a slot.
-/
inductive Task (κ : Type) where
| create
| on (slot : Nat) (deed : Deed κ)

/- What a task is answered with. -/
inductive Reply (κ : Type) where
| done
| missing
| answered (answer : Registry.Answer κ)
| parsed (result : Attempt ParseError (Group κ))

/- A shelf with nothing on it. -/
def empty : Shelf κ where
  registries := []
  trees := []
  log := []

/- Do something with the registry in a slot. -/
def act
    (s : Shelf κ)
    (slot : Nat)
    (r : Registry κ) : Deed κ → Shelf κ × Reply κ
| .register registration =>
    ( { s with
        registries :=
          s.registries.set slot (registration.addTo r)
        log :=
          s.log ++ r.registrationLog registration.kind },
      .done )
| .clone =>
    ({ s with registries := s.registries ++ [r] }, .done)
| .ask question => (s, .answered (r.answer question))
| .parse dialect text =>
    let l : Language κ := ⟨r, dialect⟩
    let trees :=
      match l.parse text with
      | .ok root => s.trees ++ [root]
      | .error _ => s.trees
    ( { s with trees := trees, log := s.log ++ l.log text },
      .parsed (l.parse text) )

/-
  Perform a task. New registries are put in the next slot.
-/
def perform (s : Shelf κ) : Task κ → Shelf κ × Reply κ
| .create =>
    ( { s with registries := s.registries ++ [.empty] },
      .done )
| .on slot deed =>
    match s.registries[slot]? with
    | none => (s, .missing)
    | some r => s.act slot r deed

/- What tasks make of a shelf with nothing on it. -/
def history (tasks : List (Task κ)) : Shelf κ :=
  Steps.after perform empty tasks

end Shelf

end CommandScript
