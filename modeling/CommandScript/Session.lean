import CommandScript.Builtin
import CommandScript.Language
import CommandScript.Steps
import CommandScript.Tree.Run

/-
  Sessions: groups by their names that are built, nested and
  run over one registry and one world, with one log of
  everything that happens.

  Key definitions include:
    * `Session`
    * `Action`
    * `Answer`
    * `Session.perform`
    * `Session.history`
-/

namespace CommandScript

/- Groups under construction or use, and what they share. -/
structure Session (κ σ : Type) where
  registry : Registry κ
  groups : Dictionary (Group κ)
  world : World σ
  log : List Entry

/-
  What can be done in a session. The moments of a run are
  counted in nanoseconds from its start. The callback of a
  run acts on the state that the commands act on.
-/
inductive Action (κ σ : Type) where
| create (id : String)
| parse (id text : String) (dialect : Dialect)
| inspect (id : String)
| push (id : String) (location : Location) (command : κ)
| construct
    (id : String)
    (location : Location)
    (params : Params)
| nest (id child : String) (line : Nat)
| run (id : String) (cancelAfter dropAfter : Option Nat)
| runThen
    (id : String)
    (onComplete : CommandResult → σ → σ)
    (cancelAfter dropAfter : Option Nat)
| register (kind : String) (constructor : Constructor κ)
| cancel
| await (length : Nat)
| alter (change : σ → σ)

/- How a run of a group went. -/
structure RunReport where
  ending : Ending
  elapsed : Nat
  state : GroupState
deriving DecidableEq, Repr

/- What an action is answered with. -/
inductive Answer (κ : Type) where
| done
| noGroup
| size (size : Nat)
| group (group : Group κ)
| parseError (cause : ParseError)
| unknownKind
| refused (cause : ConfigError)
| aborted
| ran (report : RunReport)
| kinds (kinds : List String)
| cancelled (cancelled : Bool)

namespace Session

variable {κ σ : Type}

/- A session in which nothing has happened. -/
def start
    (registry : Registry κ)
    (state : σ) : Session κ σ where
  registry := registry
  groups := Dictionary.empty
  world := World.initial state
  log := []

/- Add entries to the log. -/
def logged
    (s : Session κ σ)
    (entries : List Entry) : Session κ σ :=
  { s with log := s.log ++ entries }

/- Put a group under a name. -/
def put
    (s : Session κ σ)
    (id : String)
    (g : Group κ) : Session κ σ :=
  { s with groups := s.groups.insert id g }

/- Parse a text into a group; a refused text has no effect. -/
def parse
    (s : Session κ σ)
    (id text : String)
    (dialect : Dialect) : Session κ σ × Answer κ :=
  let language : Language κ := ⟨s.registry, dialect⟩
  let s := s.logged (language.log text)
  match language.parse text with
  | .ok g => (s.put id g, .group g)
  | .error (.error cause) => (s, .parseError cause)
  | .error .aborted => (s, .aborted)

/- Append a child to a group. -/
def push
    (s : Session κ σ)
    (id : String)
    (node : Node κ) : Session κ σ × Answer κ :=
  match s.groups.get? id with
  | none => (s, .noGroup)
  | some g => (s.put id (g.push node), .size (g.size + 1))

/-
  Append a command that the registry constructs. The command
  is constructed first, whether or not there is a group.
-/
def construct
    (s : Session κ σ)
    (id : String)
    (location : Location)
    (params : Params) : Session κ σ × Answer κ :=
  match s.registry.construct location.kind params with
  | none => (s, .unknownKind)
  | some (.ok command) => s.push id (.leaf location command)
  | some (.error (.error cause)) => (s, .refused cause)
  | some (.error .aborted) => (s, .aborted)

/-
  Move a group into another as its last child. The group is
  taken out first, so it is gone even if there is no group
  to put it into.
-/
def nest
    (s : Session κ σ)
    (id child : String)
    (line : Nat) : Session κ σ × Answer κ :=
  match s.groups.get? child with
  | none => (s, .noGroup)
  | some g =>
      let taken := { s with groups := s.groups.erase child }
      taken.push id (g.toNode line)

/- The plan of a run that starts now. -/
def plan
    (s : Session κ σ)
    (cancelAfter dropAfter : Option Nat) : Plan where
  cancelAt := cancelAfter.map (s.world.clock + ·)
  dropAt := dropAfter.map (s.world.clock + ·)

/- How a run that starts now has gone. -/
def report
    (s : Session κ σ)
    (p : Passage (Group κ) σ) : RunReport where
  ending := p.ending
  elapsed := p.world.clock - s.world.clock
  state := p.subject.state

/- Run a group in some way. -/
def runBy
    (s : Session κ σ)
    (id : String)
    (course : Group κ → World σ → Passage (Group κ) σ) :
    Session κ σ × Answer κ :=
  match s.groups.get? id with
  | none => (s, .noGroup)
  | some g =>
      let p := course g s.world
      let after := (s.put id p.subject).logged p.log
      ({ after with world := p.world }, .ran (s.report p))

/- Register a kind. Commands made before stay as they are. -/
def register
    (s : Session κ σ)
    (kind : String)
    (constructor : Constructor κ) : Session κ σ × Answer κ :=
  let registry := s.registry.insert kind constructor
  let s := s.logged (s.registry.registrationLog kind)
  ({ s with registry }, .kinds registry.kinds)

/- Request cancellation. -/
def cancel (s : Session κ σ) : Session κ σ :=
  let noted := s.logged s.world.cancelLog
  { noted with world := s.world.cancel }

/-
  Wait for a request for cancellation, for some time at
  most.
-/
def await
    (s : Session κ σ)
    (length : Nat) : Session κ σ :=
  if s.world.cancelled then s
  else
    { s with
      world := s.world.advance (s.world.clock + length) }

/- Perform an action. -/
def perform
    (routine : κ → Routine σ)
    (s : Session κ σ) :
    Action κ σ → Session κ σ × Answer κ
| .create id => (s.put id Group.empty, .done)
| .parse id text dialect => s.parse id text dialect
| .inspect id =>
    match s.groups.get? id with
    | none => (s, .noGroup)
    | some g => (s, .group g)
| .push id location command =>
    s.push id (.leaf location command)
| .construct id location params =>
    s.construct id location params
| .nest id child line => s.nest id child line
| .run id cancelAfter dropAfter =>
    s.runBy id
      (Group.run routine (s.plan cancelAfter dropAfter))
| .runThen id onComplete cancelAfter dropAfter =>
    s.runBy id
      (Group.runThen routine onComplete
        (s.plan cancelAfter dropAfter))
| .register kind constructor => s.register kind constructor
| .cancel => (s.cancel, .done)
| .await length =>
    (s.await length, .cancelled s.world.cancelled)
| .alter change =>
    ({ s with world := s.world.alter change }, .done)

/- Perform actions one after another. -/
def history
    (routine : κ → Routine σ)
    (s : Session κ σ)
    (actions : List (Action κ σ)) : Session κ σ :=
  Steps.after (perform routine) s actions

end Session

end CommandScript
