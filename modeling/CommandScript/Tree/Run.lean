import CommandScript.Routine
import CommandScript.Tree

/-
  The run of a tree: the children of a group one after
  another, up to the first that fails. A group runs at most
  once, also when an earlier run of it was dropped.

  Key definitions include:
    * `Passage`
    * `Passage.callBack`
    * `Node.run`
    * `Node.runFrom`
    * `Group.run`
    * `Group.runThen`
-/

namespace CommandScript

/- What the run of something leaves of it and behind. -/
structure Passage (τ σ : Type) where
  subject : τ
  ending : Ending
  world : World σ
  log : List Entry
deriving Repr

namespace Passage

variable {τ τ' σ : Type}

/- A run that leaves everything as it is. -/
def refused
    (subject : τ)
    (cause : CommandError)
    (w : World σ) : Passage τ σ :=
  ⟨subject, .finished (.failed cause), w, []⟩

/- The same run, seen as one of something else. -/
def map
    (change : τ → τ')
    (p : Passage τ σ) : Passage τ' σ :=
  ⟨change p.subject, p.ending, p.world, p.log⟩

/-
  Hand the result on when a run is over, to a callback that
  changes the state. A run that is dropped is never over.
-/
def callBack
    (onComplete : CommandResult → σ → σ)
    (p : Passage τ σ) : Passage τ σ :=
  match p.ending with
  | .finished result =>
      { p with world := p.world.alter (onComplete result) }
  | .dropped => p

section Callbacks

variable (onComplete : CommandResult → σ → σ)
variable (p : Passage τ σ)

/- A callback acts after a run that ends, or not at all. -/
theorem callBack_cases :
    (∃ result,
      p.ending = .finished result ∧
        p.callBack onComplete =
          { p with
            world := p.world.alter (onComplete result) }) ∨
      (p.ending = .dropped ∧ p.callBack onComplete = p) := by
  unfold callBack
  cases p.ending with
  | finished result => exact .inl ⟨result, rfl, rfl⟩
  | dropped => exact .inr ⟨rfl, rfl⟩

theorem callBack_subject :
    (p.callBack onComplete).subject = p.subject := by
  rcases p.callBack_cases onComplete with
    ⟨result, _, hCalled⟩ | ⟨_, hCalled⟩ <;>
    rw [hCalled]

end Callbacks

end Passage

namespace Node

variable {κ σ : Type}

mutual

/- Run a node; its path ends with its own location. -/
def run
    (routine : κ → Routine σ)
    (plan : Plan)
    (path : List Location) :
    Node κ → World σ → Passage (Node κ) σ
| .leaf location command, w =>
    let trail := (routine command).run plan path w
    ⟨.leaf location command,
      trail.ending, trail.world, trail.log⟩
| .group line state children, w =>
    match state with
    | .running index =>
        .refused (.group line (.running index) children)
          .alreadyStarted w
    | .completed =>
        .refused (.group line .completed children)
          .alreadyCompleted w
    | .idle =>
        (runFrom routine plan path 0 children w).map
          fun g => .group line g.state g.children

/-
  Run the children of a group, the first of which has the
  given index. An error gets the location of the child,
  unless it has one; later children are left as they are.
-/
def runFrom
    (routine : κ → Routine σ)
    (plan : Plan)
    (path : List Location)
    (index : Nat) :
    List (Node κ) → World σ → Passage (Group κ) σ
| [], w => ⟨⟨.completed, []⟩, .finished .succeeded, w, []⟩
| node :: rest, w =>
    let here := path ++ [node.location]
    let p := node.run routine plan here w
    match p.ending with
    | .dropped =>
        ⟨⟨.running index, p.subject :: rest⟩, .dropped,
          p.world, ⟨.starting, here⟩ :: p.log⟩
    | .finished (.failed cause) =>
        ⟨⟨.completed, p.subject :: rest⟩,
          .finished (.failed (cause.located node.location)),
          p.world,
          ⟨.starting, here⟩ ::
            (p.log ++ [⟨.failed cause.message, here⟩])⟩
    | .finished .succeeded =>
        let q :=
          runFrom routine plan path (index + 1) rest p.world
        ⟨⟨q.subject.state, p.subject :: q.subject.children⟩,
          q.ending, q.world,
          ⟨.starting, here⟩ ::
            (p.log ++ ⟨.completed, here⟩ :: q.log)⟩

end

end Node

namespace Group

variable {κ σ : Type}

/- Run a group. -/
def run
    (routine : κ → Routine σ)
    (plan : Plan)
    (g : Group κ)
    (w : World σ) : Passage (Group κ) σ :=
  match g.state with
  | .running _ => .refused g .alreadyStarted w
  | .completed => .refused g .alreadyCompleted w
  | .idle => Node.runFrom routine plan [] 0 g.children w

/- Run a group, and call back with the result. -/
def runThen
    (routine : κ → Routine σ)
    (onComplete : CommandResult → σ → σ)
    (plan : Plan)
    (g : Group κ)
    (w : World σ) : Passage (Group κ) σ :=
  (g.run routine plan w).callBack onComplete

end Group

end CommandScript
