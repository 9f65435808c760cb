import CommandScript.Log

/-
  What a command does when it runs, as a routine: a finite
  course of steps that see and change a state, note remarks,
  and wait. Time is a clock in nanoseconds that only waiting
  moves. A run can be cancelled at a moment, and it can be
  dropped at a moment before it ends.

  Key definitions include:
    * `World`
    * `Routine`
    * `Plan`
    * `Ending`
    * `Routine.run`
-/

namespace CommandScript

------------------------------------------------------------
-- Worlds and Routines
------------------------------------------------------------

/-
  What commands share: the clock, whether cancellation has
  been requested, and the state that they act on.
-/
structure World (σ : Type) where
  clock : Nat
  cancelled : Bool
  state : σ
deriving DecidableEq, Repr

namespace World

variable {σ τ : Type}

/- A world at the start of time. -/
def initial (state : σ) : World σ where
  clock := 0
  cancelled := false
  state := state

/- Request cancellation. -/
def cancel (w : World σ) : World σ :=
  { w with cancelled := true }

/- What is noted when cancellation is requested. -/
def cancelLog (w : World σ) : List Entry :=
  if w.cancelled then [] else [⟨.cancelling, []⟩]

/- Change the state. -/
def alter
    (change : σ → σ)
    (w : World σ) : World σ :=
  { w with state := change w.state }

/- The same world seen with another state. -/
def view
    (get : σ → τ)
    (w : World σ) : World τ :=
  ⟨w.clock, w.cancelled, get w.state⟩

end World

/-
  The course of a command. It ends with a result, goes on
  according to what it sees, changes the state, notes a
  remark, or sleeps for some nanoseconds; a sleep may be one
  from which a request for cancellation wakes it.
-/
inductive Routine (σ : Type) where
| finish (result : CommandResult)
| look (next : World σ → Routine σ)
| act (change : σ → σ) (next : Routine σ)
| note (remark : Remark) (next : Routine σ)
| sleep
    (length : Nat)
    (wakes : Bool)
    (next : Routine σ)

------------------------------------------------------------
-- Plans and Endings
------------------------------------------------------------

/-
  What befalls a run from outside: the moment at which it is
  cancelled, and the moment at which it is dropped, if it
  has not ended by then.
-/
structure Plan where
  cancelAt : Option Nat
  dropAt : Option Nat
deriving DecidableEq, Repr

/- The plan of a run that is left alone. -/
def Plan.undisturbed : Plan where
  cancelAt := none
  dropAt := none

/- How a run ends: with a result, or dropped. -/
inductive Ending where
| finished (result : CommandResult)
| dropped
deriving DecidableEq, Repr

/- What a run leaves behind. -/
structure Trail (σ : Type) where
  ending : Ending
  world : World σ
  log : List Entry
deriving DecidableEq, Repr

/- How a sleep ends. -/
structure Waking (σ : Type) where
  dropped : Bool
  world : World σ
  log : List Entry
deriving DecidableEq, Repr

------------------------------------------------------------
-- Sleeping
------------------------------------------------------------

namespace World

variable {σ : Type}

/- The world when its clock has moved on to a moment. -/
def advance
    (w : World σ)
    (moment : Nat) : World σ :=
  { w with clock := max w.clock moment }

/- Sleep to a moment, unless the run is dropped before. -/
def sleepUntil
    (dropAt : Option Nat)
    (moment : Nat)
    (w : World σ) : Waking σ :=
  match dropAt.filter (· < moment) with
  | some drop => ⟨true, w.advance drop, []⟩
  | none => ⟨false, w.advance moment, []⟩

/-
  Sleep for a time. A sleep of no length is over at once,
  and so is one that cancellation ends when that has already
  been requested. If cancellation is requested on the way,
  the sleep ends there or goes on, as it is meant to; the
  run may be dropped first.
-/
def sleep
    (plan : Plan)
    (length : Nat)
    (wakes : Bool)
    (w : World σ) : Waking σ :=
  let moment := w.clock + length
  if length = 0 ∨ (wakes ∧ w.cancelled) then ⟨false, w, []⟩
  else
    match plan.cancelAt.filter (· < moment) with
    | none => w.sleepUntil plan.dropAt moment
    | some cancel =>
        let before := w.sleepUntil plan.dropAt cancel
        if before.dropped then before
        else
          let after := before.world.cancel
          let noted := before.world.cancelLog
          if wakes then ⟨false, after, noted⟩
          else
            let waking := after.sleepUntil plan.dropAt moment
            ⟨waking.dropped, waking.world,
              noted ++ waking.log⟩

end World

------------------------------------------------------------
-- Running
------------------------------------------------------------

namespace Routine

variable {σ : Type}

/- Run a routine under the commands of a path. -/
def run
    (plan : Plan)
    (path : List Location) :
    Routine σ → World σ → Trail σ
| .finish result, w => ⟨.finished result, w, []⟩
| .look next, w => run plan path (next w) w
| .act change next, w => run plan path next (w.alter change)
| .note remark next, w =>
    let trail := run plan path next w
    { trail with
      log := ⟨.remark remark, path⟩ :: trail.log }
| .sleep length wakes next, w =>
    let waking := w.sleep plan length wakes
    if waking.dropped then
      ⟨.dropped, waking.world, waking.log⟩
    else
      let trail := run plan path next waking.world
      { trail with log := waking.log ++ trail.log }

/- End well. -/
def succeed : Routine σ :=
  .finish .succeeded

/- End with an error. -/
def fail (cause : CommandError) : Routine σ :=
  .finish (.failed cause)

/- End as cancelled if cancellation has been requested. -/
def unlessCancelled (next : Routine σ) : Routine σ :=
  .look fun w => if w.cancelled then fail .cancelled else next

end Routine

end CommandScript
