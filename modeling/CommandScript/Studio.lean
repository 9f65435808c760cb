import CommandScript.Sink
import CommandScript.Steps

/-
  A studio: the recorders that a program has made, and the
  handles by which it reaches them. A clone of a handle
  reaches the same recorder, so what is done through one of
  them shows through the other.

  Key definitions include:
    * `Recorder.operate`
    * `Studio`
    * `Studio.Task`
    * `Studio.Reply`
    * `Studio.perform`
    * `Studio.history`
    * `Studio.transcript`
-/

namespace CommandScript

/- Do an operation to a recorder, which may be refused. -/
def Recorder.operate
    (call : SinkCall)
    (r : Recorder) : Except SinkError Recorder :=
  match call with
  | .write line => r.writeLine line
  | .clear => r.clear

------------------------------------------------------------
-- Recorders and Handles
------------------------------------------------------------

/-
  Recorders and handles. A handle is known by its number,
  and it reaches the recorder in some slot.
-/
structure Studio where
  recorders : List Recorder
  handles : List Nat
  reached : ∀ slot ∈ handles, slot < recorders.length
deriving DecidableEq, Repr

namespace Studio

/- A studio in which nothing has been made. -/
def empty : Studio where
  recorders := []
  handles := []
  reached := nofun

/- The slot of the recorder that a handle reaches. -/
def slot?
    (s : Studio)
    (handle : Nat) : Option (Fin s.recorders.length) :=
  if h : handle < s.handles.length then
    some
      ⟨s.handles[handle], s.reached _ (List.getElem_mem h)⟩
  else none

/- Add a recorder and a handle that reaches it. -/
def addRecorder (s : Studio) : Studio where
  recorders := s.recorders ++ [.empty]
  handles := s.handles ++ [s.recorders.length]
  reached := by
    intro slot hSlot
    rw [List.length_append, List.length_singleton]
    rcases List.mem_append.mp hSlot with hSlot | hSlot
    · exact Nat.lt_succ_of_lt (s.reached slot hSlot)
    · rw [List.mem_singleton.mp hSlot]
      exact Nat.lt_succ_self _

/- Add a handle that reaches the recorder in a slot. -/
def addHandle
    (s : Studio)
    (slot : Fin s.recorders.length) : Studio where
  recorders := s.recorders
  handles := s.handles ++ [slot.val]
  reached := by
    intro slot' hSlot
    rcases List.mem_append.mp hSlot with hSlot | hSlot
    · exact s.reached slot' hSlot
    · rw [List.mem_singleton.mp hSlot]
      exact slot.isLt

/- Replace the recorder in a slot. -/
def put
    (s : Studio)
    (slot : Nat)
    (r : Recorder) : Studio where
  recorders := s.recorders.set slot r
  handles := s.handles
  reached := by
    rw [List.length_set]
    exact s.reached

------------------------------------------------------------
-- Tasks
------------------------------------------------------------

/- What can be done through a handle. -/
inductive Deed where
| use (call : SinkCall)
| close
| clone
| calls
| lines
deriving DecidableEq, Repr

/- What can be done in a studio. -/
inductive Task where
| create
| on (handle : Nat) (deed : Deed)
deriving DecidableEq, Repr

/- What a task is answered with. -/
inductive Reply where
| done
| missing
| made (handle : Nat)
| refused (cause : SinkError)
| calls (calls : List SinkCall)
| lines (lines : List String)
deriving DecidableEq, Repr

/- Do something with the recorder in a slot. -/
def act
    (s : Studio)
    (slot : Fin s.recorders.length) :
    Deed → Studio × Reply
| .use call =>
    match (s.recorders.get slot).operate call with
    | .ok r => (s.put slot r, .done)
    | .error cause => (s, .refused cause)
| .close => (s.put slot (s.recorders.get slot).close, .done)
| .clone => (s.addHandle slot, .made s.handles.length)
| .calls => (s, .calls (s.recorders.get slot).calls)
| .lines => (s, .lines (s.recorders.get slot).lines)

/- Perform a task. -/
def perform (s : Studio) : Task → Studio × Reply
| .create => (s.addRecorder, .made s.handles.length)
| .on handle deed =>
    match s.slot? handle with
    | none => (s, .missing)
    | some slot => s.act slot deed

------------------------------------------------------------
-- Histories
------------------------------------------------------------

/- A task in a studio and what it was answered with. -/
abbrev Exchange := CommandScript.Exchange Task Reply

/- What tasks make of a studio in which nothing was made. -/
def history (tasks : List Task) : Studio :=
  Steps.after perform empty tasks

/- All that was asked and answered in a history. -/
def transcript (tasks : List Task) : List Exchange :=
  Steps.exchanges perform empty tasks

end Studio

end CommandScript
