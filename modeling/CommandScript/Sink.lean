/-
  Sinks: where commands print. A sink takes lines and can be
  cleared; either may be refused.

  Key definitions include:
    * `SinkError`
    * `Sink`
    * `Recorder`
    * `Discard`
    * `Console`
-/

namespace CommandScript

/- Why a sink refuses an operation. -/
inductive SinkError where
| closed
deriving DecidableEq, Repr

namespace SinkError

/- The wording of a sink error. -/
def message : SinkError → String
| .closed => "output closed"

end SinkError

/-
  The states that lines can be printed to. A line is printed
  at a moment of the clock.
-/
class Sink (σ : Type) where
  writeLine : Nat → String → σ → Except SinkError σ
  clear : σ → Except SinkError σ

------------------------------------------------------------
-- Recording
------------------------------------------------------------

/- An operation on a sink. -/
inductive SinkCall where
| write (line : String)
| clear
deriving DecidableEq, Repr

/-
  A sink that keeps what was done to it and which lines are
  visible, until it is closed.
-/
structure Recorder where
  calls : List SinkCall
  lines : List String
  closed : Bool
deriving DecidableEq, Repr

namespace Recorder

/- A sink that nothing was done to. -/
def empty : Recorder where
  calls := []
  lines := []
  closed := false

instance : Inhabited Recorder := ⟨empty⟩

/- Print a line. -/
def writeLine
    (line : String)
    (r : Recorder) : Except SinkError Recorder :=
  if r.closed then .error .closed
  else
    .ok
      { r with
        calls := r.calls ++ [.write line]
        lines := r.lines ++ [line] }

/- Take the visible lines away. -/
def clear (r : Recorder) : Except SinkError Recorder :=
  if r.closed then .error .closed
  else
    .ok
      { r with
        calls := r.calls ++ [.clear]
        lines := [] }

/- Refuse every operation from now on. -/
def close (r : Recorder) : Recorder :=
  { r with closed := true }

instance : Sink Recorder where
  writeLine _ line r := r.writeLine line
  clear r := r.clear

end Recorder

------------------------------------------------------------
-- Discarding
------------------------------------------------------------

/- A sink that keeps nothing. -/
inductive Discard where
| discard
deriving DecidableEq, Repr

instance : Sink Discard where
  writeLine _ _ _ := .ok .discard
  clear _ := .ok .discard

------------------------------------------------------------
-- Printing
------------------------------------------------------------

/- A piece of output and the moment at which it appears. -/
structure Chunk where
  moment : Nat
  text : String
deriving DecidableEq, Repr

/-
  Output that is no terminal: every line appears for good,
  and clearing has no effect.
-/
structure Console where
  chunks : List Chunk
deriving DecidableEq, Repr

namespace Console

/- Output without a line. -/
def empty : Console where
  chunks := []

/- All output in order. -/
def text (c : Console) : String :=
  String.join (c.chunks.map Chunk.text)

instance : Sink Console where
  writeLine moment line c :=
    .ok ⟨c.chunks ++ [⟨moment, line ++ "\n"⟩]⟩
  clear c := .ok c

end Console

end CommandScript
