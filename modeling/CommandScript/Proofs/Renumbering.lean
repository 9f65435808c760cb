import CommandScript.Proofs.Lines

/-
  Other line numbers. The numbers of lines only pass through
  the reading of a text: when its lines are numbered in
  another way, the same tree or the same error comes of it,
  with the other numbers in it.

  Key definitions include:
    * `Node.renumber`
    * `ParseError.renumber`
    * `Attempt.renumber`

  Main statements:
    * `Language.step_renumber`
    * `Language.readLines_renumber`
    * `Draft.finish_renumber`
-/

namespace CommandScript

------------------------------------------------------------
-- Numbers in Trees and Errors
------------------------------------------------------------

/- The same place with another line number. -/
def Location.renumber
    (f : Nat → Nat)
    (location : Location) : Location where
  kind := location.kind
  line := f location.line

namespace Node

variable {κ : Type}

mutual

/- The same node with other line numbers at every depth. -/
def renumber (f : Nat → Nat) : Node κ → Node κ
| .leaf location command =>
    .leaf (location.renumber f) command
| .group line state children =>
    .group (f line) state (renumberAll f children)

/- The same nodes with other line numbers. -/
def renumberAll
    (f : Nat → Nat) : List (Node κ) → List (Node κ)
| [] => []
| node :: rest => node.renumber f :: renumberAll f rest

end

theorem renumberAll_append
    (f : Nat → Nat)
    (early late : List (Node κ)) :
    renumberAll f (early ++ late) =
      renumberAll f early ++ renumberAll f late := by
  induction early with
  | nil => rfl
  | cons node early ih =>
      simp only [List.cons_append, renumberAll, ih]

end Node

/- The same group with other line numbers in it. -/
def Group.renumber
    {κ : Type}
    (f : Nat → Nat)
    (g : Group κ) : Group κ where
  state := g.state
  children := Node.renumberAll f g.children

/- The same error on another line. -/
def ParseError.renumber
    (f : Nat → Nat) : ParseError → ParseError
| .unknownKind kind line => .unknownKind kind (f line)
| .unexpectedClose line => .unexpectedClose (f line)
| .unclosedGroup line => .unclosedGroup (f line)
| .malformed line source => .malformed (f line) source
| .configuration kind line source =>
    .configuration kind (f line) source

/- An abort has no line. -/
def Halt.renumber
    (f : Nat → Nat) : Halt ParseError → Halt ParseError
| .error cause => .error (cause.renumber f)
| .aborted => .aborted

/-
  What an attempt comes to with other line numbers, given
  how its value changes with them.
-/
def Attempt.renumber
    {α : Type}
    (change : (Nat → Nat) → α → α)
    (f : Nat → Nat) :
    Attempt ParseError α → Attempt ParseError α
| .ok value => .ok (change f value)
| .error halt => .error (halt.renumber f)

------------------------------------------------------------
-- Numbers in Drafts
------------------------------------------------------------

/- The same open group with other line numbers. -/
def Frame.renumber
    {κ : Type}
    (f : Nat → Nat)
    (frame : Frame κ) : Frame κ where
  line := f frame.line
  children := Node.renumberAll f frame.children

namespace Draft

variable {κ : Type}

/- The same draft with other line numbers. -/
def renumber
    (f : Nat → Nat)
    (d : Draft κ) : Draft κ where
  root := Node.renumberAll f d.root
  frames := d.frames.map (Frame.renumber f)

variable (f : Nat → Nat)

theorem renumber_add
    (d : Draft κ)
    (node : Node κ) :
    (d.add node).renumber f =
      (d.renumber f).add (node.renumber f) := by
  rcases d with ⟨root, frames⟩
  cases frames <;>
    simp [add, renumber, Frame.renumber,
      Node.renumberAll_append, Node.renumberAll]

theorem renumber_openGroup
    (d : Draft κ)
    (line : Nat) :
    (d.openGroup line).renumber f =
      (d.renumber f).openGroup (f line) := by
  simp [openGroup, renumber, Frame.renumber,
    Node.renumberAll]

theorem closeGroup?_renumber
    (d : Draft κ) :
    (d.renumber f).closeGroup? =
      d.closeGroup?.map (renumber f) := by
  rcases d with ⟨root, frames⟩
  cases frames with
  | nil => rfl
  | cons frame outer =>
      have hAdd :=
        renumber_add f ⟨root, outer⟩
          (.group frame.line .idle frame.children)
      simp only [Node.renumber] at hAdd
      exact congrArg some hAdd.symm

theorem finish_renumber
    (d : Draft κ) :
    (d.renumber f).finish =
      d.finish.renumber Group.renumber f := by
  unfold finish
  simp only [renumber, List.getLast?_map]
  cases d.frames.getLast? <;> rfl

/- The tree of what was read has its numbers. -/
theorem bind_finish_renumber
    (result : Attempt ParseError (Draft κ)) :
    (result.renumber renumber f).bind finish =
      Attempt.renumber Group.renumber f
        (result.bind finish) := by
  cases result with
  | error halt => rfl
  | ok draft => exact finish_renumber f draft

end Draft

------------------------------------------------------------
-- Reading with Other Numbers
------------------------------------------------------------

namespace Language

variable {κ : Type}
variable (l : Language κ)
variable (f : Nat → Nat)

/- A command line calls for the same on another line. -/
theorem command_renumber
    (number : Nat)
    (text : List Char) :
    l.command (f number) text =
      (l.command number text).renumber Node.renumber f := by
  unfold command construct
  cases Invocation.read text with
  | error cause => rfl
  | ok invocation =>
      simp only [Attempt.ofExcept, Attempt.wrap, bind,
        Except.bind]
      cases l.registry.construct invocation.kind
          invocation.params with
      | none => rfl
      | some attempt =>
          cases attempt with
          | ok command => rfl
          | error halt => cases halt <;> rfl

/- A line with another number adds the same to a draft. -/
theorem step_renumber
    (draft : Draft κ)
    (number : Nat)
    (raw : List Char) :
    l.step (draft.renumber f) (f number, raw) =
      (l.step draft (number, raw)).renumber Draft.renumber
        f := by
  unfold step
  cases l.dialect.role raw with
  | skipped => rfl
  | opening =>
      exact
        congrArg Except.ok
          (draft.renumber_openGroup f number).symm
  | closing =>
      simp only [Draft.closeGroup?_renumber]
      cases draft.closeGroup? <;> rfl
  | command text =>
      simp only [command_renumber]
      cases l.command number text with
      | error halt => rfl
      | ok node =>
          exact
            congrArg Except.ok
              (draft.renumber_add f node).symm

/-
  Lines that follow one another are read with other numbers
  when these follow one another as well.
-/
theorem readLines_renumber
    {number number' : Nat}
    {raws : List (List Char)}
    (draft : Draft κ)
    (hNumbers :
      ∀ i < raws.length, f (number + i) = number' + i) :
    l.readLines (draft.renumber f) number' raws =
      (l.readLines draft number raws).renumber
        Draft.renumber f := by
  induction raws generalizing draft number number' with
  | nil => rfl
  | cons raw raws ih =>
      have hFirst : f number = number' :=
        hNumbers 0 (Nat.zero_lt_succ _)
      have hLater :
          ∀ i < raws.length,
            f (number + 1 + i) = number' + 1 + i := by
        intro i hi
        rw [Nat.add_assoc, Nat.add_comm 1 i, Nat.add_assoc,
          Nat.add_comm 1 i]
        exact hNumbers (i + 1) (Nat.succ_lt_succ hi)
      have hStep := l.step_renumber f draft number raw
      rw [hFirst] at hStep
      unfold readLines
      rw [hStep]
      cases l.step draft (number, raw) with
      | error halt => rfl
      | ok next => exact ih next hLater

end Language

end CommandScript
