import CommandScript.Proofs.Lines

/-
  Commands seen from outside. A view takes every command to
  what is observed of it. Reading a text passes commands on
  as they are made, so what is observed of the tree depends
  on no more than what is observed of the commands that the
  registry makes.

  Key definitions include:
    * `Node.map`
    * `Group.map`
    * `Language.seen`

  Main statements:
    * `Registry.construct_map`
    * `Language.step_seen`
    * `Language.parse_seen`
-/

namespace CommandScript

------------------------------------------------------------
-- Trees
------------------------------------------------------------

namespace Node

variable {κ κ' : Type}

mutual

/- The same node with every command changed. -/
def map (change : κ → κ') : Node κ → Node κ'
| .leaf location command =>
    .leaf location (change command)
| .group line state children =>
    .group line state (mapAll change children)

/- The same nodes with every command changed. -/
def mapAll
    (change : κ → κ') : List (Node κ) → List (Node κ')
| [] => []
| node :: rest => node.map change :: mapAll change rest

end

theorem mapAll_append
    (change : κ → κ')
    (early late : List (Node κ)) :
    mapAll change (early ++ late) =
      mapAll change early ++ mapAll change late := by
  induction early with
  | nil => rfl
  | cons node early ih =>
      simp only [List.cons_append, mapAll, ih]

end Node

namespace Group

variable {κ κ' : Type}

/- The same group with every command in it changed. -/
def map
    (change : κ → κ')
    (g : Group κ) : Group κ' where
  state := g.state
  children := Node.mapAll change g.children

end Group

------------------------------------------------------------
-- Registries
------------------------------------------------------------

/- What is made of a kind is changed as its commands are. -/
theorem Registry.construct_map
    {κ κ' : Type}
    (change : κ → κ')
    (r : Registry κ)
    (kind : String)
    (params : Params) :
    (r.map change).construct kind params =
      (r.construct kind params).map (Except.map change) := by
  unfold construct map
  rw [Dictionary.get?_map, Option.map_map, Option.map_map]
  rfl

------------------------------------------------------------
-- Drafts
------------------------------------------------------------

/- The same open group with every command changed. -/
def Frame.map
    {κ κ' : Type}
    (change : κ → κ')
    (frame : Frame κ) : Frame κ' where
  line := frame.line
  children := Node.mapAll change frame.children

namespace Draft

variable {κ κ' : Type}
variable (change : κ → κ')

/- The same draft with every command changed. -/
def map (d : Draft κ) : Draft κ' where
  root := Node.mapAll change d.root
  frames := d.frames.map (Frame.map change)

theorem map_add
    (d : Draft κ)
    (node : Node κ) :
    (d.add node).map change =
      (d.map change).add (node.map change) := by
  rcases d with ⟨root, frames⟩
  cases frames <;>
    simp [add, map, Frame.map, Node.mapAll_append,
      Node.mapAll]

theorem map_openGroup
    (d : Draft κ)
    (line : Nat) :
    (d.openGroup line).map change =
      (d.map change).openGroup line := by
  simp [openGroup, map, Frame.map, Node.mapAll]

theorem closeGroup?_map
    (d : Draft κ) :
    (d.map change).closeGroup? =
      d.closeGroup?.map (map change) := by
  rcases d with ⟨root, frames⟩
  cases frames with
  | nil => rfl
  | cons frame outer =>
      have hAdd :=
        map_add change ⟨root, outer⟩
          (.group frame.line .idle frame.children)
      simp only [Node.map] at hAdd
      exact congrArg some hAdd.symm

theorem finish_map
    (d : Draft κ) :
    (d.map change).finish =
      d.finish.map (Group.map change) := by
  unfold finish
  simp only [map, List.getLast?_map]
  cases d.frames.getLast? <;> rfl

end Draft

------------------------------------------------------------
-- Reading with a View
------------------------------------------------------------

namespace Language

variable {κ β : Type}
variable (l : Language κ)
variable (view : κ → β)

/- The same language, of whose commands a view is taken. -/
def seen : Language β where
  registry := l.registry.map view
  dialect := l.dialect

theorem command_seen
    (number : Nat)
    (text : List Char) :
    (l.seen view).command number text =
      (l.command number text).map (Node.map view) := by
  unfold command construct seen
  cases Invocation.read text with
  | error cause => rfl
  | ok invocation =>
      simp only [Attempt.ofExcept, Attempt.wrap, bind,
        Except.bind, Registry.construct_map]
      cases l.registry.construct invocation.kind
          invocation.params with
      | none => rfl
      | some attempt =>
          cases attempt with
          | ok command => rfl
          | error halt => cases halt <;> rfl

/- A line adds to a draft what is seen of what it adds. -/
theorem step_seen
    (draft : Draft κ)
    (number : Nat)
    (raw : List Char) :
    (l.seen view).step (draft.map view) (number, raw) =
      (l.step draft (number, raw)).map (Draft.map view) :=
    by
  have hDialect : (l.seen view).dialect = l.dialect := rfl
  unfold step
  rw [hDialect]
  cases l.dialect.role raw with
  | skipped => rfl
  | opening =>
      exact
        congrArg Except.ok
          (draft.map_openGroup view number).symm
  | closing =>
      simp only [Draft.closeGroup?_map]
      cases draft.closeGroup? <;> rfl
  | command text =>
      simp only [command_seen]
      cases l.command number text with
      | error halt => rfl
      | ok node =>
          exact
            congrArg Except.ok (draft.map_add view node).symm

theorem readLines_seen
    (draft : Draft κ)
    (number : Nat)
    (raws : List (List Char)) :
    (l.seen view).readLines (draft.map view) number raws =
      (l.readLines draft number raws).map (Draft.map view) :=
    by
  induction raws generalizing draft number with
  | nil => rfl
  | cons raw raws ih =>
      unfold readLines
      rw [step_seen]
      cases l.step draft (number, raw) with
      | error halt => rfl
      | ok next => exact ih next (number + 1)

/- A text is read into what is seen of its tree. -/
theorem parse_seen
    (text : String) :
    (l.seen view).parse text =
      (l.parse text).map (Group.map view) := by
  have hLines :=
    l.readLines_seen view Draft.empty 1
      (Text.lines text.toList)
  have hEmpty :
      (Draft.empty : Draft κ).map view = Draft.empty := rfl
  rw [hEmpty] at hLines
  rw [parse_eq_readLines, parse_eq_readLines, hLines]
  cases l.readLines Draft.empty 1
      (Text.lines text.toList) with
  | error halt => rfl
  | ok draft => exact draft.finish_map view

end Language

end CommandScript
