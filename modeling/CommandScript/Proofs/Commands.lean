import CommandScript.Proofs.ParsedTree
import CommandScript.Proofs.States

/-
  The commands of a script, one after another. They are what
  its command lines call for, in the order of the lines, and
  the groups around them play no part when the script runs.

  Key definitions include:
    * `Placed`
    * `Group.commands`
    * `Draft.commands`
    * `Language.commands`

  Main statements:
    * `Group.run_outcome_of_commands`
    * `Language.commands_of_step`
    * `Language.commands_of_parse`
-/

namespace CommandScript

------------------------------------------------------------
-- Commands of a Tree
------------------------------------------------------------

/- A command and where it comes from. -/
structure Placed (κ : Type) where
  location : Location
  command : κ
deriving DecidableEq, Repr

namespace Placed

variable {κ : Type}

/- A command as a node. -/
def node (placed : Placed κ) : Node κ :=
  .leaf placed.location placed.command

/- The job of running a command. -/
def job (placed : Placed κ) : Job κ :=
  .perform placed.location placed.command

end Placed

/- The command of a leaf. -/
def Leaf.placed
    {κ : Type}
    (leaf : Leaf κ) : Placed κ :=
  ⟨leaf.location, leaf.command⟩

/- The command of a row. The row of a group has none. -/
def Row.placed?
    {κ : Type} : Row κ → Option (Placed κ)
| .leaf _ location command => some ⟨location, command⟩
| .group _ _ _ => none

namespace Node

variable {κ : Type}

mutual

/- The leaves of a node have the commands of its rows. -/
theorem leaves_eq_rows
    (depth : Nat)
    (node : Node κ) :
    node.leaves.map Leaf.placed =
      (node.rows depth).filterMap Row.placed? := by
  cases node with
  | leaf location command => rfl
  | group line state children =>
      simp only [leaves, rows, List.filterMap_cons,
        Row.placed?]
      exact leavesFrom_eq_rows 0 (depth + 1) children

theorem leavesFrom_eq_rows
    (index depth : Nat)
    (nodes : List (Node κ)) :
    (leavesFrom index nodes).map Leaf.placed =
      (rowsOfAll depth nodes).filterMap Row.placed? := by
  cases nodes with
  | nil => rfl
  | cons node rest =>
      have hNode := leaves_eq_rows depth node
      have hRest :=
        leavesFrom_eq_rows (index + 1) depth rest
      have hUnder :
          Leaf.placed ∘ Leaf.under (κ := κ) index =
            Leaf.placed :=
        rfl
      rw [leavesFrom, rowsOfAll, List.map_append,
        List.filterMap_append, List.map_map, hUnder, hNode,
        hRest]

end

end Node

namespace Group

variable {κ : Type}

/- The commands of a group, however deep they are. -/
def commands (g : Group κ) : List (Placed κ) :=
  g.leaves.map Leaf.placed

theorem commands_eq_rows
    (g : Group κ) :
    g.commands = g.rows.filterMap Row.placed? :=
  Node.leavesFrom_eq_rows 0 0 g.children

/- A fresh group comes to what its commands come to. -/
theorem run_outcome_of_commands
    {σ : Type}
    {g : Group κ}
    (routine : κ → Routine σ)
    (plan : Plan)
    (w : World σ)
    (hFresh : g.IsFresh) :
    (g.run routine plan w).outcome =
      Job.runAll routine plan
        (g.commands.map Placed.job) w := by
  have hJobs :
      g.commands.map Placed.job = g.leaves.map Leaf.job :=
    List.map_map
  rw [run_outcome_of_isFresh routine plan w hFresh, hJobs]

end Group

------------------------------------------------------------
-- Commands of a Draft
------------------------------------------------------------

namespace Draft

variable {κ : Type}

/- The commands of a draft, in open groups as well. -/
def commands (d : Draft κ) : List (Placed κ) :=
  d.rows.filterMap Row.placed?

/- A command comes last, however deep it is nested. -/
theorem commands_add_leaf
    (d : Draft κ)
    (location : Location)
    (command : κ) :
    (d.add (.leaf location command)).commands =
      d.commands ++ [⟨location, command⟩] := by
  unfold commands
  rw [rows_add, List.filterMap_append]
  rfl

theorem commands_openGroup
    (d : Draft κ)
    (line : Nat) :
    (d.openGroup line).commands = d.commands := by
  unfold commands
  rw [rows_openGroup, List.filterMap_append]
  exact List.append_nil _

theorem commands_closeGroup?
    {d d' : Draft κ}
    (hClose : d.closeGroup? = some d') :
    d'.commands = d.commands := by
  unfold commands
  rw [rows_closeGroup? hClose]

/- The tree of a finished draft has its commands. -/
theorem commands_of_finish
    {d : Draft κ}
    {g : Group κ}
    (hFinish : d.finish = .ok g) :
    g.commands = d.commands := by
  rw [g.commands_eq_rows, (rows_of_finish hFinish).2]
  rfl

end Draft

------------------------------------------------------------
-- Commands of a Text
------------------------------------------------------------

namespace Language

variable {κ : Type}
variable (l : Language κ)

/- The command that a numbered line calls for, if any. -/
def placed?
    (line : Nat × List Char) : Option (Placed κ) :=
  match l.dialect.role line.2 with
  | .command text =>
      match Invocation.read text with
      | .ok invocation =>
          match l.registry.construct invocation.kind
              invocation.params with
          | some (.ok command) =>
              some ⟨⟨invocation.kind, line.1⟩, command⟩
          | _ => none
      | .error _ => none
  | _ => none

/- What the lines of a text call for, in their order. -/
def commands (text : String) : List (Placed κ) :=
  (Text.numberedLines text.toList).filterMap l.placed?

variable {l}

/- What is called for is called for by a command line. -/
theorem calls_of_placed?
    {line : Nat × List Char}
    {placed : Placed κ}
    (hPlaced : l.placed? line = some placed) :
    ∃ text invocation,
      l.dialect.role line.2 = .command text ∧
        l.Calls text invocation placed.command ∧
        placed.location = ⟨invocation.kind, line.1⟩ := by
  unfold placed? at hPlaced
  cases hRole : l.dialect.role line.2 with
  | skipped | opening | closing => simp [hRole] at hPlaced
  | command text =>
      cases hRead : Invocation.read text with
      | error cause => simp [hRole, hRead] at hPlaced
      | ok invocation =>
          simp only [hRole, hRead] at hPlaced
          cases hMade :
              l.registry.construct invocation.kind
                invocation.params with
          | none => simp [hMade] at hPlaced
          | some attempt =>
              cases attempt with
              | error halt => simp [hMade] at hPlaced
              | ok command =>
                  simp only [hMade] at hPlaced
                  cases hPlaced
                  exact
                    ⟨text, invocation, rfl,
                      ⟨hRead, hMade⟩, rfl⟩

/- An accepted line adds the command it calls for. -/
theorem commands_of_step
    {draft draft' : Draft κ}
    {line : Nat × List Char}
    (hStep : l.step draft line = .ok draft') :
    draft'.commands =
      draft.commands ++ (l.placed? line).toList := by
  unfold placed?
  cases l.advances_of_step hStep with
  | skipped hRole =>
      rw [hRole]
      exact (List.append_nil _).symm
  | opened hRole =>
      rw [hRole, Draft.commands_openGroup]
      exact (List.append_nil _).symm
  | closed hRole hClose =>
      rw [hRole, Draft.commands_closeGroup? hClose]
      exact (List.append_nil _).symm
  | called hRole hCalls =>
      rw [Draft.commands_add_leaf]
      simp only [hRole, hCalls.1, hCalls.2]
      rfl

/- Accepted lines add the commands they call for. -/
theorem commands_of_foldlM_step
    {draft draft' : Draft κ}
    {lines : List (Nat × List Char)}
    (hRead : lines.foldlM l.step draft = .ok draft') :
    draft'.commands =
      draft.commands ++ lines.filterMap l.placed? := by
  induction lines generalizing draft with
  | nil =>
      cases hRead
      exact (List.append_nil _).symm
  | cons line lines ih =>
      rw [List.foldlM_cons] at hRead
      rcases Attempt.exists_of_bind_eq_ok hRead with
        ⟨next, hStep, hRest⟩
      rw [ih hRest, commands_of_step hStep,
        List.append_assoc]
      cases hPlaced : l.placed? line <;> simp [hPlaced]

/- The tree of a text has the commands of its lines. -/
theorem commands_of_parse
    {text : String}
    {g : Group κ}
    (hParse : l.parse text = .ok g) :
    g.commands = l.commands text := by
  rcases Attempt.exists_of_bind_eq_ok hParse with
    ⟨draft, hRead, hFinish⟩
  rw [Draft.commands_of_finish hFinish,
    commands_of_foldlM_step hRead]
  rfl

end Language

end CommandScript
