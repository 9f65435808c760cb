import CommandScript.Proofs.Invocations
import CommandScript.Proofs.ParsedTree
import CommandScript.Proofs.Views

/-
  Trees and their rows. A row says how deep a node is nested
  and nothing about what is in it, but the rows together
  tell the tree: a group takes in the nodes after it, as far
  as they are nested deeper.

  Key definitions include:
    * `Row.graft`
    * `Row.forest`
    * `Row.IsRead`

  Main statements:
    * `Node.forest_rowsOfAll`
    * `Group.rows_inj`
    * `Language.isRead_of_parse`
-/

namespace CommandScript

------------------------------------------------------------
-- Trees from Rows
------------------------------------------------------------

namespace Row

variable {κ : Type}

/-
  Put the node of a row in front of other nodes, each with
  the depth that it is nested at. A group takes in those
  that come first and are nested deeper.
-/
def graft
    (row : Row κ)
    (nodes : List (Nat × Node κ)) :
    List (Nat × Node κ) :=
  match row with
  | .leaf depth location command =>
      (depth, .leaf location command) :: nodes
  | .group depth line state =>
      let isInner := fun p : Nat × Node κ =>
        decide (depth < p.1)
      ( depth,
        .group line state
          ((nodes.takeWhile isInner).map Prod.snd) ) ::
        nodes.dropWhile isInner

/- A group takes in its own nodes, and leaves the rest. -/
theorem graft_group
    (depth line : Nat)
    (state : GroupState)
    (children : List (Node κ))
    {rest : List (Nat × Node κ)}
    (hRest : ∀ p ∈ rest.head?, p.1 ≤ depth) :
    (Row.group depth line state).graft
        (children.map (fun node => (depth + 1, node)) ++
          rest) =
      (depth, .group line state children) :: rest := by
  have hInner :
      ∀ p ∈ children.map fun node => (depth + 1, node),
        decide (depth < p.1) = true := by
    simp
  have hTake :
      rest.takeWhile (fun p => decide (depth < p.1)) =
        [] := by
    cases rest with
    | nil => rfl
    | cons p rest => simp [hRest p rfl]
  have hDrop :
      rest.dropWhile (fun p => decide (depth < p.1)) =
        rest := by
    cases rest with
    | nil => rfl
    | cons p rest => simp [hRest p rfl]
  rw [graft, List.takeWhile_append_of_pos hInner,
    List.dropWhile_append_of_pos hInner, hTake, hDrop]
  simp [Function.comp_def]

/- The nodes of rows, each with its depth. -/
def forest (rows : List (Row κ)) : List (Nat × Node κ) :=
  rows.foldr graft []

end Row

namespace Node

variable {κ : Type}

mutual

/-
  A node is read off its rows, if the next node is not in
  it.
-/
theorem forest_rows
    (depth : Nat)
    (node : Node κ)
    {late : List (Row κ)}
    (hLate : ∀ p ∈ (Row.forest late).head?, p.1 ≤ depth) :
    Row.forest (node.rows depth ++ late) =
      (depth, node) :: Row.forest late := by
  cases node with
  | leaf location command => rfl
  | group line state children =>
      have hDeeper :
          ∀ p ∈ (Row.forest late).head?,
            p.1 ≤ depth + 1 :=
        fun p hp => Nat.le_succ_of_le (hLate p hp)
      have hInner :=
        forest_rowsOfAll (depth + 1) children hDeeper
      change
        Row.graft (.group depth line state)
            (Row.forest
              (rowsOfAll (depth + 1) children ++ late)) = _
      rw [hInner, Row.graft_group depth line state _ hLate]

theorem forest_rowsOfAll
    (depth : Nat)
    (nodes : List (Node κ))
    {late : List (Row κ)}
    (hLate : ∀ p ∈ (Row.forest late).head?, p.1 ≤ depth) :
    Row.forest (rowsOfAll depth nodes ++ late) =
      nodes.map (fun node => (depth, node)) ++
        Row.forest late := by
  cases nodes with
  | nil => rfl
  | cons node rest =>
      have hRest := forest_rowsOfAll depth rest hLate
      have hNext :
          ∀ p ∈
            (Row.forest
              (rowsOfAll depth rest ++ late)).head?,
            p.1 ≤ depth := by
        rw [hRest]
        cases rest with
        | nil => exact hLate
        | cons next rest => simp
      rw [rowsOfAll, List.append_assoc,
        forest_rows depth node hNext, hRest]
      rfl

end

end Node

/- Groups in one state with the same rows are the same. -/
theorem Group.rows_inj
    {κ : Type}
    {g g' : Group κ}
    (hState : g.state = g'.state)
    (hRows : g.rows = g'.rows) :
    g = g' := by
  have hForest (g : Group κ) :
      (Row.forest g.rows).map Prod.snd = g.children := by
    have hNone :
        ∀ p ∈ (Row.forest ([] : List (Row κ))).head?,
          p.1 ≤ 0 :=
      nofun
    have hAll := Node.forest_rowsOfAll 0 g.children hNone
    rw [List.append_nil] at hAll
    unfold Group.rows
    rw [hAll]
    simp [Row.forest, Function.comp_def]
  have hChildren : g.children = g'.children := by
    rw [← hForest g, ← hForest g', hRows]
  cases g
  cases g'
  cases hState
  cases hChildren
  rfl

------------------------------------------------------------
-- Rows of Changed Commands
------------------------------------------------------------

/- The same row with its command changed. -/
def Row.map
    {κ κ' : Type}
    (change : κ → κ') : Row κ → Row κ'
| .leaf depth location command =>
    .leaf depth location (change command)
| .group depth line state => .group depth line state

namespace Node

variable {κ κ' : Type}

mutual

/- The rows change with the commands. -/
theorem rows_map
    (change : κ → κ')
    (depth : Nat)
    (node : Node κ) :
    (node.map change).rows depth =
      (node.rows depth).map (Row.map change) := by
  cases node with
  | leaf location command => rfl
  | group line state children =>
      have hChildren :=
        rowsOfAll_mapAll change (depth + 1) children
      simp only [map, rows, hChildren, List.map_cons,
        Row.map]

theorem rowsOfAll_mapAll
    (change : κ → κ')
    (depth : Nat)
    (nodes : List (Node κ)) :
    rowsOfAll depth (mapAll change nodes) =
      (rowsOfAll depth nodes).map (Row.map change) := by
  cases nodes with
  | nil => rfl
  | cons node rest =>
      have hNode := rows_map change depth node
      have hRest := rowsOfAll_mapAll change depth rest
      simp only [mapAll, rowsOfAll, hNode, hRest,
        List.map_append]

end

end Node

theorem Group.rows_map
    {κ κ' : Type}
    (change : κ → κ')
    (g : Group κ) :
    (g.map change).rows = g.rows.map (Row.map change) :=
  Node.rowsOfAll_mapAll change 0 g.children

------------------------------------------------------------
-- Rows of a Script
------------------------------------------------------------

/-
  A row as it is read from a script. A command has a name
  for a kind, and not the one that groups have.
-/
def Row.IsRead
    {κ : Type} : Row κ → Prop
| .leaf _ location _ =>
    Text.isName location.kind.toList = true ∧
      location.kind ≠ groupKind
| .group _ _ state => state = .idle

namespace Language

variable {κ : Type}
variable {l : Language κ}

/- No command is of the kind of groups, unless it can be. -/
theorem Shows.isRead
    {site : Site}
    {row : Row κ}
    (hFree : l.registry.contains groupKind = false)
    (hShows : l.Shows site row) :
    row.IsRead := by
  cases hShows with
  | opening hRole hDepth => rfl
  | @command depth text invocation command hRole hCalls
      hDepth =>
      rcases hCalls with ⟨hRead, hMade⟩
      constructor
      · rcases Wording.exists_wording_of_read hRead with
          ⟨w, _, rfl⟩
        have hName : Text.isName w.kind = true := w.isName
        exact (congrArg Text.isName
          String.toList_ofList).trans hName
      · intro hKind
        have hKind : invocation.kind = groupKind := hKind
        rw [hKind,
          Registry.construct_eq_none_iff.mpr hFree] at hMade
        cases hMade

theorem forall_isRead_of_shows
    {sites : List Site}
    {rows : List (Row κ)}
    (hFree : l.registry.contains groupKind = false)
    (hShows : List.Forall₂ l.Shows sites rows) :
    ∀ row ∈ rows, row.IsRead := by
  induction hShows with
  | nil => nofun
  | cons hRow hRows ih =>
      exact
        List.forall_mem_cons.mpr ⟨hRow.isRead hFree, ih⟩

theorem isRead_of_parse
    {text : String}
    {root : Group κ}
    (hFree : l.registry.contains groupKind = false)
    (hParse : l.parse text = .ok root) :
    ∀ row ∈ root.rows, row.IsRead :=
  forall_isRead_of_shows hFree (shows_of_parse hParse).2

end Language

end CommandScript
