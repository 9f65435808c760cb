import CommandScript.Tree

/-
  The rows of a tree: its nodes in pre-order, each with the
  depth that it is nested at. The listing of a tree and all
  its measures can be read off its rows.

  Key definitions include:
    * `Row`
    * `Group.rows`
    * `Row.peak`
    * `Group.IsFresh`

  Main statements:
    * `Group.listing_eq_rows`
    * `Group.depth_eq_peak`
    * `Group.commandCount_eq_countP`
    * `Group.size_eq_countP`
    * `Group.isFresh_of_rows`
-/

namespace CommandScript

------------------------------------------------------------
-- Rows
------------------------------------------------------------

/- A node without its children, and its depth. -/
inductive Row (κ : Type) where
| leaf
    (depth : Nat)
    (location : Location)
    (command : κ)
| group
    (depth line : Nat)
    (state : GroupState)
deriving DecidableEq, Repr

namespace Row

variable {κ : Type}

/- A row as it stands in a listing. -/
def item : Row κ → Item
| .leaf depth location _ => ⟨depth, location, none⟩
| .group depth line state =>
    ⟨depth, ⟨groupKind, line⟩, some state⟩

/- How deep a row is nested. -/
def depth : Row κ → Nat
| .leaf depth _ _ => depth
| .group depth _ _ => depth

/- How many groups there are around a row and with it. -/
def height : Row κ → Nat
| .leaf depth _ _ => depth
| .group depth _ _ => depth + 1

/- Whether a row is that of a command. -/
def isLeaf : Row κ → Bool
| .leaf _ _ _ => true
| .group _ _ _ => false

/- A row is not that of a group that has been run. -/
def IsIdle : Row κ → Prop
| .leaf _ _ _ => True
| .group _ _ state => state = .idle

/- The greatest height of rows. -/
def peak (rows : List (Row κ)) : Nat :=
  rows.foldr (fun row most => max row.height most) 0

theorem peak_append
    (early late : List (Row κ)) :
    peak (early ++ late) =
      max (peak early) (peak late) := by
  induction early with
  | nil => simp [peak]
  | cons row early ih =>
      simp only [peak, List.cons_append, List.foldr_cons]
        at ih ⊢
      rw [ih]
      omega

end Row

namespace Node

variable {κ : Type}

mutual

/- The rows of a node, each before those of its children. -/
def rows (depth : Nat) : Node κ → List (Row κ)
| .leaf location command => [.leaf depth location command]
| .group line state children =>
    .group depth line state ::
      rowsOfAll (depth + 1) children

/- The rows of some nodes one after another. -/
def rowsOfAll (depth : Nat) : List (Node κ) → List (Row κ)
| [] => []
| node :: rest => node.rows depth ++ rowsOfAll depth rest

end

/- Later nodes have later rows. -/
theorem rowsOfAll_append
    (depth : Nat)
    (early late : List (Node κ)) :
    rowsOfAll depth (early ++ late) =
      rowsOfAll depth early ++ rowsOfAll depth late := by
  induction early with
  | nil => rfl
  | cons node early ih =>
      simp only [List.cons_append, rowsOfAll, ih,
        List.append_assoc]

------------------------------------------------------------
-- Listings and Measures
------------------------------------------------------------

mutual

/- A listing shows the rows. -/
theorem listing_eq_rows
    (depth : Nat)
    (node : Node κ) :
    node.listing depth =
      (node.rows depth).map Row.item := by
  cases node with
  | leaf location command => simp [listing, rows, Row.item]
  | group line state children =>
      have hChildren :=
        listingOfAll_eq_rows (depth + 1) children
      simp [listing, rows, Row.item, hChildren]

theorem listingOfAll_eq_rows
    (depth : Nat)
    (nodes : List (Node κ)) :
    listingOfAll depth nodes =
      (rowsOfAll depth nodes).map Row.item := by
  cases nodes with
  | nil => rfl
  | cons node rest =>
      have hNode := listing_eq_rows depth node
      have hRest := listingOfAll_eq_rows depth rest
      simp [listingOfAll, rowsOfAll, hNode, hRest]

end

mutual

/- The peak of the rows is as high as groups are nested. -/
theorem max_peak_rows
    (depth : Nat)
    (node : Node κ) :
    max depth (Row.peak (node.rows depth)) =
      depth + node.depth := by
  cases node with
  | leaf location command =>
      simp [rows, Row.peak, Row.height, Node.depth]
  | group line state children =>
      have hChildren :=
        max_peak_rowsOfAll (depth + 1) children
      simp only [rows, Row.peak, List.foldr_cons,
        Row.height, Node.depth] at hChildren ⊢
      omega

theorem max_peak_rowsOfAll
    (depth : Nat)
    (nodes : List (Node κ)) :
    max depth (Row.peak (rowsOfAll depth nodes)) =
      depth + depthOfAll nodes := by
  cases nodes with
  | nil => simp [rowsOfAll, Row.peak, depthOfAll]
  | cons node rest =>
      have hNode := max_peak_rows depth node
      have hRest := max_peak_rowsOfAll depth rest
      rw [rowsOfAll, Row.peak_append, depthOfAll]
      omega

end

mutual

/- The commands of a node are those of its rows. -/
theorem countP_rows
    (depth : Nat)
    (node : Node κ) :
    (node.rows depth).countP Row.isLeaf =
      node.commandCount := by
  cases node with
  | leaf location command =>
      simp [rows, Row.isLeaf, commandCount]
  | group line state children =>
      have hChildren :=
        countP_rowsOfAll (depth + 1) children
      simp [rows, Row.isLeaf, commandCount, hChildren]

theorem countP_rowsOfAll
    (depth : Nat)
    (nodes : List (Node κ)) :
    (rowsOfAll depth nodes).countP Row.isLeaf =
      commandCountOfAll nodes := by
  cases nodes with
  | nil => rfl
  | cons node rest =>
      have hNode := countP_rows depth node
      have hRest := countP_rowsOfAll depth rest
      simp [rowsOfAll, commandCountOfAll, hNode, hRest]

end

mutual

/- No row of a node is nested less deep than the node. -/
theorem depth_le_of_mem_rows
    {depth : Nat}
    {node : Node κ}
    {row : Row κ}
    (hRow : row ∈ node.rows depth) :
    depth ≤ row.depth := by
  cases node with
  | leaf location command =>
      simp only [rows, List.mem_singleton] at hRow
      rw [hRow]
      exact Nat.le_refl depth
  | group line state children =>
      simp only [rows, List.mem_cons] at hRow
      rcases hRow with rfl | hRow
      · exact Nat.le_refl depth
      · have hLe := depth_le_of_mem_rowsOfAll hRow
        exact Nat.le_of_succ_le hLe

theorem depth_le_of_mem_rowsOfAll
    {depth : Nat}
    {nodes : List (Node κ)}
    {row : Row κ}
    (hRow : row ∈ rowsOfAll depth nodes) :
    depth ≤ row.depth := by
  cases nodes with
  | nil => cases hRow
  | cons node rest =>
      simp only [rowsOfAll, List.mem_append] at hRow
      rcases hRow with hRow | hRow
      · exact depth_le_of_mem_rows hRow
      · exact depth_le_of_mem_rowsOfAll hRow

end

/- Only the row of a node itself is nested as it is. -/
theorem countP_rows_depth
    (depth : Nat)
    (node : Node κ) :
    (node.rows depth).countP (·.depth = depth) = 1 := by
  cases node with
  | leaf location command => simp [rows, Row.depth]
  | group line state children =>
      have hDeeper :
          (rowsOfAll (depth + 1) children).countP
              (·.depth = depth) =
            0 := by
        apply List.countP_eq_zero.mpr
        intro row hRow hDepth
        have hLe := depth_le_of_mem_rowsOfAll hRow
        simp only [decide_eq_true_eq] at hDepth
        omega
      rw [rows, List.countP_cons, hDeeper]
      simp [Row.depth]

/- There are as many rows at the top as there are nodes. -/
theorem countP_rowsOfAll_depth
    (depth : Nat)
    (nodes : List (Node κ)) :
    (rowsOfAll depth nodes).countP (·.depth = depth) =
      nodes.length := by
  induction nodes with
  | nil => rfl
  | cons node rest ih =>
      have hNode := countP_rows_depth depth node
      simp only [rowsOfAll, List.countP_append, hNode, ih,
        List.length_cons]
      omega

------------------------------------------------------------
-- Fresh Trees
------------------------------------------------------------

mutual

/- All groups in and with a node are idle. -/
def IsFresh : Node κ → Prop
| .leaf _ _ => True
| .group _ state children =>
    state = .idle ∧ AreFresh children

/- All groups in and with some nodes are idle. -/
def AreFresh : List (Node κ) → Prop
| [] => True
| node :: rest => node.IsFresh ∧ AreFresh rest

end

mutual

/- A node is fresh when all its rows are idle. -/
theorem isFresh_of_rows
    {depth : Nat}
    {node : Node κ}
    (hIdle : ∀ row ∈ node.rows depth, row.IsIdle) :
    node.IsFresh := by
  cases node with
  | leaf location command => trivial
  | group line state children =>
      simp only [rows, List.forall_mem_cons] at hIdle
      rcases hIdle with ⟨hState, hChildren⟩
      exact ⟨hState, areFresh_of_rows hChildren⟩

theorem areFresh_of_rows
    {depth : Nat}
    {nodes : List (Node κ)}
    (hIdle : ∀ row ∈ rowsOfAll depth nodes, row.IsIdle) :
    AreFresh nodes := by
  cases nodes with
  | nil => trivial
  | cons node rest =>
      simp only [rowsOfAll, List.forall_mem_append] at hIdle
      rcases hIdle with ⟨hNode, hRest⟩
      exact ⟨isFresh_of_rows hNode, areFresh_of_rows hRest⟩

end

end Node

------------------------------------------------------------
-- Groups
------------------------------------------------------------

namespace Group

variable {κ : Type}

/- The rows of all nodes in a group. -/
def rows (g : Group κ) : List (Row κ) :=
  Node.rowsOfAll 0 g.children

/- A group is idle, and so are all groups in it. -/
def IsFresh (g : Group κ) : Prop :=
  g.state = .idle ∧ Node.AreFresh g.children

theorem listing_eq_rows
    (g : Group κ) :
    g.listing = g.rows.map Row.item :=
  Node.listingOfAll_eq_rows 0 g.children

theorem depth_eq_peak
    (g : Group κ) :
    g.depth = Row.peak g.rows := by
  have hPeak := Node.max_peak_rowsOfAll 0 g.children
  rw [Nat.zero_max, Nat.zero_add] at hPeak
  exact hPeak.symm

theorem commandCount_eq_countP
    (g : Group κ) :
    g.commandCount = g.rows.countP Row.isLeaf :=
  (Node.countP_rowsOfAll 0 g.children).symm

theorem size_eq_countP
    (g : Group κ) :
    g.size = g.rows.countP (·.depth = 0) :=
  (Node.countP_rowsOfAll_depth 0 g.children).symm

theorem isFresh_of_rows
    {g : Group κ}
    (hState : g.state = .idle)
    (hIdle : ∀ row ∈ g.rows, row.IsIdle) :
    g.IsFresh :=
  ⟨hState, Node.areFresh_of_rows hIdle⟩

end Group

end CommandScript
