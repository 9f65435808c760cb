import CommandScript.Outline
import CommandScript.Proofs.Nesting
import CommandScript.Proofs.SingleLines

/-
  Outlines of scripts and the trees they show. An outline as
  text has a line for each node, from which the number of
  the node, its depth and its kind can be read, and so the
  tree. An outline as JSON holds the tree itself.

  Key definitions include:
    * `Item.ShownBy`
    * `Item.deepest`
    * `Node.HeldBy`

  Main statements:
    * `Item.ShownBy.unique`
    * `Group.commandCount_eq_listing`
    * `Group.depth_eq_deepest`
    * `Outline.text_inj`
    * `Outline.is_faithful`
-/

namespace CommandScript

open Text (StopsAt stopsAt_cons)

------------------------------------------------------------
-- Lines of an Outline
------------------------------------------------------------

namespace Item

/- The line of an outline that shows an item. -/
def line (item : Item) : List Char :=
  (Outline.column item.location.line).toList ++
    ([' ', ' '] ++ List.replicate (2 * item.depth) ' ') ++
    item.location.kind.toList

theorem itemLine_toList
    (item : Item) :
    (Outline.itemLine item).toList = item.line ++ ['\n'] := by
  simp [Outline.itemLine, line]

/-
  A line shows an item: the digits of its number, with
  blanks in front that fill up five columns, then two blanks
  and two more for each group around it, and then its kind.
-/
def ShownBy
    (item : Item)
    (line : List Char) : Prop :=
  ∃ blanks : Nat,
    let digits := Nat.toDigits 10 item.location.line
    blanks + digits.length = max 5 digits.length ∧
      line =
        List.replicate blanks ' ' ++ digits ++
          List.replicate (2 + 2 * item.depth) ' ' ++
          item.location.kind.toList

theorem shownBy_line
    (item : Item) :
    item.ShownBy item.line := by
  refine
    ⟨5 - (Nat.toDigits 10 item.location.line).length, ?_, ?_⟩
  · omega
  · have hIndent :
        [' ', ' '] ++ List.replicate (2 * item.depth) ' ' =
          List.replicate (2 + 2 * item.depth) ' ' := by
      rw [List.replicate_add]
      rfl
    rw [line, hIndent]
    simp only [Outline.column,
      Nat.toString_eq_ofList_toDigits, String.toList_append,
      String.toList_ofList, String.length_ofList]

/- An item of which the kind is a name. -/
def IsNamed (item : Item) : Prop :=
  Text.isName item.location.kind.toList = true

/- A digit, and not a blank, comes first in a number. -/
theorem stopsAt_digits
    (n : Nat)
    (rest : List Char) :
    StopsAt (· == ' ') (Nat.toDigits 10 n ++ rest) := by
  apply Text.stopsAt_append Nat.toDigits_ne_nil
  apply Text.stopsAt_of_forall
  intro c hMem
  have hDigit :=
    Nat.isDigit_of_mem_toDigits (by decide) (by decide) hMem
  rw [beq_eq_false_iff_ne]
  rintro rfl
  exact absurd hDigit (by decide)

/- A blank, and not a digit, comes first in a gap. -/
theorem stopsAt_gap
    (depth : Nat)
    (rest : List Char) :
    StopsAt Char.isDigit
      (List.replicate (2 + 2 * depth) ' ' ++ rest) := by
  rw [Nat.add_comm, List.replicate_succ, List.cons_append]
  exact stopsAt_cons.mpr (by decide)

/- No blank comes first in a name. -/
theorem stopsAt_name
    {name : List Char}
    (hName : Text.isName name = true) :
    StopsAt (· == ' ') name := by
  apply Text.stopsAt_of_forall
  intro c hMem
  rw [beq_eq_false_iff_ne]
  rintro rfl
  exact
    absurd (Text.isNameChar_of_mem hName ' ' hMem)
      (by decide)

/- A line tells which item it shows. -/
theorem ShownBy.unique
    {item item' : Item}
    {line : List Char}
    (hNamed : item.IsNamed)
    (hNamed' : item'.IsNamed)
    (hShown : item.ShownBy line)
    (hShown' : item'.ShownBy line) :
    item.depth = item'.depth ∧
      item.location = item'.location := by
  have hBlank (count : Nat) :
      ∀ c ∈ List.replicate count ' ', (c == ' ') = true := by
    simp [List.mem_replicate]
  rcases hShown with ⟨blanks, _, hLine⟩
  rcases hShown' with ⟨blanks', _, hLine'⟩
  rw [hLine] at hLine'
  simp only [List.append_assoc] at hLine'
  -- Blanks, digits, blanks and a name follow one another.
  rcases Text.eq_of_append_eq (hBlank _) (hBlank _)
      (stopsAt_digits _ _) (stopsAt_digits _ _) hLine' with
    ⟨_, hNumbers⟩
  rcases Text.eq_of_toDigits_append_eq (stopsAt_gap _ _)
      (stopsAt_gap _ _) hNumbers with
    ⟨hNumber, hGaps⟩
  rcases Text.eq_of_append_eq (hBlank _) (hBlank _)
      (stopsAt_name hNamed) (stopsAt_name hNamed') hGaps
    with ⟨hBlanks, hKinds⟩
  have hDepth := congrArg List.length hBlanks
  simp only [List.length_replicate] at hDepth
  have hKind := String.toList_inj.mp hKinds
  rcases item with ⟨_, ⟨_, _⟩, _⟩
  rcases item' with ⟨_, ⟨_, _⟩, _⟩
  cases hNumber
  cases hKind
  exact ⟨by omega, rfl⟩

theorem free_line
    {item : Item}
    (hNamed : item.IsNamed) :
    '\n' ∉ item.line := by
  rcases item.shownBy_line with ⟨blanks, _, hLine⟩
  rw [hLine]
  have hDigits :=
    Text.free_toDigits (by decide : 1 < 10)
      item.location.line
  have hKind : '\n' ∉ item.location.kind.toList :=
    fun hFeed =>
      absurd (Text.isNameChar_of_mem hNamed '\n' hFeed)
        (by decide)
  simp [hDigits, hKind]

------------------------------------------------------------
-- Measures of a Listing
------------------------------------------------------------

/- Whether an item is that of a group. -/
def isGroup (item : Item) : Bool :=
  item.location.kind == groupKind

/-
  The greatest depth that is reached inside a listed group,
  which is zero if there is none.
-/
def deepest (items : List Item) : Nat :=
  ((items.filter isGroup).map fun item =>
    item.depth + 1).max?.getD 0

theorem deepest_cons
    (item : Item)
    (items : List Item) :
    deepest (item :: items) =
      if item.isGroup then
        max (item.depth + 1) (deepest items)
      else deepest items := by
  unfold deepest
  rw [List.filter_cons]
  split
  · rw [List.map_cons, List.max?_cons]
    cases ((items.filter isGroup).map fun item =>
        item.depth + 1).max? <;> simp
  · rfl

theorem deepest_append
    (early late : List Item) :
    deepest (early ++ late) =
      max (deepest early) (deepest late) := by
  induction early with
  | nil => simp [deepest]
  | cons item early ih =>
      rw [List.cons_append, deepest_cons, deepest_cons, ih]
      split
      · omega
      · rfl

end Item

namespace Row

variable {κ : Type}

/- In a listing groups are told by their kind. -/
theorem IsRead.isGroup_eq
    {row : Row κ}
    (hRead : row.IsRead) :
    row.item.isGroup = !row.isLeaf := by
  cases row with
  | leaf depth location command =>
      exact beq_eq_false_iff_ne.mpr hRead.2
  | group depth line state => exact beq_self_eq_true _

theorem IsRead.isNamed
    {row : Row κ}
    (hRead : row.IsRead) :
    row.item.IsNamed := by
  cases row with
  | leaf depth location command => exact hRead.1
  | group depth line state =>
      change Text.isName groupKind.toList = true
      decide

end Row

namespace Node

variable {κ : Type}

mutual

/- The groups of a listing are nested as those of a tree. -/
theorem max_deepest_rows
    (depth : Nat)
    (node : Node κ)
    (hRead : ∀ row ∈ node.rows depth, row.IsRead) :
    max depth
        (Item.deepest ((node.rows depth).map Row.item)) =
      depth + node.depth := by
  cases node with
  | leaf location command =>
      have hLeaf := hRead _ List.mem_cons_self
      rw [rows, List.map_singleton, Item.deepest_cons,
        hLeaf.isGroup_eq]
      simp [Row.isLeaf, Item.deepest, Node.depth]
  | group line state children =>
      rcases List.forall_mem_cons.mp hRead with
        ⟨hGroup, hInner⟩
      have hChildren :=
        max_deepest_rowsOfAll (depth + 1) children hInner
      have hDepth :
          (Row.group (κ := κ) depth line state).item.depth =
            depth :=
        rfl
      rw [rows, List.map_cons, Item.deepest_cons,
        hGroup.isGroup_eq, hDepth, Node.depth]
      simp only [Row.isLeaf, Bool.not_false, if_true]
      omega

theorem max_deepest_rowsOfAll
    (depth : Nat)
    (nodes : List (Node κ))
    (hRead :
      ∀ row ∈ rowsOfAll depth nodes, row.IsRead) :
    max depth
        (Item.deepest
          ((rowsOfAll depth nodes).map Row.item)) =
      depth + depthOfAll nodes := by
  cases nodes with
  | nil => simp [rowsOfAll, Item.deepest, depthOfAll]
  | cons node rest =>
      rcases List.forall_mem_append.mp hRead with
        ⟨hReadNode, hReadRest⟩
      have hNode := max_deepest_rows depth node hReadNode
      have hRest :=
        max_deepest_rowsOfAll depth rest hReadRest
      rw [rowsOfAll, List.map_append, Item.deepest_append,
        depthOfAll]
      omega

end

end Node

namespace Group

variable {κ : Type}
variable {g : Group κ}

/- The depth of a tree can be read off its listing. -/
theorem depth_eq_deepest
    (hRead : ∀ row ∈ g.rows, row.IsRead) :
    g.depth = Item.deepest g.listing := by
  have hDeepest :=
    Node.max_deepest_rowsOfAll 0 g.children hRead
  rw [Nat.zero_max, Nat.zero_add] at hDeepest
  rw [listing_eq_rows]
  exact hDeepest.symm

/- So can the number of its commands. -/
theorem commandCount_eq_listing
    (hRead : ∀ row ∈ g.rows, row.IsRead) :
    g.commandCount =
      g.listing.countP fun item => !item.isGroup := by
  rw [commandCount_eq_countP, listing_eq_rows,
    List.countP_map]
  apply List.countP_congr
  intro row hRow
  simp [(hRead row hRow).isGroup_eq]

end Group

------------------------------------------------------------
-- Trees from Outlines
------------------------------------------------------------

/- A tree without its commands. -/
def Group.shape
    {κ : Type}
    (g : Group κ) : Group Unit :=
  g.map fun _ => ()

namespace Row

variable {κ : Type}

/- A row without its command. -/
def shape (row : Row κ) : Row Unit :=
  row.map fun _ => ()

/- Rows that are read alike are shown on different lines. -/
theorem shape_eq_of_line
    {row row' : Row κ}
    (hRead : row.IsRead)
    (hRead' : row'.IsRead)
    (hLine : row.item.line = row'.item.line) :
    row.shape = row'.shape := by
  have hShown := row.item.shownBy_line
  rw [hLine] at hShown
  rcases hShown.unique hRead.isNamed hRead'.isNamed
      row'.item.shownBy_line with
    ⟨hDepth, hLocation⟩
  cases row with
  | leaf depth location command =>
      cases row' with
      | leaf depth' location' command' =>
          cases hDepth
          cases hLocation
          rfl
      | group depth' line' state' =>
          have hKind := congrArg Location.kind hLocation
          exact absurd hKind hRead.2
  | group depth line state =>
      cases row' with
      | leaf depth' location' command' =>
          have hKind := congrArg Location.kind hLocation
          exact absurd hKind.symm hRead'.2
      | group depth' line' state' =>
          cases hDepth
          cases hLocation
          cases hRead
          cases hRead'
          rfl

theorem map_shape_eq_of_lines
    {rows rows' : List (Row κ)}
    (hRead : ∀ row ∈ rows, row.IsRead)
    (hRead' : ∀ row ∈ rows', row.IsRead)
    (hLines :
      rows.map (fun row => row.item.line) =
        rows'.map fun row => row.item.line) :
    rows.map shape = rows'.map shape := by
  induction rows generalizing rows' with
  | nil =>
      cases rows' with
      | nil => rfl
      | cons row' rows' => cases hLines
  | cons row rows ih =>
      cases rows' with
      | nil => cases hLines
      | cons row' rows' =>
          rcases List.forall_mem_cons.mp hRead with
            ⟨hRow, hRows⟩
          rcases List.forall_mem_cons.mp hRead' with
            ⟨hRow', hRows'⟩
          rcases List.cons.inj hLines with
            ⟨hLine, hLines⟩
          rw [List.map_cons, List.map_cons,
            shape_eq_of_line hRow hRow' hLine,
            ih hRows hRows' hLines]

end Row

namespace Outline

variable {κ : Type}

/- What follows the name of a script in a first line. -/
def summary (root : Group κ) : String :=
  ": ok (" ++ toString root.commandCount ++
    " commands, depth " ++ toString root.depth ++ ")"

theorem text_toList
    (o : Outline κ) :
    o.text.toList =
      o.script.toList ++
        ((summary o.root).toList ++
          '\n' ::
            Text.joined (o.root.listing.map Item.line)) := by
  simp [text, header, summary, Text.joined,
    String.toList_join, List.flatMap_map,
    Item.itemLine_toList]

/- The lines of an outline are those of its items. -/
theorem free_of_mem_lines
    {root : Group κ}
    (hRead : ∀ row ∈ root.rows, row.IsRead) :
    ∀ line ∈ root.listing.map Item.line, '\n' ∉ line := by
  intro line hLine
  rw [Group.listing_eq_rows] at hLine
  rcases List.mem_map.mp hLine with ⟨item, hItem, rfl⟩
  rcases List.mem_map.mp hItem with ⟨row, hRow, rfl⟩
  exact Item.free_line (hRead row hRow).isNamed

/- Trees with the same text have the same shape. -/
theorem text_inj
    {script : String}
    {root root' : Group κ}
    (hState : root.state = root'.state)
    (hRead : ∀ row ∈ root.rows, row.IsRead)
    (hRead' : ∀ row ∈ root'.rows, row.IsRead)
    (hText :
      (⟨script, root⟩ : Outline κ).text =
        (⟨script, root'⟩ : Outline κ).text) :
    root.shape = root'.shape := by
  have hFree (root : Group κ) :
      '\n' ∉ (summary root).toList := by
    change Text.OneLine (summary root)
    unfold summary
    simp only [Text.oneLine_append, Text.oneLine_toString]
    simp [Text.OneLine]
  have hRest := congrArg String.toList hText
  rw [text_toList, text_toList] at hRest
  have hSegments :=
    congrArg Text.segments
      (List.append_cancel_left hRest)
  rw [Text.segments_append_feed (hFree _),
    Text.segments_append_feed (hFree _),
    Text.segments_joined (free_of_mem_lines hRead),
    Text.segments_joined (free_of_mem_lines hRead')]
    at hSegments
  have hLines :=
    List.append_cancel_right (List.cons.inj hSegments).2
  rw [Group.listing_eq_rows, Group.listing_eq_rows,
    List.map_map, List.map_map] at hLines
  have hRows :=
    Row.map_shape_eq_of_lines hRead hRead' hLines
  have hShape : root.shape.state = root'.shape.state :=
    hState
  apply Group.rows_inj hShape
  unfold Group.shape
  rw [Group.rows_map, Group.rows_map]
  exact hRows

end Outline

------------------------------------------------------------
-- Outlines as JSON
------------------------------------------------------------

/- The value of a field of an object. -/
def Json.field?
    (json : Json)
    (key : String) : Option Json :=
  match json with
  | .object fields => fields.lookup key
  | _ => none

namespace Node

variable {κ κ' : Type}

mutual

/-
  A JSON value holds a node. Only that of a group has
  children, if none at all.
-/
def HeldBy : Node κ → Json → Prop
| .leaf location _, json =>
    json.field? "kind" = some (.text location.kind) ∧
      json.field? "line" = some (.number location.line) ∧
      json.field? "children" = none
| .group line _ children, json =>
    json.field? "kind" = some (.text groupKind) ∧
      json.field? "line" = some (.number line) ∧
      ∃ items,
        json.field? "children" = some (.array items) ∧
          AllHeldBy children items

/- JSON values hold nodes, one each. -/
def AllHeldBy : List (Node κ) → List Json → Prop
| [], items => items = []
| node :: rest, items =>
    ∃ item others,
      items = item :: others ∧
        node.HeldBy item ∧ AllHeldBy rest others

end

mutual

theorem heldBy_nodeJson
    (node : Node κ) :
    node.HeldBy (Outline.nodeJson node) := by
  cases node with
  | leaf location command =>
      unfold HeldBy Outline.nodeJson
      simp [Json.field?, Outline.nodeFields,
        List.lookup_cons]
  | group line state children =>
      have hChildren := allHeldBy_nodesJson children
      unfold HeldBy Outline.nodeJson
      simp [Json.field?, Outline.nodeFields,
        List.lookup_cons, hChildren]

theorem allHeldBy_nodesJson
    (nodes : List (Node κ)) :
    AllHeldBy nodes (Outline.nodesJson nodes) := by
  cases nodes with
  | nil => rfl
  | cons node rest =>
      exact
        ⟨_, _, rfl, heldBy_nodeJson node,
          allHeldBy_nodesJson rest⟩

end

mutual

/- A JSON value holds one node only, but for commands. -/
theorem map_eq_of_heldBy
    {node : Node κ}
    {node' : Node κ'}
    {json : Json}
    (hFresh : node.IsFresh)
    (hFresh' : node'.IsFresh)
    (hHeld : node.HeldBy json)
    (hHeld' : node'.HeldBy json) :
    node.map (fun _ => ()) = node'.map fun _ => () := by
  cases node with
  | leaf location command =>
      rcases hHeld with ⟨hKind, hLine, hNone⟩
      cases node' with
      | leaf location' command' =>
          rcases hHeld' with ⟨hKind', hLine', _⟩
          rw [hKind] at hKind'
          rw [hLine] at hLine'
          cases location
          cases location'
          cases hKind'
          cases hLine'
          rfl
      | group line' state' children' =>
          rcases hHeld' with ⟨_, _, items, hSome, _⟩
          rw [hNone] at hSome
          cases hSome
  | group line state children =>
      rcases hHeld with ⟨_, hLine, items, hItems, hAll⟩
      cases node' with
      | leaf location' command' =>
          rcases hHeld' with ⟨_, _, hNone⟩
          rw [hItems] at hNone
          cases hNone
      | group line' state' children' =>
          rcases hHeld' with
            ⟨_, hLine', items', hItems', hAll'⟩
          rw [hLine] at hLine'
          rw [hItems] at hItems'
          cases hLine'
          cases hItems'
          rcases hFresh with ⟨rfl, hInner⟩
          rcases hFresh' with ⟨rfl, hInner'⟩
          have hChildren :=
            mapAll_eq_of_heldBy hInner hInner' hAll hAll'
          rw [map, map, hChildren]

theorem mapAll_eq_of_heldBy
    {nodes : List (Node κ)}
    {nodes' : List (Node κ')}
    {items : List Json}
    (hFresh : AreFresh nodes)
    (hFresh' : AreFresh nodes')
    (hHeld : AllHeldBy nodes items)
    (hHeld' : AllHeldBy nodes' items) :
    mapAll (fun _ => ()) nodes =
      mapAll (fun _ => ()) nodes' := by
  cases nodes with
  | nil =>
      cases hHeld
      cases nodes' with
      | nil => rfl
      | cons node' rest' =>
          rcases hHeld' with ⟨_, _, hItems, _⟩
          cases hItems
  | cons node rest =>
      rcases hHeld with ⟨item, others, rfl, hNode, hRest⟩
      cases nodes' with
      | nil => cases hHeld'
      | cons node' rest' =>
          rcases hHeld' with ⟨_, _, hItems, hNode', hRest'⟩
          cases hItems
          have hFirst :=
            map_eq_of_heldBy hFresh.1 hFresh'.1 hNode hNode'
          have hOthers :=
            mapAll_eq_of_heldBy hFresh.2 hFresh'.2 hRest
              hRest'
          rw [mapAll, mapAll, hFirst, hOthers]

end

end Node

------------------------------------------------------------
-- Outlines of Scripts
------------------------------------------------------------

namespace Outline

/-
  An outline shows the tree that a script is read into. As
  text it has, after the name of the script, the number of
  listed commands and the greatest depth of a listed group
  and then one line for each node, in the order of the
  listing. No other tree has the same text. As JSON it holds
  the nodes of the tree and no others.
-/
theorem is_faithful
    (script text text' : String)
    (dialect dialect' : Dialect)
    (root root' : Group Builtin)
    (hParse :
      (⟨Builtin.registry, dialect⟩ :
          Language Builtin).parse text =
        .ok root)
    (hParse' :
      (⟨Builtin.registry, dialect'⟩ :
          Language Builtin).parse text' =
        .ok root') :
    let o : Outline Builtin := ⟨script, root⟩
    let o' : Outline Builtin := ⟨script, root'⟩
    (∃ body lines,
      o.text.toList =
          (script ++ ": ok (" ++
            toString
              (root.listing.countP fun item =>
                !item.isGroup) ++
            " commands, depth " ++
            toString (Item.deepest root.listing) ++
            ")\n").toList ++ body ∧
        Text.segments body = lines ++ [[]] ∧
        List.Forall₂ Item.ShownBy root.listing lines) ∧
    (o.text = o'.text → root.shape = root'.shape) ∧
    ∃ items,
      o.json.field? "nodes" = some (.array items) ∧
        Node.AllHeldBy root.children items ∧
        ∀ other : Group Builtin,
          other.IsFresh →
            Node.AllHeldBy other.children items →
              other.shape = root.shape := by
  intro o o'
  have hFree :
      Builtin.registry.contains groupKind = false := by
    decide +kernel
  have hFresh := (Language.shows_of_parse hParse).1
  have hFresh' := (Language.shows_of_parse hParse').1
  have hRead := Language.isRead_of_parse hFree hParse
  have hRead' := Language.isRead_of_parse hFree hParse'
  refine ⟨?_, ?_, ?_⟩
  · refine
      ⟨Text.joined (root.listing.map Item.line),
        root.listing.map Item.line, ?_,
        Text.segments_joined (free_of_mem_lines hRead), ?_⟩
    · rw [text_toList, ← Group.depth_eq_deepest hRead,
        ← Group.commandCount_eq_listing hRead]
      simp [o, summary]
    · rw [List.forall₂_map_right_iff, List.forall₂_same]
      intro item _
      exact item.shownBy_line
  · have hState : root.state = root'.state :=
      hFresh.1.trans hFresh'.1.symm
    exact text_inj hState hRead hRead'
  · refine
      ⟨nodesJson root.children, ?_,
        Node.allHeldBy_nodesJson root.children, ?_⟩
    · simp [o, json, Json.field?, List.lookup_cons]
    · intro other hOther hHeld
      have hChildren :=
        Node.mapAll_eq_of_heldBy hOther.2 hFresh.2 hHeld
          (Node.allHeldBy_nodesJson root.children)
      unfold Group.shape Group.map
      rw [hChildren, hOther.1, hFresh.1]

/- An empty group after another one, and the same inside. -/
theorem is_faithful_of_empty_groups :
    let l : Language Builtin :=
      ⟨Builtin.registry, .standard⟩
    let text := "\x7b\nclear\n\x7d\n\x7b\n\x7d\n"
    let text' := "\x7b\nclear\n\n\x7b\n\x7d\n\x7d\n"
    ∃ root root' : Group Builtin,
      l.parse text = .ok root ∧
        l.parse text' = .ok root' ∧
        (⟨"a.txt", root⟩ : Outline Builtin).text ≠
          (⟨"a.txt", root'⟩ : Outline Builtin).text ∧
        ∃ items,
          (⟨"a.txt", root⟩ : Outline Builtin).json.field?
              "nodes" =
            some (.array items) ∧
            Node.AllHeldBy root.children items := by
  intro l text text'
  let clear : Node Builtin := .leaf ⟨"clear", 2⟩ .clear
  let inner : Node Builtin := .group 4 .idle []
  let root : Group Builtin :=
    ⟨.idle, [.group 1 .idle [clear], inner]⟩
  let root' : Group Builtin :=
    ⟨.idle, [.group 1 .idle [clear, inner]]⟩
  have hParse : l.parse text = .ok root := by
    simp only [l, text, root, clear, inner]
    with_unfolding_all rfl
  have hParse' : l.parse text' = .ok root' := by
    simp only [l, text', root', clear, inner]
    with_unfolding_all rfl
  rcases is_faithful "a.txt" text text' .standard .standard
      root root' hParse hParse' with
    ⟨_, hInj, items, hNodes, hHeld, _⟩
  refine
    ⟨root, root', hParse, hParse', ?_, items, hNodes,
      hHeld⟩
  intro hText
  have hChildren := congrArg Group.children (hInj hText)
  cases hChildren

end Outline

end CommandScript
