import CommandScript.CommandError
import CommandScript.Text.Quoted

/-
  Trees of commands: groups whose children are commands or
  groups, each with the source line it came from. The
  commands may be of any type.

  Key definitions include:
    * `GroupState`
    * `Node`
    * `Group`
    * `Group.depth`
    * `Group.commandCount`
    * `Group.listing`
    * `Group.describe`
-/

namespace CommandScript

------------------------------------------------------------
-- Nodes and Groups
------------------------------------------------------------

/- How far the run of a group has come. -/
inductive GroupState where
| idle
| running (index : Nat)
| completed
deriving DecidableEq, Repr

/- A child of a group. -/
inductive Node (κ : Type) where
| leaf
    (location : Location)
    (command : κ)
| group
    (line : Nat)
    (state : GroupState)
    (children : List (Node κ))
deriving Repr

/- Commands and groups to be run one after another. -/
structure Group (κ : Type) where
  state : GroupState
  children : List (Node κ)
deriving Repr

/- The kind that nested groups have. -/
def groupKind : String := "group"

namespace Node

variable {κ κ' : Type}

/- Where a node comes from. -/
def location : Node κ → Location
| .leaf location _ => location
| .group line _ _ => ⟨groupKind, line⟩

/- Whether a node is a group. -/
def isGroup : Node κ → Bool
| .leaf _ _ => false
| .group _ _ _ => true

end Node

------------------------------------------------------------
-- Measures
------------------------------------------------------------

namespace Node

variable {κ : Type}

mutual

/- How deep groups are nested in and with a node. -/
def depth : Node κ → Nat
| .leaf _ _ => 0
| .group _ _ children => depthOfAll children + 1

/- How deep groups are nested in some nodes. -/
def depthOfAll : List (Node κ) → Nat
| [] => 0
| node :: rest => max node.depth (depthOfAll rest)

end

mutual

/- The number of commands in a node. -/
def commandCount : Node κ → Nat
| .leaf _ _ => 1
| .group _ _ children => commandCountOfAll children

/- The number of commands in some nodes. -/
def commandCountOfAll : List (Node κ) → Nat
| [] => 0
| node :: rest =>
    node.commandCount + commandCountOfAll rest

end

end Node

------------------------------------------------------------
-- Listings
------------------------------------------------------------

/-
  A node as it stands in a listing: how deep it is nested,
  where it comes from, and the state of a group.
-/
structure Item where
  depth : Nat
  location : Location
  state : Option GroupState
deriving DecidableEq, Repr

namespace Node

variable {κ : Type}

mutual

/- A node and the nodes in it, each before its children. -/
def listing (depth : Nat) : Node κ → List Item
| .leaf location _ => [⟨depth, location, none⟩]
| .group line state children =>
    ⟨depth, ⟨groupKind, line⟩, some state⟩ ::
      listingOfAll (depth + 1) children

/- The listings of some nodes one after another. -/
def listingOfAll (depth : Nat) : List (Node κ) → List Item
| [] => []
| node :: rest =>
    node.listing depth ++ listingOfAll depth rest

end

end Node

------------------------------------------------------------
-- Descriptions
------------------------------------------------------------

namespace GroupState

/- A state in words. -/
def describe : GroupState → String
| .idle => "Idle"
| .running index => "Running(" ++ toString index ++ ")"
| .completed => "Completed"

end GroupState

/- A record in words: its name and its fields. -/
def describeRecord
    (name : String)
    (fields : List (String × String)) : String :=
  name ++ " \x7b " ++
    String.intercalate ", "
      (fields.map fun field => field.1 ++ ": " ++ field.2) ++
    " \x7d"

namespace Node

variable {κ : Type}

/- The fields that every node is described by. -/
def describeFields
    (location : Location) : List (String × String) :=
  [ ("kind", Text.quote location.kind),
    ("line", toString location.line) ]

mutual

/- A node in words. -/
def describe : Node κ → String
| .leaf location _ =>
    describeRecord "Node" (describeFields location)
| .group line _ children =>
    describeRecord "Node"
      (describeFields ⟨groupKind, line⟩ ++
        [ ("children",
            Text.bracketed (describeAll children)) ])

/- Some nodes in words. -/
def describeAll : List (Node κ) → List String
| [] => []
| node :: rest => node.describe :: describeAll rest

end

end Node

------------------------------------------------------------
-- Groups
------------------------------------------------------------

namespace Group

variable {κ : Type}

/- The group without children. -/
def empty : Group κ where
  state := .idle
  children := []

instance : Inhabited (Group κ) := ⟨empty⟩

/- Append a child. -/
def push
    (g : Group κ)
    (node : Node κ) : Group κ :=
  { g with children := g.children ++ [node] }

/- A group as a child of another. -/
def toNode
    (g : Group κ)
    (line : Nat) : Node κ :=
  .group line g.state g.children

/- The number of children. -/
def size (g : Group κ) : Nat :=
  g.children.length

/- The number of children that are groups. -/
def groupCount (g : Group κ) : Nat :=
  g.children.countP Node.isGroup

/- How deep groups are nested below a group. -/
def depth (g : Group κ) : Nat :=
  Node.depthOfAll g.children

/- The number of commands in a group, however deep. -/
def commandCount (g : Group κ) : Nat :=
  Node.commandCountOfAll g.children

/- All nodes of a group, each before its children. -/
def listing (g : Group κ) : List Item :=
  Node.listingOfAll 0 g.children

/- A group in words. -/
def describe (g : Group κ) : String :=
  describeRecord "CommandGroup"
    [ ("children",
        Text.bracketed (Node.describeAll g.children)),
      ("state", g.state.describe) ]

end Group

end CommandScript
