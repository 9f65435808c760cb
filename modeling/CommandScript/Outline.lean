import CommandScript.Json
import CommandScript.Tree

/-
  Outlines of scripts, and lists of command kinds, as text
  and as JSON.

  Key definitions include:
    * `Outline`
    * `Outline.text`
    * `Outline.json`
    * `KindList.text`
    * `KindList.json`
-/

namespace CommandScript

------------------------------------------------------------
-- Outlines
------------------------------------------------------------

/- A tree and the name of the script it was read from. -/
structure Outline (κ : Type) where
  script : String
  root : Group κ

namespace Outline

variable {κ : Type}

/- A number, right-aligned in five columns. -/
def column (n : Nat) : String :=
  String.ofList
    (List.replicate (5 - (toString n).length) ' ') ++
    toString n

/- The line of an outline that shows a node. -/
def itemLine (item : Item) : String :=
  column item.location.line ++ "  " ++
    String.ofList (List.replicate (2 * item.depth) ' ') ++
    item.location.kind ++ "\n"

/- The first line of an outline. -/
def header (o : Outline κ) : String :=
  o.script ++ ": ok (" ++ toString o.root.commandCount ++
    " commands, depth " ++ toString o.root.depth ++ ")\n"

/- An outline as text: a header and a line for each node. -/
def text (o : Outline κ) : String :=
  o.header ++ String.join (o.root.listing.map itemLine)

/- The fields that every node has. -/
def nodeFields (location : Location) : List (String × Json) :=
  [ ("kind", .text location.kind),
    ("line", .number location.line) ]

mutual

/- A node as JSON; only a group has children. -/
def nodeJson : Node κ → Json
| .leaf location _ => .object (nodeFields location)
| .group line _ children =>
    .object
      (nodeFields ⟨groupKind, line⟩ ++
        [("children", .array (nodesJson children))])

/- Some nodes as JSON. -/
def nodesJson : List (Node κ) → List Json
| [] => []
| node :: rest => nodeJson node :: nodesJson rest

end

/- An outline as JSON. -/
def json (o : Outline κ) : Json :=
  .object
    [ ("script", .text o.script),
      ("commands", .number o.root.commandCount),
      ("depth", .number o.root.depth),
      ("nodes", .array (nodesJson o.root.children)) ]

end Outline

------------------------------------------------------------
-- Kind Lists
------------------------------------------------------------

namespace KindList

/- Kinds as text, one on each line. -/
def text (kinds : List String) : String :=
  String.join (kinds.map fun kind => kind ++ "\n")

/- Kinds as JSON. -/
def json (kinds : List String) : Json :=
  .array (kinds.map .text)

end KindList

end CommandScript
