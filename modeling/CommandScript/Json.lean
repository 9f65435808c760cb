/-
  JSON values and their layout over several lines.

  Key definitions include:
    * `Json`
    * `Json.quote`
    * `Json.pretty`
-/

namespace CommandScript

/- The JSON values that reports are made of. -/
inductive Json where
| text (value : String)
| number (value : Nat)
| array (items : List Json)
| object (fields : List (String × Json))
deriving Repr

namespace Json

------------------------------------------------------------
-- Strings
------------------------------------------------------------

/- The escape of a character by four hexadecimal digits. -/
def controlEscape (c : Char) : List Char :=
  let digits := Nat.toDigits 16 c.toNat
  ['\\', 'u'] ++ List.replicate (4 - digits.length) '0' ++
    digits

/- A character as it stands inside a JSON string. -/
def escapeChar (c : Char) : List Char :=
  if c = '"' then ['\\', '"']
  else if c = '\\' then ['\\', '\\']
  else if c = '\x08' then ['\\', 'b']
  else if c = '\x0c' then ['\\', 'f']
  else if c = '\n' then ['\\', 'n']
  else if c = '\r' then ['\\', 'r']
  else if c = '\t' then ['\\', 't']
  else if c.toNat < 0x20 then controlEscape c
  else [c]

/- A JSON string. -/
def quote (s : String) : String :=
  String.ofList ('"' :: s.toList.flatMap escapeChar ++ ['"'])

------------------------------------------------------------
-- Layout
------------------------------------------------------------

/- A line break and the indentation of a level. -/
def newline (level : Nat) : String :=
  String.ofList ('\n' :: List.replicate (2 * level) ' ')

/-
  Items between brackets, each on a line of its own one
  level in. Brackets without items stand side by side.
-/
def enclose
    (level : Nat)
    (opening closing : String)
    (items : List String) : String :=
  if items.isEmpty then opening ++ closing
  else
    opening ++ newline (level + 1) ++
      String.intercalate ("," ++ newline (level + 1)) items ++
      newline level ++ closing

mutual

/- Lay out a value that stands at a level. -/
def pretty (level : Nat) : Json → String
| .text value => quote value
| .number value => toString value
| .array items =>
    enclose level "[" "]" (prettyItems (level + 1) items)
| .object fields =>
    enclose level "\x7b" "\x7d"
      (prettyFields (level + 1) fields)

/- Lay out the items of an array. -/
def prettyItems (level : Nat) : List Json → List String
| [] => []
| item :: rest =>
    item.pretty level :: prettyItems level rest

/- Lay out the fields of an object. -/
def prettyFields
    (level : Nat) : List (String × Json) → List String
| [] => []
| (key, value) :: rest =>
    (quote key ++ ": " ++ value.pretty level) ::
      prettyFields level rest

end

end Json

end CommandScript
