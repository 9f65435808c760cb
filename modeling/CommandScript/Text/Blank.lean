/-
  Blank characters, trimming, and the division of a text into
  lines.

  Key definitions include:
    * `Text.isBlank`
    * `Text.trim`
    * `Text.lines`
-/

namespace CommandScript

namespace Text

------------------------------------------------------------
-- Blank Characters
------------------------------------------------------------

/- The characters with the Unicode property `White_Space`. -/
def isBlank (c : Char) : Bool :=
  let n := c.toNat
  (0x09 ≤ n && n ≤ 0x0D) || n == 0x20 || n == 0x85 ||
    n == 0xA0 || n == 0x1680 ||
    (0x2000 ≤ n && n ≤ 0x200A) ||
    n == 0x2028 || n == 0x2029 || n == 0x202F ||
    n == 0x205F || n == 0x3000

------------------------------------------------------------
-- Trimming
------------------------------------------------------------

/- The text without the blanks it starts with. -/
def trimStart (s : List Char) : List Char :=
  s.dropWhile isBlank

/- The text without the blanks it ends with. -/
def trimEnd (s : List Char) : List Char :=
  (s.reverse.dropWhile isBlank).reverse

/- The text without the blanks around it. -/
def trim (s : List Char) : List Char :=
  trimEnd (trimStart s)

------------------------------------------------------------
-- Lines
------------------------------------------------------------

/- Put a character in front of the first line. -/
def prependToFirst
    (c : Char) : List (List Char) → List (List Char)
| [] => [[c]]
| line :: rest => (c :: line) :: rest

/-
  The lines of a text. A line ends at a line feed, which may
  have one carriage return before it; neither is part of the
  line. A text that ends with a line feed has no empty last
  line.
-/
def lines : List Char → List (List Char)
| [] => []
| '\r' :: '\n' :: rest => [] :: lines rest
| '\n' :: rest => [] :: lines rest
| c :: rest => prependToFirst c (lines rest)

/- The lines of a text with their numbers, counted from one. -/
def numberedLines
    (s : List Char) : List (Nat × List Char) :=
  (lines s).zipIdx.map fun entry => (entry.2 + 1, entry.1)

end Text

end CommandScript
