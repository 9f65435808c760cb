import CommandScript.Text.Printable

/-
  Quoted text as it stands in messages: between double
  quotes, with every character that would not show written
  as an escape. A quoted text is always one line.

  Key definitions include:
    * `Text.escapeChar`
    * `Text.quote`
-/

namespace CommandScript

namespace Text

/- The escape of a character by its code point. -/
def codePointEscape (c : Char) : List Char :=
  "\\u\x7b".toList ++ Nat.toDigits 16 c.toNat ++ ['\x7d']

/-
  A character as it stands inside quotes. The quote, the
  backslash and four control characters have short escapes;
  a character that is not printable or that combines with
  its neighbour is written by its code point.
-/
def escapeChar (c : Char) : List Char :=
  if c = '\x00' then ['\\', '0']
  else if c = '\t' then ['\\', 't']
  else if c = '\r' then ['\\', 'r']
  else if c = '\n' then ['\\', 'n']
  else if c = '\\' then ['\\', '\\']
  else if c = '"' then ['\\', '"']
  else if extendsGrapheme c || !isPrintable c then
    codePointEscape c
  else [c]

/- A text between double quotes. -/
def quote (s : String) : String :=
  String.ofList ('"' :: s.toList.flatMap escapeChar ++ ['"'])

/- A list of texts as a bracketed, comma-separated row. -/
def bracketed (items : List String) : String :=
  "[" ++ String.intercalate ", " items ++ "]"

end Text

end CommandScript
