import CommandScript.Dialect.Document
import CommandScript.Proofs.Words
import Mathlib.Data.List.Basic

/-
  Strings and arrays as they are written in documents, and
  read back. A string stands between double quotes. Quotes,
  backslashes and control characters in it are escaped, and
  any other character can be. The strings of an array stand
  between brackets, with commas, blanks, line ends and
  comments between them.

  Key definitions include:
    * `Document.Hexadecimal`
    * `Document.WritesCharacter`
    * `Document.WritesText`
    * `Document.WritesString`
    * `Document.Gap`
    * `Document.WritesItems`

  Main statements:
    * `Document.charOfHex?_of_hexadecimal`
    * `Document.readBasic_of_writesText`
    * `Document.readString_of_writesString`
    * `Document.readStrings_of_writesItems`
-/

namespace CommandScript

namespace Document

open Text (StopsAt stopsAt_nil stopsAt_cons)

------------------------------------------------------------
-- Code Points
------------------------------------------------------------

/- A digit to the base 16 in either case. -/
def IsHexDigit
    (value : Nat)
    (c : Char) : Prop :=
  value < 16 ∧
    (c = value.digitChar ∨ c = value.digitChar.toUpper)

/- The digits of a number to the base 16. -/
inductive Hexadecimal : List Char → Nat → Prop where
| nil : Hexadecimal [] 0
| concat
    {digits : List Char}
    {n value : Nat}
    {c : Char}
    (hDigits : Hexadecimal digits n)
    (hDigit : IsHexDigit value c) :
    Hexadecimal (digits ++ [c]) (n * 16 + value)

/- A digit is read as its value. -/
theorem hexDigit?_of_isHexDigit
    {value : Nat}
    {c : Char}
    (hDigit : IsHexDigit value c) :
    hexDigit? c = some value := by
  have hAll :
      ∀ value < 16,
        hexDigit? value.digitChar = some value ∧
          hexDigit? value.digitChar.toUpper = some value :=
    by decide
  rcases hDigit with ⟨hValue, rfl | rfl⟩
  · exact (hAll value hValue).1
  · exact (hAll value hValue).2

/- The digits of a code point are read as its character. -/
theorem charOfHex?_of_hexadecimal
    {digits : List Char}
    {c : Char}
    (hDigits : Hexadecimal digits c.toNat) :
    charOfHex? digits = some c := by
  have hValues
      {n : Nat}
      (hNumber : Hexadecimal digits n) :
      ∃ values,
        digits.mapM hexDigit? = some values ∧
          values.foldl
              (fun value digit => value * 16 + digit) 0 =
            n := by
    clear hDigits
    induction hNumber with
    | nil => exact ⟨[], rfl, rfl⟩
    | @concat digits n value c hDigits hDigit ih =>
        rcases ih with ⟨values, hRead, hValue⟩
        refine ⟨values ++ [value], ?_, ?_⟩
        · simp [List.mapM_append, hRead,
            hexDigit?_of_isHexDigit hDigit]
        · rw [List.foldl_append, hValue]
          rfl
  rcases hValues hDigits with ⟨values, hRead, hValue⟩
  have hValid : c.toNat.isValidChar := c.valid
  rw [charOfHex?, hRead, Option.bind_eq_bind,
    Option.bind_some, hValue, dif_pos hValid]
  rfl

/- A number has digits of any length that is enough. -/
theorem exists_hexadecimal
    (length n : Nat)
    (hBound : n < Nat.pow 16 length) :
    ∃ digits,
      digits.length = length ∧ Hexadecimal digits n := by
  induction length generalizing n with
  | zero =>
      have hZero : n = 0 := Nat.lt_one_iff.mp hBound
      exact ⟨[], rfl, hZero ▸ .nil⟩
  | succ length ih =>
      have hProduct : n < Nat.pow 16 length * 16 := hBound
      have hQuotient : n / 16 < Nat.pow 16 length := by
        omega
      rcases ih (n / 16) hQuotient with
        ⟨digits, hLength, hDigits⟩
      -- The last digit is what the others leave.
      have hDigit :
          IsHexDigit (n % 16) (n % 16).digitChar :=
        ⟨Nat.mod_lt n (by decide), .inl rfl⟩
      refine
        ⟨digits ++ [(n % 16).digitChar], by simp [hLength],
          ?_⟩
      have hNumber := hDigits.concat hDigit
      rwa [Nat.div_add_mod'] at hNumber

------------------------------------------------------------
-- Strings
------------------------------------------------------------

/- Characters, and the letters of their short escapes. -/
def shortEscapes : List (Char × Char) :=
  [ ('\x08', 'b'), ('\t', 't'), ('\n', 'n'), ('\x0c', 'f'),
    ('\r', 'r'), ('"', '"'), ('\\', '\\') ]

/-
  The letters of long escapes, and how many digits follow
  them.
-/
def longEscapes : List (Char × Nat) :=
  [('u', 4), ('U', 8)]

/-
  Ways to write a character in a string: as it is unless it
  has to be escaped, by a short escape, or by its code
  point.
-/
inductive WritesCharacter : Char → List Char → Prop where
| plain
    {c : Char}
    (hPlain : isPlain c = true)
    (hOther : c ≠ '"' ∧ c ≠ '\\') :
    WritesCharacter c [c]
| short
    {c letter : Char}
    (hShort : (c, letter) ∈ shortEscapes) :
    WritesCharacter c ['\\', letter]
| long
    {c letter : Char}
    {digits : List Char}
    (hLong : (letter, digits.length) ∈ longEscapes)
    (hDigits : Hexadecimal digits c.toNat) :
    WritesCharacter c ('\\' :: letter :: digits)

/- Ways to write a text, one character after another. -/
inductive WritesText : List Char → List Char → Prop where
| nil : WritesText [] []
| cons
    {c : Char}
    {value part text : List Char}
    (hPart : WritesCharacter c part)
    (hText : WritesText value text) :
    WritesText (c :: value) (part ++ text)

/- A text between double quotes. -/
inductive WritesString : String → List Char → Prop where
| quotes
    {value : String}
    {text : List Char}
    (hText : WritesText value.toList text) :
    WritesString value ('"' :: (text ++ ['"']))

section Strings

variable {c : Char}
variable {value part text rest : List Char}

/- Every text can be written. -/
theorem exists_writesText
    (value : List Char) :
    ∃ text, WritesText value text := by
  induction value with
  | nil => exact ⟨[], .nil⟩
  | cons c value ih =>
      have hBound : c.toNat < Nat.pow 16 8 := by
        have hSize : c.val.toNat < 4294967296 :=
          c.val.toNat_lt
        exact hSize
      rcases exists_hexadecimal 8 c.toNat hBound with
        ⟨digits, hLength, hDigits⟩
      rcases ih with ⟨text, hText⟩
      have hLong : ('U', digits.length) ∈ longEscapes := by
        rw [hLength]
        decide
      exact ⟨_, .cons (.long hLong hDigits) hText⟩

/- What is skipped does not matter. -/
theorem readBasic_append
    (skipped : List Char) :
    readBasic skipped.length (skipped ++ rest) =
      readBasic 0 rest := by
  induction skipped with
  | nil => rfl
  | cons c skipped ih => exact ih

/- An escape is read as the character it stands for. -/
theorem readBasic_escape
    (hEscape :
      escape? (part ++ rest) = some (c, part.length)) :
    readBasic 0 ('\\' :: (part ++ rest)) =
      prepend [c] (readBasic 0 rest) := by
  rw [readBasic, if_neg (by decide), if_pos rfl, hEscape]
  simp only [readBasic_append]

/- A short escape is one letter. -/
theorem escape?_of_mem_shortEscapes
    {letter : Char}
    (hShort : (c, letter) ∈ shortEscapes)
    (rest : List Char) :
    escape? (letter :: rest) = some (c, 1) := by
  simp only [shortEscapes, List.mem_cons, Prod.mk.injEq,
    List.not_mem_nil, or_false] at hShort
  rcases hShort with
    ⟨rfl, rfl⟩ | ⟨rfl, rfl⟩ | ⟨rfl, rfl⟩ | ⟨rfl, rfl⟩ |
    ⟨rfl, rfl⟩ | ⟨rfl, rfl⟩ | ⟨rfl, rfl⟩
  all_goals rfl

/- A long escape is a letter and its digits. -/
theorem escape?_of_mem_longEscapes
    {letter : Char}
    {digits : List Char}
    (hLong : (letter, digits.length) ∈ longEscapes)
    (hDigits : Hexadecimal digits c.toNat)
    (rest : List Char) :
    escape? (letter :: (digits ++ rest)) =
      some (c, digits.length + 1) := by
  simp only [longEscapes, List.mem_cons, Prod.mk.injEq,
    List.not_mem_nil, or_false] at hLong
  rcases hLong with ⟨rfl, hLength⟩ | ⟨rfl, hLength⟩
  all_goals
    rw [escape?, if_neg (by simp [hLength]),
      List.take_left' hLength,
      charOfHex?_of_hexadecimal hDigits, hLength]
    rfl

/- A character is read as it is written. -/
theorem readBasic_of_writesCharacter
    (hPart : WritesCharacter c part) :
    readBasic 0 (part ++ rest) =
      prepend [c] (readBasic 0 rest) := by
  cases hPart with
  | plain hPlain hOther =>
      rw [List.singleton_append, readBasic,
        if_neg hOther.1, if_neg hOther.2, if_pos hPlain]
  | short hShort =>
      exact
        readBasic_escape
          (escape?_of_mem_shortEscapes hShort rest)
  | long hLong hDigits =>
      exact
        readBasic_escape
          (escape?_of_mem_longEscapes hLong hDigits rest)

/- A text is read up to its closing quote. -/
theorem readBasic_of_writesText
    (hText : WritesText value text) :
    readBasic 0 (text ++ '"' :: rest) =
      some (value, rest) := by
  induction hText with
  | nil => rfl
  | cons hPart hText ih =>
      rw [List.append_assoc,
        readBasic_of_writesCharacter hPart, ih]
      rfl

/- A character is not written with a quote in front. -/
theorem stopsAt_of_writesCharacter
    (hPart : WritesCharacter c part) :
    part ≠ [] ∧ StopsAt (· == '"') part := by
  cases hPart with
  | plain hPlain hOther =>
      exact
        ⟨List.cons_ne_nil c [],
          stopsAt_cons.mpr (by simp [hOther.1])⟩
  | short hShort =>
      exact
        ⟨List.cons_ne_nil _ _, stopsAt_cons.mpr (by decide)⟩
  | long hLong hDigits =>
      exact
        ⟨List.cons_ne_nil _ _, stopsAt_cons.mpr (by decide)⟩

/- Only three quotes open a string of several lines. -/
theorem readString_quote
    (hOne : ∀ rest, text ≠ '"' :: '"' :: rest) :
    readString ('"' :: text) = readBasic 0 text := by
  rw [readString]
  intro rest hEq
  exact hOne rest hEq

/- Before and behind a closing quote stands no other one. -/
theorem ne_quotes_of_writesText
    (hText : WritesText value text)
    (hRest : StopsAt (· == '"') rest)
    (rest' : List Char) :
    text ++ '"' :: rest ≠ '"' :: '"' :: rest' := by
  intro hEq
  cases hText with
  | nil =>
      cases hEq
      exact absurd (stopsAt_cons.mp hRest) (by decide)
  | @cons c value part text hPart hText =>
      rcases stopsAt_of_writesCharacter hPart with
        ⟨hSome, hStart⟩
      have hStop :
          StopsAt (· == '"') (part ++ (text ++ '"' :: rest)) :=
        Text.stopsAt_append hSome hStart
      rw [← List.append_assoc, hEq] at hStop
      exact absurd (stopsAt_cons.mp hStop) (by decide)

/- A string is read as its text. -/
theorem readString_of_writesString
    {value : String}
    (hString : WritesString value text)
    (hRest : StopsAt (· == '"') rest) :
    readString (text ++ rest) =
      some (value.toList, rest) := by
  cases hString with
  | quotes hText =>
      rw [List.cons_append, List.append_assoc,
        List.singleton_append,
        readString_quote (ne_quotes_of_writesText hText hRest),
        readBasic_of_writesText hText]

end Strings

------------------------------------------------------------
-- Gaps
------------------------------------------------------------

/- A line feed, alone or behind a carriage return. -/
inductive LineEnd : List Char → Prop where
| feed : LineEnd ['\n']
| returned : LineEnd ['\r', '\n']

/- Spaces, line ends, and comments up to their line end. -/
inductive Gap : List Char → Prop where
| nil : Gap []
| space
    {c : Char}
    {gap : List Char}
    (hSpace : isSpace c = true)
    (hGap : Gap gap) :
    Gap (c :: gap)
| line
    {lineEnd gap : List Char}
    (hEnd : LineEnd lineEnd)
    (hGap : Gap gap) :
    Gap (lineEnd ++ gap)
| comment
    {comment lineEnd gap : List Char}
    (hComment : ∀ c ∈ comment, isPlain c = true)
    (hEnd : LineEnd lineEnd)
    (hGap : Gap gap) :
    Gap ('#' :: (comment ++ (lineEnd ++ gap)))

section Gaps

variable {gap rest : List Char}

/- Line ends are skipped. -/
theorem skipGap_lineEnd
    {lineEnd : List Char}
    (hEnd : LineEnd lineEnd)
    (inComment : Bool) :
    skipGap inComment (lineEnd ++ rest) =
      skipGap false rest := by
  cases hEnd <;> rw [skipGap.eq_def] <;> rfl

/- A plain character is neither half of a line end. -/
theorem ne_lineEnd_of_isPlain
    {c : Char}
    (hPlain : isPlain c = true) :
    c ≠ '\n' ∧ c ≠ '\r' := by
  constructor <;> rintro rfl <;> exact absurd hPlain (by decide)

/- Other characters are skipped or not, one by one. -/
theorem skipGap_cons
    {c : Char}
    (hOther : c ≠ '\n' ∧ c ≠ '\r')
    (inComment : Bool) :
    skipGap inComment (c :: rest) =
      if inComment then
        if isPlain c then skipGap true rest else c :: rest
      else if isSpace c then skipGap false rest
      else if c = '#' then skipGap true rest
      else c :: rest := by
  rw [skipGap]
  · intro h
    exact hOther.1 h
  · intro tail h
    exact absurd h hOther.2

theorem skipGap_space
    {c : Char}
    (hSpace : isSpace c = true) :
    skipGap false (c :: rest) = skipGap false rest := by
  have hOther : c ≠ '\n' ∧ c ≠ '\r' := by
    constructor <;> rintro rfl <;>
      exact absurd hSpace (by decide)
  rw [skipGap_cons hOther, if_neg Bool.false_ne_true,
    if_pos hSpace]

/- A comment is skipped up to the end of its line. -/
theorem skipGap_comment
    {comment : List Char}
    (hComment : ∀ c ∈ comment, isPlain c = true) :
    skipGap true (comment ++ rest) = skipGap true rest := by
  induction comment with
  | nil => rfl
  | cons c comment ih =>
      have hPlain := hComment c List.mem_cons_self
      rw [List.cons_append,
        skipGap_cons (ne_lineEnd_of_isPlain hPlain),
        if_pos rfl, if_pos hPlain]
      exact
        ih fun d hd => hComment d (List.mem_cons_of_mem c hd)

/- A gap is skipped with all its comments. -/
theorem skipGap_of_gap
    (hGap : Gap gap)
    (rest : List Char) :
    skipGap false (gap ++ rest) = skipGap false rest := by
  induction hGap with
  | nil => rfl
  | space hSpace hGap ih =>
      rw [List.cons_append, skipGap_space hSpace, ih]
  | line hEnd hGap ih =>
      rw [List.append_assoc, skipGap_lineEnd hEnd, ih]
  | @comment comment lineEnd gap hComment hEnd hGap ih =>
      -- Only the line end leaves the comment again.
      have hOpen :
          skipGap false
              ('#' :: (comment ++ (lineEnd ++ gap)) ++ rest) =
            skipGap true
              (comment ++ (lineEnd ++ (gap ++ rest))) := by
        rw [List.cons_append, List.append_assoc,
          List.append_assoc]
        rfl
      rw [hOpen, skipGap_comment hComment,
        skipGap_lineEnd hEnd, ih]

/- A gap does not start with a quote. -/
theorem stopsAt_of_gap
    (hGap : Gap gap)
    (hRest : StopsAt (· == '"') rest) :
    StopsAt (· == '"') (gap ++ rest) := by
  cases hGap with
  | nil => exact hRest
  | space hSpace hGap =>
      apply stopsAt_cons.mpr
      rw [beq_eq_false_iff_ne]
      rintro rfl
      exact absurd hSpace (by decide)
  | line hEnd hGap =>
      cases hEnd <;> exact stopsAt_cons.mpr (by decide)
  | comment hComment hEnd hGap =>
      exact stopsAt_cons.mpr (by decide)

end Gaps

------------------------------------------------------------
-- Arrays
------------------------------------------------------------

/-
  The strings of an array behind its opening bracket, with
  commas between them. A comma may stand behind the last
  one.
-/
inductive WritesItems : List String → List Char → Prop where
| nil
    {gap : List Char}
    (hGap : Gap gap) :
    WritesItems [] (gap ++ [']'])
| last
    {value : String}
    {before item after : List Char}
    (hBefore : Gap before)
    (hItem : WritesString value item)
    (hAfter : Gap after) :
    WritesItems [value]
      (before ++ (item ++ (after ++ [']'])))
| cons
    {value : String}
    {values : List String}
    {before item after items : List Char}
    (hBefore : Gap before)
    (hItem : WritesString value item)
    (hAfter : Gap after)
    (hItems : WritesItems values items) :
    WritesItems (value :: values)
      (before ++ (item ++ (after ++ ',' :: items)))

section Arrays

variable {s rest text after : List Char}

/- Every list of strings can be written. -/
theorem exists_writesItems
    (values : List String) :
    ∃ items, WritesItems values items := by
  induction values with
  | nil => exact ⟨_, .nil .nil⟩
  | cons value values ih =>
      rcases exists_writesText value.toList with ⟨text, hText⟩
      rcases ih with ⟨items, hItems⟩
      exact ⟨_, .cons .nil (.quotes hText) .nil hItems⟩

/- A bracket closes the array. -/
theorem readStrings_close
    (hClose : skipGap false s = ']' :: rest) :
    readStrings s = some ([], rest) := by
  rw [readStrings]
  split
  · rename_i rest' hStart
    cases hClose.symm.trans hStart
    rfl
  · rename_i hOther
    exact absurd hClose (hOther rest)

/- Behind a string the array is closed or goes on. -/
theorem readStrings_item
    (hString :
      readString (skipGap false s) = some (text, after)) :
    readStrings s =
      match skipGap false after with
      | ']' :: rest => some ([String.ofList text], rest)
      | ',' :: rest =>
          (readStrings rest).map fun found =>
            (String.ofList text :: found.1, found.2)
      | _ => none := by
  rw [readStrings]
  split
  · rename_i hClose
    rw [hClose] at hString
    cases hString
  · split
    · rename_i hNone
      cases hString.symm.trans hNone
    · rename_i hSome
      cases hString.symm.trans hSome
      split
      · rename_i hAfter
        rw [hAfter]
        rfl
      · rename_i hAfter
        rw [hAfter]
        rfl
      · rename_i hClose hComma
        split
        · rename_i rest hAfter
          exact absurd hAfter (hClose rest)
        · rename_i rest hAfter
          exact absurd hAfter (hComma rest)
        · rfl

/- A string in an array is read behind the gap before it. -/
theorem readString_of_gap
    {value : String}
    {before item : List Char}
    (hBefore : Gap before)
    (hItem : WritesString value item)
    (hRest : StopsAt (· == '"') rest) :
    readString (skipGap false (before ++ (item ++ rest))) =
      some (value.toList, rest) := by
  have hQuote : skipGap false (item ++ rest) = item ++ rest := by
    cases hItem
    rfl
  rw [skipGap_of_gap hBefore, hQuote,
    readString_of_writesString hItem hRest]

/- The strings of an array are read as they are written. -/
theorem readStrings_of_writesItems
    {values : List String}
    {items : List Char}
    (hItems : WritesItems values items)
    (rest : List Char) :
    readStrings (items ++ rest) = some (values, rest) := by
  induction hItems with
  | nil hGap =>
      apply readStrings_close
      rw [List.append_assoc, skipGap_of_gap hGap]
      rfl
  | @last value before item after hBefore hItem hAfter =>
      have hClose : StopsAt (· == '"') (']' :: rest) :=
        stopsAt_cons.mpr (by decide)
      have hString :=
        readString_of_gap hBefore hItem
          (stopsAt_of_gap hAfter hClose)
      have hEnd :
          skipGap false (after ++ ']' :: rest) =
            ']' :: rest :=
        skipGap_of_gap hAfter _
      simp only [List.append_assoc, List.singleton_append]
      rw [readStrings_item hString, hEnd,
        String.ofList_toList]
      rfl
  | @cons value values before item after items hBefore hItem
        hAfter hItems ih =>
      have hComma :
          StopsAt (· == '"') (',' :: (items ++ rest)) :=
        stopsAt_cons.mpr (by decide)
      have hString :=
        readString_of_gap hBefore hItem
          (stopsAt_of_gap hAfter hComma)
      have hMore :
          skipGap false (after ++ ',' :: (items ++ rest)) =
            ',' :: (items ++ rest) :=
        skipGap_of_gap hAfter _
      simp only [List.append_assoc, List.cons_append]
      rw [readStrings_item hString, hMore,
        String.ofList_toList]
      simp only [ih, Option.map_some]

end Arrays

end Document

end CommandScript
