import CommandScript.Dialect
import CommandScript.Number.Integer

/-
  Documents that define a dialect. A document is a TOML
  text whose keys are the parts of a dialect; parts that it
  leaves out keep their standard values. No other key is
  known, so tables, dotted keys and values of other types
  never occur in a document that is accepted.

  Key definitions include:
    * `Document.readString`
    * `Document.readStrings`
    * `Document.Setting`
    * `Document.read`
    * `Dialect.ofDocument`
-/

namespace CommandScript

namespace Document

/- What a reader finds, and the text that follows it. -/
abbrev Found (α : Type) :=
  Option (α × List Char)

------------------------------------------------------------
-- Spaces, Comments and Line Ends
------------------------------------------------------------

/- The blanks inside a line. -/
def isSpace (c : Char) : Bool :=
  c == ' ' || c == '\t'

/- A character that is no control character but the tab. -/
def isPlain (c : Char) : Bool :=
  c == '\t' || (0x20 ≤ c.toNat && c.toNat != 0x7F)

/- The text without the spaces it starts with. -/
def skipSpaces (s : List Char) : List Char :=
  s.dropWhile isSpace

/- The text without the comment it starts with, if any. -/
def skipComment : List Char → List Char
| '#' :: rest => rest.dropWhile isPlain
| s => s

/- The text after the line end that it starts with. -/
def lineEnd? : List Char → Option (List Char)
| '\n' :: rest => some rest
| '\r' :: '\n' :: rest => some rest
| _ => none

/- Whether a text starts with a line end. -/
def atLineEnd : List Char → Bool
| '\n' :: _ => true
| '\r' :: '\n' :: _ => true
| _ => false

/-
  The text without the spaces, line ends and comments that
  it starts with. A comment has to end with its line.
-/
def skipGap (inComment : Bool) : List Char → List Char
| [] => []
| '\n' :: rest => skipGap false rest
| '\r' :: '\n' :: rest => skipGap false rest
| c :: rest =>
    if inComment then
      if isPlain c then skipGap true rest else c :: rest
    else if isSpace c then skipGap false rest
    else if c = '#' then skipGap true rest
    else c :: rest

------------------------------------------------------------
-- Strings
------------------------------------------------------------

/- Put characters in front of the text that was found. -/
def prepend
    (text : List Char)
    (found : Found (List Char)) : Found (List Char) :=
  found.map fun f => (text ++ f.1, f.2)

/- The value of a hexadecimal digit. -/
def hexDigit? (c : Char) : Option Nat :=
  if c.isDigit then some (c.toNat - '0'.toNat)
  else if 'a' ≤ c ∧ c ≤ 'f' then
    some (c.toNat - 'a'.toNat + 10)
  else if 'A' ≤ c ∧ c ≤ 'F' then
    some (c.toNat - 'A'.toNat + 10)
  else none

/- The character whose code point the digits give. -/
def charOfHex? (digits : List Char) : Option Char := do
  let values ← digits.mapM hexDigit?
  let n :=
    values.foldl (fun value digit => value * 16 + digit) 0
  if h : n.isValidChar then some (Char.ofNatAux n h)
  else none

/- The character that a short escape stands for. -/
def shortEscape? (c : Char) : Option Char :=
  if c = 'b' then some '\x08'
  else if c = 't' then some '\t'
  else if c = 'n' then some '\n'
  else if c = 'f' then some '\x0c'
  else if c = 'r' then some '\r'
  else if c = '"' then some '"'
  else if c = '\\' then some '\\'
  else none

/-
  The character of an escape, and how long the escape is
  after its backslash.
-/
def escape? : List Char → Option (Char × Nat)
| [] => none
| 'u' :: rest =>
    if rest.length < 4 then none
    else (charOfHex? (rest.take 4)).map fun c => (c, 5)
| 'U' :: rest =>
    if rest.length < 8 then none
    else (charOfHex? (rest.take 8)).map fun c => (c, 9)
| c :: _ => (shortEscape? c).map fun c => (c, 1)

/-
  Read a string on one line up to its closing quote. The
  given number of characters, which belong to an escape that
  has been read, is skipped first.
-/
def readBasic (skip : Nat) : List Char → Found (List Char)
| [] => none
| c :: rest =>
    match skip with
    | skip + 1 => readBasic skip rest
    | 0 =>
        if c = '"' then some ([], rest)
        else if c = '\\' then
          match escape? rest with
          | none => none
          | some (escaped, length) =>
              prepend [escaped] (readBasic length rest)
        else if isPlain c then
          prepend [c] (readBasic 0 rest)
        else none

/- Read a literal string on one line. -/
def readLiteral : List Char → Found (List Char)
| [] => none
| c :: rest =>
    if c = '\'' then some ([], rest)
    else if isPlain c then prepend [c] (readLiteral rest)
    else none

/-
  The end of a string between triple quotes. Up to two
  further quotes belong to the text.
-/
def tripleEnd? (quote : Char) : List Char → Found (List Char)
| a :: b :: c :: rest =>
    if a = quote ∧ b = quote ∧ c = quote then
      match rest with
      | d :: e :: rest' =>
          if d = quote ∧ e = quote then
            some ([quote, quote], rest')
          else if d = quote then some ([quote], e :: rest')
          else some ([], rest)
      | [d] =>
          if d = quote then some ([quote], [])
          else some ([], rest)
      | [] => some ([], [])
    else none
| _ => none

/-
  Whether a backslash before a text stands at the end of its
  line, with nothing but spaces behind it.
-/
def endsLine (s : List Char) : Bool :=
  atLineEnd (skipSpaces s)

/- How a reader of a text of several lines goes on. -/
inductive Mode where
| reading
| skipping (length : Nat)
| trimming
deriving DecidableEq, Repr

/-
  Read a string of several lines up to its closing quotes. A
  line end is a line feed. A backslash at the end of a line
  joins it with the next text that is not blank.
-/
def readBasicLines (mode : Mode) : List Char → Found (List Char)
| [] => none
| c :: rest =>
    match mode with
    | .skipping (length + 1) =>
        readBasicLines (.skipping length) rest
    | mode =>
        if mode = .trimming ∧ (isSpace c ∨ c = '\n') then
          readBasicLines .trimming rest
        else if mode = .trimming ∧ atLineEnd (c :: rest) then
          readBasicLines .trimming rest
        else
          match tripleEnd? '"' (c :: rest) with
          | some found => some found
          | none =>
              if c = '\\' then
                if endsLine rest then
                  readBasicLines .trimming rest
                else
                  match escape? rest with
                  | none => none
                  | some (escaped, length) =>
                      prepend [escaped]
                        (readBasicLines (.skipping length)
                          rest)
              else if c = '\n' || isPlain c then
                prepend [c] (readBasicLines .reading rest)
              else if atLineEnd (c :: rest) then
                readBasicLines .reading rest
              else none

/- Read a literal string of several lines. -/
def readLiteralLines : List Char → Found (List Char)
| [] => none
| c :: rest =>
    match tripleEnd? '\'' (c :: rest) with
    | some found => some found
    | none =>
        if c = '\n' || isPlain c then
          prepend [c] (readLiteralLines rest)
        else if atLineEnd (c :: rest) then
          readLiteralLines rest
        else none

/- The text without the line end it starts with, if any. -/
def skipLineEnd (s : List Char) : List Char :=
  (lineEnd? s).getD s

/- Read a string of any of the four forms. -/
def readString : List Char → Found (List Char)
| '"' :: '"' :: '"' :: rest =>
    readBasicLines .reading (skipLineEnd rest)
| '"' :: rest => readBasic 0 rest
| '\'' :: '\'' :: '\'' :: rest =>
    readLiteralLines (skipLineEnd rest)
| '\'' :: rest => readLiteral rest
| _ => none

------------------------------------------------------------
-- Progress
------------------------------------------------------------

private theorem dropWhile_length_le
    (p : Char → Bool)
    (s : List Char) :
    (s.dropWhile p).length ≤ s.length :=
  (List.dropWhile_sublist p).length_le

theorem length_skipSpaces_le (s : List Char) :
    (skipSpaces s).length ≤ s.length :=
  dropWhile_length_le isSpace s

theorem length_skipComment_le (s : List Char) :
    (skipComment s).length ≤ s.length := by
  unfold skipComment
  split
  · rename_i rest
    have := dropWhile_length_le isPlain rest
    simp only [List.length_cons]
    omega
  · omega

theorem length_of_lineEnd?
    {s rest : List Char}
    (h : lineEnd? s = some rest) :
    rest.length < s.length := by
  unfold lineEnd? at h
  split at h <;> cases h <;>
    simp only [List.length_cons] <;> omega

theorem length_skipGap_le
    (inComment : Bool)
    (s : List Char) :
    (skipGap inComment s).length ≤ s.length := by
  fun_induction skipGap inComment s <;>
    simp only [List.length_cons, List.length_nil] <;> omega

private theorem length_of_prepend
    {text value rest s : List Char}
    {found : Found (List Char)}
    (h : prepend text found = some (value, rest))
    (hFound :
      ∀ value', found = some (value', rest) →
        rest.length ≤ s.length) :
    rest.length ≤ s.length := by
  rcases Option.map_eq_some_iff.mp h with ⟨f, hF, hEq⟩
  obtain ⟨value', rest'⟩ := f
  cases hEq
  exact hFound value' hF

theorem length_of_readBasic
    {skip : Nat}
    {s value rest : List Char}
    (h : readBasic skip s = some (value, rest)) :
    rest.length ≤ s.length := by
  induction s generalizing skip value with
  | nil => simp [readBasic] at h
  | cons c tail ih =>
      have hStep : rest.length ≤ tail.length := by
        unfold readBasic at h
        split at h
        · exact ih h
        · split at h
          · cases h
            exact Nat.le_refl _
          · split at h
            · split at h
              · cases h
              · exact length_of_prepend h fun _ => ih
            · split at h
              · exact length_of_prepend h fun _ => ih
              · cases h
      simp only [List.length_cons]
      omega

theorem length_of_readLiteral
    {s value rest : List Char}
    (h : readLiteral s = some (value, rest)) :
    rest.length ≤ s.length := by
  induction s generalizing value with
  | nil => simp [readLiteral] at h
  | cons c tail ih =>
      have hStep : rest.length ≤ tail.length := by
        unfold readLiteral at h
        split at h
        · cases h
          exact Nat.le_refl _
        · split at h
          · exact length_of_prepend h fun _ => ih
          · cases h
      simp only [List.length_cons]
      omega

theorem length_of_tripleEnd?
    {quote : Char}
    {s value rest : List Char}
    (h : tripleEnd? quote s = some (value, rest)) :
    rest.length ≤ s.length := by
  unfold tripleEnd? at h
  repeat' split at h
  all_goals
    cases h <;> simp only [List.length_cons] <;> omega

theorem length_of_readBasicLines
    {mode : Mode}
    {s value rest : List Char}
    (h : readBasicLines mode s = some (value, rest)) :
    rest.length ≤ s.length := by
  induction s generalizing mode value with
  | nil => simp [readBasicLines] at h
  | cons c tail ih =>
      have hIh :
          ∀ {mode value},
            readBasicLines mode tail = some (value, rest) →
              rest.length ≤ (c :: tail).length := by
        intro mode value hFound
        have := ih hFound
        simp only [List.length_cons]
        omega
      unfold readBasicLines at h
      split at h
      · exact hIh h
      · split at h
        · exact hIh h
        · split at h
          · exact hIh h
          · split at h
            · rename_i found hEnd
              cases h
              exact length_of_tripleEnd? hEnd
            · split at h
              · split at h
                · exact hIh h
                · split at h
                  · cases h
                  · exact length_of_prepend h fun _ => hIh
              · split at h
                · exact length_of_prepend h fun _ => hIh
                · split at h
                  · exact hIh h
                  · cases h

theorem length_of_readLiteralLines
    {s value rest : List Char}
    (h : readLiteralLines s = some (value, rest)) :
    rest.length ≤ s.length := by
  induction s generalizing value with
  | nil => simp [readLiteralLines] at h
  | cons c tail ih =>
      have hIh :
          ∀ {value},
            readLiteralLines tail = some (value, rest) →
              rest.length ≤ (c :: tail).length := by
        intro value hFound
        have := ih hFound
        simp only [List.length_cons]
        omega
      unfold readLiteralLines at h
      split at h
      · rename_i found hEnd
        cases h
        exact length_of_tripleEnd? hEnd
      · split at h
        · exact length_of_prepend h fun _ => hIh
        · split at h
          · exact hIh h
          · cases h

theorem length_skipLineEnd_le (s : List Char) :
    (skipLineEnd s).length ≤ s.length := by
  unfold skipLineEnd
  cases h : lineEnd? s with
  | none => simp
  | some rest =>
      have := length_of_lineEnd? h
      simp only [Option.getD_some]
      omega

/- What follows a string is shorter than its text. -/
theorem length_of_readString
    {s value rest : List Char}
    (h : readString s = some (value, rest)) :
    rest.length < s.length := by
  unfold readString at h
  split at h
  · rename_i text
    have := length_of_readBasicLines h
    have := length_skipLineEnd_le text
    simp only [List.length_cons]
    omega
  · have := length_of_readBasic h
    simp only [List.length_cons]
    omega
  · rename_i text
    have := length_of_readLiteralLines h
    have := length_skipLineEnd_le text
    simp only [List.length_cons]
    omega
  · have := length_of_readLiteral h
    simp only [List.length_cons]
    omega
  · cases h

------------------------------------------------------------
-- Arrays
------------------------------------------------------------

/-
  Read the strings of an array after its opening bracket. A
  comma may stand behind the last one.
-/
def readStrings (s : List Char) : Found (List String) :=
  match _hGap : skipGap false s with
  | ']' :: rest => some ([], rest)
  | start =>
      match _hString : readString start with
      | none => none
      | some (text, after) =>
          match _hAfter : skipGap false after with
          | ']' :: rest => some ([String.ofList text], rest)
          | ',' :: rest =>
              (readStrings rest).map fun found =>
                (String.ofList text :: found.1, found.2)
          | _ => none
termination_by s.length
decreasing_by
  have hStart := length_skipGap_le false s
  have hString := length_of_readString _hString
  have hAfter := length_skipGap_le false after
  rw [_hAfter] at hAfter
  rw [_hGap] at hStart
  simp only [List.length_cons] at hAfter
  omega

/- What follows an array is no longer than its text. -/
theorem length_of_readStrings
    {s : List Char}
    {found : List String × List Char}
    (h : readStrings s = some found) :
    found.2.length ≤ s.length := by
  fun_induction readStrings s generalizing found with
  | case1 s rest hGap =>
      have hStart := length_skipGap_le false s
      rw [hGap] at hStart
      cases h
      simp only [List.length_cons] at hStart
      simp only
      omega
  | case2 => cases h
  | case3 s text after rest hAfter _ hString =>
      have hStart := length_skipGap_le false s
      have hString := length_of_readString hString
      have hLength := length_skipGap_le false after
      rw [hAfter] at hLength
      cases h
      simp only [List.length_cons] at hLength
      simp only
      omega
  | case4 s text after rest hAfter _ hString ih =>
      rcases Option.map_eq_some_iff.mp h with
        ⟨found', hFound, hEq⟩
      have hStart := length_skipGap_le false s
      have hString := length_of_readString hString
      have hLength := length_skipGap_le false after
      have hRest := ih hFound
      rw [hAfter] at hLength
      cases hEq
      simp only [List.length_cons] at hLength
      simp only
      omega
  | case5 => cases h

------------------------------------------------------------
-- Settings
------------------------------------------------------------

/- A part of a dialect with its value. -/
inductive Setting where
| groupOpen (marker : String)
| groupClose (marker : String)
| commentStarts (starts : List String)
deriving DecidableEq, Repr

namespace Setting

/- The key that a setting is written under. -/
def key : Setting → String
| .groupOpen _ => "group_open"
| .groupClose _ => "group_close"
| .commentStarts _ => "comment_prefixes"

/- A dialect with one part set. -/
def apply (d : Dialect) : Setting → Dialect
| .groupOpen marker => { d with groupOpen := marker }
| .groupClose marker => { d with groupClose := marker }
| .commentStarts starts => { d with commentStarts := starts }

end Setting

/- A character of a key without quotes. -/
def isBareChar (c : Char) : Bool :=
  c.isAlphanum || c == '_' || c == '-'

/- Read a key. -/
def readKey : List Char → Found (List Char)
| '"' :: rest => readBasic 0 rest
| '\'' :: rest => readLiteral rest
| s =>
    if (s.takeWhile isBareChar).isEmpty then none
    else some (s.takeWhile isBareChar, s.dropWhile isBareChar)

/- Read the value that belongs to a key. -/
def readValue
    (key : String)
    (s : List Char) : Found Setting :=
  if key = "group_open" then
    (readString s).map fun found =>
      (.groupOpen (String.ofList found.1), found.2)
  else if key = "group_close" then
    (readString s).map fun found =>
      (.groupClose (String.ofList found.1), found.2)
  else if key = "comment_prefixes" then
    match s with
    | '[' :: rest =>
        (readStrings rest).map fun found =>
          (.commentStarts found.1, found.2)
    | _ => none
  else none

/- Read a key and its value. -/
def readSetting (s : List Char) : Found Setting :=
  match readKey s with
  | none => none
  | some (key, after) =>
      match skipSpaces after with
      | '=' :: rest =>
          readValue (String.ofList key) (skipSpaces rest)
      | _ => none

theorem length_of_readKey
    {s value rest : List Char}
    (h : readKey s = some (value, rest)) :
    rest.length ≤ s.length := by
  unfold readKey at h
  split at h
  · have := length_of_readBasic h
    simp only [List.length_cons]
    omega
  · have := length_of_readLiteral h
    simp only [List.length_cons]
    omega
  · split at h
    · cases h
    · cases h
      exact dropWhile_length_le _ _

theorem length_of_readValue
    {key : String}
    {s : List Char}
    {found : Setting × List Char}
    (h : readValue key s = some found) :
    found.2.length ≤ s.length := by
  have hText :
      ∀ setting : List Char → Setting,
        (readString s).map
            (fun f => (setting f.1, f.2)) = some found →
          found.2.length ≤ s.length := by
    intro setting hFound
    rcases Option.map_eq_some_iff.mp hFound with
      ⟨f, hF, hEq⟩
    obtain ⟨text, rest⟩ := f
    have := length_of_readString hF
    cases hEq
    simp only
    omega
  unfold readValue at h
  split at h
  · exact
      hText (fun text => .groupOpen (String.ofList text)) h
  · split at h
    · exact
        hText (fun text => .groupClose (String.ofList text)) h
    · split at h
      · split at h
        · rcases Option.map_eq_some_iff.mp h with
            ⟨f, hF, hEq⟩
          have := length_of_readStrings hF
          cases hEq
          simp only [List.length_cons]
          omega
        · cases h
      · cases h

/- What follows a setting is no longer than its text. -/
theorem length_of_readSetting
    {s : List Char}
    {found : Setting × List Char}
    (h : readSetting s = some found) :
    found.2.length ≤ s.length := by
  unfold readSetting at h
  split at h
  · cases h
  · rename_i key after hKey
    have hAfter := length_of_readKey hKey
    split at h
    · rename_i rest hEquals
      have hValue := length_of_readValue h
      have hSpaces := length_skipSpaces_le after
      have hRest := length_skipSpaces_le rest
      rw [hEquals] at hSpaces
      simp only [List.length_cons] at hSpaces
      omega
    · cases h

------------------------------------------------------------
-- Documents
------------------------------------------------------------

/- The text behind the spaces and the comment at its start. -/
def skipTrailer (s : List Char) : List Char :=
  skipComment (skipSpaces s)

theorem length_skipTrailer_le (s : List Char) :
    (skipTrailer s).length ≤ s.length :=
  Nat.le_trans (length_skipComment_le _)
    (length_skipSpaces_le s)

/-
  Read settings line by line up to the end. A line may be
  blank or a comment, and a comment may stand behind a
  setting.
-/
def readSettings (s : List Char) : Option (List Setting) :=
  match _hBlank : lineEnd? (skipComment (skipSpaces s)) with
  | some rest => readSettings rest
  | none =>
      if (skipComment (skipSpaces s)).isEmpty then some []
      else
        match _hSetting : readSetting (skipSpaces s) with
        | none => none
        | some (setting, after) =>
            match _hEnd : lineEnd? (skipTrailer after) with
            | some rest =>
                (readSettings rest).map (setting :: ·)
            | none =>
                if (skipTrailer after).isEmpty then
                  some [setting]
                else none
termination_by s.length
decreasing_by
  · have hRest := length_of_lineEnd? _hBlank
    have hComment := length_skipComment_le (skipSpaces s)
    have hSpaces := length_skipSpaces_le s
    omega
  · have hRest := length_of_lineEnd? _hEnd
    have hTrailer := length_skipTrailer_le after
    have hSetting := length_of_readSetting _hSetting
    have hStart := length_skipSpaces_le s
    simp only at hSetting
    omega

/- The text without a byte order mark. -/
def skipMark : List Char → List Char
| '\ufeff' :: rest => rest
| s => s

/- Whether a key is set more than once. -/
def hasRepeatedKey (settings : List Setting) : Bool :=
  !decide (settings.map Setting.key).Nodup

/- Read a document in which no key is repeated. -/
def read (s : List Char) : Option (List Setting) :=
  (readSettings (skipMark s)).filter fun settings =>
    !hasRepeatedKey settings

end Document

------------------------------------------------------------
-- Dialects from Documents
------------------------------------------------------------

/- Why a document defines no dialect. -/
inductive DocumentError where
| malformed
| flawed (flaw : DialectFlaw)
deriving DecidableEq, Repr

namespace DocumentError

/- The wording of a flaw, given what is wrong. -/
def flawMessage (reason : String) : String :=
  "invalid syntax definition: " ++ reason

/-
  The wording of a document error. What is wrong with a
  malformed document is not said.
-/
def message : DocumentError → String
| .malformed => "TOML parse error"
| .flawed flaw => flawMessage flaw.reason

end DocumentError

/-
  The dialect that a document defines: the standard dialect
  with the parts that the document sets, if it has no flaw.
-/
def Dialect.ofDocument
    (text : String) : Except DocumentError Dialect :=
  match Document.read text.toList with
  | none => .error .malformed
  | some settings =>
      let dialect :=
        settings.foldl Document.Setting.apply
          Dialect.standard
      match dialect.flaw? with
      | some flaw => .error (.flawed flaw)
      | none => .ok dialect

end CommandScript
