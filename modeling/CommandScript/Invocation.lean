import CommandScript.Params
import CommandScript.Text.Blank
import CommandScript.Text.Name

/-
  The line of one command: its kind, then parameters written
  as `key=value`. A value is bare or between double quotes.

  Key definitions include:
    * `Invocation`
    * `LineError`
    * `Invocation.readQuoted`
    * `Invocation.readParameter`
    * `Invocation.read`
-/

namespace CommandScript

/- A command as it is called for on a line. -/
structure Invocation where
  kind : String
  params : Params
deriving DecidableEq

------------------------------------------------------------
-- Errors
------------------------------------------------------------

/- Why a line calls for no command. -/
inductive LineError where
| invalidKind (word : String)
| missingEquals (word : String)
| emptyKey
| invalidKey (word : String)
| duplicateKey (key : String)
| unterminatedQuote (key : String)
| trailingCharacters (key : String)
deriving DecidableEq, Repr

namespace LineError

/- The wording of a line error. -/
def message : LineError → String
| .invalidKind word =>
    "invalid command kind: " ++ Text.quote word
| .missingEquals word =>
    "expected key=value, found " ++ Text.quote word
| .emptyKey => "empty parameter name"
| .invalidKey word =>
    "invalid parameter name: " ++ Text.quote word
| .duplicateKey key => "duplicate parameter: " ++ key
| .unterminatedQuote key =>
    "unterminated quote in value of " ++ key
| .trailingCharacters key =>
    "unexpected characters after quoted value of " ++ key

end LineError

namespace Invocation

------------------------------------------------------------
-- Values
------------------------------------------------------------

/-
  What a backslash and the character after it stand for. An
  unknown escape stands for its two characters.
-/
def unescape (c : Char) : List Char :=
  if c = '"' then ['"']
  else if c = '\\' then ['\\']
  else if c = 'n' then ['\n']
  else if c = 't' then ['\t']
  else ['\\', c]

/-
  Read a quoted value up to its closing quote: the value and
  what follows the quote. There is none if the line ends
  first.
-/
def readQuoted :
    List Char → Option (List Char × List Char)
| [] => none
| '"' :: rest => some ([], rest)
| ['\\'] => none
| '\\' :: c :: rest =>
    (readQuoted rest).map fun found =>
      (unescape c ++ found.1, found.2)
| c :: rest =>
    (readQuoted rest).map fun found =>
      (c :: found.1, found.2)

/- A character that is not blank. -/
def isSolid (c : Char) : Bool :=
  !Text.isBlank c

/-
  Read the value after an equals sign: the value and what
  follows it.
-/
def readValue
    (key : String) :
    List Char → Except LineError (List Char × List Char)
| '"' :: body =>
    match readQuoted body with
    | none => .error (.unterminatedQuote key)
    | some (value, rest) =>
        if rest.head?.any isSolid then
          .error (.trailingCharacters key)
        else .ok (value, rest)
| s => .ok (s.takeWhile isSolid, s.dropWhile isSolid)

------------------------------------------------------------
-- Parameters
------------------------------------------------------------

/- A character that can stand in the word before a value. -/
def isKeyChar (c : Char) : Bool :=
  c != '=' && isSolid c

/- One parameter and what follows it on the line. -/
structure Step where
  key : String
  value : String
  rest : List Char
deriving DecidableEq, Repr

/- Read the parameter that a text starts with. -/
def readParameter
    (s : List Char) : Except LineError Step :=
  let word := s.takeWhile isKeyChar
  let key := String.ofList word
  match s.dropWhile isKeyChar with
  | '=' :: after =>
      if word.isEmpty then .error .emptyKey
      else if !Text.isName word then
        .error (.invalidKey key)
      else
        (readValue key after).map fun found =>
          ⟨key, String.ofList found.1, found.2⟩
  | _ => .error (.missingEquals key)

------------------------------------------------------------
-- Progress
------------------------------------------------------------

theorem length_dropWhile_le
    (p : Char → Bool)
    (s : List Char) :
    (s.dropWhile p).length ≤ s.length :=
  (List.dropWhile_sublist p).length_le

/- What follows a quoted value is shorter than its text. -/
theorem length_of_readQuoted
    {s value rest : List Char}
    (h : readQuoted s = some (value, rest)) :
    rest.length < s.length := by
  fun_induction readQuoted s generalizing value with
  | case1 => simp at h
  | case2 => simp_all
  | case3 => simp at h
  | case4 c tail ih =>
      rcases Option.map_eq_some_iff.mp h with
        ⟨found, hFound, hEq⟩
      cases hEq
      have := ih hFound
      simp only [List.length_cons]
      omega
  | case5 c tail _ _ _ ih =>
      rcases Option.map_eq_some_iff.mp h with
        ⟨found, hFound, hEq⟩
      cases hEq
      have := ih hFound
      simp only [List.length_cons]
      omega

/- What follows a value is no longer than its text. -/
theorem length_of_readValue
    {key : String}
    {s value rest : List Char}
    (h : readValue key s = .ok (value, rest)) :
    rest.length ≤ s.length := by
  unfold readValue at h
  split at h
  · split at h
    · cases h
    · rename_i hQuoted
      split at h
      · cases h
      · cases h
        have := length_of_readQuoted hQuoted
        simp only [List.length_cons]
        omega
  · cases h
    exact length_dropWhile_le _ _

/- What follows a parameter is shorter than its text. -/
theorem length_of_readParameter
    {s : List Char}
    {step : Step}
    (h : readParameter s = .ok step) :
    step.rest.length < s.length := by
  unfold readParameter at h
  simp only at h
  split at h
  · rename_i after hDrop
    split at h
    · cases h
    · split at h
      · cases h
      · cases hValue :
            readValue
              (String.ofList (s.takeWhile isKeyChar))
              after with
        | error cause =>
            rw [hValue] at h
            cases h
        | ok found =>
            rw [hValue] at h
            cases h
            have hRest := length_of_readValue hValue
            have hLength :=
              length_dropWhile_le isKeyChar s
            rw [hDrop] at hLength
            simp only [List.length_cons] at hLength
            simp only
            omega
  · cases h

------------------------------------------------------------
-- Lines
------------------------------------------------------------

/-
  Read parameters up to the end of the line on top of those
  read so far.
-/
def readParameters
    (params : Params)
    (s : List Char) : Except LineError Params :=
  if (Text.trimStart s).isEmpty then .ok params
  else
    match _hStep : readParameter (Text.trimStart s) with
    | .error cause => .error cause
    | .ok step =>
        if params.contains step.key then
          .error (.duplicateKey step.key)
        else
          readParameters
            (params.insert step.key step.value) step.rest
termination_by s.length
decreasing_by
  have hRest := length_of_readParameter _hStep
  have hTrim := length_dropWhile_le Text.isBlank s
  unfold Text.trimStart at hRest
  omega

/-
  Read a line: a first word that is a name, and parameters
  whose keys are names and all different.
-/
def read (line : List Char) : Except LineError Invocation :=
  let line := Text.trim line
  let word := line.takeWhile isSolid
  let kind := String.ofList word
  if !Text.isName word then .error (.invalidKind kind)
  else
    (readParameters Dictionary.empty
      (line.dropWhile isSolid)).map fun params =>
        ⟨kind, params⟩

end Invocation

end CommandScript
