import CommandScript.Proofs.WrittenStrings

/-
  Settings as they are written in documents, and read back.
  A document sets parts of a dialect, a line for each, in any
  order, with blank lines and comments anywhere. What stands
  on one line does not change how the lines behind it are
  read.

  Key definitions include:
    * `Document.Trailer`
    * `Document.WritesKey`
    * `Document.WritesSetting`
    * `Document.WritesLines`
    * `Document.Written`

  Main statements:
    * `Document.exists_written`
    * `Document.readSetting_of_writesSetting`
    * `Document.readSettings_of_writesLines`
    * `Document.readSettings_of_written`
    * `Document.read_of_written`
-/

namespace CommandScript

namespace Document

open Text (StopsAt stopsAt_nil stopsAt_cons)

------------------------------------------------------------
-- Spaces and Comments
------------------------------------------------------------

/- Blanks inside a line, and nothing else. -/
def Spaces (s : List Char) : Prop :=
  ∀ c ∈ s, isSpace c = true

/-
  What may stand behind a setting: spaces, and a comment
  or none.
-/
inductive Trailer : List Char → Prop where
| spaces
    {spaces : List Char}
    (hSpaces : Spaces spaces) :
    Trailer spaces
| comment
    {spaces comment : List Char}
    (hSpaces : Spaces spaces)
    (hComment : ∀ c ∈ comment, isPlain c = true) :
    Trailer (spaces ++ '#' :: comment)

/- The end of a text, or of a line in it. -/
inductive AtEnd : List Char → Prop where
| text : AtEnd []
| line
    {lineEnd rest : List Char}
    (hEnd : LineEnd lineEnd) :
    AtEnd (lineEnd ++ rest)

section Trailers

variable {sort : Char → Bool}
variable {margin trailer rest : List Char}

theorem spaces_nil : Spaces [] :=
  List.forall_mem_nil _

/- Only a line end can stand at the end. -/
theorem stopsAt_of_atEnd
    (hEnd : AtEnd rest)
    (hSort : sort '\n' = false ∧ sort '\r' = false) :
    StopsAt sort rest := by
  cases hEnd with
  | text => exact stopsAt_nil
  | line hEnd =>
      cases hEnd with
      | feed => exact stopsAt_cons.mpr hSort.1
      | returned => exact stopsAt_cons.mpr hSort.2

/-
  What stops behind spaces stops before them, unless
  spaces are of its sort.
-/
theorem stopsAt_of_spaces
    (hSpaces : Spaces margin)
    (hSort : sort ' ' = false ∧ sort '\t' = false)
    (hRest : StopsAt sort rest) :
    StopsAt sort (margin ++ rest) := by
  cases margin with
  | nil => exact hRest
  | cons c margin =>
      have hSpace : isSpace c = true :=
        hSpaces c List.mem_cons_self
      apply stopsAt_cons.mpr
      rw [isSpace, Bool.or_eq_true, beq_iff_eq,
        beq_iff_eq] at hSpace
      rcases hSpace with rfl | rfl
      · exact hSort.1
      · exact hSort.2

/- The same holds before and behind a trailer. -/
theorem stopsAt_of_trailer
    (hTrailer : Trailer trailer)
    (hSort : sort ' ' = false ∧ sort '\t' = false)
    (hSign : sort '#' = false)
    (hRest : StopsAt sort rest) :
    StopsAt sort (trailer ++ rest) := by
  cases hTrailer with
  | spaces hSpaces =>
      exact stopsAt_of_spaces hSpaces hSort hRest
  | comment hSpaces hComment =>
      rw [List.append_assoc]
      exact
        stopsAt_of_spaces hSpaces hSort
          (stopsAt_cons.mpr hSign)

/- The end of a line is found where it stands. -/
theorem lineEnd?_append
    {lineEnd : List Char}
    (hEnd : LineEnd lineEnd)
    (rest : List Char) :
    lineEnd? (lineEnd ++ rest) = some rest := by
  cases hEnd <;> rfl

theorem skipSpaces_append
    (hMargin : Spaces margin)
    (hRest : StopsAt isSpace rest) :
    skipSpaces (margin ++ rest) = rest :=
  Text.dropWhile_append hMargin hRest

/- Without a number sign there is no comment. -/
theorem skipComment_of_stopsAt
    (hRest : StopsAt (· == '#') rest) :
    skipComment rest = rest := by
  unfold skipComment
  split
  · exact absurd (stopsAt_cons.mp hRest) (by decide)
  · rfl

/- A trailer is skipped up to the end of its line. -/
theorem skipTrailer_of_trailer
    (hTrailer : Trailer trailer)
    (hRest : AtEnd rest) :
    skipTrailer (trailer ++ rest) = rest := by
  unfold skipTrailer
  cases hTrailer with
  | spaces hSpaces =>
      rw [skipSpaces_append hSpaces
          (stopsAt_of_atEnd hRest (by decide)),
        skipComment_of_stopsAt
          (stopsAt_of_atEnd hRest (by decide))]
  | @comment spaces comment hSpaces hComment =>
      rw [List.append_assoc, List.cons_append,
        skipSpaces_append hSpaces
          (stopsAt_cons.mpr (by decide))]
      exact
        Text.dropWhile_append hComment
          (stopsAt_of_atEnd hRest (by decide))

end Trailers

------------------------------------------------------------
-- Settings
------------------------------------------------------------

/- A key without quotes, or between quotes of either sort. -/
inductive WritesKey : String → List Char → Prop where
| bare
    {name : List Char}
    (hSome : name ≠ [])
    (hBare : ∀ c ∈ name, isBareChar c = true) :
    WritesKey (String.ofList name) name
| quoted
    {name : String}
    {key : List Char}
    (hString : WritesString name key) :
    WritesKey name key
| literal
    {name : List Char}
    (hPlain : ∀ c ∈ name, isPlain c = true ∧ c ≠ '\'') :
    WritesKey (String.ofList name)
      ('\'' :: (name ++ ['\'']))

/-
  The value of a setting: a string, or strings between
  brackets.
-/
inductive WritesValue : Setting → List Char → Prop where
| groupOpen
    {marker : String}
    {text : List Char}
    (hString : WritesString marker text) :
    WritesValue (.groupOpen marker) text
| groupClose
    {marker : String}
    {text : List Char}
    (hString : WritesString marker text) :
    WritesValue (.groupClose marker) text
| commentStarts
    {starts : List String}
    {items : List Char}
    (hItems : WritesItems starts items) :
    WritesValue (.commentStarts starts) ('[' :: items)

/- A key and a value with an equals sign between them. -/
inductive WritesSetting : Setting → List Char → Prop where
| equals
    {setting : Setting}
    {key left right value : List Char}
    (hKey : WritesKey setting.key key)
    (hLeft : Spaces left)
    (hRight : Spaces right)
    (hValue : WritesValue setting value) :
    WritesSetting setting
      (key ++ (left ++ '=' :: (right ++ value)))

section Settings

variable {name : String}
variable {setting : Setting}
variable {key value text spaces rest : List Char}

/- A literal string is read up to its closing quote. -/
theorem readLiteral_append
    {text : List Char}
    (hPlain : ∀ c ∈ text, isPlain c = true ∧ c ≠ '\'') :
    readLiteral (text ++ '\'' :: rest) =
      some (text, rest) := by
  induction text with
  | nil => rfl
  | cons c text ih =>
      have hChar := hPlain c List.mem_cons_self
      have hText :=
        ih fun d hd => hPlain d (List.mem_cons_of_mem c hd)
      rw [List.cons_append, readLiteral, if_neg hChar.2,
        if_pos hChar.1, hText]
      rfl

/- A character of a name is no quote. -/
theorem ne_quote_of_isBareChar
    {c : Char}
    (hBare : isBareChar c = true) :
    c ≠ '"' ∧ c ≠ '\'' := by
  constructor <;> rintro rfl <;>
    exact absurd hBare (by decide)

/- A name without quotes is as long as it can be. -/
theorem readKey_bare
    {name : List Char}
    (hSome : name ≠ [])
    (hBare : ∀ c ∈ name, isBareChar c = true)
    (hRest : StopsAt isBareChar rest) :
    readKey (name ++ rest) = some (name, rest) := by
  have hStart :
      ∀ c tail, name ++ rest = c :: tail →
        c ≠ '"' ∧ c ≠ '\'' := by
    intro c tail hEq
    cases name with
    | nil => exact absurd rfl hSome
    | cons d name =>
        cases hEq
        exact
          ne_quote_of_isBareChar (hBare c List.mem_cons_self)
  have hName : ¬ name.isEmpty = true := by
    rw [List.isEmpty_iff]
    exact hSome
  rw [readKey, Text.takeWhile_append hBare hRest,
    Text.dropWhile_append hBare hRest, if_neg hName]
  · intro tail hEq
    exact (hStart _ _ hEq).1 rfl
  · intro tail hEq
    exact (hStart _ _ hEq).2 rfl

/- A key is read as the name it writes. -/
theorem readKey_of_writesKey
    (hKey : WritesKey name key)
    (hRest : StopsAt isBareChar rest) :
    readKey (key ++ rest) = some (name.toList, rest) := by
  cases hKey with
  | bare hSome hBare =>
      rw [readKey_bare hSome hBare hRest,
        String.toList_ofList]
  | quoted hString =>
      cases hString with
      | quotes hText =>
          rw [List.cons_append, List.append_assoc]
          exact readBasic_of_writesText hText
  | literal hPlain =>
      rw [List.cons_append, List.append_assoc,
        String.toList_ofList]
      exact readLiteral_append hPlain

/- A value is read as the setting of its key. -/
theorem readValue_of_writesValue
    (hValue : WritesValue setting value)
    (hRest : StopsAt (· == '"') rest) :
    readValue setting.key (value ++ rest) =
      some (setting, rest) := by
  unfold readValue
  cases hValue with
  | groupOpen hString =>
      rw [Setting.key, if_pos rfl,
        readString_of_writesString hString hRest,
        Option.map_some, String.ofList_toList]
  | groupClose hString =>
      rw [Setting.key, if_neg (by decide), if_pos rfl,
        readString_of_writesString hString hRest,
        Option.map_some, String.ofList_toList]
  | commentStarts hItems =>
      rw [Setting.key, if_neg (by decide),
        if_neg (by decide), if_pos rfl, List.cons_append]
      simp only [readStrings_of_writesItems hItems,
        Option.map_some]

/- A value does not start with a space. -/
theorem stopsAt_of_writesValue
    (hValue : WritesValue setting value) :
    StopsAt isSpace (value ++ rest) := by
  cases hValue with
  | groupOpen hString =>
      cases hString
      exact stopsAt_cons.mpr (by decide)
  | groupClose hString =>
      cases hString
      exact stopsAt_cons.mpr (by decide)
  | commentStarts hItems =>
      exact stopsAt_cons.mpr (by decide)

/- Behind a key and spaces stands the equals sign. -/
theorem readSetting_append
    {sign : Char}
    (hKey : WritesKey name key)
    (hSpaces : Spaces spaces)
    (hSign : isBareChar sign = false ∧ isSpace sign = false) :
    readSetting (key ++ (spaces ++ sign :: rest)) =
      if sign = '=' then readValue name (skipSpaces rest)
      else none := by
  have hName : StopsAt isBareChar (spaces ++ sign :: rest) :=
    stopsAt_of_spaces hSpaces (by decide)
      (stopsAt_cons.mpr hSign.1)
  have hBehind : skipSpaces (spaces ++ sign :: rest) =
      sign :: rest :=
    skipSpaces_append hSpaces (stopsAt_cons.mpr hSign.2)
  rw [readSetting, readKey_of_writesKey hKey hName]
  simp only [hBehind, String.ofList_toList]
  split
  · rename_i hEq
    cases hEq
    rfl
  · rename_i hOther
    rw [if_neg]
    rintro rfl
    exact hOther rest rfl

/- A setting is read as it is written. -/
theorem readSetting_of_writesSetting
    (hSetting : WritesSetting setting text)
    (hRest : StopsAt (· == '"') rest) :
    readSetting (text ++ rest) = some (setting, rest) := by
  cases hSetting with
  | equals hKey hLeft hRight hValue =>
      simp only [List.append_assoc, List.cons_append]
      rw [readSetting_append hKey hLeft (by decide),
        if_pos rfl,
        skipSpaces_append hRight
          (stopsAt_of_writesValue hValue),
        readValue_of_writesValue hValue hRest]

/- The key of a setting can be written without quotes. -/
theorem writesKey_key
    (setting : Setting) :
    WritesKey setting.key setting.key.toList := by
  have hKey :
      setting.key.toList ≠ [] ∧
        setting.key.toList.all isBareChar = true := by
    cases setting <;> rw [Setting.key] <;> decide
  have hBare :=
    WritesKey.bare hKey.1 (List.all_eq_true.mp hKey.2)
  rwa [String.ofList_toList] at hBare

/- Every setting can be written. -/
theorem exists_writesSetting
    (setting : Setting) :
    ∃ text, WritesSetting setting text := by
  have hValue : ∃ value, WritesValue setting value := by
    cases setting with
    | groupOpen marker =>
        rcases exists_writesText marker.toList with ⟨_, hText⟩
        exact ⟨_, .groupOpen (.quotes hText)⟩
    | groupClose marker =>
        rcases exists_writesText marker.toList with ⟨_, hText⟩
        exact ⟨_, .groupClose (.quotes hText)⟩
    | commentStarts starts =>
        rcases exists_writesItems starts with ⟨_, hItems⟩
        exact ⟨_, .commentStarts hItems⟩
  rcases hValue with ⟨value, hValue⟩
  exact
    ⟨_,
      .equals (writesKey_key setting) spaces_nil spaces_nil
        hValue⟩

end Settings

------------------------------------------------------------
-- Lines
------------------------------------------------------------

/- A blank line, a comment, or a setting and its trailer. -/
inductive WritesLine : List Setting → List Char → Prop where
| blank
    {trailer : List Char}
    (hTrailer : Trailer trailer) :
    WritesLine [] trailer
| setting
    {setting : Setting}
    {margin text trailer : List Char}
    (hMargin : Spaces margin)
    (hSetting : WritesSetting setting text)
    (hTrailer : Trailer trailer) :
    WritesLine [setting] (margin ++ (text ++ trailer))

/- Lines that have ended, with their settings in order. -/
inductive WritesLines : List Setting → List Char → Prop where
| nil : WritesLines [] []
| cons
    {settings settings' : List Setting}
    {line lineEnd lines : List Char}
    (hLine : WritesLine settings line)
    (hEnd : LineEnd lineEnd)
    (hLines : WritesLines settings' lines) :
    WritesLines (settings ++ settings')
      (line ++ (lineEnd ++ lines))

/- A document: lines that have ended, and a last one. -/
inductive Written : List Setting → List Char → Prop where
| lines
    {settings settings' : List Setting}
    {lines line : List Char}
    (hLines : WritesLines settings lines)
    (hLine : WritesLine settings' line) :
    Written (settings ++ settings') (lines ++ line)

/- A character that no setting starts with. -/
def isIdle (c : Char) : Bool :=
  isSpace c || c == '#' || c == '\n' || c == '\r' ||
    c == '\ufeff'

/- The settings behind a line, which has to be at its end. -/
def readBehind (s : List Char) : Option (List Setting) :=
  match lineEnd? s with
  | some rest => readSettings rest
  | none => if s.isEmpty then some [] else none

section Lines

variable {name : String}
variable {settings : List Setting}
variable {key margin trailer start line lines rest : List Char}

/- What a character is not, if a setting can start with it. -/
theorem of_isIdle_eq_false
    {c : Char}
    (hIdle : isIdle c = false) :
    isSpace c = false ∧
      c ≠ '#' ∧ c ≠ '\n' ∧ c ≠ '\r' ∧ c ≠ '\ufeff' := by
  simpa [isIdle, and_assoc] using hIdle

/- No key starts like a line without a setting. -/
theorem stopsAt_of_writesKey
    (hKey : WritesKey name key)
    (rest : List Char) :
    key ++ rest ≠ [] ∧ StopsAt isIdle (key ++ rest) := by
  cases hKey with
  | bare hSome hBare =>
      refine
        ⟨List.append_ne_nil_of_left_ne_nil hSome rest,
          Text.stopsAt_append hSome ?_⟩
      intro c hc
      have hName := hBare c (List.mem_of_mem_head? hc)
      by_contra hIdle
      simp only [isIdle, isSpace, Bool.not_eq_false,
        Bool.or_eq_true, beq_iff_eq] at hIdle
      rcases hIdle with
        ((((rfl | rfl) | rfl) | rfl) | rfl) | rfl <;>
        exact absurd hName (by decide)
  | quoted hString =>
      cases hString
      exact
        ⟨List.cons_ne_nil _ _, stopsAt_cons.mpr (by decide)⟩
  | literal hPlain =>
      exact
        ⟨List.cons_ne_nil _ _, stopsAt_cons.mpr (by decide)⟩

theorem stopsAt_of_writesSetting
    {setting : Setting}
    {text : List Char}
    (hSetting : WritesSetting setting text)
    (rest : List Char) :
    text ++ rest ≠ [] ∧ StopsAt isIdle (text ++ rest) := by
  cases hSetting with
  | equals hKey hLeft hRight hValue =>
      rw [List.append_assoc]
      exact stopsAt_of_writesKey hKey _

/- Where a setting has to start, there is no line end. -/
theorem skipTrailer_of_start
    (hMargin : Spaces margin)
    (hSome : start ≠ [])
    (hStart : StopsAt isIdle start) :
    skipSpaces (margin ++ start) = start ∧
      skipComment start = start ∧ lineEnd? start = none := by
  cases start with
  | nil => exact absurd rfl hSome
  | cons c start =>
      rcases of_isIdle_eq_false (stopsAt_cons.mp hStart) with
        ⟨hSpace, hSign, hFeed, hReturn, -⟩
      refine
        ⟨skipSpaces_append hMargin (stopsAt_cons.mpr hSpace),
          skipComment_of_stopsAt
            (stopsAt_cons.mpr (by simp [hSign])), ?_⟩
      unfold lineEnd?
      split
      · rename_i hEq
        cases hEq
        exact absurd rfl hFeed
      · rename_i hEq
        cases hEq
        exact absurd rfl hReturn
      · rfl

/- A line that is not blank has to start with a setting. -/
theorem readSettings_of_start
    (hMargin : Spaces margin)
    (hSome : start ≠ [])
    (hStart : StopsAt isIdle start) :
    readSettings (margin ++ start) =
      match readSetting start with
      | none => none
      | some (setting, after) =>
          (readBehind (skipTrailer after)).map
            (setting :: ·) := by
  rcases skipTrailer_of_start hMargin hSome hStart with
    ⟨hSpaces, hComment, hLine⟩
  have hContent : ¬ start.isEmpty = true := by
    rw [List.isEmpty_iff]
    exact hSome
  rw [readSettings]
  split
  · rename_i hBlank
    rw [hSpaces, hComment, hLine] at hBlank
    cases hBlank
  · rw [hSpaces, hComment, if_neg hContent]
    split
    · rename_i hNone
      rw [hNone]
    · rename_i setting after hFound
      rw [hFound]
      simp only [readBehind]
      split
      · rename_i hEnd
        rw [hEnd]
      · rename_i hEnd
        rw [hEnd]
        split <;> rfl

/- A blank line is skipped. -/
theorem readSettings_of_trailer
    (hTrailer : Trailer trailer)
    (hRest : AtEnd rest) :
    readSettings (trailer ++ rest) = readBehind rest := by
  have hSkip :
      skipComment (skipSpaces (trailer ++ rest)) = rest :=
    skipTrailer_of_trailer hTrailer hRest
  rw [readSettings]
  simp only [readBehind]
  split
  · rename_i hLine
    rw [hSkip] at hLine
    rw [hLine]
  · rename_i hLine
    rw [hSkip] at hLine ⊢
    cases hRest with
    | text => rfl
    | line hEnd =>
        rw [lineEnd?_append hEnd] at hLine
        cases hLine

/- The settings of a line come before those behind it. -/
theorem readSettings_of_writesLine
    (hLine : WritesLine settings line)
    (hRest : AtEnd rest) :
    readSettings (line ++ rest) =
      (readBehind rest).map (settings ++ ·) := by
  cases hLine with
  | blank hTrailer =>
      rw [readSettings_of_trailer hTrailer hRest]
      exact Option.map_id'.symm
  | @setting setting margin text trailer hMargin hSetting
        hTrailer =>
      rcases stopsAt_of_writesSetting hSetting
          (trailer ++ rest) with
        ⟨hSome, hStart⟩
      have hFound :
          readSetting (text ++ (trailer ++ rest)) =
            some (setting, trailer ++ rest) := by
        apply readSetting_of_writesSetting hSetting
        apply stopsAt_of_trailer hTrailer (by decide)
          (by decide)
        exact stopsAt_of_atEnd hRest (by decide)
      simp only [List.append_assoc]
      rw [readSettings_of_start hMargin hSome hStart, hFound]
      simp only [skipTrailer_of_trailer hTrailer hRest,
        List.cons_append, List.nil_append]

/- The settings of lines come before those behind them. -/
theorem readSettings_of_writesLines
    (hLines : WritesLines settings lines)
    (rest : List Char) :
    readSettings (lines ++ rest) =
      (readSettings rest).map (settings ++ ·) := by
  induction hLines with
  | nil => exact Option.map_id'.symm
  | @cons settings settings' line lineEnd lines hLine hEnd
        hLines ih =>
      -- A line is read up to its end, whatever follows.
      have hBehind :
          readBehind (lineEnd ++ (lines ++ rest)) =
            readSettings (lines ++ rest) := by
        rw [readBehind, lineEnd?_append hEnd]
      rw [List.append_assoc, List.append_assoc,
        readSettings_of_writesLine hLine (.line hEnd),
        hBehind, ih, Option.map_map]
      simp only [Function.comp_def, List.append_assoc]

/- A document is read as its settings. -/
theorem readSettings_of_written
    {text : List Char}
    (hText : Written settings text) :
    readSettings text = some settings := by
  cases hText with
  | lines hLines hLine =>
      have hLast := readSettings_of_writesLine hLine .text
      rw [List.append_nil] at hLast
      rw [readSettings_of_writesLines hLines, hLast]
      simp [readBehind, lineEnd?]

/- No setting starts with a byte order mark. -/
theorem stopsAt_mark
    (hStart : StopsAt isIdle start) :
    StopsAt (· == '\ufeff') start := by
  intro c hc
  rcases of_isIdle_eq_false (hStart c hc) with
    ⟨-, -, -, -, hMark⟩
  exact beq_eq_false_iff_ne.mpr hMark

/- Neither does a line. -/
theorem stopsAt_of_writesLine
    (hLine : WritesLine settings line)
    (hRest : StopsAt (· == '\ufeff') rest) :
    StopsAt (· == '\ufeff') (line ++ rest) := by
  cases hLine with
  | blank hTrailer =>
      exact
        stopsAt_of_trailer hTrailer (by decide) (by decide)
          hRest
  | setting hMargin hSetting hTrailer =>
      rw [List.append_assoc, List.append_assoc]
      exact
        stopsAt_of_spaces hMargin (by decide)
          (stopsAt_mark
            (stopsAt_of_writesSetting hSetting _).2)

/- The first line decides whether there is a mark. -/
theorem stopsAt_of_writesLines
    (hLines : WritesLines settings lines)
    (hRest : StopsAt (· == '\ufeff') rest) :
    StopsAt (· == '\ufeff') (lines ++ rest) := by
  cases hLines with
  | nil => exact hRest
  | cons hLine hEnd hLines =>
      rw [List.append_assoc, List.append_assoc]
      exact
        stopsAt_of_writesLine hLine
          (stopsAt_of_atEnd (.line hEnd) (by decide))

theorem skipMark_of_stopsAt
    (hRest : StopsAt (· == '\ufeff') rest) :
    skipMark rest = rest := by
  unfold skipMark
  split
  · exact absurd (stopsAt_cons.mp hRest) (by decide)
  · rfl

/- A document is read if it repeats no key. -/
theorem read_of_written
    {text : List Char}
    (hText : Written settings text) :
    read text =
      if (settings.map Setting.key).Nodup then some settings
      else none := by
  have hMark : StopsAt (· == '\ufeff') text := by
    cases hText with
    | @lines settings settings' lines line hLines hLine =>
        have hLast :
            StopsAt (· == '\ufeff') (line ++ []) :=
          stopsAt_of_writesLine hLine stopsAt_nil
        rw [List.append_nil] at hLast
        exact stopsAt_of_writesLines hLines hLast
  rw [read, skipMark_of_stopsAt hMark,
    readSettings_of_written hText, Option.filter_some,
    hasRepeatedKey, Bool.not_not]
  simp only [decide_eq_true_eq]

/- Settings can be written, whatever their order. -/
theorem exists_written
    (settings : List Setting) :
    ∃ text, Written settings text := by
  have hLines : ∃ lines, WritesLines settings lines := by
    induction settings with
    | nil => exact ⟨[], .nil⟩
    | cons setting settings ih =>
        rcases exists_writesSetting setting with
          ⟨text, hSetting⟩
        rcases ih with ⟨lines, hLines⟩
        exact
          ⟨_,
            .cons
              (.setting spaces_nil hSetting
                (.spaces spaces_nil))
              .feed hLines⟩
  rcases hLines with ⟨lines, hLines⟩
  have hText :=
    Written.lines hLines (.blank (.spaces spaces_nil))
  rw [List.append_nil settings] at hText
  exact ⟨_, hText⟩

end Lines

end Document

end CommandScript
