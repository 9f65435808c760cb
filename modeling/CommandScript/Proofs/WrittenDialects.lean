import CommandScript.Proofs.WrittenSettings

/-
  Dialects that documents define. Parts that a document does
  not set keep their standard values, and the dialect is
  validated as a whole. A document that sets a part twice, or
  sets anything else, is malformed whatever the flaws of the
  dialect would be.

  Key definitions include:
    * `Document.StartsOther`
    * `Document.Setting.Holds`
    * `Document.Overrides`

  Main statements:
    * `Document.read_of_startsOther`
    * `Document.overrides_foldl`
    * `Document.ofDocument_of_written`
-/

namespace CommandScript

namespace Document

open Text (StopsAt stopsAt_cons)

------------------------------------------------------------
-- Other Keys
------------------------------------------------------------

/-
  Beginnings of what sets no part: another key, a key with a
  dot behind it, and the heading of a table.
-/
inductive StartsOther : List Char → Prop where
| key
    {name : String}
    {key spaces : List Char}
    (hOther : ∀ setting : Setting, setting.key ≠ name)
    (hKey : WritesKey name key)
    (hSpaces : Spaces spaces) :
    StartsOther (key ++ (spaces ++ ['=']))
| dotted
    {name : String}
    {key spaces : List Char}
    (hKey : WritesKey name key)
    (hSpaces : Spaces spaces) :
    StartsOther (key ++ (spaces ++ ['.']))
| table : StartsOther ['[']

section Others

variable {name : String}
variable {settings : List Setting}
variable {key spaces lines margin other : List Char}

/- A value belongs to the key of a setting. -/
theorem readValue_of_ne
    (hOther : ∀ setting : Setting, setting.key ≠ name)
    (rest : List Char) :
    readValue name rest = none := by
  have hOpen : ¬ name = "group_open" :=
    (hOther (.groupOpen "")).symm
  have hClose : ¬ name = "group_close" :=
    (hOther (.groupClose "")).symm
  have hStarts : ¬ name = "comment_prefixes" :=
    (hOther (.commentStarts [])).symm
  unfold readValue
  rw [if_neg hOpen, if_neg hClose, if_neg hStarts]

/- Nothing else is read as a setting. -/
theorem readSetting_of_startsOther
    (hOther : StartsOther other)
    (rest : List Char) :
    readSetting (other ++ rest) = none := by
  cases hOther with
  | key hOther hKey hSpaces =>
      simp only [List.append_assoc, List.singleton_append]
      rw [readSetting_append hKey hSpaces (by decide),
        if_pos rfl, readValue_of_ne hOther]
  | dotted hKey hSpaces =>
      simp only [List.append_assoc, List.singleton_append]
      rw [readSetting_append hKey hSpaces (by decide),
        if_neg (by decide)]
  | table => rfl

theorem stopsAt_of_startsOther
    (hOther : StartsOther other)
    (rest : List Char) :
    other ++ rest ≠ [] ∧ StopsAt isIdle (other ++ rest) := by
  cases hOther with
  | key hOther hKey hSpaces =>
      rw [List.append_assoc]
      exact stopsAt_of_writesKey hKey _
  | dotted hKey hSpaces =>
      rw [List.append_assoc]
      exact stopsAt_of_writesKey hKey _
  | table =>
      exact
        ⟨List.cons_ne_nil _ _, stopsAt_cons.mpr (by decide)⟩

/- A document is not read beyond what sets no part. -/
theorem read_of_startsOther
    (hLines : WritesLines settings lines)
    (hMargin : Spaces margin)
    (hOther : StartsOther other)
    (rest : List Char) :
    read (lines ++ (margin ++ (other ++ rest))) = none := by
  rcases stopsAt_of_startsOther hOther rest with
    ⟨hSome, hStart⟩
  have hMark :
      StopsAt (· == '\ufeff')
        (lines ++ (margin ++ (other ++ rest))) :=
    stopsAt_of_writesLines hLines
      (stopsAt_of_spaces hMargin (by decide)
        (stopsAt_mark hStart))
  rw [read, skipMark_of_stopsAt hMark,
    readSettings_of_writesLines hLines,
    readSettings_of_start hMargin hSome hStart,
    readSetting_of_startsOther hOther]
  rfl

end Others

------------------------------------------------------------
-- Dialects
------------------------------------------------------------

/- Whether a part of a dialect has the value of a setting. -/
def Setting.Holds (d : Dialect) : Setting → Prop
| .groupOpen marker => d.groupOpen = marker
| .groupClose marker => d.groupClose = marker
| .commentStarts starts => d.commentStarts = starts

/-
  A dialect has the given parts, and standard ones where
  none are given.
-/
structure Overrides
    (settings : List Setting)
    (d : Dialect) : Prop where
  given : ∀ setting ∈ settings, setting.Holds d
  standard :
    ∀ setting : Setting,
      setting.key ∉ settings.map Setting.key →
        setting.Holds Dialect.standard → setting.Holds d

section Dialects

variable {d : Dialect}
variable {setting other : Setting}
variable {settings : List Setting}

theorem Setting.holds_apply :
    setting.Holds (setting.apply d) := by
  cases setting <;> rfl

/- A setting changes no part but its own. -/
theorem Setting.holds_apply_of_ne
    (hOther : setting.key ≠ other.key)
    (hHolds : setting.Holds d) :
    setting.Holds (other.apply d) := by
  cases setting <;> cases other <;>
    first
    | exact hHolds
    | exact absurd rfl hOther

/- Settings change no part but their own. -/
theorem holds_foldl_of_not_mem
    (hOther : setting.key ∉ settings.map Setting.key)
    (hHolds : setting.Holds d) :
    setting.Holds (settings.foldl Setting.apply d) := by
  induction settings generalizing d with
  | nil => exact hHolds
  | cons first settings ih =>
      rw [List.map_cons, List.mem_cons, not_or] at hOther
      exact
        ih hOther.2
          (Setting.holds_apply_of_ne hOther.1 hHolds)

/- Without a repeated key, no setting is lost. -/
theorem holds_foldl_of_mem
    (hKeys : (settings.map Setting.key).Nodup)
    (hSetting : setting ∈ settings) :
    setting.Holds (settings.foldl Setting.apply d) := by
  induction settings generalizing d with
  | nil => cases hSetting
  | cons first settings ih =>
      rw [List.map_cons, List.nodup_cons] at hKeys
      rcases List.mem_cons.mp hSetting with rfl | hLater
      · rw [List.foldl_cons]
        exact
          holds_foldl_of_not_mem hKeys.1 Setting.holds_apply
      · exact ih hKeys.2 hLater

/- Settings override the parts of the standard dialect. -/
theorem overrides_foldl
    (hKeys : (settings.map Setting.key).Nodup) :
    Overrides settings
      (settings.foldl Setting.apply Dialect.standard) where
  given _ hSetting := holds_foldl_of_mem hKeys hSetting
  standard _ hOther hHolds :=
    holds_foldl_of_not_mem hOther hHolds

/-
  A document defines the dialect of its settings, unless
  that has a flaw.
-/
theorem ofDocument_of_read
    {text : List Char}
    (hRead : read text = some settings)
    (hDialect :
      settings.foldl Setting.apply Dialect.standard = d) :
    Dialect.ofDocument (String.ofList text) =
      (d.validate.mapError .flawed).map fun _ => d := by
  rw [Dialect.ofDocument, String.toList_ofList, hRead]
  simp only [hDialect, Dialect.validate]
  cases d.flaw? <;> rfl

/- What cannot be read is malformed. -/
theorem ofDocument_of_read_none
    {text : List Char}
    (hRead : read text = none) :
    Dialect.ofDocument (String.ofList text) =
      .error .malformed := by
  rw [Dialect.ofDocument, String.toList_ofList, hRead]

/-
  Settings of any values and in any order can be written as a
  document. It defines the standard dialect with the parts
  that are set, if this dialect is valid, and has the flaw of
  the dialect otherwise. It is malformed if a part is set
  twice, and so is every text that sets something else after
  lines of settings.
-/
theorem ofDocument_of_written :
    (∀ settings, ∃ text, Written settings text) ∧
      (∀ settings text,
        Written settings text →
          ((settings.map Setting.key).Nodup →
              ∃ d,
                Overrides settings d ∧
                  Dialect.ofDocument (String.ofList text) =
                    (d.validate.mapError .flawed).map
                      fun _ => d) ∧
            (¬ (settings.map Setting.key).Nodup →
              Dialect.ofDocument (String.ofList text) =
                .error .malformed)) ∧
      ∀ settings lines margin other rest,
        WritesLines settings lines →
          Spaces margin →
            StartsOther other →
              Dialect.ofDocument
                  (String.ofList
                    (lines ++ (margin ++ (other ++ rest)))) =
                .error .malformed := by
  refine ⟨exists_written, ?_, ?_⟩
  · intro settings text hText
    have hRead := read_of_written hText
    refine ⟨fun hKeys => ?_, fun hKeys => ?_⟩
    · rw [if_pos hKeys] at hRead
      exact
        ⟨_, overrides_foldl hKeys,
          ofDocument_of_read hRead rfl⟩
    · rw [if_neg hKeys] at hRead
      exact ofDocument_of_read_none hRead
  · intro settings lines margin other rest hLines hMargin
      hOther
    exact
      ofDocument_of_read_none
        (read_of_startsOther hLines hMargin hOther rest)

/- A comment start that is set hides a marker that is not. -/
theorem ofDocument_of_hidden_marker :
    Dialect.ofDocument
        ("comment_prefixes=[\"\x7b\"]\n" ++
          "group_close=\"\\\"\"") =
      .error (.flawed (.commentMarker "\x7b")) := by
  have hPlain : WritesCharacter '\x7b' ['\x7b'] :=
    .plain (by decide) (by decide)
  have hBrace : WritesText "\x7b".toList ['\x7b'] :=
    .cons hPlain .nil
  have hStarts :
      WritesSetting (.commentStarts ["\x7b"]) _ :=
    .equals (writesKey_key _) spaces_nil spaces_nil
      (.commentStarts (.last .nil (.quotes hBrace) .nil))
  have hQuote : WritesCharacter '"' ['\\', '"'] :=
    .short (by decide)
  have hMarker : WritesText "\"".toList ['\\', '"'] :=
    .cons hQuote .nil
  have hClose : WritesSetting (.groupClose "\"") _ :=
    .equals (writesKey_key _) spaces_nil spaces_nil
      (.groupClose (.quotes hMarker))
  have hNone : Trailer [] := .spaces spaces_nil
  have hText :=
    Written.lines
      (.cons (.setting spaces_nil hStarts hNone) .feed .nil)
      (.setting spaces_nil hClose hNone)
  rcases (ofDocument_of_written.2.1 _ _ hText).1
      (by decide) with
    ⟨d, hParts, hDialect⟩
  cases d with
  | mk groupOpen groupClose commentStarts =>
      obtain rfl : groupOpen = "\x7b" :=
        hParts.standard (.groupOpen "\x7b") (by decide) rfl
      obtain rfl : groupClose = "\"" :=
        hParts.given (.groupClose "\"") (by decide)
      obtain rfl : commentStarts = ["\x7b"] :=
        hParts.given (.commentStarts ["\x7b"]) (by decide)
      exact hDialect

end Dialects

end Document

end CommandScript
