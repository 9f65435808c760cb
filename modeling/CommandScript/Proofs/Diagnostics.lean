import CommandScript.Diagnostic
import CommandScript.Proofs.Lines
import CommandScript.Proofs.Parsing
import CommandScript.Proofs.SingleLines

/-
  The report on a script that cannot be parsed. Nothing that
  is written in the script can end a line of the report, so
  the report has the lines it was made with and no others.

  Key definitions include:
    * `Registry.IsTidy`
    * `Diagnostic.lines`

  Main statements:
    * `Builtin.registry_isTidy`
    * `Language.oneLine_of_parse`
    * `Diagnostic.segments_render`
    * `Diagnostic.parseFailed_has_its_lines`
-/

namespace CommandScript

open Text (OneLine)

------------------------------------------------------------
-- Refusals of a Registry
------------------------------------------------------------

/-
  Whatever a registry refuses to make of parameters whose
  keys are on one line, it says so on one line.
-/
def Registry.IsTidy
    {κ : Type}
    (r : Registry κ) : Prop :=
  ∀ kind params cause,
    (∀ key, params.Has key → OneLine key) →
      r.construct kind params =
          some (Attempt.reject cause) →
        OneLine cause.message

theorem Builtin.registry_isTidy : registry.IsTidy := by
  intro kind params cause hKeys hMade
  rcases construct_eq_some_iff.mp hMade with
    ⟨command, _, hRefused⟩
  exact oneLine_of_configure hKeys hRefused

------------------------------------------------------------
-- Parse Errors
------------------------------------------------------------

/- The number in front of a finding is on its line. -/
theorem ParseError.oneLine_message
    {cause : ParseError}
    (hFinding : OneLine cause.finding) :
    OneLine cause.message := by
  unfold message
  simp only [Text.oneLine_append, Text.oneLine_toString,
    hFinding, and_true]
  simp [OneLine]

namespace Language

variable {κ : Type}
variable {l : Language κ}
variable {cause : ParseError}

/- Why a line is refused is said on one line. -/
theorem Refuses.oneLine
    {number : Nat}
    {text : List Char}
    (hTidy : l.registry.IsTidy)
    (hRefuses : l.Refuses number text (.error cause)) :
    OneLine cause.finding := by
  unfold ParseError.finding
  cases hRefuses with
  | malformed hRead =>
      apply Text.oneLine_append.mpr
      exact
        ⟨by simp [OneLine],
          Invocation.oneLine_of_read_error hRead⟩
  | unknownKind hRead hKind =>
      apply Text.oneLine_append.mpr
      exact
        ⟨by simp [OneLine],
          (Invocation.oneLine_of_read hRead).1⟩
  | configuration hRead hCause =>
      rcases Invocation.oneLine_of_read hRead with
        ⟨hKind, hKeys⟩
      have hMessage := hTidy _ _ _ hKeys hCause
      simp only [Text.oneLine_append, hKind, hMessage,
        and_true]
      simp [OneLine]

/- Why a text is no script is said on one line. -/
theorem oneLine_of_parse
    {text : String}
    (hTidy : l.registry.IsTidy)
    (hParse : l.parse text = .error (.error cause)) :
    OneLine cause.message := by
  apply ParseError.oneLine_message
  rcases l.parse_error_or_ok text with
    ⟨before, raw, after, halt, _, _, hFlaw, hError⟩ |
    ⟨number, _, _, _, hError⟩ |
    ⟨root, _, _, hOk⟩
  · rw [hParse] at hError
    cases hError
    cases hFlaw with
    | unexpectedClose hRole hNone =>
        unfold ParseError.finding
        simp [OneLine]
    | refused hRole hRefuses => exact hRefuses.oneLine hTidy
  · rw [hParse] at hError
    cases hError
    unfold ParseError.finding
    simp [OneLine]
  · rw [hParse] at hOk
    cases hOk

end Language

------------------------------------------------------------
-- Reports
------------------------------------------------------------

namespace Diagnostic

/- The lines that a report is to have. -/
def lines (d : Diagnostic) : List String :=
  ("error: " ++ d.headline) ::
    (d.notes.map ("  note: " ++ ·) ++
      d.helps.map ("  help: " ++ ·))

theorem render_toList
    (d : Diagnostic) :
    d.render.toList =
      Text.joined (d.lines.map String.toList) := by
  simp [render, lines, Text.joined, String.toList_join,
    List.flatMap_map]

/- No part of a line ends it early. -/
theorem oneLine_of_mem_lines
    {d : Diagnostic}
    (hHeadline : OneLine d.headline)
    (hNotes : ∀ note ∈ d.notes, OneLine note)
    (hHelps : ∀ help ∈ d.helps, OneLine help)
    {line : String}
    (hLine : line ∈ d.lines) :
    OneLine line := by
  have hError : OneLine "error: " := by simp [OneLine]
  have hNote : OneLine "  note: " := by simp [OneLine]
  have hHelp : OneLine "  help: " := by simp [OneLine]
  rcases List.mem_cons.mp hLine with rfl | hRest
  · exact Text.oneLine_append.mpr ⟨hError, hHeadline⟩
  · rcases List.mem_append.mp hRest with hMem | hMem
    · rcases List.mem_map.mp hMem with ⟨note, hIn, rfl⟩
      exact Text.oneLine_append.mpr ⟨hNote, hNotes note hIn⟩
    · rcases List.mem_map.mp hMem with ⟨help, hIn, rfl⟩
      exact Text.oneLine_append.mpr ⟨hHelp, hHelps help hIn⟩

/- A report has its lines, if each part is on one line. -/
theorem segments_render
    {d : Diagnostic}
    (hHeadline : OneLine d.headline)
    (hNotes : ∀ note ∈ d.notes, OneLine note)
    (hHelps : ∀ help ∈ d.helps, OneLine help) :
    Text.segments d.render.toList =
      d.lines.map String.toList ++ [[]] := by
  rw [render_toList]
  apply Text.segments_joined
  intro raw hRaw
  rcases List.mem_map.mp hRaw with ⟨line, hLine, rfl⟩
  exact oneLine_of_mem_lines hHeadline hNotes hHelps hLine

/- The notes on a parse error are on one line each. -/
theorem oneLine_of_mem_parseNotes
    {kinds : List String}
    {cause : ParseError}
    {note : String}
    (hKinds : OneLine (String.intercalate ", " kinds))
    (hNote : note ∈ parseNotes kinds cause) :
    OneLine note := by
  unfold parseNotes at hNote
  split at hNote
  · rw [List.mem_singleton.mp hNote, Text.oneLine_append]
    exact ⟨by simp [OneLine], hKinds⟩
  · rw [List.mem_singleton.mp hNote]
    simp [OneLine]
  · cases hNote

/- So is the help on it. -/
theorem oneLine_of_mem_parseHelps
    {cause : ParseError}
    {help : String}
    (hHelp : help ∈ parseHelps cause) :
    OneLine help := by
  unfold parseHelps at hHelp
  split at hHelp
  all_goals
    first
    | cases hHelp; done
    | rw [List.mem_singleton.mp hHelp]
      simp [OneLine]

/-
  The report on a script that cannot be parsed is the one it
  looks like. What went wrong is said without line feeds,
  whatever the script has in its kinds, keys and values, and
  the lines of the report are the one with the headline, one
  for each note and one for each help.
-/
theorem parseFailed_has_its_lines
    (dialect : Dialect)
    (script text : String)
    (cause : ParseError)
    (hScript : OneLine script)
    (hParse :
      (⟨Builtin.registry, dialect⟩ :
          Language Builtin).parse text =
        .error (.error cause)) :
    let d := parseFailed script Builtin.registry.kinds cause
    OneLine cause.message ∧
      Text.segments d.render.toList =
        ("error: " ++ d.headline).toList ::
            (d.notes.map
                (fun note => ("  note: " ++ note).toList) ++
              d.helps.map
                fun help => ("  help: " ++ help).toList) ++
          [[]] := by
  intro d
  have hMessage : OneLine cause.message :=
    Language.oneLine_of_parse Builtin.registry_isTidy hParse
  have hHeadline : OneLine d.headline := by
    change OneLine (script ++ ": " ++ cause.message)
    simp only [Text.oneLine_append, hScript, hMessage,
      and_true, true_and]
    simp [OneLine]
  have hKinds :
      OneLine
        (String.intercalate ", " Builtin.registry.kinds) := by
    unfold OneLine
    decide +kernel
  have hRender : Text.segments d.render.toList = _ :=
    segments_render hHeadline
      (fun _ hNote => oneLine_of_mem_parseNotes hKinds hNote)
      (fun _ hHelp => oneLine_of_mem_parseHelps hHelp)
  simp only [lines, List.map_cons, List.map_append,
    List.map_map] at hRender
  exact ⟨hMessage, hRender⟩

/- A value that would add a line of help, and does not. -/
theorem parseFailed_has_its_lines_of_escaped_feed :
    let l : Language Builtin :=
      ⟨Builtin.registry, .standard⟩
    let text := "delay seconds=\"\\n  help: forged\""
    let cause : ParseError :=
      .configuration "delay" 1
        (.invalidValue "seconds" "\n  help: forged"
          (.literal .invalid))
    let d :=
      parseFailed "a.txt" Builtin.registry.kinds cause
    l.parse text = .error (.error cause) ∧
      OneLine cause.message ∧
      Text.segments d.render.toList =
        ("error: " ++ d.headline).toList ::
            (d.notes.map
                (fun note => ("  note: " ++ note).toList) ++
              d.helps.map
                fun help => ("  help: " ++ help).toList) ++
          [[]] := by
  intro l text cause d
  have hParse : l.parse text = .error (.error cause) := by
    simp only [l, text, cause]
    with_unfolding_all rfl
  exact
    ⟨hParse,
      parseFailed_has_its_lines .standard "a.txt" text cause
        (by simp [OneLine]) hParse⟩

end Diagnostic

end CommandScript
