import CommandScript.Proofs.Layout
import CommandScript.Proofs.ValidMarkers

/-
  The comment starts of an accepted dialect. A start that is
  one line, without blanks around it, makes a comment of
  every line it is put in front of. Lines are trimmed before
  they are compared, though, so a start with a blank at an
  end, or with a line feed, is accepted as well and need not
  make a comment of anything.

  Key definitions include:
    * `Language.Ignores`
    * `Dialect.Shields`

  Main statements:
    * `Text.trim_prefix_trim_append`
    * `Language.parse_eq_nothing_iff`
    * `Language.ignores_iff`
    * `Language.parse_of_comment_start`
-/

namespace CommandScript

namespace Text

------------------------------------------------------------
-- Trimming What Is Put Together
------------------------------------------------------------

/-
  The trimmed text, if there is any, still comes first when
  more text follows and all of it is trimmed.
-/
theorem trim_prefix_trim_append
    {s : List Char}
    (hSome : trim s ≠ [])
    (t : List Char) :
    trim s <+: trim (s ++ t) := by
  rcases exists_padding s with
    ⟨left, right, hLeft, _, hText⟩
  rcases stopsAt_trim s with ⟨hStart, hEnd⟩
  generalize trim s = core at *
  rcases exists_trimEnd (right ++ t) with
    ⟨blanks, hBlanks, hRest⟩
  have hRestEnd := stopsAt_reverse_trimEnd (right ++ t)
  generalize trimEnd (right ++ t) = rest at *
  have hTrim : trim (s ++ t) = trim (core ++ rest) := by
    have hWhole :
        s ++ t = left ++ (core ++ rest) ++ blanks := by
      rw [hText, List.append_assoc, hRest]
      simp only [List.append_assoc]
    rw [hWhole, trim_padded hLeft hBlanks]
  have hStops :
      StopsAt isBlank (core ++ rest).reverse := by
    rw [List.reverse_append]
    cases rest with
    | nil => exact hEnd
    | cons c rest =>
        exact stopsAt_append (by simp) hRestEnd
  rw [hTrim,
    trim_of_stopsAt (stopsAt_append hSome hStart) hStops]
  exact List.prefix_append core rest

/- More text on the last line only makes that one longer. -/
theorem exists_last_segment
    (s : List Char) :
    ∃ early last,
      segments s = early ++ [last] ∧
        ∀ t, '\n' ∉ t →
          segments (s ++ t) = early ++ [last ++ t] := by
  induction s using segment_induction with
  | last raw hFree =>
      refine ⟨[], raw, segments_of_free hFree, ?_⟩
      intro t ht
      apply segments_of_free
      rw [List.mem_append, not_or]
      exact ⟨hFree, ht⟩
  | line raw rest hFree ih =>
      rcases ih with ⟨early, last, hRest, hMore⟩
      refine ⟨raw :: early, last, ?_, ?_⟩
      · rw [segments_append_feed hFree, hRest]
        rfl
      · intro t ht
        rw [List.append_assoc, List.cons_append,
          segments_append_feed hFree, hMore t ht]
        rfl

end Text

------------------------------------------------------------
-- Skipped Lines
------------------------------------------------------------

namespace Dialect

variable {d : Dialect}
variable {raw : List Char}

/-
  The lines of a text are skipped if its segments are. These
  differ in blanks at their ends, and an empty last segment
  is no line.
-/
theorem forall_lines_skipped_iff
    (d : Dialect)
    {ending : List Char}
    (hEnding : ending = [] ∨ ending = ['\n'])
    (s : List Char) :
    (∀ raw ∈ Text.lines (s ++ ending),
        d.role raw = .skipped) ↔
      ∀ segment ∈ Text.segments s,
        d.role segment = .skipped := by
  induction s using Text.segment_induction with
  | last raw hFree =>
      rw [Text.segments_of_free hFree]
      rcases hEnding with rfl | rfl
      · rw [List.append_nil]
        cases raw with
        | nil =>
            have hEmpty : d.role [] = .skipped :=
              role_eq_skipped_iff.mpr (.inl rfl)
            exact
              iff_of_true (List.forall_mem_nil _)
                (List.forall_mem_singleton.mpr hEmpty)
        | cons c rest =>
            rw [Text.lines_of_free hFree
              (List.cons_ne_nil c rest)]
      · rw [Text.lines_append_feed hFree, Text.lines,
          List.forall_mem_singleton,
          List.forall_mem_singleton,
          d.role_congr (Text.trim_chomp raw)]
  | line raw rest hFree ih =>
      rw [List.append_assoc, List.cons_append,
        Text.lines_append_feed hFree,
        Text.segments_append_feed hFree,
        List.forall_mem_cons, List.forall_mem_cons, ih,
        d.role_congr (Text.trim_chomp raw)]

/- What starts with a comment is one. -/
theorem isComment_of_isPrefixOf
    {line line' : List Char}
    (hPrefix : line <+: line')
    (hComment : d.isComment line = true) :
    d.isComment line' = true := by
  rcases List.any_eq_true.mp hComment with
    ⟨start, hStart, hLine⟩
  rw [List.isPrefixOf_iff_prefix] at hLine
  refine List.any_eq_true.mpr ⟨start, hStart, ?_⟩
  exact
    List.isPrefixOf_iff_prefix.mpr (hLine.trans hPrefix)

/- No accepted comment is empty. -/
theorem IsAccepted.ne_nil_of_isComment
    (hAccepted : d.IsAccepted)
    (hComment : d.isComment raw = true) :
    raw ≠ [] := by
  rintro rfl
  rcases List.any_eq_true.mp hComment with
    ⟨start, hStart, hLine⟩
  rw [List.isPrefixOf_iff_prefix, List.prefix_nil] at hLine
  apply hAccepted.starts start hStart
  rw [hLine]
  rfl

/- What is behind a comment belongs to it. -/
theorem IsAccepted.isComment_trim_append
    (hAccepted : d.IsAccepted)
    (hComment : d.isComment (Text.trim raw) = true)
    (t : List Char) :
    d.isComment (Text.trim (raw ++ t)) = true := by
  have hSome := hAccepted.ne_nil_of_isComment hComment
  exact
    isComment_of_isPrefixOf
      (Text.trim_prefix_trim_append hSome t) hComment

/-
  Some text behind blanks is no comment, since the markers
  start with something that is none.
-/
theorem IsAccepted.exists_uncommented
    (hAccepted : d.IsAccepted)
    (hBlank : Text.trim raw = []) :
    ∃ t, '\n' ∉ t ∧ d.role (raw ++ t) ≠ .skipped := by
  have hTrimmed := hAccepted.trimmed.1
  have hOpen := hAccepted.uncommented.1
  have hStops :=
    (Text.stopsAt_trim d.groupOpen.toList).1
  rw [hTrimmed] at hStops
  cases hMarker : d.groupOpen.toList with
  | nil => exact absurd hMarker hAccepted.some.1
  | cons c rest =>
      rw [hMarker] at hStops hOpen
      have hSolid := Text.stopsAt_cons.mp hStops
      refine ⟨[c], ?_, ?_⟩
      · intro hFeed
        rw [← List.mem_singleton.mp hFeed] at hSolid
        cases hSolid
      · have hBlanks : Text.Blanks raw := by
          rcases Text.exists_padding raw with
            ⟨left, right, hLeft, hRight, hRaw⟩
          rw [hBlank, List.append_nil] at hRaw
          exact hRaw ▸ hLeft.append hRight
        have hTrim : Text.trim (raw ++ [c]) = [c] := by
          have hOne : Text.trim [c] = [c] :=
            Text.trim_of_stopsAt
              (Text.stopsAt_cons.mpr hSolid)
              (Text.stopsAt_cons.mpr hSolid)
          have hPadded :=
            Text.trim_of_padded hBlanks
              (List.forall_mem_nil _) hOne
          rwa [List.append_nil] at hPadded
        rw [Ne, role_eq_skipped_iff, hTrim, not_or]
        refine ⟨List.cons_ne_nil c [], ?_⟩
        intro hComment
        have hPrefix : [c] <+: c :: rest :=
          ⟨rest, rfl⟩
        rw [isComment_of_isPrefixOf hPrefix hComment] at hOpen
        cases hOpen

/-
  A start makes comments: its lines are skipped, and without
  more text behind it the last one is a comment already.
-/
def Shields
    (d : Dialect)
    (start : List Char) : Prop :=
  ∃ early last,
    Text.segments start = early ++ [last] ∧
      (∀ segment ∈ early, d.role segment = .skipped) ∧
        d.isComment (Text.trim last) = true

/- Whatever stands behind a start that makes comments. -/
theorem shields_iff
    (hAccepted : d.IsAccepted)
    {start : List Char} :
    d.Shields start ↔
      ∀ t, '\n' ∉ t →
        ∀ segment ∈ Text.segments (start ++ t),
          d.role segment = .skipped := by
  rcases Text.exists_last_segment start with
    ⟨early, last, hStart, hMore⟩
  constructor
  · rintro ⟨early', last', hStart', hEarly, hLast⟩ t ht
    rw [hStart] at hStart'
    rcases List.append_inj' hStart' rfl with ⟨rfl, hSame⟩
    cases hSame
    rw [hMore t ht, List.forall_mem_append,
      List.forall_mem_singleton, role_eq_skipped_iff]
    exact
      ⟨hEarly,
        .inr (hAccepted.isComment_trim_append hLast t)⟩
  · intro hSkipped
    have hSplit
        (t : List Char)
        (ht : '\n' ∉ t) :=
      List.forall_mem_append.mp
        (hMore t ht ▸ hSkipped t ht)
    rcases hSplit [] List.not_mem_nil with ⟨hEarly, hLast⟩
    rw [List.append_nil, List.forall_mem_singleton,
      role_eq_skipped_iff] at hLast
    refine ⟨early, last, hStart, hEarly, ?_⟩
    rcases hLast with hBlank | hComment
    · rcases hAccepted.exists_uncommented hBlank with
        ⟨t, ht, hOther⟩
      exact
        absurd
          (List.forall_mem_singleton.mp (hSplit t ht).2)
          hOther
    · exact hComment

end Dialect

namespace Language

variable {κ : Type}

------------------------------------------------------------
-- Texts That Are Ignored
------------------------------------------------------------

section Nothing

variable (l : Language κ)

/- Lines without a site are no entries. -/
theorem isEntry_of_sites_eq_nil
    {before raws : List (List Char)}
    (hNone : l.dialect.sitesFrom before raws = []) :
    ∀ raw ∈ raws, (l.dialect.role raw).isEntry = false := by
  induction raws generalizing before with
  | nil => exact List.forall_mem_nil _
  | cons raw raws ih =>
      unfold Dialect.sitesFrom at hNone
      simp only at hNone
      split at hNone
      · cases hNone
      · rename_i hEntry
        exact
          List.forall_mem_cons.mpr
            ⟨by simpa using hEntry, ih hNone⟩

/- There is nothing in a tree if all lines are skipped. -/
theorem parse_eq_nothing_iff
    (text : String) :
    l.parse text = .ok ⟨.idle, []⟩ ↔
      ∀ raw ∈ Text.lines text.toList,
        l.dialect.role raw = .skipped := by
  constructor
  · intro hParse raw hRaw
    have hNone :=
      List.forall₂_nil_right_iff.mp (shows_of_parse hParse).2
    have hEntries := l.isEntry_of_sites_eq_nil hNone
    -- What is not opened cannot be closed.
    have hBalanced :=
      ((l.parse_ok_iff text).mp ⟨_, hParse⟩).2.2
    have hOpenings :
        l.dialect.openings (Text.lines text.toList) = 0 := by
      apply List.countP_eq_zero.mpr
      intro other hOther hRole
      have hEntry := hEntries other hOther
      rw [decide_eq_true_eq] at hRole
      rw [hRole] at hEntry
      cases hEntry
    rw [hOpenings] at hBalanced
    have hClosing :=
      List.countP_eq_zero.mp hBalanced.symm raw hRaw
    have hEntry := hEntries raw hRaw
    cases hRole : l.dialect.role raw with
    | skipped => rfl
    | closing => simp [hRole] at hClosing
    | opening | command line =>
        rw [hRole] at hEntry
        cases hEntry
  · intro hSkipped
    rw [l.parse_eq_readLines, l.readLines_of_skipped hSkipped]
    rfl

/-
  A text is ignored. Alone it is a script with nothing in
  it. Among the lines of another text, whether a line feed
  follows it or not, it only moves the lines after it.
-/
structure Ignores (piece : List Char) : Prop where
  alone :
    l.parse (String.ofList piece) = .ok ⟨.idle, []⟩
  among :
    ∀ (text text' : String) before ending,
      ending = [] ∨ ending = ['\n'] →
        let inserted := Text.lines (piece ++ ending)
        Text.InsertsAll before inserted text.toList
            text'.toList →
          l.parse text' =
            (l.parse text).renumber Group.renumber
              (Text.makeRoomFor before.length
                inserted.length)

/- A text is ignored if all its segments are skipped. -/
theorem ignores_iff
    {piece : List Char} :
    l.Ignores piece ↔
      ∀ segment ∈ Text.segments piece,
        l.dialect.role segment = .skipped := by
  have hLines
      {ending : List Char}
      (hEnding : ending = [] ∨ ending = ['\n']) :=
    l.dialect.forall_lines_skipped_iff hEnding piece
  have hAlone :=
    l.parse_eq_nothing_iff (String.ofList piece)
  have hWhole := hLines (.inl rfl)
  rw [List.append_nil] at hWhole
  rw [String.toList_ofList, hWhole] at hAlone
  constructor
  · exact fun hIgnores => hAlone.mp hIgnores.alone
  · intro hSkipped
    refine ⟨hAlone.mpr hSkipped, ?_⟩
    intro text text' before ending hEnding inserted hInserts
    exact
      l.parse_of_insertsAll hInserts
        ((hLines hEnding).mpr hSkipped)

end Nothing

/-
  A comment start of an accepted dialect. If it is trimmed
  and has no line feed in it, every line that it is put in
  front of is ignored. In general this is so exactly if its
  lines are skipped and the last one is a comment, trimmed
  and without anything behind it. Whether a line with a
  start in front is ignored is decided by its trimmed text.
-/
theorem parse_of_comment_start
    (l : Language κ)
    (hValid : l.dialect.validate = .ok ())
    {start : String}
    (hStart : start ∈ l.dialect.commentStarts) :
    (Text.trim start.toList = start.toList →
      '\n' ∉ start.toList →
        ∀ t, '\n' ∉ t → l.Ignores (start.toList ++ t)) ∧
    ((∀ t, '\n' ∉ t → l.Ignores (start.toList ++ t)) ↔
      l.dialect.Shields start.toList) ∧
    ('\n' ∉ start.toList →
      ∀ t, '\n' ∉ t →
        (l.Ignores (start.toList ++ t) ↔
          l.dialect.isComment
              (Text.trim (start.toList ++ t)) =
            true)) := by
  have hAccepted := Dialect.isAccepted_of_validate hValid
  have hShields :
      l.dialect.Shields start.toList ↔
        ∀ t, '\n' ∉ t → l.Ignores (start.toList ++ t) := by
    rw [Dialect.shields_iff hAccepted]
    simp only [l.ignores_iff]
  refine ⟨?_, hShields.symm, ?_⟩
  · intro hTrimmed hFree
    have hComment :
        l.dialect.isComment start.toList = true :=
      List.any_eq_true.mpr
        ⟨start, hStart,
          List.isPrefixOf_iff_prefix.mpr List.prefix_rfl⟩
    apply hShields.mp
    refine
      ⟨[], start.toList, Text.segments_of_free hFree,
        List.forall_mem_nil _, ?_⟩
    rw [hTrimmed]
    exact hComment
  · intro hFree t ht
    have hWhole : '\n' ∉ start.toList ++ t := by
      rw [List.mem_append, not_or]
      exact ⟨hFree, ht⟩
    have hSome := hAccepted.starts start hStart
    have hNonempty :
        Text.trim (start.toList ++ t) ≠ [] := by
      intro hNone
      have hPrefix := Text.trim_prefix_trim_append hSome t
      rw [hNone, List.prefix_nil] at hPrefix
      exact hSome hPrefix
    rw [l.ignores_iff, Text.segments_of_free hWhole,
      List.forall_mem_singleton,
      Dialect.role_eq_skipped_iff,
      or_iff_right hNonempty]

/- A start with another one in it, and one with a marker. -/
theorem parse_of_comment_start_before_marker :
    let d : Dialect :=
      ⟨"\x7b", "\x7d", ["#", "# ", "\x7b-", "\u00a0#\n#"]⟩
    let l : Language Builtin := ⟨Builtin.registry, d⟩
    d.validate = .ok () ∧
      l.Ignores "\x7b-\x7d\r".toList ∧
      l.Ignores "# ".toList ∧
      ∀ t, '\n' ∉ t →
        l.Ignores ("\u00a0#\n#".toList ++ t) := by
  intro d l
  have hValid : l.dialect.validate = .ok () := by decide
  have hLaw
      {start : String}
      (hStart : start ∈ l.dialect.commentStarts) :=
    parse_of_comment_start l hValid hStart
  have hMarked : "\x7b-" ∈ d.commentStarts := by decide
  have hPadded : "# " ∈ d.commentStarts := by decide
  have hBroken : "\u00a0#\n#" ∈ d.commentStarts := by decide
  refine
    ⟨hValid,
      (hLaw hMarked).1 (by decide) (by decide)
        "\x7d\r".toList (by decide),
      ((hLaw hPadded).2.2 (by decide) [] (by decide)).mpr
        (by decide),
      (hLaw hBroken).2.1.mpr ?_⟩
  exact
    ⟨["\u00a0#".toList], "#".toList, by decide, by decide,
      by decide⟩

/- A start behind a blank is accepted and starts nothing. -/
theorem not_parse_of_comment_start :
    ¬ ∀ (l : Language Builtin) (start : String) t,
      l.dialect.validate = .ok () →
        start ∈ l.dialect.commentStarts →
        '\n' ∉ t →
          l.parse (String.ofList (start.toList ++ t)) =
            .ok ⟨.idle, []⟩ := by
  intro hSound
  let l : Language Builtin :=
    ⟨Builtin.registry, ⟨"\x7b", "\x7d", [" #"]⟩⟩
  have hRefused :
      l.parse
          (String.ofList (" #".toList ++ " note".toList)) =
        .error
          (.error (.malformed 1 (.invalidKind "#"))) := by
    simp only [l]
    with_unfolding_all rfl
  have hParse :=
    hSound l " #" " note".toList (by decide) (by decide)
      (by decide)
  rw [hRefused] at hParse
  cases hParse

end Language

end CommandScript
