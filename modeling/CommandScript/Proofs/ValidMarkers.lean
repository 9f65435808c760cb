import CommandScript.Builtin
import CommandScript.Proofs.Documents
import CommandScript.Proofs.ParsedTree

/-
  The markers of an accepted dialect, used to write nested
  groups. A marker without a line feed opens and closes
  groups wherever it stands on a line of its own. One with a
  line feed is accepted as well, but no line is equal to it,
  so no text in that dialect has a group.

  Key definitions include:
    * `Dialect.IsAccepted`

  Main statements:
    * `Dialect.isAccepted_of_validate`
    * `Dialect.isClear_of_validate`
    * `Text.free_of_mem_lines`
    * `Language.depth_of_broken_marker`
    * `Language.parse_of_valid_markers`
-/

namespace CommandScript

------------------------------------------------------------
-- Accepted Markers
------------------------------------------------------------

namespace Dialect

variable {d : Dialect}

/-
  What is accepted: markers that are trimmed, not empty and
  not the same, comments that start with more than blanks,
  and no marker that is a comment.
-/
structure IsAccepted (d : Dialect) : Prop where
  some :
    d.groupOpen.toList ≠ [] ∧ d.groupClose.toList ≠ []
  trimmed :
    Text.trim d.groupOpen.toList = d.groupOpen.toList ∧
      Text.trim d.groupClose.toList = d.groupClose.toList
  distinct : d.groupOpen ≠ d.groupClose
  starts :
    ∀ start ∈ d.commentStarts, Text.trim start.toList ≠ []
  uncommented :
    d.isComment d.groupOpen.toList = false ∧
      d.isComment d.groupClose.toList = false

theorem isAccepted_of_validate
    (hValid : d.validate = .ok ()) :
    d.IsAccepted := by
  have hFlaw : d.flaw? = none := by
    unfold validate at hValid
    split at hValid
    · cases hValid
    · assumption
  unfold flaw? at hFlaw
  simp only at hFlaw
  split at hFlaw
  · cases hFlaw
  rename_i hSome
  split at hFlaw
  · cases hFlaw
  rename_i hPadded
  split at hFlaw
  · cases hFlaw
  rename_i hDistinct
  split at hFlaw
  · cases hFlaw
  rename_i hStarts
  simp only [Bool.or_eq_true, bne_iff_ne, ne_eq, not_or,
    Decidable.not_not] at hPadded
  simp only [hPadded, Bool.or_eq_true, List.isEmpty_iff,
    not_or] at hSome
  simp only [List.find?_eq_none, List.isEmpty_iff]
    at hStarts
  simp only [Option.map_eq_none_iff, List.find?_eq_none,
    List.mem_cons, List.not_mem_nil, or_false,
    forall_eq_or_imp, forall_eq, Bool.not_eq_true] at hFlaw
  exact ⟨hSome, hPadded, hDistinct, hStarts, hFlaw⟩

/- An accepted dialect is clear if its markers are lines. -/
theorem isClear_of_validate
    (hValid : d.validate = .ok ())
    (hOpen : '\n' ∉ d.groupOpen.toList)
    (hClose : '\n' ∉ d.groupClose.toList) :
    d.IsClear := by
  have hAccepted := isAccepted_of_validate hValid
  exact
    ⟨⟨hAccepted.some.1, hAccepted.trimmed.1, hOpen,
        hAccepted.uncommented.1⟩,
      ⟨hAccepted.some.2, hAccepted.trimmed.2, hClose,
        hAccepted.uncommented.2⟩,
      hAccepted.distinct⟩

end Dialect

------------------------------------------------------------
-- Broken Markers
------------------------------------------------------------

namespace Text

/- No line feed is part of a line. -/
theorem free_of_mem_lines
    {s raw : List Char}
    (hLine : raw ∈ lines s) :
    '\n' ∉ raw := by
  induction s using segment_induction with
  | last only hFree =>
      cases only with
      | nil => cases hLine
      | cons c rest =>
          rw [lines_of_free hFree (List.cons_ne_nil c rest)]
            at hLine
          rw [List.mem_singleton.mp hLine]
          exact hFree
  | line first rest hFree ih =>
      rw [lines_append_feed hFree] at hLine
      rcases List.mem_cons.mp hLine with rfl | hLine
      · rcases exists_chomp first with ⟨right, _, hFirst⟩
        rw [hFirst, List.mem_append, not_or] at hFree
        exact hFree.1
      · exact ih hLine

/- Trimming brings in no line feed. -/
theorem free_trim
    {raw : List Char}
    (hFree : '\n' ∉ raw) :
    '\n' ∉ trim raw := by
  rcases exists_padding raw with ⟨left, right, _, _, hRaw⟩
  rw [hRaw, List.mem_append, List.mem_append, not_or,
    not_or] at hFree
  exact hFree.1.2

end Text

namespace Language

variable {κ : Type}

/- The depth of a tree is the peak of its text. -/
theorem peaks_of_parse
    {l : Language κ}
    {text : String}
    {root : Group κ}
    (hParse : l.parse text = .ok root) :
    l.dialect.Peaks (Text.lines text.toList) root.depth :=
    by
  rcases l.parse_cases text with
    ⟨draft, hDrafted, hDraft⟩ |
    ⟨_, _, _, _, halt, _, _, _, hError⟩
  · rw [hParse] at hDraft
    rcases Draft.rows_of_finish hDraft.symm with ⟨_, hRows⟩
    have hPeaks := hDrafted.peaks
    rw [← hRows, ← root.depth_eq_peak] at hPeaks
    exact hPeaks
  · rw [hParse] at hError
    cases hError

/- Where no line opens a group there is none. -/
theorem depth_of_openings
    {l : Language κ}
    {text : String}
    {root : Group κ}
    (hParse : l.parse text = .ok root)
    (hNone :
      l.dialect.openings (Text.lines text.toList) = 0) :
    root.depth = 0 := by
  rcases peaks_of_parse hParse with
    ⟨_, part, hPart, hPeak⟩
  have hLe :
      l.dialect.openings part ≤
        l.dialect.openings (Text.lines text.toList) :=
    hPart.sublist.countP_le
  omega

/- With a marker that is no line there are no groups. -/
theorem depth_of_broken_marker
    {l : Language κ}
    {text : String}
    {root : Group κ}
    (hBroken :
      '\n' ∈ l.dialect.groupOpen.toList ∨
        '\n' ∈ l.dialect.groupClose.toList)
    (hParse : l.parse text = .ok root) :
    root.depth = 0 := by
  have hFree
      {raw : List Char}
      (hLine : raw ∈ Text.lines text.toList) :
      '\n' ∉ Text.trim raw :=
    Text.free_trim (Text.free_of_mem_lines hLine)
  apply depth_of_openings hParse
  rcases hBroken with hOpen | hClose
  · apply List.countP_eq_zero.mpr
    intro raw hLine hRole
    rw [decide_eq_true_eq] at hRole
    have hTrim := (Dialect.role_eq_iff.mp hRole).2
    exact hFree hLine (hTrim ▸ hOpen)
  -- Openings that are never closed are no script either.
  · have hBalanced :=
      ((l.parse_ok_iff text).mp ⟨root, hParse⟩).2.2
    rw [hBalanced]
    apply List.countP_eq_zero.mpr
    intro raw hLine hRole
    rw [decide_eq_true_eq] at hRole
    have hTrim := (Dialect.role_eq_iff.mp hRole).2.2
    exact hFree hLine (hTrim ▸ hClose)

------------------------------------------------------------
-- Forests of Groups
------------------------------------------------------------

/-
  Groups in groups, without commands, written in an accepted
  dialect with one marker on each line. If no marker has a
  line feed in it, every such text is accepted, whatever the
  registry, and its tree has exactly that nesting. If one
  has, then no text at all has a group.
-/
theorem parse_of_valid_markers
    (l : Language κ)
    (hValid : l.dialect.validate = .ok ()) :
    ('\n' ∉ l.dialect.groupOpen.toList →
      '\n' ∉ l.dialect.groupClose.toList →
        ∀ forest raws (text : String),
          Statement.invocationsOfAll forest = [] →
          l.dialect.Renders forest raws →
          Text.Joins raws text.toList →
            ∃ nodes,
              l.Builds 1 forest nodes ∧
                l.parse text = .ok ⟨.idle, nodes⟩) ∧
      ('\n' ∈ l.dialect.groupOpen.toList ∨
          '\n' ∈ l.dialect.groupClose.toList →
        ∀ text root,
          l.parse text = .ok root → root.depth = 0) := by
  refine
    ⟨?_, fun hBroken _ _ => depth_of_broken_marker hBroken⟩
  intro hOpen hClose forest raws text hForest hRenders
    hJoins
  have hClear :=
    Dialect.isClear_of_validate hValid hOpen hClose
  have hNamed :
      ∀ invocation ∈ Statement.invocationsOfAll forest,
        invocation.IsNamed := by
    simp [hForest]
  have hAccepts :
      ∀ invocation ∈ Statement.invocationsOfAll forest,
        l.Accepts invocation := by
    simp [hForest]
  rcases readLines_of_renders hClear hNamed hAccepts
      hRenders 1 with
    ⟨nodes, hBuilds, hRead⟩
  have hLines := hRenders.lines_ok hClear hNamed
  have hTrim :=
    Text.map_trim_lines (fun raw hRaw => (hLines raw hRaw).1)
      (fun raw hRaw => (hLines raw hRaw).2) hJoins
  refine ⟨nodes, hBuilds, ?_⟩
  rw [l.parse_eq_readLines,
    l.readLines_congr Draft.empty 1 hTrim, hRead]
  unfold Draft.empty
  rw [Draft.addAll_root]
  rfl

/- Markers that begin alike, written with odd blanks. -/
theorem parse_of_valid_markers_of_groups :
    let d : Dialect := ⟨"a b", "a b c", ["a c", " a"]⟩
    let l : Language Builtin := ⟨Builtin.registry, d⟩
    let forest : List Statement :=
      [.group [.group [], .group []]]
    let text :=
      "a b\n\ta b\u2003\na b c\r\n a b\na b c\na b c"
    l.dialect.validate = .ok () ∧
      ∃ nodes,
        l.Builds 1 forest nodes ∧
          l.parse text = .ok ⟨.idle, nodes⟩ := by
  intro d l forest text
  have hValid : l.dialect.validate = .ok () := by decide
  have hPads
      (left right : List Char)
      (line : String)
      (hLeft : Text.Blanks left)
      (hRight : Text.Blanks right)
      (hFree : '\n' ∉ left ++ right) :
      Text.Pads line.toList
        (left ++ line.toList ++ right) :=
    ⟨left, right, hLeft, hRight, hFree, rfl⟩
  have hBare (line : String) :
      Text.Pads line.toList line.toList :=
    ⟨[], [], by decide, by decide, by decide, by simp⟩
  have hRenders :=
    Dialect.Renders.group (d := l.dialect) (hBare _)
      (.group
        (hPads ['\t'] ['\u2003'] _ (by decide) (by decide)
          (by decide))
        .nil
        (hPads [] ['\r'] _ (by decide) (by decide)
          (by decide))
        (.group
          (hPads [' '] [] _ (by decide) (by decide)
            (by decide))
          .nil (hBare _) .nil))
      (hBare _) .nil
  have hLaw := parse_of_valid_markers l hValid
  refine
    ⟨hValid,
      hLaw.1 (by decide) (by decide) forest _ text rfl
        hRenders (.inr (by decide))⟩

/- An accepted marker with a line feed opens no group. -/
theorem not_parse_of_valid_markers :
    ¬ ∀ (l : Language Builtin) forest raws (text : String),
      l.dialect.validate = .ok () →
        Statement.invocationsOfAll forest = [] →
        l.dialect.Renders forest raws →
        Text.Joins raws text.toList →
          ∃ nodes,
            l.Builds 1 forest nodes ∧
              l.parse text = .ok ⟨.idle, nodes⟩ := by
  intro hSound
  let l : Language Builtin :=
    ⟨Builtin.registry, ⟨"a\nb", "\x7d", ["#", "//"]⟩⟩
  have hBare (line : String) :
      Text.Pads line.toList line.toList :=
    ⟨[], [], by decide, by decide, by decide, by simp⟩
  have hRenders :=
    Dialect.Renders.group (d := l.dialect) (hBare _) .nil
      (hBare _) .nil
  have hRefused :
      l.parse "a\nb\n\x7d" =
        .error (.error (.unknownKind "a" 1)) := by
    simp only [l]
    with_unfolding_all rfl
  rcases hSound l [.group []] _ "a\nb\n\x7d" (by decide) rfl
      hRenders (.inr (by decide)) with
    ⟨nodes, _, hParse⟩
  rw [hRefused] at hParse
  cases hParse

end Language

end CommandScript
