import CommandScript.Proofs.Parsing
import CommandScript.Proofs.Rows
import Mathlib.Data.List.Forall2

/-
  The tree of a script. Its rows are the opening lines and
  the command lines of the text, in their order. They are
  the rows of the draft while the text is being read, since
  a group that closes stays where it was opened.

  Key definitions include:
    * `Dialect.sites`
    * `Language.Shows`
    * `Draft.rows`

  Main statements:
    * `Draft.rows_closeGroup?`
    * `Language.Drafted.shows`
    * `Language.Drafted.peaks`
    * `Language.parse_lists_lines`
-/

namespace CommandScript

------------------------------------------------------------
-- Sites
------------------------------------------------------------

/- A line of a text, and the lines before it. -/
structure Site where
  before : List (List Char)
  raw : List Char
deriving DecidableEq, Repr

/- The number of the line at a site. -/
def Site.number (site : Site) : Nat :=
  site.before.length + 1

namespace LineRole

/- Whether a line calls for a command. -/
def isCommand : LineRole → Bool
| .command _ => true
| _ => false

/- Whether a line opens a group or calls for a command. -/
def isEntry : LineRole → Bool
| .opening | .command _ => true
| .skipped | .closing => false

/- Command lines are entries. -/
theorem isEntry_of_isCommand
    {role : LineRole}
    (hCommand : role.isCommand = true) :
    role.isEntry = true := by
  cases role with
  | command line => rfl
  | skipped | opening | closing => cases hCommand

end LineRole

namespace Dialect

variable (d : Dialect)

/- The sites of entries in lines that follow others. -/
def sitesFrom
    (before : List (List Char)) :
    List (List Char) → List Site
| [] => []
| raw :: rest =>
    let later := sitesFrom (before ++ [raw]) rest
    if (d.role raw).isEntry then ⟨before, raw⟩ :: later
    else later

/- The sites of opening lines and command lines. -/
def sites (lines : List (List Char)) : List Site :=
  d.sitesFrom [] lines

/- One more line is one more site if it is an entry. -/
theorem sitesFrom_concat
    (before lines : List (List Char))
    (raw : List Char) :
    d.sitesFrom before (lines ++ [raw]) =
      d.sitesFrom before lines ++
        if (d.role raw).isEntry then
          [⟨before ++ lines, raw⟩]
        else [] := by
  induction lines generalizing before with
  | nil => simp [sitesFrom]
  | cons line lines ih =>
      have hNext := ih (before ++ [line])
      rw [List.append_assoc, List.singleton_append] at hNext
      simp only [List.cons_append, sitesFrom, hNext]
      cases (d.role line).isEntry <;> rfl

theorem sites_concat
    (lines : List (List Char))
    (raw : List Char) :
    d.sites (lines ++ [raw]) =
      d.sites lines ++
        if (d.role raw).isEntry then [⟨lines, raw⟩]
        else [] :=
  d.sitesFrom_concat [] lines raw

/- Every command line has its site. -/
theorem countP_sitesFrom
    (before lines : List (List Char)) :
    (d.sitesFrom before lines).countP
        (fun site => (d.role site.raw).isCommand) =
      lines.countP fun raw => (d.role raw).isCommand := by
  induction lines generalizing before with
  | nil => rfl
  | cons raw lines ih =>
      have hNext := ih (before ++ [raw])
      simp only [sitesFrom, List.countP_cons]
      by_cases hEntry : (d.role raw).isEntry
      · rw [if_pos hEntry, List.countP_cons, hNext]
      · have hOther : ¬ (d.role raw).isCommand := by
          intro hCommand
          exact
            hEntry (LineRole.isEntry_of_isCommand hCommand)
        rw [if_neg hEntry, if_neg hOther, hNext]
        rfl

end Dialect

------------------------------------------------------------
-- Rows of a Draft
------------------------------------------------------------

/- The rows of open groups, given the innermost first. -/
def Frame.rowsOfAll
    {κ : Type} : List (Frame κ) → List (Row κ)
| [] => []
| frame :: outer =>
    rowsOfAll outer ++
      .group outer.length frame.line .idle ::
        Node.rowsOfAll (outer.length + 1) frame.children

namespace Draft

variable {κ : Type}

/- The rows of a draft, finished groups and open ones. -/
def rows (d : Draft κ) : List (Row κ) :=
  Node.rowsOfAll 0 d.root ++ Frame.rowsOfAll d.frames

/- A node that is added comes last. -/
theorem rows_add
    (d : Draft κ)
    (node : Node κ) :
    (d.add node).rows =
      d.rows ++ node.rows d.frames.length := by
  rcases d with ⟨root, frames⟩
  cases frames with
  | nil =>
      simp [add, rows, Frame.rowsOfAll,
        Node.rowsOfAll_append, Node.rowsOfAll]
  | cons frame outer =>
      simp [add, rows, Frame.rowsOfAll,
        Node.rowsOfAll_append, Node.rowsOfAll]

/- A group that is opened comes last. -/
theorem rows_openGroup
    (d : Draft κ)
    (line : Nat) :
    (d.openGroup line).rows =
      d.rows ++ [.group d.frames.length line .idle] := by
  simp [openGroup, rows, Frame.rowsOfAll, Node.rowsOfAll]

/- A group that closes stays where it is. -/
theorem rows_closeGroup?
    {d d' : Draft κ}
    (hClose : d.closeGroup? = some d') :
    d'.rows = d.rows := by
  rcases d with ⟨root, frames⟩
  cases frames with
  | nil => cases hClose
  | cons frame outer =>
      cases hClose
      -- The rows of a group are the same open and closed.
      rw [rows_add]
      simp [rows, Frame.rowsOfAll, Node.rows]

/- A finished draft has no open groups, only its tree. -/
theorem eq_of_finish
    {d : Draft κ}
    {root : Group κ}
    (hFinish : d.finish = .ok root) :
    root.state = .idle ∧ d = ⟨root.children, []⟩ := by
  rcases d with ⟨nodes, frames⟩
  unfold finish at hFinish
  cases hLast : frames.getLast? with
  | none =>
      simp only [hLast] at hFinish
      cases hFinish
      rw [List.getLast?_eq_none_iff.mp hLast]
      exact ⟨rfl, rfl⟩
  | some frame =>
      simp only [hLast] at hFinish
      cases hFinish

/- The tree of a finished draft has its rows. -/
theorem rows_of_finish
    {d : Draft κ}
    {root : Group κ}
    (hFinish : d.finish = .ok root) :
    root.state = .idle ∧ root.rows = d.rows := by
  rcases eq_of_finish hFinish with ⟨hState, rfl⟩
  refine ⟨hState, ?_⟩
  simp [rows, Group.rows, Frame.rowsOfAll]

end Draft

namespace Language

variable {κ : Type}

------------------------------------------------------------
-- The Row of a Line
------------------------------------------------------------

/-
  The row that a line comes to. Its depth is the number of
  groups that are opened before the line and not closed.
-/
inductive Shows
    (l : Language κ)
    (site : Site) : Row κ → Prop where
| opening
    {depth : Nat}
    (hRole : l.dialect.role site.raw = .opening)
    (hDepth :
      l.dialect.openings site.before =
        l.dialect.closings site.before + depth) :
    Shows l site (.group depth site.number .idle)
| command
    {depth : Nat}
    {text : List Char}
    {invocation : Invocation}
    {command : κ}
    (hRole : l.dialect.role site.raw = .command text)
    (hCalls : l.Calls text invocation command)
    (hDepth :
      l.dialect.openings site.before =
        l.dialect.closings site.before + depth) :
    Shows l site
      (.leaf depth ⟨invocation.kind, site.number⟩ command)

namespace Shows

variable {l : Language κ}
variable {site : Site}
variable {row : Row κ}

/- Rows stand for entries. -/
theorem isEntry
    (hShows : l.Shows site row) :
    (l.dialect.role site.raw).isEntry = true := by
  cases hShows with
  | opening hRole hDepth =>
      rw [hRole]
      rfl
  | command hRole hCalls hDepth =>
      rw [hRole]
      rfl

/- The rows of commands are those of command lines. -/
theorem isCommand_eq
    (hShows : l.Shows site row) :
    (l.dialect.role site.raw).isCommand = row.isLeaf := by
  cases hShows with
  | opening hRole hDepth =>
      rw [hRole]
      rfl
  | command hRole hCalls hDepth =>
      rw [hRole]
      rfl

/- The groups of new rows are idle. -/
theorem isIdle
    (hShows : l.Shows site row) :
    row.IsIdle := by
  cases hShows with
  | opening hRole hDepth => exact rfl
  | command hRole hCalls hDepth => trivial

/- The depth of a row is the balance before its line. -/
theorem depth_eq
    (hShows : l.Shows site row) :
    l.dialect.openings site.before =
      l.dialect.closings site.before + row.depth := by
  cases hShows with
  | opening hRole hDepth => exact hDepth
  | command hRole hCalls hDepth => exact hDepth

/- The height of a row is the balance after its line. -/
theorem height_eq
    (hShows : l.Shows site row) :
    l.dialect.openings (site.before ++ [site.raw]) =
      l.dialect.closings (site.before ++ [site.raw]) +
        row.height := by
  rw [Dialect.openings_concat, Dialect.closings_concat]
  cases hShows with
  | opening hRole hDepth =>
      rw [hRole]
      simp only [if_true, reduceCtorEq, if_false,
        Row.height]
      omega
  | command hRole hCalls hDepth =>
      rw [hRole]
      simp only [reduceCtorEq, if_false, Row.height]
      omega

end Shows

section Rows

variable {l : Language κ}
variable {before : List (List Char)}
variable {raw : List Char}
variable {draft draft' : Draft κ}

/- An entry adds its row, and no other line adds any. -/
theorem Drafted.rows_cases
    (hDrafted : l.Drafted before draft)
    (hLine :
      l.Advances (before.length + 1) raw draft draft') :
    (∃ row,
        l.Shows ⟨before, raw⟩ row ∧
          draft'.rows = draft.rows ++ [row]) ∨
      ((l.dialect.role raw).isEntry = false ∧
        draft'.rows = draft.rows) := by
  have hDepth := hDrafted.pending.balanced
  rw [Draft.pending, List.length_map] at hDepth
  cases hLine with
  | skipped hRole =>
      refine .inr ⟨?_, rfl⟩
      rw [hRole]
      rfl
  | opened hRole =>
      exact
        .inl
          ⟨_, .opening hRole hDepth,
            draft.rows_openGroup (before.length + 1)⟩
  | closed hRole hClose =>
      refine .inr ⟨?_, Draft.rows_closeGroup? hClose⟩
      rw [hRole]
      rfl
  | called hRole hCalls =>
      refine
        .inl ⟨_, .command hRole hCalls hDepth, ?_⟩
      rw [Draft.rows_add, Node.rows]
      rfl

/- The rows of a draft show the entries in their order. -/
theorem Drafted.shows
    {lines : List (List Char)}
    (hDrafted : l.Drafted lines draft) :
    List.Forall₂ l.Shows (l.dialect.sites lines)
      draft.rows := by
  induction hDrafted with
  | start => exact .nil
  | line hBefore hLine ih =>
      rw [Dialect.sites_concat]
      rcases hBefore.rows_cases hLine with
        ⟨row, hShows, hRows⟩ | ⟨hRole, hRows⟩
      · rw [hRows, if_pos hShows.isEntry]
        exact List.rel_append ih (.cons hShows .nil)
      · rw [hRows, hRole]
        simp only [Bool.false_eq_true, if_false,
          List.append_nil]
        exact ih

/- The rows of a draft are as high as the balance gets. -/
theorem Drafted.peaks
    {lines : List (List Char)}
    (hDrafted : l.Drafted lines draft) :
    l.dialect.Peaks lines (Row.peak draft.rows) := by
  induction hDrafted with
  | start => exact .nil l.dialect
  | line hBefore hLine ih =>
      rcases hBefore.rows_cases hLine with
        ⟨row, hShows, hRows⟩ | ⟨hRole, hRows⟩
      · have hRow : Row.peak [row] = row.height := by
          simp [Row.peak]
        rw [hRows, Row.peak_append, hRow]
        exact ih.concat hShows.height_eq
      · rw [hRows]
        apply ih.stay
        intro hOpening
        rw [hOpening] at hRole
        cases hRole

end Rows

------------------------------------------------------------
-- Rows beside Sites
------------------------------------------------------------

section Sites

variable {l : Language κ}
variable {sites : List Site}
variable {rows : List (Row κ)}

/- All groups in the rows of a text are idle. -/
theorem isIdle_of_shows
    (hShows : List.Forall₂ l.Shows sites rows) :
    ∀ row ∈ rows, row.IsIdle := by
  induction hShows with
  | nil => simp
  | cons hRow hRows ih =>
      exact List.forall_mem_cons.mpr ⟨hRow.isIdle, ih⟩

/- Rows and sites that agree are equally many. -/
theorem countP_of_shows
    {isSite : Site → Bool}
    {isRow : Row κ → Bool}
    (hShows : List.Forall₂ l.Shows sites rows)
    (hAgree :
      ∀ site row, l.Shows site row →
        isSite site = isRow row) :
    rows.countP isRow = sites.countP isSite := by
  induction hShows with
  | nil => rfl
  | @cons site row sites rows hRow hRows ih =>
      rw [List.countP_cons, List.countP_cons, ih,
        hAgree site row hRow]

end Sites

------------------------------------------------------------
-- The Tree of a Script
------------------------------------------------------------

/- The rows of a tree show the entries of its text. -/
theorem shows_of_parse
    {l : Language κ}
    {text : String}
    {root : Group κ}
    (hParse : l.parse text = .ok root) :
    root.IsFresh ∧
      List.Forall₂ l.Shows
        (l.dialect.sites (Text.lines text.toList))
        root.rows := by
  rcases l.parse_cases text with
    ⟨draft, hDrafted, hDraft⟩ |
    ⟨_, _, _, _, halt, _, _, _, hError⟩
  · rw [hParse] at hDraft
    rcases Draft.rows_of_finish hDraft.symm with
      ⟨hState, hRows⟩
    have hShows := hDrafted.shows
    rw [← hRows] at hShows
    exact
      ⟨Group.isFresh_of_rows hState
          (isIdle_of_shows hShows),
        hShows⟩
  · rw [hParse] at hError
    cases hError

/-
  The tree that a text is read into. Its listing shows, row
  by row and in their order, the opening lines and the
  command lines, each nested as deep as groups are open
  before it. Leaves hold the commands that their lines call
  for, and all groups are idle. The depth of the tree is the
  greatest balance of markers that is reached in the text;
  its commands are those of all command lines, and its
  children those of the entries at balance zero.
-/
theorem parse_lists_lines
    (l : Language κ)
    (text : String)
    (root : Group κ)
    (hParse : l.parse text = .ok root) :
    let lines := Text.lines text.toList
    root.listing = root.rows.map Row.item ∧
      List.Forall₂ l.Shows (l.dialect.sites lines)
        root.rows ∧
      root.IsFresh ∧
      l.dialect.Peaks lines root.depth ∧
      root.commandCount =
        lines.countP (fun raw =>
          (l.dialect.role raw).isCommand) ∧
      root.size =
        (l.dialect.sites lines).countP fun site =>
          l.dialect.openings site.before =
            l.dialect.closings site.before := by
  intro lines
  rcases l.parse_cases text with
    ⟨draft, hDrafted, hDraft⟩ |
    ⟨_, _, _, _, halt, _, _, _, hError⟩
  · rw [hParse] at hDraft
    rcases Draft.rows_of_finish hDraft.symm with
      ⟨hState, hRows⟩
    have hShows := hDrafted.shows
    have hPeaks := hDrafted.peaks
    rw [← hRows] at hShows hPeaks
    rw [← root.depth_eq_peak] at hPeaks
    refine
      ⟨root.listing_eq_rows, hShows,
        Group.isFresh_of_rows hState
          (isIdle_of_shows hShows),
        hPeaks, ?_, ?_⟩
    · have hCount :=
        countP_of_shows hShows fun _ _ => Shows.isCommand_eq
      rw [root.commandCount_eq_countP, hCount]
      exact l.dialect.countP_sitesFrom [] lines
    · rw [root.size_eq_countP]
      apply countP_of_shows hShows
      intro site row hRow
      have hDepth := hRow.depth_eq
      apply decide_eq_decide.mpr
      omega
  · rw [hParse] at hError
    cases hError

/- A script with nested groups, a comment and parameters. -/
theorem parse_lists_lines_of_nested_groups :
    let l : Language Nat :=
      ⟨Registry.empty.registerConfigurable "wait"
        fun params => .ok params.size, .standard⟩
    let text :=
      "wait\n\x7b\n# note\n wait a=1\n\x7b\n\x7d\n\x7d\n"
    let lines := Text.lines text.toList
    ∃ root : Group Nat,
      l.parse text = .ok root ∧
        List.Forall₂ l.Shows (l.dialect.sites lines)
          root.rows ∧
        root.IsFresh ∧
        root.commandCount =
          lines.countP fun raw =>
            (l.dialect.role raw).isCommand := by
  intro l text lines
  let root : Group Nat :=
    ⟨.idle,
      [ .leaf ⟨"wait", 1⟩ 0,
        .group 2 .idle
          [.leaf ⟨"wait", 4⟩ 1, .group 5 .idle []] ]⟩
  have hParse : l.parse text = .ok root := by
    simp only [l, text, root]
    with_unfolding_all rfl
  rcases parse_lists_lines l text root hParse with
    ⟨_, hShows, hFresh, _, hCount, _⟩
  exact ⟨root, hParse, hShows, hFresh, hCount⟩

end Language

end CommandScript
