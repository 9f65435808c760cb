import CommandScript.Text.Blank
import CommandScript.Text.Quoted

/-
  Dialects of the script language: the lines that open and
  close a group, and the beginnings of comment lines.

  Key definitions include:
    * `Dialect`
    * `Dialect.standard`
    * `Dialect.isComment`
    * `Dialect.role`
    * `LineRole.Fits`
    * `Dialect.validate`
    * `DialectFlaw`

  Main statements:
    * `Dialect.role_eq_iff`
-/

namespace CommandScript

/- The markers and comment beginnings of a dialect. -/
structure Dialect where
  groupOpen : String
  groupClose : String
  commentStarts : List String
deriving DecidableEq, Repr

namespace Dialect

/- The dialect of braces, with two kinds of comments. -/
def standard : Dialect where
  groupOpen := "\x7b"
  groupClose := "\x7d"
  commentStarts := ["#", "//"]

instance : Inhabited Dialect := ⟨standard⟩

------------------------------------------------------------
-- Lines
------------------------------------------------------------

/- Whether a trimmed line is a comment. -/
def isComment
    (d : Dialect)
    (line : List Char) : Bool :=
  d.commentStarts.any fun start =>
    start.toList.isPrefixOf line

end Dialect

/- What a line is to a script. -/
inductive LineRole where
| skipped
| opening
| closing
| command (line : List Char)
deriving DecidableEq, Repr

namespace Dialect

/-
  The role of a line. Only its trimmed text counts, and
  comments come before markers.
-/
def role
    (d : Dialect)
    (raw : List Char) : LineRole :=
  let line := Text.trim raw
  if line.isEmpty || d.isComment line then .skipped
  else if line = d.groupOpen.toList then .opening
  else if line = d.groupClose.toList then .closing
  else .command line

/- A trimmed line is empty, or it begins like a comment. -/
def Skips
    (d : Dialect)
    (line : List Char) : Prop :=
  line = [] ∨
    ∃ start ∈ d.commentStarts, start.toList <+: line

theorem skips_iff
    {d : Dialect}
    {line : List Char} :
    d.Skips line ↔ line = [] ∨ d.isComment line = true := by
  simp only [Skips, isComment, List.any_eq_true,
    List.isPrefixOf_iff_prefix]

instance
    (d : Dialect)
    (line : List Char) :
    Decidable (d.Skips line) :=
  decidable_of_iff _ skips_iff.symm

end Dialect

/-
  What the trimmed text of a line is if the line has some
  role. A marker that is a comment as well does not count,
  and if both markers are the same it is the opening one.
-/
def LineRole.Fits
    (d : Dialect)
    (line : List Char) : LineRole → Prop
| .skipped => d.Skips line
| .opening => ¬ d.Skips line ∧ line = d.groupOpen.toList
| .closing =>
    ¬ d.Skips line ∧
      line ≠ d.groupOpen.toList ∧
      line = d.groupClose.toList
| .command text =>
    ¬ d.Skips line ∧
      line ≠ d.groupOpen.toList ∧
      line ≠ d.groupClose.toList ∧
      line = text

namespace Dialect

variable {d : Dialect}
variable {raw : List Char}

/- A line has the one role that fits its trimmed text. -/
theorem role_eq_iff
    {role : LineRole} :
    d.role raw = role ↔ role.Fits d (Text.trim raw) := by
  have hSkips :
      ((Text.trim raw).isEmpty ||
          d.isComment (Text.trim raw)) = true ↔
        d.Skips (Text.trim raw) := by
    rw [skips_iff, Bool.or_eq_true, List.isEmpty_iff]
  unfold Dialect.role
  simp only [hSkips]
  constructor
  · rintro rfl
    by_cases hSkip : d.Skips (Text.trim raw)
    · rw [if_pos hSkip]
      exact hSkip
    rw [if_neg hSkip]
    by_cases hOpen : Text.trim raw = d.groupOpen.toList
    · rw [if_pos hOpen]
      exact ⟨hSkip, hOpen⟩
    rw [if_neg hOpen]
    by_cases hClose : Text.trim raw = d.groupClose.toList
    · rw [if_pos hClose]
      exact ⟨hSkip, hOpen, hClose⟩
    · rw [if_neg hClose]
      exact ⟨hSkip, hOpen, hClose, rfl⟩
  · intro hFits
    cases role with
    | skipped => exact if_pos hFits
    | opening => rw [if_neg hFits.1, if_pos hFits.2]
    | closing =>
        rw [if_neg hFits.1, if_neg hFits.2.1,
          if_pos hFits.2.2]
    | command text =>
        rw [if_neg hFits.1, if_neg hFits.2.1,
          if_neg hFits.2.2.1, hFits.2.2.2]

/- Only blank lines and comments are skipped. -/
theorem role_eq_skipped_iff :
    d.role raw = .skipped ↔
      Text.trim raw = [] ∨
        d.isComment (Text.trim raw) = true :=
  role_eq_iff.trans skips_iff

end Dialect

------------------------------------------------------------
-- Validation
------------------------------------------------------------

/- Why a dialect is of no use. -/
inductive DialectFlaw where
| emptyMarker
| paddedMarker
| equalMarkers (marker : String)
| blankComment (start : String)
| commentMarker (marker : String)
deriving DecidableEq, Repr

namespace DialectFlaw

/- What is wrong, in words. -/
def reason : DialectFlaw → String
| .emptyMarker => "group markers must not be empty"
| .paddedMarker =>
    "group markers must not have surrounding whitespace"
| .equalMarkers marker =>
    "open and close markers are both " ++ Text.quote marker
| .blankComment start =>
    "empty comment prefix: " ++ Text.quote start
| .commentMarker marker =>
    "group marker " ++ Text.quote marker ++
      " starts with a comment prefix"

end DialectFlaw

namespace Dialect

/- The first flaw of a dialect, if there is any. -/
def flaw? (d : Dialect) : Option DialectFlaw :=
  let opening := Text.trim d.groupOpen.toList
  let closing := Text.trim d.groupClose.toList
  if opening.isEmpty || closing.isEmpty then
    some .emptyMarker
  else if opening != d.groupOpen.toList ||
      closing != d.groupClose.toList then
    some .paddedMarker
  else if d.groupOpen = d.groupClose then
    some (.equalMarkers d.groupOpen)
  else
    match d.commentStarts.find? fun start =>
        (Text.trim start.toList).isEmpty with
    | some start => some (.blankComment start)
    | none =>
        ([d.groupOpen, d.groupClose].find? fun marker =>
          d.isComment marker.toList).map .commentMarker

/- Accept a dialect that has no flaw. -/
def validate (d : Dialect) : Except DialectFlaw Unit :=
  match d.flaw? with
  | some flaw => .error flaw
  | none => .ok ()

end Dialect

end CommandScript
