import CommandScript.Proofs.Renumbering
import Mathlib.Data.List.Forall2

/-
  The layout of a script. Blanks around its lines and the
  choice of line ends make no difference. A blank line or a
  comment makes none either, but the lines after it have
  other numbers.

  Key definitions include:
    * `Text.Respaced`
    * `Text.Relaid`
    * `Text.Inserts`
    * `Text.InsertsAll`
    * `Text.makeRoom`

  Main statements:
    * `Text.respaced_iff`
    * `Language.parse_of_relaid`
    * `Language.parse_of_insertsAll`
    * `Language.parse_ignores_layout`
-/

namespace CommandScript

namespace Text

------------------------------------------------------------
-- Other Blanks
------------------------------------------------------------

/- Two lines that differ in the blanks around them only. -/
def Respaced (raw raw' : List Char) : Prop :=
  ∃ core, Pads core raw ∧ Pads core raw'

/-
  Two texts with the same lines but for the blanks around
  these. The carriage return of a line end is such a blank.
-/
def Relaid (s s' : List Char) : Prop :=
  List.Forall₂ Respaced (segments s) (segments s')

section Respaced

variable {text raw raw' : List Char}

/- What a text is padded with is trimmed away. -/
theorem Pads.trim_congr
    (hPads : Pads text raw) :
    trim raw = trim text := by
  rcases hPads with ⟨left, right, hLeft, hRight, _, rfl⟩
  exact trim_padded hLeft hRight

/- A text without line feeds is its trimmed text, padded. -/
theorem pads_trim
    (hFree : '\n' ∉ raw) :
    Pads (trim raw) raw := by
  rcases exists_padding raw with
    ⟨left, right, hLeft, hRight, hRaw⟩
  refine ⟨left, right, hLeft, hRight, ?_, hRaw⟩
  rw [hRaw] at hFree
  simp only [List.mem_append, not_or] at hFree ⊢
  exact ⟨hFree.1.1, hFree.2⟩

/- Lines differ in blanks only if they are trimmed alike. -/
theorem respaced_iff
    (hFree : '\n' ∉ raw)
    (hFree' : '\n' ∉ raw') :
    Respaced raw raw' ↔ trim raw = trim raw' := by
  constructor
  · intro hRespaced
    rcases hRespaced with ⟨core, hPads, hPads'⟩
    exact hPads.trim_congr.trans hPads'.trim_congr.symm
  · intro hTrim
    have hPads := pads_trim hFree
    rw [hTrim] at hPads
    exact ⟨trim raw', hPads, pads_trim hFree'⟩

end Respaced

/- Texts are laid out alike if lines are trimmed alike. -/
theorem forall₂_respaced_iff
    {raws raws' : List (List Char)}
    (hFree : ∀ raw ∈ raws, '\n' ∉ raw)
    (hFree' : ∀ raw ∈ raws', '\n' ∉ raw) :
    List.Forall₂ Respaced raws raws' ↔
      raws.map trim = raws'.map trim := by
  induction raws generalizing raws' with
  | nil =>
      cases raws' <;> simp
  | cons raw raws ih =>
      cases raws' with
      | nil => simp
      | cons raw' raws' =>
          rw [List.forall_mem_cons] at hFree hFree'
          rw [List.forall₂_cons,
            respaced_iff hFree.1 hFree'.1,
            ih hFree.2 hFree'.2, List.map_cons,
            List.map_cons, List.cons.injEq]

theorem relaid_iff
    {s s' : List Char} :
    Relaid s s' ↔
      (segments s).map trim = (segments s').map trim :=
  forall₂_respaced_iff
    (fun _ hSegment => free_of_mem_segments hSegment)
    (fun _ hSegment => free_of_mem_segments hSegment)

------------------------------------------------------------
-- More Lines
------------------------------------------------------------

/- A text has the lines of another, and one more. -/
def Inserts
    (before : List (List Char))
    (raw s s' : List Char) : Prop :=
  ∃ after,
    lines s = before ++ after ∧
      lines s' = before ++ raw :: after

/- A text has the lines of another, and more among them. -/
def InsertsAll
    (before inserted : List (List Char))
    (s s' : List Char) : Prop :=
  ∃ after,
    lines s = before ++ after ∧
      lines s' = before ++ (inserted ++ after)

/-
  The number that a line has when one more line is put in
  after so many lines.
-/
def makeRoom (count number : Nat) : Nat :=
  if number ≤ count then number else number + 1

/- The same when so many lines are put in. -/
def makeRoomFor (count size number : Nat) : Nat :=
  if number ≤ count then number else number + size

/- A line is put in where one ends and another begins. -/
theorem inserts_append
    {s raw : List Char}
    (hEnded : IsEnded s)
    (hFree : '\n' ∉ raw)
    (rest : List Char) :
    Inserts (lines s) (chomp raw) (s ++ rest)
      (s ++ (raw ++ '\n' :: rest)) := by
  refine ⟨lines rest, lines_append hEnded rest, ?_⟩
  rw [lines_append hEnded, lines_append_feed hFree]

end Text

namespace Language

variable {κ : Type}
variable (l : Language κ)

/- Texts that are laid out in another way are read alike. -/
theorem parse_of_relaid
    {text text' : String}
    (hRelaid : Text.Relaid text.toList text'.toList) :
    l.parse text' = l.parse text := by
  rw [l.parse_eq_segments text', l.parse_eq_segments text,
    l.readLines_congr Draft.empty 1
      (Text.relaid_iff.mp hRelaid)]

/- Lines that are all skipped add nothing to a draft. -/
theorem readLines_of_skipped
    {raws : List (List Char)}
    (hSkipped :
      ∀ raw ∈ raws, l.dialect.role raw = .skipped)
    (draft : Draft κ)
    (number : Nat) :
    l.readLines draft number raws = .ok draft := by
  induction raws generalizing number with
  | nil => rfl
  | cons raw raws ih =>
      rcases List.forall_mem_cons.mp hSkipped with
        ⟨hRaw, hRaws⟩
      have hStep : l.step draft (number, raw) = .ok draft :=
        by
        unfold step
        rw [hRaw]
      rw [readLines, hStep]
      exact ih hRaws (number + 1)

/- Lines that are skipped only move the lines after them. -/
theorem parse_of_insertsAll
    {text text' : String}
    {before inserted : List (List Char)}
    (hInserts :
      Text.InsertsAll before inserted text.toList
        text'.toList)
    (hSkipped :
      ∀ raw ∈ inserted, l.dialect.role raw = .skipped) :
    l.parse text' =
      (l.parse text).renumber Group.renumber
        (Text.makeRoomFor before.length
          inserted.length) := by
  rcases hInserts with ⟨after, hLines, hLines'⟩
  let f :=
    Text.makeRoomFor before.length inserted.length
  have hBefore :
      l.readLines Draft.empty 1 before =
        (l.readLines Draft.empty 1 before).renumber
          Draft.renumber f := by
    apply l.readLines_renumber f Draft.empty
    intro i hi
    have hStays : 1 + i ≤ before.length := by omega
    exact if_pos hStays
  have hAfter (draft : Draft κ) :
      l.readLines (draft.renumber f)
          (1 + before.length + inserted.length) after =
        (l.readLines draft (1 + before.length)
          after).renumber Draft.renumber f := by
    apply l.readLines_renumber f draft
    intro i hi
    have hMoves : ¬ 1 + before.length + i ≤ before.length :=
      by omega
    rw [Nat.add_right_comm (1 + before.length) _ i]
    exact if_neg hMoves
  rw [l.parse_eq_readLines text', hLines',
    l.parse_eq_readLines text, hLines,
    ← Draft.bind_finish_renumber,
    l.readLines_append, l.readLines_append]
  cases hRead : l.readLines Draft.empty 1 before with
  | error halt =>
      rw [hRead] at hBefore
      have hHalt : halt = halt.renumber f :=
        Except.error.inj hBefore
      exact congrArg Except.error hHalt
  | ok draft =>
      rw [hRead] at hBefore
      -- What was read before has the numbers it had.
      have hDraft : draft = draft.renumber f :=
        Except.ok.inj hBefore
      change
        (l.readLines draft (1 + before.length)
            (inserted ++ after)).bind Draft.finish =
          ((l.readLines draft (1 + before.length)
            after).renumber Draft.renumber f).bind
            Draft.finish
      rw [← hAfter, ← hDraft, l.readLines_append,
        l.readLines_of_skipped hSkipped]
      rfl

/-
  The layout of a text does not matter. Other blanks around
  its lines, and other line ends, leave what is read as it
  is. One more line that is blank or a comment, wherever it
  is put in, adds one to the numbers of the lines after it,
  in all nodes of the tree or in the error, and changes
  nothing else.
-/
theorem parse_ignores_layout
    (l : Language κ)
    (text text' : String) :
    (Text.Relaid text.toList text'.toList →
      l.parse text' = l.parse text) ∧
    ∀ before raw,
      Text.Inserts before raw text.toList text'.toList →
        Text.trim raw = [] ∨
            l.dialect.isComment (Text.trim raw) = true →
          l.parse text' =
            (l.parse text).renumber Group.renumber
              (Text.makeRoom before.length) := by
  refine ⟨l.parse_of_relaid, ?_⟩
  intro before raw hInserts hLine
  have hInsertsAll :
      Text.InsertsAll before [raw] text.toList
        text'.toList :=
    hInserts
  -- To make room for a line is to make it for one line.
  exact
    l.parse_of_insertsAll hInsertsAll
      (List.forall_mem_singleton.mpr
        (Dialect.role_eq_skipped_iff.mpr hLine))

/- A group, laid out in another way and with a comment. -/
theorem parse_ignores_layout_of_group :
    let l : Language Nat :=
      ⟨Registry.empty.registerConfigurable "wait"
        fun params => .ok params.size, .standard⟩
    let text := "wait\n\x7b\nwait a=1\n\x7d\n"
    let relaid := "\twait\r\n \x7b\r\nwait a=1  \n\x7d\n"
    let longer :=
      "wait\n\x7b\n # note\r\nwait a=1\n\x7d\n"
    let before := ["wait".toList, "\x7b".toList]
    Text.Relaid text.toList relaid.toList ∧
      Text.Inserts before " # note".toList text.toList
        longer.toList ∧
      l.parse relaid = l.parse text ∧
      l.parse longer =
        .ok
          ⟨.idle,
            [ .leaf ⟨"wait", 1⟩ 0,
              .group 2 .idle [.leaf ⟨"wait", 4⟩ 1] ]⟩ := by
  intro l text relaid longer before
  have hRelaid : Text.Relaid text.toList relaid.toList :=
    Text.relaid_iff.mpr (by decide)
  have hInserts :
      Text.Inserts before " # note".toList text.toList
        longer.toList := by
    have hEnded : Text.IsEnded "wait\n\x7b\n".toList :=
      .inr ⟨"wait\n\x7b".toList, by decide⟩
    have hFree : '\n' ∉ " # note\r".toList := by decide
    have hPut :=
      Text.inserts_append hEnded hFree
        "wait a=1\n\x7d\n".toList
    have hBefore :
        Text.lines "wait\n\x7b\n".toList = before := by
      decide
    have hRaw :
        Text.chomp " # note\r".toList =
          " # note".toList := by
      decide
    have hText :
        "wait\n\x7b\n".toList ++ "wait a=1\n\x7d\n".toList =
          text.toList := by
      decide
    have hLonger :
        "wait\n\x7b\n".toList ++
            (" # note\r".toList ++
              '\n' :: "wait a=1\n\x7d\n".toList) =
          longer.toList := by
      decide
    rw [hBefore, hRaw, hText, hLonger] at hPut
    exact hPut
  have hParse :
      l.parse text =
        .ok
          ⟨.idle,
            [ .leaf ⟨"wait", 1⟩ 0,
              .group 2 .idle [.leaf ⟨"wait", 3⟩ 1] ]⟩ := by
    simp only [l, text]
    with_unfolding_all rfl
  have hLonger :=
    (parse_ignores_layout l text longer).2 before
      " # note".toList hInserts (.inr (by decide))
  rw [hParse] at hLonger
  exact
    ⟨hRelaid, hInserts,
      (parse_ignores_layout l text relaid).1 hRelaid,
      hLonger⟩

end Language

end CommandScript
