import CommandScript.Proofs.ParsedTree
import CommandScript.Proofs.Renumbering

/-
  Scripts one after another. Lines are read on top of what
  is read before them as they are read alone, inside groups
  that are open as well as outside of groups. So the tree of
  a script is put together from the trees of its parts.

  Key definitions include:
    * `Draft.atop`
    * `Group.behind`

  Main statements:
    * `Language.step_atop`
    * `Language.readLines_atop`
    * `Language.parse_append`
    * `Language.parse_enclosed`
    * `Language.parse_concatenates`
-/

namespace CommandScript

/-
  A text between two lines. The last of them may be without
  its line feed.
-/
def Text.Encloses
    (opening closing inner text : List Char) : Prop :=
  '\n' ∉ opening ∧ '\n' ∉ closing ∧
    ∃ last,
      Text.Joins [closing] last ∧
        text = opening ++ '\n' :: (inner ++ last)

------------------------------------------------------------
-- Drafts on Top of Others
------------------------------------------------------------

/- A group with more children in front of its own. -/
def Group.behind
    {κ : Type}
    (nodes : List (Node κ))
    (g : Group κ) : Group κ where
  state := g.state
  children := nodes ++ g.children

namespace Draft

variable {κ : Type}

/-
  A draft inside another: its finished nodes belong to the
  innermost group that is open in the other.
-/
def atop (base d : Draft κ) : Draft κ :=
  match base.frames with
  | [] => ⟨base.root ++ d.root, d.frames⟩
  | frame :: outer =>
      ⟨base.root,
        d.frames ++
          ⟨frame.line, frame.children ++ d.root⟩ :: outer⟩

variable (base : Draft κ)

/- On top of a draft the empty one adds nothing. -/
theorem atop_empty :
    base.atop empty = base := by
  rcases base with ⟨root, frames⟩
  cases frames <;> simp [atop, empty]

theorem atop_add
    (d : Draft κ)
    (node : Node κ) :
    base.atop (d.add node) = (base.atop d).add node := by
  rcases base with ⟨root, frames⟩
  rcases d with ⟨nodes, inner⟩
  cases frames <;> cases inner <;> simp [atop, add]

theorem atop_openGroup
    (d : Draft κ)
    (line : Nat) :
    base.atop (d.openGroup line) =
      (base.atop d).openGroup line := by
  rcases base with ⟨root, frames⟩
  cases frames <;> simp [atop, openGroup]

/- A group of the upper draft closes in its place. -/
theorem closeGroup?_atop
    {d d' : Draft κ}
    (hClose : d.closeGroup? = some d') :
    (base.atop d).closeGroup? = some (base.atop d') := by
  rcases d with ⟨root, frames⟩
  cases frames with
  | nil => cases hClose
  | cons frame outer =>
      cases hClose
      rw [atop_add]
      rcases base with ⟨nodes, _ | ⟨lower, rest⟩⟩ <;> rfl

section Closed

variable {base}

/- A draft without open groups has none to close. -/
theorem closeGroup?_atop_of_closed
    (hClosed : base.frames = [])
    (d : Draft κ) :
    (base.atop d).closeGroup? =
      d.closeGroup?.map base.atop := by
  cases hClose : d.closeGroup? with
  | some d' => exact base.closeGroup?_atop hClose
  | none =>
      rcases base with ⟨nodes, frames⟩
      cases hClosed
      rcases d with ⟨root, _ | ⟨frame, outer⟩⟩
      · rfl
      · cases hClose

theorem finish_atop_of_closed
    (hClosed : base.frames = [])
    (d : Draft κ) :
    (base.atop d).finish =
      d.finish.map (Group.behind base.root) := by
  rcases base with ⟨nodes, frames⟩
  cases hClosed
  unfold finish atop
  cases d.frames.getLast? <;> rfl

end Closed

end Draft

------------------------------------------------------------
-- Reading on Top of a Draft
------------------------------------------------------------

namespace Language

variable {κ : Type}
variable {l : Language κ}

/- What a line adds does not depend on what is below. -/
theorem step_atop
    {base draft : Draft κ}
    {line : Nat × List Char}
    (hClose :
      l.dialect.role line.2 = .closing →
        (base.atop draft).closeGroup? =
          draft.closeGroup?.map base.atop) :
    l.step (base.atop draft) line =
      (l.step draft line).map base.atop := by
  unfold step
  cases hRole : l.dialect.role line.2 with
  | skipped => rfl
  | opening =>
      exact
        congrArg Except.ok
          (base.atop_openGroup draft line.1).symm
  | closing =>
      simp only [hClose hRole]
      cases draft.closeGroup? <;> rfl
  | command text =>
      dsimp only
      cases l.command line.1 text with
      | error halt => rfl
      | ok node =>
          exact
            congrArg Except.ok
              (base.atop_add draft node).symm

/- Lines that are accepted are accepted on top as well. -/
theorem readLines_atop
    {draft draft' : Draft κ}
    {number : Nat}
    {raws : List (List Char)}
    (base : Draft κ)
    (hRead : l.readLines draft number raws = .ok draft') :
    l.readLines (base.atop draft) number raws =
      .ok (base.atop draft') := by
  induction raws generalizing draft number with
  | nil =>
      cases hRead
      rfl
  | cons raw raws ih =>
      rw [readLines] at hRead ⊢
      rcases Attempt.exists_of_bind_eq_ok hRead with
        ⟨next, hStep, hRest⟩
      have hClose
          (hRole : l.dialect.role raw = .closing) :
          (base.atop draft).closeGroup? =
            draft.closeGroup?.map base.atop := by
        have hNext :=
          (l.advances_of_step hStep).of_closing hRole
        rw [hNext, base.closeGroup?_atop hNext]
        rfl
      rw [step_atop hClose, hStep]
      exact ih hRest

/-
  On top of a draft without open groups lines are read as
  they are alone, also if they are refused.
-/
theorem readLines_atop_of_closed
    {base : Draft κ}
    (hClosed : base.frames = [])
    (draft : Draft κ)
    (number : Nat)
    (raws : List (List Char)) :
    l.readLines (base.atop draft) number raws =
      (l.readLines draft number raws).map base.atop := by
  induction raws generalizing draft number with
  | nil => rfl
  | cons raw raws ih =>
      have hStep :
          l.step (base.atop draft) (number, raw) =
            (l.step draft (number, raw)).map base.atop :=
        step_atop fun _ =>
          Draft.closeGroup?_atop_of_closed hClosed draft
      rw [readLines, readLines, hStep]
      cases l.step draft (number, raw) with
      | error halt => rfl
      | ok next => exact ih next (number + 1)

------------------------------------------------------------
-- Scripts One after Another
------------------------------------------------------------

/- What a script leads to before it is finished. -/
theorem readLines_of_parse
    {text : String}
    {root : Group κ}
    (hParse : l.parse text = .ok root) :
    root.state = .idle ∧
      l.readLines Draft.empty 1 (Text.lines text.toList) =
        .ok ⟨root.children, []⟩ := by
  rw [l.parse_eq_readLines] at hParse
  rcases Attempt.exists_of_bind_eq_ok hParse with
    ⟨draft, hRead, hFinish⟩
  rcases Draft.eq_of_finish hFinish with ⟨hState, rfl⟩
  exact ⟨hState, hRead⟩

/- Nothing but an open group is found at the end. -/
theorem readLines_of_parse_error
    {text : String}
    {halt : Halt ParseError}
    (hParse : l.parse text = .error halt)
    (hOther :
      ∀ line, halt ≠ .error (.unclosedGroup line)) :
    l.readLines Draft.empty 1 (Text.lines text.toList) =
      .error halt := by
  rw [l.parse_eq_readLines] at hParse
  cases hRead :
      l.readLines Draft.empty 1
        (Text.lines text.toList) with
  | error other =>
      rw [hRead] at hParse
      cases hParse
      rfl
  | ok draft =>
      rw [hRead] at hParse
      change draft.finish = .error halt at hParse
      rw [Draft.finish_eq] at hParse
      cases hLast : draft.pending.getLast? with
      | none =>
          rw [hLast] at hParse
          cases hParse
      | some number =>
          rw [hLast] at hParse
          cases hParse
          exact absurd rfl (hOther number)

/-
  After a script the rest of a text is read as it is alone,
  with its lines numbered from where the script ends.
-/
theorem parse_append
    {a : String}
    {root : Group κ}
    (b : String)
    (hEnded : Text.IsEnded a.toList)
    (hParse : l.parse a = .ok root) :
    l.parse (a ++ b) =
      ((l.parse b).renumber Group.renumber
          (· + (Text.lines a.toList).length)).map
        (Group.behind root.children) := by
  let count := (Text.lines a.toList).length
  let base : Draft κ := ⟨root.children, []⟩
  have hNumbers :
      ∀ i < (Text.lines b.toList).length,
        1 + i + count = 1 + count + i :=
    fun i _ => Nat.add_right_comm 1 i count
  have hRest :
      l.readLines base (1 + count) (Text.lines b.toList) =
        ((l.readLines Draft.empty 1
            (Text.lines b.toList)).renumber
          Draft.renumber (· + count)).map base.atop := by
    rw [← l.readLines_renumber (· + count) Draft.empty
        hNumbers,
      ← readLines_atop_of_closed rfl]
    exact congrArg (l.readLines · _ _) base.atop_empty.symm
  rw [l.parse_eq_readLines, String.toList_append,
    Text.lines_append hEnded, l.readLines_append,
    (readLines_of_parse hParse).2, l.parse_eq_readLines,
    ← Draft.bind_finish_renumber]
  change (l.readLines base _ _).bind Draft.finish = _
  rw [hRest]
  cases (l.readLines Draft.empty 1
      (Text.lines b.toList)).renumber Draft.renumber
        (· + count) with
  | error halt => rfl
  | ok draft => exact Draft.finish_atop_of_closed rfl draft

/- Nothing is read after an error on a line. -/
theorem parse_append_of_error
    {a : String}
    {halt : Halt ParseError}
    (b : String)
    (hEnded : Text.IsEnded a.toList)
    (hParse : l.parse a = .error halt)
    (hOther :
      ∀ line, halt ≠ .error (.unclosedGroup line)) :
    l.parse (a ++ b) = .error halt := by
  rw [l.parse_eq_readLines, String.toList_append,
    Text.lines_append hEnded, l.readLines_append,
    readLines_of_parse_error hParse hOther]
  rfl

/-
  A script between the markers of a group is the children of
  that group, with its lines one further down.
-/
theorem parse_enclosed
    {a text : String}
    {opening closing : List Char}
    {root : Group κ}
    (hEnded : Text.IsEnded a.toList)
    (hParse : l.parse a = .ok root)
    (hOpening : l.dialect.role opening = .opening)
    (hClosing : l.dialect.role closing = .closing)
    (hEncloses :
      Text.Encloses opening closing a.toList text.toList) :
    l.parse text =
      .ok
        ⟨.idle,
          [ .group 1 .idle
              (Node.renumberAll (· + 1)
                root.children) ]⟩ := by
  rcases hEncloses with
    ⟨hOpeningFree, hClosingFree, last, hLast, hText⟩
  let inner : Draft κ :=
    ⟨Node.renumberAll (· + 1) root.children, []⟩
  let base : Draft κ := Draft.empty.openGroup 1
  have hFirst :
      l.step Draft.empty (1, Text.chomp opening) =
        .ok base := by
    unfold step
    rw [l.dialect.role_congr (Text.trim_chomp opening),
      hOpening]
  have hInner :
      l.readLines base 2 (Text.lines a.toList) =
        .ok (base.atop inner) := by
    have hNumbers :
        ∀ i < (Text.lines a.toList).length,
          1 + i + 1 = 2 + i :=
      fun i _ => by omega
    have hMoved :=
      l.readLines_renumber (· + 1) Draft.empty hNumbers
    rw [(readLines_of_parse hParse).2] at hMoved
    exact readLines_atop base hMoved
  have hEnd (draft : Draft κ) (number : Nat) :
      l.readLines draft number (Text.lines last) =
        l.readLines draft number [closing] := by
    have hSome : closing ≠ [] := by
      rintro rfl
      cases hClosing
    exact
      l.readLines_congr draft number
        (Text.map_trim_lines
          (List.forall_mem_singleton.mpr hClosingFree)
          (List.forall_mem_singleton.mpr hSome) hLast)
  have hClosed (number : Nat) :
      l.step (base.atop inner) (number, closing) =
        .ok ⟨[.group 1 .idle inner.root], []⟩ := by
    unfold step
    rw [hClosing]
    rfl
  rw [l.parse_eq_readLines, hText,
    Text.lines_append_feed hOpeningFree,
    Text.lines_append hEnded, readLines, hFirst]
  change
    (l.readLines base 2
      (Text.lines a.toList ++ Text.lines last)).bind _ = _
  rw [l.readLines_append, hInner]
  change (l.readLines (base.atop inner) _ _).bind _ = _
  rw [hEnd, readLines, hClosed]
  rfl

/-
  The trees of scripts that follow one another are put
  together. After a script, that is a text that is empty or
  ended by a line feed, the rest of a text leads to what it
  leads to alone, with other line numbers: to more children
  of the root or to an error. Nothing is read after an error
  on a line, and a script between the markers of a group is
  one group.
-/
theorem parse_concatenates
    (l : Language κ)
    {a : String}
    (b : String)
    (hEnded : Text.IsEnded a.toList) :
    let count := (Text.lines a.toList).length
    (∀ root root',
      l.parse a = .ok root → l.parse b = .ok root' →
        l.parse (a ++ b) =
          .ok
            ⟨.idle,
              root.children ++
                Node.renumberAll (· + count)
                  root'.children⟩) ∧
    (∀ root halt,
      l.parse a = .ok root → l.parse b = .error halt →
        l.parse (a ++ b) =
          .error (halt.renumber (· + count))) ∧
    (∀ halt,
      l.parse a = .error halt →
        (∀ line, halt ≠ .error (.unclosedGroup line)) →
          l.parse (a ++ b) = .error halt) ∧
    ∀ root opening closing text,
      l.parse a = .ok root →
        l.dialect.role opening = .opening →
        l.dialect.role closing = .closing →
        Text.Encloses opening closing a.toList
            text.toList →
          l.parse text =
            .ok
              ⟨.idle,
                [ .group 1 .idle
                    (Node.renumberAll (· + 1)
                      root.children) ]⟩ := by
  intro count
  refine ⟨?accepted, ?refused, ?halted, ?enclosed⟩
  case accepted =>
    intro root root' hFirst hSecond
    have hIdle := (readLines_of_parse hSecond).1
    rcases root' with ⟨state, children⟩
    rw [parse_append b hEnded hFirst, hSecond, ← hIdle]
    rfl
  case refused =>
    intro root halt hFirst hSecond
    rw [parse_append b hEnded hFirst, hSecond]
    rfl
  case halted =>
    intro halt hFirst hOther
    exact parse_append_of_error b hEnded hFirst hOther
  case enclosed =>
    intro root opening closing text hFirst hOpening hClosing
      hEncloses
    exact
      parse_enclosed hEnded hFirst hOpening hClosing
        hEncloses

/-
  A script with a group in it, before a second script,
  before an unknown kind and between markers, and a text
  that is refused before another.
-/
theorem parse_concatenates_of_group :
    let l : Language Nat :=
      ⟨Registry.empty.registerConfigurable "wait"
        fun params => .ok params.size, .standard⟩
    let a := "wait\n\x7b\nwait a=1\n\x7d\n"
    let group (first : Nat) : List (Node Nat) :=
      [ .leaf ⟨"wait", first⟩ 0,
        .group (first + 1) .idle
          [.leaf ⟨"wait", first + 2⟩ 1] ]
    l.parse (a ++ a) = .ok ⟨.idle, group 1 ++ group 5⟩ ∧
      l.parse (a ++ "nap") =
        .error (.error (.unknownKind "nap" 5)) ∧
      l.parse ("nap\n" ++ a) =
        .error (.error (.unknownKind "nap" 1)) ∧
      l.parse ("\x7b\n" ++ a ++ "\x7d") =
        .ok ⟨.idle, [.group 1 .idle (group 2)]⟩ := by
  intro l a group
  have hParse : l.parse a = .ok ⟨.idle, group 1⟩ := by
    simp only [l, a, group]
    with_unfolding_all rfl
  have hNap :
      l.parse "nap" =
        .error (.error (.unknownKind "nap" 1)) := by
    simp only [l]
    with_unfolding_all rfl
  have hNapFeed :
      l.parse "nap\n" =
        .error (.error (.unknownKind "nap" 1)) := by
    simp only [l]
    with_unfolding_all rfl
  have hEnded : Text.IsEnded a.toList :=
    .inr ⟨"wait\n\x7b\nwait a=1\n\x7d".toList, by decide⟩
  have hNapEnded : Text.IsEnded "nap\n".toList :=
    .inr ⟨"nap".toList, by decide⟩
  have hEncloses :
      Text.Encloses "\x7b".toList "\x7d".toList a.toList
        ("\x7b\n" ++ a ++ "\x7d").toList := by
    refine
      ⟨by decide, by decide, "\x7d".toList,
        .inr (by decide), by decide⟩
  have hCount : (Text.lines a.toList).length = 4 := by
    decide
  rcases parse_concatenates l a hEnded with
    ⟨hAccepted, _, _, _⟩
  rcases parse_concatenates l "nap" hEnded with
    ⟨_, hRefused, _, hEnclosed⟩
  rcases parse_concatenates l a hNapEnded with
    ⟨_, _, hHalted, _⟩
  rw [hCount] at hAccepted hRefused
  exact
    ⟨hAccepted _ _ hParse hParse,
      hRefused _ _ hParse hNap,
      hHalted _ hNapFeed (by simp),
      hEnclosed _ _ _ _ hParse (by decide) (by decide)
        hEncloses⟩

end Language

end CommandScript
