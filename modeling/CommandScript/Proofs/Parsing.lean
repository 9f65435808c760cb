import CommandScript.Language
import CommandScript.Proofs.Markers

/-
  Which texts are scripts, and which error is reported for
  one that is none. A line is flawed when it closes a group
  and none is open, or when it is a command line and calls
  for no command. The first flawed line is reported, and the
  first group that is not closed if no line is flawed.

  Key definitions include:
    * `Language.Calls`
    * `Language.Flaw`
    * `Language.IsSound`
    * `Language.Drafted`

  Main statements:
    * `Language.Advances.pending`
    * `Language.Drafted.pending`
    * `Language.parse_cases`
    * `Language.parse_reports_first_flaw`
-/

namespace CommandScript

------------------------------------------------------------
-- Flawed Lines
------------------------------------------------------------

namespace Language

variable {κ : Type}

/-
  A command line is read as an invocation, and the registry
  makes a command of it.
-/
def Calls
    (l : Language κ)
    (text : List Char)
    (invocation : Invocation)
    (command : κ) : Prop :=
  Invocation.read text = .ok invocation ∧
    l.registry.construct invocation.kind
        invocation.params =
      some (.ok command)

/- Why a command line with a number calls for no command. -/
inductive Refuses
    (l : Language κ)
    (number : Nat)
    (text : List Char) : Halt ParseError → Prop where
| malformed
    {cause : LineError}
    (hRead : Invocation.read text = .error cause) :
    Refuses l number text
      (.error (.malformed number cause))
| unknownKind
    {invocation : Invocation}
    (hRead : Invocation.read text = .ok invocation)
    (hKind :
      l.registry.construct invocation.kind
          invocation.params =
        none) :
    Refuses l number text
      (.error (.unknownKind invocation.kind number))
| configuration
    {invocation : Invocation}
    {cause : ConfigError}
    (hRead : Invocation.read text = .ok invocation)
    (hCause :
      l.registry.construct invocation.kind
          invocation.params =
        some (.error (.error cause))) :
    Refuses l number text
      (.error
        (.configuration invocation.kind number cause))
| aborted
    {invocation : Invocation}
    (hRead : Invocation.read text = .ok invocation)
    (hAborted :
      l.registry.construct invocation.kind
          invocation.params =
        some (.error .aborted)) :
    Refuses l number text .aborted

/-
  What is wrong with a line after others: it closes a group
  and none of theirs is unmatched, or it is a command line
  and calls for no command.
-/
inductive Flaw
    (l : Language κ)
    (before : List (List Char))
    (raw : List Char) : Halt ParseError → Prop where
| unexpectedClose
    (hRole : l.dialect.role raw = .closing)
    (hNone :
      ∀ number, ¬ l.dialect.Unmatched before number) :
    Flaw l before raw
      (.error (.unexpectedClose (before.length + 1)))
| refused
    {text : List Char}
    {halt : Halt ParseError}
    (hRole : l.dialect.role raw = .command text)
    (hRefuses : l.Refuses (before.length + 1) text halt) :
    Flaw l before raw halt

/- No line is flawed. -/
def IsSound
    (l : Language κ)
    (lines : List (List Char)) : Prop :=
  ∀ before raw after,
    lines = before ++ raw :: after →
      ∀ halt, ¬ l.Flaw before raw halt

section Flaws

variable {l : Language κ}
variable {before : List (List Char)}
variable {raw text : List Char}
variable {number : Nat}
variable {halt : Halt ParseError}

/- What calls for a command is not refused. -/
theorem Calls.not_refuses
    {invocation : Invocation}
    {command : κ}
    (hCalls : l.Calls text invocation command) :
    ¬ l.Refuses number text halt := by
  intro hRefuses
  rcases hCalls with ⟨hCallRead, hConstruct⟩
  cases hRefuses with
  | malformed hRead =>
      rw [hRead] at hCallRead
      cases hCallRead
  | unknownKind hRead hKind =>
      rw [hRead] at hCallRead
      cases hCallRead
      rw [hKind] at hConstruct
      cases hConstruct
  | configuration hRead hCause =>
      rw [hRead] at hCallRead
      cases hCallRead
      rw [hCause] at hConstruct
      cases hConstruct
  | aborted hRead hAborted =>
      rw [hRead] at hCallRead
      cases hCallRead
      rw [hAborted] at hConstruct
      cases hConstruct

/- A flaw is reported on its own line. -/
theorem Flaw.line_eq
    {cause : ParseError}
    (hFlaw : l.Flaw before raw (.error cause)) :
    cause.line = before.length + 1 := by
  cases hFlaw with
  | unexpectedClose hRole hNone => rfl
  | refused hRole hRefuses => cases hRefuses <;> rfl

/- One more line is sound if it has no flaw. -/
theorem IsSound.concat
    (hSound : l.IsSound before)
    (hFlawless : ∀ halt, ¬ l.Flaw before raw halt) :
    l.IsSound (before ++ [raw]) := by
  intro early line late hLines halt
  rcases concat_eq_split_iff.mp hLines with
    ⟨rfl, rfl, rfl⟩ | ⟨rest, rfl, hBefore⟩
  · exact hFlawless halt
  · exact hSound early line rest hBefore halt

end Flaws

end Language

------------------------------------------------------------
-- Pending Groups of a Draft
------------------------------------------------------------

namespace Draft

variable {κ : Type}

/- The lines of the groups that are still open. -/
def pending (d : Draft κ) : List Nat :=
  d.frames.map Frame.line

/- Nodes are added inside the groups that are open. -/
theorem pending_add
    (d : Draft κ)
    (node : Node κ) :
    (d.add node).pending = d.pending := by
  rcases d with ⟨root, frames⟩
  cases frames <;> rfl

/- A group that closes is no longer pending. -/
theorem pending_closeGroup?
    {d d' : Draft κ}
    (hClose : d.closeGroup? = some d') :
    ∃ number, d.pending = number :: d'.pending := by
  rcases d with ⟨root, frames⟩
  cases frames with
  | nil => cases hClose
  | cons frame outer =>
      cases hClose
      rw [pending_add]
      exact ⟨frame.line, rfl⟩

/- Without an open group there is none to close. -/
theorem pending_of_closeGroup?_none
    {d : Draft κ}
    (hClose : d.closeGroup? = none) :
    d.pending = [] := by
  rcases d with ⟨root, frames⟩
  cases frames with
  | nil => rfl
  | cons frame outer => cases hClose

/- A draft is finished when no group is pending. -/
theorem finish_eq
    (d : Draft κ) :
    d.finish =
      match d.pending.getLast? with
      | none => .ok ⟨.idle, d.root⟩
      | some number =>
          Attempt.reject (.unclosedGroup number) := by
  rw [finish, pending, List.getLast?_map]
  cases d.frames.getLast? <;> rfl

end Draft

namespace Language

variable {κ : Type}

------------------------------------------------------------
-- Single Lines
------------------------------------------------------------

/- What a line adds to a draft when it is accepted. -/
inductive Advances
    (l : Language κ)
    (number : Nat)
    (raw : List Char)
    (draft : Draft κ) : Draft κ → Prop where
| skipped
    (hRole : l.dialect.role raw = .skipped) :
    Advances l number raw draft draft
| opened
    (hRole : l.dialect.role raw = .opening) :
    Advances l number raw draft (draft.openGroup number)
| closed
    {draft' : Draft κ}
    (hRole : l.dialect.role raw = .closing)
    (hClose : draft.closeGroup? = some draft') :
    Advances l number raw draft draft'
| called
    {text : List Char}
    {invocation : Invocation}
    {command : κ}
    (hRole : l.dialect.role raw = .command text)
    (hCalls : l.Calls text invocation command) :
    Advances l number raw draft
      (draft.add
        (.leaf ⟨invocation.kind, number⟩ command))

section Lines

variable (l : Language κ)

/- A command line calls for a leaf or is refused. -/
theorem command_cases
    (number : Nat)
    (text : List Char) :
    (∃ invocation command,
        l.Calls text invocation command ∧
          l.command number text =
            .ok (.leaf ⟨invocation.kind, number⟩
              command)) ∨
      ∃ halt,
        l.Refuses number text halt ∧
          l.command number text = .error halt := by
  unfold command construct
  cases hRead : Invocation.read text with
  | error cause =>
      exact .inr ⟨_, .malformed hRead, rfl⟩
  | ok invocation =>
      simp only [Attempt.ofExcept, Attempt.wrap, bind,
        Except.bind]
      cases hConstruct :
          l.registry.construct invocation.kind
            invocation.params with
      | none =>
          exact
            .inr ⟨_, .unknownKind hRead hConstruct, rfl⟩
      | some attempt =>
          cases attempt with
          | ok command =>
              exact
                .inl
                  ⟨invocation, command,
                    ⟨hRead, hConstruct⟩, rfl⟩
          | error halt =>
              cases halt with
              | error cause =>
                  exact
                    .inr
                      ⟨_, .configuration hRead hConstruct,
                        rfl⟩
              | aborted =>
                  exact
                    .inr
                      ⟨_, .aborted hRead hConstruct, rfl⟩

/-
  A line is accepted, or it closes a group where none is
  open, or it calls for no command.
-/
theorem step_cases
    (draft : Draft κ)
    (number : Nat)
    (raw : List Char) :
    (∃ draft',
        l.Advances number raw draft draft' ∧
          l.step draft (number, raw) = .ok draft') ∨
      (l.dialect.role raw = .closing ∧
        draft.pending = [] ∧
          l.step draft (number, raw) =
            .error (.error (.unexpectedClose number))) ∨
      ∃ text halt,
        l.dialect.role raw = .command text ∧
          l.Refuses number text halt ∧
            l.step draft (number, raw) = .error halt := by
  unfold step
  cases hRole : l.dialect.role raw with
  | skipped => exact .inl ⟨draft, .skipped hRole, rfl⟩
  | opening => exact .inl ⟨_, .opened hRole, rfl⟩
  | closing =>
      cases hClose : draft.closeGroup? with
      | none =>
          exact
            .inr
              (.inl
                ⟨rfl,
                  Draft.pending_of_closeGroup?_none hClose,
                  rfl⟩)
      | some draft' =>
          exact .inl ⟨draft', .closed hRole hClose, rfl⟩
  | command text =>
      rcases l.command_cases number text with
        ⟨invocation, command, hCalls, hCommand⟩ |
        ⟨halt, hRefuses, hCommand⟩
      · exact
          .inl
            ⟨_, .called hRole hCalls,
              by simp [hCommand, Except.map]⟩
      · exact
          .inr
            (.inr
              ⟨text, halt, rfl, hRefuses,
                by simp [hCommand, Except.map]⟩)

/- What a line leads to is what it adds. -/
theorem advances_of_step
    {draft draft' : Draft κ}
    {number : Nat}
    {raw : List Char}
    (hStep : l.step draft (number, raw) = .ok draft') :
    l.Advances number raw draft draft' := by
  rcases l.step_cases draft number raw with
    ⟨next, hAdvances, hOk⟩ |
    ⟨_, _, hError⟩ |
    ⟨_, _, _, _, hError⟩
  · rw [hStep] at hOk
    cases hOk
    exact hAdvances
  · rw [hStep] at hError
    cases hError
  · rw [hStep] at hError
    cases hError

end Lines

section Advances

variable {l : Language κ}
variable {before : List (List Char)}
variable {raw : List Char}
variable {draft draft' : Draft κ}

/- What is pending follows the markers. -/
theorem Advances.pending
    (hAdvances :
      l.Advances (before.length + 1) raw draft draft')
    (hPending : l.dialect.Pending before draft.pending) :
    l.dialect.Pending (before ++ [raw]) draft'.pending := by
  cases hAdvances with
  | skipped hRole =>
      exact
        hPending.skip (by simp [hRole]) (by simp [hRole])
  | opened hRole => exact hPending.push hRole
  | closed hRole hClose =>
      rcases Draft.pending_closeGroup? hClose with
        ⟨number, hDraft⟩
      rw [hDraft] at hPending
      exact hPending.pop hRole
  | called hRole hCalls =>
      rw [Draft.pending_add]
      exact
        hPending.skip (by simp [hRole]) (by simp [hRole])

/- A closing line is accepted when a group is open. -/
theorem Advances.of_closing
    {number : Nat}
    (hAdvances : l.Advances number raw draft draft')
    (hRole : l.dialect.role raw = .closing) :
    draft.closeGroup? = some draft' := by
  cases hAdvances with
  | closed hLine hClose => exact hClose
  | skipped hLine | opened hLine | called hLine _ =>
      rw [hRole] at hLine
      cases hLine

/- A command line is accepted if it calls for a command. -/
theorem Advances.of_command
    {number : Nat}
    {text : List Char}
    (hAdvances : l.Advances number raw draft draft')
    (hRole : l.dialect.role raw = .command text) :
    ∃ invocation command,
      l.Calls text invocation command ∧
        draft' =
          draft.add
            (.leaf ⟨invocation.kind, number⟩ command) := by
  cases hAdvances with
  | @called _ invocation command hLine hCalls =>
      rw [hRole] at hLine
      cases hLine
      exact ⟨invocation, command, hCalls, rfl⟩
  | skipped hLine | opened hLine | closed hLine _ =>
      rw [hRole] at hLine
      cases hLine

/- A line that is accepted has no flaw. -/
theorem Advances.not_flaw
    {halt : Halt ParseError}
    (hAdvances :
      l.Advances (before.length + 1) raw draft draft')
    (hPending : l.dialect.Pending before draft.pending) :
    ¬ l.Flaw before raw halt := by
  intro hFlaw
  cases hFlaw with
  | unexpectedClose hRole hNone =>
      rcases Draft.pending_closeGroup?
          (hAdvances.of_closing hRole) with
        ⟨number, hDraft⟩
      have hTop : number ∈ draft.pending := by
        rw [hDraft]
        exact List.mem_cons_self
      exact
        hNone number
          ((hPending.unmatched_iff_mem number).mpr hTop)
  | refused hRole hRefuses =>
      rcases hAdvances.of_command hRole with
        ⟨invocation, command, hCalls, _⟩
      exact hCalls.not_refuses hRefuses

end Advances

------------------------------------------------------------
-- Drafts of Lines
------------------------------------------------------------

/- The draft that lines lead to when all are accepted. -/
inductive Drafted
    (l : Language κ) :
    List (List Char) → Draft κ → Prop where
| start : Drafted l [] Draft.empty
| line
    {before : List (List Char)}
    {raw : List Char}
    {draft draft' : Draft κ}
    (hBefore : Drafted l before draft)
    (hLine :
      l.Advances (before.length + 1) raw draft draft') :
    Drafted l (before ++ [raw]) draft'

namespace Drafted

variable {l : Language κ}
variable {lines : List (List Char)}
variable {draft : Draft κ}

/- The open groups of a draft are the unmatched ones. -/
theorem pending
    (hDrafted : l.Drafted lines draft) :
    l.dialect.Pending lines draft.pending := by
  induction hDrafted with
  | start => exact .nil l.dialect
  | line hBefore hLine ih => exact hLine.pending ih

/- Lines that lead to a draft are sound. -/
theorem isSound
    (hDrafted : l.Drafted lines draft) :
    l.IsSound lines := by
  induction hDrafted with
  | start =>
      intro before raw after hLines
      cases before <;> cases hLines
  | line hBefore hLine ih =>
      exact
        ih.concat fun halt => hLine.not_flaw hBefore.pending

/- The command lines of a draft call for commands. -/
theorem calls
    {raw text : List Char}
    (hDrafted : l.Drafted lines draft)
    (hMem : raw ∈ lines)
    (hRole : l.dialect.role raw = .command text) :
    ∃ invocation command,
      l.Calls text invocation command := by
  induction hDrafted with
  | start => cases hMem
  | line hBefore hLine ih =>
      rcases List.mem_append.mp hMem with hMem | hMem
      · exact ih hMem
      · rw [List.mem_singleton.mp hMem] at hRole
        rcases hLine.of_command hRole with
          ⟨invocation, command, hCalls, _⟩
        exact ⟨invocation, command, hCalls⟩

end Drafted

/-
  How lines are read that follow others: all are accepted,
  or the first that is not ends the reading.
-/
inductive Reading
    (l : Language κ)
    (before : List (List Char)) :
    List (List Char) → Attempt ParseError (Draft κ) →
      Prop where
| whole
    {lines : List (List Char)}
    {draft : Draft κ}
    (hDrafted : l.Drafted (before ++ lines) draft) :
    Reading l before lines (.ok draft)
| halted
    {early : List (List Char)}
    {raw : List Char}
    {draft : Draft κ}
    {halt : Halt ParseError}
    (late : List (List Char))
    (hDrafted : l.Drafted (before ++ early) draft)
    (hStep :
      l.step draft ((before ++ early).length + 1, raw) =
        .error halt) :
    Reading l before (early ++ raw :: late) (.error halt)

/- One more line before all that is read. -/
theorem Reading.cons
    {l : Language κ}
    {before lines : List (List Char)}
    {raw : List Char}
    {result : Attempt ParseError (Draft κ)}
    (hRest : l.Reading (before ++ [raw]) lines result) :
    l.Reading before (raw :: lines) result := by
  cases hRest with
  | whole hDrafted =>
      rw [List.append_assoc] at hDrafted
      exact .whole hDrafted
  | @halted early line draft halt late hDrafted hStep =>
      rw [List.append_assoc] at hDrafted hStep
      rw [← List.cons_append]
      exact .halted late hDrafted hStep

section Reading

variable (l : Language κ)

/- Lines are read on top of a draft. -/
theorem foldlM_step_reading
    {before : List (List Char)}
    {draft : Draft κ}
    (lines : List (List Char))
    (hDrafted : l.Drafted before draft) :
    l.Reading before lines
      (((lines.zipIdx before.length).map fun entry =>
        (entry.2 + 1, entry.1)).foldlM l.step draft) := by
  induction lines generalizing before draft with
  | nil =>
      apply Reading.whole
      rw [List.append_nil]
      exact hDrafted
  | cons raw lines ih =>
      simp only [List.zipIdx_cons, List.map_cons,
        List.foldlM_cons]
      cases hStep :
          l.step draft (before.length + 1, raw) with
      | error halt =>
          rw [← List.append_nil before] at hDrafted hStep
          exact .halted lines hDrafted hStep
      | ok draft' =>
          have hLine := l.advances_of_step hStep
          have hNext := ih (hDrafted.line hLine)
          rw [List.length_append] at hNext
          exact hNext.cons

/-
  A text is read to its end and its draft is finished, or
  its first line that is not accepted is reported.
-/
theorem parse_cases
    (text : String) :
    let lines := Text.lines text.toList
    (∃ draft,
        l.Drafted lines draft ∧
          l.parse text = draft.finish) ∨
      ∃ before raw after draft halt,
        lines = before ++ raw :: after ∧
          l.Drafted before draft ∧
            l.step draft (before.length + 1, raw) =
              .error halt ∧
              l.parse text = .error halt := by
  intro lines
  have hReading :
      l.Reading [] lines
        ((Text.numberedLines text.toList).foldlM l.step
          Draft.empty) :=
    l.foldlM_step_reading lines .start
  unfold parse
  generalize
    (Text.numberedLines text.toList).foldlM l.step
      Draft.empty = result at hReading ⊢
  generalize lines = read at hReading ⊢
  cases hReading with
  | whole hDrafted => exact .inl ⟨_, hDrafted, rfl⟩
  | halted late hDrafted hStep =>
      exact
        .inr ⟨_, _, late, _, _, rfl, hDrafted, hStep, rfl⟩

end Reading

------------------------------------------------------------
-- The Error That Is Reported
------------------------------------------------------------

section Errors

variable {l : Language κ}
variable {before : List (List Char)}
variable {raw : List Char}
variable {draft : Draft κ}
variable {halt : Halt ParseError}

/- A line that is not accepted has a flaw. -/
theorem Drafted.flaw
    (hDrafted : l.Drafted before draft)
    (hStep :
      l.step draft (before.length + 1, raw) =
        .error halt) :
    l.Flaw before raw halt := by
  rcases l.step_cases draft (before.length + 1) raw with
    ⟨draft', _, hOk⟩ |
    ⟨hRole, hNone, hError⟩ |
    ⟨text, other, hRole, hRefuses, hError⟩
  · rw [hStep] at hOk
    cases hOk
  · rw [hStep] at hError
    cases hError
    refine .unexpectedClose hRole ?_
    intro number hUnmatched
    rw [hDrafted.pending.unmatched_iff_mem, hNone]
      at hUnmatched
    cases hUnmatched
  · rw [hStep] at hError
    cases hError
    exact .refused hRole hRefuses

/- A flaw is in the way of a balanced text of commands. -/
theorem Drafted.not_flaw_of_covers
    {after : List (List Char)}
    (hDrafted : l.Drafted before draft)
    (hCovers : l.dialect.Covers (before ++ raw :: after))
    (hCalls :
      ∀ text, l.dialect.role raw = .command text →
        ∃ invocation command,
          l.Calls text invocation command) :
    ¬ l.Flaw before raw halt := by
  intro hFlaw
  cases hFlaw with
  | unexpectedClose hRole hNone =>
      have hPending := hDrafted.pending
      have hEmpty : draft.pending = [] := by
        apply List.eq_nil_iff_forall_not_mem.mpr
        intro number hMem
        exact
          hNone number
            ((hPending.unmatched_iff_mem number).mpr hMem)
      have hBalanced := hPending.balanced
      have hPrefix :
          before ++ [raw] <+: before ++ raw :: after :=
        ⟨after, by simp⟩
      have hLe := hCovers (before ++ [raw]) hPrefix
      rw [Dialect.openings_concat, Dialect.closings_concat,
        hRole] at hLe
      rw [hEmpty, List.length_nil] at hBalanced
      simp only [if_true, reduceCtorEq, if_false] at hLe
      omega
  | refused hRole hRefuses =>
      rcases hCalls _ hRole with
        ⟨invocation, command, hCall⟩
      exact hCall.not_refuses hRefuses

end Errors

section Outcomes

variable (l : Language κ) (text : String)

/- The first flaw is reported, or the first open group. -/
theorem parse_error_or_ok :
    let lines := Text.lines text.toList
    (∃ before raw after halt,
        lines = before ++ raw :: after ∧
          l.IsSound before ∧
          l.Flaw before raw halt ∧
          l.parse text = .error halt) ∨
      (∃ number,
        l.IsSound lines ∧
          l.dialect.Unmatched lines number ∧
          (∀ other, l.dialect.Unmatched lines other →
            number ≤ other) ∧
          l.parse text =
            .error (.error (.unclosedGroup number))) ∨
      (∃ root,
        l.IsSound lines ∧
          (∀ number, ¬ l.dialect.Unmatched lines number) ∧
          l.parse text = .ok root) := by
  intro lines
  rcases l.parse_cases text with
    ⟨draft, hDrafted, hParse⟩ |
    ⟨before, raw, after, draft, halt, hLines, hDrafted,
      hStep, hParse⟩
  · have hPending := hDrafted.pending
    have hSound := hDrafted.isSound
    rw [Draft.finish_eq] at hParse
    cases hLast : draft.pending.getLast? with
    | none =>
        rw [hLast] at hParse
        have hNone : draft.pending = [] :=
          List.getLast?_eq_none_iff.mp hLast
        refine .inr (.inr ⟨_, hSound, ?_, hParse⟩)
        intro number hUnmatched
        rw [hPending.unmatched_iff_mem, hNone] at hUnmatched
        cases hUnmatched
    | some number =>
        rw [hLast] at hParse
        rcases hPending.first hLast with
          ⟨hUnmatched, hFirst⟩
        exact
          .inr
            (.inl
              ⟨number, hSound, hUnmatched, hFirst, hParse⟩)
  · exact
      .inl
        ⟨before, raw, after, halt, hLines,
          hDrafted.isSound, hDrafted.flaw hStep, hParse⟩

/- What is reported is on a line of the text. -/
theorem parse_error_bounds
    {cause : ParseError}
    (hError : l.parse text = .error (.error cause)) :
    1 ≤ cause.line ∧
      cause.line ≤ (Text.lines text.toList).length := by
  rcases l.parse_error_or_ok text with
    ⟨before, raw, after, halt, hLines, _, hFlaw, hParse⟩ |
    ⟨number, _, hUnmatched, _, hParse⟩ |
    ⟨root, _, _, hParse⟩
  · rw [hParse] at hError
    cases hError
    have hLine := hFlaw.line_eq
    have hLength := congrArg List.length hLines
    rw [List.length_append, List.length_cons] at hLength
    omega
  · rw [hParse] at hError
    cases hError
    exact hUnmatched.bounds
  · rw [hParse] at hError
    cases hError

/- A script is balanced and calls for commands only. -/
theorem parse_ok_iff :
    let lines := Text.lines text.toList
    (∃ root, l.parse text = .ok root) ↔
      (∀ raw ∈ lines, ∀ line,
        l.dialect.role raw = .command line →
          ∃ invocation command,
            l.Calls line invocation command) ∧
        l.dialect.Covers lines ∧
        l.dialect.openings lines =
          l.dialect.closings lines := by
  have hCases := l.parse_cases text
  generalize Text.lines text.toList = lines at hCases ⊢
  constructor
  · intro hRoot
    rcases hRoot with ⟨root, hRoot⟩
    rcases hCases with
      ⟨draft, hDrafted, hParse⟩ |
      ⟨_, _, _, _, halt, _, _, _, hParse⟩
    · have hPending := hDrafted.pending
      have hBalanced := hPending.balanced
      rw [hRoot, Draft.finish_eq] at hParse
      cases hLast : draft.pending.getLast? with
      | none =>
          rw [List.getLast?_eq_none_iff.mp hLast,
            List.length_nil] at hBalanced
          refine ⟨?_, hPending.covered, hBalanced⟩
          intro raw hMem line hRole
          exact hDrafted.calls hMem hRole
      | some number =>
          rw [hLast] at hParse
          cases hParse
    · rw [hParse] at hRoot
      cases hRoot
  -- Without a flaw all lines are read, and none is pending.
  · intro hBalanced
    rcases hBalanced with ⟨hCalls, hCovers, hEqual⟩
    rcases hCases with
      ⟨draft, hDrafted, hParse⟩ |
      ⟨before, raw, after, draft, halt, rfl, hDrafted,
        hStep, _⟩
    · have hLength := hDrafted.pending.balanced
      have hNone : draft.pending = [] := by
        apply List.length_eq_zero_iff.mp
        omega
      rw [Draft.finish_eq, hNone] at hParse
      exact ⟨_, hParse⟩
    · have hFlaw := hDrafted.flaw hStep
      have hRaw := hCalls raw (by simp)
      exact
        absurd hFlaw
          (hDrafted.not_flaw_of_covers hCovers hRaw)

end Outcomes

/-
  The outcome of reading a text. The first flawed line is
  reported, with what is wrong with it. If there is none,
  the first group that is never closed is reported. Else
  there is a tree. What is reported is on a line of the
  text; and there is a tree exactly if each command line
  calls for a command and the markers are balanced.
-/
theorem parse_reports_first_flaw
    (l : Language κ)
    (text : String) :
    let lines := Text.lines text.toList
    ((∃ before raw after halt,
        lines = before ++ raw :: after ∧
          l.IsSound before ∧
          l.Flaw before raw halt ∧
          l.parse text = .error halt) ∨
      (∃ number,
        l.IsSound lines ∧
          l.dialect.Unmatched lines number ∧
          (∀ other, l.dialect.Unmatched lines other →
            number ≤ other) ∧
          l.parse text =
            .error (.error (.unclosedGroup number))) ∨
      (∃ root,
        l.IsSound lines ∧
          (∀ number, ¬ l.dialect.Unmatched lines number) ∧
          l.parse text = .ok root)) ∧
    (∀ cause, l.parse text = .error (.error cause) →
      1 ≤ cause.line ∧ cause.line ≤ lines.length) ∧
    ((∃ root, l.parse text = .ok root) ↔
      (∀ raw ∈ lines, ∀ line,
        l.dialect.role raw = .command line →
          ∃ invocation command,
            l.Calls line invocation command) ∧
        l.dialect.Covers lines ∧
        l.dialect.openings lines =
          l.dialect.closings lines) := by
  refine
    ⟨l.parse_error_or_ok text, ?_, l.parse_ok_iff text⟩
  intro cause hError
  exact l.parse_error_bounds text hError

end Language

end CommandScript
