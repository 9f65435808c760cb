import CommandScript.Proofs.ClosingQuotes
import CommandScript.Proofs.Lines

/-
  Documents of commands and nested groups, the lines they
  are written on, and the trees they are read into. Values
  are written between quotes, so any text can be a value.
  What is written is read back.

  Key definitions include:
    * `Invocation.Writes`
    * `Statement`
    * `Dialect.IsClear`
    * `Dialect.Renders`
    * `Language.Builds`

  Main statements:
    * `Invocation.read_of_writes`
    * `Dialect.standard_isPlain`
    * `Language.readLines_of_renders`
    * `Language.parse_of_renders`
-/

namespace CommandScript

open Text (StopsAt)

namespace Invocation

------------------------------------------------------------
-- Written Invocations
------------------------------------------------------------

/- A character of a value as it is written. -/
def writeCharacter : Char → List Char
| '\\' => ['\\', '\\']
| '"' => ['\\', '"']
| '\n' => ['\\', 'n']
| c => [c]

/- A parameter as it is written, behind a space. -/
def writeParameter
    (parameter : String × String) : List Char :=
  ' ' :: (parameter.1.toList ++
    '=' :: '"' ::
      (parameter.2.toList.flatMap writeCharacter ++ ['"']))

/-
  A text writes an invocation: it is the kind and then the
  parameters in any order.
-/
def Writes
    (invocation : Invocation)
    (text : List Char) : Prop :=
  ∃ parameters : List (String × String),
    parameters.Perm invocation.params.toList ∧
      text =
        invocation.kind.toList ++
          parameters.flatMap writeParameter

/- The kind and the keys of an invocation are names. -/
structure IsNamed (invocation : Invocation) : Prop where
  kind : Text.isName invocation.kind.toList = true
  keys :
    ∀ entry ∈ invocation.params.toList,
      Text.isName entry.1.toList = true

/- A character is written in one of the ways it can be. -/
theorem spellsCharacter_writeCharacter
    (c : Char) :
    SpellsCharacter c (writeCharacter c) := by
  unfold writeCharacter
  split
  · exact .backslash
  · exact .quote
  · exact .feed
  · rename_i hBackslash hQuote _
    exact .plain ⟨hQuote, hBackslash⟩

/- What is written for a value spells the value. -/
theorem spells_flatMap_writeCharacter
    (value : List Char) :
    Spells value (value.flatMap writeCharacter) := by
  induction value with
  | nil => exact .nil
  | cons c value ih =>
      rw [List.flatMap_cons]
      exact .cons (spellsCharacter_writeCharacter c) ih

/- Parameters are worded as they are written. -/
theorem exists_parameterWordings
    {parameters : List (String × String)}
    (hNames :
      ∀ entry ∈ parameters,
        Text.isName entry.1.toList = true) :
    ∃ ps : List ParameterWording,
      ParameterWording.textOfAll ps =
          parameters.flatMap writeParameter ∧
        ps.map (fun p => (p.name, p.setting)) =
          parameters := by
  induction parameters with
  | nil => exact ⟨[], rfl, rfl⟩
  | cons entry parameters ih =>
      rcases List.forall_mem_cons.mp hNames with
        ⟨hName, hNames⟩
      rcases ih hNames with ⟨ps, hTexts, hEntries⟩
      rcases entry with ⟨key, value⟩
      have hSpells :=
        spells_flatMap_writeCharacter value.toList
      rcases hSpells.exists_body with
        ⟨body, hBody, hMeaning⟩
      let p : ParameterWording :=
        ⟨[' '], key.toList, .quoted body,
          List.cons_ne_nil _ _, by decide, hName⟩
      refine ⟨p :: ps, ?_, ?_⟩
      · unfold ParameterWording.textOfAll at hTexts ⊢
        rw [List.flatMap_cons, List.flatMap_cons, hTexts]
        simp [p, ParameterWording.text,
          ParameterWording.body, ValueWording.text,
          writeParameter, hBody]
      · rw [List.map_cons, hEntries]
        simp [p, ParameterWording.name,
          ParameterWording.setting, ValueWording.meaning,
          hMeaning]

section Writing

variable {invocation : Invocation}
variable {text : List Char}

/- What is written is worded so, and calls for it. -/
theorem exists_wording_of_writes
    (hNamed : invocation.IsNamed)
    (hWrites : invocation.Writes text) :
    ∃ w : Wording,
      w.text = text ∧ w.CallsFor invocation := by
  rcases hWrites with ⟨parameters, hPerm, rfl⟩
  have hNames :
      ∀ entry ∈ parameters,
        Text.isName entry.1.toList = true := by
    intro entry hEntry
    exact hNamed.keys entry (hPerm.mem_iff.mp hEntry)
  rcases exists_parameterWordings hNames with
    ⟨ps, hTexts, hEntries⟩
  have hKeys :
      ps.map ParameterWording.name =
        parameters.map fun entry => entry.1 := by
    rw [← hEntries, List.map_map]
    rfl
  have hDistinct :
      (ps.map ParameterWording.name).Nodup := by
    rw [hKeys]
    apply (hPerm.map _).nodup_iff.mpr
    exact invocation.params.nodup_keys
  refine
    ⟨⟨invocation.kind.toList, ps, hNamed.kind, hDistinct⟩,
      ?_, ?_, ?_⟩
  · unfold Wording.text
    rw [hTexts]
  · exact String.ofList_toList.symm
  · intro name setting
    rw [Dictionary.get?_eq_some_iff, ← hPerm.mem_iff,
      ← hEntries, List.mem_map]
    simp only [Prod.mk.injEq]

/- What is written is read back. -/
theorem read_of_writes
    (hNamed : invocation.IsNamed)
    (hWrites : invocation.Writes text) :
    read text = .ok invocation := by
  rcases exists_wording_of_writes hNamed hWrites with
    ⟨w, rfl, hCalls⟩
  rw [Wording.callsFor_iff.mp hCalls]
  exact Wording.read_of_text_eq w.trim_text.symm

/- There are no blanks around what is written. -/
theorem trim_of_writes
    (hNamed : invocation.IsNamed)
    (hWrites : invocation.Writes text) :
    Text.trim text = text := by
  rcases exists_wording_of_writes hNamed hWrites with
    ⟨w, rfl, _⟩
  exact w.trim_text

/- What is written starts with a character of a name. -/
theorem exists_head_of_writes
    (hNamed : invocation.IsNamed)
    (hWrites : invocation.Writes text) :
    ∃ c rest,
      text = c :: rest ∧ Text.isNameChar c = true := by
  rcases hWrites with ⟨parameters, _, rfl⟩
  cases hKind : invocation.kind.toList with
  | nil =>
      have hSome := Text.ne_nil_of_isName hNamed.kind
      exact absurd hKind hSome
  | cons c kind =>
      have hChars := Text.isNameChar_of_mem hNamed.kind
      refine ⟨c, _, rfl, hChars c ?_⟩
      rw [hKind]
      exact List.mem_cons_self

/- A name is written on one line. -/
theorem free_of_isName
    {s : List Char}
    (hName : Text.isName s = true) :
    '\n' ∉ s := by
  intro hMem
  have hChar := Text.isNameChar_of_mem hName _ hMem
  exact absurd hChar (by decide)

/- What is written takes up one line. -/
theorem free_of_writes
    (hNamed : invocation.IsNamed)
    (hWrites : invocation.Writes text) :
    '\n' ∉ text := by
  have hCharacter (c : Char) :
      '\n' ∉ writeCharacter c := by
    unfold writeCharacter
    split
    · decide
    · decide
    · decide
    · rename_i hFeed
      simpa [eq_comm] using hFeed
  rcases hWrites with ⟨parameters, hPerm, rfl⟩
  rw [List.mem_append, not_or]
  refine ⟨free_of_isName hNamed.kind, ?_⟩
  intro hMem
  rcases List.mem_flatMap.mp hMem with
    ⟨entry, hEntry, hMem⟩
  have hKey :=
    hNamed.keys entry (hPerm.mem_iff.mp hEntry)
  have hFree := free_of_isName hKey
  simp [writeParameter, hFree, hCharacter] at hMem

end Writing

end Invocation

------------------------------------------------------------
-- Clear Dialects
------------------------------------------------------------

namespace Dialect

/- A marker is a line of its own, and no comment. -/
structure IsMarker
    (d : Dialect)
    (marker : List Char) : Prop where
  some : marker ≠ []
  trimmed : Text.trim marker = marker
  free : '\n' ∉ marker
  uncommented : d.isComment marker = false

/- The markers of a dialect can be told apart. -/
structure IsClear (d : Dialect) : Prop where
  opening : d.IsMarker d.groupOpen.toList
  closing : d.IsMarker d.groupClose.toList
  distinct : d.groupOpen ≠ d.groupClose

/- A text is no comment and no marker. -/
structure IsPlain
    (d : Dialect)
    (text : List Char) : Prop where
  uncommented : d.isComment text = false
  not_opening : text ≠ d.groupOpen.toList
  not_closing : text ≠ d.groupClose.toList

/- Braces are clear markers. -/
theorem standard_isClear : standard.IsClear where
  opening := ⟨by decide, by decide, by decide, by decide⟩
  closing := ⟨by decide, by decide, by decide, by decide⟩
  distinct := by decide

/- No comment and no brace starts as a name does. -/
theorem standard_isPlain
    {c : Char}
    (hName : Text.isNameChar c = true)
    (rest : List Char) :
    standard.IsPlain (c :: rest) := by
  have hOther
      {other : Char}
      (hMark : Text.isNameChar other = false) :
      other ≠ c := by
    rintro rfl
    rw [hName] at hMark
    cases hMark
  have hHash : '#' ≠ c := hOther (by decide)
  have hSlash : '/' ≠ c := hOther (by decide)
  have hOpen : '{' ≠ c := hOther (by decide)
  have hClose : '}' ≠ c := hOther (by decide)
  refine ⟨?_, ?_, ?_⟩
  · simp [isComment, standard, List.isPrefixOf, hHash,
      hSlash]
  · intro hText
    exact hOpen (List.cons.inj hText).1.symm
  · intro hText
    exact hClose (List.cons.inj hText).1.symm

section Roles

variable {d : Dialect}
variable {text raw : List Char}

/- A marker on a line of its own is no comment. -/
theorem IsMarker.not_skips
    (hMarker : d.IsMarker text) :
    ¬ d.Skips text := by
  simp [skips_iff, hMarker.some, hMarker.uncommented]

/- A line with the opening marker opens a group. -/
theorem IsClear.role_opening
    (hClear : d.IsClear)
    (hPads : Text.Pads d.groupOpen.toList raw) :
    d.role raw = .opening := by
  rw [role_eq_iff, hPads.trim_eq hClear.opening.trimmed]
  exact ⟨hClear.opening.not_skips, rfl⟩

/- A line with the closing marker closes a group. -/
theorem IsClear.role_closing
    (hClear : d.IsClear)
    (hPads : Text.Pads d.groupClose.toList raw) :
    d.role raw = .closing := by
  rw [role_eq_iff, hPads.trim_eq hClear.closing.trimmed]
  refine ⟨hClear.closing.not_skips, ?_, rfl⟩
  intro hEqual
  have hSame := String.toList_injective hEqual
  exact hClear.distinct hSame.symm

/- A line with any other text calls for a command. -/
theorem IsPlain.role_command
    (hPlain : d.IsPlain text)
    (hSome : text ≠ [])
    (hTrim : Text.trim raw = text) :
    d.role raw = .command text := by
  have hKept : ¬ d.Skips text := by
    simp [skips_iff, hSome, hPlain.uncommented]
  rw [role_eq_iff, hTrim]
  exact
    ⟨hKept, hPlain.not_opening, hPlain.not_closing, rfl⟩

end Roles

end Dialect

------------------------------------------------------------
-- Documents
------------------------------------------------------------

/- A part of a document: a command, or parts in a group. -/
inductive Statement where
| command (invocation : Invocation)
| group (body : List Statement)

namespace Statement

mutual

/- The commands that are called for. -/
def invocations : Statement → List Invocation
| .command invocation => [invocation]
| .group body => invocationsOfAll body

def invocationsOfAll : List Statement → List Invocation
| [] => []
| statement :: rest =>
    statement.invocations ++ invocationsOfAll rest

end

mutual

/- The number of lines that are taken up. -/
def lineCount : Statement → Nat
| .command _ => 1
| .group body => lineCountOfAll body + 2

def lineCountOfAll : List Statement → Nat
| [] => 0
| statement :: rest =>
    statement.lineCount + lineCountOfAll rest

end

end Statement

/-
  A document is written on lines, with blanks around each. A
  command line must not look like a marker or a comment,
  which it never does in the standard dialect.
-/
inductive Dialect.Renders
    (d : Dialect) :
    List Statement → List (List Char) → Prop where
| nil : Renders d [] []
| command
    {invocation : Invocation}
    {text raw : List Char}
    {rest : List Statement}
    {lines : List (List Char)}
    (hWrites : invocation.Writes text)
    (hPlain : d ≠ .standard → d.IsPlain text)
    (hRaw : Text.Pads text raw)
    (hRest : Renders d rest lines) :
    Renders d (.command invocation :: rest) (raw :: lines)
| group
    {opening closing : List Char}
    {body rest : List Statement}
    {inner lines : List (List Char)}
    (hOpening : Text.Pads d.groupOpen.toList opening)
    (hBody : Renders d body inner)
    (hClosing : Text.Pads d.groupClose.toList closing)
    (hRest : Renders d rest lines) :
    Renders d (.group body :: rest)
      (opening :: (inner ++ closing :: lines))

namespace Language

variable {κ : Type}

/- A registered kind makes a command of the parameters. -/
def Accepts
    (l : Language κ)
    (invocation : Invocation) : Prop :=
  ∃ command,
    l.registry.construct invocation.kind
        invocation.params =
      some (.ok command)

/-
  The tree of a document: every command stands where it is
  called for, and every node has the number of its line,
  counted from the number of the first.
-/
inductive Builds
    (l : Language κ) :
    Nat → List Statement → List (Node κ) → Prop where
| nil
    {number : Nat} :
    Builds l number [] []
| command
    {number : Nat}
    {invocation : Invocation}
    {command : κ}
    {rest : List Statement}
    {nodes : List (Node κ)}
    (hCommand :
      l.registry.construct invocation.kind
          invocation.params =
        some (.ok command))
    (hRest : Builds l (number + 1) rest nodes) :
    Builds l number (.command invocation :: rest)
      (.leaf ⟨invocation.kind, number⟩ command :: nodes)
| group
    {number : Nat}
    {body rest : List Statement}
    {children nodes : List (Node κ)}
    (hBody : Builds l (number + 1) body children)
    (hRest :
      Builds l
        (number + Statement.lineCountOfAll body + 2)
        rest nodes) :
    Builds l number (.group body :: rest)
      (.group number .idle children :: nodes)

end Language

------------------------------------------------------------
-- Written Lines
------------------------------------------------------------

namespace Dialect.Renders

variable {d : Dialect}
variable {statements : List Statement}
variable {raws : List (List Char)}

/- A document takes up as many lines as it needs. -/
theorem length_eq
    (hRenders : d.Renders statements raws) :
    raws.length = Statement.lineCountOfAll statements := by
  induction hRenders with
  | nil => rfl
  | command hWrites hPlain hRaw hRest ih =>
      rw [List.length_cons, ih, Statement.lineCountOfAll,
        Statement.lineCount, Nat.add_comm]
  | group hOpening hBody hClosing hRest ihBody ihRest =>
      rw [List.length_cons, List.length_append,
        List.length_cons, ihBody, ihRest,
        Statement.lineCountOfAll, Statement.lineCount]
      omega

/- Every line of a document is one line of text. -/
theorem lines_ok
    (hClear : d.IsClear)
    (hNamed :
      ∀ invocation ∈ Statement.invocationsOfAll statements,
        invocation.IsNamed)
    (hRenders : d.Renders statements raws) :
    ∀ raw ∈ raws, '\n' ∉ raw ∧ raw ≠ [] := by
  have hLine
      {text raw : List Char}
      (hPads : Text.Pads text raw)
      (hFree : '\n' ∉ text)
      (hSome : text ≠ []) :
      '\n' ∉ raw ∧ raw ≠ [] := by
    refine ⟨hPads.free hFree, ?_⟩
    rcases hPads with ⟨left, right, _, _, _, rfl⟩
    simp [hSome]
  induction hRenders with
  | nil => simp
  | command hWrites hPlain hRaw hRest ih =>
      rw [Statement.invocationsOfAll,
        Statement.invocations, List.singleton_append,
        List.forall_mem_cons] at hNamed
      rcases hNamed with ⟨hFirst, hNamed⟩
      rcases Invocation.exists_head_of_writes hFirst hWrites
        with ⟨c, rest, rfl, _⟩
      have hFree := Invocation.free_of_writes hFirst hWrites
      rw [List.forall_mem_cons]
      exact
        ⟨hLine hRaw hFree (List.cons_ne_nil c rest),
          ih hNamed⟩
  | group hOpening hBody hClosing hRest ihBody ihRest =>
      rw [Statement.invocationsOfAll,
        Statement.invocations, List.forall_mem_append]
        at hNamed
      rcases hNamed with ⟨hInner, hNamed⟩
      have hOpen :=
        hLine hOpening hClear.opening.free
          hClear.opening.some
      have hClose :=
        hLine hClosing hClear.closing.free
          hClear.closing.some
      rw [List.forall_mem_cons, List.forall_mem_append,
        List.forall_mem_cons]
      exact ⟨hOpen, ihBody hInner, hClose, ihRest hNamed⟩

end Dialect.Renders

------------------------------------------------------------
-- Drafts of Documents
------------------------------------------------------------

namespace Draft

variable {κ : Type}

/- Append nodes to the innermost open group. -/
def addAll
    (d : Draft κ)
    (nodes : List (Node κ)) : Draft κ :=
  nodes.foldl add d

/- Nodes that are added are the children of the group. -/
theorem addAll_frame
    (root : List (Node κ))
    (frame : Frame κ)
    (outer : List (Frame κ))
    (nodes : List (Node κ)) :
    addAll ⟨root, frame :: outer⟩ nodes =
      ⟨root,
        ⟨frame.line, frame.children ++ nodes⟩ ::
          outer⟩ := by
  induction nodes generalizing frame with
  | nil =>
      rw [List.append_nil]
      rfl
  | cons node nodes ih =>
      have hNext := ih ⟨frame.line, frame.children ++ [node]⟩
      rw [List.append_assoc] at hNext
      exact hNext

/- Outside of groups they are children of the root. -/
theorem addAll_root
    (root nodes : List (Node κ)) :
    addAll ⟨root, []⟩ nodes = ⟨root ++ nodes, []⟩ := by
  induction nodes generalizing root with
  | nil =>
      rw [List.append_nil]
      rfl
  | cons node nodes ih =>
      have hNext := ih (root ++ [node])
      rw [List.append_assoc] at hNext
      exact hNext

/- A group that is filled and closed is added as a node. -/
theorem closeGroup?_addAll_openGroup
    (d : Draft κ)
    (line : Nat)
    (nodes : List (Node κ)) :
    ((d.openGroup line).addAll nodes).closeGroup? =
      some (d.add (.group line .idle nodes)) := by
  unfold openGroup
  rw [addAll_frame]
  rfl

end Draft

------------------------------------------------------------
-- Reading Documents
------------------------------------------------------------

namespace Language

variable {κ : Type}
variable {l : Language κ}

section Steps

variable {raw text : List Char}

/- The text of an invocation is a command line. -/
theorem role_of_writes
    {invocation : Invocation}
    (hNamed : invocation.IsNamed)
    (hWrites : invocation.Writes text)
    (hPlain :
      l.dialect ≠ .standard → l.dialect.IsPlain text)
    (hRaw : Text.Pads text raw) :
    l.dialect.role raw = .command text := by
  rcases Invocation.exists_head_of_writes hNamed hWrites
    with ⟨c, tail, hHead, hChar⟩
  have hSome : text ≠ [] := by
    rw [hHead]
    exact List.cons_ne_nil c tail
  have hPlain : l.dialect.IsPlain text := by
    by_cases hStandard : l.dialect = .standard
    · rw [hStandard, hHead]
      exact Dialect.standard_isPlain hChar tail
    · exact hPlain hStandard
  apply hPlain.role_command hSome
  exact
    hRaw.trim_eq (Invocation.trim_of_writes hNamed hWrites)

/- The lines of a group add the group with its children. -/
theorem readLines_of_group
    {opening closing : List Char}
    {inner : List (List Char)}
    {children : List (Node κ)}
    {number : Nat}
    (hClear : l.dialect.IsClear)
    (hOpening :
      Text.Pads l.dialect.groupOpen.toList opening)
    (hClosing :
      Text.Pads l.dialect.groupClose.toList closing)
    (hInner :
      ∀ draft,
        l.readLines draft (number + 1) inner =
          .ok (draft.addAll children))
    (draft : Draft κ)
    (raws : List (List Char)) :
    l.readLines draft number
        (opening :: (inner ++ closing :: raws)) =
      l.readLines (draft.add (.group number .idle children))
        (number + 1 + inner.length + 1) raws := by
  have hOpen :
      l.step draft (number, opening) =
        .ok (draft.openGroup number) := by
    unfold step
    simp only [hClear.role_opening hOpening]
  have hClose :
      l.step ((draft.openGroup number).addAll children)
          (number + 1 + inner.length, closing) =
        .ok (draft.add (.group number .idle children)) := by
    unfold step
    simp only [hClear.role_closing hClosing,
      Draft.closeGroup?_addAll_openGroup]
  rw [readLines, hOpen]
  change
    l.readLines (draft.openGroup number) (number + 1)
      (inner ++ closing :: raws) = _
  rw [l.readLines_append, hInner]
  change
    l.readLines ((draft.openGroup number).addAll children)
      (number + 1 + inner.length) (closing :: raws) = _
  rw [readLines, hClose]
  rfl

end Steps

/- The lines of a document add the nodes of its tree. -/
theorem readLines_of_renders
    {statements : List Statement}
    {raws : List (List Char)}
    (hClear : l.dialect.IsClear)
    (hNamed :
      ∀ invocation ∈ Statement.invocationsOfAll statements,
        invocation.IsNamed)
    (hAccepts :
      ∀ invocation ∈ Statement.invocationsOfAll statements,
        l.Accepts invocation)
    (hRenders : l.dialect.Renders statements raws)
    (number : Nat) :
    ∃ nodes,
      l.Builds number statements nodes ∧
        ∀ draft,
          l.readLines draft number raws =
            .ok (draft.addAll nodes) := by
  induction hRenders generalizing number with
  | nil => exact ⟨[], .nil, fun draft => rfl⟩
  | @command invocation text raw rest lines hWrites hPlain
      hRaw hRest ih =>
      rw [Statement.invocationsOfAll,
        Statement.invocations, List.singleton_append,
        List.forall_mem_cons] at hNamed hAccepts
      rcases hNamed with ⟨hFirst, hNamed⟩
      rcases hAccepts with ⟨⟨command, hCommand⟩, hAccepts⟩
      rcases ih hNamed hAccepts (number + 1) with
        ⟨nodes, hBuilds, hRead⟩
      have hRole := role_of_writes hFirst hWrites hPlain hRaw
      have hInvocation :=
        Invocation.read_of_writes hFirst hWrites
      refine ⟨_, .command hCommand hBuilds, ?_⟩
      intro draft
      rw [readLines,
        l.step_of_command draft number hRole hInvocation
          hCommand]
      exact hRead _
  | @group opening closing body rest inner lines hOpening
      hBody hClosing hRest ihBody ihRest =>
      rw [Statement.invocationsOfAll,
        Statement.invocations, List.forall_mem_append]
        at hNamed hAccepts
      rcases ihBody hNamed.1 hAccepts.1 (number + 1) with
        ⟨children, hChildren, hInner⟩
      rcases ihRest hNamed.2 hAccepts.2
          (number + Statement.lineCountOfAll body + 2) with
        ⟨nodes, hBuilds, hRead⟩
      refine ⟨_, .group hChildren hBuilds, ?_⟩
      intro draft
      have hNumber :
          number + 1 + inner.length + 1 =
            number + Statement.lineCountOfAll body + 2 := by
        rw [hBody.length_eq]
        omega
      rw [readLines_of_group hClear hOpening hClosing
        hInner, hNumber]
      exact hRead _

/-
  A document that is written down is read back. Its tree has
  the same nesting, kinds and order; each leaf is made from
  exactly its kind and parameters, and each node has the
  number of the line that it is written on.
-/
theorem parse_of_renders
    (l : Language κ)
    (statements : List Statement)
    (raws : List (List Char))
    (text : String)
    (hClear : l.dialect.IsClear)
    (hNamed :
      ∀ invocation ∈ Statement.invocationsOfAll statements,
        invocation.IsNamed)
    (hAccepts :
      ∀ invocation ∈ Statement.invocationsOfAll statements,
        l.Accepts invocation)
    (hRenders : l.dialect.Renders statements raws)
    (hJoins : Text.Joins raws text.toList) :
    ∃ nodes,
      l.Builds 1 statements nodes ∧
        l.parse text = .ok ⟨.idle, nodes⟩ := by
  rcases readLines_of_renders hClear hNamed hAccepts
      hRenders 1 with
    ⟨nodes, hBuilds, hRead⟩
  have hLines := hRenders.lines_ok hClear hNamed
  have hTrim :=
    Text.map_trim_lines (fun raw hRaw => (hLines raw hRaw).1)
      (fun raw hRaw => (hLines raw hRaw).2) hJoins
  refine ⟨nodes, hBuilds, ?_⟩
  rw [l.parse_eq_readLines,
    l.readLines_congr Draft.empty 1 hTrim, hRead]
  unfold Draft.empty
  rw [Draft.addAll_root]
  rfl

/- A value with a quote, a backslash and a line feed. -/
theorem parse_of_renders_nested_group :
    let l : Language Params :=
      ⟨Registry.empty.registerConfigurable "note" .ok,
        .standard⟩
    let note : Invocation :=
      ⟨"note",
        Dictionary.ofList
          [("a", "\"\\\n"), ("b", "\x7d")]⟩
    let statements : List Statement :=
      [.group [.command note], .command note]
    let text :=
      " \x7b\n\tnote b=\"\x7d\" a=\"\\\"\\\\\\n\" \r\n\x7d\n" ++
        "note a=\"\\\"\\\\\\n\" b=\"\x7d\""
    ∃ nodes,
      l.Builds 1 statements nodes ∧
        l.parse text = .ok ⟨.idle, nodes⟩ := by
  intro l note statements text
  have hParams :
      note.params.toList =
        [("a", "\"\\\n"), ("b", "\x7d")] := by
    decide
  have hNamed :
      ∀ invocation ∈ Statement.invocationsOfAll statements,
        invocation.IsNamed := by
    intro invocation hMem
    have hNote : invocation = note := by
      simpa [statements, Statement.invocationsOfAll,
        Statement.invocations] using hMem
    rw [hNote]
    refine ⟨by decide, ?_⟩
    rw [hParams]
    decide
  have hAccepts :
      ∀ invocation ∈ Statement.invocationsOfAll statements,
        l.Accepts invocation := by
    intro invocation hMem
    have hNote : invocation = note := by
      simpa [statements, Statement.invocationsOfAll,
        Statement.invocations] using hMem
    rw [hNote]
    exact ⟨note.params, rfl⟩
  have hPads
      (left right line : List Char)
      (hLeft : Text.Blanks left)
      (hRight : Text.Blanks right)
      (hFree : '\n' ∉ left ++ right) :
      Text.Pads line (left ++ line ++ right) :=
    ⟨left, right, hLeft, hRight, hFree, rfl⟩
  have hBare (line : List Char) : Text.Pads line line :=
    ⟨[], [], by decide, by decide, by decide, by simp⟩
  have hFirst :
      note.Writes
        (note.kind.toList ++
          [("b", "\x7d"), ("a", "\"\\\n")].flatMap
            Invocation.writeParameter) := by
    refine ⟨_, ?_, rfl⟩
    rw [hParams]
    exact List.Perm.swap _ _ _
  have hSecond :
      note.Writes
        (note.kind.toList ++
          note.params.toList.flatMap
            Invocation.writeParameter) :=
    ⟨_, List.Perm.refl _, rfl⟩
  have hPlain
      (line : List Char)
      (hOther : l.dialect ≠ .standard) :
      l.dialect.IsPlain line :=
    absurd rfl hOther
  have hRenders :=
    Dialect.Renders.group (d := l.dialect)
      (hPads [' '] [] _ (by decide) (by decide)
        (by decide))
      (.command hFirst (hPlain _)
        (hPads ['\t'] [' ', '\r'] _ (by decide)
          (by decide) (by decide))
        .nil)
      (hBare _)
      (.command hSecond (hPlain _) (hBare _) .nil)
  apply parse_of_renders l statements _ text
    Dialect.standard_isClear hNamed hAccepts hRenders
  exact .inr (by decide)

end Language

end CommandScript
