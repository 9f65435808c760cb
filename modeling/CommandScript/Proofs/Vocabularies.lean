import CommandScript.Builtin
import CommandScript.Proofs.Faults
import CommandScript.Proofs.Parsing
import CommandScript.Proofs.Views

/-
  The kinds that a text uses. Only the kinds that command
  lines start with are ever looked up, so registries that
  agree on these are the same to the text. A kind that is
  registered anew changes nothing before the first line that
  uses it.

  Key definitions include:
    * `Dialect.Uses`
    * `Registry.AgreeOn`

  Main statements:
    * `Language.step_agree`
    * `Language.parse_agree`
    * `Language.Flaw.of_insert`
    * `Language.parse_conservative`
-/

namespace CommandScript

------------------------------------------------------------
-- Kinds in Use
------------------------------------------------------------

namespace Invocation

/- What is read of a line has its first word as its kind. -/
theorem kind_of_read
    {line : List Char}
    {invocation : Invocation}
    (hRead : read line = .ok invocation) :
    invocation.kind = String.ofList (firstWord line) := by
  unfold read at hRead
  simp only at hRead
  split at hRead
  · cases hRead
  · generalize
      readParameters Dictionary.empty
        ((Text.trim line).dropWhile isSolid) = result
      at hRead
    cases result with
    | error cause => cases hRead
    | ok params =>
        cases hRead
        rfl

end Invocation

/- A command line of a text starts with a kind. -/
def Dialect.Uses
    (d : Dialect)
    (text kind : String) : Prop :=
  ∃ raw ∈ Text.lines text.toList,
    ∃ line,
      d.role raw = .command line ∧
        String.ofList (Invocation.firstWord line) = kind

namespace Registry

variable {κ κ' β : Type}
variable {view : κ → β}
variable {view' : κ' → β}
variable {r : Registry κ}
variable {r' : Registry κ'}
variable {kind : String}

/-
  Two registries agree on a kind as far as can be seen:
  neither has it, or both make the same of the same
  parameters.
-/
inductive AgreeOn
    (view : κ → β)
    (view' : κ' → β)
    (r : Registry κ)
    (r' : Registry κ')
    (kind : String) : Prop where
| absent
    (hNone : r.contains kind = false)
    (hNone' : r'.contains kind = false)
| alike
    {constructor : Constructor κ}
    {constructor' : Constructor κ'}
    (hSome : r.constructors.get? kind = some constructor)
    (hSome' : r'.constructors.get? kind = some constructor')
    (hAlike :
      ∀ params,
        (constructor params).map view =
          (constructor' params).map view')

/- A kind that is registered leaves the others alone. -/
theorem construct_insert_of_ne
    {other : String}
    (hOther : other ≠ kind)
    (constructor : Constructor κ)
    (params : Params) :
    (r.insert kind constructor).construct other params =
      r.construct other params := by
  unfold construct insert
  rw [Dictionary.get?_insert_of_ne _ hOther]

/- What is made of a kind looks the same where they agree. -/
theorem AgreeOn.construct_eq
    (hAgree : AgreeOn view view' r r' kind)
    (params : Params) :
    (r.map view).construct kind params =
      (r'.map view').construct kind params := by
  rw [construct_map, construct_map]
  cases hAgree with
  | absent hNone hNone' =>
      rw [construct_eq_none_iff.mpr hNone,
        construct_eq_none_iff.mpr hNone']
      rfl
  | alike hSome hSome' hAlike =>
      unfold construct
      rw [hSome, hSome']
      exact congrArg some (hAlike params)

end Registry

------------------------------------------------------------
-- Reading with Other Kinds
------------------------------------------------------------

namespace Language

section Agreement

variable {β : Type}
variable {r r' : Registry β}
variable {dialect : Dialect}

/- A line is read alike if its own kind is made alike. -/
theorem step_agree
    {raw : List Char}
    (draft : Draft β)
    (number : Nat)
    (hAgree :
      ∀ line, dialect.role raw = .command line →
        ∀ params,
          r.construct
              (String.ofList (Invocation.firstWord line))
              params =
            r'.construct
              (String.ofList (Invocation.firstWord line))
              params) :
    (⟨r, dialect⟩ : Language β).step draft (number, raw) =
      (⟨r', dialect⟩ : Language β).step draft
        (number, raw) := by
  unfold step
  simp only
  cases hRole : dialect.role raw with
  | skipped | opening | closing => rfl
  | command line =>
      simp only [command, construct]
      cases hRead : Invocation.read line with
      | error cause => rfl
      | ok invocation =>
          have hKind := hAgree line hRole invocation.params
          rw [← Invocation.kind_of_read hRead] at hKind
          simp only [Attempt.ofExcept, Attempt.wrap, bind,
            Except.bind, hKind]

/- Lines are read alike if all their kinds are. -/
theorem readLines_agree
    (draft : Draft β)
    (number : Nat)
    (raws : List (List Char))
    (hAgree :
      ∀ raw ∈ raws, ∀ line,
        dialect.role raw = .command line →
          ∀ params,
            r.construct
                (String.ofList (Invocation.firstWord line))
                params =
              r'.construct
                (String.ofList (Invocation.firstWord line))
                params) :
    (⟨r, dialect⟩ : Language β).readLines draft number
        raws =
      (⟨r', dialect⟩ : Language β).readLines draft number
        raws := by
  induction raws generalizing draft number with
  | nil => rfl
  | cons raw raws ih =>
      rcases List.forall_mem_cons.mp hAgree with
        ⟨hRaw, hRaws⟩
      unfold readLines
      rw [step_agree draft number hRaw]
      congr 1
      funext next
      exact ih next (number + 1) hRaws

/- A text is read alike if all the kinds it uses are. -/
theorem parse_agree
    {text : String}
    (hAgree :
      ∀ kind, dialect.Uses text kind →
        ∀ params,
          r.construct kind params =
            r'.construct kind params) :
    (⟨r, dialect⟩ : Language β).parse text =
      (⟨r', dialect⟩ : Language β).parse text := by
  rw [parse_eq_readLines, parse_eq_readLines]
  have hLines :=
    readLines_agree Draft.empty 1
      (Text.lines text.toList)
      fun raw hRaw line hRole =>
        hAgree _ ⟨raw, hRaw, line, hRole, rfl⟩
  rw [hLines]

end Agreement

------------------------------------------------------------
-- One Kind More
------------------------------------------------------------

section Extension

variable {κ : Type}
variable {r : Registry κ}
variable {kind : String}
variable {constructor : Constructor κ}
variable {dialect : Dialect}

/- What calls for a command does so with a new kind. -/
theorem Calls.insert
    {text : List Char}
    {invocation : Invocation}
    {command : κ}
    (hNew : r.contains kind = false)
    (hCalls :
      (⟨r, dialect⟩ : Language κ).Calls text invocation
        command) :
    (⟨r.insert kind constructor, dialect⟩ :
      Language κ).Calls text invocation command := by
  rcases hCalls with ⟨hRead, hConstruct⟩
  have hOther : invocation.kind ≠ kind := by
    intro hKind
    have hNone :
        r.construct invocation.kind invocation.params =
          none := by
      rw [Registry.construct_eq_none_iff, hKind]
      exact hNew
    rw [hNone] at hConstruct
    cases hConstruct
  refine ⟨hRead, ?_⟩
  exact
    (Registry.construct_insert_of_ne hOther constructor
      invocation.params).trans hConstruct

/- A new kind brings no flaw into a line that has none. -/
theorem Flaw.of_insert
    {before : List (List Char)}
    {raw : List Char}
    {halt : Halt ParseError}
    (hNew : r.contains kind = false)
    (hFlaw :
      (⟨r.insert kind constructor, dialect⟩ :
        Language κ).Flaw before raw halt) :
    ∃ halt,
      (⟨r, dialect⟩ : Language κ).Flaw before raw halt := by
  cases hFlaw with
  | unexpectedClose hRole hNone =>
      exact ⟨_, .unexpectedClose hRole hNone⟩
  | @refused text _ hRole hRefuses =>
      rcases (⟨r, dialect⟩ : Language κ).command_cases
          (before.length + 1) text with
        ⟨invocation, command, hCalls, _⟩ |
        ⟨halt, hRefused, _⟩
      · exact
          absurd hRefuses (hCalls.insert hNew).not_refuses
      · exact ⟨halt, .refused hRole hRefused⟩

/- A kind that is reported as unknown is not registered. -/
theorem Flaw.contains_eq_false
    {before : List (List Char)}
    {raw : List Char}
    {number : Nat}
    (hFlaw :
      (⟨r, dialect⟩ : Language κ).Flaw before raw
        (.error (.unknownKind kind number))) :
    r.contains kind = false := by
  cases hFlaw with
  | refused hRole hRefuses =>
      cases hRefuses with
      | unknownKind hRead hNone =>
          exact Registry.construct_eq_none_iff.mp hNone

/-
  Once a kind is registered that was reported as unknown,
  the text has its first flaw on the same line or later, if
  it has any.
-/
theorem parse_of_insert
    {text : String}
    {number : Nat}
    (constructor : Constructor κ)
    (hUnknown :
      (⟨r, dialect⟩ : Language κ).parse text =
        .error (.error (.unknownKind kind number))) :
    let l : Language κ :=
      ⟨r.insert kind constructor, dialect⟩
    (∃ root, l.parse text = .ok root) ∨
      (∃ opened,
        l.parse text =
          .error (.error (.unclosedGroup opened))) ∨
      ∃ before raw after halt,
        Text.lines text.toList = before ++ raw :: after ∧
          number ≤ before.length + 1 ∧
          l.Flaw before raw halt ∧
          l.parse text = .error halt := by
  intro l
  rcases (⟨r, dialect⟩ : Language κ).parse_error_or_ok
      text with
    ⟨before, raw, after, halt, hLines, hSound, hFlaw,
      hParse⟩ |
    ⟨_, _, _, _, hParse⟩ |
    ⟨_, _, _, hParse⟩
  · rw [hUnknown] at hParse
    cases hParse
    have hNew := hFlaw.contains_eq_false
    have hNumber : number = before.length + 1 :=
      hFlaw.line_eq
    rcases l.parse_error_or_ok text with
      ⟨before', raw', after', halt, hLines', _, hFlaw',
        hParse'⟩ |
      ⟨opened, _, _, _, hParse'⟩ |
      ⟨root, _, _, hParse'⟩
    -- An earlier flaw would have been there before.
    · refine
        .inr
          (.inr
            ⟨before', raw', after', halt, hLines', ?_,
              hFlaw', hParse'⟩)
      apply Nat.le_of_not_lt
      intro hEarlier
      rcases hFlaw'.of_insert hNew with ⟨halt, hOld⟩
      rw [hLines] at hLines'
      rcases List.append_eq_append_iff.mp hLines' with
        ⟨between, rfl, _⟩ | ⟨between, rfl, hRest⟩
      · rw [List.length_append] at hEarlier
        omega
      · cases between with
        | nil =>
            rw [List.append_nil] at hNumber
            omega
        | cons first between =>
            cases hRest
            exact hSound _ _ _ rfl halt hOld
    · exact .inr (.inl ⟨opened, hParse'⟩)
    · exact .inl ⟨root, hParse'⟩
  · rw [hUnknown] at hParse
    cases hParse
  · rw [hUnknown] at hParse
    cases hParse

end Extension

/-
  More kinds, or other ones, make no difference to a text
  that does not use them. Under registries that agree on all
  the kinds that a text uses it is read into trees that look
  the same, or it is refused for the same reason. A kind
  that is registered in addition changes nothing for a text
  that does not use it. And where a kind was reported as
  unknown, registering it leads to a tree, or to a group
  that is not closed, or to an error on that line or a later
  one. If the command on such a line is aborted while it is
  made, so is the reading.
-/
theorem parse_conservative
    {κ κ' β : Type}
    (view : κ → β)
    (view' : κ' → β)
    (r : Registry κ)
    (r' : Registry κ')
    (kind : String)
    (constructor : Constructor κ)
    (dialect : Dialect)
    (text : String) :
    let l : Language κ := ⟨r, dialect⟩
    let l' : Language κ' := ⟨r', dialect⟩
    let extended : Language κ :=
      ⟨r.insert kind constructor, dialect⟩
    ((∀ used, dialect.Uses text used →
        Registry.AgreeOn view view' r r' used) →
      (l.parse text).map (Group.map view) =
        (l'.parse text).map (Group.map view')) ∧
    (¬ dialect.Uses text kind →
      extended.parse text = l.parse text) ∧
    ∀ number,
      l.parse text =
          .error (.error (.unknownKind kind number)) →
        (∃ root, extended.parse text = .ok root) ∨
        (∃ opened,
          extended.parse text =
            .error (.error (.unclosedGroup opened))) ∨
        (∃ cause,
          number ≤ cause.line ∧
            extended.parse text = .error (.error cause)) ∨
        ∃ before raw after,
          Text.lines text.toList = before ++ raw :: after ∧
            number ≤ before.length + 1 ∧
            extended.Flaw before raw .aborted ∧
            extended.parse text = .error .aborted := by
  intro l l' extended
  refine ⟨?_, ?_, ?_⟩
  · intro hAgree
    rw [← l.parse_seen view, ← l'.parse_seen view']
    apply parse_agree
    intro used hUses params
    exact (hAgree used hUses).construct_eq params
  · intro hUnused
    apply parse_agree
    intro used hUses params
    have hOther : used ≠ kind := by
      rintro rfl
      exact hUnused hUses
    exact
      Registry.construct_insert_of_ne hOther constructor
        params
  · intro number hUnknown
    rcases parse_of_insert constructor hUnknown with
      hTree | hUnclosed |
      ⟨before, raw, after, halt, hLines, hNumber, hFlaw,
        hParse⟩
    · exact .inl hTree
    · exact .inr (.inl hUnclosed)
    · cases halt with
      | error cause =>
          have hLine := hFlaw.line_eq
          refine .inr (.inr (.inl ⟨cause, ?_, hParse⟩))
          omega
      | aborted =>
          exact
            .inr
              (.inr
                (.inr
                  ⟨before, raw, after, hLines, hNumber,
                    hFlaw, hParse⟩))

/- A script that is read one line further with a new kind. -/
theorem parse_conservative_of_new_kind :
    let r : Registry Nat :=
      Registry.empty.registerConfigurable "wait"
        fun params => .ok params.size
    let l : Language Nat := ⟨r, .standard⟩
    let extended : Language Nat :=
      ⟨r.insert "hum" fun _ => .ok 7, .standard⟩
    let text := "wait a=1\nhum\n\x7d\nwait\n"
    l.parse text =
        .error (.error (.unknownKind "hum" 2)) ∧
      ∃ cause,
        2 ≤ cause.line ∧
          extended.parse text = .error (.error cause) := by
  intro r l extended text
  have hUnknown :
      l.parse text =
        .error (.error (.unknownKind "hum" 2)) := by
    simp only [l, r, text]
    with_unfolding_all rfl
  have hParse :
      extended.parse text =
        .error (.error (.unexpectedClose 3)) := by
    simp only [extended, r, text]
    with_unfolding_all rfl
  refine ⟨hUnknown, ?_⟩
  rcases (parse_conservative id id r r "hum"
      (fun _ => .ok 7) .standard text).2.2 2 hUnknown with
    ⟨root, hOther⟩ | ⟨opened, hOther⟩ | hLater |
    ⟨_, _, _, _, _, _, hOther⟩
  · cases hParse.symm.trans hOther
  · cases hParse.symm.trans hOther
  · exact hLater
  · cases hParse.symm.trans hOther

/-
  A reading that goes on past a kind that is new to it can
  come to a duration that aborts it.
-/
theorem not_parse_conservative :
    ¬ ∀ text number,
      let l : Language Builtin :=
        ⟨Builtin.registry, .standard⟩
      let extended : Language Builtin :=
        ⟨Builtin.registry.register "hum" .clear, .standard⟩
      l.parse text =
          .error (.error (.unknownKind "hum" number)) →
        (∃ root, extended.parse text = .ok root) ∨
        (∃ opened,
          extended.parse text =
            .error (.error (.unclosedGroup opened))) ∨
        ∃ cause,
          number ≤ cause.line ∧
            extended.parse text =
              .error (.error cause) := by
  intro hConservative
  let text :=
    "hum\ndelay duration=\"18446744073709551615s 1000ms\""
  have hUnknown :
      (⟨Builtin.registry, .standard⟩ :
            Language Builtin).parse text =
        .error (.error (.unknownKind "hum" 1)) := by
    simp only [text]
    with_unfolding_all rfl
  have hAborted :
      (⟨Builtin.registry.register "hum" .clear,
            .standard⟩ :
            Language Builtin).parse text =
        .error .aborted := by
    simp only [text]
    with_unfolding_all rfl
  rcases hConservative text 1 hUnknown with
    ⟨root, hOther⟩ | ⟨opened, hOther⟩ |
    ⟨cause, _, hOther⟩
  · cases hAborted.symm.trans hOther
  · cases hAborted.symm.trans hOther
  · cases hAborted.symm.trans hOther

end Language

end CommandScript
