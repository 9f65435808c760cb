import CommandScript.Language
import CommandScript.Proofs.Invocations
import CommandScript.Proofs.LeastKeys

/-
  The order of the parameters on a line. A parameter is a
  token that ends itself, so the tokens of a line can be put
  in any order, with any blanks between them, and the line
  calls for the same invocation. Whatever is made of it is
  then the same, and an error that names one of several
  parameters names the least.

  Key definitions include:
    * `Wording.Names`
    * `Invocation.Reordered`

  Main statements:
    * `Invocation.exists_parameters_of_tokens`
    * `Invocation.callsFor_of_perm`
    * `Invocation.read_of_reordered`
-/

namespace CommandScript

------------------------------------------------------------
-- Tokens
------------------------------------------------------------

/- The text has a parameter of a name. -/
def Wording.Names
    (w : Wording)
    (name : String) : Prop :=
  name ∈ w.parameters.map ParameterWording.name

namespace Invocation

/-
  A line holds the tokens of another in some order: it has
  the same first word, and behind it the same parameters
  without their gaps, each text as it was, each behind a gap
  of its own.
-/
def Reordered (line line' : List Char) : Prop :=
  ∃ (w : Wording) (tokens : List (List Char × List Char)),
    w.text = Text.trim line ∧
      (∀ token ∈ tokens,
        token.1 ≠ [] ∧ Text.Blanks token.1) ∧
        (tokens.map Prod.snd).Perm
            (w.parameters.map ParameterWording.body) ∧
          Text.trim line' =
            w.kind ++
              tokens.flatMap fun token => token.1 ++ token.2

section Tokens

variable {ps ps' : List ParameterWording}

/- Tokens behind gaps are parameters again. -/
theorem exists_parameters_of_tokens
    {tokens : List (List Char × List Char)}
    (hGaps :
      ∀ token ∈ tokens, token.1 ≠ [] ∧ Text.Blanks token.1)
    (hBodies :
      ∀ body ∈ tokens.map Prod.snd,
        body ∈ ps.map ParameterWording.body) :
    ∃ ps',
      ps'.map ParameterWording.body = tokens.map Prod.snd ∧
        ParameterWording.textOfAll ps' =
          tokens.flatMap fun token =>
            token.1 ++ token.2 := by
  induction tokens with
  | nil => exact ⟨[], rfl, rfl⟩
  | cons token tokens ih =>
      rcases List.forall_mem_cons.mp hGaps with
        ⟨⟨hGap, hBlanks⟩, hGaps⟩
      rw [List.map_cons] at hBodies
      rcases List.forall_mem_cons.mp hBodies with
        ⟨hBody, hBodies⟩
      rcases List.mem_map.mp hBody with ⟨p, _, hp⟩
      rcases ih hGaps hBodies with ⟨ps', hMap, hText⟩
      let q : ParameterWording :=
        ⟨token.1, p.key, p.value, hGap, hBlanks, p.isName⟩
      have hq : q.body = token.2 := hp
      refine ⟨q :: ps', ?_, ?_⟩
      · rw [List.map_cons, List.map_cons, hq, hMap]
      · rw [ParameterWording.textOfAll_cons, hText,
          ParameterWording.text, hq, List.flatMap_cons]

/- The name and the setting that a token is read as. -/
def readToken (body : List Char) : String × String :=
  match readParameter body with
  | .ok step => (step.key, step.value)
  | .error _ => ("", "")

/- A token by itself says what is set to what. -/
theorem map_readToken_body
    (ps : List ParameterWording) :
    (ps.map ParameterWording.body).map readToken =
      ps.map fun p => (p.name, p.setting) := by
  rw [List.map_map]
  apply List.map_congr_left
  intro p _
  have hRead := readParameter_body p Text.stopsAt_nil
  rw [List.append_nil] at hRead
  simp only [Function.comp_apply, readToken, hRead]

/- The same tokens set the same names to the same values. -/
theorem perm_of_perm_body
    (hPerm :
      (ps'.map ParameterWording.body).Perm
        (ps.map ParameterWording.body)) :
    (ps'.map fun p => (p.name, p.setting)).Perm
      (ps.map fun p => (p.name, p.setting)) := by
  have hTokens := hPerm.map readToken
  rwa [map_readToken_body, map_readToken_body] at hTokens

end Tokens

section Lines

variable {line line' : List Char}

/- A reordered line is worded with the same settings. -/
theorem Reordered.exists_wordings
    (hReordered : Reordered line line') :
    ∃ w w' : Wording,
      w.text = Text.trim line ∧
        w'.text = Text.trim line' ∧
          w'.kind = w.kind ∧
            (w'.parameters.map fun p =>
                (p.name, p.setting)).Perm
              (w.parameters.map fun p =>
                (p.name, p.setting)) := by
  rcases hReordered with
    ⟨w, tokens, hText, hGaps, hPerm, hText'⟩
  rcases exists_parameters_of_tokens hGaps
      (fun body hBody => hPerm.mem_iff.mp hBody) with
    ⟨ps', hBodies, hTokens⟩
  rw [← hBodies] at hPerm
  have hSettings := perm_of_perm_body hPerm
  have hNames := hSettings.map Prod.fst
  rw [List.map_map, List.map_map] at hNames
  refine
    ⟨w, ⟨w.kind, ps', w.isName, hNames.nodup_iff.mpr w.distinct⟩,
      hText, ?_, rfl, hSettings⟩
  rw [hText', ← hTokens]
  rfl

/- Lines with the same settings call for the same. -/
theorem callsFor_of_perm
    {w w' : Wording}
    {invocation : Invocation}
    (hKind : w'.kind = w.kind)
    (hPerm :
      (w'.parameters.map fun p => (p.name, p.setting)).Perm
        (w.parameters.map fun p => (p.name, p.setting)))
    (hCalls : w.CallsFor invocation) :
    w'.CallsFor invocation := by
  have hMem (v : Wording) (name setting : String) :
      (name, setting) ∈
          v.parameters.map (fun p => (p.name, p.setting)) ↔
        ∃ p ∈ v.parameters,
          p.name = name ∧ p.setting = setting := by
    simp only [List.mem_map, Prod.mk.injEq]
  refine ⟨by rw [hKind]; exact hCalls.1, ?_⟩
  intro name setting
  rw [hCalls.2 name setting, ← hMem, ← hMem,
    hPerm.mem_iff]

/- The parameters of a line are those it is worded with. -/
theorem has_eq_names
    {w : Wording}
    {invocation : Invocation}
    (hText : w.text = Text.trim line)
    (hRead : read line = .ok invocation) :
    invocation.params.Has = w.Names := by
  rw [Wording.read_of_text_eq hText] at hRead
  cases hRead
  funext name
  exact propext contains_assigned_empty

/-
  The tokens of a line that is read can be reordered, with
  any blanks between them, and it is read as the same
  invocation. In every language it stands for the same
  command or is refused with the same error. In particular
  the parameter that is refused as unknown is the least one
  of the line that is not allowed, and the one that is
  refused by a kind without parameters is the least of the
  line.
-/
theorem read_of_reordered
    {invocation : Invocation}
    (hRead : read line = .ok invocation)
    (hReordered : Reordered line line') :
    read line' = .ok invocation ∧
    (∀ (κ : Type) (l : Language κ) (number : Nat),
      l.command number line' = l.command number line) ∧
    (∀ w : Wording,
      w.text = Text.trim line' →
        (∀ allowed key,
          invocation.params.denyUnknown allowed =
              .error (.unknownParameter key) ↔
            Text.IsLeast
              (fun name => w.Names name ∧ name ∉ allowed)
              key) ∧
        (∀ (κ : Type) (command : κ) key,
          Constructor.plain command invocation.params =
              Attempt.reject (.notConfigurable key) ↔
            Text.IsLeast w.Names key)) := by
  rcases hReordered.exists_wordings with
    ⟨v, v', hText, hText', hKind, hPerm⟩
  have hCalls : v.CallsFor invocation := by
    apply Wording.callsFor_iff.mpr
    rw [Wording.read_of_text_eq hText] at hRead
    exact (Except.ok.inj hRead).symm
  have hRead' : read line' = .ok invocation := by
    have hCalls' := callsFor_of_perm hKind hPerm hCalls
    rw [Wording.callsFor_iff.mp hCalls']
    exact Wording.read_of_text_eq hText'
  refine ⟨hRead', ?_, ?_⟩
  · intro κ l number
    unfold Language.command
    rw [hRead, hRead']
  · intro w hWorded
    have hNames := has_eq_names hWorded hRead'
    constructor
    · intro allowed key
      rw [Params.denyUnknown_eq_error_iff, ← hNames]
      simp only [ConfigError.unknownParameter.injEq,
        exists_eq_left']
      rfl
    · intro κ command key
      have hPlain :
          invocation.params.denyAll =
              .error (.notConfigurable key) ↔
            Text.IsLeast w.Names key := by
        rw [Params.denyAll_eq_error_iff, ← hNames]
        simp only [ConfigError.notConfigurable.injEq,
          exists_eq_left']
      rw [← hPlain]
      unfold Constructor.plain
      rw [Attempt.ofExcept_eq_reject_iff]
      cases invocation.params.denyAll <;> simp [Except.map]

/- Tokens with blanks and equals signs in their values. -/
theorem read_of_reordered_quoted :
    let line := "set b=\"c=1 d\" a=\\2=".toList
    let line' := " set\ta=\\2=  b=\"c=1 d\" ".toList
    let invocation : Invocation :=
      ⟨"set", .ofList [("a", "\\2="), ("b", "c=1 d")]⟩
    read line = .ok invocation ∧
      Reordered line line' ∧
        read line' = .ok invocation := by
  intro line line' invocation
  let body : List Piece :=
    [ .plain 'c' (by decide), .plain '=' (by decide),
      .plain '1' (by decide), .plain ' ' (by decide),
      .plain 'd' (by decide) ]
  let w : Wording :=
    ⟨['s', 'e', 't'],
      [ ⟨[' '], ['b'], .quoted body, by decide, by decide,
          by decide⟩,
        ⟨[' '], ['a'],
          .bare ['\\', '2', '='] (by simp [Text.isBlank])
            (by decide),
          by decide, by decide, by decide⟩ ],
      by decide, by decide⟩
  have hText : w.text = Text.trim line := by decide
  have hInvocation : w.invocation = invocation := by decide
  have hRead : read line = .ok invocation :=
    hInvocation ▸ Wording.read_of_text_eq hText
  have hReordered : Reordered line line' :=
    ⟨w,
      [ (['\t'], "a=\\2=".toList),
        ([' ', ' '], "b=\"c=1 d\"".toList) ],
      hText, by decide, .swap _ _ _, by decide⟩
  exact
    ⟨hRead, hReordered,
      (read_of_reordered hRead hReordered).1⟩

end Lines

end Invocation

end CommandScript
