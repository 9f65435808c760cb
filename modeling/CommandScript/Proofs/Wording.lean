import CommandScript.Invocation
import CommandScript.Proofs.Words

/-
  The grammar of command lines. A line is worded as a kind
  and parameters, each behind a gap of blanks; a parameter
  is a key and a value, and a value is bare or a body of
  characters and escapes between quotes. A text can be
  worded in one way at most.

  Key definitions include:
    * `Piece`
    * `ValueWording`
    * `ParameterWording`
    * `Wording`
    * `Wording.CallsFor`

  Main statements:
    * `Piece.textOfAll_inj`
    * `ValueWording.eq_of_text_append_eq`
    * `ParameterWording.textOfAll_inj`
    * `Wording.text_inj`
-/

namespace CommandScript

open Text (StopsAt stopsAt_nil stopsAt_cons)

------------------------------------------------------------
-- Quoted Bodies
------------------------------------------------------------

/-
  A piece of a quoted value: a plain character, or a
  backslash and the character after it.
-/
inductive Piece where
| plain
    (c : Char)
    (hPlain : c ≠ '"' ∧ c ≠ '\\')
| escape (c : Char)
deriving DecidableEq, Repr

namespace Piece

/- A piece as it is written. -/
def text : Piece → List Char
| .plain c _ => [c]
| .escape c => ['\\', c]

/- What a piece stands for. -/
def meaning : Piece → List Char
| .plain c _ => [c]
| .escape '"' => ['"']
| .escape '\\' => ['\\']
| .escape 'n' => ['\n']
| .escape 't' => ['\t']
| .escape c => ['\\', c]

/- Pieces as they are written. -/
def textOfAll (body : List Piece) : List Char :=
  body.flatMap text

/- What pieces stand for. -/
def meaningOfAll (body : List Piece) : List Char :=
  body.flatMap meaning

/- An escape stands for what it is read as. -/
theorem meaning_escape
    (c : Char) :
    (escape c).meaning = Invocation.unescape c := by
  unfold meaning Invocation.unescape
  split <;> simp_all

/- A body ends at its closing quote, and nowhere else. -/
theorem textOfAll_inj
    {body body' : List Piece}
    {rest rest' : List Char}
    (hText :
      textOfAll body ++ '"' :: rest =
        textOfAll body' ++ '"' :: rest') :
    body = body' ∧ rest = rest' := by
  induction body generalizing body' with
  | nil =>
      cases body' with
      | nil =>
          exact ⟨rfl, by simpa [textOfAll] using hText⟩
      | cons piece body' =>
          cases piece with
          | plain c hPlain =>
              simp [textOfAll, text] at hText
              exact absurd hText.1.symm hPlain.1
          | escape c => simp [textOfAll, text] at hText
  | cons piece body ih =>
      cases body' with
      | nil =>
          cases piece with
          | plain c hPlain =>
              simp [textOfAll, text] at hText
              exact absurd hText.1 hPlain.1
          | escape c => simp [textOfAll, text] at hText
      | cons piece' body' =>
          have hTail :
              piece = piece' ∧
                textOfAll body ++ '"' :: rest =
                  textOfAll body' ++ '"' :: rest' := by
            cases piece with
            | plain c hPlain =>
                cases piece' with
                | plain c' hPlain' =>
                    simpa [textOfAll, text] using hText
                | escape c' =>
                    simp [textOfAll, text] at hText
                    exact absurd hText.1 hPlain.2
            | escape c =>
                cases piece' with
                | plain c' hPlain' =>
                    simp [textOfAll, text] at hText
                    exact absurd hText.1.symm hPlain'.2
                | escape c' =>
                    simpa [textOfAll, text] using hText
          rcases hTail with ⟨rfl, hTail⟩
          rcases ih hTail with ⟨rfl, hRest⟩
          exact ⟨rfl, hRest⟩

end Piece

------------------------------------------------------------
-- Values
------------------------------------------------------------

/- A value as it stands behind an equals sign. -/
inductive ValueWording where
| bare
    (value : List Char)
    (hSolid : ∀ c ∈ value, Text.isBlank c = false)
    (hUnquoted : value.head? ≠ some '"')
| quoted (body : List Piece)
deriving DecidableEq, Repr

namespace ValueWording

/- A value as it is written. -/
def text : ValueWording → List Char
| .bare value _ _ => value
| .quoted body => '"' :: (Piece.textOfAll body ++ ['"'])

/- What a value stands for. -/
def meaning : ValueWording → List Char
| .bare value _ _ => value
| .quoted body => Piece.meaningOfAll body

/- A bare value goes on up to the first blank. -/
theorem solid_of_bare
    {value : List Char}
    (hSolid : ∀ c ∈ value, Text.isBlank c = false) :
    ∀ c ∈ value, Invocation.isSolid c = true := by
  intro c hc
  simp [Invocation.isSolid, hSolid c hc]

/- A value ends with no blank. -/
theorem stopsAt_reverse_text
    (v : ValueWording) :
    StopsAt Text.isBlank v.text.reverse := by
  cases v with
  | bare value hSolid hUnquoted =>
      apply Text.stopsAt_of_forall
      intro c hc
      exact hSolid c (List.mem_reverse.mp hc)
  | quoted body =>
      have hText :
          (quoted body).text.reverse =
            '"' :: ('"' :: Piece.textOfAll body).reverse := by
        simp [text]
      rw [hText]
      exact stopsAt_cons.mpr (by decide)

/- What starts with a quote is no bare value. -/
theorem bare_append_ne_quote
    {value rest s : List Char}
    (hUnquoted : value.head? ≠ some '"')
    (hRest : StopsAt Invocation.isSolid rest) :
    value ++ rest ≠ '"' :: s := by
  intro hText
  cases value with
  | nil =>
      rw [List.nil_append] at hText
      rw [hText] at hRest
      exact absurd (stopsAt_cons.mp hRest) (by decide)
  | cons c value =>
      rw [List.cons_append] at hText
      cases hText
      exact hUnquoted rfl

/- A value ends where a blank or the end of the line is. -/
theorem eq_of_text_append_eq
    {v v' : ValueWording}
    {rest rest' : List Char}
    (hRest : StopsAt Invocation.isSolid rest)
    (hRest' : StopsAt Invocation.isSolid rest')
    (hText : v.text ++ rest = v'.text ++ rest') :
    v = v' ∧ rest = rest' := by
  cases v with
  | bare value hSolid hUnquoted =>
      cases v' with
      | bare value' hSolid' hUnquoted' =>
          rcases Text.eq_of_append_eq
              (solid_of_bare hSolid) (solid_of_bare hSolid')
              hRest hRest' hText with
            ⟨rfl, hEqual⟩
          exact ⟨rfl, hEqual⟩
      | quoted body' =>
          exact
            absurd hText
              (bare_append_ne_quote hUnquoted hRest)
  | quoted body =>
      cases v' with
      | bare value' hSolid' hUnquoted' =>
          exact
            absurd hText.symm
              (bare_append_ne_quote hUnquoted' hRest')
      | quoted body' =>
          simp only [text, List.cons_append,
            List.append_assoc, List.nil_append,
            List.cons.injEq, true_and] at hText
          rcases Piece.textOfAll_inj hText with
            ⟨rfl, hEqual⟩
          exact ⟨rfl, hEqual⟩

end ValueWording

------------------------------------------------------------
-- Parameters
------------------------------------------------------------

/- A name is a word without an equals sign. -/
theorem Invocation.isKeyChar_of_isName
    {key : List Char}
    (hName : Text.isName key = true) :
    ∀ c ∈ key, isKeyChar c = true := by
  intro c hc
  have hName := Text.isNameChar_of_mem hName c hc
  simp [isKeyChar, isSolid,
    Text.isBlank_of_isNameChar hName,
    Text.ne_equals_of_isNameChar hName]

/- A parameter and the gap in front of it. -/
structure ParameterWording where
  gap : List Char
  key : List Char
  value : ValueWording
  gap_ne_nil : gap ≠ []
  blanks : Text.Blanks gap
  isName : Text.isName key = true
deriving DecidableEq, Repr

namespace ParameterWording

/- A parameter as it is written behind its gap. -/
def body (p : ParameterWording) : List Char :=
  p.key ++ '=' :: p.value.text

/- A parameter as it is written. -/
def text (p : ParameterWording) : List Char :=
  p.gap ++ p.body

/- Parameters as they are written. -/
def textOfAll (ps : List ParameterWording) : List Char :=
  ps.flatMap text

theorem textOfAll_cons
    (p : ParameterWording)
    (ps : List ParameterWording) :
    textOfAll (p :: ps) = p.text ++ textOfAll ps :=
  List.flatMap_cons

/- The name of a parameter. -/
def name (p : ParameterWording) : String :=
  String.ofList p.key

/- What a parameter is set to. -/
def setting (p : ParameterWording) : String :=
  String.ofList p.value.meaning

/- A key is read up to its equals sign. -/
theorem isKeyChar_of_mem_key
    (p : ParameterWording) :
    ∀ c ∈ p.key, Invocation.isKeyChar c = true :=
  Invocation.isKeyChar_of_isName p.isName

/- A parameter starts with the first character of its key. -/
theorem stopsAt_body
    (p : ParameterWording)
    (rest : List Char) :
    StopsAt Text.isBlank (p.body ++ rest) := by
  cases hKey : p.key with
  | nil => exact absurd hKey (Text.ne_nil_of_isName p.isName)
  | cons c key =>
      have hMem : c ∈ p.key := by simp [hKey]
      have hName := Text.isNameChar_of_mem p.isName c hMem
      simp only [body, hKey, List.cons_append]
      exact
        stopsAt_cons.mpr (Text.isBlank_of_isNameChar hName)

/- A parameter ends with no blank. -/
theorem stopsAt_reverse_text
    (p : ParameterWording) :
    StopsAt Text.isBlank p.text.reverse := by
  have hText :
      p.text.reverse =
        p.value.text.reverse ++
          '=' :: (p.gap ++ p.key).reverse := by
    simp [text, body]
  rw [hText]
  -- The value may be empty, and then the sign is the end.
  cases hValue : p.value.text.reverse with
  | nil => exact stopsAt_cons.mpr (by decide)
  | cons c rest =>
      have hStops := p.value.stopsAt_reverse_text
      rw [hValue] at hStops
      exact Text.stopsAt_append (by simp) hStops

/- A value ends where the next parameter starts. -/
theorem stopsAt_textOfAll
    (ps : List ParameterWording) :
    StopsAt Invocation.isSolid (textOfAll ps) := by
  cases ps with
  | nil => exact stopsAt_nil
  | cons p ps =>
      cases hGap : p.gap with
      | nil => exact absurd hGap p.gap_ne_nil
      | cons c gap =>
          have hBlank := p.blanks c (by simp [hGap])
          simp only [textOfAll, List.flatMap_cons, text,
            hGap, List.cons_append]
          apply stopsAt_cons.mpr
          simp [Invocation.isSolid, hBlank]

/- So does one in front of parameters and a blank. -/
theorem stopsAt_textOfAll_append
    (ps : List ParameterWording)
    {rest : List Char}
    (hRest : StopsAt Invocation.isSolid rest) :
    StopsAt Invocation.isSolid (textOfAll ps ++ rest) := by
  cases ps with
  | nil => exact hRest
  | cons p ps =>
      apply Text.stopsAt_append
      · simp [textOfAll, text, body]
      · exact stopsAt_textOfAll (p :: ps)

/- A parameter ends where a blank or the end is. -/
theorem eq_of_text_append_eq
    {p p' : ParameterWording}
    {rest rest' : List Char}
    (hRest : StopsAt Invocation.isSolid rest)
    (hRest' : StopsAt Invocation.isSolid rest')
    (hText : p.text ++ rest = p'.text ++ rest') :
    p = p' ∧ rest = rest' := by
  have hEquals (rest : List Char) :
      StopsAt Invocation.isKeyChar ('=' :: rest) :=
    stopsAt_cons.mpr (by decide)
  simp only [text, List.append_assoc] at hText
  rcases Text.eq_of_append_eq p.blanks p'.blanks
      (p.stopsAt_body _) (p'.stopsAt_body _) hText with
    ⟨hGap, hText⟩
  simp only [body, List.append_assoc,
    List.cons_append] at hText
  rcases Text.eq_of_append_eq
      p.isKeyChar_of_mem_key p'.isKeyChar_of_mem_key
      (hEquals _) (hEquals _) hText with
    ⟨hKey, hText⟩
  injection hText with _ hText
  rcases ValueWording.eq_of_text_append_eq hRest hRest'
      hText with
    ⟨hValue, hText⟩
  refine ⟨?_, hText⟩
  cases p
  cases p'
  simp_all

/- Parameters can be worded in one way only. -/
theorem textOfAll_inj
    {ps ps' : List ParameterWording}
    (hText : textOfAll ps = textOfAll ps') :
    ps = ps' := by
  induction ps generalizing ps' with
  | nil =>
      cases ps' with
      | nil => rfl
      | cons p ps' =>
          exact
            absurd hText.symm
              (by simp [textOfAll, text, body])
  | cons p ps ih =>
      cases ps' with
      | nil =>
          exact
            absurd hText (by simp [textOfAll, text, body])
      | cons p' ps' =>
          rw [textOfAll_cons, textOfAll_cons] at hText
          rcases eq_of_text_append_eq (stopsAt_textOfAll ps)
              (stopsAt_textOfAll ps') hText with
            ⟨hHead, hText⟩
          rw [hHead, ih hText]

end ParameterWording

------------------------------------------------------------
-- Lines
------------------------------------------------------------

/- A line of a kind and parameters whose keys all differ. -/
structure Wording where
  kind : List Char
  parameters : List ParameterWording
  isName : Text.isName kind = true
  distinct :
    (parameters.map ParameterWording.name).Nodup
deriving DecidableEq, Repr

namespace Wording

/- A line as it is written. -/
def text (w : Wording) : List Char :=
  w.kind ++ ParameterWording.textOfAll w.parameters

/-
  The invocation that a line stands for: it has the kind of
  the line, and exactly its parameters.
-/
def CallsFor
    (w : Wording)
    (invocation : Invocation) : Prop :=
  invocation.kind = String.ofList w.kind ∧
    ∀ name setting,
      invocation.params.get? name = some setting ↔
        ∃ p ∈ w.parameters,
          p.name = name ∧ p.setting = setting

/- A kind is read up to the first blank. -/
theorem isSolid_of_mem_kind
    (w : Wording) :
    ∀ c ∈ w.kind, Invocation.isSolid c = true := by
  intro c hc
  have hName := Text.isNameChar_of_mem w.isName c hc
  simp [Invocation.isSolid,
    Text.isBlank_of_isNameChar hName]

/- There are no blanks around a wording. -/
theorem trim_text
    (w : Wording) :
    Text.trim w.text = w.text := by
  have hKind : ∀ c ∈ w.kind, Text.isBlank c = false := by
    intro c hc
    have hName := Text.isNameChar_of_mem w.isName c hc
    exact Text.isBlank_of_isNameChar hName
  have hSome := Text.ne_nil_of_isName w.isName
  apply Text.trim_of_stopsAt
  · exact
      Text.stopsAt_append hSome
        (Text.stopsAt_of_forall hKind)
  · unfold text
    rcases List.eq_nil_or_concat w.parameters with
      hNone | ⟨ps, p, hLast⟩
    · rw [hNone]
      apply Text.stopsAt_of_forall
      intro c hc
      apply hKind
      simpa [ParameterWording.textOfAll] using hc
    · rw [hLast]
      have hText :
          (w.kind ++
              ParameterWording.textOfAll
                (ps.concat p)).reverse =
            p.text.reverse ++
              (w.kind ++
                ParameterWording.textOfAll ps).reverse := by
        simp [ParameterWording.textOfAll]
      rw [hText]
      apply Text.stopsAt_append _ p.stopsAt_reverse_text
      simp [ParameterWording.text, ParameterWording.body]

/- A text can be worded in one way only. -/
theorem text_inj
    {w w' : Wording}
    (hText : w.text = w'.text) :
    w = w' := by
  rcases Text.eq_of_append_eq w.isSolid_of_mem_kind
      w'.isSolid_of_mem_kind
      (ParameterWording.stopsAt_textOfAll w.parameters)
      (ParameterWording.stopsAt_textOfAll w'.parameters)
      hText with
    ⟨hKind, hParameters⟩
  have hParameters :=
    ParameterWording.textOfAll_inj hParameters
  cases w
  cases w'
  simp_all

end Wording

end CommandScript
