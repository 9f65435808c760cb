import CommandScript.Proofs.Invocations

/-
  What is wrong with a line that is no invocation. Behind
  its first word a line is in order as far as it is worded
  as parameters whose keys all differ. The text that follows
  has a fault, which decides the error; what comes behind
  the fault does not matter.

  Key definitions include:
    * `Invocation.NeverCloses`
    * `Invocation.Fault`
    * `LineError.EndsBefore`
    * `Invocation.Lead`

  Main statements:
    * `Invocation.readQuoted_eq_none_iff`
    * `Invocation.readParameters_of_fault`
    * `Invocation.exists_fault_of_readParameters`
    * `Invocation.Lead.of_fault`
    * `Invocation.read_attributes_fault`
-/

namespace CommandScript

open Text (StopsAt stopsAt_nil stopsAt_cons)

------------------------------------------------------------
-- Faults
------------------------------------------------------------

/-
  What can stand behind the text of a fault: the end of the
  line or a blank if the text has to end there, nothing if
  the text takes up the line, and else anything.
-/
def LineError.EndsBefore
    (after : List Char) : LineError → Prop
| .missingEquals _ | .duplicateKey _ =>
    StopsAt Invocation.isSolid after
| .unterminatedQuote _ => after = []
| _ => True

/- The word or the key that an error names. -/
def LineError.subject? : LineError → Option String
| .emptyKey => none
| .invalidKind word
| .missingEquals word
| .invalidKey word
| .duplicateKey word
| .unterminatedQuote word
| .trailingCharacters word => some word

namespace Invocation

/- A body between quotes whose closing quote is missing. -/
def NeverCloses (body : List Char) : Prop :=
  ∀ pieces rest,
    body ≠ Piece.textOfAll pieces ++ '"' :: rest

/-
  A text that is no further parameter where some names are
  taken, and the error that it leads to. It goes as far as
  it takes to see the error.
-/
inductive Fault
    (taken : String → Prop) :
    List Char → LineError → Prop where
| emptyKey : Fault taken ['='] .emptyKey
| missingEquals
    {word : List Char}
    (hSome : word ≠ [])
    (hWord : ∀ c ∈ word, isKeyChar c = true) :
    Fault taken word (.missingEquals (String.ofList word))
| invalidKey
    {word : List Char}
    (hSome : word ≠ [])
    (hWord : ∀ c ∈ word, isKeyChar c = true)
    (hName : Text.isName word = false) :
    Fault taken (word ++ ['='])
      (.invalidKey (String.ofList word))
| unterminatedQuote
    {key body : List Char}
    (hName : Text.isName key = true)
    (hOpen : NeverCloses body) :
    Fault taken (key ++ '=' :: '"' :: body)
      (.unterminatedQuote (String.ofList key))
| trailingCharacters
    {key : List Char}
    {body : List Piece}
    {c : Char}
    (hName : Text.isName key = true)
    (hSolid : isSolid c = true) :
    Fault taken
      (key ++
        '=' :: ((ValueWording.quoted body).text ++ [c]))
      (.trailingCharacters (String.ofList key))
| duplicateKey
    {p : ParameterWording}
    (hTaken : taken p.name) :
    Fault taken p.body (.duplicateKey p.name)

/- A body never closes exactly if none is read. -/
theorem readQuoted_eq_none_iff
    {s : List Char} :
    readQuoted s = none ↔ NeverCloses s := by
  constructor
  · rintro hRead pieces rest rfl
    rw [readQuoted_textOfAll] at hRead
    cases hRead
  · intro hOpen
    cases hRead : readQuoted s with
    | none => rfl
    | some found =>
        rcases exists_body_of_readQuoted hRead with
          ⟨pieces, hText, _⟩
        exact absurd hText (hOpen pieces found.2)

/- A word is over where a blank or the end is. -/
theorem stopsAt_isKeyChar_of_isSolid
    {rest : List Char}
    (hRest : StopsAt isSolid rest) :
    StopsAt isKeyChar rest := by
  intro c hc
  simp [isKeyChar, hRest c hc]

/- An equals sign ends a word. -/
theorem stopsAt_equals
    (rest : List Char) :
    StopsAt isKeyChar ('=' :: rest) :=
  stopsAt_cons.mpr (by decide)

/- A word that no equals sign follows ends at a blank. -/
theorem stopsAt_isSolid_of_isKeyChar
    {rest : List Char}
    (hRest : StopsAt isKeyChar rest)
    (hEquals : ∀ after, rest ≠ '=' :: after) :
    StopsAt isSolid rest := by
  cases rest with
  | nil => exact stopsAt_nil
  | cons c rest =>
      have hc := stopsAt_cons.mp hRest
      have hNe : c ≠ '=' := by
        rintro rfl
        exact hEquals rest rfl
      apply stopsAt_cons.mpr
      simpa [isKeyChar, hNe] using hc

section Parameters

variable {taken : String → Prop}
variable {offence after s : List Char}
variable {cause : LineError}

/- The name of a fault is its longest word. -/
theorem Fault.subject_eq
    (hFault : Fault taken offence cause)
    (hEnds : cause.EndsBefore after) :
    cause = .emptyKey ∨
      cause.subject? =
        some
          (String.ofList
            ((offence ++ after).takeWhile isKeyChar)) := by
  cases hFault with
  | emptyKey => exact .inl rfl
  | missingEquals hSome hWord =>
      right
      rw [Text.takeWhile_append hWord
        (stopsAt_isKeyChar_of_isSolid hEnds)]
      rfl
  | invalidKey hSome hWord hName =>
      right
      rw [List.append_assoc, List.singleton_append,
        Text.takeWhile_append hWord (stopsAt_equals _)]
      rfl
  | unterminatedQuote hName hOpen =>
      right
      rw [List.append_assoc, List.cons_append,
        Text.takeWhile_append (isKeyChar_of_isName hName)
          (stopsAt_equals _)]
      rfl
  | trailingCharacters hName hSolid =>
      right
      rw [List.append_assoc, List.cons_append,
        Text.takeWhile_append (isKeyChar_of_isName hName)
          (stopsAt_equals _)]
      rfl
  | @duplicateKey p hTaken =>
      right
      unfold ParameterWording.body
      rw [List.append_assoc, List.cons_append,
        Text.takeWhile_append p.isKeyChar_of_mem_key
          (stopsAt_equals _)]
      rfl

/-
  A text with a fault is read as no parameter, unless all
  that is wrong is that its name is taken.
-/
theorem readParameter_of_fault
    (hFault : Fault taken offence cause)
    (hEnds : cause.EndsBefore after) :
    readParameter (offence ++ after) = .error cause ∨
      ∃ p : ParameterWording,
        offence = p.body ∧
          cause = .duplicateKey p.name ∧ taken p.name := by
  cases hFault with
  | emptyKey => exact .inl rfl
  | @missingEquals word hSome hWord =>
      left
      have hStops := stopsAt_isKeyChar_of_isSolid hEnds
      unfold readParameter
      rw [Text.takeWhile_append hWord hStops,
        Text.dropWhile_append hWord hStops]
      simp only
      split
      · exact absurd (stopsAt_cons.mp hEnds) (by decide)
      · rfl
  | invalidKey hSome hWord hName =>
      left
      have hStops := stopsAt_equals after
      unfold readParameter
      rw [List.append_assoc, List.singleton_append,
        Text.takeWhile_append hWord hStops,
        Text.dropWhile_append hWord hStops]
      simp [hSome, hName]
  | @unterminatedQuote key body hName hOpen =>
      left
      have hAfter : after = [] := hEnds
      have hWord := isKeyChar_of_isName hName
      have hStops := stopsAt_equals ('"' :: body)
      have hRead := readQuoted_eq_none_iff.mpr hOpen
      have hSome := Text.ne_nil_of_isName hName
      unfold readParameter
      rw [hAfter, List.append_nil,
        Text.takeWhile_append hWord hStops,
        Text.dropWhile_append hWord hStops]
      simp [hSome, hName, readValue, hRead, Except.map]
  | @trailingCharacters key body c hName hSolid =>
      left
      have hWord := isKeyChar_of_isName hName
      have hRead := readQuoted_textOfAll body (c :: after)
      have hSome := Text.ne_nil_of_isName hName
      unfold readParameter
      rw [List.append_assoc, List.cons_append,
        Text.takeWhile_append hWord (stopsAt_equals _),
        Text.dropWhile_append hWord (stopsAt_equals _)]
      simp [hSome, hName, ValueWording.text, readValue,
        hRead, hSolid, Except.map]
  | @duplicateKey p hTaken => exact .inr ⟨p, rfl, rfl, hTaken⟩

/- A text behind a name that is read as no value. -/
theorem exists_fault_of_readValue
    {key : List Char}
    (hName : Text.isName key = true)
    (hRead :
      readValue (String.ofList key) s = .error cause) :
    ∃ offence after,
      key ++ '=' :: s = offence ++ after ∧
        Fault taken offence cause ∧
          cause.EndsBefore after := by
  unfold readValue at hRead
  split at hRead
  · rename_i body
    split at hRead
    · rename_i hQuoted
      cases hRead
      have hOpen := readQuoted_eq_none_iff.mp hQuoted
      exact
        ⟨_, [], (List.append_nil _).symm,
          .unterminatedQuote hName hOpen, rfl⟩
    · rename_i value rest hQuoted
      split at hRead
      · rename_i hSolid
        cases hRead
        rcases exists_body_of_readQuoted hQuoted with
          ⟨pieces, rfl, _⟩
        cases rest with
        | nil => cases hSolid
        | cons c rest =>
            have hTrailing :
                Fault taken
                  (key ++ '=' ::
                    ((ValueWording.quoted pieces).text ++
                      [c]))
                  (.trailingCharacters
                    (String.ofList key)) :=
              .trailingCharacters hName hSolid
            refine ⟨_, rest, ?_, hTrailing, trivial⟩
            simp [ValueWording.text]
      · cases hRead
  · cases hRead

/- A text that is read as no parameter has a fault. -/
theorem exists_fault_of_readParameter
    (hSome : s ≠ [])
    (hStart : StopsAt Text.isBlank s)
    (hRead : readParameter s = .error cause) :
    ∃ offence after,
      s = offence ++ after ∧
        Fault taken offence cause ∧
          cause.EndsBefore after := by
  have hText :
      s.takeWhile isKeyChar ++ s.dropWhile isKeyChar = s :=
    List.takeWhile_append_dropWhile
  have hStops : StopsAt isKeyChar (s.dropWhile isKeyChar) :=
    Text.stopsAt_dropWhile s
  have hWord : ∀ c ∈ s.takeWhile isKeyChar,
      isKeyChar c = true :=
    List.all_eq_true.mp List.all_takeWhile
  unfold readParameter at hRead
  generalize s.takeWhile isKeyChar = word
    at hRead hText hWord
  generalize s.dropWhile isKeyChar = tail
    at hRead hText hStops
  subst hText
  simp only at hRead
  split at hRead
  · rename_i after
    split at hRead
    · rename_i hEmpty
      cases hRead
      rw [List.isEmpty_iff.mp hEmpty]
      exact ⟨['='], after, rfl, .emptyKey, trivial⟩
    · rename_i hKey
      have hKey : word ≠ [] := by simpa using hKey
      split at hRead
      · rename_i hName
        cases hRead
        refine ⟨word ++ ['='], after, by simp, ?_, trivial⟩
        exact .invalidKey hKey hWord (by simpa using hName)
      · rename_i hName
        have hName : Text.isName word = true := by
          simpa using hName
        cases hValue :
            readValue (String.ofList word) after with
        | ok found =>
            rw [hValue] at hRead
            cases hRead
        | error other =>
            rw [hValue] at hRead
            cases hRead
            exact exists_fault_of_readValue hName hValue
  · rename_i hEquals
    cases hRead
    have hSolid :=
      stopsAt_isSolid_of_isKeyChar hStops hEquals
    have hKey : word ≠ [] := by
      rintro rfl
      rw [List.nil_append] at hSome hStart
      cases tail with
      | nil => exact hSome rfl
      | cons c tail =>
          have hBlank := stopsAt_cons.mp hStart
          have hFalse := stopsAt_cons.mp hSolid
          simp [isSolid, hBlank] at hFalse
    exact ⟨word, tail, rfl, .missingEquals hKey hWord, hSolid⟩

/- A fault starts with a character that is not blank. -/
theorem Fault.starts
    (hFault : Fault taken offence cause) :
    offence ≠ [] ∧ StopsAt Text.isBlank offence := by
  have hWordStops
      {word : List Char}
      (hWord : ∀ c ∈ word, isKeyChar c = true) :
      StopsAt Text.isBlank word := by
    intro c hc
    have hKeyChar := hWord c (List.mem_of_mem_head? hc)
    simp only [isKeyChar, isSolid, Bool.and_eq_true,
      Bool.not_eq_true'] at hKeyChar
    exact hKeyChar.2
  have hKeyStarts
      {key rest : List Char}
      (hName : Text.isName key = true) :
      key ++ rest ≠ [] ∧
        StopsAt Text.isBlank (key ++ rest) := by
    have hSome := Text.ne_nil_of_isName hName
    refine ⟨by simp [hSome], ?_⟩
    exact
      Text.stopsAt_append hSome
        (hWordStops (isKeyChar_of_isName hName))
  cases hFault with
  | emptyKey =>
      exact ⟨by simp, stopsAt_cons.mpr (by decide)⟩
  | missingEquals hSome hWord =>
      exact ⟨hSome, hWordStops hWord⟩
  | invalidKey hSome hWord hName =>
      exact
        ⟨by simp,
          Text.stopsAt_append hSome (hWordStops hWord)⟩
  | unterminatedQuote hName hOpen => exact hKeyStarts hName
  | trailingCharacters hName hSolid =>
      exact hKeyStarts hName
  | @duplicateKey p hTaken => exact hKeyStarts p.isName

end Parameters

------------------------------------------------------------
-- Behind the Last Parameter
------------------------------------------------------------

/-
  A text goes on, behind some parameters whose names differ
  and a gap, with a tail.
-/
structure Division
    (s : List Char)
    (ps : List ParameterWording)
    (gap tail : List Char) : Prop where
  text :
    s = ParameterWording.textOfAll ps ++ (gap ++ tail)
  distinct : (ps.map ParameterWording.name).Nodup
  gap_ne_nil : gap ≠ []
  blanks : Text.Blanks gap
  tail_ne_nil : tail ≠ []
  starts : StopsAt Text.isBlank tail

/-
  The parameters are all that the text starts with: any
  others, up to a blank or the end, are the first of them.
-/
structure Lead
    (s : List Char)
    (ps : List ParameterWording)
    (gap tail : List Char) : Prop
    extends Division s ps gap tail where
  longest :
    ∀ ps' tail',
      s = ParameterWording.textOfAll ps' ++ tail' →
        StopsAt isSolid tail' →
          (ps'.map ParameterWording.name).Nodup →
            ps' <+: ps

/- A gap ends a value. -/
theorem stopsAt_isSolid_gap
    {gap : List Char}
    (hGap : gap ≠ [])
    (hBlanks : Text.Blanks gap)
    (tail : List Char) :
    StopsAt isSolid (gap ++ tail) := by
  apply Text.stopsAt_append hGap
  intro c hc
  simp [isSolid, hBlanks c (List.mem_of_mem_head? hc)]

section Texts

variable {params : Params}
variable {ps ps' : List ParameterWording}
variable {gap gap' tail tail' : List Char}
variable {offence after s : List Char}
variable {cause : LineError}

/- What is read as no parameter is the error of a line. -/
theorem readParameters_of_error
    (hSome : Text.trimStart s ≠ [])
    (hRead : readParameter (Text.trimStart s) = .error cause) :
    readParameters params s = .error cause := by
  rw [readParameters,
    if_neg (by simpa using hSome)]
  split
  · rename_i other hOther
    rw [hRead] at hOther
    cases hOther
    rfl
  · rename_i step hStep
    rw [hRead] at hStep
    cases hStep

/- A parameter whose name is taken is refused. -/
theorem readParameters_of_taken
    {step : Step}
    (hStep : readParameter (Text.trimStart s) = .ok step)
    (hTaken : params.contains step.key = true) :
    readParameters params s =
      .error (.duplicateKey step.key) := by
  have hSome : (Text.trimStart s).isEmpty = false := by
    cases hTrim : Text.trimStart s with
    | nil =>
        rw [hTrim] at hStep
        cases hStep
    | cons c rest => rfl
  rw [readParameters, hSome]
  simp only [Bool.false_eq_true, if_false]
  split
  · rename_i other hOther
    rw [hStep] at hOther
    cases hOther
  · rename_i other hOther
    rw [hStep] at hOther
    cases hOther
    rw [if_pos hTaken]

/- The fault behind parameters is the error of a line. -/
theorem readParameters_of_fault
    (hDivision : Division s ps gap (offence ++ after))
    (hNew : ∀ p ∈ ps, params.contains p.name = false)
    (hFault :
      Fault
        (fun name =>
          (assigned params ps).contains name = true)
        offence cause)
    (hEnds : cause.EndsBefore after) :
    readParameters params s = .error cause := by
  have hTrim :
      Text.trimStart (gap ++ (offence ++ after)) =
        offence ++ after := by
    rw [Text.trimStart_append hDivision.blanks,
      Text.trimStart_of_stopsAt hDivision.starts]
  rw [hDivision.text,
    readParameters_append hDivision.distinct hNew
      (stopsAt_isSolid_gap hDivision.gap_ne_nil
        hDivision.blanks _)]
  rcases readParameter_of_fault hFault hEnds with
    hError | ⟨p, rfl, rfl, hTaken⟩
  · apply readParameters_of_error
    · rw [hTrim]
      exact hDivision.tail_ne_nil
    · rw [hTrim]
      exact hError
  · have hStep := readParameter_body p hEnds
    rw [← hTrim] at hStep
    exact readParameters_of_taken hStep hTaken

/- The error of a line is that of a fault. -/
theorem exists_fault_of_readParameters
    (hStart : StopsAt isSolid s)
    (hRead : readParameters params s = .error cause) :
    ∃ ps gap offence after,
      Division s ps gap (offence ++ after) ∧
        (∀ p ∈ ps, params.contains p.name = false) ∧
          Fault
            (fun name =>
              (assigned params ps).contains name = true)
            offence cause ∧
            cause.EndsBefore after := by
  fun_induction readParameters params s with
  | case1 params s hEmpty => cases hRead
  | case2 params s hSome error hError =>
      cases hRead
      have hSome : Text.trimStart s ≠ [] := by
        simpa using hSome
      rcases exists_gap_of_stopsAt hStart hSome with
        ⟨gap, hGap, hBlanks, hText⟩
      rcases exists_fault_of_readParameter hSome
          (Text.stopsAt_trimStart s) hError with
        ⟨offence, after, hTail, hFault, hEnds⟩
      refine
        ⟨[], gap, offence, after, ?_, by simp, hFault,
          hEnds⟩
      rw [← hTail]
      exact
        ⟨hText, by simp, hGap, hBlanks, hSome,
          Text.stopsAt_trimStart s⟩
  | case3 params s hSome step hStep hTaken =>
      cases hRead
      have hSome : Text.trimStart s ≠ [] := by
        simpa using hSome
      rcases exists_gap_of_stopsAt hStart hSome with
        ⟨gap, hGap, hBlanks, hText⟩
      rcases exists_parameter_of_readParameter hGap hBlanks
          hStep with
        ⟨p, hWorded, hKey, _, hRest⟩
      rw [ParameterWording.text, List.append_assoc]
        at hWorded
      rcases Text.eq_of_append_eq hBlanks p.blanks
          (Text.stopsAt_trimStart s) (p.stopsAt_body _)
          hWorded with
        ⟨_, hBody⟩
      rw [hKey] at hTaken ⊢
      refine
        ⟨[], gap, p.body, step.rest, ?_, by simp,
          .duplicateKey hTaken, hRest⟩
      rw [← hBody]
      exact
        ⟨hText, by simp, hGap, hBlanks, hSome,
          Text.stopsAt_trimStart s⟩
  | case4 params s hSome step hStep hNew ih =>
      have hSome : Text.trimStart s ≠ [] := by
        simpa using hSome
      rcases exists_gap_of_stopsAt hStart hSome with
        ⟨gap, hGap, hBlanks, hText⟩
      rcases exists_parameter_of_readParameter hGap hBlanks
          hStep with
        ⟨p, hWorded, hKey, hSetting, hRest⟩
      rcases ih hRest hRead with
        ⟨ps, later, offence, after, hDivision, hOthers,
          hFault, hEnds⟩
      rw [hKey, hSetting] at hOthers hFault
      rw [hKey, Bool.not_eq_true] at hNew
      rcases new_cons hNew hDivision.distinct hOthers with
        ⟨hDistinct, hAllNew⟩
      refine
        ⟨p :: ps, later, offence, after, ?_, hAllNew,
          hFault, hEnds⟩
      refine { hDivision with text := ?_, distinct := hDistinct }
      rw [hText, hWorded, hDivision.text]
      simp [ParameterWording.textOfAll]

/-
  Of two ways to start a text with parameters one goes on
  with the other.
-/
theorem textOfAll_append_cases
    (hTail : StopsAt isSolid tail)
    (hTail' : StopsAt isSolid tail')
    (hText :
      ParameterWording.textOfAll ps ++ tail =
        ParameterWording.textOfAll ps' ++ tail') :
    ps' <+: ps ∨
      ∃ p more,
        ps' = ps ++ p :: more ∧
          tail =
            p.text ++
              (ParameterWording.textOfAll more ++ tail') := by
  induction ps generalizing ps' with
  | nil =>
      cases ps' with
      | nil => exact .inl (List.nil_prefix)
      | cons p' ps' =>
          refine .inr ⟨p', ps', rfl, ?_⟩
          simpa [ParameterWording.textOfAll] using hText
  | cons p ps ih =>
      cases ps' with
      | nil => exact .inl List.nil_prefix
      | cons p' ps' =>
          simp only [ParameterWording.textOfAll_cons,
            List.append_assoc] at hText
          rcases ParameterWording.eq_of_text_append_eq
              (ParameterWording.stopsAt_textOfAll_append ps
                hTail)
              (ParameterWording.stopsAt_textOfAll_append ps'
                hTail')
              hText with
            ⟨rfl, hRest⟩
          rcases ih hRest with hPrefix | ⟨q, more, rfl, hq⟩
          · exact
              .inl
                ((List.prefix_cons_inj p).mpr hPrefix)
          · exact .inr ⟨q, more, rfl, hq⟩

/- No further parameter can be read where a fault is. -/
theorem Lead.of_fault
    (hDivision : Division s ps gap (offence ++ after))
    (hFault :
      Fault (· ∈ ps.map ParameterWording.name) offence
        cause)
    (hEnds : cause.EndsBefore after) :
    Lead s ps gap (offence ++ after) := by
  refine { hDivision with longest := ?_ }
  intro ps' tail' hText hTail' hDistinct'
  have hGapStops :=
    stopsAt_isSolid_gap hDivision.gap_ne_nil
      hDivision.blanks (offence ++ after)
  rw [hDivision.text] at hText
  rcases textOfAll_append_cases hGapStops hTail' hText with
    hPrefix | ⟨p, more, rfl, hMore⟩
  · exact hPrefix
  · exfalso
    have hRest :=
      ParameterWording.stopsAt_textOfAll_append more hTail'
    rw [ParameterWording.text, List.append_assoc] at hMore
    rcases Text.eq_of_append_eq hDivision.blanks p.blanks
        hDivision.starts (p.stopsAt_body _) hMore with
      ⟨_, hBody⟩
    have hOk := readParameter_body p hRest
    have hNew : p.name ∉ ps.map ParameterWording.name := by
      rw [List.map_append, List.map_cons] at hDistinct'
      intro hMem
      exact
        (List.nodup_append.mp hDistinct').2.2 p.name hMem
          p.name List.mem_cons_self rfl
    rcases readParameter_of_fault hFault hEnds with
      hError | ⟨q, rfl, rfl, hTaken⟩
    · rw [hBody, hOk] at hError
      cases hError
    · have hOther := readParameter_body q hEnds
      rw [hBody, hOk] at hOther
      have hName : p.name = q.name :=
        congrArg Step.key (Except.ok.inj hOther)
      exact hNew (hName ▸ hTaken)

/- A text starts with its parameters in one way. -/
theorem Lead.unique
    (hLead : Lead s ps gap tail)
    (hLead' : Lead s ps' gap' tail') :
    ps = ps' ∧ gap = gap' ∧ tail = tail' := by
  have hPrefix : ps <+: ps' :=
    hLead'.longest ps (gap ++ tail) hLead.text
      (stopsAt_isSolid_gap hLead.gap_ne_nil hLead.blanks _)
      hLead.distinct
  have hPrefix' : ps' <+: ps :=
    hLead.longest ps' (gap' ++ tail') hLead'.text
      (stopsAt_isSolid_gap hLead'.gap_ne_nil hLead'.blanks _)
      hLead'.distinct
  obtain rfl : ps = ps' :=
    hPrefix.eq_of_length_le hPrefix'.length_le
  have hText := hLead.text.symm.trans hLead'.text
  exact
    ⟨rfl,
      Text.eq_of_append_eq hLead.blanks hLead'.blanks
        hLead.starts hLead'.starts
        (List.append_cancel_left hText)⟩

/- Where something follows its parameters none are read. -/
theorem Lead.not_ok
    (hStart : StopsAt isSolid s)
    (hLead : Lead s ps gap tail)
    {params' : Params} :
    readParameters params s ≠ .ok params' := by
  intro hRead
  rcases exists_parameters_of_readParameters hStart hRead with
    ⟨qs, blank, hBlank, hText, hDistinct, _, _⟩
  have hStops : StopsAt isSolid blank := by
    apply Text.stopsAt_of_forall
    intro c hc
    simp [isSolid, hBlank c hc]
  rcases hLead.longest qs blank hText hStops hDistinct with
    ⟨more, rfl⟩
  have hRest := hText.symm.trans hLead.text
  simp only [ParameterWording.textOfAll, List.flatMap_append,
    List.append_assoc] at hRest
  have hRest := List.append_cancel_left hRest
  -- The tail starts with a character that is not blank.
  cases hTail : tail with
  | nil => exact hLead.tail_ne_nil hTail
  | cons c others =>
      have hMem : c ∈ blank := by
        rw [hRest, hTail]
        simp
      have hSolid := hLead.starts
      rw [hTail] at hSolid
      have hFalse := stopsAt_cons.mp hSolid
      rw [hBlank c hMem] at hFalse
      cases hFalse

end Texts

------------------------------------------------------------
-- Lines
------------------------------------------------------------

/- The first word of a line. -/
def firstWord (line : List Char) : List Char :=
  (Text.trim line).takeWhile isSolid

/- What follows the first word of a line. -/
def afterFirstWord (line : List Char) : List Char :=
  (Text.trim line).dropWhile isSolid

/- The taken names are those of the parameters before. -/
theorem contains_assigned_empty_eq
    (ps : List ParameterWording) :
    (fun name =>
      (assigned Dictionary.empty ps).contains name = true) =
      (· ∈ ps.map ParameterWording.name) := by
  funext name
  exact propext contains_assigned_empty

section Lines

variable {line : List Char}
variable {cause : LineError}

/- Behind a name the parameters decide the error. -/
theorem read_eq_error_iff
    (hName : Text.isName (firstWord line) = true) :
    read line = .error cause ↔
      readParameters Dictionary.empty (afterFirstWord line) =
        .error cause := by
  unfold firstWord at hName
  unfold read afterFirstWord
  simp only [hName, Bool.not_true, Bool.false_eq_true,
    if_false]
  cases readParameters Dictionary.empty
      ((Text.trim line).dropWhile isSolid) <;>
    simp [Except.map]

/- The fault behind parameters is the error of its line. -/
theorem read_of_fault
    {ps : List ParameterWording}
    {gap offence after : List Char}
    (hName : Text.isName (firstWord line) = true)
    (hDivision :
      Division (afterFirstWord line) ps gap
        (offence ++ after))
    (hFault :
      Fault (· ∈ ps.map ParameterWording.name) offence
        cause)
    (hEnds : cause.EndsBefore after) :
    read line = .error cause := by
  rw [← contains_assigned_empty_eq] at hFault
  apply (read_eq_error_iff hName).mpr
  exact
    readParameters_of_fault hDivision (fun _ _ => rfl)
      hFault hEnds

/- A refused line has a fault behind its parameters. -/
theorem exists_fault_of_read
    (hName : Text.isName (firstWord line) = true)
    (hRead : read line = .error cause) :
    ∃ ps gap offence after,
      Lead (afterFirstWord line) ps gap (offence ++ after) ∧
        Fault (· ∈ ps.map ParameterWording.name) offence
            cause ∧
          cause.EndsBefore after := by
  have hStart : StopsAt isSolid (afterFirstWord line) :=
    Text.stopsAt_dropWhile (Text.trim line)
  rcases exists_fault_of_readParameters hStart
      ((read_eq_error_iff hName).mp hRead) with
    ⟨ps, gap, offence, after, hDivision, _, hFault, hEnds⟩
  rw [contains_assigned_empty_eq] at hFault
  exact
    ⟨ps, gap, offence, after,
      .of_fault hDivision hFault hEnds, hFault, hEnds⟩

/- A line that goes on behind its parameters is refused. -/
theorem exists_error_of_lead
    {ps : List ParameterWording}
    {gap tail : List Char}
    (hName : Text.isName (firstWord line) = true)
    (hLead : Lead (afterFirstWord line) ps gap tail) :
    ∃ cause, read line = .error cause := by
  have hStart : StopsAt isSolid (afterFirstWord line) :=
    Text.stopsAt_dropWhile (Text.trim line)
  cases hRead :
      readParameters Dictionary.empty (afterFirstWord line)
      with
  | ok params => exact absurd hRead (hLead.not_ok hStart)
  | error cause =>
      exact ⟨cause, (read_eq_error_iff hName).mpr hRead⟩

end Lines

/-
  How the error of a line comes about. A first word that is
  no name is the error. Behind a name the line is refused
  exactly if something follows the longest series of
  parameters with different names that the line goes on
  with. Then the error is that of the fault which this tail
  starts with; there is one such fault and no other, and the
  error names the longest word of the tail. What stands
  behind the fault does not matter: wherever parameters that
  are in order come before a fault, the line has its error.
-/
theorem read_attributes_fault
    (line : List Char) :
    (Text.isName (firstWord line) = false →
      read line =
        .error
          (.invalidKind (String.ofList (firstWord line)))) ∧
    (Text.isName (firstWord line) = true →
      ((∃ cause, read line = .error cause) ↔
        ∃ ps gap tail,
          Lead (afterFirstWord line) ps gap tail) ∧
      (∀ ps gap tail,
        Lead (afterFirstWord line) ps gap tail →
          ∀ cause,
            read line = .error cause ↔
              ∃ offence after,
                tail = offence ++ after ∧
                  Fault (· ∈ ps.map ParameterWording.name)
                    offence cause ∧
                    cause.EndsBefore after) ∧
      (∀ ps gap tail cause,
        Lead (afterFirstWord line) ps gap tail →
          read line = .error cause →
            cause = .emptyKey ∨
              cause.subject? =
                some
                  (String.ofList
                    (tail.takeWhile isKeyChar))) ∧
      (∀ ps gap offence after cause,
        Division (afterFirstWord line) ps gap
            (offence ++ after) →
          Fault (· ∈ ps.map ParameterWording.name) offence
              cause →
            cause.EndsBefore after →
              read line = .error cause)) := by
  constructor
  · intro hName
    unfold firstWord at hName
    unfold read firstWord
    simp only [hName, Bool.not_false, if_true]
  · intro hName
    -- Of a line with a lead the fault is in its tail.
    have hTail
        {ps : List ParameterWording}
        {gap tail : List Char}
        {cause : LineError}
        (hLead : Lead (afterFirstWord line) ps gap tail)
        (hRead : read line = .error cause) :
        ∃ offence after,
          tail = offence ++ after ∧
            Fault (· ∈ ps.map ParameterWording.name)
              offence cause ∧
              cause.EndsBefore after := by
      rcases exists_fault_of_read hName hRead with
        ⟨ps', gap', offence, after, hLead', hFault, hEnds⟩
      rcases hLead.unique hLead' with ⟨rfl, _, rfl⟩
      exact ⟨offence, after, rfl, hFault, hEnds⟩
    refine ⟨⟨?_, ?_⟩, ?_, ?_, ?_⟩
    · rintro ⟨cause, hRead⟩
      rcases exists_fault_of_read hName hRead with
        ⟨ps, gap, offence, after, hLead, _⟩
      exact ⟨ps, gap, _, hLead⟩
    · rintro ⟨ps, gap, tail, hLead⟩
      exact exists_error_of_lead hName hLead
    · intro ps gap tail hLead cause
      refine ⟨hTail hLead, ?_⟩
      rintro ⟨offence, after, rfl, hFault, hEnds⟩
      exact
        read_of_fault hName hLead.toDivision hFault hEnds
    · intro ps gap tail cause hLead hRead
      rcases hTail hLead hRead with
        ⟨offence, after, rfl, hFault, hEnds⟩
      exact hFault.subject_eq hEnds
    · intro ps gap offence after cause hDivision hFault hEnds
      exact read_of_fault hName hDivision hFault hEnds

end Invocation

end CommandScript
