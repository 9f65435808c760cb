import CommandScript.Proofs.Wording

/-
  Which lines are invocations. Every reader takes back what
  a wording writes, and takes nothing else; so a line is
  read exactly if its trimmed text has a wording, and as
  what that wording calls for.

  Key definitions include:
    * `Invocation.assigned`
    * `Wording.invocation`

  Main statements:
    * `Invocation.exists_body_of_readQuoted`
    * `Invocation.exists_value_of_readValue`
    * `Invocation.readParameters_textOfAll`
    * `Wording.read_of_text_eq`
    * `Wording.exists_wording_of_read`
    * `Invocation.read_eq_ok_iff_worded`
-/

namespace CommandScript

open Text (StopsAt stopsAt_nil stopsAt_cons)

namespace Invocation

------------------------------------------------------------
-- Quoted Bodies
------------------------------------------------------------

/- A body is read up to its closing quote. -/
theorem readQuoted_textOfAll
    (body : List Piece)
    (rest : List Char) :
    readQuoted (Piece.textOfAll body ++ '"' :: rest) =
      some (Piece.meaningOfAll body, rest) := by
  induction body with
  | nil => rfl
  | cons piece body ih =>
      unfold Piece.textOfAll Piece.meaningOfAll at ih ⊢
      rw [List.flatMap_cons, List.append_assoc]
      cases piece with
      | plain c hPlain =>
          simp [Piece.text, Piece.meaning, readQuoted,
            hPlain.1, hPlain.2, ih]
      | escape c =>
          simp [Piece.text, Piece.meaning_escape,
            readQuoted, ih]

/- What is read as a body consists of pieces. -/
theorem exists_body_of_readQuoted
    {s value rest : List Char}
    (hRead : readQuoted s = some (value, rest)) :
    ∃ body,
      s = Piece.textOfAll body ++ '"' :: rest ∧
        value = Piece.meaningOfAll body := by
  fun_induction readQuoted s generalizing value with
  | case1 => cases hRead
  | case2 tail =>
      cases hRead
      exact ⟨[], rfl, rfl⟩
  | case3 => cases hRead
  | case4 c tail ih =>
      rcases Option.map_eq_some_iff.mp hRead with
        ⟨found, hFound, hEqual⟩
      cases hEqual
      rcases ih hFound with ⟨body, hText, hMeaning⟩
      refine ⟨.escape c :: body, ?_, ?_⟩
      · simp [Piece.textOfAll, Piece.text, hText]
      · simp [Piece.meaningOfAll, Piece.meaning_escape,
          hMeaning]
  | case5 c tail hQuote hLast hEscape ih =>
      rcases Option.map_eq_some_iff.mp hRead with
        ⟨found, hFound, hEqual⟩
      cases hEqual
      rcases ih hFound with ⟨body, hText, hMeaning⟩
      have hBackslash : c ≠ '\\' := by
        intro hc
        cases tail with
        | nil => exact hLast hc rfl
        | cons next tail => exact hEscape next tail hc rfl
      have hPlain : c ≠ '"' ∧ c ≠ '\\' :=
        ⟨hQuote, hBackslash⟩
      refine ⟨.plain c hPlain :: body, ?_, ?_⟩
      · simp [Piece.textOfAll, Piece.text, hText]
      · simp [Piece.meaningOfAll, Piece.meaning, hMeaning]

------------------------------------------------------------
-- Values
------------------------------------------------------------

/- Where a value ends there is nothing solid. -/
theorem any_isSolid_eq_false_iff
    {rest : List Char} :
    rest.head?.any isSolid = false ↔
      StopsAt isSolid rest := by
  cases rest <;> simp [StopsAt]

/- A value is read up to its end. -/
theorem readValue_text
    (key : String)
    (v : ValueWording)
    {rest : List Char}
    (hRest : StopsAt isSolid rest) :
    readValue key (v.text ++ rest) =
      .ok (v.meaning, rest) := by
  cases v with
  | quoted body =>
      have hBody := readQuoted_textOfAll body rest
      have hEnd := any_isSolid_eq_false_iff.mpr hRest
      simp [ValueWording.text, ValueWording.meaning,
        readValue, hBody, hEnd]
  | bare value hSolid hUnquoted =>
      have hValue := ValueWording.solid_of_bare hSolid
      have hBare (s : List Char) :
          value ++ rest ≠ '"' :: s :=
        ValueWording.bare_append_ne_quote hUnquoted hRest
      simp only [ValueWording.text, ValueWording.meaning]
      rw [readValue]
      · rw [Text.takeWhile_append hValue hRest,
          Text.dropWhile_append hValue hRest]
      · exact hBare

/- What is read as a value is worded as one. -/
theorem exists_value_of_readValue
    {key : String}
    {s value rest : List Char}
    (hRead : readValue key s = .ok (value, rest)) :
    ∃ v : ValueWording,
      s = v.text ++ rest ∧
        value = v.meaning ∧
          StopsAt isSolid rest := by
  unfold readValue at hRead
  split at hRead
  · rename_i body
    split at hRead
    · cases hRead
    · rename_i hQuoted
      split at hRead
      · cases hRead
      · rename_i hEnd
        cases hRead
        rcases exists_body_of_readQuoted hQuoted with
          ⟨pieces, rfl, rfl⟩
        refine ⟨.quoted pieces, ?_, rfl, ?_⟩
        · simp [ValueWording.text]
        · apply any_isSolid_eq_false_iff.mp
          simpa using hEnd
  · rename_i hUnquoted
    cases hRead
    refine
      ⟨.bare (s.takeWhile isSolid) ?_ ?_, ?_, rfl,
        Text.stopsAt_dropWhile s⟩
    · intro c hc
      have hSolid :=
        List.all_eq_true.mp List.all_takeWhile c hc
      simpa [isSolid] using hSolid
    · intro hHead
      cases s with
      | nil => cases hHead
      | cons c s =>
          by_cases hc : isSolid c = true
          · rw [List.takeWhile_cons_of_pos hc] at hHead
            cases hHead
            exact hUnquoted s rfl
          · rw [List.takeWhile_cons_of_neg hc] at hHead
            cases hHead
    · exact List.takeWhile_append_dropWhile.symm

------------------------------------------------------------
-- Parameters
------------------------------------------------------------

/- A parameter is read up to the end of its value. -/
theorem readParameter_body
    (p : ParameterWording)
    {rest : List Char}
    (hRest : StopsAt isSolid rest) :
    readParameter (p.body ++ rest) =
      .ok ⟨p.name, p.setting, rest⟩ := by
  have hEquals :
      StopsAt isKeyChar ('=' :: (p.value.text ++ rest)) :=
    stopsAt_cons.mpr (by decide)
  have hTake :=
    Text.takeWhile_append p.isKeyChar_of_mem_key hEquals
  have hDrop :=
    Text.dropWhile_append p.isKeyChar_of_mem_key hEquals
  have hKey : p.key.isEmpty = false := by
    simpa using Text.ne_nil_of_isName p.isName
  have hValue := readValue_text p.name p.value hRest
  unfold ParameterWording.name at hValue
  unfold readParameter ParameterWording.body
  rw [List.append_assoc, List.cons_append]
  simp only [hTake, hDrop, hKey, p.isName, hValue,
    Bool.false_eq_true, if_false, Bool.not_true]
  rfl

/- What is read as a parameter is worded as one. -/
theorem exists_parameter_of_readParameter
    {gap s : List Char}
    {step : Step}
    (hGap : gap ≠ [])
    (hBlanks : Text.Blanks gap)
    (hRead : readParameter s = .ok step) :
    ∃ p : ParameterWording,
      gap ++ s = p.text ++ step.rest ∧
        step.key = p.name ∧
          step.value = p.setting ∧
            StopsAt isSolid step.rest := by
  have hText :
      s.takeWhile isKeyChar ++ s.dropWhile isKeyChar = s :=
    List.takeWhile_append_dropWhile
  unfold readParameter at hRead
  generalize s.takeWhile isKeyChar = key at hRead hText
  generalize s.dropWhile isKeyChar = tail at hRead hText
  simp only at hRead
  split at hRead
  · rename_i after
    split at hRead
    · cases hRead
    · split at hRead
      · cases hRead
      · rename_i hName
        cases hValue :
            readValue (String.ofList key) after with
        | error cause =>
            rw [hValue] at hRead
            cases hRead
        | ok found =>
            rw [hValue] at hRead
            cases hRead
            rcases exists_value_of_readValue hValue with
              ⟨v, rfl, hMeaning, hRest⟩
            refine
              ⟨⟨gap, key, v, hGap, hBlanks,
                  by simpa using hName⟩,
                ?_, rfl, ?_, hRest⟩
            · simp [← hText, ParameterWording.text,
                ParameterWording.body]
            · exact congrArg String.ofList hMeaning
  · cases hRead

section Lines

variable {params params' : Params}
variable {s : List Char}

/- At the end of the line there is nothing to read. -/
theorem readParameters_of_blanks
    (hBlanks : Text.Blanks s) :
    readParameters params s = .ok params := by
  have hTrim := Text.trimStart_append (s := []) hBlanks
  rw [List.append_nil] at hTrim
  rw [readParameters, hTrim]
  rfl

/- A parameter is set, and the rest is read after it. -/
theorem readParameters_of_step
    {step : Step}
    (hStep : readParameter (Text.trimStart s) = .ok step)
    (hNew : params.contains step.key = false) :
    readParameters params s =
      readParameters (params.insert step.key step.value)
        step.rest := by
  have hSome : (Text.trimStart s).isEmpty = false := by
    cases hTrim : Text.trimStart s with
    | nil =>
        rw [hTrim] at hStep
        cases hStep
    | cons c rest => rfl
  rw [readParameters, hSome]
  simp only [Bool.false_eq_true, if_false]
  split
  · rename_i cause hError
    rw [hStep] at hError
    cases hError
  · rename_i other hOther
    rw [hStep] at hOther
    cases hOther
    simp only [hNew, Bool.false_eq_true, if_false]

/- Parameters with those that are set after them. -/
def assigned
    (params : Params)
    (ps : List ParameterWording) : Params :=
  ps.foldl (fun params p => params.insert p.name p.setting)
    params

/- Parameters are read one after another, up to a blank. -/
theorem readParameters_append
    {ps : List ParameterWording}
    {rest : List Char}
    (hDistinct : (ps.map ParameterWording.name).Nodup)
    (hNew : ∀ p ∈ ps, params.contains p.name = false)
    (hRest : StopsAt isSolid rest) :
    readParameters params
        (ParameterWording.textOfAll ps ++ rest) =
      readParameters (assigned params ps) rest := by
  induction ps generalizing params with
  | nil => rfl
  | cons p ps ih =>
      rw [List.map_cons, List.nodup_cons] at hDistinct
      rcases List.forall_mem_cons.mp hNew with ⟨hp, hps⟩
      have hTrim :
          Text.trimStart
              (ParameterWording.textOfAll (p :: ps) ++
                rest) =
            p.body ++
              (ParameterWording.textOfAll ps ++ rest) := by
        simp only [ParameterWording.textOfAll,
          List.flatMap_cons, ParameterWording.text,
          List.append_assoc]
        rw [Text.trimStart_append p.blanks]
        exact Text.trimStart_of_stopsAt (p.stopsAt_body _)
      have hStep :=
        readParameter_body p
          (ParameterWording.stopsAt_textOfAll_append ps hRest)
      rw [← hTrim] at hStep
      rw [readParameters_of_step hStep hp]
      apply ih hDistinct.2
      intro q hq
      have hNe : q.name ≠ p.name := by
        intro hEqual
        apply hDistinct.1
        rw [← hEqual]
        exact List.mem_map_of_mem hq
      rw [Dictionary.contains_insert, hps q hq]
      simpa using hNe

/- Parameters are read up to the end of the line. -/
theorem readParameters_textOfAll
    {ps : List ParameterWording}
    (hDistinct : (ps.map ParameterWording.name).Nodup)
    (hNew : ∀ p ∈ ps, params.contains p.name = false) :
    readParameters params (ParameterWording.textOfAll ps) =
      .ok (assigned params ps) := by
  have hRead :=
    readParameters_append hDistinct hNew stopsAt_nil
  rw [List.append_nil] at hRead
  rw [hRead]
  apply readParameters_of_blanks
  intro c hc
  cases hc

/- Between a value and more of the line there is a gap. -/
theorem exists_gap_of_stopsAt
    (hStart : StopsAt isSolid s)
    (hSome : Text.trimStart s ≠ []) :
    ∃ gap,
      gap ≠ [] ∧
        Text.Blanks gap ∧ s = gap ++ Text.trimStart s := by
  rcases Text.exists_trimStart s with ⟨gap, hGap, hText⟩
  refine ⟨gap, ?_, hGap, hText⟩
  -- Without a gap the line would go on with a word.
  rintro rfl
  rw [List.nil_append] at hText
  rw [hText] at hStart
  have hSolid := Text.stopsAt_trimStart s
  cases hTrim : Text.trimStart s with
  | nil => exact hSome hTrim
  | cons c rest =>
      rw [hTrim] at hStart hSolid
      have hBlank := stopsAt_cons.mp hSolid
      have hFalse := stopsAt_cons.mp hStart
      simp [isSolid, hBlank] at hFalse

/-
  A new parameter and those that are still new after it are
  all new, and their names differ.
-/
theorem new_cons
    {p : ParameterWording}
    {ps : List ParameterWording}
    (hNew : params.contains p.name = false)
    (hDistinct : (ps.map ParameterWording.name).Nodup)
    (hOthers :
      ∀ q ∈ ps,
        (params.insert p.name p.setting).contains q.name =
          false) :
    ((p :: ps).map ParameterWording.name).Nodup ∧
      ∀ q ∈ p :: ps, params.contains q.name = false := by
  have hApart :
      ∀ q ∈ ps,
        q.name ≠ p.name ∧
          params.contains q.name = false := by
    intro q hq
    have hOther := hOthers q hq
    rw [Dictionary.contains_insert] at hOther
    simpa using hOther
  constructor
  · rw [List.map_cons, List.nodup_cons]
    refine ⟨?_, hDistinct⟩
    intro hMem
    rcases List.mem_map.mp hMem with ⟨q, hq, hEqual⟩
    exact (hApart q hq).1 hEqual
  · intro q hq
    rcases List.mem_cons.mp hq with rfl | hq
    · exact hNew
    · exact (hApart q hq).2

/- What is read to the end of the line is worded. -/
theorem exists_parameters_of_readParameters
    (hStart : StopsAt isSolid s)
    (hRead : readParameters params s = .ok params') :
    ∃ ps tail,
      Text.Blanks tail ∧
        s = ParameterWording.textOfAll ps ++ tail ∧
          (ps.map ParameterWording.name).Nodup ∧
            (∀ p ∈ ps, params.contains p.name = false) ∧
              params' = assigned params ps := by
  fun_induction readParameters params s with
  | case1 params s hEmpty =>
      cases hRead
      rcases Text.exists_trimStart s with
        ⟨gap, hGap, hText⟩
      rw [List.isEmpty_iff.mp hEmpty, List.append_nil]
        at hText
      subst hText
      exact ⟨[], s, hGap, rfl, by simp, by simp, rfl⟩
  | case2 params s hSome cause hStep => cases hRead
  | case3 params s hSome step hStep hOld => cases hRead
  | case4 params s hSome step hStep hNew ih =>
      rcases exists_gap_of_stopsAt hStart
          (by simpa using hSome) with
        ⟨gap, hGapSome, hGap, hText⟩
      rcases exists_parameter_of_readParameter hGapSome
          hGap hStep with
        ⟨p, hWorded, hKey, hSetting, hRest⟩
      rcases ih hRest hRead with
        ⟨ps, tail, hTail, hParameters, hDistinct, hOthers,
          hAssigned⟩
      rw [hKey, hSetting] at hOthers hAssigned
      rw [hKey, Bool.not_eq_true] at hNew
      rcases new_cons hNew hDistinct hOthers with
        ⟨hDistinct, hAllNew⟩
      refine
        ⟨p :: ps, tail, hTail, ?_, hDistinct, hAllNew,
          hAssigned⟩
      rw [hText, hWorded, hParameters]
      simp [ParameterWording.textOfAll]

end Lines

------------------------------------------------------------
-- What Parameters Set
------------------------------------------------------------

/- What is not set again stays as it is. -/
theorem get?_assigned_of_not_mem
    {params : Params}
    {ps : List ParameterWording}
    {name : String}
    (hOther : ∀ p ∈ ps, p.name ≠ name) :
    (assigned params ps).get? name = params.get? name := by
  induction ps generalizing params with
  | nil => rfl
  | cons p ps ih =>
      rcases List.forall_mem_cons.mp hOther with ⟨hp, hps⟩
      have hRest := @ih (params.insert p.name p.setting) hps
      exact
        hRest.trans
          (Dictionary.get?_insert_of_ne params hp.symm _)

/- Every parameter is set as it is worded. -/
theorem get?_assigned_of_mem
    {params : Params}
    {ps : List ParameterWording}
    {p : ParameterWording}
    (hDistinct : (ps.map ParameterWording.name).Nodup)
    (hMem : p ∈ ps) :
    (assigned params ps).get? p.name = some p.setting := by
  induction ps generalizing params with
  | nil => cases hMem
  | cons q ps ih =>
      rw [List.map_cons, List.nodup_cons] at hDistinct
      rcases List.mem_cons.mp hMem with rfl | hMem
      · have hOther : ∀ r ∈ ps, r.name ≠ p.name := by
          intro r hr hEqual
          apply hDistinct.1
          rw [← hEqual]
          exact List.mem_map_of_mem hr
        exact
          (get?_assigned_of_not_mem hOther).trans
            (Dictionary.get?_insert_self params _ _)
      · exact ih hDistinct.2 hMem

/- Exactly the parameters of a line are set in the end. -/
theorem get?_assigned_empty_iff
    {ps : List ParameterWording}
    {name setting : String}
    (hDistinct : (ps.map ParameterWording.name).Nodup) :
    (assigned Dictionary.empty ps).get? name =
        some setting ↔
      ∃ p ∈ ps, p.name = name ∧ p.setting = setting := by
  constructor
  · intro hSome
    by_cases hMem : ∃ p ∈ ps, p.name = name
    · rcases hMem with ⟨p, hp, rfl⟩
      rw [get?_assigned_of_mem hDistinct hp] at hSome
      cases hSome
      exact ⟨p, hp, rfl, rfl⟩
    · have hOther : ∀ p ∈ ps, p.name ≠ name := by
        intro p hp hEqual
        exact hMem ⟨p, hp, hEqual⟩
      rw [get?_assigned_of_not_mem hOther] at hSome
      cases hSome
  · intro hMem
    rcases hMem with ⟨p, hp, rfl, rfl⟩
    exact get?_assigned_of_mem hDistinct hp

/- The names that there are in the end are those set. -/
theorem contains_assigned_empty
    {ps : List ParameterWording}
    {name : String} :
    (assigned Dictionary.empty ps).contains name = true ↔
      name ∈ ps.map ParameterWording.name := by
  have hAssigned (params : Params) :
      (assigned params ps).contains name = true ↔
        params.contains name = true ∨
          name ∈ ps.map ParameterWording.name := by
    induction ps generalizing params with
    | nil => simp [assigned]
    | cons p ps ih =>
        have hRest := ih (params.insert p.name p.setting)
        rw [Dictionary.contains_insert] at hRest
        simp only [Bool.or_eq_true, beq_iff_eq] at hRest
        rw [List.map_cons, List.mem_cons]
        exact hRest.trans (or_assoc.trans or_left_comm)
  rw [hAssigned]
  exact ⟨fun h => h.resolve_left (by rintro ⟨⟩), .inr⟩

end Invocation

------------------------------------------------------------
-- Lines
------------------------------------------------------------

namespace Wording

/- The invocation that a wording is read as. -/
def invocation (w : Wording) : Invocation where
  kind := String.ofList w.kind
  params :=
    Invocation.assigned Dictionary.empty w.parameters

/- A wording calls for one invocation only. -/
theorem callsFor_iff
    {w : Wording}
    {invocation : Invocation} :
    w.CallsFor invocation ↔ invocation = w.invocation := by
  have hSet (name setting : String) :
      w.invocation.params.get? name = some setting ↔
        ∃ p ∈ w.parameters,
          p.name = name ∧ p.setting = setting :=
    Invocation.get?_assigned_empty_iff w.distinct
  constructor
  · intro hCalls
    rcases invocation with ⟨kind, params⟩
    rcases hCalls with ⟨rfl, hParams⟩
    have hEqual : params = w.invocation.params := by
      apply Dictionary.ext_get?
      intro name
      apply Option.ext
      intro setting
      exact
        (hParams name setting).trans
          (hSet name setting).symm
    rw [hEqual]
    rfl
  · rintro rfl
    exact ⟨rfl, hSet⟩

/- A line is read as its wording. -/
theorem read_of_text_eq
    {w : Wording}
    {line : List Char}
    (hText : w.text = Text.trim line) :
    Invocation.read line = .ok w.invocation := by
  have hEnd :=
    ParameterWording.stopsAt_textOfAll w.parameters
  have hTake :=
    Text.takeWhile_append w.isSolid_of_mem_kind hEnd
  have hDrop :=
    Text.dropWhile_append w.isSolid_of_mem_kind hEnd
  have hParameters :
      Invocation.readParameters Dictionary.empty
          (ParameterWording.textOfAll w.parameters) =
        .ok w.invocation.params :=
    Invocation.readParameters_textOfAll w.distinct
      fun _ _ => rfl
  unfold Invocation.read
  rw [← hText]
  unfold text
  simp only [hTake, hDrop, w.isName, hParameters,
    Bool.not_true, Bool.false_eq_true, if_false]
  rfl

/- What is read of a line is worded on it. -/
theorem exists_wording_of_read
    {line : List Char}
    {invocation : Invocation}
    (hRead : Invocation.read line = .ok invocation) :
    ∃ w : Wording,
      w.text = Text.trim line ∧
        invocation = w.invocation := by
  have hText :
      (Text.trim line).takeWhile Invocation.isSolid ++
          (Text.trim line).dropWhile Invocation.isSolid =
        Text.trim line :=
    List.takeWhile_append_dropWhile
  have hEnd := (Text.stopsAt_trim line).2
  have hStart :
      StopsAt Invocation.isSolid
        ((Text.trim line).dropWhile Invocation.isSolid) :=
    Text.stopsAt_dropWhile (Text.trim line)
  unfold Invocation.read at hRead
  simp only at hRead
  generalize Text.trim line = trimmed at *
  generalize trimmed.takeWhile Invocation.isSolid = kind
    at *
  generalize trimmed.dropWhile Invocation.isSolid = rest
    at *
  split at hRead
  · cases hRead
  · rename_i hName
    cases hParams :
        Invocation.readParameters Dictionary.empty rest with
    | error cause =>
        rw [hParams] at hRead
        cases hRead
    | ok params =>
        rw [hParams] at hRead
        cases hRead
        rcases Invocation.exists_parameters_of_readParameters
            hStart hParams with
          ⟨ps, tail, hTail, rfl, hDistinct, _, rfl⟩
        have hNone : tail = [] := by
          rw [← hText, ← List.append_assoc,
            List.reverse_append] at hEnd
          have hNone := hTail.reverse.eq_nil_of_stopsAt hEnd
          exact List.reverse_eq_nil_iff.mp hNone
        refine
          ⟨⟨kind, ps, by simpa using hName, hDistinct⟩, ?_,
            rfl⟩
        rw [← hText, hNone]
        simp [text]

end Wording

namespace Invocation

/-
  The lines that are read, and as what. A line is read as an
  invocation exactly if its trimmed text is worded as a kind
  and parameters that call for this invocation; and there is
  no other way to word that text.
-/
theorem read_eq_ok_iff_worded
    (line : List Char)
    (invocation : Invocation) :
    read line = .ok invocation ↔
      ∃ w : Wording,
        w.text = Text.trim line ∧
          w.CallsFor invocation ∧
            ∀ w' : Wording,
              w'.text = Text.trim line → w' = w := by
  constructor
  · intro hRead
    rcases Wording.exists_wording_of_read hRead with
      ⟨w, hText, hInvocation⟩
    refine
      ⟨w, hText, Wording.callsFor_iff.mpr hInvocation, ?_⟩
    intro w' hText'
    exact Wording.text_inj (hText'.trans hText.symm)
  · intro hWorded
    rcases hWorded with ⟨w, hText, hCalls, _⟩
    rw [Wording.callsFor_iff.mp hCalls]
    exact Wording.read_of_text_eq hText

end Invocation

end CommandScript
