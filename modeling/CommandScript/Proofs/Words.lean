import CommandScript.Text.Blank
import CommandScript.Text.Name

/-
  Words in a text and the blanks around it. A word is a run
  of characters of one sort, up to the first that is of
  another sort. Trimming takes away the blanks at both ends
  and nothing else.

  Key definitions include:
    * `Text.StopsAt`
    * `Text.Blanks`

  Main statements:
    * `Text.eq_of_append_eq`
    * `Text.eq_of_toDigits_append_eq`
    * `Text.trim_of_padded`
    * `Text.exists_padding`
    * `Text.trim_trim`
    * `Text.trim_padded`
-/

namespace CommandScript

namespace Text

------------------------------------------------------------
-- Words
------------------------------------------------------------

/- A text is at its end, or goes on with another sort. -/
def StopsAt
    (sort : Char → Bool)
    (rest : List Char) : Prop :=
  ∀ c ∈ rest.head?, sort c = false

section Words

variable {sort : Char → Bool}
variable {word word' rest rest' : List Char}

theorem stopsAt_nil : StopsAt sort [] := by
  simp [StopsAt]

theorem stopsAt_cons
    {c : Char} :
    StopsAt sort (c :: rest) ↔ sort c = false := by
  simp [StopsAt]

/- A text without the sort stops at once. -/
theorem stopsAt_of_forall
    (hOther : ∀ c ∈ rest, sort c = false) :
    StopsAt sort rest := by
  intro c hc
  exact hOther c (List.mem_of_mem_head? hc)

/- What comes first decides, unless there is nothing. -/
theorem stopsAt_append
    (hSome : word ≠ [])
    (hWord : StopsAt sort word) :
    StopsAt sort (word ++ rest) := by
  cases word with
  | nil => exact absurd rfl hSome
  | cons c word =>
      exact stopsAt_cons.mpr (stopsAt_cons.mp hWord)

/- What follows a word does not go on with its sort. -/
theorem stopsAt_dropWhile
    (s : List Char) :
    StopsAt sort (s.dropWhile sort) := by
  induction s with
  | nil => exact stopsAt_nil
  | cons c s ih =>
      by_cases hSort : sort c = true
      · rw [List.dropWhile_cons_of_pos hSort]
        exact ih
      · rw [List.dropWhile_cons_of_neg hSort]
        exact stopsAt_cons.mpr (by simpa using hSort)

/- Nothing of the sort comes first where it stops. -/
theorem takeWhile_of_stopsAt
    (hRest : StopsAt sort rest) :
    rest.takeWhile sort = [] := by
  cases rest with
  | nil => rfl
  | cons c rest =>
      simp [stopsAt_cons.mp hRest]

theorem dropWhile_of_stopsAt
    (hRest : StopsAt sort rest) :
    rest.dropWhile sort = rest := by
  cases rest with
  | nil => rfl
  | cons c rest =>
      simp [stopsAt_cons.mp hRest]

/- A word is found at the start of a text. -/
theorem takeWhile_append
    (hWord : ∀ c ∈ word, sort c = true)
    (hRest : StopsAt sort rest) :
    (word ++ rest).takeWhile sort = word := by
  rw [List.takeWhile_append_of_pos hWord,
    takeWhile_of_stopsAt hRest, List.append_nil]

/- What follows a word is found behind it. -/
theorem dropWhile_append
    (hWord : ∀ c ∈ word, sort c = true)
    (hRest : StopsAt sort rest) :
    (word ++ rest).dropWhile sort = rest := by
  rw [List.dropWhile_append_of_pos hWord,
    dropWhile_of_stopsAt hRest]

/- A text starts with one word of a sort only. -/
theorem eq_of_append_eq
    (hWord : ∀ c ∈ word, sort c = true)
    (hWord' : ∀ c ∈ word', sort c = true)
    (hRest : StopsAt sort rest)
    (hRest' : StopsAt sort rest')
    (hText : word ++ rest = word' ++ rest') :
    word = word' ∧ rest = rest' := by
  have hTake := takeWhile_append hWord hRest
  have hDrop := dropWhile_append hWord hRest
  rw [hText, takeWhile_append hWord' hRest'] at hTake
  rw [hText, dropWhile_append hWord' hRest'] at hDrop
  exact ⟨hTake.symm, hDrop.symm⟩

/- A text starts with one number only. -/
theorem eq_of_toDigits_append_eq
    {n n' : Nat}
    (hRest : StopsAt Char.isDigit rest)
    (hRest' : StopsAt Char.isDigit rest')
    (hText :
      Nat.toDigits 10 n ++ rest =
        Nat.toDigits 10 n' ++ rest') :
    n = n' ∧ rest = rest' := by
  have hDigit (n : Nat) :
      ∀ c ∈ Nat.toDigits 10 n, c.isDigit = true :=
    fun _ hMem =>
      Nat.isDigit_of_mem_toDigits (by decide) (by decide)
        hMem
  rcases eq_of_append_eq (hDigit n) (hDigit n') hRest
      hRest' hText with
    ⟨hDigits, hEnd⟩
  have hNumber :=
    congrArg (fun digits => Nat.ofDigitChars 10 digits 0)
      hDigits
  simp only [Nat.ofDigitChars_ten_toDigits] at hNumber
  exact ⟨hNumber, hEnd⟩

end Words

------------------------------------------------------------
-- Trimming
------------------------------------------------------------

/- A text that consists of blanks. -/
def Blanks (s : List Char) : Prop :=
  ∀ c ∈ s, isBlank c = true

instance (s : List Char) : Decidable (Blanks s) :=
  List.decidableBAll _ s

section Trimming

variable {left right s : List Char}

theorem Blanks.reverse
    (hBlanks : Blanks s) :
    Blanks s.reverse := by
  intro c hc
  exact hBlanks c (List.mem_reverse.mp hc)

/- Where no blank comes first, no blanks are in front. -/
theorem Blanks.eq_nil_of_stopsAt
    (hBlanks : Blanks left)
    (hStops : StopsAt isBlank (left ++ s)) :
    left = [] := by
  cases left with
  | nil => rfl
  | cons c left =>
      have hBlank := hBlanks c List.mem_cons_self
      rw [List.cons_append] at hStops
      rw [stopsAt_cons.mp hStops] at hBlank
      cases hBlank

/- Blanks in front do not matter. -/
theorem trimStart_append
    (hLeft : Blanks left) :
    trimStart (left ++ s) = trimStart s :=
  List.dropWhile_append_of_pos hLeft

/- A text without blanks in front stays as it is. -/
theorem trimStart_of_stopsAt
    (hStart : StopsAt isBlank s) :
    trimStart s = s :=
  dropWhile_of_stopsAt hStart

/- Blanks at the end do not matter. -/
theorem trimEnd_append
    (hRight : Blanks right) :
    trimEnd (s ++ right) = trimEnd s := by
  unfold trimEnd
  rw [List.reverse_append,
    List.dropWhile_append_of_pos hRight.reverse]

/- A text without blanks at its end stays as it is. -/
theorem trimEnd_of_stopsAt
    (hEnd : StopsAt isBlank s.reverse) :
    trimEnd s = s := by
  unfold trimEnd
  rw [dropWhile_of_stopsAt hEnd, List.reverse_reverse]

/- Only blanks are taken away in front. -/
theorem exists_trimStart
    (s : List Char) :
    ∃ left, Blanks left ∧ s = left ++ trimStart s := by
  refine ⟨s.takeWhile isBlank, ?_, ?_⟩
  · exact List.all_eq_true.mp List.all_takeWhile
  · exact List.takeWhile_append_dropWhile.symm

/- Only blanks are taken away at the end. -/
theorem exists_trimEnd
    (s : List Char) :
    ∃ right, Blanks right ∧ s = trimEnd s ++ right := by
  rcases exists_trimStart s.reverse with
    ⟨left, hLeft, hReverse⟩
  refine ⟨left.reverse, hLeft.reverse, ?_⟩
  have hText := congrArg List.reverse hReverse
  rw [List.reverse_append, List.reverse_reverse] at hText
  exact hText

/- No blank is left in front. -/
theorem stopsAt_trimStart
    (s : List Char) :
    StopsAt isBlank (trimStart s) :=
  stopsAt_dropWhile s

/- No blank is left at the end. -/
theorem stopsAt_reverse_trimEnd
    (s : List Char) :
    StopsAt isBlank (trimEnd s).reverse := by
  unfold trimEnd
  rw [List.reverse_reverse]
  exact stopsAt_dropWhile s.reverse

/- What is taken away at the end uncovers no blank. -/
theorem stopsAt_trimEnd
    (hStart : StopsAt isBlank s) :
    StopsAt isBlank (trimEnd s) := by
  rcases exists_trimEnd s with ⟨right, _, hText⟩
  cases hTrim : trimEnd s with
  | nil => exact stopsAt_nil
  | cons c rest =>
      rw [hText, hTrim, List.cons_append] at hStart
      exact stopsAt_cons.mpr (stopsAt_cons.mp hStart)

/- There are no blanks around a trimmed text. -/
theorem stopsAt_trim
    (s : List Char) :
    StopsAt isBlank (trim s) ∧
      StopsAt isBlank (trim s).reverse :=
  ⟨stopsAt_trimEnd (stopsAt_trimStart s),
    stopsAt_reverse_trimEnd (trimStart s)⟩

/- A text without blanks around it stays as it is. -/
theorem trim_of_stopsAt
    (hStart : StopsAt isBlank s)
    (hEnd : StopsAt isBlank s.reverse) :
    trim s = s := by
  unfold trim
  rw [trimStart_of_stopsAt hStart, trimEnd_of_stopsAt hEnd]

/- A trimmed text stays as it is. -/
theorem trim_trim
    (s : List Char) :
    trim (trim s) = trim s :=
  trim_of_stopsAt (stopsAt_trim s).1 (stopsAt_trim s).2

/- A text is its trimmed text and blanks around it. -/
theorem exists_padding
    (s : List Char) :
    ∃ left right,
      Blanks left ∧ Blanks right ∧
        s = left ++ trim s ++ right := by
  rcases exists_trimStart s with ⟨left, hLeft, hStart⟩
  rcases exists_trimEnd (trimStart s) with
    ⟨right, hRight, hEnd⟩
  refine ⟨left, right, hLeft, hRight, ?_⟩
  rw [List.append_assoc]
  exact hStart.trans (congrArg (left ++ ·) hEnd)

/- Blanks around a text without any are taken away. -/
theorem trim_of_padded
    (hLeft : Blanks left)
    (hRight : Blanks right)
    (hTrimmed : trim s = s) :
    trim (left ++ s ++ right) = s := by
  have hStops := stopsAt_trim s
  rw [hTrimmed] at hStops
  unfold trim
  rw [List.append_assoc, trimStart_append hLeft]
  -- An empty text leaves no first character to stop at.
  cases s with
  | nil =>
      rw [List.nil_append, ← List.append_nil right,
        trimStart_append hRight]
      rfl
  | cons c rest =>
      have hStart : StopsAt isBlank (c :: rest ++ right) :=
        stopsAt_cons.mpr (stopsAt_cons.mp hStops.1)
      rw [trimStart_of_stopsAt hStart,
        trimEnd_append hRight, trimEnd_of_stopsAt hStops.2]

theorem Blanks.append
    (hLeft : Blanks left)
    (hRight : Blanks right) :
    Blanks (left ++ right) :=
  List.forall_mem_append.mpr ⟨hLeft, hRight⟩

/- Blanks around any text do not matter. -/
theorem trim_padded
    (hLeft : Blanks left)
    (hRight : Blanks right) :
    trim (left ++ s ++ right) = trim s := by
  rcases exists_padding s with
    ⟨inner, inner', hInner, hInner', hText⟩
  calc
    trim (left ++ s ++ right) =
        trim (left ++ (inner ++ trim s ++ inner') ++
          right) := by
      rw [← hText]
    _ = trim (left ++ inner ++ trim s ++
          (inner' ++ right)) := by
      simp only [List.append_assoc]
    _ = trim s :=
      trim_of_padded (hLeft.append hInner)
        (hInner'.append hRight) (trim_trim s)

end Trimming

------------------------------------------------------------
-- Names
------------------------------------------------------------

/- No character of a name is blank. -/
theorem isBlank_of_isNameChar
    {c : Char}
    (hName : isNameChar c = true) :
    isBlank c = false := by
  have hRange : 45 ≤ c.toNat ∧ c.toNat ≤ 122 := by
    change
      ((c.isUpper || c.isLower || c.isDigit) || c == '_' ||
        c == '.' || c == '-') = true at hName
    simp only [Char.isDigit, Bool.or_eq_true,
      Bool.and_eq_true, decide_eq_true_eq, beq_iff_eq]
      at hName
    rcases hName with
      ((((hUpper | hLower) | hDigit) | rfl) | rfl) | rfl
    · have hLetter : 65 ≤ c.toNat ∧ c.toNat ≤ 90 :=
        of_decide_eq_true hUpper
      omega
    · rcases Bool.and_eq_true_iff.mp hLower with
        ⟨hLow, hHigh⟩
      have hLetter : 97 ≤ c.toNat ∧ c.toNat ≤ 122 :=
        ⟨of_decide_eq_true hLow, of_decide_eq_true hHigh⟩
      omega
    · have hDigits : 48 ≤ c.toNat ∧ c.toNat ≤ 57 :=
        hDigit
      omega
    · decide
    · decide
    · decide
  simp only [isBlank, Bool.or_eq_false_iff,
    Bool.and_eq_false_iff, decide_eq_false_iff_not,
    beq_eq_false_iff_ne]
  omega

/- No character of a name is an equals sign. -/
theorem ne_equals_of_isNameChar
    {c : Char}
    (hName : isNameChar c = true) :
    c ≠ '=' := by
  rintro rfl
  exact absurd hName (by decide)

/- A name has a first character. -/
theorem ne_nil_of_isName
    {s : List Char}
    (hName : isName s = true) :
    s ≠ [] := by
  rintro rfl
  cases hName

end Text

end CommandScript
