import CommandScript.Builtin
import CommandScript.Proofs.Parsing

/-
  When the reading of a script is aborted. The only way to
  that is a duration in words whose amounts come to the last
  second that a duration can have, with nanoseconds on top
  of it that make up exactly one more. Every other script is
  a tree or has an error to report.

  Key definitions include:
    * `Duration.Overruns`
    * `Phrase.Overruns`
    * `Phrase.LosesCarry`
    * `Params.LosesCarry`
    * `Builtin.LosesCarry`

  Main statements:
    * `Duration.combine_eq_lostCarry_iff`
    * `Phrase.read_eq_aborted_iff`
    * `Params.duration_eq_aborted_iff`
    * `Builtin.construct_eq_aborted_iff`
    * `Builtin.parse_answers_iff`
-/

namespace CommandScript

------------------------------------------------------------
-- Attempts That Are Aborted
------------------------------------------------------------

namespace Attempt

variable {ε ε' α β : Type}

/- Two steps are aborted in the first or in the second. -/
theorem bind_eq_aborted_iff
    {attempt : Attempt ε α}
    {next : α → Attempt ε β} :
    attempt >>= next = .error .aborted ↔
      attempt = .error .aborted ∨
        ∃ value,
          attempt = .ok value ∧
            next value = .error .aborted := by
  cases attempt <;> simp [bind, Except.bind]

/- What only reports errors is not aborted. -/
theorem ofExcept_ne_aborted
    (result : Except ε α) :
    ofExcept result ≠ .error .aborted := by
  cases result <;> simp [ofExcept, reject]

/- It succeeds with the same values. -/
theorem ofExcept_eq_ok_iff
    {result : Except ε α}
    {value : α} :
    ofExcept result = .ok value ↔ result = .ok value := by
  cases result <;> simp [ofExcept, reject]

/- A wider context does not matter to an abort. -/
theorem wrap_eq_aborted_iff
    {context : ε → ε'}
    {attempt : Attempt ε α} :
    attempt.wrap context = .error .aborted ↔
      attempt = .error .aborted := by
  rcases attempt with (_ | _) | _ <;> simp [wrap, reject]

/- Nor does a change of values. -/
theorem map_eq_aborted_iff
    {change : α → β}
    {attempt : Attempt ε α} :
    attempt.map change = .error .aborted ↔
      attempt = .error .aborted := by
  cases attempt <;> simp [Except.map]

/- What is not aborted has a value or reports an error. -/
theorem ok_or_error_iff
    (attempt : Attempt ε α) :
    ((∃ value, attempt = .ok value) ∨
        ∃ cause, attempt = .error (.error cause)) ↔
      attempt ≠ .error .aborted := by
  rcases attempt with (_ | _) | _ <;> simp

/- A list is aborted at the first element that is. -/
theorem foldlM_eq_aborted_iff
    {step : β → α → Attempt ε β}
    {elements : List α}
    {start : β} :
    elements.foldlM step start = .error .aborted ↔
      ∃ early element late state,
        elements = early ++ element :: late ∧
          early.foldlM step start = .ok state ∧
            step state element = .error .aborted := by
  induction elements generalizing start with
  | nil => simp [pure, Except.pure]
  | cons head rest ih =>
      rw [List.foldlM_cons, bind_eq_aborted_iff]
      constructor
      · intro hAborted
        rcases hAborted with hHead | ⟨next, hHead, hRest⟩
        · exact ⟨[], head, rest, start, rfl, rfl, hHead⟩
        · rcases ih.mp hRest with
            ⟨early, element, late, state, rfl, hEarly,
              hElement⟩
          refine
            ⟨head :: early, element, late, state, rfl, ?_,
              hElement⟩
          rw [List.foldlM_cons, hHead]
          exact hEarly
      · intro hSplit
        rcases hSplit with
          ⟨early, element, late, state, hElements, hEarly,
            hElement⟩
        cases early with
        | nil =>
            cases hElements
            cases hEarly
            exact .inl hElement
        | cons first early =>
            cases hElements
            rw [List.foldlM_cons] at hEarly
            rcases exists_of_bind_eq_ok hEarly with
              ⟨next, hFirst, hEarly⟩
            exact
              .inr
                ⟨next, hFirst,
                  ih.mpr
                    ⟨early, element, late, state, rfl,
                      hEarly, hElement⟩⟩

end Attempt

------------------------------------------------------------
-- Sums That Lose Their Carry
------------------------------------------------------------

namespace Duration

/-
  All seconds are taken, and some nanoseconds more make up
  exactly another one.
-/
def Overruns
    (d : Duration)
    (nanoseconds : Nat) : Prop :=
  d.seconds + 1 = wordBound ∧
    d.subsecond + nanoseconds = perSecond

/- Nanoseconds in range are a duration. -/
theorem ofNanoseconds?_of_lt
    {n : Nat}
    (hIn : n < bound) :
    ofNanoseconds? n = some ⟨n, hIn⟩ :=
  dif_pos hIn

/- Nanoseconds out of range are none. -/
theorem ofNanoseconds?_of_le
    {n : Nat}
    (hOut : bound ≤ n) :
    ofNanoseconds? n = none :=
  dif_neg (Nat.not_lt.mpr hOut)

/- A second that is carried has to fit a word. -/
theorem bound_le_iff
    (whole : Nat)
    {fraction : Nat}
    (hSecond : fraction = perSecond) :
    bound ≤ whole * perSecond + fraction ↔
      wordBound ≤ whole + 1 := by
  have hCarry :
      whole * perSecond + fraction =
        (whole + 1) * perSecond := by
    rw [hSecond, Nat.add_mul, Nat.one_mul]
  rw [hCarry]
  exact Nat.mul_le_mul_right_iff (by decide)

/- A sum by its whole seconds and its nanoseconds. -/
theorem nanoseconds_add
    (d : Duration)
    (seconds nanoseconds : Nat) :
    d.nanoseconds + seconds * perSecond + nanoseconds =
      (d.seconds + seconds) * perSecond +
        (d.subsecond + nanoseconds) := by
  have hParts :
      d.nanoseconds =
        d.seconds * perSecond + d.subsecond := by
    unfold Duration.seconds subsecond
    rw [Nat.mul_comm]
    exact (Nat.div_add_mod d.nanoseconds perSecond).symm
  rw [Nat.add_mul]
  omega

/- A carry is lost where it goes beyond the last second. -/
theorem combine_eq_lostCarry_iff
    (d : Duration)
    (seconds nanoseconds : Nat) :
    d.combine seconds nanoseconds = .lostCarry ↔
      d.seconds + seconds + 1 = wordBound ∧
        d.subsecond + nanoseconds = perSecond := by
  unfold combine
  rw [nanoseconds_add]
  by_cases hSecond : d.subsecond + nanoseconds = perSecond
  · have hWord :
        ¬ wordBound ≤ d.subsecond + nanoseconds := by
      rw [hSecond]
      decide
    have hBound :=
      bound_le_iff (d.seconds + seconds) hSecond
    by_cases hOut : wordBound ≤ d.seconds + seconds + 1
    · simp only [hWord, if_false,
        ofNanoseconds?_of_le (hBound.mpr hOut)]
      simp only [hSecond, true_and, and_true]
      split
      · simp only [true_iff]
        omega
      · simp only [reduceCtorEq, false_iff]
        omega
    · rw [← hBound, Nat.not_le] at hOut
      simp only [hWord, if_false,
        ofNanoseconds?_of_lt hOut, reduceCtorEq, false_iff]
      omega
  -- Other nanoseconds are carried with a check.
  · simp only [hSecond, false_and, and_false, if_false,
      iff_false]
    split
    · simp
    · split <;> simp

end Duration

namespace Phrase

------------------------------------------------------------
-- Amounts
------------------------------------------------------------

/-
  An amount that is added to a total loses a carry: either
  its whole number of a unit below the second does, or its
  fraction does, after the whole number has been added.
-/
inductive Overruns
    (total : Duration)
    (number : Nat)
    (unit : TimeUnit) : Option Fraction → Prop where
| whole
    (f : Option Fraction)
    (hUnit : unit.isSubsecond = true)
    (hOverruns : total.Overruns (number * unit.scale)) :
    Overruns total number unit f
| fraction
    {f : Fraction}
    {sum : Duration}
    (hWhole : addWhole total number unit = .ok sum)
    (hUnit : unit.hasNanosecondFraction = true)
    (hWord :
      f.numerator * unit.fractionScale < Duration.wordBound)
    (hExact :
      f.numerator * unit.fractionScale % f.denominator = 0)
    (hOverruns :
      sum.Overruns
        (f.numerator * unit.fractionScale /
          f.denominator)) :
    Overruns total number unit (some f)

section Amounts

variable {total : Duration}
variable {number : Nat}
variable {unit : TimeUnit}

/- A step after a word is aborted by itself. -/
theorem word_bind_eq_aborted_iff
    {α : Type}
    {n : Nat}
    {next : Nat → Attempt PhraseError α} :
    word n >>= next = .error .aborted ↔
      n < Duration.wordBound ∧
        next n = .error .aborted := by
  unfold word
  by_cases hWord : n < Duration.wordBound <;>
    simp [hWord, Attempt.reject, bind, Except.bind]

/- What is added is aborted where it loses a carry. -/
theorem add_eq_aborted_iff
    {seconds nanoseconds : Nat} :
    add total seconds nanoseconds = .error .aborted ↔
      total.seconds + seconds + 1 = Duration.wordBound ∧
        total.subsecond + nanoseconds =
          Duration.perSecond := by
  rw [← Duration.combine_eq_lostCarry_iff]
  unfold add
  cases total.combine seconds nanoseconds <;>
    simp [Attempt.reject]

/- Whole seconds come without nanoseconds to carry. -/
theorem add_seconds_ne_aborted
    (total : Duration)
    (seconds : Nat) :
    add total seconds 0 ≠ .error .aborted := by
  intro hAborted
  have hFraction := (add_eq_aborted_iff.mp hAborted).2
  have hLess : total.subsecond < Duration.perSecond :=
    Nat.mod_lt _ (by decide)
  omega

/- Nanoseconds lose a carry in the last second only. -/
theorem add_if_eq_aborted_iff
    {below : Bool}
    {amount : Nat} :
    (if below then add total 0 amount
        else add total amount 0) = .error .aborted ↔
      below = true ∧ total.Overruns amount := by
  cases below with
  | true =>
      simp only [if_true, true_and]
      exact add_eq_aborted_iff
  | false => simp [add_seconds_ne_aborted]

/- Nanoseconds that lose a carry fit a word. -/
theorem lt_wordBound_of_overruns
    {nanoseconds : Nat}
    (hOverruns : total.Overruns nanoseconds) :
    nanoseconds < Duration.wordBound := by
  have hSecond := hOverruns.2
  have hLess : Duration.perSecond < Duration.wordBound := by
    decide
  omega

theorem addWhole_eq_aborted_iff :
    addWhole total number unit = .error .aborted ↔
      unit.isSubsecond = true ∧
        total.Overruns (number * unit.scale) := by
  unfold addWhole
  rw [word_bind_eq_aborted_iff, add_if_eq_aborted_iff]
  constructor
  · intro hAborted
    exact hAborted.2
  · intro hOverruns
    exact ⟨lt_wordBound_of_overruns hOverruns.2, hOverruns⟩

theorem addFraction_eq_aborted_iff
    {f : Fraction} :
    addFraction total f unit = .error .aborted ↔
      unit.hasNanosecondFraction = true ∧
        f.numerator * unit.fractionScale <
          Duration.wordBound ∧
        f.numerator * unit.fractionScale %
            f.denominator = 0 ∧
        total.Overruns
          (f.numerator * unit.fractionScale /
            f.denominator) := by
  unfold addFraction
  by_cases hUnit : unit = .nanosecond
  · simp [hUnit, Attempt.reject,
      TimeUnit.hasNanosecondFraction]
  · rw [if_neg hUnit, word_bind_eq_aborted_iff]
    by_cases hExact :
        f.numerator * unit.fractionScale %
            f.denominator = 0
    · simp only [hExact, if_true, true_and,
        add_if_eq_aborted_iff]
      exact and_left_comm
    · simp only [hExact, if_false, false_and, and_false,
        iff_false]
      intro hAborted
      cases hAborted.2

/- An amount is aborted where it loses a carry. -/
theorem addAmount_eq_aborted_iff
    {f : Option Fraction}
    {name : String} :
    addAmount total number f name = .error .aborted ↔
      ∃ unit,
        TimeUnit.ofName? name = some unit ∧
          Overruns total number unit f := by
  unfold addAmount
  cases TimeUnit.ofName? name with
  | none => simp [Attempt.reject]
  | some unit =>
      simp only [Option.some.injEq, exists_eq_left',
        Attempt.bind_eq_aborted_iff,
        addWhole_eq_aborted_iff]
      constructor
      · intro hAborted
        rcases hAborted with
          ⟨hUnit, hOverruns⟩ | ⟨sum, hWhole, hAborted⟩
        · exact .whole f hUnit hOverruns
        · cases f with
          | none => cases hAborted
          | some f =>
              rcases addFraction_eq_aborted_iff.mp
                  hAborted with
                ⟨hUnit, hWord, hExact, hOverruns⟩
              exact
                .fraction hWhole hUnit hWord hExact
                  hOverruns
      · intro hOverruns
        cases hOverruns with
        | whole _ hUnit hOverruns =>
            exact .inl ⟨hUnit, hOverruns⟩
        | fraction hWhole hUnit hWord hExact hOverruns =>
            exact
              .inr
                ⟨_, hWhole,
                  addFraction_eq_aborted_iff.mpr
                    ⟨hUnit, hWord, hExact, hOverruns⟩⟩

/- A number without a unit is never aborted. -/
theorem addAmount_empty_ne_aborted
    (f : Option Fraction) :
    addAmount total number f "" ≠ .error .aborted := by
  intro hAborted
  rcases addAmount_eq_aborted_iff.mp hAborted with
    ⟨unit, hName, _⟩
  have hNone : TimeUnit.ofName? "" = none := by decide
  rw [hNone] at hName
  cases hName

end Amounts

------------------------------------------------------------
-- Phrases
------------------------------------------------------------

/- The characters that end a unit. -/
def EndsUnit (c : Char) : Prop :=
  (Number.digit? c).isSome ∨ Text.isBlank c

/-
  The amount that a reader is in loses a carry when it is
  added to the ones before it.
-/
def State.LosesCarry (s : State) : Prop :=
  match s.place with
  | .unit number f letters =>
      ∃ unit,
        TimeUnit.ofName? (String.ofList letters) =
            some unit ∧
          Overruns s.total number unit f
  | _ => False

/-
  An amount of a phrase loses a carry when it is added to
  the ones before it. Where it ends, the phrase ends, or a
  digit or a blank follows.
-/
def LosesCarry (text : List Char) : Prop :=
  ∃ early late s,
    text = early ++ late ∧
      early.foldlM feed start = .ok s ∧
        (∀ c, late.head? = some c → EndsUnit c) ∧
          s.LosesCarry

section Phrases

variable {s : State}
variable {c : Char}

/- Digits are added to a number without an abort. -/
theorem withDigit_ne_aborted
    (n digit : Nat) :
    withDigit n digit ≠ .error .aborted := by
  unfold withDigit word
  split <;> simp [Attempt.reject]

theorem fraction_withDigit_ne_aborted
    (f : Fraction)
    (digit : Nat) :
    f.withDigit digit ≠ .error .aborted := by
  unfold Fraction.withDigit
  intro hAborted
  rw [word_bind_eq_aborted_iff,
    Attempt.bind_eq_aborted_iff] at hAborted
  rcases hAborted.2 with hAborted | ⟨_, _, hAborted⟩
  · exact withDigit_ne_aborted _ _ hAborted
  · cases hAborted

/- Only a reader in a unit can be aborted. -/
theorem feedBetween_ne_aborted
    (mark : Nat) :
    feedBetween s mark c ≠ .error .aborted := by
  unfold feedBetween
  split
  · simp
  · split <;> simp [Attempt.reject]

theorem feedWhole_ne_aborted
    (number : Nat) :
    feedWhole s number c ≠ .error .aborted := by
  unfold feedWhole
  split
  · rw [ne_eq, Attempt.bind_eq_aborted_iff]
    simp [withDigit_ne_aborted, pure, Except.pure]
  · split
    · simp
    · split
      · simp
      · split <;> simp [Attempt.reject]

theorem feedFraction_ne_aborted
    (number : Nat)
    (f : Fraction)
    (mark : Nat) :
    feedFraction s number f mark c ≠ .error .aborted := by
  unfold feedFraction
  split
  · rw [ne_eq, Attempt.bind_eq_aborted_iff]
    simp [fraction_withDigit_ne_aborted, pure, Except.pure]
  · split
    · simp
    · split <;> simp [Attempt.reject]

/- A unit is added at the character that ends it. -/
theorem feedUnit_eq_aborted_iff
    {number : Nat}
    {f : Option Fraction}
    {letters : List Char} :
    feedUnit s number f letters c = .error .aborted ↔
      EndsUnit c ∧
        addAmount s.total number f
            (String.ofList letters) =
          .error .aborted := by
  unfold feedUnit EndsUnit
  cases hDigit : Number.digit? c with
  | some digit =>
      simp only [Attempt.bind_eq_aborted_iff]
      simp [pure, Except.pure]
  | none =>
      cases hBlank : Text.isBlank c with
      | true =>
          simp only [if_true, Attempt.bind_eq_aborted_iff]
          simp [pure, Except.pure]
      | false =>
          by_cases hLetter : isUnitLetter c = true <;>
            simp [hLetter, Attempt.reject]

/- A reader is aborted by a character that ends a unit. -/
theorem feed_eq_aborted_iff :
    feed s c = .error .aborted ↔
      EndsUnit c ∧ s.LosesCarry := by
  unfold feed State.LosesCarry
  cases s.place with
  | between mark =>
      simp only [Attempt.bind_eq_aborted_iff]
      simp [feedBetween_ne_aborted, pure, Except.pure]
  | whole number =>
      simp only [Attempt.bind_eq_aborted_iff]
      simp [feedWhole_ne_aborted, pure, Except.pure]
  | fraction number f mark =>
      simp only [Attempt.bind_eq_aborted_iff]
      simp [feedFraction_ne_aborted, pure, Except.pure]
  | unit number f letters =>
      simp only [Attempt.bind_eq_aborted_iff,
        feedUnit_eq_aborted_iff, addAmount_eq_aborted_iff]
      simp [pure, Except.pure]

/- A reader is aborted at the end by its last amount. -/
theorem finish_eq_aborted_iff :
    finish s = .error .aborted ↔ s.LosesCarry := by
  unfold finish State.LosesCarry
  cases s.place with
  | between mark =>
      by_cases hStarted : s.started = true <;>
        simp [hStarted, Attempt.reject]
  | whole number => simp [addAmount_empty_ne_aborted]
  | fraction number f mark =>
      by_cases hNone : f.denominator = 1 <;>
        simp [hNone, Attempt.reject,
          addAmount_empty_ne_aborted]
  | unit number f letters => exact addAmount_eq_aborted_iff

/- A reading is aborted where an amount loses a carry. -/
theorem foldlM_feed_finish_eq_aborted_iff
    {text : List Char} :
    text.foldlM feed start >>= finish = .error .aborted ↔
      LosesCarry text := by
  rw [Attempt.bind_eq_aborted_iff,
    Attempt.foldlM_eq_aborted_iff]
  simp only [feed_eq_aborted_iff, finish_eq_aborted_iff]
  constructor
  · intro hAborted
    rcases hAborted with
      ⟨early, c, late, s, rfl, hEarly, hEnds, hLoses⟩ |
      ⟨s, hRead, hLoses⟩
    · refine ⟨early, c :: late, s, rfl, hEarly, ?_, hLoses⟩
      intro other hOther
      cases hOther
      exact hEnds
    · refine ⟨text, [], s, by simp, hRead, ?_, hLoses⟩
      intro other hOther
      cases hOther
  · intro hLoses
    rcases hLoses with
      ⟨early, late, s, rfl, hEarly, hEnds, hLoses⟩
    cases late with
    | nil =>
        rw [List.append_nil]
        exact .inr ⟨s, hEarly, hLoses⟩
    | cons c late =>
        exact
          .inl
            ⟨early, c, late, s, rfl, hEarly, hEnds c rfl,
              hLoses⟩

/- So is a phrase; the zero that needs no unit has none. -/
theorem read_eq_aborted_iff
    {text : List Char} :
    read text = .error .aborted ↔ LosesCarry text := by
  rw [← foldlM_feed_finish_eq_aborted_iff]
  unfold read
  by_cases hZero : text = ['0']
  · have hRead :
        ['0'].foldlM feed start >>= finish =
          Attempt.reject (.unitNeeded 0) := by
      with_unfolding_all rfl
    rw [hZero, hRead]
    simp [Attempt.reject]
  · rw [if_neg hZero]

end Phrases

end Phrase

------------------------------------------------------------
-- Parameters
------------------------------------------------------------

namespace Params

/-
  The value of a parameter is read as a phrase, as it is no
  number, and the phrase loses a carry.
-/
def LosesCarry
    (params : Params)
    (key : String) : Prop :=
  ∃ raw,
    params.get? key = some raw ∧
      (∃ cause, Binary64.read raw.toList = .error cause) ∧
        Phrase.LosesCarry raw.toList

theorem readDuration_eq_aborted_iff
    {raw : List Char} :
    readDuration raw = .error .aborted ↔
      (∃ cause, Binary64.read raw = .error cause) ∧
        Phrase.LosesCarry raw := by
  unfold readDuration
  cases Binary64.read raw with
  | ok value => simp [Attempt.ofExcept_ne_aborted]
  | error cause =>
      rw [Attempt.wrap_eq_aborted_iff,
        Phrase.read_eq_aborted_iff]
      simp

/- A duration is aborted where its phrase loses a carry. -/
theorem duration_eq_aborted_iff
    {params : Params}
    {key : String} :
    params.duration key = .error .aborted ↔
      params.LosesCarry key := by
  unfold duration LosesCarry
  cases params.get? key with
  | none => simp
  | some raw =>
      simp only [Attempt.wrap_eq_aborted_iff,
        Attempt.map_eq_aborted_iff,
        readDuration_eq_aborted_iff, Option.some.injEq,
        exists_eq_left']

end Params

------------------------------------------------------------
-- First Flaws
------------------------------------------------------------

namespace Language

variable {κ : Type}
variable {l : Language κ}
variable {before before' after after' : List (List Char)}
variable {raw raw' text : List Char}
variable {number : Nat}
variable {halt halt' : Halt ParseError}

/- What is refused is not read, for the same reason. -/
theorem Refuses.command_eq
    (hRefuses : l.Refuses number text halt) :
    l.command number text = .error halt := by
  unfold command construct
  cases hRefuses with
  | malformed hRead =>
      rw [hRead]
      rfl
  | unknownKind hRead hConstruct
  | configuration hRead hConstruct
  | aborted hRead hConstruct =>
      simp only [hRead, Attempt.ofExcept, Attempt.wrap,
        Attempt.reject, bind, Except.bind, hConstruct]

/- There is no flaw among sound lines. -/
theorem IsSound.not_flaw_before
    (hSound : l.IsSound (before ++ raw :: after)) :
    ¬ l.Flaw before raw halt :=
  hSound before raw after rfl halt

/- Only one line is the first that has a flaw. -/
theorem Flaw.first_unique
    (hLines :
      before ++ raw :: after = before' ++ raw' :: after')
    (hSound : l.IsSound before)
    (hFlaw : l.Flaw before raw halt)
    (hSound' : l.IsSound before')
    (hFlaw' : l.Flaw before' raw' halt') :
    before = before' ∧ raw = raw' := by
  rcases List.append_eq_append_iff.mp hLines with
    ⟨between, rfl, hRest⟩ | ⟨between, rfl, hRest⟩
  · cases between with
    | nil =>
        cases hRest
        simp
    | cons first between =>
        cases hRest
        exact absurd hFlaw hSound'.not_flaw_before
  · cases between with
    | nil =>
        cases hRest
        simp
    | cons first between =>
        cases hRest
        exact absurd hFlaw' hSound.not_flaw_before

/- A command line that is first refused is reported. -/
theorem parse_of_refused
    {script : String}
    (hLines :
      Text.lines script.toList = before ++ raw :: after)
    (hSound : l.IsSound before)
    (hRole : l.dialect.role raw = .command text)
    (hRefuses : l.Refuses (before.length + 1) text halt) :
    l.parse script = .error halt := by
  have hFlaw : l.Flaw before raw halt :=
    .refused hRole hRefuses
  rcases l.parse_cases script with
    ⟨draft, hDrafted, _⟩ |
    ⟨before', raw', after', draft, halt', hLines', hDrafted,
      hStep, hParse⟩
  · have hAll := hDrafted.isSound
    rw [hLines] at hAll
    exact absurd hFlaw hAll.not_flaw_before
  · rw [hLines] at hLines'
    rcases hFlaw.first_unique hLines' hSound
        hDrafted.isSound (hDrafted.flaw hStep) with
      ⟨rfl, rfl⟩
    unfold step at hStep
    simp only [hRole, hRefuses.command_eq] at hStep
    cases hStep
    exact hParse

end Language

------------------------------------------------------------
-- Scripts
------------------------------------------------------------

namespace Builtin

/-
  A `delay` whose other parameters are right has a duration
  that loses a carry.
-/
structure LosesCarry
    (kind : String)
    (params : Params) : Prop where
  isDelay : kind = "delay"
  known :
    params.denyUnknown ["seconds", "duration"] = .ok ()
  hasSeconds : ∃ seconds, readSeconds params = .ok seconds
  losesCarry : params.LosesCarry "duration"

section Construction

variable {kind : String}
variable {params : Params}

/- A `delay` is aborted by its duration. -/
theorem configureDelay_eq_aborted_iff :
    configureDelay params = .error .aborted ↔
      LosesCarry "delay" params := by
  unfold configureDelay
  simp only [Attempt.bind_eq_aborted_iff,
    Attempt.ofExcept_ne_aborted, false_or,
    Attempt.ofExcept_eq_ok_iff,
    Params.duration_eq_aborted_iff]
  constructor
  · intro hAborted
    rcases hAborted with
      ⟨_, hKnown, seconds, hSeconds, hLoses |
        ⟨duration, _, hMade⟩⟩
    · exact ⟨rfl, hKnown, ⟨seconds, hSeconds⟩, hLoses⟩
    -- Once both are read, an error is all that can come.
    · cases seconds <;> cases duration <;> cases hMade
  · intro hLoses
    rcases hLoses.hasSeconds with ⟨seconds, hSeconds⟩
    exact
      ⟨(), hLoses.known, seconds, hSeconds,
        .inl hLoses.losesCarry⟩

/- No other command is aborted. -/
theorem configure_eq_aborted_iff
    {start : Builtin} :
    start.configure params = .error .aborted ↔
      LosesCarry start.kind params := by
  cases start with
  | delay duration => exact configureDelay_eq_aborted_iff
  | print message | clear | fail message =>
      simp only [configure, Constructor.plain,
        Attempt.ofExcept_ne_aborted, false_iff]
      intro hLoses
      have hKind := hLoses.isDelay
      simp [kind] at hKind

/- A command is aborted by the duration of a `delay`. -/
theorem construct_eq_aborted_iff :
    registry.construct kind params =
        some (.error .aborted) ↔
      LosesCarry kind params := by
  rw [construct_eq_some_iff]
  constructor
  · rintro ⟨start, rfl, hAborted⟩
    exact configure_eq_aborted_iff.mp hAborted
  · intro hLoses
    rcases hLoses.isDelay with rfl
    exact
      ⟨.delay Duration.zero, rfl,
        configureDelay_eq_aborted_iff.mpr hLoses⟩

end Construction

/-
  A text loses a carry when its first flawed line is a
  `delay` that does.
-/
def TextLosesCarry
    (dialect : Dialect)
    (text : String) : Prop :=
  ∃ before raw after line invocation,
    Text.lines text.toList = before ++ raw :: after ∧
      (⟨registry, dialect⟩ : Language Builtin).IsSound
          before ∧
        dialect.role raw = .command line ∧
          Invocation.read line = .ok invocation ∧
            LosesCarry invocation.kind invocation.params

section Scripts

variable {dialect : Dialect}
variable {before : List (List Char)}
variable {raw : List Char}

/- A flaw that aborts is a `delay` that loses a carry. -/
theorem losesCarry_of_flaw
    (hFlaw :
      (⟨registry, dialect⟩ : Language Builtin).Flaw before
        raw .aborted) :
    ∃ line invocation,
      dialect.role raw = .command line ∧
        Invocation.read line = .ok invocation ∧
          LosesCarry invocation.kind invocation.params := by
  cases hFlaw with
  | refused hRole hRefuses =>
      cases hRefuses with
      | aborted hRead hAborted =>
          exact
            ⟨_, _, hRole, hRead,
              construct_eq_aborted_iff.mp hAborted⟩

/- A text is aborted where it loses a carry. -/
theorem parse_eq_aborted_iff
    {text : String} :
    (⟨registry, dialect⟩ : Language Builtin).parse text =
        .error .aborted ↔
      TextLosesCarry dialect text := by
  constructor
  · intro hAborted
    rcases (⟨registry, dialect⟩ : Language Builtin)
        |>.parse_error_or_ok text with
      ⟨before, raw, after, halt, hLines, hSound, hFlaw,
        hParse⟩ |
      ⟨number, _, _, _, hParse⟩ |
      ⟨root, _, _, hParse⟩
    · rw [hAborted] at hParse
      cases hParse
      rcases losesCarry_of_flaw hFlaw with
        ⟨line, invocation, hRole, hRead, hLoses⟩
      exact
        ⟨before, raw, after, line, invocation, hLines,
          hSound, hRole, hRead, hLoses⟩
    · rw [hAborted] at hParse
      cases hParse
    · rw [hAborted] at hParse
      cases hParse
  · intro hLoses
    rcases hLoses with
      ⟨before, raw, after, line, invocation, hLines, hSound,
        hRole, hRead, hLoses⟩
    exact
      Language.parse_of_refused hLines hSound hRole
        (.aborted hRead
          (construct_eq_aborted_iff.mpr hLoses))

end Scripts

/-
  Scripts and durations are answered, with a value or with
  an error to report, but for those that lose a carry.
-/
theorem parse_answers_iff
    (dialect : Dialect)
    (text : String)
    (params : Params)
    (key : String) :
    let l : Language Builtin := ⟨registry, dialect⟩
    (((∃ root, l.parse text = .ok root) ∨
        ∃ cause, l.parse text = .error (.error cause)) ↔
      ¬ TextLosesCarry dialect text) ∧
    (((∃ value, params.duration key = .ok value) ∨
        ∃ cause,
          params.duration key = .error (.error cause)) ↔
      ¬ params.LosesCarry key) := by
  intro l
  rw [Attempt.ok_or_error_iff, Attempt.ok_or_error_iff,
    ne_eq, ne_eq, parse_eq_aborted_iff,
    Params.duration_eq_aborted_iff]
  exact ⟨Iff.rfl, Iff.rfl⟩

/- The last second and a thousand milliseconds of one. -/
theorem not_parse_answers :
    ¬ ∀ text,
      let l : Language Builtin :=
        ⟨registry, Dialect.standard⟩
      (∃ root, l.parse text = .ok root) ∨
        ∃ cause, l.parse text = .error (.error cause) := by
  intro hAnswers
  have hAborted :
      (⟨registry, Dialect.standard⟩ :
            Language Builtin).parse
          "delay duration=\"18446744073709551615s 1000ms\"" =
        .error .aborted := by
    with_unfolding_all rfl
  have hAnswer :=
    (Attempt.ok_or_error_iff _).mp
      (hAnswers
        "delay duration=\"18446744073709551615s 1000ms\"")
  exact hAnswer hAborted

end Builtin

end CommandScript
