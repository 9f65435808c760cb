import CommandScript.Proofs.DelayDecisions
import CommandScript.Proofs.Faults

/-
  Messages on one line. Text from a script stands in a
  message between quotes, where a line feed is written as an
  escape, or it stands there as it is, and then it has been
  read as a name or as a unit of time. Either way no line
  feed gets into the message.

  Key definitions include:
    * `Text.OneLine`
    * `Attempt.Yields`
    * `PhraseError.IsTidy`

  Main statements:
    * `Text.oneLine_quote`
    * `Invocation.oneLine_of_read_error`
    * `Invocation.oneLine_of_read`
    * `Phrase.read_tidy`
    * `Builtin.oneLine_of_configure`
-/

namespace CommandScript

------------------------------------------------------------
-- Texts on One Line
------------------------------------------------------------

namespace Text

/- A text without a line feed. -/
def OneLine (s : String) : Prop :=
  '\n' ∉ s.toList

@[simp] theorem oneLine_append
    {s t : String} :
    OneLine (s ++ t) ↔ OneLine s ∧ OneLine t := by
  simp [OneLine, not_or]

theorem oneLine_ofList
    {s : List Char} :
    OneLine (String.ofList s) ↔ '\n' ∉ s := by
  rw [OneLine, String.toList_ofList]

/- No digit is a line feed. -/
theorem digitChar_ne_feed
    (n : Nat) :
    Nat.digitChar n ≠ '\n' := by
  by_cases hLess : n < 16
  · have hAll : ∀ m : Fin 16, Nat.digitChar m ≠ '\n' := by
      decide
    exact hAll ⟨n, hLess⟩
  · have hStar : Nat.digitChar n = '*' :=
      Nat.digitChar_eq_star.mpr (Nat.le_of_not_lt hLess)
    rw [hStar]
    decide

/- A number is written without line feeds. -/
theorem free_toDigits
    {base : Nat}
    (hBase : 1 < base)
    (n : Nat) :
    '\n' ∉ Nat.toDigits base n := by
  induction n using Nat.strongRecOn with
  | ind n ih =>
      by_cases hLess : n < base
      · rw [Nat.toDigits_of_lt_base hLess,
          List.mem_singleton]
        exact (digitChar_ne_feed n).symm
      · have hLe := Nat.le_of_not_lt hLess
        have hDiv : n / base < n :=
          Nat.div_lt_self (by omega) hBase
        rw [Nat.toDigits_of_base_le hBase hLe,
          List.mem_append, List.mem_singleton, not_or]
        exact
          ⟨ih (n / base) hDiv,
            (digitChar_ne_feed (n % base)).symm⟩

@[simp] theorem oneLine_toString
    (n : Nat) :
    OneLine (toString n) := by
  rw [Nat.toString_eq_ofList_toDigits, oneLine_ofList]
  exact free_toDigits (by decide) n

/- The escape of a character has no line feed in it. -/
theorem free_escapeChar
    (c : Char) :
    '\n' ∉ escapeChar c := by
  have hPoint : '\n' ∉ codePointEscape c := by
    simp only [codePointEscape, List.mem_append, not_or]
    exact
      ⟨⟨by decide, free_toDigits (by decide) c.toNat⟩,
        by decide⟩
  by_cases hFeed : c = '\n'
  · rw [hFeed]
    decide
  · unfold escapeChar
    intro hMem
    repeat' split at hMem
    all_goals
      first
      | exact hPoint hMem
      | simp at hMem
    exact hFeed hMem.symm

/- Between quotes a text is on one line, whatever it is. -/
@[simp] theorem oneLine_quote
    (s : String) :
    OneLine (quote s) := by
  unfold quote
  rw [oneLine_ofList]
  simp [free_escapeChar]

/- A name is on one line. -/
theorem oneLine_of_isName
    {s : List Char}
    (hName : isName s = true) :
    OneLine (String.ofList s) := by
  rw [oneLine_ofList]
  intro hFeed
  exact
    absurd (isNameChar_of_mem hName '\n' hFeed) (by decide)

end Text

open Text (OneLine oneLine_of_isName)

------------------------------------------------------------
-- Lines
------------------------------------------------------------

/- The key that an error names without quotes. -/
def LineError.key? : LineError → Option String
| .duplicateKey key
| .unterminatedQuote key
| .trailingCharacters key => some key
| _ => none

/- The wording of an error is on one line if its key is. -/
theorem LineError.oneLine_message
    {cause : LineError}
    (hKey : ∀ key, cause.key? = some key → OneLine key) :
    OneLine cause.message := by
  unfold message
  cases cause with
  | emptyKey => simp [OneLine]
  | invalidKind word | missingEquals word
  | invalidKey word =>
      apply Text.oneLine_append.mpr
      exact ⟨by simp [OneLine], Text.oneLine_quote word⟩
  | duplicateKey key | unterminatedQuote key
  | trailingCharacters key =>
      apply Text.oneLine_append.mpr
      exact ⟨by simp [OneLine], hKey key rfl⟩

namespace Invocation

/- The key that a fault names is a name. -/
theorem Fault.oneLine
    {taken : String → Prop}
    {offence : List Char}
    {cause : LineError}
    (hFault : Fault taken offence cause) :
    OneLine cause.message := by
  apply LineError.oneLine_message
  intro key hKey
  cases hFault with
  | emptyKey | missingEquals | invalidKey => cases hKey
  | unterminatedQuote hName | trailingCharacters hName =>
      cases hKey
      exact oneLine_of_isName hName
  | @duplicateKey p hTaken =>
      cases hKey
      exact oneLine_of_isName p.isName

/- What is wrong with a line is said on one line. -/
theorem oneLine_of_read_error
    {line : List Char}
    {cause : LineError}
    (hRead : read line = .error cause) :
    OneLine cause.message := by
  cases hName : Text.isName (firstWord line) with
  | true =>
      rcases exists_fault_of_read hName hRead with
        ⟨ps, gap, offence, after, _, hFault, _⟩
      exact hFault.oneLine
  | false =>
      rw [(read_attributes_fault line).1 hName] at hRead
      cases hRead
      exact LineError.oneLine_message nofun

/- The kind and the keys of a line are on one line. -/
theorem oneLine_of_read
    {line : List Char}
    {invocation : Invocation}
    (hRead : read line = .ok invocation) :
    OneLine invocation.kind ∧
      ∀ key, invocation.params.Has key → OneLine key := by
  rcases Wording.exists_wording_of_read hRead with
    ⟨w, _, rfl⟩
  refine ⟨oneLine_of_isName w.isName, ?_⟩
  intro key hKey
  rcases List.mem_map.mp (contains_assigned_empty.mp hKey)
    with ⟨p, _, rfl⟩
  exact oneLine_of_isName p.isName

end Invocation

------------------------------------------------------------
-- Phrases
------------------------------------------------------------

namespace Attempt

variable {ε α β : Type}
variable {Says : ε → Prop}
variable {Holds : α → Prop}

/-
  What an attempt comes to is as it should be: the value
  that it gives, or the error that it reports. An abort
  reports nothing.
-/
def Yields
    (Says : ε → Prop)
    (Holds : α → Prop) : Attempt ε α → Prop
| .ok value => Holds value
| .error (.error cause) => Says cause
| .error .aborted => True

/- What is done in two steps is as each of them is. -/
theorem yields_bind
    {attempt : Attempt ε α}
    {next : α → Attempt ε β}
    {Holds' : β → Prop}
    (hFirst : Yields Says Holds attempt)
    (hNext :
      ∀ value, Holds value →
        Yields Says Holds' (next value)) :
    Yields Says Holds' (attempt >>= next) := by
  cases attempt with
  | error halt => cases halt <;> exact hFirst
  | ok value => exact hNext value hFirst

/- So is what is done for each element in turn. -/
theorem yields_foldlM
    {step : α → β → Attempt ε α}
    (hStep :
      ∀ value element, Holds value →
        Yields Says Holds (step value element))
    {start : α}
    (hStart : Holds start)
    (elements : List β) :
    Yields Says Holds (elements.foldlM step start) := by
  induction elements generalizing start with
  | nil => exact hStart
  | cons element rest ih =>
      rw [List.foldlM_cons]
      exact
        yields_bind (hStep start element hStart)
          fun value hValue => ih hValue

end Attempt

/- A unit that is reported as unknown is on one line. -/
def PhraseError.IsTidy : PhraseError → Prop
| .unknownUnit name => OneLine name
| _ => True

/- All other errors of a phrase are on one line anyway. -/
theorem PhraseError.IsTidy.oneLine
    {cause : PhraseError}
    (hTidy : cause.IsTidy) :
    OneLine cause.message := by
  unfold message
  cases cause with
  | empty | unrepresentable => simp [OneLine]
  | numberExpected position | invalidCharacter position =>
      apply Text.oneLine_append.mpr
      exact
        ⟨by simp [OneLine], Text.oneLine_toString position⟩
  | unitNeeded number =>
      simp only [Text.oneLine_append,
        Text.oneLine_toString, and_true]
      simp [OneLine]
  | unknownUnit name =>
      have hName : OneLine name := hTidy
      simp only [Text.oneLine_append, hName, and_true]
      simp [OneLine]

namespace Phrase

/- What is read or added up reports tidy errors only. -/
abbrev Tidy
    {α : Type}
    (Holds : α → Prop) : Attempt PhraseError α → Prop :=
  Attempt.Yields PhraseError.IsTidy Holds

/- The letters of the unit that is being read. -/
def Place.letters : Place → List Char
| .unit _ _ letters => letters
| _ => []

/- No line feed has been taken for a letter. -/
def State.IsTidy (s : State) : Prop :=
  '\n' ∉ s.place.letters

section Sums

variable (total : Duration)

theorem word_tidy
    (n : Nat) :
    Tidy (fun _ => True) (word n) := by
  unfold word
  split <;> trivial

theorem withDigit_tidy
    (n digit : Nat) :
    Tidy (fun _ => True) (withDigit n digit) :=
  word_tidy _

theorem fraction_withDigit_tidy
    (f : Fraction)
    (digit : Nat) :
    Tidy (fun _ => True) (f.withDigit digit) :=
  Attempt.yields_bind (word_tidy _) fun _ _ =>
    Attempt.yields_bind (withDigit_tidy _ _) fun _ _ =>
      trivial

theorem add_tidy
    (seconds nanoseconds : Nat) :
    Tidy (fun _ => True)
      (add total seconds nanoseconds) := by
  unfold add
  cases total.combine seconds nanoseconds <;> trivial

theorem addWhole_tidy
    (number : Nat)
    (unit : TimeUnit) :
    Tidy (fun _ => True) (addWhole total number unit) := by
  apply Attempt.yields_bind (word_tidy _)
  intro amount _
  split
  · exact add_tidy total 0 amount
  · exact add_tidy total amount 0

theorem addFraction_tidy
    (f : Fraction)
    (unit : TimeUnit) :
    Tidy (fun _ => True) (addFraction total f unit) := by
  unfold addFraction
  split
  · trivial
  · apply Attempt.yields_bind (word_tidy _)
    intro scaled _
    split
    · dsimp only
      split
      · exact add_tidy total 0 _
      · exact add_tidy total _ 0
    · trivial

/- Only a name that is looked up can be reported. -/
theorem addAmount_tidy
    {name : String}
    (hName : OneLine name)
    (number : Nat)
    (fraction : Option Fraction) :
    Tidy (fun _ => True)
      (addAmount total number fraction name) := by
  unfold addAmount
  cases TimeUnit.ofName? name with
  | none =>
      dsimp only
      split
      · trivial
      · exact hName
  | some unit =>
      apply Attempt.yields_bind (addWhole_tidy total _ _)
      intro total _
      cases fraction with
      | none => trivial
      | some f => exact addFraction_tidy total f unit

end Sums

section Reading

variable {s : State}

/- A letter of a unit is no line feed. -/
theorem free_of_isUnitLetter
    {c : Char}
    (hLetter : isUnitLetter c = true) :
    '\n' ∉ [c] := by
  intro hFeed
  rw [← List.mem_singleton.mp hFeed] at hLetter
  exact absurd hLetter (by decide)

theorem feedBetween_tidy
    (hTidy : s.IsTidy)
    (mark : Nat)
    (c : Char) :
    Tidy State.IsTidy (feedBetween s mark c) := by
  unfold feedBetween
  cases Number.digit? c with
  | some digit => exact List.not_mem_nil
  | none =>
      dsimp only
      split
      · exact hTidy
      · trivial

theorem feedWhole_tidy
    (hTidy : s.IsTidy)
    (number : Nat)
    (c : Char) :
    Tidy State.IsTidy (feedWhole s number c) := by
  unfold feedWhole
  cases Number.digit? c with
  | some digit =>
      apply Attempt.yields_bind (withDigit_tidy _ _)
      intro number _
      exact List.not_mem_nil
  | none =>
      dsimp only
      split
      · exact hTidy
      · split
        · rename_i hLetter
          exact free_of_isUnitLetter hLetter
        · split
          · exact List.not_mem_nil
          · trivial

theorem feedFraction_tidy
    (number : Nat)
    (f : Fraction)
    (mark : Nat)
    (c : Char) :
    Tidy State.IsTidy (feedFraction s number f mark c) := by
  unfold feedFraction
  cases Number.digit? c with
  | some digit =>
      apply Attempt.yields_bind
        (fraction_withDigit_tidy _ _)
      intro f _
      exact List.not_mem_nil
  | none =>
      dsimp only
      split
      · exact List.not_mem_nil
      · split
        · rename_i hBoth
          have hLetter := (Bool.and_eq_true_iff.mp hBoth).1
          exact free_of_isUnitLetter hLetter
        · trivial

theorem feedUnit_tidy
    {letters : List Char}
    (hLetters : '\n' ∉ letters)
    (number : Nat)
    (f : Option Fraction)
    (c : Char) :
    Tidy State.IsTidy (feedUnit s number f letters c) := by
  have hClose :=
    addAmount_tidy s.total
      (Text.oneLine_ofList.mpr hLetters) number f
  unfold feedUnit
  cases Number.digit? c with
  | some digit =>
      apply Attempt.yields_bind hClose
      intro total _
      exact List.not_mem_nil
  | none =>
      dsimp only
      split
      · apply Attempt.yields_bind hClose
        intro total _
        exact List.not_mem_nil
      · split
        · rename_i hLetter
          exact
            fun hMem =>
              (List.mem_append.mp hMem).elim hLetters
                (free_of_isUnitLetter hLetter)
        · trivial

/- Whatever is read next, no line feed becomes a letter. -/
theorem feed_tidy
    (hTidy : s.IsTidy)
    (c : Char) :
    Tidy State.IsTidy (feed s c) := by
  have hKept
      {result : Attempt PhraseError State}
      (hResult : Tidy State.IsTidy result) :
      Tidy State.IsTidy
        (result >>= fun next =>
          .ok
            { next with
              position := s.position + c.utf8Size }) :=
    Attempt.yields_bind hResult fun _ hNext => hNext
  unfold feed
  dsimp only
  cases hPlace : s.place with
  | between mark =>
      exact hKept (feedBetween_tidy hTidy mark c)
  | whole number =>
      exact hKept (feedWhole_tidy hTidy number c)
  | fraction number f mark =>
      exact hKept (feedFraction_tidy number f mark c)
  | unit number f letters =>
      unfold State.IsTidy at hTidy
      rw [hPlace] at hTidy
      exact hKept (feedUnit_tidy hTidy number f c)

theorem finish_tidy
    (hTidy : s.IsTidy) :
    Tidy (fun _ => True) (finish s) := by
  have hEmpty : OneLine "" := by simp [OneLine]
  unfold finish
  cases hPlace : s.place with
  | between mark =>
      dsimp only
      split <;> trivial
  | whole number => exact addAmount_tidy _ hEmpty _ _
  | fraction number f mark =>
      dsimp only
      split
      · trivial
      · exact addAmount_tidy _ hEmpty _ _
  | unit number f letters =>
      unfold State.IsTidy at hTidy
      rw [hPlace] at hTidy
      exact
        addAmount_tidy _ (Text.oneLine_ofList.mpr hTidy) _ _

/- A phrase is refused on one line, whatever is in it. -/
theorem read_tidy
    (text : List Char) :
    Tidy (fun _ => True) (read text) := by
  unfold read
  split
  · trivial
  · have hStart : start.IsTidy := List.not_mem_nil
    apply Attempt.yields_bind
      (Attempt.yields_foldlM
        (fun s c hTidy => feed_tidy hTidy c) hStart text)
    intro final hFinal
    exact finish_tidy hFinal

end Reading

end Phrase

------------------------------------------------------------
-- Parameters
------------------------------------------------------------

namespace ConfigError

/- The key that a configuration error names. -/
def key : ConfigError → String
| .missingParameter key => key
| .invalidValue key _ _ => key
| .unknownParameter key => key
| .notConfigurable key => key

/- The reason for which a value is refused. -/
def reason? : ConfigError → Option ValueError
| .invalidValue _ _ reason => some reason
| _ => none

/-
  The wording of a configuration error is on one line if its
  key and its reason are. A value is quoted.
-/
theorem oneLine_message
    {cause : ConfigError}
    (hKey : OneLine cause.key)
    (hReason :
      ∀ reason, cause.reason? = some reason →
        OneLine reason.message) :
    OneLine cause.message := by
  unfold message
  cases cause with
  | missingParameter key | unknownParameter key
  | notConfigurable key =>
      apply Text.oneLine_append.mpr
      exact ⟨by simp [OneLine], hKey⟩
  | invalidValue key value reason =>
      have hKey : OneLine key := hKey
      simp only [Text.oneLine_append, Text.oneLine_quote,
        hKey, hReason reason rfl, and_true]
      simp [OneLine]

end ConfigError

namespace Params

/- Why a text is no number is said on one line. -/
theorem RefusesSeconds.oneLine
    {raw : List Char}
    {reason : ValueError}
    (hRefuses : RefusesSeconds raw reason) :
    OneLine reason.message := by
  cases hRefuses with
  | @literal cause hRead =>
      change OneLine cause.message
      unfold LiteralError.message
      cases cause <;> simp [OneLine]
  | @seconds value cause hRead hLength =>
      change OneLine cause.message
      unfold SecondsError.message
      cases cause <;> simp [OneLine]

/- Why a text is no length is said on one line. -/
theorem RefusesLength.oneLine
    {raw : List Char}
    {reason : ValueError}
    (hRefuses : RefusesLength raw reason) :
    OneLine reason.message := by
  cases hRefuses with
  | seconds hRead hLength =>
      exact RefusesSeconds.oneLine (.seconds hRead hLength)
  | @phrase literal cause hRead hPhrase =>
      have hTidy := Phrase.read_tidy raw
      rw [hPhrase] at hTidy
      exact PhraseError.IsTidy.oneLine hTidy

end Params

------------------------------------------------------------
-- Builtin Commands
------------------------------------------------------------

namespace Builtin

variable {params : Params}
variable {cause : ConfigError}

/- A parameter that is refused as unknown is there. -/
theorem oneLine_of_denyUnknown
    {allowed : List String}
    (hKeys : ∀ key, params.Has key → OneLine key)
    (hDenied : params.denyUnknown allowed = .error cause) :
    OneLine cause.message := by
  rcases Params.denyUnknown_eq_error_iff.mp hDenied with
    ⟨key, rfl, hLeast⟩
  exact
    ConfigError.oneLine_message
      (hKeys key hLeast.ofSort.1) nofun

theorem oneLine_of_configurePrint
    (hKeys : ∀ key, params.Has key → OneLine key)
    (hRefused : configurePrint params = .error cause) :
    OneLine cause.message := by
  unfold configurePrint at hRefused
  cases hDeny : params.denyUnknown ["message"] with
  | error denied =>
      rw [hDeny] at hRefused
      cases hRefused
      exact oneLine_of_denyUnknown hKeys hDeny
  | ok _ =>
      rw [hDeny] at hRefused
      unfold Params.require at hRefused
      cases hMessage : params.get? "message" with
      | none =>
          rw [hMessage] at hRefused
          cases hRefused
          exact
            ConfigError.oneLine_message
              (by simp [ConfigError.key, OneLine]) nofun
      | some message =>
          rw [hMessage] at hRefused
          cases hRefused

theorem oneLine_of_configureFail
    (hKeys : ∀ key, params.Has key → OneLine key)
    (hRefused : configureFail params = .error cause) :
    OneLine cause.message := by
  unfold configureFail at hRefused
  cases hDeny : params.denyUnknown ["message"] with
  | error denied =>
      rw [hDeny] at hRefused
      cases hRefused
      exact oneLine_of_denyUnknown hKeys hDeny
  | ok _ =>
      rw [hDeny] at hRefused
      cases hRefused

/- What is decided against a `delay` is said on one line. -/
theorem Decides.oneLine
    (hKeys : ∀ key, params.Has key → OneLine key)
    (hDecides : Decides params (.error cause)) :
    OneLine cause.message := by
  cases hDecides with
  | unknown hLeast =>
      exact
        ConfigError.oneLine_message
          (hKeys _ hLeast.ofSort.1) nofun
  | seconds hKnown hRefuses =>
      apply ConfigError.oneLine_message
      · simp [ConfigError.key, OneLine]
      · rintro _ ⟨⟩
        exact hRefuses.wrong.oneLine
  | duration hKnown hSeconds hRefuses =>
      apply ConfigError.oneLine_message
      · simp [ConfigError.key, OneLine]
      · rintro _ ⟨⟩
        exact hRefuses.wrong.oneLine
  | both hKnown hSeconds hRaw hLength =>
      apply ConfigError.oneLine_message
      · simp [ConfigError.key, OneLine]
      · rintro _ ⟨⟩
        unfold ValueError.message
        simp [OneLine]
  | neither hKnown hSeconds hDuration =>
      exact
        ConfigError.oneLine_message
          (by simp [ConfigError.key, OneLine]) nofun

/- Why a command is not configured is said on one line. -/
theorem oneLine_of_configure
    {command : Builtin}
    (hKeys : ∀ key, params.Has key → OneLine key)
    (hRefused :
      command.configure params = Attempt.reject cause) :
    OneLine cause.message := by
  cases command with
  | print message =>
      exact
        oneLine_of_configurePrint hKeys
          (Attempt.ofExcept_eq_reject_iff.mp hRefused)
  | delay duration =>
      have hDelay :
          configureDelay params =
            Attempt.ofExcept (.error cause) :=
        hRefused
      exact (configureDelay_eq_iff.mp hDelay).oneLine hKeys
  | clear =>
      have hDenied :=
        Attempt.ofExcept_eq_reject_iff.mp hRefused
      cases hAll : params.denyAll with
      | error denied =>
          rw [hAll] at hDenied
          cases hDenied
          rcases Params.denyAll_eq_error_iff.mp hAll with
            ⟨key, rfl, hLeast⟩
          exact
            ConfigError.oneLine_message
              (hKeys key hLeast.ofSort) nofun
      | ok _ =>
          rw [hAll] at hDenied
          cases hDenied
  | fail message =>
      exact
        oneLine_of_configureFail hKeys
          (Attempt.ofExcept_eq_reject_iff.mp hRefused)

end Builtin

end CommandScript
