import CommandScript.Proofs.LeastKeys
import CommandScript.Proofs.LostCarries

/-
  What a `delay` is configured to. Its parameters are looked
  at in a fixed order, and the first thing that is wrong
  with them is reported: a parameter that is not known, then
  a bad number of seconds, then a bad duration, then both or
  neither of them. A number means the same under either key.

  Key definitions include:
    * `Params.IsSeconds`
    * `Params.IsLength`
    * `Params.Gives`
    * `Builtin.Decides`

  Main statements:
    * `Builtin.Decides.configureDelay_eq`
    * `Builtin.exists_decides_iff`
    * `Builtin.configureDelay_decisions`
-/

namespace CommandScript

/- What only reports errors is the same attempt only once. -/
theorem Attempt.ofExcept_inj
    {ε α : Type}
    {result result' : Except ε α}
    (hSame : ofExcept result = ofExcept result') :
    result = result' := by
  cases result with
  | ok value => exact (ofExcept_eq_ok_iff.mp hSame.symm).symm
  | error cause =>
      exact (ofExcept_eq_reject_iff.mp hSame.symm).symm

namespace Params

------------------------------------------------------------
-- Lengths in Texts
------------------------------------------------------------

/- A text is a number of seconds that make up a length. -/
def IsSeconds
    (raw : List Char)
    (length : Duration) : Prop :=
  ∃ value,
    Binary64.read raw = .ok value ∧
      Duration.ofSeconds value = .ok length

/- Why a text is no number of seconds. -/
inductive RefusesSeconds
    (raw : List Char) : ValueError → Prop where
| literal
    {cause : LiteralError}
    (hRead : Binary64.read raw = .error cause) :
    RefusesSeconds raw (.literal cause)
| seconds
    {value : Binary64}
    {cause : SecondsError}
    (hRead : Binary64.read raw = .ok value)
    (hLength : Duration.ofSeconds value = .error cause) :
    RefusesSeconds raw (.seconds cause)

/- A text is a length: a number, or else a phrase. -/
inductive IsLength
    (raw : List Char)
    (length : Duration) : Prop where
| seconds
    (hSeconds : IsSeconds raw length)
| phrase
    {cause : LiteralError}
    (hRead : Binary64.read raw = .error cause)
    (hPhrase : Phrase.read raw = .ok length)

/-
  Why a text is no length. A number is not tried as a phrase
  when it is refused.
-/
inductive RefusesLength
    (raw : List Char) : ValueError → Prop where
| seconds
    {value : Binary64}
    {cause : SecondsError}
    (hRead : Binary64.read raw = .ok value)
    (hLength : Duration.ofSeconds value = .error cause) :
    RefusesLength raw (.seconds cause)
| phrase
    {literal : LiteralError}
    {cause : PhraseError}
    (hRead : Binary64.read raw = .error literal)
    (hPhrase : Phrase.read raw = .error (.error cause)) :
    RefusesLength raw (.phrase cause)

/- There is nothing under a key, or a text for a length. -/
inductive Gives
    (params : Params)
    (key : String)
    (Means : List Char → Duration → Prop) :
    Option Duration → Prop where
| nothing
    (hNone : params.get? key = none) :
    Gives params key Means none
| length
    {raw : String}
    {length : Duration}
    (hRaw : params.get? key = some raw)
    (hLength : Means raw.toList length) :
    Gives params key Means (some length)

/- There is a text under a key that is refused. -/
structure Refuses
    (params : Params)
    (key : String)
    (IsWrong : List Char → ValueError → Prop)
    (raw : String)
    (reason : ValueError) : Prop where
  given : params.get? key = some raw
  wrong : IsWrong raw.toList reason

section Readings

variable {params : Params}
variable {key raw : String}
variable {given : Option Duration}
variable {reason : ValueError}

/- A text is a number of seconds, or there is a reason. -/
theorem isSeconds_or_refuses
    (raw : List Char) :
    (∃ length, IsSeconds raw length) ∨
      ∃ reason, RefusesSeconds raw reason := by
  cases hRead : Binary64.read raw with
  | error cause => exact .inr ⟨_, .literal hRead⟩
  | ok value =>
      cases hLength : Duration.ofSeconds value with
      | error cause =>
          exact .inr ⟨_, .seconds hRead hLength⟩
      | ok length =>
          exact .inl ⟨length, value, hRead, hLength⟩

/- A text is a length, is refused, or loses a carry. -/
theorem isLength_or_refuses
    (raw : List Char) :
    (∃ length, IsLength raw length) ∨
      (∃ reason, RefusesLength raw reason) ∨
        ((∃ cause, Binary64.read raw = .error cause) ∧
          Phrase.LosesCarry raw) := by
  cases hRead : Binary64.read raw with
  | ok value =>
      cases hLength : Duration.ofSeconds value with
      | error cause =>
          exact .inr (.inl ⟨_, .seconds hRead hLength⟩)
      | ok length =>
          exact .inl ⟨length, .seconds ⟨_, hRead, hLength⟩⟩
  | error literal =>
      cases hPhrase : Phrase.read raw with
      | ok length =>
          exact .inl ⟨length, .phrase hRead hPhrase⟩
      | error halt =>
          cases halt with
          | error cause =>
              exact .inr (.inl ⟨_, .phrase hRead hPhrase⟩)
          | aborted =>
              have hLoses :=
                Phrase.read_eq_aborted_iff.mp hPhrase
              exact .inr (.inr ⟨⟨literal, rfl⟩, hLoses⟩)

/- What is under a key is read by what its text is. -/
theorem duration_of_gives
    (hGives : params.Gives key IsLength given) :
    params.duration key = .ok given := by
  unfold duration
  cases hGives with
  | nothing hNone => rw [hNone]
  | length hRaw hLength =>
      rw [hRaw]
      unfold readDuration
      cases hLength with
      | seconds hSeconds =>
          rcases hSeconds with ⟨value, hRead, hLength⟩
          simp only [hRead, hLength]
          rfl
      | phrase hRead hPhrase =>
          simp only [hRead, hPhrase]
          rfl

/- A text that is no length is reported under its key. -/
theorem duration_of_refuses
    (hRefuses :
      params.Refuses key RefusesLength raw reason) :
    params.duration key =
      Attempt.reject (.invalidValue key raw reason) := by
  rcases hRefuses with ⟨hRaw, hWrong⟩
  unfold duration
  rw [hRaw]
  unfold readDuration
  cases hWrong with
  | seconds hRead hLength =>
      simp only [hRead, hLength]
      rfl
  | phrase hRead hPhrase =>
      simp only [hRead, hPhrase]
      rfl

/- What is under `seconds` is read by what its text is. -/
theorem readSeconds_of_gives
    (hGives : params.Gives "seconds" IsSeconds given) :
    Builtin.readSeconds params = .ok given := by
  unfold Builtin.readSeconds parse Reading.number
  cases hGives with
  | nothing hNone =>
      rw [hNone]
      rfl
  | length hRaw hLength =>
      rcases hLength with ⟨value, hRead, hLength⟩
      have hMap :
          (Except.ok value).mapError ValueError.literal =
            .ok value :=
        rfl
      simp only [hRaw, hRead, hMap, hLength, bind,
        Except.bind]
      rfl

/- A text that is no number of seconds is reported. -/
theorem readSeconds_of_refuses
    (hRefuses :
      params.Refuses "seconds" RefusesSeconds raw reason) :
    Builtin.readSeconds params =
      .error (.invalidValue "seconds" raw reason) := by
  rcases hRefuses with ⟨hRaw, hWrong⟩
  unfold Builtin.readSeconds parse Reading.number
  cases hWrong with
  | @literal cause hRead =>
      have hMap :
          (Except.error cause : Except _ Binary64).mapError
              ValueError.literal =
            .error (.literal cause) :=
        rfl
      simp only [hRaw, hRead, hMap, bind, Except.bind]
  | @seconds value cause hRead hLength =>
      have hMap :
          (Except.ok value).mapError ValueError.literal =
            .ok value :=
        rfl
      simp only [hRaw, hRead, hMap, hLength, bind,
        Except.bind]
      rfl

/- A length is given under a key, or another text is. -/
theorem gives_or_other
    {Means : List Char → Duration → Prop}
    {IsOther : List Char → Prop}
    (hText :
      ∀ raw, (∃ length, Means raw length) ∨ IsOther raw)
    (params : Params)
    (key : String) :
    (∃ given, params.Gives key Means given) ∨
      ∃ raw,
        params.get? key = some raw ∧ IsOther raw.toList :=
    by
  cases hRaw : params.get? key with
  | none => exact .inl ⟨none, .nothing hRaw⟩
  | some raw =>
      rcases hText raw.toList with
        ⟨length, hLength⟩ | hOther
      · exact .inl ⟨some length, .length hRaw hLength⟩
      · exact .inr ⟨raw, rfl, hOther⟩

end Readings

end Params

------------------------------------------------------------
-- Decisions
------------------------------------------------------------

namespace Builtin

/- The parameters that a `delay` takes. -/
def delayKeys : List String :=
  ["seconds", "duration"]

/-
  What is decided about the parameters of a `delay`, in the
  order in which they are looked at. Nothing is decided when
  a phrase loses a carry.
-/
inductive Decides
    (params : Params) : Except ConfigError Builtin → Prop
    where
| unknown
    {key : String}
    (hLeast :
      Text.IsLeast (params.HasUnknown delayKeys) key) :
    Decides params (.error (.unknownParameter key))
| seconds
    {raw : String}
    {reason : ValueError}
    (hKnown : ∀ key, params.Has key → key ∈ delayKeys)
    (hRefuses :
      params.Refuses "seconds" Params.RefusesSeconds raw
        reason) :
    Decides params
      (.error (.invalidValue "seconds" raw reason))
| duration
    {given : Option Duration}
    {raw : String}
    {reason : ValueError}
    (hKnown : ∀ key, params.Has key → key ∈ delayKeys)
    (hSeconds :
      params.Gives "seconds" Params.IsSeconds given)
    (hRefuses :
      params.Refuses "duration" Params.RefusesLength raw
        reason) :
    Decides params
      (.error (.invalidValue "duration" raw reason))
| both
    {first second : Duration}
    {raw : String}
    (hKnown : ∀ key, params.Has key → key ∈ delayKeys)
    (hSeconds :
      params.Gives "seconds" Params.IsSeconds (some first))
    (hRaw : params.get? "duration" = some raw)
    (hLength : Params.IsLength raw.toList second) :
    Decides params
      (.error
        (.invalidValue "duration" raw .combinedWithSeconds))
| neither
    (hKnown : ∀ key, params.Has key → key ∈ delayKeys)
    (hSeconds : params.get? "seconds" = none)
    (hDuration : params.get? "duration" = none) :
    Decides params (.error (.missingParameter "seconds"))
| fromSeconds
    {length : Duration}
    (hKnown : ∀ key, params.Has key → key ∈ delayKeys)
    (hSeconds :
      params.Gives "seconds" Params.IsSeconds (some length))
    (hDuration : params.get? "duration" = none) :
    Decides params (.ok (.delay length))
| fromDuration
    {length : Duration}
    (hKnown : ∀ key, params.Has key → key ∈ delayKeys)
    (hSeconds : params.get? "seconds" = none)
    (hDuration :
      params.Gives "duration" Params.IsLength
        (some length)) :
    Decides params (.ok (.delay length))

section Decisions

variable {params : Params}
variable {decision : Except ConfigError Builtin}

/- What is decided is what comes of it. -/
theorem Decides.configureDelay_eq
    (hDecides : Decides params decision) :
    configureDelay params = Attempt.ofExcept decision := by
  have hTaken
      (hKnown : ∀ key, params.Has key → key ∈ delayKeys) :
      params.denyUnknown ["seconds", "duration"] = .ok () :=
    Params.denyUnknown_eq_ok_iff.mpr hKnown
  unfold configureDelay
  cases hDecides with
  | unknown hLeast =>
      have hDenied :
          params.denyUnknown ["seconds", "duration"] = _ :=
        Params.denyUnknown_eq_error_iff.mpr
          ⟨_, rfl, hLeast⟩
      rw [hDenied]
      rfl
  | seconds hKnown hRefuses =>
      rw [hTaken hKnown,
        Params.readSeconds_of_refuses hRefuses]
      rfl
  | duration hKnown hSeconds hRefuses =>
      rw [hTaken hKnown,
        Params.readSeconds_of_gives hSeconds,
        Params.duration_of_refuses hRefuses]
      rfl
  | both hKnown hSeconds hRaw hLength =>
      rw [hTaken hKnown,
        Params.readSeconds_of_gives hSeconds,
        Params.duration_of_gives (.length hRaw hLength),
        hRaw]
      rfl
  | neither hKnown hSeconds hDuration =>
      rw [hTaken hKnown,
        Params.readSeconds_of_gives (.nothing hSeconds),
        Params.duration_of_gives (.nothing hDuration)]
      rfl
  | fromSeconds hKnown hSeconds hDuration =>
      rw [hTaken hKnown,
        Params.readSeconds_of_gives hSeconds,
        Params.duration_of_gives (.nothing hDuration)]
      rfl
  | fromDuration hKnown hSeconds hDuration =>
      rw [hTaken hKnown,
        Params.readSeconds_of_gives (.nothing hSeconds),
        Params.duration_of_gives hDuration]
      rfl

/- What is given under both keys is decided. -/
theorem exists_decides_of_gives
    {first second : Option Duration}
    (hKnown : ∀ key, params.Has key → key ∈ delayKeys)
    (hFirst :
      params.Gives "seconds" Params.IsSeconds first)
    (hSecond :
      params.Gives "duration" Params.IsLength second) :
    ∃ decision, Decides params decision := by
  cases hFirst with
  | nothing hSeconds =>
      cases hSecond with
      | nothing hDuration =>
          exact ⟨_, .neither hKnown hSeconds hDuration⟩
      | length hRaw hLength =>
          exact
            ⟨_,
              .fromDuration hKnown hSeconds
                (.length hRaw hLength)⟩
  | length hSeconds hFirst =>
      cases hSecond with
      | nothing hDuration =>
          exact
            ⟨_,
              .fromSeconds hKnown (.length hSeconds hFirst)
                hDuration⟩
      | length hRaw hLength =>
          exact
            ⟨_,
              .both hKnown (.length hSeconds hFirst) hRaw
                hLength⟩

/- Something is decided unless a carry is lost. -/
theorem exists_decides_or_losesCarry
    (params : Params) :
    (∃ decision, Decides params decision) ∨
      LosesCarry "delay" params := by
  cases hDeny : params.denyUnknown delayKeys with
  | error cause =>
      rcases Params.denyUnknown_eq_error_iff.mp hDeny with
        ⟨key, _, hLeast⟩
      exact .inl ⟨_, .unknown hLeast⟩
  | ok _ =>
      have hKnown := Params.denyUnknown_eq_ok_iff.mp hDeny
      rcases Params.gives_or_other
          Params.isSeconds_or_refuses params "seconds" with
        ⟨first, hSeconds⟩ | ⟨raw, hRaw, reason, hWrong⟩
      · rcases Params.gives_or_other
            Params.isLength_or_refuses params "duration"
          with
          ⟨second, hLength⟩ |
          ⟨raw, hRaw, ⟨reason, hWrong⟩ | hLoses⟩
        · exact
            .inl
              (exists_decides_of_gives hKnown hSeconds
                hLength)
        · exact
            .inl
              ⟨_, .duration hKnown hSeconds ⟨hRaw, hWrong⟩⟩
        · have hRead := Params.readSeconds_of_gives hSeconds
          exact
            .inr
              ⟨rfl, hDeny, ⟨first, hRead⟩,
                ⟨raw, hRaw, hLoses⟩⟩
      · exact .inl ⟨_, .seconds hKnown ⟨hRaw, hWrong⟩⟩

/- Nothing else comes of it than what is decided. -/
theorem configureDelay_eq_iff :
    configureDelay params = Attempt.ofExcept decision ↔
      Decides params decision := by
  constructor
  · intro hMade
    rcases exists_decides_or_losesCarry params with
      ⟨decided, hDecided⟩ | hLoses
    · have hSame :=
        hDecided.configureDelay_eq.symm.trans hMade
      rw [← Attempt.ofExcept_inj hSame]
      exact hDecided
    · have hAborted :=
        configureDelay_eq_aborted_iff.mpr hLoses
      rw [hMade] at hAborted
      exact
        absurd hAborted (Attempt.ofExcept_ne_aborted _)
  · exact Decides.configureDelay_eq

/- What is decided is decided without losing a carry. -/
theorem exists_decides_iff :
    (∃ decision, Decides params decision) ↔
      ¬ LosesCarry "delay" params := by
  constructor
  · rintro ⟨decision, hDecides⟩ hLoses
    have hAborted :=
      configureDelay_eq_aborted_iff.mpr hLoses
    rw [hDecides.configureDelay_eq] at hAborted
    exact Attempt.ofExcept_ne_aborted _ hAborted
  · exact
      (exists_decides_or_losesCarry params).resolve_right

end Decisions

end Builtin

------------------------------------------------------------
-- One Number Under Either Key
------------------------------------------------------------

namespace Params

/- Parameters of which there is only one. -/
def alone
    (key value : String) : Params :=
  Dictionary.empty.insert key value

/- The one parameter is there. -/
theorem get?_alone_self
    (key value : String) :
    (alone key value).get? key = some value :=
  Dictionary.get?_insert_self _ key value

/- No other one is. -/
theorem get?_alone_of_ne
    {key other : String}
    (hOther : other ≠ key)
    (value : String) :
    (alone key value).get? other = none := by
  unfold alone
  rw [Dictionary.get?_insert_of_ne _ hOther]
  rfl

/- All keys are allowed if that of the one parameter is. -/
theorem mem_of_has_alone
    {key value other : String}
    {allowed : List String}
    (hAllowed : key ∈ allowed)
    (hHas : (alone key value).Has other) :
    other ∈ allowed := by
  by_cases hOther : other = key
  · rw [hOther]
    exact hAllowed
  · unfold Has Dictionary.contains at hHas
    rw [get?_alone_of_ne hOther] at hHas
    cases hHas

end Params

namespace Builtin

section Alone

variable {text : String}

/- A length that is given in seconds alone is taken. -/
theorem configureDelay_seconds
    {length : Duration}
    (hSeconds : Params.IsSeconds text.toList length) :
    configureDelay (.alone "seconds" text) =
      .ok (.delay length) :=
  Decides.configureDelay_eq
    (.fromSeconds
      (fun _ => Params.mem_of_has_alone (by decide))
      (.length (Params.get?_alone_self _ _) hSeconds)
      (Params.get?_alone_of_ne (by decide) _))

/- Seconds alone are refused for what is wrong with them. -/
theorem configureDelay_seconds_of_refuses
    {reason : ValueError}
    (hWrong : Params.RefusesSeconds text.toList reason) :
    configureDelay (.alone "seconds" text) =
      Attempt.reject
        (.invalidValue "seconds" text reason) :=
  Decides.configureDelay_eq
    (.seconds
      (fun _ => Params.mem_of_has_alone (by decide))
      ⟨Params.get?_alone_self _ _, hWrong⟩)

/- A length that is given as a duration alone is taken. -/
theorem configureDelay_duration
    {length : Duration}
    (hLength : Params.IsLength text.toList length) :
    configureDelay (.alone "duration" text) =
      .ok (.delay length) :=
  Decides.configureDelay_eq
    (.fromDuration
      (fun _ => Params.mem_of_has_alone (by decide))
      (Params.get?_alone_of_ne (by decide) _)
      (.length (Params.get?_alone_self _ _) hLength))

/- A duration alone is refused for what is wrong with it. -/
theorem configureDelay_duration_of_refuses
    {reason : ValueError}
    (hWrong : Params.RefusesLength text.toList reason) :
    configureDelay (.alone "duration" text) =
      Attempt.reject
        (.invalidValue "duration" text reason) :=
  Decides.configureDelay_eq
    (.duration
      (fun _ => Params.mem_of_has_alone (by decide))
      (.nothing (Params.get?_alone_of_ne (by decide) _))
      ⟨Params.get?_alone_self _ _, hWrong⟩)

end Alone

/-
  A `delay` is configured as is decided, and something is
  decided unless a phrase loses a carry. A number alone
  means the same under either key, and is refused for the
  same reason; a text that is no number is never taken for
  seconds.
-/
theorem configureDelay_decisions
    (params : Params)
    (decision : Except ConfigError Builtin)
    (text : String) :
    let inSeconds := configureDelay (.alone "seconds" text)
    let inDuration :=
      configureDelay (.alone "duration" text)
    (configureDelay params = Attempt.ofExcept decision ↔
      Decides params decision) ∧
    ((∃ decision, Decides params decision) ↔
      ¬ LosesCarry "delay" params) ∧
    match Binary64.read text.toList with
    | .ok value =>
        match Duration.ofSeconds value with
        | .ok length =>
            inSeconds = .ok (.delay length) ∧
              inDuration = .ok (.delay length)
        | .error cause =>
            inSeconds =
                Attempt.reject
                  (.invalidValue "seconds" text
                    (.seconds cause)) ∧
              inDuration =
                Attempt.reject
                  (.invalidValue "duration" text
                    (.seconds cause))
    | .error cause =>
        inSeconds =
          Attempt.reject
            (.invalidValue "seconds" text
              (.literal cause)) := by
  intro inSeconds inDuration
  refine ⟨configureDelay_eq_iff, exists_decides_iff, ?_⟩
  cases hRead : Binary64.read text.toList with
  | error cause =>
      exact
        configureDelay_seconds_of_refuses (.literal hRead)
  | ok value =>
      cases hLength : Duration.ofSeconds value with
      | error cause =>
          simp only [hLength]
          exact
            ⟨configureDelay_seconds_of_refuses
                (.seconds hRead hLength),
              configureDelay_duration_of_refuses
                (.seconds hRead hLength)⟩
      | ok length =>
          have hSeconds :
              Params.IsSeconds text.toList length :=
            ⟨value, hRead, hLength⟩
          simp only [hLength]
          exact
            ⟨configureDelay_seconds hSeconds,
              configureDelay_duration (.seconds hSeconds)⟩

/- The last second and a thousand milliseconds of one. -/
theorem not_configureDelay_answers :
    ¬ ∀ params,
      (∃ command, configureDelay params = .ok command) ∨
        ∃ cause,
          configureDelay params = .error (.error cause) :=
    by
  intro hAnswers
  have hAborted :
      configureDelay
          (.alone "duration"
            "18446744073709551615s 1000ms") =
        .error .aborted := by
    with_unfolding_all rfl
  exact (Attempt.ok_or_error_iff _).mp (hAnswers _) hAborted

end Builtin

end CommandScript
