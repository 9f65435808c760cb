import CommandScript.Number.Binary64

/-
  Lengths of time in nanoseconds, with whole seconds that
  fit a word of 64 bits, and their reading from a number of
  seconds.

  Key definitions include:
    * `Duration`
    * `Duration.ofSeconds`
    * `Duration.combine`
    * `SecondsError`
-/

namespace CommandScript

------------------------------------------------------------
-- Durations
------------------------------------------------------------

namespace Duration

/- Two to the power of 64; words are below this bound. -/
def wordBound : Nat := 18446744073709551616

/- Nanoseconds in a second. -/
def perSecond : Nat := 1000000000

/- Nanoseconds in a millisecond. -/
def perMillisecond : Nat := 1000000

/- The first number of nanoseconds that is no duration. -/
def bound : Nat := wordBound * perSecond

end Duration

/- A length of time. -/
structure Duration where
  nanoseconds : Nat
  inRange : nanoseconds < Duration.bound
deriving DecidableEq, Repr

namespace Duration

/- A number of nanoseconds, if it is in range. -/
def ofNanoseconds? (n : Nat) : Option Duration :=
  if h : n < bound then some ⟨n, h⟩ else none

/- No time at all. -/
def zero : Duration where
  nanoseconds := 0
  inRange := by decide

instance : Inhabited Duration := ⟨zero⟩

/- The whole seconds of a duration. -/
def seconds (d : Duration) : Nat :=
  d.nanoseconds / perSecond

/- The nanoseconds beyond the whole seconds. -/
def subsecond (d : Duration) : Nat :=
  d.nanoseconds % perSecond

/- The whole milliseconds, as a word that wraps around. -/
def milliseconds (d : Duration) : Nat :=
  d.nanoseconds / perMillisecond % wordBound

end Duration

------------------------------------------------------------
-- Durations from Seconds
------------------------------------------------------------

/- Why a number of seconds is no duration. -/
inductive SecondsError where
| negative
| unrepresentable
deriving DecidableEq, Repr

namespace SecondsError

/- The wording of a seconds error. -/
def message : SecondsError → String
| .negative =>
    "cannot convert float seconds to Duration: " ++
      "value is negative"
| .unrepresentable =>
    "cannot convert float seconds to Duration: " ++
      "value is either too big or NaN"

end SecondsError

namespace Duration

/-
  The nanoseconds nearest to `significand * 2 ^ exponent`
  seconds, a half going to the even one.
-/
def nanosecondsOf
    (significand : Nat)
    (exponent : Int) : Nat :=
  if exponent < 0 then
    Number.divideHalfEven (significand * perSecond)
      (Nat.pow 2 (-exponent).toNat)
  else
    significand * Nat.pow 2 exponent.toNat * perSecond

/-
  The duration nearest to a number of seconds. A negative
  zero is zero.
-/
def ofSeconds : Binary64 → Except SecondsError Duration
| .nan => .error .unrepresentable
| .infinite true => .error .negative
| .infinite false => .error .unrepresentable
| .finite negative significand exponent =>
    if negative && significand != 0 then .error .negative
    else
      match ofNanoseconds?
          (nanosecondsOf significand exponent) with
      | some duration => .ok duration
      | none => .error .unrepresentable

end Duration

------------------------------------------------------------
-- Sums of Durations
------------------------------------------------------------

/- What comes of adding to a duration. -/
inductive Sum where
| total (duration : Duration)
| tooLarge
| lostCarry
deriving DecidableEq, Repr

namespace Duration

/-
  Add whole seconds and nanoseconds to a duration. The
  nanoseconds beyond the second are summed as a word. The
  sum is too large when it is out of range, but for one
  case: nanoseconds that make up exactly one second are
  carried without a check, and that carry is lost when all
  seconds are taken.
-/
def combine
    (d : Duration)
    (seconds nanoseconds : Nat) : Sum :=
  let fraction := d.subsecond + nanoseconds
  if wordBound ≤ fraction then .tooLarge
  else
    match ofNanoseconds?
        (d.nanoseconds + seconds * perSecond +
          nanoseconds) with
    | some total => .total total
    | none =>
        if fraction = perSecond ∧
            d.seconds + seconds < wordBound then
          .lostCarry
        else .tooLarge

end Duration

end CommandScript
