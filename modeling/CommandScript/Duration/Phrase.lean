import CommandScript.Attempt
import CommandScript.Duration
import CommandScript.Number.Integer
import CommandScript.Text.Blank

/-
  Durations written for people, as in `1h 30m` or `2.5 days`:
  numbers with a unit each, which are added up. A phrase is
  read one character at a time. Positions are counted in
  UTF-8 bytes.

  Key definitions include:
    * `TimeUnit`
    * `PhraseError`
    * `Phrase.State`
    * `Phrase.feed`
    * `Phrase.read`
-/

namespace CommandScript

------------------------------------------------------------
-- Units
------------------------------------------------------------

/- The units of time. A month and a year are mean lengths. -/
inductive TimeUnit where
| nanosecond
| microsecond
| millisecond
| second
| minute
| hour
| day
| week
| month
| year
deriving DecidableEq, Repr

namespace TimeUnit

/- The spellings of each unit. -/
def spellings : List (TimeUnit × List String) :=
  [ (.nanosecond, ["nanos", "nsec", "ns"]),
    (.microsecond, ["usec", "us", "µs"]),
    (.millisecond, ["millis", "msec", "ms"]),
    (.second, ["seconds", "second", "secs", "sec", "s"]),
    (.minute, ["minutes", "minute", "min", "mins", "m"]),
    (.hour, ["hours", "hour", "hr", "hrs", "h"]),
    (.day, ["days", "day", "d"]),
    (.week, ["weeks", "week", "wk", "wks", "w"]),
    (.month, ["months", "month", "M"]),
    (.year, ["years", "year", "yr", "yrs", "y"]) ]

/- The unit that a word spells. -/
def ofName? (name : String) : Option TimeUnit :=
  (spellings.find? fun entry => entry.2.contains name).map
    fun entry => entry.1

/- Whether a unit is shorter than a second. -/
def isSubsecond : TimeUnit → Bool
| .nanosecond | .microsecond | .millisecond => true
| _ => false

/- A unit in nanoseconds below the second, else in seconds. -/
def scale : TimeUnit → Nat
| .nanosecond => 1
| .microsecond => 1000
| .millisecond => 1000000
| .second => 1
| .minute => 60
| .hour => 3600
| .day => 86400
| .week => 604800
| .month => 2630016
| .year => 31557600

/- The units whose fractions are counted in nanoseconds. -/
def hasNanosecondFraction : TimeUnit → Bool
| .microsecond | .millisecond | .second | .minute => true
| _ => false

/- A unit in what its fractions are counted in. -/
def fractionScale : TimeUnit → Nat
| .second => Duration.perSecond
| .minute => 60 * Duration.perSecond
| unit => unit.scale

end TimeUnit

------------------------------------------------------------
-- Errors
------------------------------------------------------------

/- Why a text is no duration phrase. -/
inductive PhraseError where
| empty
| numberExpected (position : Nat)
| invalidCharacter (position : Nat)
| unitNeeded (number : Nat)
| unknownUnit (name : String)
| unrepresentable
deriving DecidableEq, Repr

namespace PhraseError

/- The wording of a phrase error. -/
def message : PhraseError → String
| .empty => "value was empty"
| .numberExpected position =>
    "expected number at " ++ toString position
| .invalidCharacter position =>
    "invalid character at " ++ toString position
| .unitNeeded number =>
    "time unit needed, for example " ++ toString number ++
      "sec or " ++ toString number ++ "ms"
| .unknownUnit name =>
    "unknown time unit \"" ++ name ++
      "\", supported units: ns, us/µs, ms, sec, min, " ++
      "hours, days, weeks, months, years " ++
      "(and few variations)"
| .unrepresentable =>
    "number is too large or cannot be represented " ++
      "without a lack of precision " ++
      "(values below 1ns are not supported)"

end PhraseError

namespace Phrase

------------------------------------------------------------
-- Amounts
------------------------------------------------------------

/- A fraction by its digits: `numerator / denominator`. -/
structure Fraction where
  numerator : Nat
  denominator : Nat
deriving DecidableEq, Repr

/- The fraction without digits. -/
def Fraction.zero : Fraction where
  numerator := 0
  denominator := 1

/- A natural that fits a word. -/
def word (n : Nat) : Attempt PhraseError Nat :=
  if n < Duration.wordBound then .ok n
  else Attempt.reject .unrepresentable

/- A natural with one more digit. -/
def withDigit
    (n digit : Nat) : Attempt PhraseError Nat :=
  word (n * 10 + digit)

/- A fraction with one more digit. -/
def Fraction.withDigit
    (f : Fraction)
    (digit : Nat) : Attempt PhraseError Fraction := do
  let denominator ← word (f.denominator * 10)
  let numerator ← Phrase.withDigit f.numerator digit
  return ⟨numerator, denominator⟩

/- Add seconds and nanoseconds to a total. -/
def add
    (total : Duration)
    (seconds nanoseconds : Nat) :
    Attempt PhraseError Duration :=
  match total.combine seconds nanoseconds with
  | .total sum => .ok sum
  | .tooLarge => Attempt.reject .unrepresentable
  | .lostCarry => .error .aborted

/- Add a whole number of units to a total. -/
def addWhole
    (total : Duration)
    (number : Nat)
    (unit : TimeUnit) : Attempt PhraseError Duration := do
  let amount ← word (number * unit.scale)
  if unit.isSubsecond then add total 0 amount
  else add total amount 0

/-
  Add a fraction of a unit to a total. It has to be a whole
  number of nanoseconds, and of seconds from the hour on. A
  nanosecond has no fractions.
-/
def addFraction
    (total : Duration)
    (f : Fraction)
    (unit : TimeUnit) : Attempt PhraseError Duration := do
  if unit = .nanosecond then
    Attempt.reject .unrepresentable
  else
    let scaled ← word (f.numerator * unit.fractionScale)
    if scaled % f.denominator = 0 then
      let amount := scaled / f.denominator
      if unit.hasNanosecondFraction then add total 0 amount
      else add total amount 0
    else Attempt.reject .unrepresentable

/- Add a number of the named unit to a total. -/
def addAmount
    (total : Duration)
    (number : Nat)
    (fraction : Option Fraction)
    (name : String) : Attempt PhraseError Duration :=
  match TimeUnit.ofName? name with
  | none =>
      Attempt.reject
        (if name.isEmpty then .unitNeeded number
        else .unknownUnit name)
  | some unit => do
      let total ← addWhole total number unit
      match fraction with
      | none => return total
      | some f => addFraction total f unit

------------------------------------------------------------
-- Reading
------------------------------------------------------------

/-
  Where a reader stands: before a number, in its whole part,
  in its fraction, or in its unit. Before a number and in a
  fraction, `mark` is the position that an error reports; a
  missing number is reported where the search for it began,
  in front of any blanks.
-/
inductive Place where
| between (mark : Nat)
| whole (number : Nat)
| fraction (number : Nat) (f : Fraction) (mark : Nat)
| unit
    (number : Nat)
    (f : Option Fraction)
    (letters : List Char)
deriving DecidableEq, Repr

/- A reader after some characters of a phrase. -/
structure State where
  position : Nat
  total : Duration
  started : Bool
  place : Place
deriving DecidableEq, Repr

/- The reader of a phrase at its start. -/
def start : State where
  position := 0
  total := Duration.zero
  started := false
  place := .between 0

/- The characters of which units are made. -/
def isUnitLetter (c : Char) : Bool :=
  c.isAlpha || c == 'µ'

/- Read the character before a number. -/
def feedBetween
    (s : State)
    (mark : Nat)
    (c : Char) : Attempt PhraseError State :=
  match Number.digit? c with
  | some digit =>
      .ok { s with started := true, place := .whole digit }
  | none =>
      if Text.isBlank c then .ok s
      else Attempt.reject (.numberExpected mark)

/- Read a character of the whole part; blanks are dropped. -/
def feedWhole
    (s : State)
    (number : Nat)
    (c : Char) : Attempt PhraseError State :=
  match Number.digit? c with
  | some digit => do
      let number ← withDigit number digit
      return { s with place := .whole number }
  | none =>
      if Text.isBlank c then .ok s
      else if isUnitLetter c then
        .ok { s with place := .unit number none [c] }
      else if c = '.' then
        .ok
          { s with
            place := .fraction number .zero s.position }
      else Attempt.reject (.invalidCharacter s.position)

/- Read a character of a fraction; blanks are dropped. -/
def feedFraction
    (s : State)
    (number : Nat)
    (f : Fraction)
    (mark : Nat)
    (c : Char) : Attempt PhraseError State :=
  let next := s.position + c.utf8Size
  match Number.digit? c with
  | some digit => do
      let f ← f.withDigit digit
      return { s with place := .fraction number f next }
  | none =>
      if Text.isBlank c then
        .ok { s with place := .fraction number f next }
      else if isUnitLetter c && f.denominator != 1 then
        .ok { s with place := .unit number (some f) [c] }
      else Attempt.reject (.invalidCharacter mark)

/- Read a character of a unit, or the one that ends it. -/
def feedUnit
    (s : State)
    (number : Nat)
    (f : Option Fraction)
    (letters : List Char)
    (c : Char) : Attempt PhraseError State :=
  let close :=
    addAmount s.total number f (String.ofList letters)
  match Number.digit? c with
  | some digit => do
      let total ← close
      return { s with total, place := .whole digit }
  | none =>
      if Text.isBlank c then do
        let total ← close
        let mark := s.position + c.utf8Size
        return { s with total, place := .between mark }
      else if isUnitLetter c then
        .ok { s with place := .unit number f (letters ++ [c]) }
      else Attempt.reject (.invalidCharacter s.position)

/- Read one character. -/
def feed
    (s : State)
    (c : Char) : Attempt PhraseError State := do
  let next ←
    match s.place with
    | .between mark => feedBetween s mark c
    | .whole number => feedWhole s number c
    | .fraction number f mark =>
        feedFraction s number f mark c
    | .unit number f letters =>
        feedUnit s number f letters c
  return { next with position := s.position + c.utf8Size }

/- The total at the end of a phrase. -/
def finish (s : State) : Attempt PhraseError Duration :=
  match s.place with
  | .between _ =>
      if s.started then .ok s.total
      else Attempt.reject .empty
  | .whole number => addAmount s.total number none ""
  | .fraction number f mark =>
      if f.denominator = 1 then
        Attempt.reject (.invalidCharacter mark)
      else addAmount s.total number (some f) ""
  | .unit number f letters =>
      addAmount s.total number f (String.ofList letters)

/-
  Read a phrase. A zero by itself needs no unit.
-/
def read (s : List Char) : Attempt PhraseError Duration :=
  if s = ['0'] then .ok Duration.zero
  else do
    let final ← s.foldlM feed start
    finish final

end Phrase

end CommandScript
