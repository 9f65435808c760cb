/-
  Decimal integers of a bounded range.

  Key definitions include:
    * `Number.digit?`
    * `IntegerRange`
    * `IntegerRange.read`
    * `IntegerError`
-/

namespace CommandScript

namespace Number

/- The value of an ASCII decimal digit. -/
def digit? (c : Char) : Option Nat :=
  if c.isDigit then some (c.toNat - '0'.toNat) else none

end Number

/- Why a text is no integer of a range. -/
inductive IntegerError where
| empty
| invalidDigit
| tooLarge
| tooSmall
deriving DecidableEq, Repr

namespace IntegerError

/- The wording of an integer error. -/
def message : IntegerError → String
| .empty => "cannot parse integer from empty string"
| .invalidDigit => "invalid digit found in string"
| .tooLarge => "number too large to fit in target type"
| .tooSmall => "number too small to fit in target type"

end IntegerError

/- The integers between two bounds. -/
structure IntegerRange where
  least : Int
  greatest : Int
deriving DecidableEq, Repr

namespace IntegerRange

/- The integers of a number of bits, from zero. -/
def unsigned (bits : Nat) : IntegerRange where
  least := 0
  greatest := Int.ofNat (Nat.pow 2 bits) - 1

/- The integers of a number of bits, half below zero. -/
def signed (bits : Nat) : IntegerRange where
  least := -Int.ofNat (Nat.pow 2 (bits - 1))
  greatest := Int.ofNat (Nat.pow 2 (bits - 1)) - 1

/-
  Read digits on top of the value read so far. The first
  character that is no digit, or the first digit that leads
  beyond the limit, decides the error.
-/
def readDigits
    (limit : Nat)
    (beyond : IntegerError)
    (value : Nat) : List Char → Except IntegerError Nat
| [] => .ok value
| c :: rest =>
    match Number.digit? c with
    | none => .error .invalidDigit
    | some digit =>
        let next := value * 10 + digit
        if next ≤ limit then
          readDigits limit beyond next rest
        else .error beyond

/- Read a magnitude that has at least one digit. -/
def readMagnitude
    (limit : Nat)
    (beyond : IntegerError) :
    List Char → Except IntegerError Nat
| [] => .error .invalidDigit
| digits => readDigits limit beyond 0 digits

/-
  Read an integer: an optional sign and decimal digits. A
  range without negative numbers has no minus sign.
-/
def read
    (range : IntegerRange) :
    List Char → Except IntegerError Int
| [] => .error .empty
| '+' :: digits =>
    (readMagnitude range.greatest.toNat .tooLarge digits).map
      Int.ofNat
| '-' :: digits =>
    if range.least < 0 then
      (readMagnitude (-range.least).toNat .tooSmall
        digits).map fun value => -Int.ofNat value
    else .error .invalidDigit
| digits =>
    (readMagnitude range.greatest.toNat .tooLarge digits).map
      Int.ofNat

end IntegerRange

end CommandScript
