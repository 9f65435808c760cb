import CommandScript.Number.Binary64
import CommandScript.Number.Integer

/-
  Decimal literals of double-precision numbers: digits with
  an optional point and an optional exponent, or the names
  of infinity and of the undefined number.

  Key definitions include:
    * `Decimal`
    * `Decimal.read`
    * `Decimal.toBinary64`
    * `Binary64.read`
    * `LiteralError`
-/

namespace CommandScript

/- Why a text is no number literal. -/
inductive LiteralError where
| empty
| invalid
deriving DecidableEq, Repr

namespace LiteralError

/- The wording of a literal error. -/
def message : LiteralError → String
| .empty => "cannot parse float from empty string"
| .invalid => "invalid float literal"

end LiteralError

/- The value `digits * 10 ^ exponent`. -/
structure Decimal where
  digits : List Nat
  exponent : Int
deriving DecidableEq, Repr

namespace Decimal

------------------------------------------------------------
-- Reading
------------------------------------------------------------

/- The digits at the start of a text, and what follows. -/
def spanDigits : List Char → List Nat × List Char
| [] => ([], [])
| c :: rest =>
    match Number.digit? c with
    | none => ([], c :: rest)
    | some digit =>
        let (digits, after) := spanDigits rest
        (digit :: digits, after)

/- From here on an exponent stops growing. -/
def exponentCap : Nat := 65536

/- The natural that exponent digits stand for, capped. -/
def exponentValue (digits : List Nat) : Nat :=
  digits.foldl
    (fun value digit =>
      if value < exponentCap then value * 10 + digit
      else value)
    0

/- The sign at the start of a text: whether it is negative. -/
def splitSign : List Char → Bool × List Char
| '-' :: rest => (true, rest)
| '+' :: rest => (false, rest)
| s => (false, s)

/- Read the digits of an exponent up to the end. -/
def readExponent (s : List Char) : Option Int :=
  let (negative, unsigned) := splitSign s
  match spanDigits unsigned with
  | ([], _) => none
  | (digits, []) =>
      let value : Int := exponentValue digits
      some (if negative then -value else value)
  | (_, _ :: _) => none

/- Read what may stand behind the digits. -/
def readScale : List Char → Option Int
| [] => some 0
| c :: rest =>
    if c = 'e' ∨ c = 'E' then readExponent rest else none

/-
  Read an unsigned literal: digits with at most one point,
  at least one digit, and an optional exponent.
-/
def read (s : List Char) : Option Decimal :=
  let (whole, afterWhole) := spanDigits s
  let (fraction, after) :=
    match afterWhole with
    | '.' :: rest => spanDigits rest
    | rest => ([], rest)
  if whole.isEmpty && fraction.isEmpty then none
  else
    (readScale after).map fun scale =>
      ⟨whole ++ fraction, scale - fraction.length⟩

------------------------------------------------------------
-- Values
------------------------------------------------------------

/- The natural that the digits stand for. -/
def coefficient (d : Decimal) : Nat :=
  d.digits.foldl
    (fun value digit => value * 10 + digit) 0

/- No finite double is as large as ten to this power. -/
def vastExponent : Int := 400

/-
  The double nearest to a literal. A literal far beyond the
  range of the doubles is settled by its size alone.
-/
def toBinary64
    (negative : Bool)
    (d : Decimal) : Binary64 :=
  let value := d.coefficient
  if value = 0 then .ofRatio negative 0 1
  else if vastExponent < d.exponent then .infinite negative
  else if d.exponent + d.digits.length < -vastExponent then
    .ofRatio negative 0 1
  else if d.exponent < 0 then
    .ofRatio negative value
      (Nat.pow 10 (-d.exponent).toNat)
  else
    .ofRatio negative
      (value * Nat.pow 10 d.exponent.toNat) 1

end Decimal

namespace Binary64

/- The value that a name in lower case stands for. -/
def ofName?
    (negative : Bool)
    (name : List Char) : Option Binary64 :=
  if name = "inf".toList ∨ name = "infinity".toList then
    some (.infinite negative)
  else if name = "nan".toList then some .nan
  else none

/-
  Read a number: an optional sign, then a literal, or a name
  in any case.
-/
def read
    (s : List Char) : Except LiteralError Binary64 :=
  if s.isEmpty then .error .empty
  else
    let (negative, unsigned) := Decimal.splitSign s
    match Decimal.read unsigned with
    | some decimal => .ok (decimal.toBinary64 negative)
    | none =>
        match ofName? negative (unsigned.map Char.toLower) with
        | some value => .ok value
        | none => .error .invalid

end Binary64

end CommandScript
