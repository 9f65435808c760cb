/-
  Double-precision binary numbers as exact values, and the
  rounding of a quotient of naturals to the nearest of them.

  Key definitions include:
    * `Number.divideHalfEven`
    * `Binary64`
    * `Binary64.ofRatio`
    * `Binary64.bits`
-/

namespace CommandScript

namespace Number

/- A quotient rounded to the nearest natural, a half to even. -/
def divideHalfEven (num den : Nat) : Nat :=
  let quotient := num / den
  let twice := 2 * (num % den)
  if twice < den then quotient
  else if den < twice then quotient + 1
  else if quotient % 2 = 0 then quotient
  else quotient + 1

end Number

/-
  A double-precision binary number. A finite one is its sign
  and `significand * 2 ^ exponent`.
-/
inductive Binary64 where
| finite
    (negative : Bool)
    (significand : Nat)
    (exponent : Int)
| infinite (negative : Bool)
| nan
deriving DecidableEq, Repr

namespace Binary64

/- The exponent of the smallest numbers. -/
def leastExponent : Int := -1074

/- The exponent of the largest numbers. -/
def greatestExponent : Int := 971

/-
  The significands of full precision start here, at two to
  the power of 52.
-/
def fullSignificand : Nat := 4503599627370496

/- The quotient `num / (den * 2 ^ exponent)`, rounded. -/
def scaledQuotient
    (num den : Nat)
    (exponent : Int) : Nat :=
  if exponent < 0 then
    Number.divideHalfEven
      (num * Nat.pow 2 (-exponent).toNat) den
  else
    Number.divideHalfEven num
      (den * Nat.pow 2 exponent.toNat)

/-
  The exponent at which a quotient has a significand of full
  precision, as far as there is one.
-/
def exponentOfRatio (num den : Nat) : Int :=
  let guess : Int := (num.log2 : Int) - den.log2 - 52
  let small :=
    if guess < 0 then
      num * Nat.pow 2 (-guess).toNat < den * fullSignificand
    else
      num < den * Nat.pow 2 guess.toNat * fullSignificand
  max leastExponent (if small then guess - 1 else guess)

/-
  The number nearest to a quotient, a tie going to the even
  significand; infinite beyond the largest number.
-/
def ofRatio
    (negative : Bool)
    (num den : Nat) : Binary64 :=
  if num = 0 then .finite negative 0 leastExponent
  else
    let exponent := exponentOfRatio num den
    let rounded := scaledQuotient num den exponent
    let carried := rounded = 2 * fullSignificand
    let significand :=
      if carried then fullSignificand else rounded
    let exponent :=
      if carried then exponent + 1 else exponent
    if greatestExponent < exponent then .infinite negative
    else .finite negative significand exponent

/- The bit that stands for the sign. -/
def signBit (negative : Bool) : Nat :=
  if negative then 9223372036854775808 else 0

/- The interchange format of a number, as a natural. -/
def bits : Binary64 → Nat
| .finite negative significand exponent =>
    if significand < fullSignificand then
      signBit negative + significand
    else
      let biased := (exponent - leastExponent).toNat + 1
      signBit negative + biased * fullSignificand +
        (significand - fullSignificand)
| .infinite negative =>
    signBit negative + 2047 * fullSignificand
| .nan => 2047 * fullSignificand + fullSignificand / 2

end Binary64

end CommandScript
