import Scaffold.Decimal.Basic

/-!
Numbers of double precision. A decimal is rounded to the nearest number `m * 2 ^ q` with a
mantissa of 53 bits, a tie going to the even mantissa, and that number is written with the
fewest digits that round to it. All arithmetic is exact.
-/
namespace Scaffold
namespace Decimal

/-- The whole number nearest to a quotient; a tie goes to the even one. -/
def roundDiv (num den : Nat) : Nat :=
  let quotient := num / den
  let rest := num % den
  if 2 * rest < den then quotient
  else if den < 2 * rest then quotient + 1
  else quotient + quotient % 2

def twos (exponent : Int) : Nat := Nat.pow 2 exponent.toNat

/-- The mantissas of doubles of full precision lie between this number and its double. -/
def fullMantissa : Nat := 0x10000000000000

/-- The positive number `mantissa * 2 ^ scale`. -/
structure Binary where
  mantissa : Nat
  scale : Int
  deriving DecidableEq, Repr

/-- The double nearest to a positive quotient, but with no greatest scale. A mantissa that is
rounded up to the next power of two takes the next scale, on which its neighbours lie. -/
def Binary.nearest (num den : Nat) : Binary :=
  let guess : Int := num.log2 - den.log2 - 52
  let full := if num * twos (-guess) < den * twos guess * fullMantissa then guess - 1 else guess
  let scale := if full < -1074 then -1074 else full
  let mantissa := roundDiv (num * twos (-scale)) (den * twos scale)
  if mantissa = 2 * fullMantissa then ⟨fullMantissa, scale + 1⟩ else ⟨mantissa, scale⟩

def Binary.overflows (b : Binary) : Bool := b.scale > 971

/-- Compares `a * 10 ^ i` with `n * 2 ^ j`. -/
def compareScaled (a : Nat) (i : Int) (n : Nat) (j : Int) : Ordering :=
  compareOfLessAndEq (a * tens i * twos (-j)) (n * twos j * tens (-i))

/-- Whether `digits * 10 ^ exponent` rounds to a number: it lies between the midpoints to the
two neighbours, or on one of them if the mantissa is even. -/
def Binary.isWrittenBy (b : Binary) (digits : Nat) (exponent : Int) : Bool :=
  let narrow := b.mantissa == fullMantissa && b.scale > -1074
  let low := if narrow then 4 * b.mantissa - 1 else 4 * b.mantissa - 2
  let fromLow := compareScaled digits exponent low (b.scale - 2)
  let fromHigh := compareScaled digits exponent (4 * b.mantissa + 2) (b.scale - 2)
  if b.mantissa % 2 = 0 then fromLow != .lt && fromHigh != .gt
  else fromLow == .gt && fromHigh == .lt

/-- How many digits a number has before its point, negative for zeros after the point. -/
def Binary.place (b : Binary) : Int :=
  let num := b.mantissa * twos b.scale
  let den := twos (-b.scale)
  if den ≤ num then (Nat.toDigits 10 (num / den)).length
  else 1 - (Nat.toDigits 10 (den / num)).length

/-- The number with `count` digits that rounds to a double and is nearest to it. -/
def Binary.withDigits? (b : Binary) (count : Nat) : Option (Nat × Int) :=
  let exponent := b.place - count
  let below := b.mantissa * twos b.scale * tens (-exponent) / (twos (-b.scale) * tens exponent)
  match b.isWrittenBy below exponent, b.isWrittenBy (below + 1) exponent with
  | true, true =>
    match compareScaled (2 * below + 1) exponent (2 * b.mantissa) b.scale with
    | .lt => some (below + 1, exponent)
    | .gt => some (below, exponent)
    | .eq => some (below + below % 2, exponent)
  | true, false => some (below, exponent)
  | false, true => some (below + 1, exponent)
  | false, false => none

def Binary.shortest (b : Binary) : Nat × Int :=
  match (List.range 17).findSome? fun count => b.withDigits? (count + 1) with
  | some written => written
  | none => (b.mantissa * twos b.scale * Nat.pow 5 (-b.scale).toNat, if b.scale < 0 then b.scale else 0)

/-- A decimal in double precision, or `none` if it is too large for a double. -/
def toDouble? (d : Decimal) : Option Decimal :=
  if d.mantissa = 0 then some ⟨0, 0⟩
  else
    let size : Int := (Nat.toDigits 10 d.mantissa.natAbs).length + d.exponent
    if 310 < size then none
    else if size < -330 then some ⟨0, 0⟩
    else
      let b := Binary.nearest (d.mantissa.natAbs * tens d.exponent) (tens (-d.exponent))
      if b.overflows then none
      else if b.mantissa = 0 then some ⟨0, 0⟩
      else
        let (digits, exponent) := b.shortest
        some (normal (d.mantissa < 0) digits exponent)

end Decimal
end Scaffold
