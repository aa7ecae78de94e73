/-!
Decimal numbers and the text that writes them: the digits in full where the number is neither
very large nor very small, else one digit, the others after a point, and a signed exponent.
-/
namespace Scaffold

/-- The number `mantissa * 10 ^ exponent`. -/
structure Decimal where
  mantissa : Int
  exponent : Int
  deriving DecidableEq, Repr

namespace Decimal

/-- The power of ten with a whole exponent; one if the exponent is negative. -/
def tens (exponent : Int) : Nat := Nat.pow 10 exponent.toNat

def strip (digits : Nat) (exponent : Int) : Nat × Int :=
  if digits = 0 then (0, 0)
  else if digits % 10 = 0 then strip (digits / 10) (exponent + 1)
  else (digits, exponent)
  termination_by digits
  decreasing_by omega

/-- The one form of a number: no zeros at the end of its mantissa, and zero with exponent zero. -/
def normal (negative : Bool) (digits : Nat) (exponent : Int) : Decimal :=
  let (digits, exponent) := strip digits exponent
  ⟨if negative then -digits else digits, exponent⟩

def ofInt (n : Int) : Decimal := normal (n < 0) n.natAbs 0

def ofNat (n : Nat) : Decimal := normal false n 0

def signedExponent (e : Int) : List Char :=
  'e' :: (if e < 0 then '-' else '+') :: Nat.toDigits 10 e.natAbs

/-- The digits of a positive number with its point: `place` digits stand before the point. -/
def layout (digits : List Char) (place : Int) : List Char :=
  let count : Int := digits.length
  if count ≤ place ∧ place ≤ 21 then digits ++ List.replicate (place - count).toNat '0'
  else if 0 < place ∧ place ≤ 21 then
    digits.take place.toNat ++ '.' :: digits.drop place.toNat
  else if -6 < place ∧ place ≤ 0 then
    '0' :: '.' :: List.replicate (-place).toNat '0' ++ digits
  else
    match digits with
    | [] => []
    | [d] => d :: signedExponent (place - 1)
    | d :: rest => d :: '.' :: rest ++ signedExponent (place - 1)

def chars (d : Decimal) : List Char :=
  if d.mantissa = 0 then ['0']
  else
    let digits := Nat.toDigits 10 d.mantissa.natAbs
    (if d.mantissa < 0 then ['-'] else []) ++ layout digits (digits.length + d.exponent)

end Decimal
end Scaffold
