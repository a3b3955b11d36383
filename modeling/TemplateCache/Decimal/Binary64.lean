/-!
# Finite binary64 numbers

A finite double is a sign, a significand below `2 ^ 53` and a binary exponent of at least `-1074`.
Rounding is exact: `nearest` takes a ratio of natural numbers to the closest such number, a tie to
the even significand, and answers `none` where the result would be infinite.
-/

namespace TemplateCache

/-- The value is `significand * 2 ^ exponent`, negated when `negative`. -/
structure Binary64 where
  negative : Bool
  significand : Nat
  exponent : Int
  deriving DecidableEq, Repr, Inhabited

namespace Binary64

def zero (negative : Bool) : Binary64 := ⟨negative, 0, -1074⟩

def isZero (x : Binary64) : Bool := x.significand == 0

/-- Numerical equality: the two zeros are equal. -/
def same (x y : Binary64) : Bool := x == y || (x.isZero && y.isZero)

/-- The quotient of two natural numbers, a half going to the even neighbour. -/
def divideToEven (num den : Nat) : Nat :=
  let quotient := num / den
  let twice := 2 * (num % den)
  if twice < den then quotient
  else if den < twice then quotient + 1
  else quotient + quotient % 2

/-- `num / den * base ^ exponent` as the ratio of two natural numbers. -/
def scaleBy (base num den : Nat) (exponent : Int) : Nat × Nat :=
  if 0 ≤ exponent then (num * base.pow exponent.toNat, den)
  else (num, den * base.pow (-exponent).toNat)

/-- The largest `e` with `2 ^ e ≤ num / den`, for a positive ratio. -/
def binaryMagnitude (num den : Nat) : Int :=
  let guess : Int := (num.log2 : Int) - (den.log2 : Int)
  let (n, d) := scaleBy 2 num den (-guess)
  if n < d then guess - 1 else guess

/-- The least significand of a normal number: `2 ^ 52`. -/
def leastNormal : Nat := Nat.pow 2 52

/-- The binary64 number closest to `num / den`; `none` when that is past the largest one. -/
def nearest (negative : Bool) (num den : Nat) : Option Binary64 :=
  if num = 0 then some (zero negative)
  else
    let exponent := max (binaryMagnitude num den - 52) (-1074)
    let (n, d) := scaleBy 2 num den (-exponent)
    let significand := divideToEven n d
    let rounded : Binary64 :=
      if significand = 2 * leastNormal then ⟨negative, leastNormal, exponent + 1⟩
      else ⟨negative, significand, exponent⟩
    if 971 < rounded.exponent then none else some rounded

/-- Numerator and denominator of the absolute value. -/
def ratio (x : Binary64) : Nat × Nat := scaleBy 2 x.significand 1 x.exponent

def negate (x : Binary64) : Binary64 := { x with negative := !x.negative }

/-- The product, correctly rounded. -/
def mul (x y : Binary64) : Option Binary64 :=
  let (a, b) := x.ratio
  let (c, d) := y.ratio
  nearest (x.negative != y.negative) (a * c) (b * d)

/-- The quotient by a number other than zero, correctly rounded. -/
def div (x y : Binary64) : Option Binary64 :=
  let (a, b) := x.ratio
  let (c, d) := y.ratio
  nearest (x.negative != y.negative) (a * d) (b * c)

def ofNat (n : Nat) : Option Binary64 := nearest false n 1

/-- The power of ten as a binary64 number, for exponents up to 308. -/
def powerOfTen (k : Nat) : Option Binary64 := ofNat (Nat.pow 10 k)

end Binary64
end TemplateCache
