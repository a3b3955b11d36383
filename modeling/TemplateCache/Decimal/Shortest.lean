import TemplateCache.Decimal.Binary64

/-!
# Shortest decimal text

The digits printed for a binary64 number are the fewest that read back as that number, and of
those the nearest to it; of two equally near ones the last digit is even. `digits` finds them in
exact arithmetic: for one, two, … seventeen digits it tries the two neighbours of the value on that
decimal grid against the interval of reals that round to the value.
-/

namespace TemplateCache

/-- The number `digits * 10 ^ exponent`. -/
structure Decimal where
  digits : Nat
  exponent : Int
  deriving DecidableEq, Repr

namespace Decimal

/-- Numerator and denominator. -/
def ratio (d : Decimal) : Nat × Nat := Binary64.scaleBy 10 d.digits 1 d.exponent

/-- Removes the zeros at the end of the digits; `fuel` bounds how many. -/
def trim : Nat → Decimal → Decimal
  | 0, d => d
  | fuel + 1, d =>
    if d.digits ≠ 0 ∧ d.digits % 10 = 0 then trim fuel ⟨d.digits / 10, d.exponent + 1⟩ else d

end Decimal

namespace Binary64

/-- Whether a decimal lies between the midpoints to the neighbouring binary64 numbers. The
midpoints themselves belong to the numbers with an even significand. -/
def readsBack (x : Binary64) (d : Decimal) : Bool :=
  -- in units of a quarter of the last place: the value is `4 m`, the midpoints `4 m ± 2`, and the
  -- lower one is nearer where the significand is the least of its binade
  let (n, den) := d.ratio
  let (num, scale) := scaleBy 2 n den (2 - x.exponent)
  let low := 4 * x.significand - (if x.significand = leastNormal ∧ -1074 < x.exponent then 1 else 2)
  let high := 4 * x.significand + 2
  if x.significand % 2 = 0 then low * scale ≤ num && num ≤ high * scale
  else low * scale < num && num < high * scale

/-- The distance of a decimal from the absolute value, times a positive factor that depends only
on the exponents of the two. -/
def distance (x : Binary64) (d : Decimal) : Nat :=
  let (n, den) := d.ratio
  let (m, e) := x.ratio
  (n * e - m * den) + (m * den - n * e)

/-- The largest `e` with `10 ^ e ≤ num / den`, for a positive ratio below `10 ^ 400` and above
`10 ^ (-400)`. -/
def decimalMagnitude (num den : Nat) : Int :=
  let atLeast (e : Int) : Bool :=
    let (n, d) := scaleBy 10 num den (-e)
    d ≤ n
  let guess : Int := (binaryMagnitude num den * 30103) / 100000
  if atLeast (guess + 1) then guess + 1 else if atLeast guess then guess else guess - 1

/-- The decimals just below and just above the absolute value with `count` digits. -/
def neighbours (x : Binary64) (count : Nat) : Decimal × Decimal :=
  let (num, den) := x.ratio
  let exponent := decimalMagnitude num den + 1 - (count : Int)
  let (n, d) := scaleBy 10 num den (-exponent)
  (⟨n / d, exponent⟩, ⟨n / d + 1, exponent⟩)

/-- The nearer one of two decimals that differ by one in the last digit, or the even one of two
that are equally near. -/
def nearer (x : Binary64) (below above : Decimal) : Decimal :=
  if distance x above < distance x below then above
  else if distance x below < distance x above then below
  else if below.digits % 2 = 0 then below else above

/-- The decimal with `count` digits that reads back, the nearer one where both neighbours do. -/
def fitting? (x : Binary64) (count : Nat) : Option Decimal :=
  let (below, above) := neighbours x count
  match readsBack x below, readsBack x above with
  | true, true => some (nearer x below above)
  | true, false => some below
  | false, true => some above
  | false, false => none

/-- The shortest decimal that reads back as the absolute value of a number other than zero. -/
def digits (x : Binary64) : Decimal :=
  let found := ((List.range 17).map (· + 1)).findSome? (fitting? x)
  (found.getD (neighbours x 17).1).trim 20

/-! ## Text -/

/-- Positional notation is used while the leading digit stands for `10 ^ e` with `e` from `-5` to
`15`; an integral value keeps one zero behind the point. Every other number has one digit before
the point, if any follow, and a signed exponent. -/
def text (x : Binary64) : String :=
  let sign := if x.negative then "-" else ""
  if x.isZero then sign ++ "0.0"
  else
    let d := x.digits
    let ds := Nat.toDigits 10 d.digits
    let lead : Int := d.exponent + ds.length - 1
    let body : List Char :=
      if -5 ≤ lead ∧ lead ≤ 15 then
        if 0 ≤ d.exponent then ds ++ List.replicate d.exponent.toNat '0' ++ ['.', '0']
        else if 0 ≤ lead then ds.take (lead.toNat + 1) ++ ['.'] ++ ds.drop (lead.toNat + 1)
        else ['0', '.'] ++ List.replicate (-lead - 1).toNat '0' ++ ds
      else
        let mantissa := match ds with
          | [] => []
          | [c] => [c]
          | c :: more => c :: '.' :: more
        mantissa ++ ['e', if lead < 0 then '-' else '+'] ++ Nat.toDigits 10 lead.natAbs
    sign ++ String.ofList body

end Binary64
end TemplateCache
