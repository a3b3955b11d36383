import TemplateCache.Decimal.Shortest

/-!
# JSON numbers

A number literal keeps its digits. Read as a value, a literal without point and exponent is an
integer while it fits 64 bits; everything else, and minus zero, is a binary64 number. The reader
keeps as many leading digits as fit an unsigned 64-bit word and scales their binary64 value by one
power of ten, so a long literal may miss the nearest number by a unit in the last place.
-/

namespace TemplateCache.Json

inductive Number where
  | int (value : Int)
  | real (value : Binary64)
  deriving DecidableEq, Repr

namespace Number

/-- An integer differs from a real number even where their values agree. -/
def same : Number → Number → Bool
  | int a, int b => a == b
  | real a, real b => a.same b
  | _, _ => false

def text : Number → String
  | int value => toString value
  | real value => value.text

end Number

/-- The exponent of a literal: its sign and its digits. -/
structure ExponentPart where
  negative : Bool
  digits : List Nat
  deriving DecidableEq, Repr

/-- A number as written. `fraction` holds the digits behind the point, if there is one. -/
structure Literal where
  negative : Bool
  whole : List Nat
  fraction : Option (List Nat)
  exponent : Option ExponentPart
  deriving DecidableEq, Repr

namespace Literal

def wordLimit : Nat := UInt64.size - 1

/-- The largest exponent that is still read as a number. -/
def exponentLimit : Nat := 2147483647

/-- Appends digits while the result fits the word; answers the result and how many were left. -/
def extend (significand : Nat) : List Nat → Nat × Nat
  | [] => (significand, 0)
  | d :: ds =>
    if wordLimit < significand * 10 + d then (significand, ds.length + 1)
    else extend (significand * 10 + d) ds

/-- Reads exponent digits; `none` past the limit. -/
def exponentValue? (digits : List Nat) : Option Nat :=
  digits.foldl (fun acc d =>
    acc.bind fun e => if exponentLimit < e * 10 + d then none else some (e * 10 + d)) (some 0)

/-- Multiplies or divides by a power of ten. Exponents below `-308` are taken in steps of 308 until
the number vanishes; `none` is an overflow. -/
def scale : Nat → Binary64 → Int → Option Binary64
  | 0, x, _ => some x
  | fuel + 1, x, e =>
    if e.natAbs ≤ 308 then do
      let power ← Binary64.powerOfTen e.natAbs
      if 0 ≤ e then x.mul power else x.div power
    else if x.isZero then some x
    else if 0 ≤ e then none
    else do
      let power ← Binary64.powerOfTen 308
      scale fuel (← x.div power) (e + 308)

/-- The binary64 number for `significand * 10 ^ exponent`. -/
def real? (negative : Bool) (significand : Nat) (exponent : Int) : Option Number := do
  let x ← scale 16 (← Binary64.ofNat significand) exponent
  return .real (if negative then x.negate else x)

/-- The value of a literal; `none` when it is too large for a binary64 number. -/
def value? (l : Literal) : Option Number :=
  let (whole, dropped) := extend 0 l.whole
  match l.fraction, l.exponent with
  | none, none =>
    if dropped ≠ 0 then real? l.negative whole dropped
    else if !l.negative then some (.int whole)
    else if whole = 0 ∨ UInt64.size / 2 < whole then real? true whole 0
    else some (.int (-whole))
  | fraction, exponent =>
    let after := fraction.getD []
    let (significand, ignored) := extend whole after
    let start : Int := dropped - (after.length - ignored : Nat)
    match exponent with
    | none => real? l.negative significand start
    | some part =>
      match exponentValue? part.digits with
      | none =>
        if significand ≠ 0 ∧ !part.negative then none
        else some (.real (Binary64.zero l.negative))
      | some e =>
        let total := if part.negative then start - e else start + e
        let limit : Int := exponentLimit
        real? l.negative significand (max (-limit - 1) (min limit total))

end Literal
end TemplateCache.Json
