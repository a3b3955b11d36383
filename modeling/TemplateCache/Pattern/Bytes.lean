import TemplateCache.Pattern.Basic

/-!
# Patterns over bytes

A pattern as something that reads the encoded text byte by byte. A range of characters is spelled
out as sequences of byte ranges; it is split for this at the ends of the characters of one length,
and at multiples of the powers of 64 that its ends do not reach.
-/

namespace TemplateCache.Pattern

structure ByteRange where
  first : Nat
  last : Nat
  deriving DecidableEq, Repr, Inhabited

/-- The parts of a range up to a bound and behind it. -/
def splitBehind (bound : Nat) (r : CodeRange) : List CodeRange :=
  if r.first ≤ bound ∧ bound < r.last then [⟨r.first, bound⟩, ⟨bound + 1, r.last⟩] else [r]

/-- The parts of a range in front of the surrogates and behind them. -/
def withoutSurrogates (r : CodeRange) : List CodeRange :=
  if r.first < 0xe000 ∧ 0xd7ff < r.last then
    [(⟨r.first, 0xd7ff⟩ : CodeRange), ⟨0xe000, r.last⟩].filter CodeRange.isProper
  else [r]

/-- Cuts a range that reaches into several blocks of a size, so that the incomplete blocks at its
ends are parts of their own. -/
def alignTo (size : Nat) (r : CodeRange) : List CodeRange :=
  let isWithinBlock (r : CodeRange) : Bool := r.first / size == r.last / size
  let cutEnd (r : CodeRange) : List CodeRange :=
    if isWithinBlock r || (r.last + 1) % size == 0 then [r]
    else
      let start := r.last / size * size
      [⟨r.first, start - 1⟩, ⟨start, r.last⟩]
  if isWithinBlock r || r.first % size == 0 then cutEnd r
  else
    let behind := (r.first / size + 1) * size
    ⟨r.first, behind - 1⟩ :: cutEnd ⟨behind, r.last⟩

/-- The bytes of the character with a code point. -/
def encode (n : Nat) : List Nat := (String.utf8EncodeChar (Char.ofNat n)).map UInt8.toNat

/-- A range whose characters differ in one way in each byte. -/
def byteRanges (r : CodeRange) : List ByteRange :=
  List.zipWith ByteRange.mk (encode r.first) (encode r.last)

/-- The sequences of byte ranges that describe a range, in ascending order. -/
def byteSequences (r : CodeRange) : List (List ByteRange) :=
  let ofLength := (withoutSurrogates r).flatMap (splitBehind 0x7f) |>.flatMap (splitBehind 0x7ff)
    |>.flatMap (splitBehind 0xffff)
  let aligned (r : CodeRange) : List CodeRange :=
    if r.last < 0x80 then [r]
    else (alignTo 0x40 r).flatMap (alignTo 0x1000) |>.flatMap (alignTo 0x40000)
  (ofLength.flatMap aligned).map byteRanges

/-- A pattern that reads bytes. -/
inductive BytePattern where
  | empty
  | text (bytes : List Nat)
  /-- A set of single bytes, of which only the number of ranges is told. -/
  | narrow (ranges : Nat)
  | wide (sequences : List (List ByteRange))
  | anchor
  /-- `consumes` says that every piece of the repeated pattern has a byte. -/
  | times (p : BytePattern) (consumes : Bool) (min : Nat) (max : Option Nat)
  | group (p : BytePattern)
  | seq (parts : List BytePattern)
  | alt (branches : List BytePattern)
  deriving Inhabited

mutual

/-- The bytes that a pattern reads. -/
def bytes : Pattern → BytePattern
  | empty => .empty
  | text chars => .text (chars.flatMap fun c => encode c.toNat)
  | set chars =>
    if chars.isAscii then .narrow chars.ranges.length
    else .wide (chars.ranges.flatMap byteSequences)
  | anchor _ => .anchor
  | times p min max _ => .times (bytes p) ((minLength p).any (0 < ·)) min max
  | group _ p => .group (bytes p)
  | seq parts => .seq (bytesOfAll parts)
  | alt branches => .alt (bytesOfAll branches)

def bytesOfAll : List Pattern → List BytePattern
  | [] => []
  | p :: rest => bytes p :: bytesOfAll rest

end
end TemplateCache.Pattern
