/-!
# Sets of characters

A set of characters is a list of ranges of code points in ascending order. `CodeSet.contains` reads
it; the operations of sets keep the order. No character has a code point from `0xd800` to `0xdfff`,
so `next` and `previous` pass over these.
-/

namespace TemplateCache

/-- The code points from `first` to `last`. -/
structure CodeRange where
  first : Nat
  last : Nat
  deriving DecidableEq, Repr, Inhabited

structure CodeSet where
  ranges : List CodeRange
  deriving DecidableEq, Repr, Inhabited

namespace CodeRange

/-- Adds ranges in ascending order to a range in front of them, joining those that touch. -/
def coalesce : CodeRange → List CodeRange → List CodeRange
  | r, [] => [r]
  | r, s :: rest =>
    if s.first ≤ r.last + 1 then coalesce ⟨r.first, max r.last s.last⟩ rest
    else r :: coalesce s rest

def joinTouching : List CodeRange → List CodeRange
  | [] => []
  | r :: rest => coalesce r rest

def startsBefore (a b : CodeRange) : Bool := a.first ≤ b.first

/-- The character behind one, and the one in front of it. -/
def next (n : Nat) : Nat := if n = 0xd7ff then 0xe000 else n + 1

def previous (n : Nat) : Nat := if n = 0xe000 then 0xd7ff else n - 1

def largest : Nat := 0x10ffff

/-- What is left free from a code point on between ranges in ascending order. -/
def gapsFrom (start : Nat) : List CodeRange → List CodeRange
  | [] => if largest < start then [] else [⟨start, largest⟩]
  | r :: rest =>
    let more := if r.last < largest then gapsFrom (next r.last) rest else []
    if r.first = 0 then more else ⟨start, previous r.first⟩ :: more

/-- The range between two code points, whichever is the larger. -/
def between (r : CodeRange) : CodeRange := ⟨min r.first r.last, max r.first r.last⟩

def isProper (r : CodeRange) : Bool := r.first ≤ r.last

/-- The common part of two lists of ranges in ascending order. -/
def interLists (a b : List CodeRange) : List CodeRange :=
  match a, b with
  | [], _ => []
  | _, [] => []
  | x :: as, y :: bs =>
    let common : CodeRange := ⟨max x.first y.first, min x.last y.last⟩
    let rest := if x.last < y.last then interLists as (y :: bs) else interLists (x :: as) bs
    if common.isProper then common :: rest else rest
termination_by a.length + b.length

end CodeRange

namespace CodeSet

open CodeRange

def containsIn (n : Nat) : List CodeRange → Bool
  | [] => false
  | r :: rest => r.first ≤ n && (n ≤ r.last || containsIn n rest)

def containsCode (s : CodeSet) (n : Nat) : Bool := containsIn n s.ranges

def contains (s : CodeSet) (c : Char) : Bool := s.containsCode c.toNat

def empty : CodeSet := ⟨[]⟩

def all : CodeSet := ⟨[⟨0, largest⟩]⟩

def isEmpty (s : CodeSet) : Bool := s.ranges.isEmpty

/-- The set of the characters in some ranges, in any order. -/
def ofRanges (ranges : List CodeRange) : CodeSet :=
  ⟨joinTouching (ranges.mergeSort startsBefore)⟩

def ofCodes (codes : List Nat) : CodeSet := ofRanges (codes.map fun n => ⟨n, n⟩)

def range (first last : Nat) : CodeSet := ⟨[⟨first, last⟩]⟩

def single (c : Char) : CodeSet := range c.toNat c.toNat

def union (a b : CodeSet) : CodeSet := ⟨joinTouching (a.ranges.merge b.ranges startsBefore)⟩

def unions (sets : List CodeSet) : CodeSet := ofRanges (sets.flatMap (·.ranges))

def inter (a b : CodeSet) : CodeSet := ⟨interLists a.ranges b.ranges⟩

/-- The characters outside a set. Where two ranges meet at the code points without characters, the
two characters next to these count as the gap between the ranges. -/
def complement (s : CodeSet) : CodeSet := ⟨(gapsFrom 0 s.ranges).map between⟩

def diff (a b : CodeSet) : CodeSet :=
  ⟨interLists a.ranges ((gapsFrom 0 b.ranges).filter isProper)⟩

def symmetricDiff (a b : CodeSet) : CodeSet := (a.union b).diff (a.inter b)

def isAscii (s : CodeSet) : Bool := s.ranges.all fun r => r.last < 0x80

/-- The character of a set that has just one. -/
def single? (s : CodeSet) : Option Char :=
  match s.ranges with
  | [r] => if r.first = r.last then some (Char.ofNat r.first) else none
  | _ => none

end CodeSet
end TemplateCache
