import TemplateCache.Unicode.CodeSet

/-!
# Tables of code points as text

A table is written as a list of numbers in base 26: capital letters are the leading digits of a
number and a small letter is its last one. A set is written as the lengths of gaps and ranges in
turn, and a map of all code points as the lengths of runs and the numbers of their values in turn.
Lengths of ranges and runs are written less one.
-/

namespace TemplateCache.Unicode

/-- The numbers of a text; `lead` is the value of the leading digits read so far. -/
def numbersFrom : List Char → (lead : Nat) → List Nat
  | [], _ => []
  | c :: rest, lead =>
    if c.isUpper then numbersFrom rest (lead * 26 + (c.toNat - 'A'.toNat))
    else (lead * 26 + (c.toNat - 'a'.toNat)) :: numbersFrom rest 0

def numbers (rows : List String) : List Nat := numbersFrom (rows.flatMap String.toList) 0

def rangesFrom : List Nat → (start : Nat) → List CodeRange
  | gap :: more :: rest, start =>
    ⟨start + gap, start + gap + more⟩ :: rangesFrom rest (start + gap + more + 1)
  | _, _ => []

/-- The set that is written in some rows. -/
def setOf (rows : List String) : CodeSet := ⟨rangesFrom (numbers rows) 0⟩

/-- Code points that have a value in common. -/
structure Run where
  range : CodeRange
  value : Nat
  deriving DecidableEq, Repr

def runsFrom : List Nat → (start : Nat) → List Run
  | more :: value :: rest, start =>
    ⟨⟨start, start + more⟩, value⟩ :: runsFrom rest (start + more + 1)
  | _, _ => []

/-- The runs that are written in some rows. -/
def runsOf (rows : List String) : List Run := runsFrom (numbers rows) 0

/-- The code points whose value is chosen. -/
def setWhere (runs : List Run) (chosen : Nat → Bool) : CodeSet :=
  ⟨CodeRange.joinTouching ((runs.filter fun run => chosen run.value).map (·.range))⟩

/-- The value of a code point. -/
def valueIn (n : Nat) : List Run → Option Nat
  | [] => none
  | run :: rest => if n ≤ run.range.last then some run.value else valueIn n rest

end TemplateCache.Unicode
