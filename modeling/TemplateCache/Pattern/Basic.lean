import TemplateCache.Pattern.Anchor

/-!
# Patterns

A pattern describes pieces of text. Patterns are built by functions that simplify: pieces of text
that follow each other become one, repetitions of nothing go away, branches of single characters
become a set, and what all branches of a choice begin with is taken out of it.
-/

namespace TemplateCache

inductive Pattern where
  | empty
  | text (chars : List Char)
  | set (chars : CodeSet)
  | anchor (a : Pattern.Anchor)
  /-- Between `min` and `max` times; no `max` is no bound. A greedy one prefers to go on. -/
  | times (p : Pattern) (min : Nat) (max : Option Nat) (greedy : Bool)
  /-- A pattern in parentheses, which are counted from one. -/
  | group (number : Nat) (p : Pattern)
  | seq (parts : List Pattern)
  | alt (branches : List Pattern)
  deriving Inhabited

namespace Pattern

/-! ## Lengths -/

def utf8Length (n : Nat) : Nat :=
  if n < 0x80 then 1 else if n < 0x800 then 2 else if n < 0x10000 then 3 else 4

def textLength (chars : List Char) : Nat := chars.foldl (fun n c => n + utf8Length c.toNat) 0

mutual

/-- The least number of bytes of a piece, unless no text has one. -/
def minLength : Pattern → Option Nat
  | empty => some 0
  | text chars => some (textLength chars)
  | set chars => chars.ranges.head?.map fun r => utf8Length r.first
  | anchor _ => some 0
  | times p min _ _ => (minLength p).map (· * min)
  | group _ p => minLength p
  | seq parts => minLengthSum parts
  | alt branches => leastMinLength branches

def minLengthSum : List Pattern → Option Nat
  | [] => some 0
  | p :: rest => do return (← minLength p) + (← minLengthSum rest)

def leastMinLength : List Pattern → Option Nat
  | [] => none
  | [p] => minLength p
  | p :: rest => do return Nat.min (← minLength p) (← leastMinLength rest)

/-- The greatest number of bytes of a piece, if there is one. -/
def maxLength : Pattern → Option Nat
  | empty => some 0
  | text chars => some (textLength chars)
  | set chars => chars.ranges.getLast?.map fun r => utf8Length r.last
  | anchor _ => some 0
  | times p _ max _ => do return (← maxLength p) * (← max)
  | group _ p => maxLength p
  | seq parts => maxLengthSum parts
  | alt branches => greatestMaxLength branches

def maxLengthSum : List Pattern → Option Nat
  | [] => some 0
  | p :: rest => do return (← maxLength p) + (← maxLengthSum rest)

def greatestMaxLength : List Pattern → Option Nat
  | [] => none
  | [p] => maxLength p
  | p :: rest => do return Nat.max (← maxLength p) (← greatestMaxLength rest)

end

/-! ## Equality -/

mutual

def same : Pattern → Pattern → Bool
  | empty, empty => true
  | text a, text b => a == b
  | set a, set b => a == b
  | anchor a, anchor b => a == b
  | times p min max greedy, times q min' max' greedy' =>
    same p q && min == min' && max == max' && greedy == greedy'
  | group m p, group n q => m == n && same p q
  | seq ps, seq qs => sameAll ps qs
  | alt ps, alt qs => sameAll ps qs
  | _, _ => false

def sameAll : List Pattern → List Pattern → Bool
  | [], [] => true
  | p :: ps, q :: qs => same p q && sameAll ps qs
  | _, _ => false

end

/-! ## Construction -/

/-- One character of a set. -/
def ofSet (chars : CodeSet) : Pattern :=
  match chars.single? with
  | some c => text [c]
  | none => set chars

/-- A pattern that only ever describes nothing need not be repeated. -/
def repeated (p : Pattern) (min : Nat) (max : Option Nat) (greedy : Bool) : Pattern :=
  let isBlank := maxLength p == some 0
  let min := if isBlank then Nat.min min 1 else min
  let max := if isBlank then some (Nat.min (max.getD 1) 1) else max
  if min = 0 ∧ max = some 0 then empty
  else if min = 1 ∧ max = some 1 then p
  else times p min max greedy

/-- The parts that a pattern brings to a sequence. -/
def parts : Pattern → List Pattern
  | empty => []
  | seq ps => ps
  | p => [p]

/-- Joins pieces of text that follow each other. -/
def joinTexts : List Pattern → List Pattern
  | [] => []
  | text a :: rest =>
    match joinTexts rest with
    | text b :: more => text (a ++ b) :: more
    | more => text a :: more
  | p :: rest => p :: joinTexts rest

/-- Patterns in turn. -/
def sequence (ps : List Pattern) : Pattern :=
  match joinTexts (ps.flatMap parts) with
  | [] => empty
  | [p] => p
  | ps => seq ps

/-- The branches that a pattern brings to a choice. -/
def branches : Pattern → List Pattern
  | alt ps => ps
  | p => [p]

def singleChar? : Pattern → Option Char
  | text [c] => some c
  | _ => none

def charSet? : Pattern → Option CodeSet
  | set chars => some chars
  | _ => none

/-- What all of some branches begin with, as a number of parts. -/
def commonParts : List Pattern → List (List Pattern) → Nat
  | [], _ => 0
  | p :: ps, others =>
    if others.all fun qs => qs.head?.any (same p) then commonParts ps (others.map List.tail) + 1
    else 0

def sequenceParts? : Pattern → Option (List Pattern)
  | seq ps => some ps
  | _ => none

/-- A choice of at least two branches, none of which is a choice itself. -/
def alternatives (ps : List Pattern) : Pattern :=
  match ps.mapM singleChar? with
  | some chars => ofSet (.ofCodes (chars.map Char.toNat))
  | none =>
    match ps.mapM charSet? with
    | some sets => ofSet (.unions sets)
    | none => alt ps

/-- A choice between patterns. -/
def choice (ps : List Pattern) : Pattern :=
  match ps.flatMap branches with
  | [] => set .empty
  | [p] => p
  | p :: rest =>
    match sequenceParts? p, rest.mapM sequenceParts? with
    | some ps, some others =>
      let count := commonParts ps others
      if count = 0 then alt (p :: rest)
      else
        let ends := (ps :: others).map fun qs => sequence (qs.drop count)
        sequence (ps.take count ++ [alternatives (ends.flatMap branches)])
    | _, _ => alternatives (p :: rest)

end Pattern
end TemplateCache
