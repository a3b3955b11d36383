import TemplateCache.Pattern.Form.Escape

/-!
# Sets between brackets

A set lists characters, ranges and other sets, and `&&`, `--` and `~~` combine what is listed on
either side of them. Sets may stand inside of sets.
-/

namespace TemplateCache.Pattern

/-- How deep a pattern may nest. -/
def nestingLimit : Nat := 250

/-- A set that is still open. Its items are those behind the last operator, the newest first. -/
structure OpenSet where
  negated : Bool
  items : List SetForm
  pending : Option (SetForm × SetOperation)

namespace OpenSet

/-- The set as it has been read so far. -/
def combined (o : OpenSet) : SetForm :=
  let behind := SetForm.ofItems o.items.reverse
  match o.pending with
  | none => behind
  | some (front, op) => .operation op front behind

def add (o : OpenSet) (item : SetForm) : OpenSet := { o with items := item :: o.items }

def operator (o : OpenSet) (op : SetOperation) : OpenSet :=
  { o with items := [], pending := some (o.combined, op) }

end OpenSet

/-- Reads the start of a set behind its bracket: a caret, hyphens, and a closing bracket that stands
for itself since the set is empty in front of it. -/
def openSet (verbose : Bool) (input : List Char) : OpenSet × List Char :=
  let (negated, rest) :=
    match skip verbose input with
    | '^' :: rest => (true, skip verbose rest)
    | rest => (false, rest)
  match take verbose (· == '-') rest with
  | ([], ']' :: rest) => (⟨negated, [.literal ⟨']', false⟩], none⟩, rest)
  | (hyphens, rest) => (⟨negated, hyphens.map fun c => .literal ⟨c, false⟩, none⟩, rest)

def Form.setItem? : Form → Option SetForm
  | literal c => some (.literal c)
  | property name negated => some (.property name negated)
  | shorthand kind negated => some (.shorthand kind negated)
  | _ => none

def Form.literal? : Form → Option Literal
  | literal c => some c
  | _ => none

/-- A character or an escape. -/
def setItem? (verbose : Bool) : List Char → Option (Form × List Char)
  | [] => none
  | '\\' :: rest => escape? verbose rest
  | c :: rest => some (.literal ⟨c, false⟩, rest)

/-- An item or a range of characters. A hyphen makes no range where a bracket or another hyphen is
behind it. -/
def setRange? (verbose : Bool) (input : List Char) : Option (SetForm × List Char) := do
  let (first, rest) ← setItem? verbose input
  match skip verbose rest with
  | [] => none
  | '-' :: more =>
    let next := peek? verbose more
    if next == some ']' || next == some '-' then return (← first.setItem?, '-' :: more)
    else
      let (last, rest) ← setItem? verbose (skip verbose more)
      let a ← first.literal?
      let b ← last.literal?
      if b.char < a.char then none else return (.range a b, rest)
  | rest => return (← first.setItem?, rest)

/-- A named set of ASCII characters in brackets of its own, read behind the opening one. -/
def asciiItem? (input : List Char) : Option (SetForm × List Char) :=
  match input with
  | ':' :: rest =>
    let (negated, named) :=
      match rest with
      | '^' :: more => (true, more)
      | more => (false, more)
    match named.dropWhile (· != ':') with
    | ':' :: ']' :: rest =>
      (asciiClass? (String.ofList (named.takeWhile (· != ':')))).map fun chars =>
        (.ascii chars negated, rest)
    | _ => none
  | _ => none

/-- Reads to the end of a set; `outer` are the open sets around it. -/
def closeSet? (verbose : Bool) :
    (fuel : Nat) → OpenSet → (outer : List OpenSet) → List Char → Option (Form × List Char)
  | 0, _, _, _ => none
  | fuel + 1, o, outer, input =>
    match skip verbose input with
    | [] => none
    | ']' :: rest =>
      match outer with
      | [] => some (.set o.negated o.combined, rest)
      | p :: outer => closeSet? verbose fuel (p.add (.bracketed o.negated o.combined)) outer rest
    | '[' :: rest =>
      match asciiItem? rest with
      | some (item, rest) => closeSet? verbose fuel (o.add item) outer rest
      | none =>
        if nestingLimit ≤ outer.length + 1 then none
        else
          let (inner, rest) := openSet verbose rest
          closeSet? verbose fuel inner (o :: outer) rest
    | '&' :: '&' :: rest => closeSet? verbose fuel (o.operator .inter) outer rest
    | '-' :: '-' :: rest => closeSet? verbose fuel (o.operator .diff) outer rest
    | '~' :: '~' :: rest => closeSet? verbose fuel (o.operator .symmetricDiff) outer rest
    | rest => do
      let (item, rest) ← setRange? verbose rest
      closeSet? verbose fuel (o.add item) outer rest

/-- Reads a set behind its opening bracket. -/
def set? (verbose : Bool) (input : List Char) : Option (Form × List Char) :=
  let (o, rest) := openSet verbose input
  closeSet? verbose (input.length + 1) o [] rest

end TemplateCache.Pattern
