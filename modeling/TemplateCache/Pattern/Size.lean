import Std.Data.HashMap
import TemplateCache.Pattern.Bytes

/-!
# The size of a pattern

A pattern is only accepted if the automata that read it forwards and backwards do not take too much
room. `Construction` lays an automaton out state by state without keeping it: it counts the bytes,
and stops where the limit is passed. `Pattern.fits` says whether both automata stay below it.
-/

namespace TemplateCache.Pattern

def sizeLimit : Nat := 10 * 1024 * 1024

/-- The states that an automaton has so far, and the bytes that they take. -/
structure Automaton where
  states : Nat
  size : Nat
  deriving Repr

/-- A step of laying an automaton out. There is no result where it would grow too large. -/
abbrev Construction := StateT Automaton Option

/-- What a piece of an automaton ends in. -/
inductive Exit where
  /-- A state with room for just one transition. -/
  | single
  /-- A state with a list of transitions, to which more can be added. -/
  | list
  deriving DecidableEq, Repr

namespace Construction

def stateSize : Nat := 32

def rangeSize : Nat := 8

def linkSize : Nat := 4

def grow (states size : Nat) : Construction Unit := fun a =>
  let a : Automaton := ⟨a.states + states, a.size + size⟩
  if sizeLimit < a.size then none else some ((), a)

/-- Adds a state that reads bytes of some ranges. The result is its number. -/
def addRanges (count : Nat) : Construction Nat := do
  let number := (← get).states
  grow 1 (stateSize + rangeSize * count)
  return number

def addState : Construction Nat := addRanges 0

/-- Adds a transition to the list of a state. -/
def addLink : Construction Unit := grow 0 linkSize

/-- Leads from the end of a piece to another state. -/
def leave : Exit → Construction Unit
  | .single => return ()
  | .list => addLink

/-! ## Sets of characters -/

/-- A transition on the bytes of a range. -/
structure Transition where
  range : ByteRange
  target : Nat
  deriving DecidableEq, Repr

/-- Mixes a number into a hash. -/
def mix (hash : UInt64) (n : Nat) : UInt64 := (hash ^^^ n.toUInt64) * 1099511628211

def hashStart : UInt64 := 14695981039346656037

/-- States that have been added, found by what they read. A slot of the table holds the last one
that fell into it. -/
structure KnownStates (α : Type) where
  slots : Nat
  table : Std.HashMap Nat (α × Nat)

namespace KnownStates

variable {α : Type} [DecidableEq α]

def empty (slots : Nat) : KnownStates α := ⟨slots, ∅⟩

def find? (known : KnownStates α) (key : α) (hash : UInt64) : Option Nat :=
  match known.table[hash.toNat % known.slots]? with
  | some (other, number) => if other = key then some number else none
  | none => none

def insert (known : KnownStates α) (key : α) (hash : UInt64) (number : Nat) : KnownStates α :=
  { known with table := known.table.insert (hash.toNat % known.slots) (key, number) }

end KnownStates

abbrev KnownLists := KnownStates (List Transition)

def hashOfList (transitions : List Transition) : UInt64 :=
  transitions.foldl (fun h t => mix (mix (mix h t.range.first) t.range.last) t.target) hashStart

/-- A state with some transitions, which is added unless it is known. -/
def stateOf (known : KnownLists) (transitions : List Transition) :
    Construction (Nat × KnownLists) := do
  let hash := hashOfList transitions
  match known.find? transitions hash with
  | some number => return (number, known)
  | none =>
    let number ← addRanges transitions.length
    return (number, known.insert transitions hash number)

/-- A state that may still get transitions, the newest first; the target of `last` is not added
yet. -/
structure OpenState where
  done : List Transition
  last : Option ByteRange

def OpenState.close (s : OpenState) (target : Nat) : List Transition :=
  match s.last with
  | some range => ⟨range, target⟩ :: s.done
  | none => s.done

/-- Adds open states, the innermost first, until `count` are left, of which the innermost leads to
the last one added. -/
def closeStates (known : KnownLists) (count target : Nat) :
    List OpenState → Construction (List OpenState × KnownLists)
  | [] => return ([], known)
  | s :: outer =>
    if outer.length < count then return (⟨s.close target, none⟩ :: outer, known)
    else do
      let (number, known) ← stateOf known (s.close target).reverse
      closeStates known count number outer

/-- How many ranges of a sequence the open states, the outermost first, already read. -/
def sharedRanges : List ByteRange → List OpenState → Nat
  | range :: ranges, s :: states =>
    if s.last = some range then sharedRanges ranges states + 1 else 0
  | _, _ => 0

/-- Opens the states that read a sequence behind the one that is innermost. -/
def openStates : List ByteRange → List OpenState → List OpenState
  | range :: ranges, s :: outer =>
    ranges.foldl (fun states r => ⟨[], some r⟩ :: states) (⟨s.done, some range⟩ :: outer)
  | _, states => states

/-- Adds the states that read sequences in ascending order. Those that share their start share the
states of it, and equal states are added once. -/
def addForward (target : Nat) (known : KnownLists) (states : List OpenState) :
    List (List ByteRange) → Construction Unit
  | [] => do
    let (states, known) ← closeStates known 1 target states
    match states with
    | s :: _ => discard (stateOf known s.done.reverse)
    | [] => return ()
  | ranges :: rest => do
    let shared := sharedRanges ranges states.reverse
    let (states, known) ← closeStates known (shared + 1) target states
    addForward target known (openStates (ranges.drop shared) states) rest

/-- A state that reads one range, and the one behind it. -/
abbrev KnownSteps := KnownStates (Nat × ByteRange)

def hashOfStep (behind : Nat) (range : ByteRange) : UInt64 :=
  mix (mix (mix hashStart behind) range.first) range.last

/-- Adds the states that read a sequence backwards; those that read its first ranges are shared. -/
def addSteps (known : KnownSteps) (behind : Nat) : List ByteRange → Construction KnownSteps
  | [] => return known
  | range :: rest => do
    let hash := hashOfStep behind range
    match known.find? (behind, range) hash with
    | some number => addSteps known number rest
    | none =>
      let number ← addState
      addSteps (known.insert (behind, range) hash number) number rest

def addBackward (target : Nat) (known : KnownSteps) : List (List ByteRange) → Construction Unit
  | [] => return ()
  | ranges :: rest => do
    let known ← addSteps known target ranges
    addLink
    addBackward target known rest

def addWide (backward : Bool) (sequences : List (List ByteRange)) : Construction Exit := do
  if backward then
    let _ ← addState
    let target ← addState
    addBackward target (.empty 1000) sequences
  else
    let target ← addState
    addForward target (.empty 10000) [⟨[], none⟩] sequences
  return .single

/-! ## Choices between texts -/

/-- The texts that are left behind a byte, for each first byte. -/
def groupByFirst (texts : List (List Nat)) : List (List (List Nat)) :=
  let firsts := (texts.filterMap List.head?).eraseDups
  firsts.map fun b => texts.filterMap fun t => if t.head? = some b then some t.tail else none

/-- Some texts between those that are empty. -/
def splitAtEmpty : List (List Nat) → List (List (List Nat))
  | [] => [[]]
  | [] :: rest => [] :: splitAtEmpty rest
  | t :: rest =>
    match splitAtEmpty rest with
    | first :: more => (t :: first) :: more
    | [] => [[t]]

/-- Adds a state for the texts that have a start in common, and those behind it. A text that ends
here is a boundary: texts in front of it and behind it do not share states. -/
def addTexts : (fuel : Nat) → List (List Nat) → Construction Unit
  | 0, _ => return ()
  | fuel + 1, texts => do
    let chunks := splitAtEmpty (texts.dropWhile List.isEmpty)
    let ends := chunks.length - 1 + (if texts.head?.any List.isEmpty then 1 else 0)
    let filled := chunks.filter fun chunk => !chunk.isEmpty
    for chunk in filled do
      let groups := groupByFirst chunk
      for texts in groups do
        if texts.any fun t => !t.isEmpty then addTexts fuel texts
      grow 1 (stateSize + if groups.length = 1 then 0 else rangeSize * groups.length)
    grow 1 (stateSize + linkSize * (filled.length + ends))

def text? : BytePattern → Option (List Nat)
  | .text bytes => some bytes
  | _ => none

/-! ## Patterns -/

/-- Something `n` times. -/
def iterate {α : Type} (step : α → Construction α) : (n : Nat) → α → Construction α
  | 0, a => return a
  | n + 1, a => do iterate step n (← step a)

/-- A piece several times in turn. -/
def exactly (piece : Construction Exit) (n : Nat) : Construction Exit := do
  if n = 0 then
    let _ ← addState
    return .single
  else
    iterate (fun exit => do
      let next ← piece
      leave exit
      return next) (n - 1) (← piece)

/-- A piece any number of times. One that may read nothing is passed by in a state of its own. -/
def any (piece : Construction Exit) (consumes : Bool) : Construction Exit := do
  if consumes then
    let _ ← addState
    let exit ← piece
    addLink
    leave exit
    return .list
  else
    let exit ← piece
    let _ ← addState
    leave exit
    addLink
    let _ ← addState
    let _ ← addState
    addLink
    addLink
    addLink
    return .single

def atLeast (piece : Construction Exit) (consumes : Bool) (n : Nat) : Construction Exit := do
  if n = 0 then any piece consumes
  else
    if 1 < n then
      let exit ← exactly piece (n - 1)
      let last ← piece
      let _ ← addState
      leave exit
      leave last
    else
      let exit ← piece
      let _ ← addState
      leave exit
    addLink
    return .list

def optional (piece : Construction Exit) : Construction Exit := do
  let _ ← addState
  let exit ← piece
  let _ ← addState
  addLink
  addLink
  leave exit
  return .single

def bounded (piece : Construction Exit) (min max : Nat) : Construction Exit := do
  let exit ← exactly piece min
  let _ ← addState
  let exit ← iterate (fun exit => do
    let _ ← addState
    let next ← piece
    leave exit
    addLink
    addLink
    return next) (max - min) exit
  leave exit
  return .single

def repetition (piece : Construction Exit) (consumes : Bool) (min : Nat) :
    (max : Option Nat) → Construction Exit
  | none => atLeast piece consumes min
  | some max =>
    if min = 0 ∧ max = 1 then optional piece
    else if min = max then exactly piece min
    else bounded piece min max

/-- A branch of a choice, which leads to the end of all. -/
def joinBranch (exit : Exit) : Construction Unit := do
  addLink
  leave exit

mutual

/-- Adds the states of a pattern. -/
def add (backward : Bool) : BytePattern → Construction Exit
  | .empty => do
    let _ ← addState
    return .single
  | .anchor => do
    let _ ← addState
    return .single
  | .text bytes => do
    grow bytes.length (stateSize * bytes.length)
    return .single
  | .narrow ranges => do
    let _ ← addState
    let _ ← addRanges ranges
    return .single
  | .wide sequences => addWide backward sequences
  | .times p consumes min max => repetition (add backward p) consumes min max
  | .group p => do
    if backward then add backward p
    else
      let _ ← addState
      let exit ← add backward p
      let _ ← addState
      leave exit
      return .single
  | .seq parts => addSeq backward parts
  | .alt branches => do
    match branches.mapM text? with
    | some texts =>
      let texts := if backward then texts.map List.reverse else texts
      let _ ← addState
      addTexts (texts.flatten.length + 1) texts
      return .single
    | none => addAlt backward branches

/-- Adds patterns in turn, the last one first if they are read backwards. -/
def addSeq (backward : Bool) : List BytePattern → Construction Exit
  | [] => do
    let _ ← addState
    return .single
  | [p] => add backward p
  | p :: rest =>
    if backward then do
      let exit ← addSeq backward rest
      let last ← add backward p
      leave exit
      return last
    else do
      let exit ← add backward p
      let last ← addSeq backward rest
      leave exit
      return last

/-- Adds a choice. The state that it starts from comes behind the second branch. -/
def addAlt (backward : Bool) : List BytePattern → Construction Exit
  | [] => do
    let _ ← addState
    return .single
  | [p] => add backward p
  | p :: q :: rest => do
    let first ← add backward p
    let second ← add backward q
    let _ ← addState
    let _ ← addState
    joinBranch first
    joinBranch second
    addBranches backward rest
    return .single

def addBranches (backward : Bool) : List BytePattern → Construction Unit
  | [] => return ()
  | p :: rest => do
    joinBranch (← add backward p)
    addBranches backward rest

end

/-- Adds what passes over the text in front of a piece, unless a piece can only be at the start. -/
def addStart (anchored : Bool) : Construction Exit := do
  if anchored then
    let _ ← addState
    return .single
  else any (do
    let _ ← addState
    let _ ← addRanges 1
    return .single) true

/-- Adds the automaton of a pattern. -/
def addAll (backward anchored : Bool) (p : BytePattern) : Construction Unit := do
  let start ← addStart anchored
  let exit ← add backward (if backward then p else .group p)
  let _ ← addState
  leave exit
  leave start

end Construction

/-! ## Anchored patterns -/

def isEmptyOnly (p : Pattern) : Bool := maxLength p == some 0

mutual

/-- Whether a piece can only be found at a certain end of the text: at the start, or at the end if
`backward` is set. -/
def isAnchored (backward : Bool) : Pattern → Bool
  | anchor a => a == if backward then .textEnd else .textStart
  | times p min _ _ => 0 < min && isAnchored backward p
  | group _ p => isAnchored backward p
  | seq parts =>
    if backward then (isAnchoredBehind backward parts).1 else isAnchoredBefore backward parts
  | alt branches => areAnchored backward branches
  | _ => false

/-- Whether the parts up to the first that has bytes are anchored. -/
def isAnchoredBefore (backward : Bool) : List Pattern → Bool
  | [] => false
  | p :: rest => isAnchored backward p || (isEmptyOnly p && isAnchoredBefore backward rest)

/-- Whether the parts from the last that has bytes on are anchored, and whether none has bytes. -/
def isAnchoredBehind (backward : Bool) : List Pattern → Bool × Bool
  | [] => (false, true)
  | p :: rest =>
    let (found, blank) := isAnchoredBehind backward rest
    (found || (blank && isAnchored backward p), blank && isEmptyOnly p)

def areAnchored (backward : Bool) : List Pattern → Bool
  | [] => true
  | p :: rest => isAnchored backward p && areAnchored backward rest

end

/-- The size of the automaton of a pattern, if it is within the limit. -/
def size? (backward : Bool) (p : Pattern) : Option Nat :=
  ((Construction.addAll backward (isAnchored backward p) (bytes p)).run ⟨0, 0⟩).map (·.2.size)

def fits (p : Pattern) : Bool := (size? false p).isSome && (size? true p).isSome

end TemplateCache.Pattern
