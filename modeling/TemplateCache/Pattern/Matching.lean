import TemplateCache.Pattern.Basic

/-!
# Where pieces of a text end

A set of places of a text is a number: its bit `i` stands for the place behind `i` characters.
`Located.behind` leads from the places where pieces start to those where they end. Since a piece
never ends in front of its start, a repetition has led everywhere after as many times as the text
has places.
-/

namespace TemplateCache

/-- A set of places of a text. -/
abbrev Places := Nat

namespace Places

/-- The places so many characters behind some places. -/
def advance (places : Places) (count : Nat) : Places := places <<< count

def inter (a b : Places) : Places := a &&& b

def union (a b : Places) : Places := a ||| b

/-- The places of a set that another one lacks. -/
def diff (a b : Places) : Places := a ^^^ (a &&& b)

/-- The places whose answer is yes, the first place being the lowest bit. -/
def ofAnswers : List Bool → Places
  | [] => 0
  | yes :: rest => ofAnswers rest * 2 + yes.toNat

/-- The places in front of a character of a set. -/
def beforeSet (chars : CodeSet) (text : List Char) : Places := ofAnswers (text.map chars.contains)

/-- At which places of a text another one is found. -/
def foundFrom (chars : List Char) : List Char → List Bool
  | [] => [chars.isEmpty]
  | c :: rest => chars.isPrefixOf (c :: rest) :: foundFrom chars rest

def beforeText (chars text : List Char) : Places := ofAnswers (foundFrom chars text)

/-- The places where an anchor holds, with the character in front of the text. -/
def holdsFrom (a : Pattern.Anchor) (before : Option Char) : List Char → List Bool
  | [] => [a.holdsBetween before none]
  | c :: rest => a.holdsBetween before (some c) :: holdsFrom a (some c) rest

def ofAnchor (a : Pattern.Anchor) (text : List Char) : Places := ofAnswers (holdsFrom a none text)

/-- All places of a text. -/
def all (text : List Char) : Places := ofAnswers (true :: text.map fun _ => true)

/-- A step at most so many times; no step leads on from no places. -/
def steps (step : Places → Places) : (count : Nat) → Places → Places
  | 0, places => places
  | count + 1, places => if places = 0 then 0 else steps step count (step places)

/-- The places that a step leads to when it is taken at most so many times. `fresh` are the places
that it has not been taken from. -/
def reach (step : Places → Places) : (count : Nat) → (reached fresh : Places) → Places
  | 0, reached, _ => reached
  | count + 1, reached, fresh =>
    if fresh = 0 then reached
    else
      let found := diff (step fresh) reached
      reach step count (union reached found) found

/-- Between `min` and `max` steps, where no more than `limit` can make a difference. -/
def repeated (step : Places → Places) (limit min : Nat) (max : Option Nat) (places : Places) :
    Places :=
  let behind := steps step (Nat.min min limit) places
  reach step (max.elim limit fun max => Nat.min (max - min) limit) behind behind

end Places

namespace Pattern

/-- A pattern against a text: sets and anchors are given by the places where they are found. -/
inductive Located where
  /-- A number of characters in turn, given by the places in front of them. -/
  | chars (places : Places) (count : Nat)
  | anchor (places : Places)
  | times (p : Located) (min : Nat) (max : Option Nat)
  | seq (parts : List Located)
  | alt (branches : List Located)
  deriving Inhabited

mutual

/-- Finds the sets and anchors of a pattern in a text. -/
def locate (text : List Char) : Pattern → Located
  | empty => .seq []
  | .text chars => .chars (Places.beforeText chars text) chars.length
  | set chars => .chars (Places.beforeSet chars text) 1
  | anchor a => .anchor (Places.ofAnchor a text)
  | times p min max _ => .times (locate text p) min max
  | group _ p => locate text p
  | seq parts => .seq (locateAll text parts)
  | alt branches => .alt (locateAll text branches)

def locateAll (text : List Char) : List Pattern → List Located
  | [] => []
  | p :: rest => locate text p :: locateAll text rest

end

namespace Located

mutual

/-- The places where pieces end that start at some places of a text with `limit` places. -/
def behind (limit : Nat) : Located → Places → Places
  | chars front count, places => (places.inter front).advance count
  | anchor holds, places => places.inter holds
  | times p min max, places => Places.repeated (behind limit p) limit min max places
  | seq parts, places => behindAll limit parts places
  | alt branches, places => behindAny limit branches places

/-- Behind pieces in turn. -/
def behindAll (limit : Nat) : List Located → Places → Places
  | [], places => places
  | p :: rest, places => behindAll limit rest (behind limit p places)

/-- Behind a piece of any of some patterns. -/
def behindAny (limit : Nat) : List Located → Places → Places
  | [], _ => 0
  | p :: rest, places => (behind limit p places).union (behindAny limit rest places)

end

end Located

/-- Whether a text has a piece that a pattern describes. -/
def matchesIn (p : Pattern) (text : String) : Bool :=
  let chars := text.toList
  (locate chars p).behind (chars.length + 1) (Places.all chars) != 0

end Pattern
end TemplateCache
