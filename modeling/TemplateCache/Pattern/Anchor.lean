import TemplateCache.Pattern.Ascii
import TemplateCache.Unicode.Query

/-!
# Anchors

An anchor holds at a place of a text or not; it takes up no characters.
-/

namespace TemplateCache.Pattern

/-- What has to be the case with the characters before and behind a place. -/
inductive WordSide where
  /-- One of the two belongs to a word and the other does not. -/
  | boundary
  | noBoundary
  | start
  | «end»
  /-- Nothing of a word is before the place. -/
  | startHalf
  /-- Nothing of a word is behind the place. -/
  | endHalf
  deriving DecidableEq, Repr

def WordSide.accepts (before behind : Bool) : WordSide → Bool
  | boundary => before != behind
  | noBoundary => before == behind
  | start => !before && behind
  | «end» => before && !behind
  | startHalf => !before
  | endHalf => !behind

inductive Anchor where
  | textStart
  | textEnd
  /-- Start or end of a line; `returns` lets a carriage return end lines too. -/
  | lineStart (returns : Bool)
  | lineEnd (returns : Bool)
  /-- Whether the characters around belong to words, of which `ascii` ones have only ASCII. -/
  | word (ascii : Bool) (side : WordSide)
  deriving DecidableEq, Repr

namespace Anchor

/-- Whether an anchor holds between two characters, of which either is missing at an end. -/
def holdsBetween (before behind : Option Char) : Anchor → Bool
  | textStart => before.isNone
  | textEnd => behind.isNone
  | lineStart returns =>
    match before with
    | none => true
    | some '\n' => true
    | some '\r' => returns && behind != some '\n'
    | some _ => false
  | lineEnd returns =>
    match behind with
    | none => true
    | some '\n' => !(returns && before == some '\r')
    | some '\r' => returns
    | some _ => false
  | word ascii side =>
    let chars := if ascii then asciiWord else Unicode.wordCharacters
    side.accepts (before.any chars.contains) (behind.any chars.contains)

end Anchor
end TemplateCache.Pattern
