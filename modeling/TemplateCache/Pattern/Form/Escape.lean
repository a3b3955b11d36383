import TemplateCache.Pattern.Form
import TemplateCache.Pattern.Form.Scan
import TemplateCache.Text.Find

/-!
# Escapes

What stands behind a backslash: a character that would have a meaning without it, the code of a
character, a named set or an anchor.
-/

namespace TemplateCache.Pattern

def isMeta (c : Char) : Bool :=
  ['\\', '.', '+', '*', '?', '(', ')', '|', '[', ']', '{', '}', '^', '$', '#', '&', '-',
    '~'].contains c

/-- Characters that stand for themselves behind a backslash. -/
def isEscapable (c : Char) : Bool :=
  isMeta c || (c.toNat < 0x80 && !c.isAlphanum && c != '<' && c != '>')

/-- A character by its code: in braces, or in exactly `count` digits. -/
def hexLiteral? (verbose : Bool) (count : Nat) (input : List Char) :
    Option (Literal × List Char) :=
  match skip verbose input with
  | [] => none
  | '{' :: more =>
    match take verbose Text.isHexDigit more with
    | (digits, '}' :: rest) => (hexChar? digits).map fun c => (⟨c, false⟩, rest)
    | _ => none
  | digits => do
    let (digits, rest) ← takeHex? verbose count digits
    return (⟨← hexChar? digits, count == 2⟩, rest)

/-- What is in front of a separator and behind it. -/
def splitName? (separator name : List Char) : Option (String × String) :=
  (Text.splitFirst? separator name).map fun (front, behind) =>
    (String.ofList front, String.ofList behind)

/-- The property that a text in braces names. A value may be one that characters must not have. -/
def ofPropertyName (name : List Char) (negated : Bool) : Form :=
  match splitName? ['!', '='] name with
  | some (property, value) => .property (.value property value) !negated
  | none =>
    match (splitName? [':'] name).orElse fun _ => splitName? ['='] name with
    | some (property, value) => .property (.value property value) negated
    | none => .property (.name (String.ofList name)) negated

/-- A property, by its name in braces or by one letter. -/
def property? (verbose negated : Bool) (input : List Char) : Option (Form × List Char) :=
  match skip verbose input with
  | [] => none
  | '{' :: more =>
    match take verbose (· != '}') more with
    | (name, _ :: rest) => some (ofPropertyName name negated, rest)
    | (_, []) => none
  | '\\' :: _ => none
  | c :: rest => some (.property (.name (String.singleton c)) negated, rest)

def wordSide? : String → Option WordSide
  | "start" => some .start
  | "end" => some .end
  | "start-half" => some .startHalf
  | "end-half" => some .endHalf
  | _ => none

/-- The edge of a word, which a name in braces may tell more of. Braces that hold something else are
a repetition. -/
def wordEdge? (verbose : Bool) (input : List Char) : Option (Form × List Char) :=
  let isName (c : Char) : Bool := c.isAlpha || c == '-'
  match input with
  | '{' :: more =>
    match skip verbose more with
    | [] => none
    | c :: rest =>
      if !isName c then some (.anchor (.word .boundary), input)
      else
        match take verbose isName (c :: rest) with
        | (name, '}' :: rest) =>
          (wordSide? (String.ofList name)).map fun side => (.anchor (.word side), rest)
        | _ => none
  | _ => some (.anchor (.word .boundary), input)

/-- What an escape means whose letter is all there is of it. -/
def plainEscape? (c : Char) : Option Form :=
  if isEscapable c then some (.literal ⟨c, false⟩)
  else
    match c with
    | 'a' => some (.literal ⟨'\x07', false⟩)
    | 'f' => some (.literal ⟨'\x0c', false⟩)
    | 't' => some (.literal ⟨'\t', false⟩)
    | 'n' => some (.literal ⟨'\n', false⟩)
    | 'r' => some (.literal ⟨'\r', false⟩)
    | 'v' => some (.literal ⟨'\x0b', false⟩)
    | 'd' => some (.shorthand .digit false)
    | 'D' => some (.shorthand .digit true)
    | 's' => some (.shorthand .space false)
    | 'S' => some (.shorthand .space true)
    | 'w' => some (.shorthand .word false)
    | 'W' => some (.shorthand .word true)
    | 'A' => some (.anchor .textStart)
    | 'z' => some (.anchor .textEnd)
    | 'B' => some (.anchor (.word .noBoundary))
    | '<' => some (.anchor (.word .start))
    | '>' => some (.anchor (.word .end))
    | _ => none

/-- Reads an escape behind its backslash. -/
def escape? (verbose : Bool) : List Char → Option (Form × List Char)
  | [] => none
  | c :: rest =>
    let hex? (count : Nat) : Option (Form × List Char) :=
      (hexLiteral? verbose count rest).map fun (l, rest) => (.literal l, rest)
    match c with
    | 'x' => hex? 2
    | 'u' => hex? 4
    | 'U' => hex? 8
    | 'p' => property? verbose false rest
    | 'P' => property? verbose true rest
    | 'b' => wordEdge? verbose rest
    | _ => (plainEscape? c).map fun f => (f, rest)

end TemplateCache.Pattern
