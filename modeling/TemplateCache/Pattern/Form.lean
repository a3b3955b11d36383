import TemplateCache.Pattern.Anchor

/-!
# The written form of patterns

A pattern as it is written, before its flags have been applied. `Form.depth` says how deep a form
nests.
-/

namespace TemplateCache.Pattern

/-- What can be turned on and off inside a pattern. -/
inductive Flag where
  | ignoreCase
  /-- The anchors of the text become those of its lines. -/
  | multiLine
  /-- The dot stands for line feeds too. -/
  | dotAll
  /-- Repetitions are greedy where they were not, and the other way round. -/
  | swapGreed
  | unicode
  /-- A carriage return ends a line too. -/
  | returns
  /-- Blanks are ignored, and so are comments behind a number sign. -/
  | verbose
  deriving DecidableEq, Repr

def Flag.ofLetter? : Char → Option Flag
  | 'i' => some ignoreCase
  | 'm' => some multiLine
  | 's' => some dotAll
  | 'U' => some swapGreed
  | 'u' => some unicode
  | 'R' => some returns
  | 'x' => some verbose
  | _ => none

/-- The flags that are turned on, and those that are turned off. -/
structure FlagChange where
  on : List Flag
  off : List Flag
  deriving DecidableEq, Repr

namespace FlagChange

def state? (change : FlagChange) (flag : Flag) : Option Bool :=
  if change.on.contains flag then some true
  else if change.off.contains flag then some false
  else none

def apply (change : FlagChange) (flag : Flag) (state : Bool) : Bool :=
  (change.state? flag).getD state

end FlagChange

/-- A character; `isByte` says that it is written as two hexadecimal digits. -/
structure Literal where
  char : Char
  isByte : Bool
  deriving DecidableEq, Repr

/-- The sets with an escape of their own. -/
inductive Shorthand where
  | digit
  | space
  | word
  deriving DecidableEq, Repr

inductive PropertyName where
  | name (name : String)
  | value (property value : String)
  deriving DecidableEq, Repr

inductive SetOperation where
  | inter
  | diff
  | symmetricDiff
  deriving DecidableEq, Repr

def SetOperation.apply : SetOperation → CodeSet → CodeSet → CodeSet
  | inter => CodeSet.inter
  | diff => CodeSet.diff
  | symmetricDiff => CodeSet.symmetricDiff

/-- A set as it is written between brackets. -/
inductive SetForm where
  | empty
  | literal (c : Literal)
  | range (first last : Literal)
  /-- A named set of ASCII characters. -/
  | ascii (chars : CodeSet) (negated : Bool)
  | property (name : PropertyName) (negated : Bool)
  | shorthand (kind : Shorthand) (negated : Bool)
  | bracketed (negated : Bool) (s : SetForm)
  | union (items : List SetForm)
  | operation (op : SetOperation) (left right : SetForm)

/-- The anchors as they are written. What a caret and a dollar sign mean depends on the flags. -/
inductive Mark where
  | caret
  | dollar
  | textStart
  | textEnd
  | word (side : WordSide)
  deriving DecidableEq, Repr

inductive GroupKind where
  /-- Groups that remember their piece of the text are counted from one. -/
  | numbered (number : Nat)
  | plain (change : FlagChange)
  deriving DecidableEq, Repr

inductive Form where
  | empty
  | literal (c : Literal)
  | dot
  | anchor (mark : Mark)
  | property (name : PropertyName) (negated : Bool)
  | shorthand (kind : Shorthand) (negated : Bool)
  | set (negated : Bool) (s : SetForm)
  /-- A change of flags that holds up to the end of the group around it. -/
  | flags (change : FlagChange)
  | times (f : Form) (min : Nat) (max : Option Nat) (greedy : Bool)
  | group (kind : GroupKind) (f : Form)
  | seq (items : List Form)
  | alt (branches : List Form)

namespace SetForm

def ofItems : List SetForm → SetForm
  | [] => empty
  | [s] => s
  | items => union items

mutual

def depth : SetForm → Nat
  | bracketed _ s => s.depth + 1
  | union items => greatestDepth items + 1
  | operation _ left right => max left.depth right.depth + 1
  | _ => 0

def greatestDepth : List SetForm → Nat
  | [] => 0
  | s :: rest => max s.depth (greatestDepth rest)

end

end SetForm

namespace Form

def ofItems : List Form → Form
  | [] => empty
  | [f] => f
  | items => seq items

def ofBranches : List Form → Form
  | [] => empty
  | [f] => f
  | branches => alt branches

mutual

def depth : Form → Nat
  | set _ s => s.depth + 1
  | times f _ _ _ => f.depth + 1
  | group _ f => f.depth + 1
  | seq items => greatestDepth items + 1
  | alt branches => greatestDepth branches + 1
  | _ => 0

def greatestDepth : List Form → Nat
  | [] => 0
  | f :: rest => max f.depth (greatestDepth rest)

end

end Form
end TemplateCache.Pattern
