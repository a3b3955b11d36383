import TemplateCache.Pattern.Basic
import TemplateCache.Pattern.Form

/-!
# The meaning of written patterns

`Form.meaning?` applies the flags of a form. Without the flag `unicode` a pattern can only name
characters of ASCII, apart from those that stand for themselves.
-/

namespace TemplateCache.Pattern

/-- The flags in force at a place of a form. -/
structure Flags where
  ignoreCase : Bool := false
  multiLine : Bool := false
  dotAll : Bool := false
  swapGreed : Bool := false
  unicode : Bool := true
  returns : Bool := false
  deriving DecidableEq, Repr

namespace Flags

def change (flags : Flags) (c : FlagChange) : Flags where
  ignoreCase := c.apply .ignoreCase flags.ignoreCase
  multiLine := c.apply .multiLine flags.multiLine
  dotAll := c.apply .dotAll flags.dotAll
  swapGreed := c.apply .swapGreed flags.swapGreed
  unicode := c.apply .unicode flags.unicode
  returns := c.apply .returns flags.returns

/-- A set with what differs from it in case alone, where that is ignored. -/
def fold (flags : Flags) (s : CodeSet) : CodeSet :=
  if !flags.ignoreCase then s else if flags.unicode then s.folded else s.foldedAscii

/-- The characters outside a set, of which there are some beyond ASCII. -/
def complement? (flags : Flags) (s : CodeSet) : Option CodeSet :=
  if flags.unicode then some s.complement else none

/-- Case is folded first, so that a negated set has no letter in either case. -/
def foldAndNegate? (flags : Flags) (negated : Bool) (s : CodeSet) : Option CodeSet :=
  if negated then flags.complement? (flags.fold s) else some (flags.fold s)

/-- Without Unicode two hexadecimal digits write a byte, which has to be a character. -/
def accepts (flags : Flags) (c : Literal) : Bool :=
  flags.unicode || !c.isByte || c.char.toNat < 0x80

/-- A character in a set, which needs Unicode beyond ASCII. -/
def setChar? (flags : Flags) (c : Literal) : Option Nat :=
  if flags.unicode || c.char.toNat < 0x80 then some c.char.toNat else none

/-- Letters outside ASCII have no case without Unicode. -/
def literal? (flags : Flags) (c : Literal) : Option Pattern :=
  if !flags.accepts c then none
  else if flags.unicode || c.char.toNat < 0x80 then some (.ofSet (flags.fold (.single c.char)))
  else some (.text [c.char])

def dot? (flags : Flags) : Option CodeSet :=
  if !flags.unicode then none
  else if flags.dotAll then some .all
  else if flags.returns then some (CodeSet.ofCodes [0x0a, 0x0d]).complement
  else some (CodeSet.single '\n').complement

def anchor (flags : Flags) : Mark → Anchor
  | .caret => if flags.multiLine then .lineStart flags.returns else .textStart
  | .dollar => if flags.multiLine then .lineEnd flags.returns else .textEnd
  | .textStart => .textStart
  | .textEnd => .textEnd
  | .word side => .word (!flags.unicode) side

/-- Shorthands hold both cases of what they hold. -/
def shorthand? (flags : Flags) (kind : Shorthand) (negated : Bool) : Option CodeSet :=
  let chars :=
    match flags.unicode, kind with
    | true, .digit => Unicode.decimalDigits
    | true, .space => Unicode.whiteSpace
    | true, .word => Unicode.wordCharacters
    | false, .digit => asciiDigit
    | false, .space => asciiSpace
    | false, .word => asciiWord
  if negated then flags.complement? chars else some chars

def property? (flags : Flags) (name : PropertyName) (negated : Bool) : Option CodeSet :=
  if !flags.unicode then none
  else
    let found :=
      match name with
      | .name name => Unicode.named? name
      | .value property value => Unicode.valued? property value
    found.bind (flags.foldAndNegate? negated)

end Flags

namespace SetForm

mutual

/-- The characters of a set. What an operation applies to is folded before. -/
def meaning? (flags : Flags) : SetForm → Option CodeSet
  | empty => some .empty
  | literal c => (flags.setChar? c).map fun n => .range n n
  | range first last => return .range (← flags.setChar? first) (← flags.setChar? last)
  | ascii chars negated => flags.foldAndNegate? negated chars
  | property name negated => flags.property? name negated
  | shorthand kind negated => flags.shorthand? kind negated
  | bracketed negated s => (s.meaning? flags).bind (flags.foldAndNegate? negated)
  | union items => (itemMeanings? flags items).map CodeSet.unions
  | operation op left right =>
    return op.apply (flags.fold (← left.meaning? flags)) (flags.fold (← right.meaning? flags))

def itemMeanings? (flags : Flags) : List SetForm → Option (List CodeSet)
  | [] => some []
  | s :: rest => return (← s.meaning? flags) :: (← itemMeanings? flags rest)

end

end SetForm

namespace Form

mutual

/-- The pattern of a form, and the flags in force behind it. -/
def meaningWith? (flags : Flags) : Form → Option (Pattern × Flags)
  | empty => some (.empty, flags)
  | literal c => (flags.literal? c).map fun p => (p, flags)
  | dot => flags.dot?.map fun s => (.ofSet s, flags)
  | anchor mark => some (.anchor (flags.anchor mark), flags)
  | property name negated => (flags.property? name negated).map fun s => (.ofSet s, flags)
  | shorthand kind negated => (flags.shorthand? kind negated).map fun s => (.ofSet s, flags)
  | set negated s =>
    ((s.meaning? flags).bind (flags.foldAndNegate? negated)).map fun s => (.ofSet s, flags)
  | Form.flags change => some (.empty, flags.change change)
  | times f min max greedy => do
    let (p, flags) ← f.meaningWith? flags
    return (p.repeated min max (greedy != flags.swapGreed), flags)
  | group (.numbered number) f => do
    let (p, _) ← f.meaningWith? flags
    return (.group number p, flags)
  | group (.plain change) f => do
    let (p, _) ← f.meaningWith? (flags.change change)
    return (p, flags)
  | seq items => do
    let (ps, flags) ← meaningsWith? flags items
    return (.sequence ps, flags)
  | alt branches => do
    let (ps, flags) ← meaningsWith? flags branches
    return (.choice ps, flags)

/-- The patterns of some forms, each with the flags that the one before has left. -/
def meaningsWith? (flags : Flags) : List Form → Option (List Pattern × Flags)
  | [] => some ([], flags)
  | f :: rest => do
    let (p, flags) ← f.meaningWith? flags
    let (ps, flags) ← meaningsWith? flags rest
    return (p :: ps, flags)

end

def meaning? (f : Form) : Option Pattern := (f.meaningWith? {}).map (·.1)

end Form
end TemplateCache.Pattern
