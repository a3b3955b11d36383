import TemplateCache.Pattern.Form.Set

/-!
# Reading patterns

`Form.parse?` reads alternatives, groups with names and flags, repetitions, anchors, escapes and
sets. Look-around and references to groups do not exist.
-/

namespace TemplateCache.Pattern

/-! ## Repetitions -/

/-- The bounds of a repetition, read behind the opening brace. -/
def bounds? (verbose : Bool) (input : List Char) : Option (Nat × Option Nat × List Char) := do
  let (min, rest) ← number? verbose (skip verbose input)
  match rest with
  | ',' :: more =>
    match skip verbose more with
    | '}' :: rest => return (min, none, rest)
    | more =>
      let (max, rest) ← number? verbose more
      match rest with
      | '}' :: rest => if max < min then none else return (min, some max, rest)
      | _ => none
  | '}' :: rest => return (min, some min, rest)
  | _ => none

/-- A question mark behind a repetition turns its greed off. -/
def greed : List Char → Bool × List Char
  | '?' :: rest => (false, rest)
  | rest => (true, rest)

/-! ## Groups -/

def FlagChange.add (change : FlagChange) (flag : Flag) (state : Bool) : FlagChange :=
  if state then { change with on := flag :: change.on }
  else { change with off := flag :: change.off }

/-- Reads the letters of flags up to a colon or parenthesis, which stays in the rest. A hyphen, of
which there may be one with letters behind it, turns off what follows; no letter comes twice. -/
def flags? : (hyphen dangling : Bool) → FlagChange → List Char → Option (FlagChange × List Char)
  | _, _, _, [] => none
  | hyphen, dangling, change, c :: rest =>
    if c = ':' ∨ c = ')' then if dangling then none else some (change, c :: rest)
    else if c = '-' then if hyphen then none else flags? true true change rest
    else
      match Flag.ofLetter? c with
      | none => none
      | some flag =>
        if (change.state? flag).isSome then none
        else flags? hyphen false (change.add flag !hyphen) rest

def isNameStart (c : Char) : Bool := c == '_' || Unicode.alphabetic.contains c

def numeric : CodeSet := Unicode.Category.setOf [.nd, .nl, .no]

def isNameChar (c : Char) : Bool :=
  isNameStart c || ['.', '[', ']'].contains c || numeric.contains c

/-- The name of a group, up to its closing angle bracket. -/
def groupName? (input : List Char) : Option (String × List Char) :=
  match input.span (· != '>') with
  | (c :: more, _ :: rest) =>
    if isNameStart c && more.all isNameChar then some (String.ofList (c :: more), rest) else none
  | _ => none

/-- A group that is still open, with what was read in front of it. -/
structure OpenGroup where
  kind : GroupKind
  items : List Form
  branches : List Form
  verbose : Bool

/-- How far a pattern has been read. Items and branches of the innermost open group are listed with
the newest first. -/
structure Reading where
  rest : List Char
  verbose : Bool
  names : List String
  groups : Nat
  items : List Form
  branches : List Form
  outer : List OpenGroup

namespace Reading

def start (input : List Char) : Reading := ⟨input, false, [], 0, [], [], []⟩

def add (r : Reading) (item : Form) (rest : List Char) : Reading :=
  { r with items := item :: r.items, rest }

/-- What the innermost open group holds. -/
def content (r : Reading) : Form :=
  .ofBranches (Form.ofItems r.items.reverse :: r.branches).reverse

def branch (r : Reading) (rest : List Char) : Reading :=
  { r with items := [], branches := Form.ofItems r.items.reverse :: r.branches, rest }

/-- Repeats the last item. Flags cannot be repeated. -/
def repeat? (r : Reading) (min : Nat) (max : Option Nat) (greed : Bool × List Char) :
    Option Reading :=
  match r.items with
  | [] => none
  | .flags _ :: _ => none
  | f :: items => some { r with items := .times f min max greed.1 :: items, rest := greed.2 }

def openGroup? (r : Reading) (kind : GroupKind) (verbose : Bool) (rest : List Char) :
    Option Reading :=
  if nestingLimit ≤ r.outer.length then none
  else
    let outer := ⟨kind, r.items, r.branches, r.verbose⟩ :: r.outer
    some { r with items := [], branches := [], verbose, rest, outer }

def openNumbered? (r : Reading) (rest : List Char) : Option Reading :=
  let number := r.groups + 1
  openGroup? { r with groups := number } (.numbered number) r.verbose rest

def openNamed? (r : Reading) (input : List Char) : Option Reading := do
  let (name, rest) ← groupName? input
  if r.names.contains name then none else openNumbered? { r with names := name :: r.names } rest

/-- Flags in parentheses of their own change what follows; before a colon, what the group holds. -/
def openFlags? (r : Reading) (input : List Char) : Option Reading := do
  let (change, rest) ← flags? false false ⟨[], []⟩ input
  let verbose := change.apply .verbose r.verbose
  match rest with
  | ')' :: rest =>
    if change.on.isEmpty && change.off.isEmpty then none
    else return { r.add (.flags change) rest with verbose }
  | _ :: rest => r.openGroup? (.plain change) verbose rest
  | [] => none

/-- Opens a group behind its parenthesis. -/
def open? (r : Reading) (input : List Char) : Option Reading :=
  match skip r.verbose input with
  | '?' :: '=' :: _ => none
  | '?' :: '!' :: _ => none
  | '?' :: '<' :: '=' :: _ => none
  | '?' :: '<' :: '!' :: _ => none
  | '?' :: 'P' :: '<' :: rest => r.openNamed? rest
  | '?' :: '<' :: rest => r.openNamed? rest
  | '?' :: rest => r.openFlags? rest
  | rest => r.openNumbered? rest

def close? (r : Reading) (rest : List Char) : Option Reading :=
  match r.outer with
  | [] => none
  | o :: outer =>
    some { r with
      items := .group o.kind r.content :: o.items
      branches := o.branches
      verbose := o.verbose
      rest, outer }

/-- Reads on, from a character that is not ignored. -/
def step? (r : Reading) : List Char → Option Reading
  | [] => none
  | '(' :: rest => r.open? rest
  | ')' :: rest => r.close? rest
  | '|' :: rest => some (r.branch rest)
  | '[' :: rest => (set? r.verbose rest).map fun (f, rest) => r.add f rest
  | '?' :: rest => r.repeat? 0 (some 1) (greed rest)
  | '*' :: rest => r.repeat? 0 none (greed rest)
  | '+' :: rest => r.repeat? 1 none (greed rest)
  | '{' :: rest => do
    let (min, max, rest) ← bounds? r.verbose rest
    r.repeat? min max (greed (skip r.verbose rest))
  | '\\' :: rest => (escape? r.verbose rest).map fun (f, rest) => r.add f rest
  | '.' :: rest => some (r.add .dot rest)
  | '^' :: rest => some (r.add (.anchor .caret) rest)
  | '$' :: rest => some (r.add (.anchor .dollar) rest)
  | c :: rest => some (r.add (.literal ⟨c, false⟩) rest)

/-- Reads to the end, where no group may be open. -/
def finish? : (fuel : Nat) → Reading → Option Form
  | 0, _ => none
  | fuel + 1, r =>
    match skip r.verbose r.rest with
    | [] => if r.outer.isEmpty then some r.content else none
    | rest => (r.step? rest).bind (finish? fuel)

end Reading

/-- The form of a text. -/
def Form.parse? (source : String) : Option Form := do
  let input := source.toList
  let f ← (Reading.start input).finish? (input.length + 1)
  if nestingLimit < f.depth then none else return f

end TemplateCache.Pattern
