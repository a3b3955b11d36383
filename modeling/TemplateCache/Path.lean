/-!
# Slash-separated paths

A path keeps its text; what it names is its list of parts. Repeated and trailing slashes and inner
`.` segments are no parts, a leading slash is the root, and a `.` that starts a relative path is
kept. Two paths are equal, and are ordered, by their parts.
-/

namespace TemplateCache

/-- One part of a path. -/
inductive Part where
  | root
  | current
  | parent
  | normal (name : String)
  deriving DecidableEq, Repr

namespace Part

def rank : Part → Nat
  | root => 0
  | current => 1
  | parent => 2
  | normal _ => 3

def name : Part → String
  | normal name => name
  | _ => ""

def lt (a b : Part) : Bool := a.rank < b.rank || (a.rank == b.rank && a.name < b.name)

def normal? : Part → Option String
  | normal name => some name
  | _ => none

end Part

structure Path where
  text : String
  deriving DecidableEq, Repr, Inhabited

/-- A part and where it stands in the text. -/
structure Span where
  part : Part
  start : Nat
  stop : Nat
  deriving Repr

namespace Path

def isAbsolute (p : Path) : Bool := p.text.toList.head? == some '/'

/-- The parts of the text from `start` on; `segment` is the segment read so far, reversed. -/
def spansFrom : List Char → (start : Nat) → (segment : List Char) → List Span
  | [], start, segment => close start segment
  | c :: rest, start, segment =>
    if c = '/' then close start segment ++ spansFrom rest (start + segment.length + 1) []
    else spansFrom rest start (c :: segment)
where
  close (start : Nat) (segment : List Char) : List Span :=
    let stop := start + segment.length
    match segment.reverse with
    | [] => []
    | ['.'] => if start = 0 then [⟨.current, 0, 1⟩] else []
    | ['.', '.'] => [⟨.parent, start, stop⟩]
    | name => [⟨.normal (String.ofList name), start, stop⟩]

def spans (p : Path) : List Span :=
  match p.text.toList with
  | '/' :: rest => ⟨.root, 0, 1⟩ :: spansFrom rest 1 []
  | chars => spansFrom chars 0 []

def parts (p : Path) : List Part := p.spans.map (·.part)

def same (p q : Path) : Bool := p.parts == q.parts

def lt (p q : Path) : Bool := ltParts p.parts q.parts
where
  ltParts : List Part → List Part → Bool
    | [], [] => false
    | [], _ :: _ => true
    | _ :: _, [] => false
    | a :: as, b :: bs => a.lt b || (a == b && ltParts as bs)

/-- Sorts by parts; paths with the same parts keep their order. -/
def sort (paths : List Path) : List Path := paths.mergeSort fun p q => !q.lt p

/-- Drops each path that has the parts of the one before it. -/
def dedup : List Path → List Path
  | p :: q :: rest => if p.same q then dedup (p :: rest) else p :: dedup (q :: rest)
  | paths => paths

/-- The text between two places. -/
def slice (p : Path) (start stop : Nat) : Path :=
  ⟨String.ofList ((p.text.toList.take stop).drop start)⟩

/-- The paths above the last of some parts, given from the end; the nearest comes first. -/
def aboveSpans (p : Path) : List Span → List Path
  | [] => []
  | last :: before =>
    if last.part == .root then []
    else
      match before with
      | [] => [⟨""⟩]
      | previous :: _ => p.slice 0 previous.stop :: p.aboveSpans before

/-- The path and all paths above it. -/
def ancestors (p : Path) : List Path := p :: p.aboveSpans p.spans.reverse

/-- The path below which the last part lies; none for a root and for a path without parts. -/
def parent? (p : Path) : Option Path := (p.aboveSpans p.spans.reverse).head?

def fileName? (p : Path) : Option String := p.spans.getLast?.bind (·.part.normal?)

/-- Splits a file name at its last dot. A dot in front does not split it. -/
def splitName (name : String) : String × Option String :=
  let reversed := name.toList.reverse
  let after := reversed.takeWhile (· != '.')
  match reversed.dropWhile (· != '.') with
  | [] => (name, none)
  | [_] => (name, none)
  | _ :: before => (String.ofList before.reverse, some (String.ofList after.reverse))

/-- The text behind the last dot of the file name. -/
def extension? (p : Path) : Option String := p.fileName?.bind fun n => (splitName n).2

/-- The path without the extension of its file name. -/
def withoutExtension (p : Path) : Path :=
  match p.spans.getLast? with
  | some ⟨.normal name, start, _⟩ => p.slice 0 (start + (splitName name).1.length)
  | _ => p

/-- Appends a path; an absolute one replaces what is there. -/
def join (p q : Path) : Path :=
  if q.isAbsolute then q
  else if p.text.isEmpty then q
  else if p.text.toList.getLast? == some '/' then ⟨p.text ++ q.text⟩
  else ⟨p.text ++ "/" ++ q.text⟩

/-- The path made of normal parts only. -/
def ofNames (names : List String) : Path := ⟨"/".intercalate names⟩

/-- The normal parts of a path. -/
def normalNames (p : Path) : List String := p.parts.filterMap Part.normal?

/-- What is left of a path below another one. -/
def stripPrefix? (p base : Path) : Option Path :=
  if base.parts.isPrefixOf p.parts then
    match p.spans.drop base.parts.length with
    | [] => some ⟨""⟩
    | first :: rest => some (p.slice first.start ((rest.getLast?.getD first).stop))
  else none

/-- Replaces the file name, or appends one where the path ends in none. -/
def withFileName (p : Path) (name : String) : Path :=
  if p.fileName?.isSome then ((p.parent?).getD ⟨""⟩).join ⟨name⟩ else p.join ⟨name⟩

end Path
end TemplateCache
