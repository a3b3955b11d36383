import TemplateCache.Error
import TemplateCache.KeyMap
import TemplateCache.Path

/-!
# A tree of files

Files, directories and symbolic links by where they are. A path is resolved part by part; links on
the way are followed, at most `linkBudget` of them, and one in the last place only where an
operation asks for it. Every operation either succeeds or leaves the tree as it was, except that
`makeDirs` keeps the directories that it could make. The tree keeps a journal of the places that
changed, for those who watch it.
-/

namespace TemplateCache

inductive Entry where
  | file (bytes : List UInt8)
  | directory
  | link (target : String)
  deriving DecidableEq, Repr

/-- Where something is: the names on the way to it from the root. -/
abbrev Place := List String

namespace Place

def text (place : Place) : String := "/" ++ "/".intercalate place

def path (place : Place) : Path := ⟨text place⟩

end Place

structure FileTree where
  /-- Everything but the root, under the text of its place. -/
  entries : KeyMap Entry := ∅
  /-- The places that changed, in order. -/
  journal : List Place := []
  /-- The number of the next temporary directory. -/
  fresh : Nat := 0
  deriving Inhabited

namespace FileTree

def entry? (t : FileTree) : Place → Option Entry
  | [] => some .directory
  | place => t.entries.get? (Place.text place)

/-! ## Paths to places -/

/-- A segment between slashes. An empty one stays where it is. -/
def stepOf : List Char → Part
  | [] => .current
  | ['.'] => .current
  | ['.', '.'] => .parent
  | name => .normal (String.ofList name)

/-- The steps of a text; `segment` is the segment read so far, reversed. -/
def stepsFrom : List Char → (segment : List Char) → List Part
  | [], segment => [stepOf segment.reverse]
  | c :: rest, segment =>
    if c = '/' then stepOf segment.reverse :: stepsFrom rest []
    else stepsFrom rest (c :: segment)

/-- The steps of a path. A slash at the end is a step, since only directories have one behind
them. -/
def steps (p : Path) : List Part :=
  match p.text.toList with
  | '/' :: rest => .root :: stepsFrom rest []
  | chars => stepsFrom chars []

/-- How far a path leads: to a place, or to a link that stands for the steps of its target. -/
inductive Reach where
  | place (place : Place)
  | link (directory : Place) (target : String) (rest : List Part)

/-- Takes steps from a directory up to the first link that has to be followed. -/
def stroll (t : FileTree) (follow : Bool) : Place → List Part → Except FileErrorKind Reach
  | here, [] => .ok (.place here)
  | _, .root :: rest => t.stroll follow [] rest
  | here, .current :: rest => t.stroll follow here rest
  | here, .parent :: rest => t.stroll follow here.dropLast rest
  | here, .normal name :: rest =>
    let next := here ++ [name]
    if 255 < name.utf8ByteSize then .error .invalidName
    else
      match t.entry? next with
      | some .directory => t.stroll follow next rest
      | some (.link target) =>
        if rest.isEmpty && !follow then .ok (.place next) else .ok (.link here target rest)
      | some (.file _) => if rest.isEmpty then .ok (.place next) else .error .notADirectory
      | none => if rest.isEmpty then .ok (.place next) else .error .notFound

/-- What every path has to satisfy. -/
def checkText (text : String) : Except FileErrorKind Unit :=
  if text.toList.contains '\x00' then .error .invalidInput
  else if text.isEmpty then .error .notFound
  else if 4096 ≤ text.utf8ByteSize then .error .invalidName
  else .ok ()

/-- Resolves steps from a directory with a number of links to spare. -/
def resolve (t : FileTree) (follow : Bool) : Nat → Place → List Part → Except FileErrorKind Place
  | links, here, rest => do
    match ← t.stroll follow here rest with
    | .place place => .ok place
    | .link directory target rest =>
      match links with
      | 0 => .error .tooManyLinks
      | links + 1 =>
        checkText target
        t.resolve follow links directory (steps ⟨target⟩ ++ rest)

/-- How many links may be followed on the way to one place. -/
def linkBudget : Nat := 40

/-- The place of a path. All but its last part has to be there. -/
def locate (t : FileTree) (p : Path) (follow : Bool) : Except FileErrorKind Place := do
  checkText p.text
  t.resolve follow linkBudget [] (steps p)

def entryAt (t : FileTree) (p : Path) (follow : Bool) : Except FileErrorKind (Place × Entry) := do
  let place ← t.locate p follow
  match t.entry? place with
  | some entry => .ok (place, entry)
  | none => .error .notFound

/-! ## Questions -/

/-- What is at a path, behind any links. -/
def status (t : FileTree) (p : Path) : Except FileErrorKind Entry := (t.entryAt p true).map (·.2)

def isDir (t : FileTree) (p : Path) : Bool :=
  match t.status p with
  | .ok .directory => true
  | _ => false

def read (t : FileTree) (p : Path) : Except FileErrorKind (List UInt8) := do
  match ← t.status p with
  | .file bytes => .ok bytes
  | .directory => .error .isADirectory
  | .link _ => .error .tooManyLinks

def readText (t : FileTree) (p : Path) : Except FileErrorKind String := do
  match String.fromUTF8? ⟨(← t.read p).toArray⟩ with
  | some text => .ok text
  | none => .error .notUtf8

/-- The path of a place without any links on it. -/
def canonical? (t : FileTree) (p : Path) : Option Path :=
  (t.entryAt p true).toOption.map fun found => found.1.path

/-- The name that a text has directly below a place. -/
def childName? (place : Place) (text : String) : Option String :=
  let above := (if place.isEmpty then "" else place.text) ++ "/"
  match above.toList.isPrefixOf? text.toList with
  | some name => if name.isEmpty || name.contains '/' then none else some (String.ofList name)
  | none => none

/-- The entries directly in a directory, in the order of their names. -/
def children (t : FileTree) (place : Place) : List (String × Entry) :=
  (t.entries.entries.filterMap fun (text, entry) =>
    (childName? place text).map fun name => (name, entry)).mergeSort fun a b => a.1 ≤ b.1

def list (t : FileTree) (p : Path) : Except FileErrorKind (List (String × Entry)) := do
  match ← t.entryAt p true with
  | (place, .directory) => .ok (t.children place)
  | _ => .error .notADirectory

/-! ## Changes -/

def put (t : FileTree) (place : Place) (entry : Entry) : FileTree :=
  { t with entries := t.entries.insert place.text entry, journal := t.journal ++ [place] }

/-- The names of a text that lies at or below a place. -/
def below? (place : Place) (text : String) : Option Place :=
  let names := Path.normalNames ⟨text⟩
  if place.isPrefixOf names then some names else none

/-- Removes the places that `chosen?` finds among the texts of places, the last ones first. -/
def removeWhere (t : FileTree) (chosen? : String → Option Place) : FileTree :=
  { t with
    entries := t.entries.filter fun text _ => (chosen? text).isNone
    journal := t.journal ++ (t.entries.keys.filterMap chosen?).reverse }

/-- Removes a place and all below it. -/
def remove (t : FileTree) (place : Place) : FileTree := t.removeWhere (below? place)

/-- Removes all below a place. -/
def empty (t : FileTree) (place : Place) : FileTree :=
  t.removeWhere fun text => (below? place text).filter (· != place)

def withoutSlashes (p : Path) : Path :=
  if p.text.toList.all (· == '/') then p
  else ⟨String.ofList (p.text.toList.reverse.dropWhile (· == '/')).reverse⟩

def endsInSlash (p : Path) : Bool := p.text.toList.getLast? == some '/'

/-- Makes a file hold the given bytes. -/
def write (t : FileTree) (p : Path) (bytes : List UInt8) : Except FileErrorKind FileTree := do
  if endsInSlash p then
    let _ ← t.locate (withoutSlashes p) false
    .error .isADirectory
  else
    let place ← t.locate p true
    match t.entry? place with
    | some .directory => .error .isADirectory
    | _ => .ok (t.put place (.file bytes))

/-- Puts something at a path where nothing is. -/
def create (t : FileTree) (p : Path) (entry : Entry) : Except FileErrorKind FileTree := do
  let place ← t.locate (withoutSlashes p) false
  match t.entry? place with
  | some _ => .error .alreadyExists
  | none => .ok (t.put place entry)

def makeDir (t : FileTree) (p : Path) : Except FileErrorKind FileTree := t.create p .directory

/-- A change that keeps the tree where it fails. -/
def attempt (t : FileTree) (change : Except FileErrorKind FileTree) :
    Except FileErrorKind Unit × FileTree :=
  match change with
  | .ok t => (.ok (), t)
  | .error kind => (.error kind, t)

/-- Accepts a failure where a directory is there already. -/
def orDirectory (p : Path) (result : Except FileErrorKind Unit × FileTree) :
    Except FileErrorKind Unit × FileTree :=
  match result with
  | (.error kind, t) => if t.isDir p then (.ok (), t) else (.error kind, t)
  | done => done

/-- Makes the first directory of a list of ancestors, and those above it that are missing. -/
def makeChain (t : FileTree) : List Path → Except FileErrorKind Unit × FileTree
  | [] => (.error .notFound, t)
  | p :: above =>
    if p.parts.isEmpty then (.ok (), t)
    else
      match t.attempt (t.makeDir p) with
      | (.error .notFound, t) =>
        match t.makeChain above with
        | (.ok (), t) => orDirectory p (t.attempt (t.makeDir p))
        | failed => failed
      | result => orDirectory p result

/-- Makes a directory and those above it that are missing. -/
def makeDirs (t : FileTree) (p : Path) : Except FileErrorKind Unit × FileTree :=
  t.makeChain p.ancestors

/-- Removes a file or a link. A slash at the end asks for a directory, which is neither. -/
def removeFile (t : FileTree) (p : Path) : Except FileErrorKind FileTree := do
  match ← t.entryAt (withoutSlashes p) false with
  | (_, .directory) => .error .isADirectory
  | (place, _) => if endsInSlash p then .error .notADirectory else .ok (t.remove place)

/-- Removes a directory with all that it holds, or a link. First it is emptied; then it is removed
by the last name of the path. A dot is no name, and a slash behind the name of a link asks for a
directory. The parent of something that has been removed is not found any more, which is as good as
removed. -/
def removeDir (t : FileTree) (p : Path) : Except FileErrorKind Unit × FileTree :=
  match t.entryAt p false with
  | .error kind => (.error kind, t)
  | .ok (_, .file _) => (.error .notADirectory, t)
  | .ok (place, _) =>
    match (steps (withoutSlashes p)).getLast?, t.entryAt (withoutSlashes p) false with
    | some .current, _ => (.error .unnamed, t.empty place)
    | some .parent, _ => (.ok (), t.empty place)
    | _, .ok (_, .link _) =>
      if endsInSlash p then (.error .notADirectory, t.empty place) else (.ok (), t.remove place)
    | _, _ => (.ok (), t.remove place)

/-- The name of a temporary directory: what it starts with, and six letters and digits that make
it unique. -/
def tempName (start : String) (number : Nat) : String :=
  start ++ "zQ" ++ String.ofList (Duration.padded 4 number)

/-- Makes a directory with a name of its own. -/
def makeTempDir (t : FileTree) (parent : Path) (start : String) :
    Except FileErrorKind (Path × FileTree) := do
  let p := parent.join ⟨tempName start t.fresh⟩
  let t ← t.makeDir p
  return (p, { t with fresh := t.fresh + 1 })

end FileTree
end TemplateCache
