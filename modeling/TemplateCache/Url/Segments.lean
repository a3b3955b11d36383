import TemplateCache.Url.Basic

/-!
# Segments of paths

A path is read segment by segment. A segment of one dot stays where it is, and one of two dots goes
back over the segment before it, but never over a drive letter. In a file URL a drive letter in
front is written with a colon, and slashes in front of the path count once.
-/

namespace TemplateCache.Url

def isSingleDot (segment : List Char) : Bool := [".", "%2e"].contains (lowerText segment)

def isDoubleDot (segment : List Char) : Bool :=
  ["..", ".%2e", "%2e.", "%2e%2e"].contains (lowerText segment)

/-- Whether a text starts with a drive letter: a letter and a colon or bar, and behind them the end
or a mark that may follow a segment. -/
def startsWithDrive : List Char → Bool
  | [c, d] => c.isAlpha && (d == ':' || d == '|')
  | c :: d :: e :: _ => c.isAlpha && (d == ':' || d == '|') && ['/', '\\', '?', '#'].contains e
  | _ => false

/-- A letter and a colon or bar. -/
def isDriveLetter (segment : List Char) : Bool := segment.length == 2 && startsWithDrive segment

/-- A letter and a colon. -/
def isNormalizedDrive (segment : String) : Bool :=
  match segment.toList with
  | [c, ':'] => c.isAlpha
  | _ => false

/-- The segments without the last one, unless that starts with a drive letter. -/
def climb (done : List String) : List String :=
  match done.getLast? with
  | none => done
  | some last => if startsWithDrive last.toList then done else done.dropLast

/-- The text of a segment behind those that are done. -/
def segmentText (scheme : String) (done : List String) (segment : List Char) : String :=
  if scheme == "file" && done.isEmpty && isDriveLetter segment then
    String.ofList (segment.take 1 ++ [':'])
  else encode keepsPath segment

/-- Adds the segments of a path in turn. -/
def addSegments (scheme : String) : List String → List (List Char) → List String
  | done, [] => done
  | done, [last] =>
    if isDoubleDot last then climb done ++ [""]
    else if isSingleDot last then done ++ [""]
    else done ++ [segmentText scheme done last]
  | done, segment :: rest =>
    if isDoubleDot segment then addSegments scheme (climb done) rest
    else if isSingleDot segment then addSegments scheme done rest
    else addSegments scheme (done ++ [segmentText scheme done segment]) rest

/-- The segments of a path read behind its leading slash, on from those that are there. -/
def readSegments (scheme : String) (start : List String) (path : List Char) : List String :=
  let path :=
    if isSpecialScheme scheme then path.map fun c => if c == '\\' then '/' else c else path
  addSegments scheme start (Text.splitOn '/' path)

/-- Takes away what slashes in front of the path of a file URL leave. -/
def settle (scheme : String) (segments : List String) : List String :=
  if scheme == "file" then
    match segments.dropWhile String.isEmpty with
    | [] => [""]
    | rest => rest
  else segments

def parseSegments (scheme : String) (start : List String) (path : List Char) : List String :=
  settle scheme (readSegments scheme start path)

/-- The directory that a relative path starts from. In a file URL a drive letter at the end is one
itself. -/
def directory (scheme : String) (segments : List String) : List String :=
  if scheme == "file" && segments.getLast?.any isNormalizedDrive then segments
  else segments.dropLast

/-- The same URL with a slash at the end of its path, which is read anew for it. -/
def withTrailingSlash (u : Url) : Url :=
  match u.path with
  | .segments list =>
    if list.getLast? == some "" then u
    else
      let path := (u.pathText ++ "/").toList.drop 1
      { u with path := .segments (parseSegments u.scheme [] path) }
  | .opaqueText _ => u

end TemplateCache.Url
