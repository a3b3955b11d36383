import TemplateCache.Url.Segments

/-!
# Reading URLs

`Url.parse` reads a URL, relative to a base where there is one. A special scheme asks for an
authority, and a backslash is a slash in it; the host of a file URL may be left out. A reference
without scheme takes what it does not give from the base.
-/

namespace TemplateCache.Url

/-- Path, query and fragment of what is left of a URL. -/
structure Tail where
  path : List Char
  query : Option (List Char)
  fragment : Option (List Char)

def splitFirst (sep : Char) (chars : List Char) : List Char × Option (List Char) :=
  match chars.dropWhile (· != sep) with
  | [] => (chars, none)
  | _ :: rest => (chars.takeWhile (· != sep), some rest)

def splitTail (chars : List Char) : Tail :=
  let (front, fragment) := splitFirst '#' chars
  let (path, query) := splitFirst '?' front
  ⟨path, query, fragment⟩

def withTail (u : Url) (tail : Tail) : Url :=
  { u with
    query := tail.query.map (encode (keepsQuery u.isSpecial))
    fragment := tail.fragment.map (encode keepsFragment) }

def isSlash (scheme : String) (c : Char) : Bool := c == '/' || (c == '\\' && isSpecialScheme scheme)

def isAuthorityEnd (scheme : String) (c : Char) : Bool := isSlash scheme c || c == '?' || c == '#'

/-! ## Authorities -/

/-- User and password. An empty password is none. -/
structure Credentials where
  username : String := ""
  password : Option String := none

def Credentials.isEmpty (c : Credentials) : Bool := c.username.isEmpty && c.password.isNone

def Credentials.ofText (text : List Char) : Credentials :=
  let (name, password) := splitFirst ':' text
  let secret := password.filter fun p => !p.isEmpty
  ⟨encode keepsUserinfo name, secret.map (encode keepsUserinfo)⟩

/-- The credentials in front of the last at sign of an authority, and what follows it. Where the
at sign has nothing before it, the end of the authority must not follow. -/
def parseCredentials (scheme : String) (chars : List Char) :
    Except ParseError (Credentials × List Char) :=
  let authority := chars.takeWhile fun c => !isAuthorityEnd scheme c
  if !authority.contains '@' then .ok (⟨"", none⟩, chars)
  else
    let text := (authority.reverse.dropWhile (· != '@')).tail.reverse
    let rest := chars.drop (text.length + 1)
    if text.isEmpty && rest.head?.any (isAuthorityEnd scheme) then .error .emptyHost
    else .ok (.ofText text, rest)

/-- The host and what follows it; colons in brackets belong to the host. -/
def splitHost (scheme : String) : (inside : Bool) → List Char → List Char × List Char
  | _, [] => ([], [])
  | inside, c :: rest =>
    if (c == ':' && !inside) || isAuthorityEnd scheme c then ([], c :: rest)
    else
      let (host, more) := splitHost scheme (c == '[' || (inside && c != ']')) rest
      (c :: host, more)

/-- Reads a port, up to what may follow one: a slash or backslash, a query or a fragment. The
default port of a scheme is none. -/
def parsePort (scheme : String) (chars : List Char) :
    Except ParseError (Option Nat × List Char) :=
  let digits := chars.takeWhile Char.isDigit
  let rest := chars.dropWhile Char.isDigit
  let n := digits.foldl (fun acc c => acc * 10 + (c.toNat - '0'.toNat)) 0
  if 65535 < n || rest.head?.any (fun c => !(['/', '\\', '?', '#'].contains c)) then .error .port
  else .ok (if digits.isEmpty || some n = defaultPort? scheme then none else some n, rest)

/-- Reads an authority, and gives what follows it. A host may be empty where the scheme is not
special and neither credentials nor a port go with it. -/
def parseAuthority (scheme : String) (chars : List Char) :
    Except ParseError (Authority × List Char) := do
  let (credentials, rest) ← parseCredentials scheme chars
  let (hostText, rest) := splitHost scheme false rest
  let special := isSpecialScheme scheme
  if special && hostText.isEmpty then throw .emptyHost
  let host ← if special then parseHost hostText else parseOpaqueHost hostText
  if host.isEmpty && rest.head? == some ':' then throw .emptyHost
  let (port, rest) ← match rest with
    | ':' :: more => parsePort scheme more
    | _ => pure (none, rest)
  if host.isEmpty && !credentials.isEmpty then throw .emptyHost
  return (⟨credentials.username, credentials.password, host, port⟩, rest)

/-- A URL whose authority follows. -/
def parseAfterSlashes (scheme : String) (chars : List Char) : Except ParseError Url := do
  let (authority, rest) ← parseAuthority scheme chars
  let tail := splitTail rest
  let path := match tail.path with
    | [] => if isSpecialScheme scheme then [""] else []
    | c :: more => parseSegments scheme [] (if isSlash scheme c then more else c :: more)
  return withTail ⟨scheme, some authority, .segments path, none, none⟩ tail

/-! ## File URLs -/

/-- The authority of a file without host. -/
def localAuthority : Authority := ⟨"", none, "", none⟩

def fileUrl (host : Authority) (path : List String) (tail : Tail) : Url :=
  withTail ⟨"file", some host, .segments path, none, none⟩ tail

def segmentsOf (u : Url) : List String :=
  match u.path with
  | .segments list => list
  | .opaqueText _ => []

/-- A file URL behind two slashes: its host, unless that is a drive letter, and its path. A path
with a drive letter in front leaves no host. -/
def parseFileHost (chars : List Char) : Except ParseError Url := do
  let hostText := chars.takeWhile fun c => !isAuthorityEnd "file" c
  if isDriveLetter hostText then
    let tail := splitTail chars
    return fileUrl localAuthority (parseSegments "file" [] tail.path) tail
  else
    let tail := splitTail (chars.drop hostText.length)
    let host ← if hostText.isEmpty then pure "" else parseHost hostText
    let segments := readSegments "file" [] (tail.path.drop 1)
    let isLocal := host == "localhost" || segments.head?.any isNormalizedDrive
    return fileUrl (if isLocal then localAuthority else ⟨"", none, host, none⟩)
      (settle "file" segments) tail

/-- A file URL behind one slash, or behind none. Host and drive come from the base. -/
def parseFilePath (base : Option Url) (chars : List Char) : Url :=
  let baseSegments := (base.map segmentsOf).getD []
  let baseAuthority := (base.bind (·.authority)).getD localAuthority
  let tail := splitTail chars
  match tail.path with
  | [] =>
    let u := fileUrl baseAuthority (if baseSegments.isEmpty then [""] else baseSegments) tail
    if tail.query.isNone then { u with query := base.bind (·.query) } else u
  | c :: rest =>
    if isSlash "file" c then
      if startsWithDrive (chars.drop 1) then
        fileUrl localAuthority (parseSegments "file" [] rest) tail
      else
        match baseSegments.head?.filter isNormalizedDrive with
        | some drive => fileUrl localAuthority (parseSegments "file" [drive] rest) tail
        | none => fileUrl baseAuthority (parseSegments "file" [] rest) tail
    else if startsWithDrive chars then
      fileUrl localAuthority (parseSegments "file" [] tail.path) tail
    else
      fileUrl baseAuthority (parseSegments "file" (directory "file" baseSegments) tail.path) tail

def parseFile (base : Option Url) (chars : List Char) : Except ParseError Url :=
  match chars with
  | a :: b :: rest =>
    if isSlash "file" a && isSlash "file" b then parseFileHost rest
    else .ok (parseFilePath base chars)
  | _ => .ok (parseFilePath base chars)

/-! ## References -/

def isAnySlash (c : Char) : Bool := c == '/' || c == '\\'

/-- A reference without scheme. Two slashes lead to an authority; of more than two only the first
two are passed over, unless a backslash is one of these. -/
def parseRelative (base : Url) (chars : List Char) : Except ParseError Url :=
  let tail := splitTail chars
  match chars with
  | [] => .ok { base with fragment := none }
  | '#' :: _ => .ok { base with fragment := tail.fragment.map (encode keepsFragment) }
  | '?' :: _ => .ok (withTail base tail)
  | '/' :: '/' :: rest => parseAfterSlashes base.scheme rest
  | c :: rest =>
    if !isAnySlash c then
      let start := directory base.scheme base.segmentsOf
      let path := parseSegments base.scheme start tail.path
      .ok (withTail { base with path := .segments path } tail)
    else if rest.head?.any isAnySlash then
      parseAfterSlashes base.scheme (rest.dropWhile isAnySlash)
    else
      let path := parseSegments base.scheme [] (tail.path.drop 1)
      .ok (withTail { base with path := .segments path } tail)

/-- The scheme in front of the first colon, and the rest. -/
def splitScheme? (chars : List Char) : Option (String × List Char) :=
  let isSchemeChar (c : Char) : Bool := c.isAlphanum || c == '+' || c == '-' || c == '.'
  match chars with
  | [] => none
  | c :: _ =>
    if !c.isAlpha then none
    else
      match chars.dropWhile isSchemeChar with
      | ':' :: rest => some (lowerText (chars.takeWhile isSchemeChar), rest)
      | _ => none

def parseWithScheme (base : Option Url) (scheme : String) (rest : List Char) :
    Except ParseError Url :=
  if scheme == "file" then parseFile (base.filter (·.scheme == "file")) rest
  else if isSpecialScheme scheme then
    let slashes := rest.takeWhile isAnySlash
    match base with
    | some b =>
      if slashes.length < 2 && b.scheme == scheme then parseRelative b rest
      else parseAfterSlashes scheme (rest.drop slashes.length)
    | none => parseAfterSlashes scheme (rest.drop slashes.length)
  else
    match rest with
    | '/' :: '/' :: more => parseAfterSlashes scheme more
    | '/' :: more =>
      let tail := splitTail more
      .ok (withTail ⟨scheme, none, .segments (parseSegments scheme [] tail.path), none, none⟩ tail)
    | _ =>
      let tail := splitTail rest
      .ok (withTail ⟨scheme, none, .opaqueText (encode isNoControl tail.path), none, none⟩ tail)

/-- Reads a URL. Controls and spaces around it, and tabs and line ends in it, do not count. -/
def parse (base : Option Url) (input : String) : Except ParseError Url :=
  let isOuter (c : Char) : Bool := c.toNat ≤ 0x20
  let trimmed := ((input.toList.dropWhile isOuter).reverse.dropWhile isOuter).reverse
  let chars := trimmed.filter fun c => !isTabOrNewline c
  match splitScheme? chars, base with
  | some (scheme, rest), _ => parseWithScheme base scheme rest
  | none, none => .error .noBase
  | none, some b =>
    if b.isOpaque then
      match chars with
      | '#' :: rest => .ok { b with fragment := some (encode keepsFragment rest) }
      | _ => .error .opaqueBase
    else if b.scheme == "file" then parseFile (some b) chars
    else parseRelative b chars

/-- Resolves a reference against a base. -/
def join (base : Url) (reference : String) : Except ParseError Url := parse (some base) reference

end TemplateCache.Url
