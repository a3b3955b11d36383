import TemplateCache.Url.Host

/-!
# URLs

A URL has a scheme, an authority if any, a path of segments or of opaque text, and optionally a
query and a fragment. Each component keeps its own set of bytes and percent encodes the others.
-/

namespace TemplateCache

inductive UrlPath where
  | segments (list : List String)
  | opaqueText (text : String)
  deriving DecidableEq, Repr

/-- User, host and port of a URL. -/
structure Authority where
  username : String
  password : Option String
  host : String
  port : Option Nat
  deriving DecidableEq, Repr

structure Url where
  scheme : String
  authority : Option Authority
  path : UrlPath
  query : Option String
  fragment : Option String
  deriving DecidableEq, Repr

namespace Url

def defaultPort? : String → Option Nat
  | "http" => some 80
  | "ws" => some 80
  | "https" => some 443
  | "wss" => some 443
  | "ftp" => some 21
  | _ => none

/-- Schemes whose URLs always have a host, `file` apart, and where a backslash is a slash. -/
def isSpecialScheme (scheme : String) : Bool := scheme == "file" || (defaultPort? scheme).isSome

def isSpecial (u : Url) : Bool := isSpecialScheme u.scheme

/-- A URL with an opaque path is no base for others. -/
def isOpaque (u : Url) : Bool :=
  match u.path with
  | .opaqueText _ => true
  | .segments _ => false

/-! ## Text -/

def authorityText (a : Authority) : String :=
  let user := match a.password with
    | some p => a.username ++ ":" ++ p ++ "@"
    | none => if a.username.isEmpty then "" else a.username ++ "@"
  user ++ a.host ++ a.port.elim "" fun p => ":" ++ toString p

def pathText (u : Url) : String :=
  match u.path with
  | .opaqueText t => t
  | .segments list => String.join (list.map ("/" ++ ·))

def text (u : Url) : String :=
  let front := match u.authority, u.path with
    | some a, _ => "//" ++ authorityText a
    | none, .segments ("" :: _ :: _) => "/."
    | none, _ => ""
  u.scheme ++ ":" ++ front ++ u.pathText ++ u.query.elim "" ("?" ++ ·) ++
    u.fragment.elim "" ("#" ++ ·)

/-! ## Encoding of components -/

def isIn (chars : List Char) (b : UInt8) : Bool := chars.contains (Char.ofNat b.toNat)

def keepsFragment (b : UInt8) : Bool := isNoControl b && !isIn [' ', '"', '<', '>', '`'] b

def keepsPath (b : UInt8) : Bool := keepsFragment b && !isIn ['#', '?', '{', '}'] b

def keepsQuery (special : Bool) (b : UInt8) : Bool :=
  isNoControl b && !isIn [' ', '"', '#', '<', '>'] b && !(special && b == 0x27)

def keepsUserinfo (b : UInt8) : Bool :=
  keepsPath b && !isIn ['/', ':', ';', '=', '@', '[', '\\', ']', '^', '|'] b

def encode (keeps : UInt8 → Bool) (chars : List Char) : String :=
  String.ofList (Text.percentEncode keeps (String.ofList chars).toUTF8.toList)

def isTabOrNewline (c : Char) : Bool := c == '\t' || c == '\n' || c == '\r'

def lowerText (chars : List Char) : String := String.ofList (chars.map Char.toLower)

/-- Replaces the query. Without one, spaces at the end of an opaque path go too. -/
def withQuery (u : Url) (query : Option String) : Url :=
  match query with
  | some q =>
    let chars := q.toList.filter fun c => !isTabOrNewline c
    { u with query := some (encode (keepsQuery u.isSpecial) chars) }
  | none =>
    let path := match u.path, u.fragment with
      | .opaqueText t, none =>
        .opaqueText (String.ofList ((t.toList.reverse.dropWhile (· == ' ')).reverse))
      | path, _ => path
    { u with query := none, path := path }

/-- Path and query, as a request line gives them. -/
def target (u : Url) : String :=
  let path := u.pathText
  (if path.isEmpty then "/" else path) ++ u.query.elim "" ("?" ++ ·)

end Url
end TemplateCache
