import TemplateCache.Naming.Rules
import TemplateCache.Naming.Params
import TemplateCache.Path
import TemplateCache.Pattern.Matching
import TemplateCache.Pattern.Parser
import TemplateCache.Text.Blank

/-!
# Canonical keys

A key is derived from a logical name alone: base path, name, extension, the suffix of the code
namespace and the parameters, in this order. `Resolver.resolve` gives a name with an extension no
other; `Resolver.resolveFile` appends one in any case, for the names of files whose extension was
taken off.
-/

namespace TemplateCache

inductive NameError where
  | empty
  | invalidPattern (pattern : String)
  deriving DecidableEq, Repr

/-- The two namespaces of keys. -/
inductive KeySpace where
  | content
  | code
  deriving DecidableEq, Repr

structure Resolver where
  rules : NamingRules
  verbatim : Option Pattern

/-- Whether the last segment of a name has an extension. Both slashes separate segments. -/
def hasExtension (name : String) : Bool :=
  let last := (name.toList.reverse.takeWhile fun c => c != '/' && c != '\\').reverse
  (Path.extension? ⟨String.ofList last⟩).isSome

/-- A dot is put in front of an extension that lacks one; nothing stays nothing. -/
def withDot (ext : String) : String :=
  if ext.isEmpty || ext.toList.head? == some '.' then ext else "." ++ ext

/-- A name below a base path, with one slash between them. -/
def placeBelow (base name : String) : String :=
  let trimmed := (base.toList.reverse.dropWhile (· == '/')).reverse
  let rest := name.toList.dropWhile (· == '/')
  if trimmed.isEmpty then String.ofList rest else String.ofList (trimmed ++ '/' :: rest)

/-- The part of a key in front of its first question mark, and the part behind it. -/
def splitQuery (key : String) : String × Option String :=
  let chars := key.toList
  match chars.dropWhile (· != '?') with
  | [] => (key, none)
  | _ :: query => (String.ofList (chars.takeWhile (· != '?')), some (String.ofList query))

namespace Resolver

def ofRules? (rules : NamingRules) : Except NameError Resolver :=
  match rules.verbatimPattern with
  | none => .ok ⟨rules, none⟩
  | some source =>
    match Pattern.parse? source with
    | some pattern => .ok ⟨rules, some pattern⟩
    | none => .error (.invalidPattern source)

def isVerbatim (r : Resolver) (name : String) : Bool :=
  r.verbatim.elim false fun p => p.matchesIn name

/-- The default extension of a role, with its dot. -/
def roleExtension (r : Resolver) (role : DocRole) : String :=
  withDot (r.rules.extension role)

/-- The key of a name in front of suffix and parameters. -/
def location (r : Resolver) (name : String) (extension : Option String) : String :=
  if r.isVerbatim name then name
  else
    let role := r.rules.docRole name
    placeBelow (r.rules.base role) name ++ extension.elim (r.roleExtension role) withDot

def suffix (r : Resolver) : KeySpace → String
  | .content => ""
  | .code => r.rules.codeSuffix

/-- What the parameters add to a key. Empty ones add nothing. -/
def query (params : Option Params) : String :=
  match params with
  | none => ""
  | some p => if p.isEmpty then "" else "?" ++ p.canonical

def assemble (r : Resolver) (name : String) (space : KeySpace) (extension : Option String)
    (params : Option Params) : Except NameError String :=
  if Text.isBlankOnly name then .error .empty
  else .ok (r.location name extension ++ r.suffix space ++ query params)

def resolve (r : Resolver) (name : String) (space : KeySpace) (extension : Option String)
    (params : Option Params) : Except NameError String :=
  r.assemble name space (if hasExtension name then some "" else extension) params

def resolveFile (r : Resolver) (name : String) (space : KeySpace) (extension : String)
    (params : Option Params) : Except NameError String :=
  r.assemble name space (some extension) params

/-- The code key that belongs to a content key. -/
def codeKeyOf (r : Resolver) (contentKey : String) : String :=
  match splitQuery contentKey with
  | (path, some query) => path ++ r.rules.codeSuffix ++ "?" ++ query
  | (_, none) => contentKey ++ r.rules.codeSuffix

end Resolver
end TemplateCache
