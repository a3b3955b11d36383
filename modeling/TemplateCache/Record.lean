import TemplateCache.Json.Decode
import TemplateCache.Naming.Resolver

/-!
# Records

What a cache holds: the content of a document under its content key, and a renderer under its code
key.
-/

namespace TemplateCache

/-- Raw content: text, or a structured value that is only ever replaced as a whole. -/
inductive Content where
  | text (value : String)
  | json (value : Json.Value)

namespace Content

def asText : Content → String
  | text s => s
  | json v => v.text

def same : Content → Content → Bool
  | text a, text b => a == b
  | json a, json b => a.same b
  | _, _ => false

/-- Source text; one with the extension `json` is structured where it can be read. -/
def ofSource (source : String) (extension : Option String) : Content :=
  let isJson := extension.any fun e => e.toList.dropWhile (· == '.') == "json".toList
  match if isJson then Json.Value.ofString? source else none with
  | some v => json v
  | none => text source

/-- In a document, quoted text is text and everything else is structured. -/
def decode : Json.Decoder Content := fun room t => do
  match ← Json.Value.ofTree? room t with
  | .string s => return text s
  | v => return json v

def toValue : Content → Json.Value
  | text s => .string s
  | json v => v

end Content

/-- How a record came into the cache: by registration, or from a backend. -/
inductive Origin where
  | explicit
  | discovered
  deriving DecidableEq, Repr

/-- The content of a partial, template or context document. -/
structure ContentRecord where
  key : String
  /-- The logical name that the record was registered under. -/
  name : String
  content : Content
  extension : Option String
  params : Option Params
  /-- Set when a discovered record took the place of an explicit one. -/
  overridden : Bool
  origin : Origin

namespace ContentRecord

/-- A record without history. The extension is normalized, and empty parameters are none. -/
def make (name key : String) (content : Content) (origin : Origin)
    (extension : Option String) (params : Option Params) : ContentRecord where
  key := key
  name := name
  content := content
  extension := extension.map withDot
  params := params.filter fun p => !p.isEmpty
  overridden := false
  origin := origin

end ContentRecord

structure RenderError where
  detail : String
  deriving DecidableEq, Repr

namespace RenderError

def message (e : RenderError) : String := "render failed: " ++ e.detail

end RenderError

/-- What a generator makes of content. One without a source is only kept in memory. -/
structure Renderer where
  source : Option String
  render : (context options : Json.Value) → Except RenderError String

/-- A renderer under its code key. -/
structure CodeRecord where
  key : String
  name : String
  renderer : Renderer

/-- What the code namespace of a store holds: a renderer, or source to make one from. -/
inductive StoredCode where
  | live (record : CodeRecord)
  | text (key name source : String)

/-- What is asked of a store: a name with an optional extension and parameters. -/
structure Address where
  name : String
  extension : Option String := none
  params : Option Params := none

namespace Address

def key (a : Address) (r : Resolver) (space : KeySpace) : Except NameError String :=
  r.resolve a.name space a.extension a.params

/-- Neither extension nor parameters. -/
def isPlain (a : Address) : Bool := a.extension.isNone && a.params.all fun p => p.isEmpty

end Address
end TemplateCache
