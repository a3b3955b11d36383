import TemplateCache.Store.Basic
import TemplateCache.Text.Find
import TemplateCache.Url.Parser

/-!
# Stores behind a network

Keys are URLs below a base: content and code are read with GET and written with POST. Code is kept
in memory too; what is sent of it is a form with its name and source.
-/

namespace TemplateCache

/-- Why a URL is no base. -/
inductive BaseUrlError where
  | unreadable (error : Url.ParseError)
  | opaquePath
  deriving DecidableEq, Repr

/-- The wording for the text of the URL. -/
def BaseUrlError.message (url : String) (e : BaseUrlError) : String :=
  "Invalid base URL `" ++ url ++ "`: " ++
    match e with
    | unreadable error => error.message
    | opaquePath => "URL cannot be a base"

namespace Store

structure Remote where
  base : Url
  userAgent : String
  resolver : Resolver

namespace Remote

def defaultUserAgent : String := "quill/0.1.0"

/-- The base of a store. Its path ends in a slash, so keys are below it. -/
def base? (url : String) : Except BaseUrlError Url := do
  let base ← (Url.parse none url).mapError .unreadable
  if base.isOpaque then throw .opaquePath
  return base.withTrailingSlash

def backend : String := "remote"

def failure (status : Option Nat) (url reason : String) : StoreError :=
  .medium backend url (.http status url reason)

/-- The URL of a key, whose query part becomes its query. -/
def urlOf (r : Remote) (key : String) : Except StoreError Url := do
  let (path, query) := splitQuery key
  let reference := String.ofList (path.toList.dropWhile (· == '/'))
  let url ← (r.base.join reference).mapError fun e => failure none key e.message
  return url.withQuery query

/-- The type of text under a key. -/
def textType (key : String) : String :=
  let path := (splitQuery key).1
  if path.endsWith ".html" || path.endsWith ".htm" then "text/html; charset=utf-8"
  else "text/plain; charset=utf-8"

/-- What follows the last dot in the last segment of a key. -/
def extensionOf (key : String) : Option String :=
  let last := ((splitQuery key).1.toList.reverse.takeWhile (· != '/'))
  if last.contains '.' then some (String.ofList (last.takeWhile (· != '.')).reverse) else none

abbrev Fetching (α : Type) := Storing Unit α

/-- Sends a request and waits for the reply to it. -/
def exchange (request : Request) : Fetching Reply := do
  let reply ← Storing.always (Job.modifyGet fun s =>
    let (reply, network) := s.environment.network.exchange request
    (reply, { s with environment := { s.environment with network := network } }))
  Storing.always Job.yield
  match reply with
  | some reply => return reply
  | none => throw (failure none request.url "<request>")

def checked (url : String) (reply : Reply) : Except StoreError Reply :=
  if reply.isSuccess then .ok reply
  else .error (failure (some reply.status) url ("unexpected status " ++ reply.statusText))

/-- The document at a URL, if there is one. -/
def get (r : Remote) (url : Url) (token : Token) : Fetching (Option Reply) :=
  Storing.within token "remote read" do
    let reply ← exchange { method := .get, url := url.text, userAgent := r.userAgent }
    if reply.status = 404 then return none
    return some (← Storing.ofExcept (checked url.text reply))

def post (r : Remote) (url : Url) (contentType body : String) (token : Token) : Fetching Unit :=
  Storing.within token "remote write" do
    let reply ← exchange {
      method := .post, url := url.text, userAgent := r.userAgent
      contentType := some contentType, body := body }
    let _ ← Storing.ofExcept (checked url.text reply)
    return ()

/-- Whether a reply declares itself to be JSON. -/
def isJson (reply : Reply) : Bool :=
  reply.contentType.any fun type => Text.occursIn "json" type

/-- The form that carries a renderer. -/
def codeForm (name source : String) : String :=
  String.ofList (Text.formPairs [("name", name), ("renderer", source)])

end Remote

open Remote in
def remote (r : Remote) : Store Unit where
  backend := Remote.backend
  resolver := r.resolver
  readContent address token := do
    let key ← Storing.naming (address.key r.resolver .content)
    match (← Storing.overlay).content.get? key with
    | some record => return some record
    | none =>
      let url ← Storing.ofExcept (r.urlOf key)
      match ← r.get url token with
      | none => return none
      | some reply =>
        let extension := extensionOf key
        let content := Content.ofSource reply.body (if isJson reply then some "json" else extension)
        some <$> Storing.keepContent
          (.make address.name key content .discovered extension address.params)
  writeContent address content token := do
    let key ← Storing.naming (address.key r.resolver .content)
    let url ← Storing.ofExcept (r.urlOf key)
    let contentType := match content with
      | .json _ => "application/json"
      | .text _ => textType key
    r.post url contentType content.asText token
    Storing.keepContent (writtenRecord address key content)
  readCode address token := do
    let key ← Storing.naming (address.key r.resolver .code)
    match (← Storing.overlay).code.get? key with
    | some record => return some (.live record)
    | none =>
      let url ← Storing.ofExcept (r.urlOf key)
      return (← r.get url token).map fun reply => .text key address.name reply.body
  writeCode address renderer token := do
    let key ← Storing.naming (address.key r.resolver .code)
    match renderer.source with
    | none => pure ()
    | some source =>
      let url ← Storing.ofExcept (r.urlOf key)
      r.post url "application/x-www-form-urlencoded" (codeForm address.name source) token
    Storing.keepCode ⟨key, address.name, renderer⟩
  unregister name _ := Storing.changeOverlay (·.eraseName name)
  clear _ _ := Storing.changeOverlay fun _ => ∅

end Store
end TemplateCache
