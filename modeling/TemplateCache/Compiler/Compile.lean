import TemplateCache.Compiler.Basic

/-!
# Compiling

A name becomes a renderer in this order: a cached renderer serves at once; code that the store has
is used unless its key is stale; otherwise the generator makes a renderer from content, which is
given, registered or read from the store. A failure leaves nothing behind. What was invalidated
while it was compiled is neither cached nor registered.
-/

namespace TemplateCache

/-- What to compile. Content that is given is registered explicitly and compiled as it is. -/
structure CompileInput where
  address : Address
  content : Option Content := none

namespace Compiler

variable {π : Type}

def newToken (c : Compiler π) : Compiling π Token := Compiling.step (Bench.newToken c.settings)

def generate (c : Compiler π) (content : Content) : Compiling π (Except GenerateError Renderer) :=
  Compiling.step fun b =>
    (c.generator.generate content c.settings.generator,
      b.onState fun s => { s with generated := s.generated + 1 })

/-- A renderer from source that the store kept, put into the overlay. Source that cannot be loaded
counts as missing. -/
def load (c : Compiler π) (name codeKey source : String) : Compiling π (Option CodeRecord) :=
  Compiling.step fun b =>
    let b := b.onState fun s => { s with loaded := s.loaded + 1 }
    match c.generator.load source c.settings.generator with
    | .error _ => (none, b)
    | .ok renderer =>
      let record : CodeRecord := ⟨codeKey, name, renderer⟩
      (some record, b.onOverlay (·.putCode record))

/-- What the store has of some code. A failed read counts as nothing, unless it was ended. -/
def storedCode (c : Compiler π) (address : Address) (codeKey : String) (token : Token) :
    Compiling π (Option StoredCode) := do
  if c.settings.policy.mayRead then
    match ← Compiling.storing (c.store.readCode address token) with
    | .ok code => return code
    | .error (.cancelled operation) =>
      throw (.storeFor address.name codeKey (.cancelled operation))
    | .error (.timedOut operation after) =>
      throw (.storeFor address.name codeKey (.timedOut operation after))
    | .error _ => return none
  else
    return ((← Compiling.gets (·.site.overlay)).code.get? codeKey).map .live

/-- A renderer that the store has already. -/
def findCode (c : Compiler π) (address : Address) (codeKey : String) (token : Token) :
    Compiling π (Option CodeRecord) := do
  match ← c.storedCode address codeKey token with
  | none => return none
  | some (.live record) => return some record
  | some (.text _ _ source) => c.load address.name codeKey source

/-- The content that the store has under a key, which is an error where it has none. -/
def readContent (c : Compiler π) (address : Address) (contentKey : String) (token : Token) :
    Compiling π ContentRecord := do
  let found ←
    if c.settings.policy.mayRead then do
      match ← Compiling.storing (c.store.readContent address token) with
      | .ok found => pure found
      | .error e => throw (.storeFor address.name contentKey e)
    else
      pure ((← Compiling.gets (·.site.overlay)).content.get? contentKey)
  match found with
  | some record => return record
  | none => throw (.contentNotFound address.name contentKey c.settings.policy)

/-- The record to compile. One that is read from the store is registered, unless the code key was
invalidated meanwhile. -/
def findContent (c : Compiler π) (address : Address) (codeKey contentKey : String) (since : Nat)
    (token : Token) : Compiling π ContentRecord := do
  match (← Compiling.gets (·.state.registry)).serving address.name contentKey address.isPlain with
  | some record => return record
  | none =>
    let found ← c.readContent address contentKey token
    Compiling.modify fun b =>
      if b.state.cache.isOutdated codeKey since then b else b.registerNew found
    return found

/-- Keeps a renderer where the policy asks for it. -/
def storeCode (c : Compiler π) (address : Address) (codeKey : String) (renderer : Renderer)
    (token : Token) : Compiling π CodeRecord := do
  if c.settings.policy.mayWrite then
    match ← Compiling.storing (c.store.writeCode address renderer token) with
    | .ok record => return record
    | .error e => throw (.storeFor address.name codeKey e)
  else return ⟨codeKey, address.name, renderer⟩

/-- Makes a renderer of content, keeps it and caches it. -/
def compileContent (c : Compiler π) (address : Address) (codeKey contentKey : String)
    (content : Content) (since : Nat) (token : Token) : Compiling π CodeRecord := do
  match ← c.generate content with
  | .error e => throw (.generate address.name contentKey e)
  | .ok renderer =>
    let record ← c.storeCode address codeKey renderer token
    Compiling.modify (·.onState fun s =>
      { s with
        cache :=
          if c.settings.caching then (s.cache.insert record since).2
          else s.cache.refresh codeKey since })
    return record

/-- Compiles the given record, or the one that serves the address. -/
def compileRecord (c : Compiler π) (address : Address) (codeKey : String)
    (given : Option ContentRecord) (since : Nat) (token : Token) : Compiling π CodeRecord := do
  let contentKey ← Compiling.naming (address.key c.store.resolver .content)
  let record ←
    match given with
    | some record => pure record
    | none => c.findContent address codeKey contentKey since token
  c.compileContent address codeKey contentKey record.content since token

/-- Compiles a code key that has no cached renderer. `since` is the epoch in which the compile
began. -/
def compileAnew (c : Compiler π) (address : Address) (codeKey : String)
    (given : Option ContentRecord) (since : Nat) : Compiling π CodeRecord := do
  let token ← c.newToken
  let stale := (← Compiling.gets (·.state.cache)).isStale codeKey
  let stored ←
    if c.settings.caching && given.isNone && !stale then c.findCode address codeKey token
    else pure none
  match stored with
  | some record =>
    Compiling.modify (·.onState fun s => { s with cache := (s.cache.insert record since).2 })
    return record
  | none => c.compileRecord address codeKey given since token

/-- Registers the content of an input, if it has any. -/
def registerGiven (c : Compiler π) (input : CompileInput) :
    Compiling π (Option ContentRecord) := do
  match input.content with
  | none => return none
  | some content =>
    let address := input.address
    let key ← Compiling.naming (address.key c.store.resolver .content)
    let record := .make address.name key content .explicit address.extension address.params
    some <$> Compiling.step (Bench.register c.store.resolver record)

/-- Takes part in the flight of a code key: compiles if it is the turn of this caller, and takes
the result of another caller otherwise. -/
def share (codeKey : String) (work : Compiling π CodeRecord) :
    Compiling π CodeRecord := do
  let flights (f : Flights → Flights) : Compiling π Unit :=
    Compiling.modify (·.onState fun s => { s with flights := f s.flights })
  let (number, caller) ← Compiling.step fun b =>
    let (number, f) := b.state.flights.board codeKey
    let (caller, f) := f.enter number
    ((number, caller), b.onState fun s => { s with flights := f })
  ExceptT.lift (Job.await fun b => b.state.flights.isDue number caller)
  let result ←
    match (← Compiling.gets (·.state.flights.flight number)).result with
    | some record => pure (Except.ok record)
    | none =>
      let result ← ExceptT.lift work.run
      flights (match result with
        | .ok record => (·.land number record)
        | .error _ => (·.handOver number))
      pure result
  flights (·.leave codeKey number)
  Compiling.ofExcept result

/-- Compiles a name. -/
def compile (c : Compiler π) (input : CompileInput) : Compiling π CodeRecord := do
  let address := input.address
  let codeKey ← Compiling.naming (address.key c.store.resolver .code)
  let given ← c.registerGiven input
  let since ← Compiling.gets (·.state.cache.epoch)
  let cache ← Compiling.gets (·.state.cache)
  match if c.settings.caching then cache.get? codeKey else none with
  | some record => return record
  | none => share codeKey (c.compileAnew address codeKey given since)

/-- Compiles a plain name and renders it. -/
def render (c : Compiler π) (name : String) (context options : Json.Value) :
    Compiling π String := do
  let record ← c.compile { address := { name := name } }
  Compiling.ofExcept ((record.renderer.render context options).mapError (.render name))

end Compiler
end TemplateCache
