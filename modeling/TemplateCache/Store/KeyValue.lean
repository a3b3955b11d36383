import TemplateCache.Store.Basic

/-!
# Stores over a key-value engine

Content and code are documents in two collections of an engine that other stores may share. A store
remembers which documents it wrote, so clearing it leaves those of others alone. Sweeps go through
a collection page by page.
-/

namespace TemplateCache

/-- The collections of a store. -/
inductive Collection where
  | content
  | code
  deriving DecidableEq, Repr

def Collection.name : Collection → String
  | content => "partials"
  | code => "code"

/-- The documents that a store wrote, in the order of their first writing. -/
abbrev Written := List (Collection × String)

namespace Store.KeyValue

open Json

/-! ## Documents -/

/-- The document of some content. -/
def contentDocument (address : Address) (content : Content) : String :=
  Value.recordText ([("name", .string address.name), ("content", content.toValue)] ++
    match address.extension with
    | none => []
    | some extension => [("extension", .string extension)])

/-- Reads a document of content as the record under a key. -/
def contentRecord (key : String) : Decoder ContentRecord := fun room t => do
  let read ← Decoder.fields ["name", "content", "extension"] room t
  let name ← read.required "name" Decoder.string
  let content ← read.required "content" Content.decode
  let extension ← read.withDefault "extension" (Decoder.optional Decoder.string) none
  return .make name key content .discovered extension none

def codeDocument (name source : String) : String :=
  Value.recordText [("name", .string name), ("renderer", .string source)]

/-- Reads a document of code as what is stored under a key. -/
def storedCode (key : String) : Decoder StoredCode := fun room t => do
  let read ← Decoder.fields ["name", "renderer"] room t
  let name ← read.required "name" Decoder.string
  let source ← read.required "renderer" Decoder.string
  return .text key name source

/-! ## Calls -/

def backend : String := "kv"

abbrev Keeping (α : Type) := Storing Written α

/-- Waits as long as the engine takes over a call. -/
def engineDelay : Keeping Unit := do
  Storing.always (Job.sleep (← Storing.gets (·.environment.engine.delay)))

/-- Makes a call that is due. -/
def attempt {α : Type} (call : EngineCall) (collection : Collection) (key target : String)
    (f : Engine → α × Engine) : Keeping α :=
  ExceptT.mk (Job.modifyGet fun s =>
    let (result, engine) := s.environment.engine.attempt call collection.name key f
    (result.mapError fun e => .medium backend target (.engine e.message),
      { s with environment := { s.environment with engine := engine } }))

def get (collection : Collection) (key : String) : Keeping (Option (List UInt8)) :=
  attempt .get collection key key fun e => (e.get? collection.name key, e)

def put (collection : Collection) (key document : String) : Keeping Unit := do
  engineDelay
  attempt .put collection key key fun e =>
    ((), e.put collection.name key document.toUTF8.toList)

def remember (collection : Collection) (key : String) : Keeping Unit :=
  Storing.modify fun s =>
    { s with own := if (collection, key) ∈ s.own then s.own else s.own ++ [(collection, key)] }

def delete (collection : Collection) (key : String) : Keeping String := do
  attempt .delete collection key key fun e => ((), e.delete collection.name key)
  Storing.modify fun s => { s with own := s.own.erase (collection, key) }
  return key

/-- Reads a document, which has to be what the decoder expects. -/
def decoded {α : Type} (key : String) (decoder : Decoder α) :
    Option (List UInt8) → Keeping (Option α)
  | none => pure none
  | some bytes =>
    match Decoder.ofBytes? decoder bytes with
    | some value => pure (some value)
    | none => throw (.medium backend key .codec)

/-- Reads the content under a key into the overlay. -/
def loadContent (key : String) : Keeping (Option ContentRecord) := do
  match ← decoded key (contentRecord key) (← get .content key) with
  | none => return none
  | some record => some <$> Storing.keepContent record

/-- Runs operations that start together, each with its outcome. -/
def together {α β : Type} (operation : α → Keeping β) (inputs : List α) :
    Keeping (List (Except StoreError β)) := do
  unless inputs.isEmpty do engineDelay
  Storing.always (inputs.mapM fun input => (operation input).run)

/-- Deletes documents, all of them at the same time. -/
def deleteAll (documents : List (Collection × String)) : Keeping Unit := do
  Storing.batch (← together (fun (collection, key) => delete collection key) documents)

/-! ## Sweeps -/

/-- The next keys of a collection, and whether there may be more. With no limit there are not. -/
def page (collection : Collection) (limit : Option Nat) (cursor : Option String) (token : Token) :
    Keeping (List String × Bool) := do
  let keys ← Storing.within token "kv list" do
    engineDelay
    attempt .keys collection (cursor.getD "") collection.name fun e =>
      (e.keysBehind collection.name cursor, e)
  match limit with
  | none => return (keys, false)
  | some n => return (keys.take n, n ≤ keys.length)

/-- Visits the keys of a collection behind a cursor, at most `pages` pages of them by size and then
the rest at once. -/
def sweepFrom {α : Type} (collection : Collection) (pageSize : Nat) (token : Token)
    (visit : String → Keeping α) : (pages : Nat) → (cursor : Option String) →
    Keeping (List (Except StoreError α))
  | 0, cursor => do
    let (keys, _) ← page collection none cursor token
    together visit keys
  | pages + 1, cursor => do
    let (keys, more) ← page collection (some pageSize) cursor token
    let outcomes ← together visit keys
    if more then
      let next := keys.getLast?.or cursor
      return outcomes ++ (← sweepFrom collection pageSize token visit pages next)
    else return outcomes

/-- How many pages a sweep goes through on top of one for each key that was there at the start. -/
def sparePages : Nat := 1000

/-- Visits every key of a collection. A failed visit does not stop the sweep. -/
def sweep {α : Type} (collection : Collection) (pageSize : Nat) (token : Token)
    (visit : String → Keeping α) : Keeping (List (Except StoreError α)) := do
  let keys ← Storing.gets fun s => (s.environment.engine.documents collection.name).size
  sweepFrom collection pageSize token visit (keys + sparePages) none

def scan (pageSize : Nat) (token : Token) : Job (Site Written) Discovery := do
  match ← (sweep .content pageSize token fun key => do return (key, ← loadContent key)).run with
  | .error e => return ⟨[], .error e⟩
  | .ok outcomes =>
    let found := (Batch.valuesOf outcomes).filterMap (·.2)
    let keys := outcomes.map (·.map (·.1))
    return ⟨found, ((Batch.collect keys).mapError .batch).map fun _ => found.length⟩

end KeyValue

/-! ## The store -/

open KeyValue in
/-- A store that lists at least one and at most `pageSize` keys at a time. -/
def keyValue (resolver : Resolver) (pageSize : Nat) : Store Written where
  backend := KeyValue.backend
  resolver := resolver
  readContent address token := do
    let key ← Storing.naming (address.key resolver .content)
    match (← Storing.overlay).content.get? key with
    | some record => return some record
    | none =>
      Storing.within token "kv read" do
        engineDelay
        loadContent key
  writeContent address content token := do
    let key ← Storing.naming (address.key resolver .content)
    Storing.within token "kv write" (put .content key (contentDocument address content))
    remember .content key
    Storing.keepContent (writtenRecord address key content)
  readCode address token := do
    let key ← Storing.naming (address.key resolver .code)
    match (← Storing.overlay).code.get? key with
    | some record => return some (.live record)
    | none =>
      let document ← Storing.within token "kv read code" do
        engineDelay
        get .code key
      decoded key (storedCode key) document
  writeCode address renderer token := do
    let key ← Storing.naming (address.key resolver .code)
    match renderer.source with
    | none => pure ()
    | some source =>
      Storing.within token "kv write code" (put .code key (codeDocument address.name source))
      remember .code key
    Storing.keepCode ⟨key, address.name, renderer⟩
  unregister name token := do
    let before ← Storing.overlay
    Storing.changeOverlay (·.eraseName name)
    let contentKey ← Storing.naming (resolver.resolve name .content none none)
    let codeKey ← Storing.naming (resolver.resolve name .code none none)
    Storing.within token "kv unregister" (deleteAll
      ((distinct (contentKey :: before.contentKeys name)).map (Collection.content, ·) ++
        (distinct (codeKey :: before.codeKeys name)).map (Collection.code, ·)))
  clear all token := do
    Storing.changeOverlay fun _ => ∅
    if all then
      let content ← sweep .content (max pageSize 1) token (delete .content)
      let code ← sweep .code (max pageSize 1) token (delete .code)
      Storing.batch (content ++ code)
    else
      let written ← Storing.gets (·.own)
      Storing.modify fun s => { s with own := [] }
      Storing.within token "kv clear" (deleteAll written)
  scan token := KeyValue.scan (max pageSize 1) token
where
  /-- The keys in ascending order, each once. -/
  distinct (keys : List String) : List String := (keys.mergeSort (· ≤ ·)).eraseReps

end TemplateCache.Store
