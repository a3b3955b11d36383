import TemplateCache.Compiler.Error
import TemplateCache.Compiler.Flight
import TemplateCache.Registry
import TemplateCache.CodeCache
import TemplateCache.Store.Basic
import TemplateCache.Watch.Debounce

/-!
# Compilers

A compiler joins a store and a generator. `Bench` is where it works: what it remembers itself and
the site of its store. What happens between two waits is a function on the bench; registering,
removing and invalidating are such functions.
-/

namespace TemplateCache

/-- A watch over a source tree. -/
structure Watcher where
  root : Path
  token : Token
  /-- How much of the journal of the files it has seen. -/
  seen : Nat
  debounce : Debounce := {}

structure CompilerState where
  registry : Registry := ∅
  cache : CodeCache := ∅
  flights : Flights := {}
  /-- The token that all operations descend from. -/
  root : Token
  watchers : List Watcher := []
  /-- How often the generator was asked to generate. -/
  generated : Nat := 0
  /-- How often the generator was asked to load. -/
  loaded : Nat := 0

structure Compiler (π : Type) where
  settings : CompilerSettings
  store : Store π
  generator : Generator

/-- Where one compiler works. -/
structure Bench (π : Type) where
  state : CompilerState
  site : Site π

instance {π : Type} : Clocked (Bench π) where
  clock b := Clocked.clock b.site
  setClock c b := { b with site := Clocked.setClock c b.site }

namespace Bench

variable {π : Type}

def onState (b : Bench π) (f : CompilerState → CompilerState) : Bench π :=
  { b with state := f b.state }

def onOverlay (b : Bench π) (f : Overlay → Overlay) : Bench π :=
  { b with site := { b.site with overlay := f b.site.overlay } }

def sitePart : Job.Part (Site π) (Bench π) := ⟨Bench.site, fun s b => { b with site := s }⟩

/-- Drops the renderers of some code keys, and detaches the flights of these keys. -/
def invalidate (b : Bench π) (keys : List String) : Bench π :=
  let b := b.onState fun s => { s with cache := (s.cache.invalidate keys).2 }
  keys.foldl (fun b key =>
    (b.onOverlay (·.eraseCode key)).onState fun s => { s with flights := s.flights.detach key }) b

/-- The code keys that a record serves: that of its own key, and the plain one of its name, which
may be served by a record with another extension. -/
def codeKeys (resolver : Resolver) (record : ContentRecord) : List String :=
  let own := resolver.codeKeyOf record.key
  match record.params, resolver.resolve record.name .code none none with
  | none, .ok plain => if plain = own then [own] else [own, plain]
  | _, _ => [own]

/-- Registers a record, and invalidates its renderers if its content may be another one now. -/
def register (resolver : Resolver) (record : ContentRecord) (b : Bench π) :
    ContentRecord × Bench π :=
  let ((stored, outcome), registry) := b.state.registry.register record
  let b := b.onState fun s => { s with registry := registry }
  (stored, if outcome.changed then b.invalidate (codeKeys resolver stored) else b)

/-- Registers a record whose key is not known yet. -/
def registerNew (record : ContentRecord) (b : Bench π) : Bench π :=
  b.onState fun s => { s with registry := (s.registry.registerNew record).2 }

/-- Removes all records of a name and all renderers that they may serve. -/
def eraseName (resolver : Resolver) (name : String) (b : Bench π) : Bench π :=
  let (removed, registry) := b.state.registry.remove name
  let keys := removed.map (fun record => resolver.codeKeyOf record.key) ++
    (resolver.resolve name .code none none).toOption.toList
  let b := b.onState fun s => { s with registry := registry }
  (b.invalidate (keys.mergeSort (· ≤ ·)).eraseReps).onState fun s =>
    { s with cache := s.cache.dropName name }

/-- A token for one operation. -/
def newToken (settings : CompilerSettings) (b : Bench π) : Token × Bench π :=
  let (token, clock) := (Clocked.clock b).child b.state.root
  ({ token with timeout := settings.timeout.or token.timeout }, Clocked.setClock clock b)

end Bench

/-- An operation of a compiler. -/
abbrev Compiling (π α : Type) := ExceptT CompileError (Job (Bench π)) α

namespace Compiling

variable {π α : Type}

/-- Does something at once. -/
def step (f : Bench π → α × Bench π) : Compiling π α := ExceptT.lift (Job.modifyGet f)

def gets (f : Bench π → α) : Compiling π α := ExceptT.lift (f <$> Job.get)

def modify (f : Bench π → Bench π) : Compiling π Unit := ExceptT.lift (Job.modify f)

def ofExcept (result : Except CompileError α) : Compiling π α := ExceptT.mk (pure result)

def naming (result : Except NameError α) : Compiling π α := ofExcept (result.mapError .naming)

/-- Runs an operation of the store. -/
def storing (job : Storing π α) : Compiling π (Except StoreError α) :=
  ExceptT.lift (Job.on Bench.sitePart job.run)

end Compiling
end TemplateCache
