import TemplateCache.Environment
import TemplateCache.Store.Overlay

/-!
# Stores

A store keeps content and code in some medium, behind an overlay that it asks first. `Store π` is
what every medium offers; `π` is what a store of that medium remembers on its own. All operations
are jobs on a `Site`, so several stores can work in one environment and several operations of one
store at the same time.
-/

namespace TemplateCache

/-- Where one store works. -/
structure Site (π : Type) where
  overlay : Overlay := ∅
  own : π
  environment : Environment := {}

instance {π : Type} : Clocked (Site π) where
  clock s := s.environment.clock
  setClock c s := { s with environment := { s.environment with clock := c } }

/-- An operation of a store. -/
abbrev Storing (π α : Type) := ExceptT StoreError (Job (Site π)) α

namespace Storing

variable {π α : Type}

/-- Bounds an operation by a token. -/
def within (token : Token) (operation : String) (job : Storing π α) : Storing π α :=
  ExceptT.mk (Job.within token operation job.run)

def ofExcept (result : Except StoreError α) : Storing π α := ExceptT.mk (pure result)

def naming (result : Except NameError α) : Storing π α := ofExcept (result.mapError .naming)

/-- Runs a job that does not fail. -/
def always (job : Job (Site π) α) : Storing π α := ExceptT.lift job

def gets (f : Site π → α) : Storing π α := always (f <$> Job.get)

def modify (f : Site π → Site π) : Storing π Unit := always (Job.modify f)

def overlay : Storing π Overlay := gets (·.overlay)

def changeOverlay (f : Overlay → Overlay) : Storing π Unit :=
  modify fun s => { s with overlay := f s.overlay }

/-- Puts a record of content into the overlay. -/
def keepContent (record : ContentRecord) : Storing π ContentRecord := do
  changeOverlay (·.putContent record)
  return record

/-- Puts a renderer into the overlay. -/
def keepCode (record : CodeRecord) : Storing π CodeRecord := do
  changeOverlay (·.putCode record)
  return record

/-- Runs all operations, and collects the failures into one. -/
def batch (results : List (Except StoreError String)) : Storing π Unit :=
  ofExcept ((Batch.collect results).mapError .batch |>.map fun _ => ())

end Storing

/-- What a sweep over a whole medium found, and its outcome. -/
structure Discovery where
  found : List ContentRecord
  outcome : Except StoreError Nat

structure Store (π : Type) where
  /-- The name of the medium, for errors. -/
  backend : String
  resolver : Resolver
  readContent : Address → Token → Storing π (Option ContentRecord)
  writeContent : Address → Content → Token → Storing π ContentRecord
  readCode : Address → Token → Storing π (Option StoredCode)
  writeCode : Address → Renderer → Token → Storing π CodeRecord
  /-- Removes everything of a name. -/
  unregister : String → Token → Storing π Unit
  /-- Drops what is cached, and with `all` what is shared with other stores of the medium. -/
  clear : (all : Bool) → Token → Storing π Unit
  /-- Finds all content that the medium can supply. Entries that fail do not stop it. -/
  scan : Token → Job (Site π) Discovery := fun _ => pure ⟨[], .ok 0⟩
  /-- The root of the source tree of a store that can be watched. -/
  sourceTree : Option Path := none
  /-- The name that a source file has here. -/
  nameOf : Path → Option String := fun _ => none
  /-- Reads one source file, if it is there. -/
  readSource : Path → Token → Storing π (Option ContentRecord) := fun _ _ => pure none

namespace Store

variable {π : Type}

/-- The record that writing content leaves in the overlay. -/
def writtenRecord (address : Address) (key : String) (content : Content) : ContentRecord :=
  .make address.name key content .explicit address.extension address.params

/-! ## Operations on the overlay alone -/

def readOverlayContent (resolver : Resolver) (address : Address) :
    Storing π (Option ContentRecord) := do
  let key ← Storing.naming (address.key resolver .content)
  return (← Storing.overlay).content.get? key

def writeOverlayContent (resolver : Resolver) (address : Address) (content : Content) :
    Storing π ContentRecord := do
  let key ← Storing.naming (address.key resolver .content)
  Storing.keepContent (writtenRecord address key content)

def readOverlayCode (resolver : Resolver) (address : Address) :
    Storing π (Option StoredCode) := do
  let key ← Storing.naming (address.key resolver .code)
  return ((← Storing.overlay).code.get? key).map .live

def writeOverlayCode (resolver : Resolver) (address : Address) (renderer : Renderer) :
    Storing π CodeRecord := do
  let key ← Storing.naming (address.key resolver .code)
  Storing.keepCode ⟨key, address.name, renderer⟩

end Store
end TemplateCache
