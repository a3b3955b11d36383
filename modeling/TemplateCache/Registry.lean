import TemplateCache.Record

/-!
# Registry of partials

Records by content key, with an index of the keys that each name was registered under. A discovered
record that takes the place of an explicit one is marked as overriding, and keeps the mark while it
is only discovered again.
-/

namespace TemplateCache

/-- What a registration did. -/
inductive RegistryChange where
  /-- The key was not known before. -/
  | inserted
  /-- The record under the key was replaced. -/
  | replaced
  /-- A discovered record took the place of an explicit one. -/
  | overrode
  /-- The same content was registered again. -/
  | unchanged
  deriving DecidableEq, Repr

/-- Whether the content of the key may be another one now. -/
def RegistryChange.changed (r : RegistryChange) : Bool := r != .unchanged

structure Registry where
  byKey : KeyMap ContentRecord := ∅
  /-- The keys of each name. -/
  byName : KeyMap (KeyMap Unit) := ∅

namespace Registry

def empty : Registry := {}

instance : EmptyCollection Registry := ⟨empty⟩

instance : Inhabited Registry := ⟨empty⟩

/-- The keys that the index has for a name, in ascending order. -/
def keysOf (r : Registry) (name : String) : List String := ((r.byName.get? name).getD ∅).keys

def insert (r : Registry) (record : ContentRecord) : Registry where
  byKey := r.byKey.insert record.key record
  byName := r.byName.insert record.name (((r.byName.get? record.name).getD ∅).insert record.key ())

/-- The record that is left under a key where `known` is now, and what that amounts to. -/
def merge (known given : ContentRecord) : ContentRecord × RegistryChange :=
  match known.origin, given.origin with
  | .explicit, .discovered => ({ given with overridden := true }, .overrode)
  | .discovered, .explicit => (given, .replaced)
  | previous, _ =>
    let overridden := known.overridden && previous == .discovered
    if known.content.same given.content && known.overridden == overridden then (known, .unchanged)
    else ({ given with overridden := overridden }, .replaced)

def register (r : Registry) (given : ContentRecord) : (ContentRecord × RegistryChange) × Registry :=
  match r.byKey.get? given.key with
  | none => ((given, .inserted), r.insert given)
  | some known =>
    match merge known given with
    | (record, .unchanged) => ((record, .unchanged), r)
    | (record, outcome) => ((record, outcome), r.insert record)

/-- Registers a record whose key is not known yet. -/
def registerNew (r : Registry) (given : ContentRecord) : Option ContentRecord × Registry :=
  if r.byKey.contains given.key then (none, r) else (some given, r.insert given)

/-- The records of a name in the order of their keys. -/
def variants (r : Registry) (name : String) : List ContentRecord :=
  (r.keysOf name).filterMap r.byKey.get?

/-- The record of a name: the first one without parameters, or else the first one. -/
def get? (r : Registry) (name : String) : Option ContentRecord :=
  let records := r.variants name
  (records.find? fun record => record.params.isNone).or records.head?

/-- The record that serves a content key. A plain request also takes the record of the name that
has no parameters, whatever its extension. -/
def serving (r : Registry) (name key : String) (plain : Bool) : Option ContentRecord :=
  match r.byKey.get? key with
  | some record => some record
  | none => if plain then (r.get? name).filter fun record => record.params.isNone else none

/-- Removes the records under the keys of a name. -/
def remove (r : Registry) (name : String) : List ContentRecord × Registry :=
  let keys := r.keysOf name
  (r.variants name,
    { byKey := r.byKey.filter fun key _ => !keys.contains key, byName := r.byName.erase name })

def names (r : Registry) : List String := r.byName.keys

def size (r : Registry) : Nat := r.byKey.size

end Registry
end TemplateCache
