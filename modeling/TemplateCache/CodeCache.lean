import TemplateCache.Record

/-!
# Cached renderers

Renderers by code key. Every invalidation begins a new epoch. A key that was invalidated is stale,
and what was compiled before then is refused, until the key has been compiled anew.
-/

namespace TemplateCache

structure CodeCache where
  entries : KeyMap CodeRecord := ∅
  /-- The epoch of the last invalidation of a stale key. -/
  stale : KeyMap Nat := ∅
  epoch : Nat := 0
  lastClear : Nat := 0

namespace CodeCache

def empty : CodeCache := {}

instance : EmptyCollection CodeCache := ⟨empty⟩

instance : Inhabited CodeCache := ⟨empty⟩

def get? (r : CodeCache) (key : String) : Option CodeRecord := r.entries.get? key

def isStale (r : CodeCache) (key : String) : Bool := r.stale.contains key

/-- Whether a key was invalidated or cleared after an epoch. -/
def isOutdated (r : CodeCache) (key : String) (since : Nat) : Bool :=
  since < r.lastClear || (r.stale.get? key).any (since < ·)

/-- Caches what was compiled since an epoch, unless it has been invalidated after that. -/
def insert (r : CodeCache) (record : CodeRecord) (since : Nat) : Bool × CodeCache :=
  if r.isOutdated record.key since then (false, r)
  else
    (true, { r with
      entries := r.entries.insert record.key record
      stale := r.stale.erase record.key })

/-- Drops the renderers of some keys, and counts them. -/
def invalidate (r : CodeCache) (keys : List String) : Nat × CodeCache :=
  let epoch := r.epoch + 1
  keys.foldl (fun (dropped, r) key =>
    (dropped + (r.entries.contains key).toNat,
      { r with stale := r.stale.insert key epoch, entries := r.entries.erase key }))
    (0, { r with epoch := epoch })

/-- The keys under which a name has renderers. -/
def keysOf (r : CodeCache) (name : String) : List String :=
  (r.entries.filter fun _ record => record.name == name).keys

/-- Drops all renderers of a name. -/
def dropName (r : CodeCache) (name : String) : CodeCache := (r.invalidate (r.keysOf name)).2

/-- Ends the staleness of a key that was compiled since an epoch without being cached. -/
def refresh (r : CodeCache) (key : String) (since : Nat) : CodeCache :=
  if (r.stale.get? key).any (· ≤ since) then { r with stale := r.stale.erase key } else r

def clear (r : CodeCache) : CodeCache := { epoch := r.epoch + 1, lastClear := r.epoch + 1 }

def size (r : CodeCache) : Nat := r.entries.size

end CodeCache
end TemplateCache
