import TemplateCache.Record

/-!
# Overlays

The records that a store keeps in memory, by canonical key and one map for each namespace. The last
write for a key wins.
-/

namespace TemplateCache

structure Overlay where
  content : KeyMap ContentRecord := ∅
  code : KeyMap CodeRecord := ∅

namespace Overlay

def empty : Overlay := {}

instance : EmptyCollection Overlay := ⟨empty⟩

instance : Inhabited Overlay := ⟨empty⟩

def putContent (o : Overlay) (record : ContentRecord) : Overlay :=
  { o with content := o.content.insert record.key record }

def putCode (o : Overlay) (record : CodeRecord) : Overlay :=
  { o with code := o.code.insert record.key record }

def eraseCode (o : Overlay) (key : String) : Overlay := { o with code := o.code.erase key }

/-- The keys of the content that was registered under a name. -/
def contentKeys (o : Overlay) (name : String) : List String :=
  (o.content.filter fun _ r => r.name == name).keys

/-- The keys of the renderers of a name. -/
def codeKeys (o : Overlay) (name : String) : List String :=
  (o.code.filter fun _ r => r.name == name).keys

/-- Drops the renderers of a name and keeps its content. -/
def removeCode (o : Overlay) (name : String) : Overlay :=
  { o with code := o.code.filter fun _ r => r.name != name }

/-- Drops everything of a name. -/
def eraseName (o : Overlay) (name : String) : Overlay :=
  { o.removeCode name with content := o.content.filter fun _ r => r.name != name }

end Overlay
end TemplateCache
