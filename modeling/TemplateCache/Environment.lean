import TemplateCache.Engine
import TemplateCache.Files.Tree
import TemplateCache.Job
import TemplateCache.Network

/-!
# Environment

What stores share: the clock, a tree of files, a key-value engine and a network.
-/

namespace TemplateCache

structure Environment where
  clock : Clock := {}
  files : FileTree := {}
  engine : Engine := {}
  network : Network := .offline

instance : Inhabited Environment := ⟨{}⟩

instance : Clocked Environment := ⟨Environment.clock, fun c e => { e with clock := c }⟩

end TemplateCache
