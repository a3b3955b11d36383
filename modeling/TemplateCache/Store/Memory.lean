import TemplateCache.Store.Basic

/-!
# Stores in memory

The overlay is the medium. A delayed store does the same but takes its time over reading content.
-/

namespace TemplateCache.Store

def memory (resolver : Resolver) : Store Unit where
  backend := "memory"
  resolver := resolver
  readContent address _ := readOverlayContent resolver address
  writeContent address content _ := writeOverlayContent resolver address content
  readCode address _ := readOverlayCode resolver address
  writeCode address renderer _ := writeOverlayCode resolver address renderer
  unregister name _ := Storing.changeOverlay (·.eraseName name)
  clear _ _ := Storing.changeOverlay fun _ => ∅

/-- A store in memory whose reads of content take some milliseconds. -/
def delayed (resolver : Resolver) (delay : Nat) : Store Unit :=
  { memory resolver with
    backend := "slow"
    readContent := fun address token => do
      Storing.within token "slow read" (Storing.always (Job.sleep delay))
      readOverlayContent resolver address }

end TemplateCache.Store
