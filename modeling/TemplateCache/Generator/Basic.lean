import TemplateCache.Record

/-!
# Generators

A generator makes a renderer from content, and may be able to load one from the source that a store
kept.
-/

namespace TemplateCache

structure GenerateError where
  message : String
  deriving DecidableEq, Repr

structure Generator where
  generate : Content → (options : Json.Value) → Except GenerateError Renderer
  /-- Makes a renderer from stored source. -/
  load : String → (options : Json.Value) → Except GenerateError Renderer :=
    fun _ _ => .error ⟨"generator cannot load persisted code"⟩

end TemplateCache
