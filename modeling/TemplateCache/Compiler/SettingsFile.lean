import TemplateCache.Compiler.Error
import TemplateCache.Files.Tree

/-!
# Settings in a file
-/

namespace TemplateCache.CompilerSettings

/-- Reads settings from a file. -/
def ofFile (files : FileTree) (path : Path) : Except CompileError CompilerSettings := do
  let text ← (files.readText path).mapError fun kind => .settingsFile path ⟨kind, none⟩
  parse text

end TemplateCache.CompilerSettings
