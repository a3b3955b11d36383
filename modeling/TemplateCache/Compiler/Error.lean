import TemplateCache.Compiler.Settings
import TemplateCache.Generator.Basic

/-!
# Errors of compilers
-/

namespace TemplateCache

inductive CompileError where
  | naming (error : NameError)
  /-- No store supplies content for the name. -/
  | contentNotFound (name key : String) (policy : AccessPolicy)
  /-- The generator refused the content. -/
  | generate (name key : String) (error : GenerateError)
  /-- An operation of the store for one name failed. -/
  | storeFor (name key : String) (error : StoreError)
  | store (error : StoreError)
  | render (name : String) (error : RenderError)
  /-- The source tree cannot be watched. -/
  | watch
  | unsupported (what : String)
  | unreadableSettings
  /-- The file with the settings cannot be read. -/
  | settingsFile (path : Path) (error : FileError)

namespace CompileError

/-- Whether an operation was cancelled. -/
def isCancelled : CompileError → Bool
  | store (.cancelled _) => true
  | storeFor _ _ (.cancelled _) => true
  | _ => false

def message : CompileError → String
  | naming e => "Name resolution error: " ++ e.message
  | contentNotFound name key policy =>
    "No content for `" ++ name ++ "` (key `" ++ key ++ "`, render-time policy `" ++ policy.name ++
      "`)"
  | generate name key e => "Failed to compile `" ++ name ++ "` (key `" ++ key ++ "`): " ++ e.message
  | storeFor name key e => "Store error for `" ++ name ++ "` (key `" ++ key ++ "`): " ++ e.message
  | store e => "Store error: " ++ e.message
  | render name e => "Failed to render `" ++ name ++ "`: " ++ e.message
  | watch => "Watch error"
  | unsupported what => "Unsupported operation: " ++ what
  | unreadableSettings => "Configuration error: <json>"
  | settingsFile path e =>
    "Configuration error: Failed to read " ++ path.text ++ ": " ++ e.message

end CompileError

namespace CompilerSettings

/-- Reads settings from text. -/
def parse (text : String) : Except CompileError CompilerSettings :=
  (ofString? text).elim (.error .unreadableSettings) .ok

end CompilerSettings
end TemplateCache
