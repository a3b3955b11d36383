import TemplateCache.Json.Decode

/-!
# Naming rules

Where documents of each role live and what their names and extensions are. Every field has a
default, so any subset of them may be given.
-/

namespace TemplateCache

/-- The roles that a name can give to a document. -/
inductive DocRole where
  | template
  | context
  | partialDoc
  deriving DecidableEq, Repr

structure NamingRules where
  templateBase : String
  partialBase : String
  contextBase : String
  /-- The name that designates the primary template. -/
  templateName : String
  /-- The name that designates the context document. -/
  contextName : String
  templateExtension : String
  partialExtension : String
  contextExtension : String
  /-- Appended to the path of a content key to form the code key. -/
  codeSuffix : String
  /-- Names that match this pattern are keys already. -/
  verbatimPattern : Option String
  deriving DecidableEq, Repr

namespace NamingRules

/-- Absolute paths, paths with a drive letter, and URLs. -/
def qualifiedPattern : String :=
  "^(?:/|[A-Za-z]:[\\\\/]|[A-Za-z][A-Za-z0-9+.\\-]*://)"

def standard : NamingRules where
  templateBase := ""
  partialBase := "partials"
  contextBase := ""
  templateName := "template"
  contextName := "context"
  templateExtension := ".html"
  partialExtension := ".html"
  contextExtension := ".json"
  codeSuffix := ".compiled"
  verbatimPattern := some qualifiedPattern

instance : Inhabited NamingRules := ⟨standard⟩

def base (c : NamingRules) : DocRole → String
  | .template => c.templateBase
  | .context => c.contextBase
  | .partialDoc => c.partialBase

def extension (c : NamingRules) : DocRole → String
  | .template => c.templateExtension
  | .context => c.contextExtension
  | .partialDoc => c.partialExtension

def docRole (c : NamingRules) (name : String) : DocRole :=
  if name = c.templateName then .template
  else if name = c.contextName then .context
  else .partialDoc

open Json in
def decode : Decoder NamingRules := fun room t => do
  let read ← Decoder.fields
    ["template_base", "partial_base", "context_base", "template_name", "context_name",
      "template_extension", "partial_extension", "context_extension", "code_suffix",
      "bypass_pattern"] room t
  let text (field : String) (default : String) : Option String :=
    read.withDefault field Decoder.string default
  return {
    templateBase := ← text "template_base" standard.templateBase
    partialBase := ← text "partial_base" standard.partialBase
    contextBase := ← text "context_base" standard.contextBase
    templateName := ← text "template_name" standard.templateName
    contextName := ← text "context_name" standard.contextName
    templateExtension := ← text "template_extension" standard.templateExtension
    partialExtension := ← text "partial_extension" standard.partialExtension
    contextExtension := ← text "context_extension" standard.contextExtension
    codeSuffix := ← text "code_suffix" standard.codeSuffix
    verbatimPattern :=
      ← read.withDefault "bypass_pattern" (Decoder.optional Decoder.string)
        standard.verbatimPattern }

/-- The fields in order, as text of a JSON object. -/
def text (c : NamingRules) : String :=
  Json.Value.recordText [
    ("template_base", .string c.templateBase),
    ("partial_base", .string c.partialBase),
    ("context_base", .string c.contextBase),
    ("template_name", .string c.templateName),
    ("context_name", .string c.contextName),
    ("template_extension", .string c.templateExtension),
    ("partial_extension", .string c.partialExtension),
    ("context_extension", .string c.contextExtension),
    ("code_suffix", .string c.codeSuffix),
    ("bypass_pattern", c.verbatimPattern.elim .null .string)]

end NamingRules
end TemplateCache
