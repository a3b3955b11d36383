import TemplateCache.Duration
import TemplateCache.Error
import TemplateCache.Naming.Rules

/-!
# Compiler settings

Settings are read from JSON; every field has a default.
-/

namespace TemplateCache

/-- Whether a compile may ask the medium for content, and whether it leaves code there. -/
inductive AccessPolicy where
  | none
  | read
  | write
  | readWrite
  deriving DecidableEq, Repr

namespace AccessPolicy

def name : AccessPolicy → String
  | none => "none"
  | read => "read"
  | write => "write"
  | readWrite => "read-write"

def mayRead (p : AccessPolicy) : Bool := p == read || p == readWrite

def mayWrite (p : AccessPolicy) : Bool := p == write || p == readWrite

def decode : Json.Decoder AccessPolicy :=
  Json.Decoder.choice ([none, read, write, readWrite].map fun policy => (policy.name, policy))

end AccessPolicy

structure CompilerSettings where
  naming : NamingRules := .standard
  policy : AccessPolicy := .read
  /-- Whether renderers are used again. -/
  caching : Bool := true
  /-- The time that every operation of a store may take, in milliseconds. -/
  timeoutMilliseconds : Option Nat := none
  /-- Passed to the generator as it is. -/
  generator : Json.Value := .null
  deriving Inhabited

namespace CompilerSettings

open Json in
def decode : Decoder CompilerSettings := fun room t => do
  let read ← Decoder.fields
    ["naming", "render_time_policy", "cache_raw_templates", "operation_timeout_ms", "generator"]
    room t
  return {
    naming := ← read.withDefault "naming" NamingRules.decode .standard
    policy := ← read.withDefault "render_time_policy" AccessPolicy.decode .read
    caching := ← read.withDefault "cache_raw_templates" Decoder.bool true
    timeoutMilliseconds :=
      ← read.withDefault "operation_timeout_ms" (Decoder.optional Decoder.word) none
    generator := ← read.withDefault "generator" Decoder.value .null }

def ofString? (text : String) : Option CompilerSettings := Json.Decoder.ofString? decode text

/-- The fields in order, as text of a JSON object. -/
def text (s : CompilerSettings) : String :=
  let fields := [
    ("naming", s.naming.text),
    ("render_time_policy", Json.Value.quote s.policy.name),
    ("cache_raw_templates", (Json.Value.bool s.caching).text),
    ("operation_timeout_ms", (s.timeoutMilliseconds.elim .null Json.Value.ofNat).text),
    ("generator", s.generator.text)]
  let members := fields.map fun (name, value) => Json.Value.quote name ++ ":" ++ value
  "\x7b" ++ ",".intercalate members ++ "\x7d"

def timeout (s : CompilerSettings) : Option Duration :=
  s.timeoutMilliseconds.map .ofMilliseconds

/-- The resolver that a store of the compiler uses too. -/
def resolver? (s : CompilerSettings) : Except NameError Resolver := Resolver.ofRules? s.naming

end CompilerSettings
end TemplateCache
