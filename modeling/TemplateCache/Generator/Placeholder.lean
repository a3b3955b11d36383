import TemplateCache.Generator.Basic
import TemplateCache.Text.Find

/-!
# Placeholder templates

Templates in which a member name between double braces stands for that member of the context. Text
members are taken as they are, others in compact form, and missing ones leave nothing.
-/

namespace TemplateCache.Placeholder

def opening : List Char := ['{', '{']

def closing : List Char := ['}', '}']

/-- What a placeholder is replaced by. -/
def lookup (context : Json.Value) (name : String) : String :=
  match context.get? name with
  | none => ""
  | some (.string s) => s
  | some value => value.text

/-- Replaces the placeholders from left to right. -/
def fill (context : Json.Value) (template : List Char) : Except RenderError String :=
  match opened : Text.splitFirst? opening template with
  | none => .ok (String.ofList template)
  | some (front, behind) =>
    match closed : Text.splitFirst? closing behind with
    | none => .error ⟨"unterminated placeholder"⟩
    | some (name, rest) =>
      have : rest.length < template.length :=
        Nat.lt_trans (Text.length_of_splitFirst? (by simp [closing]) closed)
          (Text.length_of_splitFirst? (by simp [opening]) opened)
      (fill context rest).map fun filled =>
        String.ofList front ++ lookup context (String.ofList name) ++ filled
termination_by template.length

/-- A renderer that fills a template. Options that are text are appended. -/
def renderer (template : String) (source : Option String) : Renderer where
  source := source
  render context options := do
    let filled ← fill context template.toList
    match options with
    | .string s => return filled ++ s
    | _ => return filled

/-- A text among the options, or nothing. -/
def optionText (options : Json.Value) (name : String) : String :=
  match options.get? name with
  | some (.string s) => s
  | _ => ""

/-- A mark for generators, in double braces. -/
def mark (name : String) : String := "\x7b\x7b!" ++ name ++ "\x7d\x7d"

/-- The option `tag` goes in front of content, and `load_tag` in front of loaded source. Marks in
the content make it fail or keep its source back. -/
def generator : Generator where
  generate content options :=
    let text := content.asText
    if Text.occursIn (mark "fail") text then .error ⟨"template contains a failure marker"⟩
    else
      let template := optionText options "tag" ++ text
      .ok (renderer template (if Text.occursIn (mark "nosource") text then none else some template))
  load source options :=
    if Text.occursIn (mark "nomat") source then .error ⟨"source cannot be loaded"⟩
    else
      let template := optionText options "load_tag" ++ source
      .ok (renderer template (some template))

/-- The same without loading. -/
def writeOnly : Generator := { generate := generator.generate }

end TemplateCache.Placeholder
