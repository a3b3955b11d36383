import TemplateCache.Unicode.Age
import TemplateCache.Unicode.Folding
import TemplateCache.Unicode.Property
import TemplateCache.Unicode.Script

/-!
# Named sets of characters

A set of characters can be asked for by the name of a property, a category or a script, or by the
name of a property and one of its values. Names are compared without regard to case, blanks,
hyphens, underscores and a leading "is".
-/

namespace TemplateCache.Unicode

/-- Names are compared in this form. The name `isc` is one of its own, since `c` alone is a
category. -/
def looseName (name : String) : String :=
  let plain (chars : List Char) : List Char :=
    (chars.filter fun c => c != ' ' && c != '_' && c != '-' && c.toNat < 0x80).map Char.toLower
  match name.toList with
  | i :: s :: rest =>
    if i.toLower == 'i' && s.toLower == 's' then
      String.ofList (if plain rest == ['c'] then ['i', 's', 'c'] else plain rest)
    else String.ofList (plain name.toList)
  | chars => String.ofList (plain chars)

/-- The set of a general category or of a group of these. -/
def categorySet? : String → Option CodeSet
  | "any" => some .all
  | "assigned" => some (Category.setOf [.cn]).complement
  | "ascii" => some (.range 0 0x7f)
  | name => (Category.group? name).map Category.setOf

/-- Names of properties that stand for categories where they are alone. -/
def categoryFirst : List String := ["cf", "sc", "lc"]

/-- The set with a name: a property, a category or a script. -/
def named? (name : String) : Option CodeSet :=
  let name := looseName name
  let property := if categoryFirst.contains name then none else property? name
  property.orElse fun _ => (categorySet? name).orElse fun _ => (scriptNumber? name).map scriptSet

/-- The set of the characters for which a property has a value. -/
def valued? (property value : String) : Option CodeSet :=
  let value := looseName value
  match looseName property with
  | "gc" | "generalcategory" => categorySet? value
  | "sc" | "script" => (scriptNumber? value).map scriptSet
  | "scx" | "scriptextensions" => (scriptNumber? value).map scriptExtensionSet
  | "age" => (versionNumber? value).map ageSet
  | "gcb" | "graphemeclusterbreak" => graphemeBreak.set? value
  | "wb" | "wordbreak" => wordBreak.set? value
  | "sb" | "sentencebreak" => sentenceBreak.set? value
  | _ => none

/-- Characters of words: letters and the like, marks, decimal digits, connectors and joiners. -/
def wordCharacters : CodeSet :=
  CodeSet.unions [alphabetic, Category.setOf (.nd :: .pc :: Category.marks), table "joincontrol"]

def decimalDigits : CodeSet := Category.setOf [.nd]

end TemplateCache.Unicode
