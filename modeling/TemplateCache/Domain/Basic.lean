import TemplateCache.Domain.Direction
import TemplateCache.Domain.Label
import TemplateCache.Text.Find

/-!
# Domain names

`Domain.toAscii?` gives the form of a domain name in ASCII. The name is mapped and composed, and
split into labels; all of them have to be fit to be read, also side by side.
-/

namespace TemplateCache.Domain

def joinLabels : List (List Char) → List Char
  | [] => []
  | [label] => label
  | label :: rest => label ++ '.' :: joinLabels rest

/-- The labels of a name. -/
def labels? (name : List Char) : Option (List Label) := do
  let mapped ← mapped? name
  let labels ← (Text.splitOn '.' (composed mapped)).mapM Label.ofText?
  if haveOrder (labels.map (·.readable)) then return labels else none

def toAscii? (name : List Char) : Option (List Char) :=
  (labels? name).map fun labels => joinLabels (labels.map (·.ascii))

end TemplateCache.Domain
