import TemplateCache.KeyMap
import TemplateCache.Text.Percent

/-!
# Query parameters

Parameters are a map from text to text. Their canonical form is the form encoding of the pairs in
ascending order of the names, so equal maps have the same form.
-/

namespace TemplateCache

abbrev Params := KeyMap String

namespace Params

def canonical (p : Params) : String := String.ofList (Text.formPairs p.entries)

end Params
end TemplateCache
