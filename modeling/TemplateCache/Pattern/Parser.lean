import TemplateCache.Pattern.Form.Parser
import TemplateCache.Pattern.Meaning
import TemplateCache.Pattern.Size

/-!
# Patterns from text

A text is a pattern if it can be read, has a meaning, and is not too large.
-/

namespace TemplateCache.Pattern

/-- The pattern with a written form. -/
def parse? (source : String) : Option Pattern := do
  let form ← Form.parse? source
  let p ← form.meaning?
  if p.fits then return p else none

end TemplateCache.Pattern
