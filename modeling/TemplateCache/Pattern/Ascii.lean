import TemplateCache.Unicode.CodeSet

/-!
# Sets of ASCII characters

The sets of ASCII characters that have a name.
-/

namespace TemplateCache.Pattern

def asciiDigit : CodeSet := ⟨[⟨0x30, 0x39⟩]⟩

/-- Letters, digits and the underscore. -/
def asciiWord : CodeSet := ⟨[⟨0x30, 0x39⟩, ⟨0x41, 0x5a⟩, ⟨0x5f, 0x5f⟩, ⟨0x61, 0x7a⟩]⟩

def asciiSpace : CodeSet := ⟨[⟨0x09, 0x0d⟩, ⟨0x20, 0x20⟩]⟩

def asciiClass? : String → Option CodeSet
  | "alnum" => some ⟨[⟨0x30, 0x39⟩, ⟨0x41, 0x5a⟩, ⟨0x61, 0x7a⟩]⟩
  | "alpha" => some ⟨[⟨0x41, 0x5a⟩, ⟨0x61, 0x7a⟩]⟩
  | "ascii" => some ⟨[⟨0x00, 0x7f⟩]⟩
  | "blank" => some ⟨[⟨0x09, 0x09⟩, ⟨0x20, 0x20⟩]⟩
  | "cntrl" => some ⟨[⟨0x00, 0x1f⟩, ⟨0x7f, 0x7f⟩]⟩
  | "digit" => some asciiDigit
  | "graph" => some ⟨[⟨0x21, 0x7e⟩]⟩
  | "lower" => some ⟨[⟨0x61, 0x7a⟩]⟩
  | "print" => some ⟨[⟨0x20, 0x7e⟩]⟩
  | "punct" => some ⟨[⟨0x21, 0x2f⟩, ⟨0x3a, 0x40⟩, ⟨0x5b, 0x60⟩, ⟨0x7b, 0x7e⟩]⟩
  | "space" => some asciiSpace
  | "upper" => some ⟨[⟨0x41, 0x5a⟩]⟩
  | "word" => some asciiWord
  | "xdigit" => some ⟨[⟨0x30, 0x39⟩, ⟨0x41, 0x46⟩, ⟨0x61, 0x66⟩]⟩
  | _ => none

end TemplateCache.Pattern
