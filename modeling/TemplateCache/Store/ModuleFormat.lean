import TemplateCache.Json.Decode

/-!
# Module formats

What is written around the source of a renderer so that it can be loaded as a module.
-/

namespace TemplateCache

inductive ModuleFormat where
  | plain
  | commonJs
  | esm
  deriving DecidableEq, Repr

namespace ModuleFormat

def name : ModuleFormat → String
  | plain => "plain"
  | commonJs => "common-js"
  | esm => "esm"

def decode : Json.Decoder ModuleFormat :=
  Json.Decoder.choice ([plain, commonJs, esm].map fun format => (format.name, format))

/-- What stands in front of the source. -/
def opening : ModuleFormat → String
  | plain => ""
  | commonJs => "module.exports = "
  | esm => "export default "

/-- What stands behind the source. -/
def closing : ModuleFormat → String
  | plain => ""
  | commonJs => ";\n"
  | esm => ";\n"

def wrap (format : ModuleFormat) (source : String) : String :=
  format.opening ++ source ++ format.closing

/-- Takes a text off the front of another one, if it is there. -/
def withoutFront (front text : List Char) : List Char := (front.isPrefixOf? text).getD text

/-- Takes off what `wrap` puts around a source, front and back each if it is there. -/
def unwrap (format : ModuleFormat) (text : String) : String :=
  let rest := withoutFront format.opening.toList text.toList
  String.ofList (withoutFront format.closing.toList.reverse rest.reverse).reverse

end ModuleFormat
end TemplateCache
