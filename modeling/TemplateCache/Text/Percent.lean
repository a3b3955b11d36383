/-!
# Percent encoding

Bytes outside a kept set are written as `%` and two uppercase hexadecimal digits. The form encoding
keeps letters, digits and `*-._` and writes a space as `+`; pairs are joined by `=` and `&`.
-/

namespace TemplateCache.Text

def upperHexDigit (n : Nat) : Char :=
  if n < 10 then Char.ofNat (0x30 + n) else Char.ofNat (0x37 + n)

def percentByte (b : UInt8) : List Char :=
  ['%', upperHexDigit (b.toNat / 16), upperHexDigit (b.toNat % 16)]

/-- Writes the kept bytes, which have to be ASCII, as characters and the others percent encoded. -/
def percentEncode (kept : UInt8 → Bool) (bytes : List UInt8) : List Char :=
  bytes.flatMap fun b => if kept b then [Char.ofNat b.toNat] else percentByte b

def isLetterOrDigit (b : UInt8) : Bool :=
  (0x30 ≤ b && b ≤ 0x39) || (0x41 ≤ b && b ≤ 0x5a) || (0x61 ≤ b && b ≤ 0x7a)

/-- The bytes that a form keeps. -/
def isFormKept (b : UInt8) : Bool :=
  isLetterOrDigit b || b == 0x2a || b == 0x2d || b == 0x2e || b == 0x5f

def formByte (b : UInt8) : List Char :=
  if b == 0x20 then ['+'] else if isFormKept b then [Char.ofNat b.toNat] else percentByte b

def formEncode (s : String) : List Char := s.toUTF8.toList.flatMap formByte

def formPair (pair : String × String) : List Char := formEncode pair.1 ++ '=' :: formEncode pair.2

/-- The pairs as a query. -/
def formPairs : List (String × String) → List Char
  | [] => []
  | [p] => formPair p
  | p :: rest => formPair p ++ '&' :: formPairs rest

end TemplateCache.Text
