import TemplateCache.Json.Number

/-!
# JSON documents as written

`Tree.parse?` reads the strict grammar of the format from bytes: blanks are space, tab, line feed
and carriage return, no comma may trail, and nothing may follow the value. The tree keeps what the
grammar alone does not decide: members in order and with repetition, escapes of text, and number
literals, so that a reader that skips a member does not judge it.
-/

namespace TemplateCache.Json

/-- One element of quoted text: a byte that stands for itself, or a code unit written `\uXXXX`. -/
inductive Piece where
  | byte (value : UInt8)
  | unit (value : Nat)
  deriving DecidableEq, Repr

inductive Tree where
  | null
  | bool (value : Bool)
  | number (literal : Literal)
  | text (body : List Piece)
  | array (items : List Tree)
  | object (members : List (List Piece × Tree))

namespace Tree

def isBlank (b : UInt8) : Bool := b == 0x20 || b == 0x09 || b == 0x0a || b == 0x0d

def isDigit (b : UInt8) : Bool := 0x30 ≤ b && b ≤ 0x39

def digitValue (b : UInt8) : Nat := b.toNat - 0x30

/-- The value of a hexadecimal digit of either case. -/
def hexValue? (b : UInt8) : Option Nat :=
  if isDigit b then some (b.toNat - 0x30)
  else if 0x61 ≤ b && b ≤ 0x66 then some (b.toNat - 0x57)
  else if 0x41 ≤ b && b ≤ 0x46 then some (b.toNat - 0x37)
  else none

/-- The byte that a one-letter escape stands for. -/
def escaped? (b : UInt8) : Option UInt8 :=
  if b == 0x22 || b == 0x5c || b == 0x2f then some b
  else if b == 0x62 then some 0x08
  else if b == 0x66 then some 0x0c
  else if b == 0x6e then some 0x0a
  else if b == 0x72 then some 0x0d
  else if b == 0x74 then some 0x09
  else none

/-- Reads quoted text behind its opening quote, up to and with the closing one. -/
def scanText : List UInt8 → Option (List Piece × List UInt8)
  | [] => none
  | b :: rest =>
    if b == 0x22 then some ([], rest)
    else if b < 0x20 then none
    else if b == 0x5c then
      match rest with
      | c :: h₁ :: h₂ :: h₃ :: h₄ :: more =>
        if c == 0x75 then do
          let a ← hexValue? h₁
          let b ← hexValue? h₂
          let c ← hexValue? h₃
          let d ← hexValue? h₄
          let (body, after) ← scanText more
          return (.unit (((a * 16 + b) * 16 + c) * 16 + d) :: body, after)
        else do
          let e ← escaped? c
          let (body, after) ← scanText (h₁ :: h₂ :: h₃ :: h₄ :: more)
          return (.byte e :: body, after)
      | c :: more => do
        let e ← escaped? c
        let (body, after) ← scanText more
        return (.byte e :: body, after)
      | [] => none
    else do
      let (body, after) ← scanText rest
      return (.byte b :: body, after)

def scanDigits (bytes : List UInt8) : List Nat × List UInt8 :=
  ((bytes.takeWhile isDigit).map digitValue, bytes.dropWhile isDigit)

/-- The digits behind a point; there has to be one. -/
def scanFraction : List UInt8 → Option (Option (List Nat) × List UInt8)
  | 0x2e :: rest =>
    let (digits, after) := scanDigits rest
    if digits.isEmpty then none else some (some digits, after)
  | bytes => some (none, bytes)

def scanExponent : List UInt8 → Option (Option ExponentPart × List UInt8)
  | b :: rest =>
    if b == 0x65 || b == 0x45 then
      let (negative, unsigned) := match rest with
        | 0x2b :: more => (false, more)
        | 0x2d :: more => (true, more)
        | more => (false, more)
      let (digits, after) := scanDigits unsigned
      if digits.isEmpty then none else some (some ⟨negative, digits⟩, after)
    else some (none, b :: rest)
  | [] => some (none, [])

/-- Reads a number literal. A whole part with a leading zero is just that zero. -/
def scanNumber (bytes : List UInt8) : Option (Literal × List UInt8) := do
  let (negative, unsigned) := match bytes with
    | 0x2d :: rest => (true, rest)
    | rest => (false, rest)
  let (whole, rest) := scanDigits unsigned
  match whole with
  | [] => none
  | 0 :: _ :: _ => none
  | _ =>
    let (fraction, rest) ← scanFraction rest
    let (exponent, rest) ← scanExponent rest
    return (⟨negative, whole, fraction, exponent⟩, rest)

/-- Removes a word from the front. -/
def scanWord (word : List UInt8) (bytes : List UInt8) : Option (List UInt8) :=
  if word.isPrefixOf bytes then some (bytes.drop word.length) else none

def skipBlanks (bytes : List UInt8) : List UInt8 := bytes.dropWhile isBlank

mutual

/-- Reads one value behind blanks. -/
def scanValue : Nat → List UInt8 → Option (Tree × List UInt8)
  | 0, _ => none
  | fuel + 1, bytes =>
    match skipBlanks bytes with
    | [] => none
    | b :: rest =>
      if b == 0x22 then do
        let (body, after) ← scanText rest
        return (.text body, after)
      else if b == 0x5b then
        match skipBlanks rest with
        | 0x5d :: after => some (.array [], after)
        | more => do
          let (items, after) ← scanItems fuel more
          return (.array items, after)
      else if b == 0x7b then
        match skipBlanks rest with
        | 0x7d :: after => some (.object [], after)
        | more => do
          let (members, after) ← scanMembers fuel more
          return (.object members, after)
      else if b == 0x6e then do
        return (.null, ← scanWord [0x75, 0x6c, 0x6c] rest)
      else if b == 0x74 then do
        return (.bool true, ← scanWord [0x72, 0x75, 0x65] rest)
      else if b == 0x66 then do
        return (.bool false, ← scanWord [0x61, 0x6c, 0x73, 0x65] rest)
      else do
        let (literal, after) ← scanNumber (b :: rest)
        return (.number literal, after)

/-- Reads the items of an array that has one, with the closing bracket. -/
def scanItems : Nat → List UInt8 → Option (List Tree × List UInt8)
  | 0, _ => none
  | fuel + 1, bytes => do
    let (item, rest) ← scanValue fuel bytes
    match skipBlanks rest with
    | 0x2c :: more =>
      let (items, after) ← scanItems fuel more
      return (item :: items, after)
    | 0x5d :: after => return ([item], after)
    | _ => none

/-- Reads the members of an object that has one, with the closing brace. -/
def scanMembers : Nat → List UInt8 → Option (List (List Piece × Tree) × List UInt8)
  | 0, _ => none
  | fuel + 1, bytes =>
    match skipBlanks bytes with
    | 0x22 :: named => do
      let (name, rest) ← scanText named
      match skipBlanks rest with
      | 0x3a :: valued =>
        let (value, rest) ← scanValue fuel valued
        match skipBlanks rest with
        | 0x2c :: more =>
          let (members, after) ← scanMembers fuel more
          return ((name, value) :: members, after)
        | 0x7d :: after => return ([(name, value)], after)
        | _ => none
      | _ => none
    | _ => none

end

/-- The tree of a whole document. -/
def parse? (bytes : List UInt8) : Option Tree := do
  let (tree, rest) ← scanValue (2 * bytes.length + 2) bytes
  if (skipBlanks rest).isEmpty then some tree else none

def ofString? (s : String) : Option Tree := parse? s.toUTF8.toList

/-! ## Text -/

/-- The bytes of the scalar value with the given code point. -/
def utf8OfScalar (n : Nat) : List UInt8 := (String.singleton (Char.ofNat n)).toUTF8.toList

/-- The bytes of quoted text. A leading surrogate has to be followed by a trailing one, and no
trailing surrogate stands alone. -/
def unescape : List Piece → Option (List UInt8)
  | [] => some []
  | .byte b :: rest => (unescape rest).map (b :: ·)
  | .unit high :: .unit low :: rest =>
    if 0xd800 ≤ high ∧ high ≤ 0xdbff then
      if 0xdc00 ≤ low ∧ low ≤ 0xdfff then
        (unescape rest).map
          (utf8OfScalar (0x10000 + (high - 0xd800) * 0x400 + (low - 0xdc00)) ++ ·)
      else none
    else if 0xdc00 ≤ high ∧ high ≤ 0xdfff then none
    else (unescape (.unit low :: rest)).map (utf8OfScalar high ++ ·)
  | .unit n :: rest =>
    if 0xd800 ≤ n ∧ n ≤ 0xdfff then none else (unescape rest).map (utf8OfScalar n ++ ·)

/-- The string that quoted text stands for; its bytes have to be well formed. -/
def string? (body : List Piece) : Option String := do
  String.fromUTF8? ⟨(← unescape body).toArray⟩

end Tree
end TemplateCache.Json
