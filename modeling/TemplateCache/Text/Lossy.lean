/-!
# Reading bytes as text

Bytes that are not well-formed UTF-8 are read as replacement characters, one for each longest
beginning of a character that breaks off.
-/

namespace TemplateCache.Text

def replacement : Char := '\uFFFD'

/-- What a byte that starts a character says: the character itself, or its leading bits and the
ranges of the bytes that have to follow. -/
inductive Lead where
  | char (c : Char)
  | sequence (bits : Nat) (ranges : List (UInt8 × UInt8))
  | none

def lead (b : UInt8) : Lead :=
  let any : UInt8 × UInt8 := (0x80, 0xbf)
  if b < 0x80 then .char (Char.ofNat b.toNat)
  else if b < 0xc2 then .none
  else if b < 0xe0 then .sequence (b.toNat % 32) [any]
  else if b = 0xe0 then .sequence 0 [(0xa0, 0xbf), any]
  else if b = 0xed then .sequence 13 [(0x80, 0x9f), any]
  else if b < 0xf0 then .sequence (b.toNat % 16) [any, any]
  else if b = 0xf0 then .sequence 0 [(0x90, 0xbf), any, any]
  else if b < 0xf4 then .sequence (b.toNat % 8) [any, any, any]
  else if b = 0xf4 then .sequence 4 [(0x80, 0x8f), any, any]
  else .none

/-- Whether a byte is in the first of some ranges. -/
def continues (b : UInt8) : List (UInt8 × UInt8) → Bool
  | [] => false
  | (low, high) :: _ => low ≤ b && b ≤ high

/-- Reads bytes in the middle of a character, whose missing bytes have the given ranges. -/
def readLossy : List UInt8 → (bits : Nat) → (ranges : List (UInt8 × UInt8)) → List Char
  | [], _, ranges => if ranges.isEmpty then [] else [replacement]
  | b :: rest, bits, ranges =>
    if continues b ranges then
      let bits := bits * 64 + b.toNat % 64
      if ranges.tail.isEmpty then Char.ofNat bits :: readLossy rest 0 []
      else readLossy rest bits ranges.tail
    else
      (if ranges.isEmpty then [] else [replacement]) ++
        match lead b with
        | .char c => c :: readLossy rest 0 []
        | .sequence bits ranges => readLossy rest bits ranges
        | .none => replacement :: readLossy rest 0 []

def ofBytesLossy (bytes : List UInt8) : String := String.ofList (readLossy bytes 0 [])

end TemplateCache.Text
