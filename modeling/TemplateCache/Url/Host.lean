import TemplateCache.Domain.Basic
import TemplateCache.Text.Hex
import TemplateCache.Text.Percent

/-!
# Hosts of URLs

A host of a URL with a special scheme is a domain name in ASCII form, an IPv4 address or an IPv6
address; elsewhere it is opaque text.
-/

namespace TemplateCache.Url

inductive ParseError where
  | emptyHost
  | domain
  | port
  | ipv4
  | ipv6
  | domainCharacter
  | noBase
  | opaqueBase
  deriving DecidableEq, Repr

namespace ParseError

def message : ParseError → String
  | emptyHost => "empty host"
  | domain => "invalid international domain name"
  | port => "invalid port number"
  | ipv4 => "invalid IPv4 address"
  | ipv6 => "invalid IPv6 address"
  | domainCharacter => "invalid domain character"
  | noBase => "relative URL without a base"
  | opaqueBase => "relative URL with a cannot-be-a-base base"

end ParseError

/-- Undoes percent encoding; a percent sign without two digits stands for itself. -/
def percentDecode : List UInt8 → List UInt8
  | 0x25 :: h :: l :: rest =>
    match Text.hexValue? (Char.ofNat h.toNat), Text.hexValue? (Char.ofNat l.toNat) with
    | some a, some b => (a * 16 + b).toUInt8 :: percentDecode rest
    | _, _ => 0x25 :: percentDecode (h :: l :: rest)
  | b :: rest => b :: percentDecode rest
  | [] => []

/-! ## Addresses -/

/-- A number of an IPv4 address: decimal, hexadecimal behind `0x`, octal behind `0`. -/
def ipv4Number? (part : List Char) : Option Nat :=
  let read (base : Nat) (digits : List Char) : Option Nat :=
    digits.foldlM (fun acc c =>
      (Text.hexValue? c).bind fun d => if d < base then some (acc * base + d) else none) 0
  match part with
  | [] => none
  | '0' :: 'x' :: digits => read 16 digits
  | '0' :: 'X' :: digits => read 16 digits
  | '0' :: d :: digits => read 8 (d :: digits)
  | digits => read 10 digits

def dropTrailingEmpty (parts : List (List Char)) : List (List Char) :=
  match parts.reverse with
  | [] :: more@(_ :: _) => more.reverse
  | _ => parts

/-- Whether the last label is a number, so that the host has to be an IPv4 address. -/
def endsInNumber (domain : List Char) : Bool :=
  match (dropTrailingEmpty (Text.splitOn '.' domain)).getLast? with
  | none => false
  | some [] => false
  | some last => last.all Char.isDigit || (ipv4Number? last).isSome

def ipv4? (domain : List Char) : Option Nat := do
  let parts := dropTrailingEmpty (Text.splitOn '.' domain)
  if 4 < parts.length then none
  else
    let numbers ← parts.mapM ipv4Number?
    match numbers.reverse with
    | [] => none
    | last :: front =>
      if front.any (255 < ·) ∨ Nat.pow 256 (5 - numbers.length) ≤ last then none
      else
        some (front.reverse.zipIdx.foldl (fun acc (n, i) => acc + n * Nat.pow 256 (3 - i)) last)

def ipv4Text (n : Nat) : String :=
  ".".intercalate ([3, 2, 1, 0].map fun i => toString (n / Nat.pow 256 i % 256))

/-- The two groups of a dotted address at the end of an IPv6 address. -/
def embeddedIpv4? (part : List Char) : Option (List Nat) := do
  let parts := Text.splitOn '.' part
  let numbers ← parts.mapM fun p =>
    if p.isEmpty ∨ 3 < p.length ∨ !p.all Char.isDigit ∨ (p.head? = some '0' ∧ 1 < p.length) then
      none
    else
      let n := p.foldl (fun acc c => acc * 10 + (c.toNat - '0'.toNat)) 0
      if 255 < n then none else some n
  match numbers with
  | [a, b, c, d] => some [a * 256 + b, c * 256 + d]
  | _ => none

/-- Groups between colons; the last may be a dotted address. -/
def ipv6Groups? (text : List Char) : Option (List Nat) :=
  if text.isEmpty then some []
  else
    let parts := Text.splitOn ':' text
    parts.zipIdx.foldlM (fun acc (part, i) =>
      if part.contains '.' then
        if i + 1 = parts.length then (embeddedIpv4? part).map (acc ++ ·) else none
      else if part.isEmpty ∨ 4 < part.length then none
      else do
        let n ← part.foldlM (fun v c => (Text.hexValue? c).map (v * 16 + ·)) 0
        return acc ++ [n]) []

/-- Splits at the first double colon. -/
def splitDoubleColon : List Char → Option (List Char × List Char)
  | ':' :: ':' :: rest => some ([], rest)
  | c :: rest => (splitDoubleColon rest).map fun (a, b) => (c :: a, b)
  | [] => none

/-- The eight groups of an IPv6 address. -/
def ipv6? (text : List Char) : Option (List Nat) := do
  match splitDoubleColon text with
  | none =>
    let groups ← ipv6Groups? text
    if groups.length = 8 then some groups else none
  | some (front, back) =>
    if front.contains '.' then none
    else
      let a ← ipv6Groups? front
      let b ← ipv6Groups? back
      if a.length + b.length ≤ 7 then some (a ++ List.replicate (8 - a.length - b.length) 0 ++ b)
      else none

/-- Where the first longest run of zero groups starts and how long it is. -/
def longestZeros (groups : List Nat) : Nat × Nat :=
  let runs := (List.range groups.length).map fun i =>
    (i, ((groups.drop i).takeWhile (· == 0)).length)
  runs.foldl (fun best r => if best.2 < r.2 then r else best) (0, 0)

def groupText (n : Nat) : String := String.ofList (Nat.toDigits 16 n)

/-- The text of an address, its longest run of two or more zero groups left out. -/
def ipv6Text (groups : List Nat) : String :=
  let (start, count) := longestZeros groups
  let write (gs : List Nat) := ":".intercalate (gs.map groupText)
  if count < 2 then write groups
  else write (groups.take start) ++ "::" ++ write (groups.drop (start + count))

/-! ## Hosts -/

/-- Bytes that opaque hosts keep: all but controls and what is not ASCII. -/
def isNoControl (b : UInt8) : Bool := 0x20 ≤ b && b < 0x7f

def bracketed? (text : List Char) : Option (List Char) :=
  match text with
  | '[' :: rest =>
    match rest.reverse with
    | ']' :: inner => some inner.reverse
    | _ => none
  | _ => none

def parseIpv6Host (text : List Char) : Except ParseError String :=
  match (bracketed? text).bind ipv6? with
  | some groups => .ok ("[" ++ ipv6Text groups ++ "]")
  | none => .error .ipv6

/-- The host of a URL with a special scheme. -/
def parseHost (text : List Char) : Except ParseError String :=
  if text.head? = some '[' then parseIpv6Host text
  else
    let decoded := String.fromUTF8? ⟨(percentDecode (String.ofList text).toUTF8.toList).toArray⟩
    match decoded.bind fun d => Domain.toAscii? d.toList with
    | none => .error .domain
    | some domain =>
      if domain.isEmpty then .error .emptyHost
      else if endsInNumber domain then
        match ipv4? domain with
        | some n => .ok (ipv4Text n)
        | none => .error .ipv4
      else .ok (String.ofList domain)

/-- The host of a URL with any other scheme. -/
def parseOpaqueHost (text : List Char) : Except ParseError String :=
  if text.head? = some '[' then parseIpv6Host text
  else if text.any Domain.isForbiddenInHost then .error .domainCharacter
  else .ok (String.ofList (Text.percentEncode isNoControl (String.ofList text).toUTF8.toList))

end TemplateCache.Url
