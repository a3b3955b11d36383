import TemplateCache.Domain.Joining
import TemplateCache.Domain.Mapping
import TemplateCache.Domain.Punycode

/-!
# Labels of domain names

A label is written in ASCII. One that starts with `xn--` stands for a label with other characters,
which it holds in Punycode; either form gives the other.
-/

namespace TemplateCache.Domain

open Unicode (setOf)

/-- The marks that a domain name may have. -/
def markRows : List String := [
  "BDoClcadibBfKpgKdBsbabbbbbaCukBwuqaDxgcfcbbdBjaBeBaDnkCgijaydbibcbeBrcChiBqxbBgCccbrbgkbBdcC",
  "eabgcbccjakbBaaccCeabeebccdaBebdalcCeabhbcbcubwfbcCeabgcbcchckbBeaChedcbdjaBoeCdabgbcbdhblbB",
  "dcCeabgbcbdhblbpamdCdbbgbcbdjakbBdcCsaefbabhsbCjacgmhDuacilgCvbBbababaebBxbbafgbcbbffbdbdbdb",
  "dbdblbcjaDwtxdecbccgddnlbakdBBbcBKkdBccBdbBebCoBdjaGlbBiaEolelIleCfjbBccaBwBtclueBvqBmimcBem",
  "CenBwtFwcbueagaccHqClBBsBgEOccFlaDsBfVifEbbBSQedbjBgbDcbKmadaeaxeeaDfbByrBarnaBmhzmBsdBvnBka",
  "CpnmaibBtcByabccbfbbaBpefbJchbbBDZsaBDppBLlaIsaFteCMgcbbfdBoceaGjbWbdCneMfbCzfCskBxdEscCboBp",
  "acbkdBtkhaCjcBknqbBsamcBwnidbbDolgacaGblvdCdbbgcbccjakbcgdeCpibacabdbebaobDerxaDdtJbgciBbbDe",
  "qEcmDxoJwoJlfbbcdbabbFlgcgdaBcjBogbdiajkBupHqhHrhbhDevbnEsfdabbbgbaCoebbbeNjdjbbaBwgdexaHXta",
  "goQYyrDSaeChgBOiabCchdDdalbBDAxbGYzBtcwUwedfihcgBedFscCYdCceBxiaoaweboCAigbqcgbbbeDwaGegOlaC",
  "jdTodJubJjacahbfaSggEfg"]

def marks : CodeSet := setOf markRows

/-- Characters that no host may hold. -/
def isForbiddenInHost (c : Char) : Bool :=
  ['\x00', '\t', '\n', '\r', ' ', '#', '/', ':', '<', '>', '?', '@', '[', '\\', ']', '^',
    '|'].contains c

def isForbidden (c : Char) : Bool :=
  isForbiddenInHost c || c.toNat < 0x20 || c == '%' || c.toNat == 0x7f

def isAscii (text : List Char) : Bool := text.all (·.toNat < 0x80)

/-- A label as it is read, and as it is written. -/
structure Label where
  readable : List Char
  ascii : List Char
  deriving DecidableEq, Repr

/-- How many characters a label with others than ASCII may have, and how many written as one with
ASCII alone. -/
def readableLimit : Nat := 1000

def asciiLimit : Nat := 2000

/-- Whether a text may be what a label says: it starts with no mark, and its joiners have an
effect. -/
def isReadable (text : List Char) : Bool :=
  !text.head?.any marks.contains && joinersFit text &&
    (isAscii text || text.length ≤ readableLimit)

def encodedMark : List Char := ['x', 'n', '-', '-']

/-- What is written behind the mark of an encoded label. Only what another form could not say is
encoded, and only in its own final form. -/
def decoded? (digits : List Char) : Option (List Char) := do
  if digits.getLast? = some '-' ∨ asciiLimit < digits.length then none
  else
    let text ← Punycode.decode? digits
    let isFinal := mapped? text == some text && composed text == text
    if isFinal && !isAscii text && !text.any (fun c => isForbidden c || c == '.') then return text
    else none

/-- The label that a text in composed form stands for. -/
def Label.ofText? (text : List Char) : Option Label := do
  if text.any isForbidden then none
  else
    let readable ← if encodedMark.isPrefixOf text then decoded? (text.drop 4) else some text
    if !isReadable readable then none
    else if isAscii text then return ⟨readable, text⟩
    else return ⟨readable, encodedMark ++ Punycode.encode text⟩

end TemplateCache.Domain
