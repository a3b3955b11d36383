import TemplateCache.Unicode.Runs

/-!
# Composed characters

Marks are put into one order behind the character they belong to, and composed with it where there
is a character for both. The tables hold the characters that a domain name may have.
-/

namespace TemplateCache.Domain

open Unicode (Run numbers runsOf valueIn)

/-- A character that another one and a mark make up. -/
structure Composite where
  whole : Nat
  base : Nat
  mark : Nat
  deriving DecidableEq, Repr

def compositesFrom : List Nat → (start : Nat) → List Composite
  | ahead :: base :: mark :: rest, start =>
    ⟨start + ahead, base, mark⟩ :: compositesFrom rest (start + ahead)
  | _, _ => []

/-- The characters with parts: how far each is from the one before, and its parts. -/
def compositeRows : List String := [
  "IqDtBDobDtBDpbDtBDqbDtBDrbDtBDwbDtBDycDvBFbbDxBDobDxBDpbDxBDqbDxBDwbEbBDobEbBDpbEbBDqbEbBDwc",
  "EgBDrbEhBDobEhBDpbEhBDqbEhBDrbEhBDwdEnBDobEnBDpbEnBDqbEnBDwbErBDpcErBDwcDtBDscDtBDucDtBFccDv",
  "BDpcDvBDqcDvBDvcDvBEacDwBEaeDxBDscDxBDucDxBDvcDxBFccDxBEacDzBDqcDzBDucDzBDvcDzBFbcEaBDqeEbBD",
  "rcEbBDscEbBDucEbBFcgEcBDqcEdBFbdEeBDpcEeBFbcEeBEagEgBDpcEgBFbcEgBEafEhBDscEhBDucEhBDzeEkBDpc",
  "EkBFbcEkBEacElBDpcElBDqcElBFbcElBEacEmBFbcEmBEaeEnBDrcEnBDscEnBDucEnBDycEnBDzcEnBFccEpBDqcEr",
  "BDqdEsBDpcEsBDvcEsBEaBjEhBEppEnBEpBeDtBEacEbBEacEhBEacEnBEacJsBDscJsBDpcJsBEacJsBDodIuBDscVf",
  "BDscIwBDseDzBEacEdBEacEhBFccSxBDscZiBEabEcBEafDzBDpeEgBDocIvBDpcIwBDpcJoBDpcDtBEdcDtBEfcDxBE",
  "dcDxBEfcEbBEdcEbBEfcEhBEdcEhBEfcEkBEdcEkBEfcEnBEdcEnBEfcElBFacEmBFaeEaBEaiDtBDvcDxBFbcJmBDsc",
  "JlBDscEhBDvcVnBDscErBDsNlBLiBDpBcBKjBDpbBKnBDpbBKpBDpbBKrBDpbBLjBDpBaBKrBDwbBLdBDwbBKxBDpbBL",
  "dBDpbBLhBDpEdBPoBDuxBPlBDobBPlBDwcBPjBDpeBQsBDwfBPqBDpbBPoBDobBPzBDuzBRxBEdCxBPmBDupBPgBDucB",
  "PgBDweBPlBDueBVtBDwcBPmBDwcBPnBDweBPoBDscBPoBDwcBPuBDweBWjBDwcBQjBDwcBPzBDscBPzBDwcBPzBDzcBQ",
  "dBDweBQhBDwLlCIpCKhbCIpCKibCJwCKibCIpCKjbCJyCKiFyCPhCKicCOnCKirCPeCKiXaDMeDMyiDMmDMydDMpDMyF",
  "vDShDRybDShDSxOqEHbEHqdEHbEGsbEHbEHrCuEJyEMpCcELyELqbELzELqbELyEMpEuEQwERmEqEVnEWjhEVuEWjbEV",
  "uEWkcEVuEVqbEVyEWjExFAsFAkbFAtFAkbFAsFBjFmFGjFFucFGjFFzbFGmFFubFGjFGpWmGCzGDiEDcKGbKHxcKGdKH",
  "xcKGfKHxcKGhKHxcKGjKHxeKGnKHxBpKIcKHxcKIeKHxdKIgKHxbKIhKHxcKIkKHxBBaDtBEzcDuBDvcDuBExcDuBFlc",
  "IxBDpcDwBDvcDwBExcDwBFlcDwBFbcDwBFhcKpBDocKpBDpcDxBFhcDxBFkcVhBDucDyBDvcDzBDscEaBDvcEaBExcEa",
  "BDwcEaBFbcEaBFicEbBFkcJfBDpcEdBDpcEdBExcEdBFlcEeBExcLLnBDscEeBFlcEeBFhcEfBDpcEfBDvcEfBExcEgB",
  "DvcEgBExcEgBFlcEgBFhcJlBDpcJlBDwcMvBDocMvBDpcEiBDpcEiBDvcEkBDvcEkBExcLMxBDscEkBFlcElBDvcElBE",
  "xcNjBDvcNpBDvcLNfBDvcEmBDvcEmBExcEmBFlcEmBFhcEnBEycEnBFkcEnBFhcNxBDpcNzBDwcEoBDrcEoBExcEpBDo",
  "cEpBDpcEpBDwcEpBDvcEpBExcEqBDvcEqBDwcErBDvcEsBDqcEsBExcEsBFlbEaBFlbEmBDwbEpBDybErBDyiDtBExcD",
  "tBDxcIsBDpcIsBDocIsBDxcIsBDrcLPpBDqcJzBDpcJzBDocJzBDxcJzBDrcLPpBDucDxBExcDxBDxcDxBDrcJaBDpcJ",
  "aBDocJaBDxcJaBDrcLQnBDqcEbBDxcEbBExcEhBExcEhBDxcJkBDpcJkBDocJkBDxcJkBDrcLRhBDqcQbBDpcQbBDocQ",
  "bBDxcQbBDrcQbBExcEnBExcEnBDxcQqBDpcQqBDocQqBDxcQqBDrcQqBExcErBDocErBExcErBDxcErBDrhBKjBEhbBK",
  "jBEibLTgBDobLThBDobLTgBDpbLThBDpbLTgBGcbLThBGcjBKnBEhbBKnBEibLTwBDobLTxBDobLTwBDpbLTxBDplBKp",
  "BEhbBKpBEibLUmBDobLUnBDobLUmBDpbLUnBDpbLUmBGcbLUnBGcjBKrBEhbBKrBEibLVcBDobLVdBDobLVcBDpbLVdB",
  "DpbLVcBGcbLVdBGcjBKxBEhbBKxBEibLVsBDobLVtBDobLVsBDpbLVtBDplBLdBEhbBLdBEibLWiBDobLWjBDobLWiBD",
  "pbLWjBDpbLWiBGcbLWjBGcjBLhBEhbBLhBEibLWyBDobLWzBDobLWyBDpbLWzBDpbLWyBGcbLWzBGcjBKjBDocBKnBDo",
  "cBKpBDocBKrBDocBKxBDocBLdBDocBLhBDoCaBKjBDubBKjBDsfBKjBGcqBKpBGckBKrBDubBKrBDsbBLiBDoeBKrBGc",
  "bBLiBGcjBLdBDubBLdBDsbBLjBDocBKzBEhbBKzBEibBLdBGcbBLjBGcpBLhBGcQeMSmBFsbMSoBFstMSqBFsBfMUyBF",
  "sbMVcBFsbMVaBFsCbMWxBFsfMXcBFsdMXfBFsyMYdBFscMYfBFsBbMZcBFsdMZjBFsdMZlBFscMZoBFsxCjBFscNAnBF",
  "slMZtBFsbCiBFsbCkBFsbNAqBFsbNArBFsdNBeBFsbNBfBFsdNBiBFsbNBjBFshNBmBFsbNBnBFsdNBuBFsbNBvBFsdN",
  "ByBFsbNBzBFsBjNDaBFsbNDgBFsbNDhBFsbNDjBFsBxNBoBFsbNBpBFsbNCjBFsbNCkBFshNDqBFsbNDrBFsbNDsBFsb",
  "NDtBFsFBrSHnSKncSHpSKncSHrSKncSHtSKncSHvSKncSHxSKncSHzSKncSIbSKncSIdSKncSIfSKncSIhSKncSIjSKn",
  "dSImSKncSIoSKncSIqSKnhSIxSKnbSIxSKocSJaSKnbSJaSKocSJdSKnbSJdSKocSJgSKnbSJgSKocSJjSKnbSJjSKox",
  "SHiSKnkSKrSKnoSLfSKncSLhSKncSLjSKncSLlSKncSLnSKncSLpSKncSLrSKncSLtSKncSLvSKncSLxSKncSLzSKncS",
  "MbSKndSMeSKncSMgSKncSMiSKnhSMpSKnbSMpSKocSMsSKnbSMsSKocSMvSKnbSMvSKocSMySKnbSMySKocSNbSKnbSN",
  "bSKoxSLaSKndSNvSKnbSNwSKnbSNxSKnbSNySKneSOjSKnDCPfDVDyBDvBbDVEgBDvEBmDZGbDZHicDZGdDZHipDZGnD",
  "ZHiFbDZLxDZLnbDZLyDZLnUuEAGlEAGcbEAGlEAHbCdEAIsEALlcEAIuEAKxjEAJbEALedEAJgEALlCaEALeEALecEAL",
  "eEAKubEALeEALlJjEAUrEAUsbEAUrEAUicEAUrEAUvJsEBEmEBEdbEBEnEBEdBIjECMvECMqBBGbFDSwFDSwbFDSwFDT",
  "hbFDSwFDSxbFDThFDSxbFDSwFDSybFDSzFDSxbFDTaFDSxbFDSzFDSyEQqFIJvFIJvbFIJrFIJvbFIJxFIJv"]

def composites : List Composite := compositesFrom (numbers compositeRows) 0

/-- The classes of all characters up to the last mark. -/
def classRows : List String := [
  "BDnauIwaIydImaIyaIieImbHudImbHukImebdImjIwcImcIwcImcIwdImaIwaIybImaIwaIzbJaaIzbJaaIznIwKnaeI",
  "wKeaaImdIwaImcIwaIoaImfIwfImbIwaImbIwaIoaIuaIwakalamanaoapaqarasbtauavawaaaxaaayazaaaIwaImaa",
  "isClahIwaBeaBfaBgBvaaBbaBcaBdaBeaBfaBgaBhaBibIwbImeIwaImbIwaImpaaBjDwahIwaadIwaImaIwbabIwaaa",
  "ImbIwaImBiaaBkBdaaIwaImbIwaImbIwcImaIwbImaIwaImcIwaImaIwaImaIwaImaIwaImdIwGbagIwaImaIwiaaImx",
  "adIwaaiIwaacIwaagIwBoaeImCeabIwcImdIwBpaeIweImoIwaImbIwaImbIwaImcIwcImaBbaBcaBdcIwaImbIwbIme",
  "IwChaahpaajcaaIwaImbIwDyaahpaajBvacIwCgabhoadjEcaahpacjEdaahpahjEpacjEdaahpahjaDgbDnDvaahpah",
  "jDxabjpaajEtaejEaabDzejiadEdEdabEoajmadEsCxabImBaaaImaaaImaaaIiCcaaEzbFafFcdFababFabIwajaabI",
  "wCjaaImEhaahaabjDdaaImBBqacIwBKlakjuaajGaaajjacIwHsaaIuFmaaIoaIweImIgaaIwaImCsaajtajIwaImBva",
  "eIwfImbIwaImaabImbIwbImeIwaImrIwcImfIwaImdIwuJaBzaahoaajBlaaIwaImgIwCbabjCfaahkajjCgadhFsacI",
  "waaabeImbIwdImaIwaagbdaaImfaaIwcabIwHpabIwaImgIwaImbIwaJaaIgaImaHuBkIwaIybIuaImaIkaIwaIzaIma",
  "IwbImBBqabIwbbdIwcbbIwdaaIwcabbaIwaImaIwbbdImtIwENiadIwFjaajDraBfIwVhaaIkaIuaIyaIobIqEaadiBS",
  "QbaaIwdajIwBfabIwDbabIwKpaajBkadjFraajBaarIwCeacImBkaljDfaahlaajJeaaIwaabIwaImbabIweabIwaaaI",
  "wBzakjJbacjBDZpaFrBaXxagIwgImwIwBKpaFaImDraaImFsajIwCMmaaImaaaIwBnaaIwabeImajGiaaIweImVwalIw",
  "CeaeIwMeabIwCyabImaacImCrabImcIwaImaIwdImBwaaIwaImaIwaImHjaajBoaajnaajCeaajahCqacIwBvacjCiaa",
  "hCxaajiaahEbaajahGvaahfjCwabhpacjvazIwCzacjEiaajcaahwaaIwDuaajahJqaajahEvaajEnaajahEkaejKeaa",
  "jahJxabjdaahFzaajDeaajraijCuaajQeaajJxaahaabjDcaajQiabjYZbaajDRzaebCgagIwBUmabgBDAxaabHWnabI",
  "icbcaaIsmIihImbaeIwbImBdadIwFracIwFFeaJvIwBvagIwOkarIwBradIwTnabIyaImaIwJtaaIwaImJiaaIwbaaIw",
  "gabIweaiIwRxaDdImBhafIwah"]

def classRuns : List Run := runsOf classRows

/-- Marks of different classes do not touch each other: their order has no meaning. Characters of
class zero are no such marks. -/
def combiningClass (c : Char) : Nat := (valueIn c.toNat classRuns).getD 0

/-! ## Syllables

A syllable of Hangul is composed of a leading consonant, a vowel and perhaps a trailing consonant.
-/

def firstSyllable : Nat := 0xac00

def firstLead : Nat := 0x1100

def firstVowel : Nat := 0x1161

/-- The number of trailing consonants is `trails - 1`, since one may be missing. -/
def trailBase : Nat := 0x11a7

def leads : Nat := 19

def vowels : Nat := 21

def trails : Nat := 28

def isSyllable (n : Nat) : Bool := firstSyllable ≤ n && n < firstSyllable + leads * vowels * trails

def syllableParts (n : Nat) : List Nat :=
  let i := n - firstSyllable
  let trail := i % trails
  [firstLead + i / trails / vowels, firstVowel + i / trails % vowels] ++
    if trail = 0 then [] else [trailBase + trail]

def composeSyllable? (a b : Nat) : Option Nat :=
  if firstLead ≤ a ∧ a < firstLead + leads ∧ firstVowel ≤ b ∧ b < firstVowel + vowels then
    some (firstSyllable + ((a - firstLead) * vowels + (b - firstVowel)) * trails)
  else if isSyllable a ∧ (a - firstSyllable) % trails = 0 ∧ trailBase < b ∧
      b < trailBase + trails then
    some (a + (b - trailBase))
  else none

/-! ## Normal form -/

/-- The parts of a character. A part may have parts itself, but not deeper than `fuel`. -/
def partsWithin : (fuel : Nat) → Nat → List Nat
  | 0, n => [n]
  | fuel + 1, n =>
    if isSyllable n then syllableParts n
    else
      match composites.find? (·.whole == n) with
      | some c => partsWithin fuel c.base ++ [c.mark]
      | none => [n]

def decompose (c : Char) : List Char := (partsWithin 4 c.toNat).map Char.ofNat

def inOrder (marks : List Char) : List Char :=
  marks.mergeSort fun a b => combiningClass a ≤ combiningClass b

/-- Puts marks that follow each other in the order of their classes; `marks` are those in front, the
newest first. -/
def reorderFrom (marks : List Char) : List Char → List Char
  | [] => inOrder marks.reverse
  | c :: rest =>
    if combiningClass c = 0 then inOrder marks.reverse ++ c :: reorderFrom [] rest
    else reorderFrom (c :: marks) rest

def compose? (a b : Char) : Option Char :=
  let composed := (composeSyllable? a.toNat b.toNat).orElse fun _ =>
    (composites.find? fun c => c.base == a.toNat && c.mark == b.toNat).map (·.whole)
  composed.map Char.ofNat

/-- Composes a character with what follows it; `marks` are those that stay, the newest first. A
mark is out of reach behind another one of its class or a higher one. -/
def composeFrom (base : Char) (marks : List Char) : List Char → List Char
  | [] => base :: marks.reverse
  | c :: rest =>
    let inReach := marks.head?.all fun mark => combiningClass mark < combiningClass c
    match if inReach then compose? base c else none with
    | some whole => composeFrom whole marks rest
    | none =>
      if combiningClass c = 0 then base :: marks.reverse ++ composeFrom c [] rest
      else composeFrom base (c :: marks) rest

def composeAll (text : List Char) : List Char :=
  match text.span fun c => combiningClass c != 0 with
  | (marks, base :: rest) => marks ++ composeFrom base [] rest
  | (marks, []) => marks

/-- The composed form of a text. -/
def composed (text : List Char) : List Char := composeAll (reorderFrom [] (text.flatMap decompose))

end TemplateCache.Domain
