import TemplateCache.Unicode.Runs

/-!
# Directions in domain names

Scripts are written from left to right or from right to left. A name in which some character is of
the second kind must not have a label whose characters could change places with those of others:
`Domain.keepsOrder` says which labels are fit for it.
-/

namespace TemplateCache.Domain

open Unicode (Run runsOf valueIn)

inductive Direction where
  | left
  | right
  | arabicLetter
  | arabicNumber
  | europeanNumber
  | europeanSeparator
  | commonSeparator
  | europeanTerminator
  | neutral
  | boundary
  /-- Marks take the direction of the character that they belong to. -/
  | mark
  /-- Separators of paragraphs and the like. -/
  | other
  deriving DecidableEq, Repr

namespace Direction

/-- The directions in the order of their numbers in the table. -/
def list : List Direction := [
  left, right, arabicLetter, arabicNumber, europeanNumber, europeanSeparator, commonSeparator,
  europeanTerminator, neutral, boundary, mark, other]

/-- The directions of all characters. -/
def directionRows : List String := [
  "ijelnjelbicheiafagafbgjeagBlizadiBhjaidhjifhBoixaaiRgabiganibaBbiaaqiEikdabiEwabiFiahkJuaeib",
  "hBskabakabbkabbkabikCbbbiacbhacagacbikkBvcukjdahbdccakDwchkaifkbcbkaidkbcjewcakBdcBckDkckkoc",
  "BqbikbbdicbakxbdkabikabckabgkBobekbbCccikBpcCekCcaakaaakdahkdaakcaokbabkBcaakCfaakdafkfaakta",
  "dklabhgaahbaekCeabkcaBaktabkcaakkabkCeaakdahkdackradkkahhaahkCfaakbaakaafkfajkkadkBbaakCiaak",
  "lackBiafiahfiakcaakCcaakaackearkjadkragibaakCfaakoaikmadkzabkCeabkdaekgaaktadkBaaakCtaekcafk",
  "DkaakbakkahgahkDtaakbaikkahkCtabkBaaakaaakaaakdiByankaaekaabkeaBwkhaakDxadkaafkaabkbabkyabkd",
  "ackpadkmaakbabkfaakoaakBBaackBvapiDraaiZpaeiEjackBcabkBdankrankCcagkhaakbakkgaahaackpaBfiEma",
  "bkBhaakEnackdabkiaakfagkfiFvaBhiwabkbackCdaakaaikaaakbahkfamkBvaDfkBvaakaaekaaakeaakBnaiklab",
  "kBfadkbabkaackCdaakaabkcaakaackCfahkbaekFsackaamkaagkdaakfaakcabkHpaCmkUcadjBfiehoiagDmiBvhB",
  "zkBpilhtiChaFfiafahLdiCqaziaaBEjiaaNaiJvaBFjiGyagicadkfagiEwaakDraBfkTwicayiiadkbaaifadibadi",
  "DjadkcaaiDlaaiHnaBviKNvaCliBGUhaCliMeaciDqadkaijkciBcabkDbabknaBiiDwaaiEqaakcaakdaakyabkaadi",
  "dkhahhBzaliCpajkrarkmaakBlahkyakkBtackBvaakbadkbabkBmaakCoafkbabkbakkcaakhaakBuaakByaakaackb",
  "abkeabkaaakBpabkhakkEaaDhiBkaakbaakdackBDZpaFrkqcXgiBkkBtiPgcJwaaiCjaCyicaCliBsaFakDraakBeeE",
  "najkBShaLabaiIqbokBnbhkGibfkCzbgiRfbBjclkzdBebekaiJgbBfdBqbbkubocBoifkBvbvckkBecrbdkErbaaakC",
  "baokkatijaakbabkjackBwadkbabkgankBvackBjaekaaikCiaaklabkBzaikjadkbaakDqackbaakaabkfaakbaCkkD",
  "qaakcamkpabkCeabkcaakBkazkCgagklaakaaakaaaknaBekCdahkbackaaakwaakDfafkaaakdabkaabkJdafkdabka",
  "abkBaaBjkByahkbaakaabkBeaBfiBqaakaaakbafkaaakDwackbadkaaikJuaikaabkJvabkaaakdaakFnahkdaakBfa",
  "fkbabkBnafkbadkhaikaafkbackBtamkaabkHpaakaackaaakHsankDfawkaagkaabkaaCwkBwaukaaikClackbaakaa",
  "akNiabkkabkBzahkbaakaaakwaDhkBkahidhBdiHRkaakfaykQYnalkcackDRzaekCgagkBOhaakCkadkDaaaiaalkBD",
  "AyabkFVkaBDniDbkUoackqahkbagkBdadkCgaDkickEsiClaDriCNfaCckdaBxkhaaknaakvaBRgkJvaJvkBvagkOkar",
  "kBradkoaRwhBbadkJtabkJiaakbaakgabkeaikJxaHzbDdkBhbgkBEzbYocXjiBcaciCiaCeiEraFEdiCDYFfa"]

def runs : List Run := runsOf directionRows

def ofChar (c : Char) : Direction := list.getD ((valueIn c.toNat runs).getD 0) other

def isRightToLeft (d : Direction) : Bool := [right, arabicLetter, arabicNumber].contains d

/-- What labels of either direction may have between their ends. -/
def anywhere : List Direction :=
  [europeanNumber, europeanSeparator, commonSeparator, europeanTerminator, neutral, boundary, mark]

end Direction

open Direction in
/-- Whether the characters of a label stay within it, whatever is around. The first one decides on
the direction, the last one but marks has to be a letter or a number, and numbers must not be of
both kinds. -/
def keepsOrder (label : List Char) : Bool :=
  match label.map ofChar with
  | [] => true
  | first :: rest =>
    let ends := rest.reverse.dropWhile (· == mark)
    let all (allowed : List Direction) (ds : List Direction) : Bool := ds.all allowed.contains
    match first with
    | left => all [left, europeanNumber] (ends.take 1) && all (left :: anywhere) ends
    | right | arabicLetter =>
      all [right, arabicLetter, europeanNumber, arabicNumber] (ends.take 1) &&
        all (right :: arabicLetter :: arabicNumber :: anywhere) ends &&
        !(ends.contains europeanNumber && ends.contains arabicNumber)
    | _ => false

/-- Whether the labels of a name may stand side by side. -/
def haveOrder (labels : List (List Char)) : Bool :=
  let isRightToLeft (c : Char) : Bool := (Direction.ofChar c).isRightToLeft
  labels.all keepsOrder || !labels.any (·.any isRightToLeft)

end TemplateCache.Domain
