import TemplateCache.Domain.Composition

/-!
# Joiners in domain names

The characters of some scripts join with their neighbours. A character that asks for it or forbids
it, without being seen itself, may only stand where it has an effect.
-/

namespace TemplateCache.Domain

open Unicode (Run runsOf valueIn)

inductive Joining where
  | none
  | left
  | right
  | both
  /-- Characters across which their neighbours join. -/
  | transparent
  deriving DecidableEq, Repr

namespace Joining

/-- The types in the order of their numbers in the table. -/
def list : List Joining := [none, left, right, both, transparent]

/-- The joining types of all characters. -/
def joiningRows : List String := [
  "BDnaEieKnaheKbaBseaaaeaabeaabeaaieClakeeaadaadcadacadaceddcmdaagdacbduenabdaecceaodrcBldacbd",
  "icadacadacbdbcaaacheaafebabeaadebcjacdbaadpaacaecdecddacidacadacadacbdacBceackdccodbcddacadb",
  "ccdbcfdBlakeyaBgdieiaaexadeaaieaaceaagepaacedbcadacjdacadcceebaadaaddaaacadzccaadbaedachdiej",
  "dccaaacbdbcfdacodaaCeeCcaaeaaaedahedaaecaoebabeBcaaeCfaaedafefaaetadexaeeCeabecaBaetabecaaek",
  "abeCeaaedahedaceradetaheCfaaebaaeaafefajekadeBbaaeCiaaelaceBvaaecaaeCcaaeaaceearejadeBaaaeCf",
  "aaebaaefaaeeaiemadezabeCeabedaeegaaetadeBaaaeCtaeecafeDkaaebakehaheDtaaebaiekaheCtabeBaaaeaa",
  "aeaaaeCcaneaaeeaabeeaBwehaaeDxadeaafeaabebabeyabedacepademaaebabefaaeoaaeBBaaceBKjaceBcabeBd",
  "aneraneCcagehaaebakeiaceBmaadxaDrdeabeBhdaefdEhacedabeiaaefageIgabebaceCdaaeaaieaaaebahefame",
  "BvaDfeBvaaeaaeeaaaeeaaeBnaielabeBfadebabeaaceCdaaeaabecaaeaaceCfahebaeeFsaceaameaagedaaefaae",
  "cabeHpaCmeBBqaBzeENiadeFjaaeDraBfeVhadeEcadeBSQbadeaajeBfabeDbabeKlaaecaaedaaeyabeeadepaBxda",
  "bDcajeraremaaeBlaheyakeBtaceBvaaebadebabeBmaaeCoafebabebakecaaehaaeBuaaeByaaeaacebabeeabeaaa",
  "eBpabehakeItaaebaaedaceBDZpaFreXxaBkeBKpaFaeDraaeFsajeCMaaoeBnaheExaedacaaacaabcbaabecddabed",
  "accdacbaacfeddacFnaadacadcccdacbdacadbcadhcpadcbdMyaabBgdacadleCeaeeMeabeuaacbdaajdBpafeBvac",
  "dacqdaakecdacBaaddbclddeBpaadaabdccaaadbcbdacbdaaadbcaddaacadubBgaaeCbaoeBoaaebabejaceBwadeb",
  "abeganeBvaceBjaeeaaieCiaaelabeBzaiejadebaaeDqacebaaeaabefaaebaCkeDqaaecamepabeCeabecaaeBkaze",
  "CgagelaaeaaaeaaaenaBeeCdahebaceaaaewaaeDfafeaaaedabeaabeJdafedabeaabeBaaBjeByahebaaeaabeEbaa",
  "eaaaebafeaaaeDwaaeaaaebadeaaieJuaieaabeJvabeaaaedaaeFnahedaaeBfajeBnafebadehaieaafebaceBtame",
  "aabeHpaaeaaceaaaeHsaneaaaeDdaweaageaabeaaCweBwaueaaieClacebaaeaaaeNiabekabeBzahebaaeaaaewaDh",
  "eHUlaaefayeQYnalecaceDRzaeeCgageBOhaaeCkadeDcaleBDAyabeGYyaDbeUoaceqahebageBdadeFraceCYcaCce",
  "daBxehaaenaaevaBRgeJvaJveBvageOkareBradeTnadeJtabeJiaaebaaegabeeaieRxaDdeBhdleCEGUpa"]

def runs : List Run := runsOf joiningRows

def ofChar (c : Char) : Joining := list.getD ((valueIn c.toNat runs).getD 0) none

/-- Whether the first of some characters that is not transparent has one of two types. -/
def joins (a b : Joining) : List Char → Bool
  | [] => false
  | c :: rest =>
    let type := ofChar c
    type == a || type == b || (type == transparent && joins a b rest)

end Joining

def joiner : Char := '\u200d'

def nonJoiner : Char := '\u200c'

/-- The class of the marks that take the vowel from a consonant. -/
def virama : Nat := 9

/-- Whether a joiner has an effect between characters; those before it have the nearest first. -/
def joinerFits (c : Char) (before behind : List Char) : Bool :=
  before.head?.any (combiningClass · == virama) ||
    (c == nonJoiner && Joining.joins .left .both before && Joining.joins .right .both behind)

def joinersFitFrom (before : List Char) : List Char → Bool
  | [] => true
  | c :: rest =>
    (!(c == joiner || c == nonJoiner) || joinerFits c before rest) &&
      joinersFitFrom (c :: before) rest

/-- Whether all joiners of a label have an effect. -/
def joinersFit (label : List Char) : Bool := joinersFitFrom [] label

end TemplateCache.Domain
