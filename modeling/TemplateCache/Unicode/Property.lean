import TemplateCache.Unicode.Boundary
import TemplateCache.Unicode.Category

/-!
# Properties of characters

Properties that a character has or lacks. Some are tables; the others are made of these, of
categories and of each other. Names are in the form of `looseName`.
-/

namespace TemplateCache.Unicode

open Category CodeSet

/-- The properties with a table of their own, under their names. -/
def tabled : List (List String × List String) := [
  (["ahex", "asciihexdigit"], ["BwjhfBaf"]),
  (["bidic", "bidicontrol"], ["CIeaJVlbBaeCdd"]),
  (["cwcf", "changeswhencasefolded"], [
    "CnzDmakwbhBgabababababababababababababababababababababababababababacababababababababbbab",
    "abababababababababababababababababababababbbabababbbabbbccdbbbcdbbbbababbbacabbbcbabbdah",
    "bbbbbbabababababababacababababababababacbbabcbababababababababababababababababababababab",
    "abababababababahbbbcabdbabababaJmaBqabadaiagabcbabbbqbiwamcdbbababababababababababababbc",
    "bbabbcByBwababababababababababababababababajabababababababababababababababababababababab",
    "abababababbbabababababacabababababababababababababababababababababababababababababababab",
    "abababababababababababababababacBlBwaEFgBlbafaBFefDFujgBqccMiabababababababababababababa",
    "babababababababababababababababababababababababababababababababababababababababababababa",
    "bababababababababababababababababafbcabababababababababababababababababababababababababa",
    "bababababababababababababababababababababababajhifkhihiflabababaihqBvcccffccfldmefccfLla",
    "dbgaBtptaBFmzCSuBvBwabccabababdbacaicbababababababababababababababababababababababababab",
    "abababababababababababababababababababababababaiabaeaBTYjabababababababababababababababa",
    "bababababababatabababababababababababababaFfababababababadababababababababababababababab",
    "abababababababababababababababakababbbabababaeabacabadababababababababababebebababababab",
    "ababdbabbdafabababayaBIgDbBEAigmeBNtzBUzBnFgBjGakbobgbbCQcByGbvEGoBfBGJwBfBULkBh"]),
  (["cwl", "changeswhenlowercased"], [
    "CnzDxwbgBhabababababababababababababababababababababababababababacabababababababacababab",
    "ababababababababababababababababababababbbabadbbabbbccdbbbcdbbbbababbbacabbbcbabbdahbbbb",
    "bbabababababababacababababababababacbbabcbababababababababababababababababababababababab",
    "abababababahbbbcabdbabababaLdabadaiagabcbabbbqbiBjaiabababababababababababafacabbcByBwab",
    "abababababababababababababababajabababababababababababababababababababababababababababbb",
    "abababababacabababababababababababababababababababababababababababababababababababababab",
    "abababababababababacBlEHdBlbafaBBuDhDGlagBqccMiababababababababababababababababababababa",
    "babababababababababababababababababababababababababababababababababababababababababababa",
    "babababababababababajabababababababababababababababababababababababababababababababababa",
    "bababababababababababababababajhifkhihiflabababaihyhihihieleldmeleLladbgaBtptaBFmzCSuBvB",
    "wabccabababdbacaicbababababababababababababababababababababababababababababababababababa",
    "babababababababababababababaiabaeaBTYjababababababababababababababababababababababatabab",
    "abababababababababababaFfababababababadababababababababababababababababababababababababa",
    "babababababakababbbabababaeabacabadababababababababababebebabababababababdbabbdafabababa",
    "yaBHAhzBUzBnFgBjGakbobgbbCQcByGbvEGoBfBGJwBfBULkBh"]),
  (["cwt", "changeswhentitlecased"], [
    "DtzCgaBpxbhbabababababababababababababababababababababababababababacabababababababbbabab",
    "ababababababababababababababababababababacababccabacadafacadccacababacaeacadabacadabaeab",
    "bbbbababababababababbbababababababababcbabadabababababababababababababababababababadabab",
    "ababababababaiacbbaeababababfbbbabbdbbdbecabbcahacabbdffakbGkaBrabadadcsaBbBibbdcbababab",
    "ababababababababebacacaCaBvbababababababababababababababababajababababababababababababab",
    "abababababababababababababacababababababbbababababababababababababababababababababababab",
    "ababababababababababababababababababababababababaBxBmFMefDFuibaJeadaqaEkabababababababab",
    "abababababababababababababababababababababababababababababababababababababababababababab",
    "ababababababababababababababababababababababgfababababababababababababababababababababab",
    "ababababababababababababababababababababababababababiifkhihifkhihinchihihiebbgadcbbidcbi",
    "hkcbbNeaBhpeaBGlzCTqBvbadbbababagacakabababababababababababababababababababababababababa",
    "babababababababababababababababababababababababaiabaeamBlbafaBTWdabababababababababababa",
    "bababababababababababatabababababababababababababaFfababababababadababababababababababab",
    "abababababababababababababababababababakabacababababaeaeabbcabababababababababalabababab",
    "abababaeabacadafababaBaaBHcaBcDbBEAigmeBOzzBVhBnFgBjFzkbobgbbCRbByEvvEGoBfBGJwBfBULmBh"]),
  (["cwu", "changeswhenuppercased"], [
    "DtzCgaBpxbhbabababababababababababababababababababababababababababacabababababababbbabab",
    "ababababababababababababababababababababacababccabacadafacadccacababacaeacadabacadabafbb",
    "bbbbabababababababbbababababababababbbbbadabababababababababababababababababababadababab",
    "abababababaiacbbaeababababfbbbabbdbbdbecabbcahacabbdffakbGkaBrabadadcsaBbBibbdcbabababab",
    "abababababababebacacaCaBvbababababababababababababababababajabababababababababababababab",
    "ababababababababababababacababababababbbabababababababababababababababababababababababab",
    "abababababababababababababababababababababababaBxBmEHcBqccBDgfDFuibaJeadaqaEkabababababa",
    "babababababababababababababababababababababababababababababababababababababababababababa",
    "bababababababababababababababababababababababababgfababababababababababababababababababa",
    "bababababababababababababababababababababababababababababiifkhihifkhihincCabbeabadcbbead",
    "dcbihkcbbeaMzaBhpeaBGlzCTqBvbadbbababagacakababababababababababababababababababababababa",
    "bababababababababababababababababababababababababababaiabaeamBlbafaBTWdababababababababa",
    "babababababababababababababatabababababababababababababaFfababababababadabababababababab",
    "ababababababababababababababababababababababakabacababababaeaeabbcabababababababababalab",
    "ababababababaeabacadafababaBaaBHcaBcDbBEAigmeBOzzBVhBnFgBjFzkbobgbbCRbByEvvEGoBfBGJwBfBU",
    "LmBh"]),
  (["dash"], ["BtaCAuaBzaFKjaBNpaDBdfCjaBnapaPaaEOiacaBfbeaBcaReataEhaCZWabBlakaGnaFLoaMga"]),
  (["dep", "deprecated"], ["MraBYvaDKtabaDCjbDIjfBAvbBZRYka"]),
  (["dia", "diacritic"], [
    "DqabaCtagaeacbTjGcbhffrbeajbJteIbaCdBsbabbbbbaFbhebFebebdcCpBaDnkCgkBibEwhBpjqBbCjaqaddB",
    "caCwaqaEgaqaEgaqaBvcCiaqahaEpaEgaqaEgaqaEfbqaEuaEhamfbaEdaneCxbBbababaebCocbbCkaEiabbBob",
    "eezgbakbBBdcBKmbBeaFskjaNjcLgauhcaBwockEaapaBmiCcbCgalbCobCmfDeyeagaccByCkBwBjflBlkRdabc",
    "lcncncnbEXkcMfaTmfEbdDraBSMkambbaBcbDeboBhDycEfbmaBlaFvaBbrCfdBkaDramaBkaFtcCndBzaDwejcE",
    "ybBDZsaBDppKkabaBvaBtbCpaBDkaBTnfbBpbiYnceaGjbVzfBmaBaePjcCskBxdHkaBpaCubEqbCkaCyajcEabG",
    "wbDcbqaygdeDlcbbnbDradaEtbJrbEwaEobElaKjbJybeaGaaDfasaDdaQfaJyabbDdaQjbxaHYaoQZpaDSaeChg",
    "VsbVaqDcbYGcdbgbbLThBtcwUycdfihcgBedFMwCjHmgOlaCjdBDmbBCigEfcbc"]),
  (["emoji"], [
    "BjagafjEhaeaLYramaIiawaDmfpbOdbmaGkazkecHraIxbkajaCgdbejacacbcaeacabbcadadbicfabafllbcab",
    "bbasacbsfbabbdbfacbeblbfbcafbbabbubffbdcaeacacfbacababagadagakbpacaeabaecbalbBwcjaoaoaOi",
    "bRvctbBzaeaBVuamaXdabaGMRqaHuaGebmboacjCxzbbxauacivbGsBhcEhcbbccDeccbKcbCklfbxhbchmacdca",
    "ebnbcaibjafcmciccabaeagadagDhBwCrfhccejdabbdacjItleaKxBubjbHcEimdjfCdhockgi"]),
  (["ecomp", "emojicomponent"], ["BjagafjMBjaIfaDFTraDOIwzTneCEadBSVUqDr"]),
  (["emod", "emojimodifier"], ["HHIxe"]),
  (["ebase", "emojimodifierbase"], [
    "OLhaIlaqdGSJvaCiccaccEnbckvsdaecbchabayaHtbeavaebGscdeDfaqcjalaWdacaihgajjccCeaCjbbbbarc",
    "bmIvcBqi"]),
  (["epres", "emojipresentation"], [
    "NHqbHxddacaUbbvbBylBratanaibrbfbiafavahbbaeacahaebBcaBjabaecbaCjcyaoaBHbbBzaeaGPLeaHuaHi",
    "acjCxzbayauacebcvbGsBgmibCrbvmBqeemqdadCsbabHecCkndbxsaBabnaDiDgBwCrgadcccedlbhiItleaKxB",
    "ubjbHcEimdjfCdhockgi"]),
  (["extpict", "extendedpictographic"], [
    "GnaeaLYramaIiawaDmfpbOdbmaDraCsazkecHraIxbkajaCgdbfblbEjkEnckbabagadagakbpacaeabaecbaleB",
    "tcjaoaoaOibRvctbBzaeaBVuamaXdabaGMRmJvncBfaCifmboacjsCeBbokauacibdjQrfMfiKfBwExEmlDhBqmd",
    "CehkfBohBeDdmBubjbQyJwBNh"]),
  (["ext", "extender"], [
    "HbaUqbBHuaQzaYgaFhaDlaBCyaExaDNfaCeaXnaPiaCqaHKjaBreDzbDpcBQBuaCGsaBLaawaFhaEeavbBFZvaDB",
    "kbCFbaBbaeaBVbaLhaEmbTecBVjaBEOfbBTkbbaBQYabBUfaBGuc"]),
  (["grlink", "graphemelink"], [
    "DNpaExaExaExaExaExaExaExaEfbqaEuaEhaExaHtaGybCPlbBeaGbaZdaItaDxbCsbGQtaBUKkaBlaFvaFmaEea",
    "LxaJmaBJSraCHiaBpaoaCfaErbFjaEmaGyaDuaEycEjaExaJsaExaEoaEmaKjaJzbGfaDfasaDdaQfaKabDdaQjb",
    "YZca"]),
  (["hex", "hexdigit"], ["BwjhfBafDSLljhfBaf"]),
  (["hyphen"], ["BtaExaBVwaGZzaDBdbFIbaBClaCZUlaGnaDja"]),
  (["idsb", "idsbinaryoperator"], ["SEabcjTda"]),
  (["idst", "idstrinaryoperator"], ["SEcb"]),
  (["idsu", "idsunaryoperator"], ["SEob"]),
  (["idcompatmathcontinue"], ["GwbfaMAgadkboOhaeawaGJJeazaBfazaBfazaBfazaBfaza"]),
  (["idcompatmathstart"], ["MWwaeawaGJJeazaBfazaBfazaBfazaBfaza"]),
  (["ideo", "ideographic"], [
    "SEwbziocBLdJTnCmBFBjBHSiObcEbBSIkaBbJBziBVpBpjNUlPfBDEiCLFbBgGDtgIncINpoLBkpXxDQwUvCFyHH",
    "yfGFf"]),
  (["joinc", "joincontrol"], ["MDob"]),
  (["loe", "logicalorderexception"], ["FKieEteEDsccaCCXmbcabb"]),
  (["mcm", "modifiercombiningmark"], ["CKibcaFbagadbSnbbcdaBfa"]),
  (["nchar", "noncharactercodepoint"], [
    "DSDcBfUgbDSYobDSYobDSYobDSYobDSYobDSYobDSYobDSYobDSYobDSYobDSYobDSYobDSYobDSYobDSYobDSYo",
    "b"]),
  (["oalpha", "otheralphabetic"], [
    "BGfaBdmWenbabbbbbaCukBwmbgqaDxgedcbeaBjaBepDykDxbdibcbdEcaCildggtCcbcobbfckbBdcCggcbcbka",
    "kbBdcCgeebcbeaBebdalcCghbcbbvbwcecCggcbcbjbkbBeaChedcbckaBoeCfgbcbciblbBdcCggbcbciblbpam",
    "dCggbcbckakbBdcCxfbabhsbCjacgsaDvacfbbqaGhsjkbBjEglbacdxdecbccgddnlbakdCLobBebBebBebCosH",
    "gbBiaEoleiIoeCfjctCwblcBxeBwoCicBeicbCfkBysPwBhCOnBzDKgBfBTQahBibNqaiaxeDkbBypbaCfaBmeBc",
    "lBtdBwlBlaCpnmaibBtcByabccbfaBsefaJdhBDZvaDEdeCMgcbbfdBEidCnaMjbDbaJzcCbnBtblcBtijaCjcBk",
    "lsbCfcBwmobDoicagacaGbjxdCggcbcbkakbDgibacabdbbDzmbcEcrJdgcgBdbDeobaEckDznJxmJnfbbcbdaba",
    "FmgcfeaBcjBqebdskBunPrhbgDfvbnEsfdabbbcbadaCoebbbdNkdjbbaBwgdcYYnqFJcabCchdDpbBDAyaNKjgb",
    "qcgbbbeDwaDHvaCZwzgzgz"]),
  (["odi", "otherdefaultignorablecodepoint"], ["BGpaFIlbCKhbDHnaGLiaDACpaDbiBWMIhabBdDsExJgFIl"]),
  (["ogrext", "othergraphemeextend"], [
    "DRyayaNuayaDyayaIyabaebbbjbDzayaEpapaDMraBeaBNkafabafbDxaCtbBOiaGCvbBTWtaEeaBGNlbGWmaEma",
    "KeaoajaDsajacabcfaIqamaJhaKcaYjamaCHfaBEOkbBKXnbgfBTLAzDr"]),
  (["oidc", "otheridcontinue"], ["HbaBBraGAjiCLcaCIzbGKraDAEja"]),
  (["oids", "otheridstart"], ["JHlbDGjavaFVwb"]),
  (["olower", "otherlowercase"], [
    "GoapaThihbBeeDsaCaaFCzaEPzCknaBiBkBAnanaqmIdpBGqzCWobBUGkbIcaEzcdbBHidjaBIWsaccbBpbiDDZh",
    "Cj"]),
  (["omath", "othermath"], [
    "DqaBHxccaBabcbKQyaBbclaBgdybobCnmeadbeesaeacjbadegadbcbbcbfddfeCxecdbbbbbabecbebercbbabg",
    "bagbLedGmbbayaraRdbmifefbcbdeoabacfybCfabaBddjbNebBfjPnvCldBgbDCLfabaeaIdabaDCOvDgbCsbbc",
    "acbcdblbabgbCmbdchbgbBbbdbebadgbNbcybybBebybBebybBebybBebybhcBxIIqdbBabbbacabjbdbabagaea",
    "bababcbbbacabababababbbacdbgbdbdbabjbqfcbebq"]),
  (["oupper", "otheruppercase"], ["MQqpBGgzGSIyzgzgz"]),
  (["patsyn", "patternsyntax"], [
    "BhokgBadbaBadBigbabbbabbeaeadaxaBfaLUexiocsbjLtBBrGeYfBeBRnTsExOvceypaCZQzbKbb"]),
  (["patws", "patternwhitespace"], ["jesaDwaLYmbyb"]),
  (["pcm", "prependedconcatenationmark"], ["CHcfIhaBxaOubDcaDVXyapa"]),
  (["qmark", "quotationmark"], ["BiaeaFbapaLWuhzbFIdaRpdncDABpdHhaeaDmb"]),
  (["radical"], ["RPwzbDkmIf"]),
  (["ri", "regionalindicator"], ["HGOkz"]),
  (["sterm", "sentenceterminal"], [
    "BhamaqaCAbaFrcGyaBrcJmaCjabadbLhbCPwbBEkaebBDtaHqbGbbBtafaMcbNqdGgbkbcbBdcHfbCnbBJwaxbjc",
    "EUxcLuanawbQnaBSHwaKkbItadaOsbDibDraFwbFrcFobJpaBFCwacbChadbGnamaqaCnaEDwbBXdeBsdHhbEndE",
    "xcEzbgaqbDkbbbEeaLmbEnbOjbfoEbbJpcTxabaJrbDjbQebBAqbCwbBCMbbFdaCnblaVhbLkaBDOgaLIma"]),
  (["sd", "softdotted"], [
    "EbbHoaKvaBeaCaauaMiaDuabaJMnaBzanadaFcaGbaQfaIgbEGgaGELhbBybBybBybBybBybBybBybBybBybBybB",
    "ybBybDFyaLtbBaa"]),
  (["term", "terminalpunctuation"], [
    "BhakabalbdaBFyaiaTtaCfaCuaoabcGyaBrkbaJbbCcfbhBfaKbbBWubGqaefLzbBEjhBDtaEucCtbGbcdaBndcb",
    "McbNqdGgbkbbcBdcHfeCkbBJwaxbjcEUxcLuanaeakabbdbQmbBSHvbKjcIteOsbDibDraFvcFrcExaqbJpaBFCw",
    "acbCfcbdGnakabalbdaCnacaBPqaBwaBSoaHraLybFwfCqfDldBKqeBsdHhgEidExcEzbgaqbDkeEeaLmbEncmbN",
    "uddoEbbJpcTxabaJrbDjbebPycBtaYvbCwbBYxeBAMzbFdaCnckaVhbLjbBDOgaLIld"]),
  (["uideo", "unifiedideograph"], [
    "TSaJTnCmBFBjBICsbbabbkababbccDVEcCLFbBgGDtgIncINpoLBkpXxGRqHHyfGFf"]),
  (["vs", "variationselector"], ["JCtcbaDJCapBWNKyJf"]),
  (["wspace", "space", "whitespace"], ["jesaDwaBaaIHjaDPnkBdbfaBvaFXwa"])]

def tabled? (name : String) : Option CodeSet :=
  (tabled.find? fun entry => entry.1.contains name).map fun entry => Unicode.setOf entry.2

/-- The table of a property, which is empty for names that have none. -/
def table (name : String) : CodeSet := (tabled? name).getD .empty

def whiteSpace : CodeSet := table "whitespace"

def alphabetic : CodeSet := (Category.setOf (nl :: letters)).union (table "otheralphabetic")

def lowercase : CodeSet := (Category.setOf [ll]).union (table "otherlowercase")

def uppercase : CodeSet := (Category.setOf [lu]).union (table "otheruppercase")

def cased : CodeSet := unions [lowercase, uppercase, Category.setOf [lt]]

/-- Characters that the case of a text passes over. -/
def caseIgnorable : CodeSet :=
  unions [Category.setOf [mn, me, cf, lm, sk],
    setWhere wordBreak.runs fun n =>
      (wordBreak.names.getD (n - 1) []).any ["midletter", "midnumlet", "singlequote"].contains]

def changesWhenCasemapped : CodeSet :=
  unions [table "changeswhenlowercased", table "changeswhenuppercased",
    table "changeswhentitlecased"]

def math : CodeSet := (Category.setOf [sm]).union (table "othermath")

def graphemeExtend : CodeSet := (Category.setOf [me, mn]).union (table "othergraphemeextend")

def graphemeBase : CodeSet :=
  ((Category.setOf [cc, cf, cs, co, cn, zl, zp]).union graphemeExtend).complement

def defaultIgnorable : CodeSet :=
  (unions [Category.setOf [cf], table "otherdefaultignorablecodepoint",
    table "variationselector"]).diff
    (unions [whiteSpace, table "prependedconcatenationmark",
      ofRanges [⟨0xfff9, 0xfffb⟩, ⟨0x13430, 0x13440⟩]])

/-- Characters that patterns give a meaning or pass over. -/
def patternCharacters : CodeSet := (table "patternsyntax").union (table "patternwhitespace")

def idStart : CodeSet :=
  ((Category.setOf (nl :: letters)).union (table "otheridstart")).diff patternCharacters

def idContinue : CodeSet :=
  (unions [idStart, Category.setOf [mn, mc, nd, pc], table "otheridcontinue"]).diff
    patternCharacters

/-- Characters whose compatible form continues an identifier without starting one. -/
def startsWithMark : CodeSet :=
  (ofCodes [0x37a, 0xfe70, 0xfe72, 0xfe74, 0xfe76, 0xfe78, 0xfe7a, 0xfe7c, 0xfe7e]).union
    (ofRanges [⟨0x309b, 0x309c⟩, ⟨0xfc5e, 0xfc63⟩, ⟨0xfdfa, 0xfdfb⟩])

def xidStart : CodeSet :=
  idStart.diff (startsWithMark.union (ofRanges [⟨0xe33, 0xe33⟩, ⟨0xeb3, 0xeb3⟩, ⟨0xff9e, 0xff9f⟩]))

def xidContinue : CodeSet := idContinue.diff startsWithMark

/-- The properties that are made of others. -/
def derived? : String → Option CodeSet
  | "alpha" | "alphabetic" => some alphabetic
  | "lower" | "lowercase" => some lowercase
  | "upper" | "uppercase" => some uppercase
  | "cased" => some cased
  | "ci" | "caseignorable" => some caseIgnorable
  | "cwcm" | "changeswhencasemapped" => some changesWhenCasemapped
  | "math" => some math
  | "grext" | "graphemeextend" => some graphemeExtend
  | "grbase" | "graphemebase" => some graphemeBase
  | "di" | "defaultignorablecodepoint" => some defaultIgnorable
  | "ids" | "idstart" => some idStart
  | "idc" | "idcontinue" => some idContinue
  | "xids" | "xidstart" => some xidStart
  | "xidc" | "xidcontinue" => some xidContinue
  | _ => none

/-- The characters that have a property. -/
def property? (name : String) : Option CodeSet := (tabled? name).orElse fun _ => derived? name

end TemplateCache.Unicode
