import TemplateCache.Unicode.Runs

/-!
# Scripts

Every assigned character belongs to one script; some are used with others instead, which are their
script extensions. `scriptSet` and `scriptExtensionSet` give the characters of a script in both
senses.
-/

namespace TemplateCache.Unicode

/-- The names of each script in the form of `looseName`, in the order of their numbers from one. -/
def scriptNames : List (List String) := [
  ["adlm", "adlam"], ["ahom"], ["hluw", "anatolianhieroglyphs"], ["arab", "arabic"],
  ["armn", "armenian"], ["avst", "avestan"], ["bali", "balinese"], ["bamu", "bamum"],
  ["bass", "bassavah"], ["batk", "batak"], ["beng", "bengali"], ["bhks", "bhaiksuki"],
  ["bopo", "bopomofo"], ["brah", "brahmi"], ["brai", "braille"], ["bugi", "buginese"],
  ["buhd", "buhid"], ["cans", "canadianaboriginal"], ["cari", "carian"],
  ["aghb", "caucasianalbanian"], ["cakm", "chakma"], ["cham"], ["cher", "cherokee"],
  ["chrs", "chorasmian"], ["zyyy", "common"], ["copt", "coptic", "qaac"], ["xsux", "cuneiform"],
  ["cprt", "cypriot"], ["cpmn", "cyprominoan"], ["cyrl", "cyrillic"], ["dsrt", "deseret"],
  ["deva", "devanagari"], ["diak", "divesakuru"], ["dogr", "dogra"], ["dupl", "duployan"],
  ["egyp", "egyptianhieroglyphs"], ["elba", "elbasan"], ["elym", "elymaic"], ["ethi", "ethiopic"],
  ["gara", "garay"], ["geor", "georgian"], ["glag", "glagolitic"], ["goth", "gothic"],
  ["gran", "grantha"], ["grek", "greek"], ["gujr", "gujarati"], ["gong", "gunjalagondi"],
  ["guru", "gurmukhi"], ["gukh", "gurungkhema"], ["hani", "han"], ["hang", "hangul"],
  ["rohg", "hanifirohingya"], ["hano", "hanunoo"], ["hatr", "hatran"], ["hebr", "hebrew"],
  ["hira", "hiragana"], ["armi", "imperialaramaic"], ["zinh", "inherited", "qaai"],
  ["phli", "inscriptionalpahlavi"], ["prti", "inscriptionalparthian"], ["java", "javanese"],
  ["kthi", "kaithi"], ["knda", "kannada"], ["kana", "katakana"], ["kawi"], ["kali", "kayahli"],
  ["khar", "kharoshthi"], ["kits", "khitansmallscript"], ["khmr", "khmer"], ["khoj", "khojki"],
  ["sind", "khudawadi"], ["krai", "kiratrai"], ["laoo", "lao"], ["latn", "latin"],
  ["lepc", "lepcha"], ["limb", "limbu"], ["lina", "lineara"], ["linb", "linearb"], ["lisu"],
  ["lyci", "lycian"], ["lydi", "lydian"], ["mahj", "mahajani"], ["maka", "makasar"],
  ["mlym", "malayalam"], ["mand", "mandaic"], ["mani", "manichaean"], ["marc", "marchen"],
  ["gonm", "masaramgondi"], ["medf", "medefaidrin"], ["mtei", "meeteimayek"],
  ["mend", "mendekikakui"], ["merc", "meroiticcursive"], ["mero", "meroitichieroglyphs"],
  ["plrd", "miao"], ["modi"], ["mong", "mongolian"], ["mroo", "mro"], ["mult", "multani"],
  ["mymr", "myanmar"], ["nbat", "nabataean"], ["nagm", "nagmundari"], ["nand", "nandinagari"],
  ["talu", "newtailue"], ["newa"], ["nkoo", "nko"], ["nshu", "nushu"],
  ["hmnp", "nyiakengpuachuehmong"], ["ogam", "ogham"], ["olck", "olchiki"], ["onao", "olonal"],
  ["hung", "oldhungarian"], ["ital", "olditalic"], ["narb", "oldnortharabian"],
  ["perm", "oldpermic"], ["xpeo", "oldpersian"], ["sogo", "oldsogdian"],
  ["sarb", "oldsoutharabian"], ["orkh", "oldturkic"], ["ougr", "olduyghur"], ["orya", "oriya"],
  ["osge", "osage"], ["osma", "osmanya"], ["hmng", "pahawhhmong"], ["palm", "palmyrene"],
  ["pauc", "paucinhau"], ["phag", "phagspa"], ["phnx", "phoenician"], ["phlp", "psalterpahlavi"],
  ["rjng", "rejang"], ["runr", "runic"], ["samr", "samaritan"], ["saur", "saurashtra"],
  ["shrd", "sharada"], ["shaw", "shavian"], ["sidd", "siddham"], ["sgnw", "signwriting"],
  ["sinh", "sinhala"], ["sogd", "sogdian"], ["sora", "sorasompeng"], ["soyo", "soyombo"],
  ["sund", "sundanese"], ["sunu", "sunuwar"], ["sylo", "sylotinagri"], ["syrc", "syriac"],
  ["tglg", "tagalog"], ["tagb", "tagbanwa"], ["tale", "taile"], ["lana", "taitham"],
  ["tavt", "taiviet"], ["takr", "takri"], ["taml", "tamil"], ["tnsa", "tangsa"], ["tang", "tangut"],
  ["telu", "telugu"], ["thaa", "thaana"], ["thai"], ["tibt", "tibetan"], ["tfng", "tifinagh"],
  ["tirh", "tirhuta"], ["todr", "todhri"], ["toto"], ["tutg", "tulutigalari"], ["ugar", "ugaritic"],
  ["vaii", "vai"], ["vith", "vithkuqi"], ["wcho", "wancho"], ["wara", "warangciti"],
  ["yezi", "yezidi"], ["yiii", "yi"], ["zanb", "zanabazarsquare"]]

/-- The number of the script that has a name. -/
def scriptNumber? (name : String) : Option Nat :=
  (scriptNames.findIdx? fun names => names.contains name).map (· + 1)

/-- The number of the script of each code point; zero stands for none. -/
def scriptRows : List String := [
  "CmzzCwfzzCwBuzaCwozaCwezwCwazBeCwazRgCwBmzeCwezbntzEhCgdBtazcBtbadBtazaBtdaaBtazaBtazcBtaaaB",
  "taatBtaaCkBtnBapBtFcBebCgGmBeaaBlfbaBxfbacfaaCcCdhaBaCddafCdkaeeazfeazneazceazBfeazjekCgzeaC",
  "gEdeazBhenFoaaChFobacFoBveBxFznaCgEbbacEbBtFbbaoFbaaBbDhbaaDhaakFoeaBeeaabeeaCweazBceDcBgdCg",
  "oBgbzzBgdlaahlbablbavlaaglaaalcadlbailbablbadlhaaldablaaelbaylbacBwaafBwdabBwbavBwaagBwaabBw",
  "aabBwaabBwbaaBwaaeBwdabBwbacBwcaaBwgadBwaaaBwgaqBwjacBuaaiBuaacBuaavBuaagBuaabBuaaeBubajBuaa",
  "cBuaacBubaaBuoadBubalBugagBuaacEqaahEqbabEqbavEqaagEqaabEqaaeEqbaiEqbabEqbacEqgacEqdabEqaaeE",
  "qbarEqjabFvaafFvcacFvaadFvcabFvaaaFvaabFvcabFvcacFvcalFvdaeFvcacFvaadFvbaaFvfaaFvnauFveamFya",
  "acFyaawFyaapFybaiFyaacFyaadFygabFyaacFybaaFybadFybajFygaiFymClaacClaawClaajClaaeClbaiClaacCl",
  "aadClgabClfabClaadClbajClaacCllamDgaacDgaaByDgaacDgaafDgdapDgbazDgaacFhaarFhcaxFhaaiFhaaaFhb",
  "agFhcaaFhdafFhaaaFhaahFhfajFhbacFhlaCfGadaazBbGaBkabCvaaaCvaaeCvaaxCvaaaCvaawCvbaeCvaaaCvaag",
  "CvaajCvbadCvBfaCtGbaaBjGbdaBmGbaaBjGbaaoGbaagGbdzbGbBkaGdDvBlBpaaaBpeaaBpbaBqBpazdBpJvBzCuBn",
  "aadBnbagBnaaaBnaadBnbaBoBnaadBnbaBgBnaadBnbagBnaaaBnaadBnbaoBnaaCeBnaadBnbaCoBnbaBfBncazBnfa",
  "DhxbafxbaYpsBcEecaCwFaczkFagavFpiaaFpuCbbziatrlamFqaacFqaabFqlaDpCrbajCrfajCrfabDsbzaDsaztDs",
  "faDkDsgaBqDseaCrsjaBeCyaalCydalCydaaCycalCyBdFrbaeFrkaBrDzdazDzfakDzcabDzBfCrBbqbabqCkFsaaBc",
  "FsbakFsfajFsfanFsbaBeCgBwaCyhaaBxhClFlBzkhadkCdCxcaoCxcacCxBvEfkBeeaBqBpbacBphFlhacCgazmCgaz",
  "gCgdzaCgfzaCgczbCgazeaBlCweBtaBeBwCweBtdCweBtmCwaBeCrCwaBtClCgJvCwvBtbafBtbaBlBtbafBtbahBtaa",
  "aBtaaaBtaaaBtaaBeBtbaCaBtaaoBtaanBtbafBtaasBtbacBtaaiBtaalzbCgDizaakzaCwbakzaCwozaamCwcaBgzo",
  "aBgCgoaBlzaBtczbCwfzaCwBazaCwqzBoCwczdaZpzvakzuaBJrzJvpYdzbaBfzaaEazDrBqBfCwElBaeagBaBlBpaaa",
  "BpeaaBpbaCdGcgabGcnaaGcwBniagBnaagBnaagBnaagBnaagBnaagBnaagBnaagBnaaBfBeDpzBhazByaaDkBylaIfB",
  "yzauzaByazaByyziBydCgbBzhzdBydzaaDhCebabCgbzcCeazDlCmbzcCmeaBqnaaDpBzaapzBfnBlziaazpCmBeBzaa",
  "ClzBeBzDczBuCmazDjCmGlzJTnByClzBFBjByBSuGncaCcGniaBvDbLnGitaDrBeDjihaBhzDxCwczCoCwbabCwaaaCw",
  "aahCwuanCwBsFncajzfaCdEwhaCrFchalFcfaBfBgBtCoazaCoBjEzkaaEzBcBzcaCzCjaaazjCjdabCjBeDvaaCcwia",
  "nwbajwbadwBfDvCoFtxaeFtwDmjafBnbafBnbafBniagBnaagBnaaBqCwaziCwaBtdCwbzdaDbxBtDmbajDmfaQNrBzl",
  "awBzdaBwBzMNbaObBybaEbByBlagCwlaefeazCdaaeCdaaaCdaabCdaabCdaajCdEkepaNyebzDbebaCbegaaeBfapep",
  "CgjzfanCgbBeBizaaszaadzdaeeaaFeebaazaaBfzzCwfzzCwkzjCmazBsCmbzBeBzcafBzbafBzbafBzbacBzcagzaa",
  "gzjaezbalDaaazDaaasDaaabDaaaoDabanDaBhaEsDaeaczdaBszcaizDaBtaamzcaaBtBuaBszaCgEzaBcDccaBwtoa",
  "aCgBazdaBjEiiacEiBaBreaBqEkeaBdGhaaaGhBjEldanElBpaDbBfBvFeBdEsbajEsfaBjErdaBjErdaBnBlhaBzuka",
  "aukGjaaoGjaagGjaabGjaakGjaaoGjaagGjaabGjcaBzGelaLyCziavCzjahCzxafCwaaBpCwaaiCwCqafBcbaaBcaaB",
  "rBcaabBccaaBcbaaBcvCfaaiCfBfEuBeDwhaiDwBvasCcaabCceaeCcBbExcaaExzDdeaaDdClaBfDpxDodatDobaBtD",
  "odCpaabCpeahCpaacCpaaBcCpbacCpdajCpgaiCpgaBfEnBfEjBfaBmDidalDiiaCbgcaggvCibahCisCheahChrEyga",
  "dEylagEyDbaCuEoCcaByEhmaByEhgafEhBnCahajCafaBlBocaBcBohabBoHzaBeeaaBpGmaacGmbabGmpaceCcadeBn",
  "EmhaBpFivazEpBlaBbytawBmiaCzodaBjoiaaoCoCkjaaCkbayFjgajFjfaCavaarvhaBmDeiaDrFdaatFhkarCsaaBu",
  "CsCjagDuaaaDuaadDuaaoDuaakDufaCgCteajCtfadBsaahBsbabBsbavBsaagBsaabBsaaeBsaaaCgiBsbabBsbacBs",
  "baaBsfaaBseagBsbagBscaeBskajGgaaaGgbaaGgaaBlGgaajGgaaaGgbaaGgaadGgaajGgaabGghabGgBcaDnEaaaeE",
  "aBdaCtGdhajGdGjaCbFfbaBlFfBhaCqDrkajDrfamDssaCfFufajFufatDvBbaBacbaocdawcHcaChBiDvaDeGllaaGl",
  "gBhbaaBhbahBhaabBhaaBdBhaabBhbalBhiajBhCrahDybaBtDybakDyBaaCtGohaDeFkmapsCeEvgajBgGzaBhFmnaj",
  "FmfaimaaBsmaanmjaBcmcaBfDjbavDjaanDjCuagDkaabDkaaBrDkcaaDkaabDkaaiDkhajDkfafBvaabBvaaBkBvaab",
  "BvaafBvgajBvLxayDfgaqCnaaBoCncaBcCnDgaaDboaBxFvmaaFvBJlBbDxaEgBbaaeBbkaHnBbDXjaDuBdmaBQrBkja",
  "FXqBkeaWkdKDcaCfBxCOraVwigaBeDtaajDtdabDtDaFwaajFwfaBdjbafjjaCrEtjajEtaagEtaauEteasEtQpaCfCu",
  "HpaDmDlDwaCwDqdaCeDqgaqDqClaaFxaEcbByaCqkabBynaJBzFxhaBDnFxSbCqBoaaCqiFxNFqadCmaagCmaabCmaaa",
  "CmLaCecCmoaaCeBcacCebaaCmnadCmhaPfEcDKtaEcBjeamBjcaiBjgajBjbadBjdzFVfaJpzfaQtzCxaBtCgbawCgia",
  "ElzChaJlzjaBmzbaCjzcCgqzhCgbzgCgBdzdCgCizuaCrBtEratzlatzlaDiziayzFeaDgzaaCszaabzbaazbabzbadz",
  "aalzaaazaagzaaCmzaadzbahzaagzaaBbzaadzaaezaaazcagzaaNbzbaLfzbaBxzZbFgoaeFgaaoFgBQlaBeCwfafCw",
  "IeagBqaaqBqbagBqaabBqaaeBqeaCjBeBgaaBeEhaBsEdcanEdbajEddabEdMhaBeGfqaCfGkeaaGkRvaBpDxIfaBqEg",
  "daaEgSlagBnaadBnaabBnaaoBnaaHoDnbapDnBoaCxbdajbdabbBEeaCpzCxaCizHladeaaBaeaabeaaaebaaeaajeaa",
  "deaaaeaaaefaaedaaeaaaeaaaeaaceaabeaaaebaaeaaaeaaaeaaaeaaaeaabeaaaebadeaageaadeaadeaaaeaajeaa",
  "qeeaceaaeeaaqeBzabeKjaBrzdaDvzlaozbaozaaozaaBkzjaGrzCdazzaCebzmaBrzdaizgabznafzFxaBLvzdaqzca",
  "mzcaEozdaDqzfalzdaazoalzdaCdzhajzfaBnzhaBdzbalzdabzCjaNbzlanzbamzcajzeaCdzgaozbakzfaizgaFqza",
  "aDxzBNpaCLFbByBfaGDtByfaInBybaINpBynaLBkByoaXxByDQvaUvByCFxaHHyByeaGFfByBOMXkaazBdaDrzExaJfC",
  "gLECta"]

def scriptRuns : List Run := runsOf scriptRows

/-- Gap, length, count of scripts and scripts of the characters with extensions. -/
def extensionRows : List String := [
  "HbaqgtBaBjBlBpBqBrBtBvByCwDdDeEkFeTwahlBeBgCwDbGaGfkacnCwbccnCwbacCwDbjacCwGabacnCwBmaixBaBe",
  "BtCwEkFmFraaixBeBtCwErFmFrGeaaexBeCwGcaafBqCwFmFoGaaaluxBaBeBrBtCwErFoGcGeaagBaBlBqBrCmCwaaf",
  "BeBtCwEkGcaajBaBjCdCwEkFoFrGcGeaalfBeBjBrBtCdCwEkFoFrGcaacCwGcaadBjCwFoaaexBeCwEraadxCwFraac",
  "CwFmaacBnCwbacCwFmaadBeCwGebaeBtCwEkGepagxBjCmCwFoGcaaexBjCwFoaacCwFohadCwFmFoaacCwFobadxCwF",
  "oaahuxBrCwFmFoGaqabBtcabBtsacCwErfaduCwGeembCwebcBaBtKjacBeEkaacBeBqabcBeCwaacBeBqJxadfBpBqF",
  "aaheBoCaEbFoFzGmoaheBoCaEbFoFzGmaadeFoFzcaibeBoCaEbFoFzGmBgajbeCaDhDiEpEyFiFokkceFokjdeFzGmg",
  "aceFoDvaceCaYmaplBgBsBuBwClCwDgDyEaEqFdFvFyGdaanlBgBsBuBwClCwDgEaEqFvFyGdravlBgBiBsBuBvBwClC",
  "tDeDgDkDyEgEqFhFnFuFvFyGdaaxlBgBiBsBuBvBwBxClCtCyDeDgDkDyEgEqFhFnFuFvFyGdajeBgBiCkDeEojdlvFn",
  "EojcBwDuEojcBuCsJmncBsFvJijdClDyGgBGqjdvDvFrGvadBpBqCwCGlcbFaCtberCbFpFqHvbcDsEwbacDsEwBVeae",
  "lBgBsClaabBgaaelBgBsClaadBgBsClaabBgaaflBgEaFyGdaadlBgFyaadBgEaFdaaelBgEaFyaacBgFdaagBgClDgE",
  "qFvFyaabBgabcBgFdabbBgaacBgFdaaclBgaadBgEaGdafbBgaadBgDyEaaadlBgFdaacBgEaaabBgaaelBgEaFdadbB",
  "gaallBgBsClDgDyEqFhFyGdGgaacBgBsaaeBgBsClGgabclBgaablabcBgBsaabDyHpbbBtCcadBeCwFobabFoVsadCw",
  "DsEwBfacbekagtBpBqDcEhEocaetBtDpEhFqadBgBsCwEZmacBaCwyacgEoaahgtBpCkDdEhFbkabBjeadbeEhbacBeB",
  "qQmpcByFxbahnByBzCeCmDsGnaainByBzCeCmDsEwGnaafnByBzCeCmcabBybbinByBzCeCmDsGbGnabjnByBzCeCmDb",
  "DsGbGnafgnByBzCeCmGnbafnByBzCeCmahgnByBzCeCmGnadfnByBzCeCmkdcnBycafnByBzCeCmaecCeCmbafnByBzC",
  "eCmebdByCeCmabbByDldcCeCmdacCeCmDmagnByBzCeCmGnaacCeCmFrpbByBgBlbByjacByFxBwBnbByCeBwbByplbB",
  "yBzabByDkybBykebByDsBebByBRIuacBeBqFohcByCwLkcqBgBiBuBwCkClCsCtDeDgDrDyFdFuGdGgacpBgBiBuBwCk",
  "ClCsCtDeDrDyFdFuGdGgablBgBiBuBwCkCsCtDeDrFuGdaamBgBiBuBwCkCsCtDeDrFdFuGdaalBgBiBuBwCkCsCtDeD",
  "rFuGdHbadlBgGgbacBgFvCgadCoCwDvGeacqCjBFPmbceEbGwaceFzkaceFzCtbfnByBzCeCmKwegnByBzCeCmGnkacC",
  "eCmBtbcCeCmNobdBcBdDaaacBcDaeBsdBcCzDadicBcDaQaBbceBaDAkacDiEpDBiacBsFvbacBsFvCdbcBsFvETvbcB",
  "sFvbacBsFvCHJwdbBjIPwrbByLRybbBy"]

/-- Characters with extensions of their script. -/
structure Extension where
  range : CodeRange
  scripts : List Nat

def extensionsFrom : (fuel : Nat) → List Nat → (start : Nat) → List Extension
  | fuel + 1, gap :: more :: count :: rest, start =>
    ⟨⟨start + gap, start + gap + more⟩, rest.take count⟩ ::
      extensionsFrom fuel (rest.drop count) (start + gap + more + 1)
  | _, _, _ => []

def extensions : List Extension :=
  let written := numbers extensionRows
  extensionsFrom written.length written 0

def scriptSet (number : Nat) : CodeSet := setWhere scriptRuns (· == number)

/-- The characters that are used with a script: those of the script unless they have extensions, and
those that have it among their extensions. -/
def scriptExtensionSet (number : Nat) : CodeSet :=
  ((scriptSet number).diff (CodeSet.ofRanges (extensions.map (·.range)))).union
    (CodeSet.ofRanges ((extensions.filter (·.scripts.contains number)).map (·.range)))

end TemplateCache.Unicode
