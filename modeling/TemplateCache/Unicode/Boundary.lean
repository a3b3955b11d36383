import TemplateCache.Unicode.Runs

/-!
# Boundaries in text

What a character is to the boundaries of graphemes, words and sentences. Names are in the form of
`looseName`; characters of no class have the number zero.
-/

namespace TemplateCache.Unicode

/-- A division of characters into named classes. -/
structure Division where
  names : List (List String)
  runs : List Run

/-- The class with a name. -/
def Division.set? (d : Division) (name : String) : Option CodeSet :=
  (d.names.findIdx? fun names => names.contains name).map fun i => setWhere d.runs (· == i + 1)

/-- What each code point is to graphemes. -/
def graphemeRows : List String := [
  "jbafbbacrbDqaBgbmaabWvaEhdKoagdKcaBsdaaadaabdaabdaaadCdafijakdaaabBtaudpaadDwagdaiaafdbabdaa",
  "ddBgaaiaaadBdaBadDmakdCfaidiaadxaddaaidaacdaaedBqacdBzabieaidBpaxdaiBfdakCbaadakadaackhddkad",
  "bkaagdjabdBcaadbkCdaadaaadbkddbabkbabkadiaadjabdzaadbabdakCdaadaackbddabdbacdcaadBdabdcaadka",
  "bdakCdaadaackedaabdakaabkadtabdvafdaaadbkCdaadaabdakddbabkbabkadgacdjabdBdaadCgaadakadbkcack",
  "aackadiaadBnaadckadCcaadaacddkaacdaaddgabdkabdBcaadbkCdaadaaakbdakadbkaacdaaddgabdkabdoaakla",
  "bdbkCcabdaaadbkddaackaackadaihaadjabdBcaadbkCraaddaadbkcdaaadaagkadrabkCiaadaaakgdlahdDtaada",
  "aakidkagdCuabdBaaadaaadaaaddabkBwandakedaabdeakdaaBjdiaadDxaddakfdaabdbkbdwabkbddacdpaddmaad",
  "aaakbdfaadoaadDtaDreCtmDjlNkacdBKjaddBbacdBcabdBdabdClabdakgdhkadbkkdiaadBsacdabadEmabdBhaad",
  "EnacddkbdckdabkadfkcdIkabdbkadCeaakadakgdaaadaaadbahdfkjdbaadBvaBedBwaddakBuajddkcdBlaidlabd",
  "akBdaakddbkfdCdaadakbdckadakedBvahkhdbkbdFvacdaamdakgddaadfaadbaakbdHpaCldUcaabadanbbxagbBwa",
  "pbDraBgdEObacdFkaadDraBfdVhafdEaabdBSQdaddaajdBfabdDbabdKlaadcaaddaadwabkbdakdaadDeabkBxapkb",
  "dzardmaadBlahdyakdakadlaBcecacdakBuaadbkddbkbdbkadBjaadCoafdbkbdbkbdlaadhaadakBtaadByaadaacd",
  "babdeabdaaadBoaakbdbkeaakadJbabkadbkadbkaaakadraagBahagBahagBahagBahagBahagBahagBahagBahagBa",
  "hagBahagBahagBahagBahagBahagBahagBahagBahagBahagBahagBahagBahagBahagBahagBahagBahagBahagBaha",
  "gBahagBahagBahagBahagBahagBahagBahagBahagBahagBahagBahagBahagBahagBahagBahagBahagBahagBahagB",
  "ahagBahagBahagBahagBahagBahagBahagBahagBahagBahagBahagBahagBahagBahagBahagBahagBahagBahagBah",
  "agBahagBahagBahagBahagBahagBahagBahagBahagBahagBahagBahagBahagBahagBahagBahagBahagBahagBahag",
  "BahagBahagBahagBahagBahagBahagBahagBahagBahagBahagBahagBahagBahagBahagBahagBahagBahagBahagBa",
  "hagBahagBahagBahagBahagBahagBahagBahagBahagBahagBahagBahagBahagBahagBahagBahagBahagBahagBaha",
  "gBahagBahagBahagBahagBahagBahagBahagBahagBahagBahagBahagBahagBahagBahagBahagBahagBahagBahagB",
  "ahagBahagBahagBahagBahagBahagBahagBahagBahagBahagBahagBahagBahagBahagBahagBahagBahagBahagBah",
  "agBahagBahagBahagBahagBahagBahagBahagBahagBahagBahagBahagBahagBahagBahagBahagBahagBahagBahag",
  "BahagBahagBahagBahagBahagBahagBahagBahagBahagBahagBahagBahagBahagBahagBahagBahagBahagBahagBa",
  "hagBahagBahagBahagBahagBahagBahagBahagBahagBahagBahagBahagBahagBahagBahagBahagBahagBahagBaha",
  "gBahagBahagBahagBahagBahagBahagBahagBahagBahagBahagBahagBahagBahagBahagBahagBahagBahagBahagB",
  "ahagBahagBahagBahagBahagBahagBahagBahagBahagBahagBahagBahagBahagBahagBahagBahagBahagBahagBah",
  "agBahagBahagBahagBahagBahagBahagBahagBahagBahagBahagBahagBahagBahagBahagBahagBahagBahagBahag",
  "BahagBahagBahagBahagBahagBahagBahagBahagBahagBahagBahagBahagBahagBahagBahagBahagBahagBahagBa",
  "hagBahagBahagBahagBahagBahagBahagBahagBahagBahagBahagBahagBahagBahagBahagBahagBahagBahagBaha",
  "gBahagBahagBahagBahagBahagBahagBahagBahagBahagBahagBahagBahagBahagBahagBahagBahagBahagBahagB",
  "ahagBahagBahagBahagBahagBahagBahagBahagBahagBahagBahagBahagBahagBahagBahagBahagBahagBahagBah",
  "agBahagBahagBahagBahagBahagBahagBahagBahagBahagBahagBahagBahagBahagBahagBahagBahagBahagBahag",
  "BahagBahagBahagBahagBahagBahagBahagBahagBahagBahagBahagBahagBahagBahagBahagBahagBahagBahagBa",
  "hagBahagBahagBahagBahagBahagBahagBahagBahagBahagBahagBahagBahagBahagBahagBahagBahagBahagBaha",
  "gBahagBahagBahagBahlawmdaBwlNHxaadBCiapdpapdHyaabGbabdDbalbTsaadIraadFsaedCMfacdaabdeaddBnac",
  "ddaadGiabdWaaddCmaedMeabdDaaddCrakdBwaddEraakadakCaaodBoaadbabdjacdakBsackddbkbdbaaidaadjaai",
  "BxacdBjaedakhdpabkBraadlabdakBvackidakadaabieaddaaakadDnackcdbkddfaadbaadGaaadckhduabdbkCcab",
  "daaadakaddkbabkbabkadiaadjabkbagdcaedCoaadbkfdaaadbaadaacdakaabkcdaiadnabdDdackhdbkcdakadwaa",
  "dDcaadbkfdakadbkadakbdakbdJaaadbkddbadkbdakbdBaabdDdackhdbkadakbdEbaadakadbkhdDwaadakadbadda",
  "kedJvackidakbdJkaadekaabkbaddaiakaiakadFkackddbabddkadcaakBbajdBnafdakaiddhaadiafdbkcdBnafim",
  "dakbdPoaakgdaafdakadDdavdaaakgdakbdakbdErafdcaadaabdaagdaiadCnaekaabdaabkadakadNiabdbkiabdai",
  "akBvabkedcabkcdwaadHXcapbadfaodQYxaldckcdDRzaedCgagdVjaamcadmSpaadaaCckgaddDcaadkabdBDAwabda",
  "adbGYtaBtdbawdUvaedcafdhbhdbagdBdaddFracdCYcaCcddaBxdhaadnaadvaedaaodCAhagdaaqdbagdaabdaaedD",
  "vaadGdagdOkaadCiaddTnaddJtabdBChagdEeagdDGsazjTmaedBSXXnaBfbDrdExbJfdFIlbKYUha"]

def graphemeBreak : Division where
  names := [
    ["cn", "control"], ["cr"], ["ex", "extend"], ["l"], ["lf"], ["lv"], ["lvt"], ["pp", "prepend"],
    ["ri", "regionalindicator"], ["sm", "spacingmark"], ["t"], ["v"], ["zwj"]]
  runs := runsOf graphemeRows

/-- What each code point is to words. -/
def wordRows : List String := [
  "jaajbnacraaraaaddaaqdaalaaamaajoakaleazbdaafaazbjaanBjaabbaaggaabaaakabaaabeawbaaBebaaSlbfaB",
  "hbEheebaabbbadbalabfaabakcbaaabaatbaaDebaaFibaageGjbaaBlbbadbaaabakBobalabfaBseaaaeaabeaabea",
  "aaehaBahdadhabakkafofablbakeaaagcaBqbuejoaaaoalaabbaeDubaaabgeaoaafebbbeaadebbjocbbaaboabbae",
  "BdbBaebaDkbkeabnajoBgbiebbbaalaaabbaaebavbdeabieabceabeeraybcedakbeaxbaafbaaboeaieBpbxeaoBge",
  "Cbbceabreabgejbbebajoaapbceaahbbabbbavbaagbaaabcadbbaaeabgebabebaceabhaaedabbaacbbebajobbjaa",
  "baaaebaceaafbdabbbavbaagbaabbaabbaabbbaaeaaeedabebacecaaegadbaaabgajobecbaekaceaaibaacbaavba",
  "agbaabbaaebbaaeabheaaceaacebaaboabbbebajoiaabfeaaceaahbbabbbavbaagbaabbaaebbaaeabgebabebaceg",
  "acedabbaacbbebajoaaabpaaeabaafbcacbaadbcabbaaabaabbcabbcacbcalbdaeecaceaadebaabfaaenajopaeeh",
  "baacbaawbaapbbaaeabgeaaceaadegabeaacbbaabbabbbebajopaabceaahbaacbaawbaajbaaebbaaeabgeaaceaad",
  "egabefabbaabbbebajoaabbaeladeibaacbaaBobbeabgeaaceaadeabeacbaegacbbebajojafbaaceaarbcaxbaaib",
  "aaabbagbcaaedafeaaaeaahefajobabeCiaaebagelaheaajoDiaaebaiekageaajoBlaabwabefajokaaeaaaeaaaed",
  "abehbaaBjbdateaabeebkeaaBjeiaaeDvateaajoladedaceaacebagecademaleaaaejodebaBlbaaabeaabbaBqbaa",
  "MubaadbbagbaaabaadbbaBobaadbbaBgbaadbbagbaaabaadbbaobaaCebaadbbaCobbaceBfapbpaDhbbafbcaXvbba",
  "qbarzbeaCwbcakbgarbdeiasbcekarbbelambaacbaabeClaBfeiaaebajoBgaceagaejofaDkbgaebbeBhbaeabeaCr",
  "bjaBebaaledalejajoExajoBlawbeeCeajeaaBcebaaejofajovaBeeBwaeeBubqehbcajoqaielaceBdbmebbjoBrbn",
  "elaBjbtehajocacbjoBjbbakbeaBqbbacbpaceaauedbaefbaebbceabeaHjbCleKrbbafbbaBlbbafbbahbaaabaaab",
  "aaabaaBebbaCabaagbaaabcacbaagbcadbbafbdambeacbaagbcagraacraaaeasbghabmjaambaakbnegafoabfcaal",
  "oaafjaaregaajgaaabmaabpambByaBgeqaabdaabbajbaaabcaebfaabaaabaaabaadbaakbbadbeaebdaabqaBobBFg",
  "aBzbCRtaIubfadbcebblaBlbaaabeaabbaCdbgaaboaaewbiagbaagbaagbaagbaagbaagbaagbaagbaaBfeBuaabRva",
  "ardaabBjafeaaeieabbDnabebicaDmiaadieaBqbaaDpbqaBfbBvapiHzaBuiaaDjiBPDvaBSubCoaBtbbaKibcapbjo",
  "bbtaBubdeaajeaaBebbeDbbbevaHpbbabbaaabaahbuapbaecbaedbaewbeedaaesaBzblabeBxbrejajofarefbcaab",
  "aabbaejoBbbhebawbmelaBcbcadeBubnenaabjokaaejajofaBobneiacbaehbbebajoBgaceBxaaeaacebabeeabeaa",
  "aeBdakbeebacbbejafbbafbbafbiagbaagbaaCfbfaEkbheaabebajofaQNrblawbdaBwbNGtagblaebeaahaejhaamh",
  "aaehaaahaabhaabhaajhDtbBgaNybraClbbaCbbBnalbdapealbaakalkapecabfxacfalaaamaaalakzaebaaFebbaa",
  "ggaamdaalaaamaajoakaleazbdaafaazbkaCdibeBebcafbbafbbafbbacbBbacgdalbaazbaasbaabbaaobbanbBhaE",
  "sbCqaCabFfaaeEzaBcbcaBwboaaeBeaBfbmaBdbeaBlbeeeaBdbbaBjbdahbaaebBpaGbbbajofaBjbdaBjbdaBnbhaB",
  "zblakbaaobaagbaabbaakbaaobaagbaabbcaBzblaLybiavbjahbxafbaaBpbaaibCqafbbaabaaBrbaabbcaabbawbj",
  "awbiaBebCmasbaabbjavbjazbCraCdbfabbClaabceaabeeadedbaacbaaBcbbacedaaeBfaBcbcaBcbBiahbaaBbbbe",
  "yaCbbjavbjasbmarbEfaCubCcaBybmaBybmaBjbdehajofajoBbbcaeeaawbJpaBpbaabecabbpacbCcadeBcbjaabha",
  "vbkeBearbdeBpaubBaawbiaceCaboeBeajoaebbbeabiadeBsbkebaaodaaejaaobaybgajofaceBjbneaajodaabbea",
  "bhaBibaebaabiaceBvbnedbdadeaabejoabaaabBiarbaayblefaaebbaeCjagbaaabaadbaaobaajbgaBubleeajofa",
  "deaahbbabbbavbaagbaabbaaebaabeabgebabebacebaabfaaeeaebbebagecaeekajbaaabbaabaaBlbaaabieaaaeb",
  "aaeaadeaaeeabaeabmabeBcaCabredbeajodaaecbBdaBvbtebbaaabhajoGjaBubgebaiewadbbeBhaBvbqecaabkaj",
  "oBlaBqbmeabgajofatoCeaoedajoHpaBrboeDwaClbjouahbbaabbahbaabbaaxbfeaabebadeabaeabbelajoCrahbb",
  "aBmbgebageabaaabaeBaaabjeBnbgeabdehaaehaabkeBtbpecaabraCubHqaBgboajofaibaaBkbheaaheaboajoxaB",
  "dbbaveaaneCuagbaabbaaBlbfecaaeaabeaageabaehajofafbaabbaaBfbeeaabeaaeeabgajoLxasbdeiabeabaemb",
  "aaBhbgecaeemajoaeDgaabDaaBJlbDxaEgbqaHnbDXjaDsboaBPfbpgaefboejaFXqbeaWkbKDcaBdbrejoCOraVwbga",
  "BebaajofaDabaajofaBdbbaeekaBvbgeiadblajoiaubeasbQpaBsbcajoHpaClbExaCwbdaaeabCcegadembClabbaa",
  "abaekabeYGbadiaagiaabiaaaiLaaciBxaainadiEAhaEcbeambcaibgajbcabeaadgGElajoTxaBtebaweUvaeecafe",
  "hghebageBdadeFraceRaaDgbaaCsbaabbbaabbabbbadbaalbaaabaagbaaCmbaadbbahbaagbaaBbbaadbaaebaaabc",
  "agbaaNbbbaybaaybaaBebaaybaaBebaaybaaBebaaybaaBebaaybaahbbaBxoTraCcedaBxehaaenaaevaeeaaoeBQla",
  "BebfafbIeageaaqebageaabeaaeeeaCjbBgaaeEhaBsbcagegbbajodaabMiaBdbaeqaBrbdejoSbaBbbdejoIfaBdbb",
  "eabjoSqagbaadbaabbaaobaaHobkageBoaCpbgeabdajoBTtadbaaBabaabbaaabbaabaajbaadbaaabaaabfaabdaab",
  "aaabaaabaacbaabbaaabbaabaaabaaabaaabaaabaabbaaabbadbaagbaadbaadbaaabaajbaaqbeacbaaebaaqbYdaz",
  "bfazbfazbDnazpTmaeeDAdajoBSUXaaagBdaDreExaJfeLECta"]

def wordBreak : Division where
  names := [
    ["le", "aletter"], ["cr"], ["dq", "doublequote"], ["extend"], ["ex", "extendnumlet"],
    ["fo", "format"], ["hl", "hebrewletter"], ["ka", "katakana"], ["lf"], ["ml", "midletter"],
    ["mn", "midnum"], ["mb", "midnumlet"], ["nl", "newline"], ["nu", "numeric"],
    ["ri", "regionalindicator"], ["sq", "singlequote"], ["wsegspace"], ["zwj"]]
  runs := runsOf wordRows

/-- What each code point is to sentences. -/
def sentenceRows : List String := [
  "iaamagbmadraamanacdaccbabkabaajibkcaanaazoacaaaccazhacaaacgaalzaamiaahacaaafgaahdaahacdawoaa",
  "goxhaahhaoahaoahaoahaoahaoahaoahaoahaoahaoahaoahaoahaoahaoahaoahaoahaoahaoahaoahaoahaoahaoah",
  "aoahaoahaoahaoahaoahaoahaobhaoahaoahaoahaoahaoahaoahaoahaobhaoahaoahaoahaoahaoahaoahaoahaoah",
  "aoahaoahaoahaoahaoahaoahaoahaoahaoahaoahaoahaoahaoahaoahaoahboahaoahaochboahaoahboahcobhdoah",
  "boahcochboahboahaoahaoahboahaobhaoahboahcoahaoahbobhajaochdjboahboahboahaoahaoahaoahaoahaoah",
  "aoahaoahaobhaoahaoahaoahaoahaoahaoahaoahaoahaobhboahaoahcoahaoahaoahaoahaoahaoahaoahaoahaoah",
  "aoahaoahaoahaoahaoahaoahaoahaoahaoahaoahaoahaoahaoahaoahaoahaoahaoahaoahaoahaoahaoghboahbobh",
  "aoahdoahaoahaoahaoahaoCqhajBjhgjbhdaljnaehgaajaaajqaEheaoahaoahajaaaoahbadhakaofaaoaacoaaaoa",
  "aboahqoaaioBihaobhcochaoahaoahaoahaoahaoahaoahaoahaoahaoahaoahaoahaoehaoahaaaoahbobhByoBvhao",
  "ahaoahaoahaoahaoahaoahaoahaoahaoahaoahaoahaoahaoahaoahaoahaoahaoahaageaoahaoahaoahaoahaoahao",
  "ahaoahaoahaoahaoahaoahaoahaoahaoahaoahaoahaoahaoahaoahaoahaoahaoahaoahaoahaoahaoahaoahboahao",
  "ahaoahaoahaoahaoahaobhaoahaoahaoahaoahaoahaoahaoahaoahaoahaoahaoahaoahaoahaoahaoahaoahaoahao",
  "ahaoahaoahaoahaoahaoahaoahaoahaoahaoahaoahaoahaoahaoahaoahaoahaoahaoahaoahaoahaoahaoahaoahao",
  "ahaoahaoahaoahaoahaoahaoahaoahaaBlobaajcaakbaBohangaBseaaaeaabeaabeaaaehaBajdaejlafifabkbake",
  "aaafcnBqjuejiaabiaabjaeDujanajgeaiaafebjbeaadebjjicjbaajcnlaafajaeBdjBaebaDkjkeajnajiBgjiebj",
  "baakanajbaaebavjdeajieajceajeeiaanaaancabnaayjcedakjeaxjaafjaabieaieBpjxeaiBgeCbjceajreajgej",
  "jbebnjiaapjceaahjbabjbavjaagjaaajcadjbaaeajgebabebaceajhaaedabjaacjbebajibjjaajaaaebaceaafjd",
  "abjbavjaagjaabjaabjaabjbaaeaaeedabebacecaaegadjaaajgajibecjaekaceaaijaacjaavjaagjaabjaaejbaa",
  "eajheaaceaacebaajoabjbebajiiaajfeaaceaahjbabjbavjaagjaabjaaejbaaeajgebabebacegacedabjaacjbeb",
  "ajiaaajpaaeajaafjcacjaadjcabjaaajaabjcabjcacjcaljdaeecaceaadebaajfaaenajipaeehjaacjaawjaapjb",
  "aaeajgeaaceaadegabeaacjbaajbabjbebajipaajceaahjaacjaawjaajjaaejbaaeajgeaaceaadegabefabjaabjb",
  "ebajiaabjaeladeijaacjaaBojbeajgeaaceaadeajeacjaegacjbebajijafjaaceaarjcaxjaaijaaajbagjcaaeda",
  "feaaaeaahefajibabemaBvjaebjgeeagjheaajiBmabjaaajaaejaaxjaaajaajjaebjieajbaejaaajaageaajibadj",
  "BfaajwabefajikaaeaaaeaaaedcbehjaaBjjdateaabeejkeaaBjeiaaeCeaBqjteajjibndafjdedjceajcebjgecjd",
  "emjleajaejidebaBloaaaoeaaobaBqjaaahMtjaadjbagjaaajaadjbaBojaadjbaBgjaadjbagjaaajaadjbaojaaCe",
  "jaadjbaCojbacebaandabnwapjpaDhobafhcaXvjaaanqjamzjbccaCwjcakjgarjdeiasjcebniarjbelamjaacjaab",
  "elaBzjBfebnaaajdaajaebajixaakandaakanaaceafaejifaDkjgaejbeBhjaeajeaCrjjaBejaaledalehabnjiBdj",
  "baejkaBrjdazjfajiBlawjeedaCajjeaaBcebaaejifajimaajdndaBeeBwaeeBujqehjaabnjibnbabnkaieiacnceB",
  "djmebjjiBrjnelaBjjtecabncajicacjjiBjjbnihaoaheaBqjbacjpaceaauedjaefjaebjceajeaHjhCleaoahaoah",
  "aoahaoahaoahaoahaoahaoahaoahaoahaoahaoahaoahaoahaoahaoahaoahaoahaoahaoahaoahaoahaoahaoahaoah",
  "aoahaoahaoahaoahaoahaoahaoahaoahaoahaoahaoahaoahaoahaoahaoahaoahaoahaoahaoahaoahaoahaoahaoah",
  "aoahaoahaoahaoahaoahaoahaoahaoahaoahaoahaoahaoahaoahaoahaoahaoahaoahaoahaoahaoahaoahaoahaoah",
  "aoahaoahaoahaoihaoahaoahaoahaoahaoahaoahaoahaoahaoahaoahaoahaoahaoahaoahaoahaoahaoahaoahaoah",
  "aoahaoahaoahaoahaoahaoahaoahaoahaoahaoahaoahaoahaoahaoahaoahaoahaoahaoahaoahaoahaoahaoahaoah",
  "aoahaoahaoahaoahaoahaoahaoihhofhbafobahhhohhhofhbafobahhaaaoaaaoaaaoaaaohhhonhbahhhohhhohhho",
  "ehaabheoaaahcachaabheocadhbabhdodahheoeachaabheocakmafbebfcabkcahcdaabcablefamiabcaabngabccn",
  "uaamefaajfaaahkabcahmabcaamhByaBgeqaaodaaobaahcobhcoahaaaocaeofaaoaaaoaaaoaadoaaahdoahdjahba",
  "bhboeaaodhdaahqapophcjaoahdjOsadcBcabcPeazozhYaafcgancDaabcBeajcPmavcCkadcBfabcTtaBvoBvhaoah",
  "cobhaoahaoahaoahdoahaobhaohhcoahaoahaoahaoahaoahaoahaoahaoahaoahaoahaoahaoahaoahaoahaoahaoah",
  "aoahaoahaoahaoahaoahaoahaoahaoahaoahaoahaoahaoahaoahaoahaoahaoahaoahaoahaoahaoahaoahaoahaoah",
  "aoahaoahaoahaoahaoahaoahaoahaoahaoahaoahaobhfaaoahaoahceaoaheacndaBlhaaaheaahbaCdjgaajoaaewj",
  "iagjaagjaagjaagjaagjaagjaagjaagjaaBfencnabcbajcdaanajlaaneaacpabnhcQcaamakanbacjjcbahcaaccaa",
  "ijfeaaejbaejdaDhjbabebacjaaDljaadjeaBqjaaDpjqaBfjBvapjTraJTnjClaBGUejCoaBtjaaanKijaabnpjjibj",
  "taaoahaoahaoahaoahaoahaoahaoahaoahaoahaoahaoahaoahaoahaoahaoahaoahaoahaoahaoahaoahaoahaoahao",
  "ahajdeaajeaaajaoahaoahaoahaoahaoahaoahaoahaoahaoahaoahaoahaoahaoahaochbeDbjbeaaancaanBeaijba",
  "aoahaoahaoahaoahaoahaoahaochaoahaoahaoahaoahaoahaoahaoahaoahaoahaoahaoahaoahaoahaoahaoahaoah",
  "aoahaoahaoahaoahaoahaoahaoahaoahaoahaoahaoahaoahaoahaoahaojhaoahaoahboahaoahaoahaoahaoahajba",
  "aoahaoahajaoahaochaoahaoahaoahaoahaoahaoahaoahaoahaoahaoaheoaheoahaoahaoahaoahaoahaoahaoahao",
  "ahdoahaoahboahbaaoahaaahaaahaoahaoahaoahaouachaoahajchgjaecjaedjaewjeedaaesaBzjbabnhabeBxjre",
  "habnjifarefjcaajaabjaejiBbjheaaanwjmelaBcjcadeBujnegabneaajjifaejaejjjiejaaBojneiacjaehjbeba",
  "jicacnwjcaajceBxjaeajcebjbeejbeajaeajxacjbakjeebncjbejafjbafjbafjiagjaagjaaBqhaanhfaDbhBijhe",
  "anbebajifaQNrjlawjdaBwjMNbaObjbaEbjBlaghlaeheaajaejjaamjaaejaaajaabjaabjaaEdjBgaNyjbcpaCljba",
  "CbjBnaljdapebkanbkbnbcgapeaabkbapcbabcgabkabaabkbnakfcdaaklaejaaFejbaafaaanfabcbabkabaajibkc",
  "aanaazoacaaaccazhacaaacaabcanbcakaaCdjbeBejcafjbafjbafjbacjBbacfdaljaazjaasjaabjaaojbanjBhaE",
  "sjCqaCajFfaaeEzaBcjcaBwjoaaeBeaBfjmaBdjeaBljeeeaBdjbaBjjdahjaaejBpaBnoBnhCzjbajifaBjodaBjhda",
  "BnjhaBzjlakoaaooaagoaaboaakhaaohaaghaabhcaBzjlaLyjiavjjahjxaahbjchaaBphaaihCqafjbaajaaBrjaab",
  "jcaajbawjjawjiaBejCmasjaabjjavjjazjCraCdjfabjClaajceaabeeadedjaacjaaBcjbacedaaevabnhaBcjcaBc",
  "jBiahjaaBbjbeyaCbjjavjjasjmarjEfaCujCcaByomaByhmaBjjdehajifajifjvocaeeaaajvhJpaBpjaabecabjpa",
  "cjCcadeBcjjaajhavjkedaenvarjdednBlaujBaawjiaceCajoebnBcajiaebjbeajiadeBsjkebaaidnaejaaibayjg",
  "ajifaceBjjneaajiaacnajbeajhaBijaebaajiaceBvjnedjbnbadeanbejiajaaajaabnBfarjaayjlebnaabnaaaeb",
  "jaeCjagjaaajaadjaaojaajjanfaBujleeajifadeaahjbabjbavjaagjaabjaaejaabeajgebabebacebaajfaaeeae",
  "jbebagecaeekajjaaajbaajaaBljaaajieaaaebaaeaadeaaeeajaeajbnkabeBcaCajredjbncajidaaecjBdaBvjte",
  "bjaaajhajiGjaBujgebaieaabneaondjbeBhaBvjqebnaaajkajiBlaBqjmeajgajifatiBbaBajbaoedajibacnaagj",
  "HcaBrjoeDwaBfoBfhjiuahjbaajbahjaabjaaxjfeaabebadeajaeajbeanaaaniajiCrahjbaBmjgebageajaaajaeB",
  "aaajjeBnjgeajdecabncaaehaajkeBtjpeaabnajraCujHqaBgjoajifaijaaBkjheaaheajbnmajixaBdjbaveaaneC",
  "uagjaabjaaBljfecaaeaabeaageajaehajifafjaabjaaBfjeeaabeaaeeajgajiLxasjdebngabeajaemjaaBhjgeca",
  "eebnkajiaeDgaajDaaBJljDxaEgjqaHnjDXjaDsjoaBPfjpfaefjoejaFXqjeaWkjKDcaBdjrejiCOraVwjgaBejaaji",
  "dabnDajaajifaBdjbaeeanjaBvjgebngadjankajiiaujeasjQpaBsjaabnjiHpaBfoBfhxaanDyaCwjdaaeajCcegad",
  "emjClabjaaajaekabenaJBzjhaBVpjBoajjNFqadjaagjaabjaaLejoaajBcacjbaajnadjhaPfjDKtaEcjeamjcaijg",
  "ajjcabeandfGElajiTxaBtebaweUvaeecafehfhebageBdadeFraceRaazozhzoghaarhzozhaoaabobaaobabobadoa",
  "ahodhaaahaaghaakhzozhboaadobahoaagoaazhboaadoaaeoaaaocagoaazhzozhzozhzozhzozhzozhzoBbhbayoaa",
  "yhaafhyoaayhaafhyoaayhaafhyoaayhaafhyoaayhaafhaoahbaBxiTraCcedaBxehaaenaaecaanraeeaaoeBQlajh",
  "ajthfafhIeageaaqebageaabeaaeeeaCjhBgaaeEhaBsjcagegjbajidaajMiaBdjaeqaBrjdejiSbaBbjdejiIfaBdj",
  "beajjiSqagjaadjaabjaaojaaHojkageBoaBhoBhhgeajdajiBTtadjaaBajaabjaaajbaajaajjaadjaaajaaajfaaj",
  "daajaaajaaajaacjaabjaaajbaajaaajaaajaaajaaajaabjaaajbadjaagjaadjaadjaaajaajjaaqjeacjaaejaaqj",
  "YdazofazofazoBWlaccCBuajiBNpaCLFbjBfaGDtjfaInjbaINpjnaLBkjoaXxjDQvaUvjCFxaHHyjeaGFfjBOMXkaaf",
  "BdaDreExaJfeLECta"]

def sentenceBreak : Division where
  names := [
    ["at", "aterm"], ["cl", "close"], ["cr"], ["ex", "extend"], ["fo", "format"], ["lf"],
    ["lo", "lower"], ["nu", "numeric"], ["le", "oletter"], ["sc", "scontinue"], ["se", "sep"],
    ["sp"], ["st", "sterm"], ["up", "upper"]]
  runs := runsOf sentenceRows

end TemplateCache.Unicode
