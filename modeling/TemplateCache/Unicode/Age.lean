import TemplateCache.Unicode.Runs

/-!
# Ages

The age of a character is the version of the standard that introduced it.
-/

namespace TemplateCache.Unicode

/-- The versions in order, as their names. -/
def versions : List String := [
  "1.1", "2.0", "2.1", "3.0", "3.1", "3.2", "4.0", "4.1", "5.0", "5.1", "5.2", "6.0", "6.1", "6.2",
  "6.3", "7.0", "8.0", "9.0", "10.0", "11.0", "12.0", "12.1", "13.0", "14.0", "15.0", "15.1",
  "16.0"]

/-- The number of the version of each code point; zero stands for none. -/
def ageRows : List String := [
  "ThbdeBdbheagahrechkinjDkbeebhBubaejbeeqhCrbieaghheichbbaemgdkbbbkbaabcjabaqdagbaaabaatbaaBrb",
  "akgbaebgabaeabaeabaeabaerbbfagehdiaelbaeCnbaelbaeBobakbebgdeCabbgbbbgbbbgajBbbbehbbibbfjpgdj",
  "pkblbmhqaaBlbbagbauBmbauabaebabqanaaqcaimcjbajibaccihaBabdaauebkadhanaqekaiabihekabapayaiaba",
  "mzbeksbcechfiamnbbgCtbbeebaeobaeBdbbhjbeeahneaaBdechBaebachBdirkBweagnaCgjbacuBtlbaolaaBbmba",
  "amaakteaBeyaabyeaaBbhyanaqknfqbrayhsjxkyauosarBanaqalcbahCabbmrbalamebalbmybbkemaqblbjaibjaq",
  "cbaahbbabbbavbaagbaaabcadbbaabahgbbabbbacbaihaabdabbaaebbaubalbtaubaahabahaafbdabbbavbaagbaa",
  "bbaabbaabbbaabaaebdabbbacbcaakgadbaaabgaobakaujacbaagbahabaacbaavbaagbaabbaaebbajbaacbaacbba",
  "aboaabchbajbanahgaarftaacbaahbbabbbavbaagbaabbaaahdbbahbakbabbbacbgaaxbbdabbaacbbkbakbahfmja",
  "bbaafbcacbaadbcabbaaabaabbcabbcacbcahbaicbdaebcacbaadbbaakfaabnaailbhheaaqcbauhbaacbaawbaajb",
  "aqebbaayakgbaacbaadbgabbaabkarbaaybabbbkbajbgaavhkasaqbbauhbaacbaawbaajbaaebbabhgbaacbaadbga",
  "bbfaayabaabbbjbajbaabjazlaataqbbaxhbaacbaawbampbambtakfbakaacbaadbamasdacsabgsarbbbkbajbfkcs",
  "gkaaaxbeaarecaxeaaieaaaebagecaaedafeaaaeaahefajqbacelaCfbdaBcbBkabbaaabaaavbbavabaaavabfvdba",
  "vgbavcbaaabaaabbvbbavmbavcbbaebaaabaafbazaajbbabbbnBfaCtcaaBgcaebkdaBacdmfcaeacaauccegcaeacc",
  "eaaoeaaakaebickdlbmBkaBheakeeakbeakgeckdefkzeClkdlbkBlbaaaneaanbaBmbbgbiabaicnDlbelCpbelDdbf",
  "lgeaiCkeaiaeaadebageaaaeaadebaBmeaiaeaadebaBeeaiaeaadebageaaaeaadebageaigeaaweaiBeeaiaeaadeb",
  "ageaiBmeaisebabmbiBbecazifaDgearbafrbaalYfeilBcecaDcehqgamgayggayiaaywgiatglamgaacgaabglaDoe",
  "ahbajefajhfaoeayjefaDjeaugaBpeakeaCrljaBchbqaalhdalhdaahcaBphbaehkaBpibldazifajialcabiBfhBbi",
  "babiCklaaBclbaklfajlfanlbaoqbxnyBwaCxjayaabBbBsjbyaBbBqkcnlkfnBzmhadmCdkcaokcaBykisbBbeaBqub",
  "acuhnhaBildnatbqaveaEdhDjigjBbkoqdtayasamalbjFybacdkDlbfkvbbafbbaBlbbafbbahbaaabaaabaaabaaBe",
  "bbaCabaaobaanbbafbaasbbacbaaibaaBubaewbagfeegbhbiaggiegakaadpgbagbaBabaaeihmcakbacadcebgdicl",
  "amaocqaratayoarbbeggaidjakoaCebbeahaiogaibjakclBvbaeajdkalbrdaDmbielgJhbngabaeEqbaeagBdeBzgb",
  "hkiljalkmgqdsatBkbbecBbvakbuaFibtgahFtbjgDbbhehgtbbhbgaiaeDhbbelgbijghhkiakblbhpiajjkcldkjla",
  "mslamaldmxlaqdbamdbbmBbbamBibamabamdbcmabalgbbmgbngBebcmxbamnbamgidjanakanbmBbgdkpgJveTrgnhf",
  "igjekdjBokcqekelzqbaBfqaaaxBhqculqavhqatyudrouavBuiayBuiaymjckalckdjfkblEciglbneaBsiaaaneaan",
  "baCbibngaaiamnaamwiiagiaagiaagiaagiaagiaagiaagiaagiaaBfkxidkbiskaljngqbseteuavcxkyBhazeaaDke",
  "laIfezaledBaCdbcecgaeabaaDfbbgbafbbgDpbageaBnbakatauaaDpbaapbxecmexpitkbBbiaaBapgBcbbhaaBjbl",
  "lahogBbbbhaiBxboglbdhBubawEobdhDubbhBebahJTdejxClhBEXxbvihkhlaniruteumxcyBSuecarebgpeagleagc",
  "eagaeiaBvlLnktaBfkbmrkhnBbkfqaranDjlhawidjekbjEckbmarbmbnlqjmancqasaubqfrbufvbyevdxcBbbabyaa",
  "ayaaeycBbuacybxaqbnamekBriaxcajlfaCdjhaCqkashalkfaBblbrbuDfkkaakBclcaCzlaakldablBeqaaCckiank",
  "bajkbadkBbldqColxaelwnjafmbafmbafmiagmaagmaaBvqdrbqbvdxdaDbrBtlbajlfaQNrclawldaBwlDAxaJXtbbn",
  "CggclbaEbiBlagblaebeaaeybaaebaaabaabbaabbaaEdbpmaypaOabpyClbbaCbbgaayBfflbagahbypgjifadbckgq",
  "brubbgbhjbaasbaadbdacbagabaaFebbaabaaDpbbgDpbcafbbafbbafbbacbcagbaagbjaceadcblhaazhaashaabha",
  "aohbanhBhaEsheachdaBshcaihCwibqbsaalkaxcaaqBuaBtkEzaBckcaBwkoaBbqdaBefaqdfiactBafeaBqqeaBdha",
  "aahBjidaniBpaBlfbhBlfDbhbajhfaBjsdaBjsdaBnqhaBzqkaaqkyaaoyaagyaabyaakyaaoyaagyaabycaBzBblaLy",
  "qiavqjahqxafyaaBpyaaiyCqafhbaahaaBrhaabhcaahbaahvlaailCkqhaiqBvasraabreaerzjblcaajzkeaakClaC",
  "dndabrbnprbaBtrdiaabieahiaaciaaBaibubacidaiiaugaiigaBflBfqBfaBmqdalqiaCblcaBclbaBaleahlrqgad",
  "qlagqDbaCulCcaByrmaByrgafrBnuhajufaBlBbcaBcBbhabBbHzaBelaaBpxaacxbabxpacBbCcaaBbczBnuhaBpuva",
  "zyBlaBbxtawviaCzmdaBdmfyiaaqCnlayjaaubayngajnfaCanaanncuaxhaBmqiaCundraqbxjnaqeraatqkarqaaBq",
  "qasczCjagraaaraadraaoraakrfaCgqeajqfaarcqaahqbabqbavqaagqaabqaaeqaaauiqbabqbacqbaarfaaqeagqb",
  "agqcaeqkajBbaaaBbbaaBbaaBlBbaajBbaaaBbbaaBbaadBbaajBbaabBbhabBbBcaDlsaxasaaasauavbxBdaCtqhaj",
  "qGjaCbqbarqtrBhaCqqkajqfamssaCdnavayfajnfatBbBbazraubaordaprgyHcaChuDvaDeqlaaqgxbaaxbahxaabx",
  "aaBdxaabxbalxiajxCrahvbaBtvbakvBaaCtthaBztbvwtauetmapyCeqgajzGzaBhBbnajBbfaisaaBssaansjaBcsc",
  "aBfsbavsaansCuagtaabtaaBrtcaataabtaaithajtfafuaabuaaBkuaabuaafugajuLxayugaqzaaBozcaBbzaBbDga",
  "axoaBxvmaavBHujBpqarDxaDujlqaadjaqkaHnrDXjaDuymaBPelazivBczjaFXqBbeaWkrKDcaCfBbCOraVwmgaBeqa",
  "ajqdabqDayaajyfaBdqbafqjaCrqjajqaagqaauqeasqQpaCfBbHpaDmuDwaCqnfvdaavBunivgaqnClaasatbvaxkab",
  "xnaJBoseufvhaBDasSoxBoaaBbixNFqadyaagyaabyaabmKytdyoaazBcacvbaaznadvhaPftDKtaEcqeamqcaiqgajq",
  "bahqFVfaJpBbfaQtBbCxaBtybawyiaElyChaJlfjaBmfbaakGxfkrbyuaCriEratzlatulaDihiarjguFeaDgfaaCsfa",
  "abfbaafbabfbadfaalfaaafaadfahbfaaCmfaadfbahfaagfaaBbfaadfaaefaaafcagfaaMzfbibaLdfbjbaBxfZbro",
  "aeraaorBQlaBeyfafzIeagsaaqsbagsaabsaaeseaCjzBgaazEhaBsvcanvbajvdabvMhaBeyqaCfveaavRvaBpzIfaB",
  "qBbdaaBbSlagyaadyaabyaaoyaaHoqbapqBoaCwsavdajsdabsBEeaCpuCxaCivHladnaaBanaabnaaanbaanaajnaad",
  "naaanaaanfaandaanaaanaaanaacnaabnaaanbaanaaanaaanaaanaaanaabnaaanbadnaagnaadnaadnaaanaajnaaq",
  "neacnaaenaaqnBzabnKjaBrkdaDvklaombanmaqaaomaaomvqjaklbqcxBelauamalkmalamalbmalcmalcmelhmalgm",
  "aljmbnavcximalamblbmaljmdlbmaljmrsaxCdazmalbmmaBhlimasdailgabmnaftFxaBgmlqcrfmaqCrmaqbrtmlqB",
  "kmaqemdqerlqqmgqhrCkmaqamaqGzmaqdmbqarCjmbqdngqerxmrqasBoqasDhqemanpmancmanamanamanamancmanf",
  "mbndmanambndmanlmbqbrkmBvqCrmjqarbsbtavbxdaazcymqcadqcsbtauavbxcaElmczdaezDgqduazfalvdaayoal",
  "qdaCdqhajqfaBnqhaBdqbabxjBbdabBbCjaltaxcvirfsathshtasbtlsavlsatcuosmteuavaxdubxayauavduermsf",
  "tkubxfvcxbvjufvarbuhvaxaycvwtyuDfvlanubadvaxczcvbycacvdxbzaBbeaaBbfvsxdyczgxdyczaBbazcxcyaBb",
  "gabzgxcybzaBbbaaBbhyazaBbfagybzgaFqxaaCcxBkBbjxBNnabcCLEsfgxbyBfaGDoldyazfaInmbaINprnaLBktoa",
  "XxBaDQvaUvfCFvabcHHyxeaGFfzDFLdabcDSYnabcDSYnabcDSYnabcDSYnabcDSYnabcDSYnabcDSYnabcDSYnabcDS",
  "YnabcDSYnabcaaafBdaDrfExaJfhDSFlaHLXhc"]

def ageRuns : List Run := runsOf ageRows

/-- The number of a version, which is written with a point, or with a `v` and without. -/
def versionNumber? (name : String) : Option Nat :=
  (versions.findIdx? fun version =>
    name == version || name == "v" ++ String.ofList (version.toList.filter (· != '.'))).map (· + 1)

/-- The characters of a version and of those before it. -/
def ageSet (number : Nat) : CodeSet := setWhere ageRuns fun n => 1 ≤ n && n ≤ number

end TemplateCache.Unicode
