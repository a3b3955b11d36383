import TemplateCache.Unicode.Runs

/-!
# General categories

Every code point has one general category. `Category.group?` reads the names of categories and of
the groups that they form.
-/

namespace TemplateCache.Unicode

/-- A general category: a letter for its kind, and one for what it is of that kind. -/
inductive Category where
  -- controls and what is not assigned
  | cc | cf | cn | co | cs
  -- letters
  | ll | lm | lo | lt | lu
  -- marks
  | mc | me | mn
  -- numbers
  | nd | nl | no
  -- punctuation
  | pc | pd | pe | pf | pi | po | ps
  -- symbols
  | sc | sk | sm | so
  -- separators
  | zl | zp | zs
  deriving DecidableEq, Repr

namespace Category

/-- The categories in the order of their numbers in the table. -/
def list : List Category := [
  cc, cf, cn, co, cs, ll, lm, lo, lt, lu, mc, me, mn, nd, nl, no, pc, pd, pe, pf, pi, po, ps, sc,
  sk, sm, so, zl, zp, zs]

/-- The number of a category in the table. -/
def number (c : Category) : Nat := list.idxOf c

/-- The categories of all code points. -/
def runRows : List String := [
  "BfaaBdcvaxcvawasavazavarbvjnbvczbvzjawavasayaqayzfawazasazBgaaBdavdxaBaavayaBaahauazabaBaaya",
  "Baazbpayafbvayapahatcpavwjazgjxfazhfajafajafajafajafajafajafajafajafajafajafajafajafajafajaf",
  "ajafajafajafajafajafajafajafajafajafajafajafajafajafajbfajafajafajafajafajafajafajafajbfajaf",
  "ajafajafajafajafajafajafajafajafajafajafajafajafajafajafajafajafajafajafajafajafajafajafbjaf",
  "ajafajcfbjafajafbjafcjbfdjafbjafcjcfbjafbjafajafajafbjafajbfajafbjafcjafajafbjbfahajcfdhajai",
  "afajaiafajaiafajafajafajafajafajafajafajafajbfajafajafajafajafajafajafajafajafajbfajaiafajaf",
  "cjafajafajafajafajafajafajafajafajafajafajafajafajafajafajafajafajafajafajafajafajafajafajaf",
  "ajafajafajafajafajafajafajgfbjafbjbfajafdjafajafajafajafajCqfahBafrgdylgnyeggyagayagqyEhmaja",
  "fajafagayajafbcagcfavajdcbyajavcjacajacbjafqjacijBifajbfcjcfajafajafajafajafajafajafajafajaf",
  "ajafajafajafajefajafazajafbjbfByjBvfajafajafajafajafajafajafajafajafajafajafajafajafajafajaf",
  "ajafajafajafaBaemblajafajafajafajafajafajafajafajafajafajafajafajafajafajafajafajafajafajafa",
  "jafajafajafajafajafajafajafajafajafbjafajafajafajafajafajafajbfajafajafajafajafajafajafajafa",
  "jafajafajafajafajafajafajafajafajafajafajafajafajafajafajafajafajafajafajafajafajafajafajafa",
  "jafajafajafajafajafajafajafajafajafajafajafajafajafajafajafajafajafajafacBljbcagfvBofavarbcb",
  "BaaxacBsmaramavbmavbmavamhcBahdcdhbvkcfbczbvaxbvbBakmavabcvBfhagjhumjndvbhamDuhavahgmabaBafm",
  "bgbmaBadmbhjnchbBaahnvacabahamBdhBambcDkhkmahncjnBghimbgaBacvagbcambxvhdmagimagcmagembcovacy",
  "hcmbcavackhecxhayfhacbbecimBohagxmabBfmakCbhamakamahckhmdkambkahgmjhbmbvjnavagohambkachhbcbh",
  "bcvhacghacahccdhbcamahckdmbcbkbcbkamahhcakdcbhacchbmbcjnbhbxfpaBaaxahavambcbmakacfhdcbhbcvha",
  "cghacbhacbhacbhbcamacckbmdcbmbccmccamgcdhacahgcjnbmchamavjcbmakacihacchacvhacghacbhacehbcama",
  "hckemacbmakacbkambcahocbhbmbcjnavaxgcahfmacambkachhbcbhbcvhacghacbhacehbcamahakamakdmbcbkbcb",
  "kamgcbmakdcbhacchbmbcjnaBaahfpjcamahacfhccchacdhccbhacahacbhccbhccchcclhdcbkambkccckacckambc",
  "ahfcakncjncpfBaaxaBaecamckamhhacchacwhacphbcamahcmdkaccmacdmgcbmacchbcahbcbhbmbcjngcavgpaBaa",
  "hambkavhhacchacwhacjhacehbcamahakamekacambkacbkbmgcbkfcbhacbhbmbcjnacbhaklcbmbkihacchacBohbm",
  "ahckdmacckacckamahaBadcchakgpchbmbcjnipaBafhacambkacrhccxhacihacahbcghccamdcckcmacamachkfcjn",
  "bcbkavlcBvhambhgmdcaxfhaghmavjnbvBkcbhacahacehacxhacahacjhambhimahbcehacagacgmacjnbcdhBfcahc",
  "BaovaBaavcBabmfBajnjpaBaamaBaamaBaamawasawasbkhhacBjhdcnmakemavbmehkmacBjmachBaamfBaacbBaevd",
  "BabvBkcBqhbkdmakfmakbmbkbmahjnfvfhbkbmdhcmahckbhgkchdmmhambkbmfkamahakjnckambBaBljacajecajbc",
  "BqfavagcfMqhacdhbcghacahacdhbcBohacdhbcBghacdhbcghacahacdhbcohacCehacdhbcCohbccmivtpccphjBaf",
  "cDhjbcffbcarXvhaBaavqhaBdzhawasccCwhcvcohhgcrhcmakicshbmakbvicrhbmlcmhacchacbmlcBzhbmakgmhka",
  "mbkkmcvagcvaxahambcjnfcjpfcfvardvcmabamjnfcBihagCahgcehbmBhhamahecCrhjcBehaccmdkbmckdcbkamfk",
  "cmdcaBaccbvjnBdhbcehkcBrhdczhfcjnapccBhBawhbmbkambcbvCahakamakgmacamakambkhmfkjmbcamjnfcjnfc",
  "gvagfvbcnmalpmBwcdmakBuhamakemakamekambkhhacbvjngvjBaimiBacvbmakBdhakdmbkbmakcmbhjnBrhamakbm",
  "ckamakcmbkhcdvBjhhkhmbkbmccevjnccchjnBdhfgbvifajafecBqjbccjhvhccmavmmakgmdhamfhambhakbmahecB",
  "rfCkgmfagBhfBkgClmajafajafajafajafajafajafajafajafajafajafajafajafajafajafajafajafajafajafaj",
  "afajafajafajafajafajafajafajafajafajafajafajafajafajafajafajafajafajafajafajafajafajafajafaj",
  "afajafajafajafajafajafajafajafajafajafajafajafajafajafajafajafajafajafajafajafajafajafajafaj",
  "afajafajafajafajafajafajafajafajafajafajifajafajafajafajafajafajafajafajafajafajafajafajafaj",
  "afajafajafajafajafajafajafajafajafajafajafajafajafajafajafajafajafajafajafajafajafajafajafaj",
  "afajafajafajafajafajafajafajafajafajafajafajafajafajifhjffbcfjbchfhjhfhjffbcfjbchfacajacajac",
  "ajacajhfhjnfbchfhihfhihfhiefacbfdjaiayafcycfacbfdjaicydfbcbfdjaccyhfejcybccfacbfdjaibyackBde",
  "bfrbvauatawbuatawauhvaBbaBcebaBdivauatdvbqcvazawaskvazavaqjvaBdebacjbapagbcfpczawasagjpczawa",
  "sacmgccBgxocmmdlamcllmocbBaajdBaajbBaafcjbfcjafaBaajbBaazejfBaajaBaajaBaajaBadjaBaafdjafdhaf",
  "bBabfbjezajdfaBaazbBaafaBappBioajafdoapbBadcezeBabzdBaazbBaazbBaazgBaazBeBabzbBaazaBaazBeBaK",
  "hzhBaawasawastBabzgBaawasDcBaazBdBayzBnBafzCtBavckBaucChpCzBavpHaBaaziBaazCbBahzEgBaazJnBaaw",
  "asawasawasawasawasawasawasBdpBrBaezawasBezawasawasawasawasawaspzJvBaFazawasawasawasawasawasa",
  "wasawasawasawasawasawasCkzawasawasBfzawasJxzBvBauzbBafzBmBabcBfBaacEaBaBvjBvfajafcjbfajafaja",
  "fajafdjafajbfajffbgcjafajafajafajafajafajafajafajafajafajafajafajafajafajafajafajafajafajafa",
  "jafajafajafajafajafajafajafajafajafajafajafajafajafajafajafajafajafajafajafajafajafajafajafa",
  "jafajafajafajafajafajafajafajafajbffBaajafajafcmajafecdvapbvBlfacafecafbcCdhgcagavncamwhicgh",
  "acghacghacghacghacghacghacghacBfmbvauatauatcvauatavauativarbvaravauatbvauatawasawasawasawase",
  "vagjvbrdvaravawmvbBacvawasawasawasawasarBhczBaacDkBalcIfBazcpBaaBdcvaBaagahaoawasawasawasawa",
  "sawasbBaawasawasawasawasarawbsaBaiodmbkaregbBacoagahavbBaacDhhbcbmbybgaharDlhavcgahecBqhacDp",
  "hacbBadpjBaBfhBlBaicaBaphBeBaacjpBdBahpaBaopBfBajpBmBaopMhBaJTnhClBaBFCehagBRyhccCcBaicBnhfg",
  "bvKhhagcvphjnbhtcajafajafajafajafajafajafajafajafajafajafajafajafajafajafajafajafajafajafaja",
  "fajafajafajafajafahamclavjmavagajafajafajafajafajafajafajafajafajafajafajafajafajafajafbgbmC",
  "rhjobmfvhcwyigbyajafajafajafajafajafajafajcfajafajafajafajafajafajafajafajafajafajafajafajaf",
  "ajafajafajafajafajafajafajafajafajafajafajafajafajafajafajafajafajafajafajafaghfajafajafbjaf",
  "ajafajafajafajafagbyajafajafahajafajcfajafajafajafajafajafajafajafajafajafajafejafejafajafaj",
  "afajafajafajafajafajafdjafajafbjafbcajafacafacafajafajafajafajuccgajafahbgafghamchamdhamwhbk",
  "bmakdBaamccfpbBaaxaBafcBzhdvhcbkBxhpkbmhcbvjnfcrmfhcvahavbhamjnBbhhmbvwhkmbkkcavBchcccmakBuh",
  "ambkdmbkbmckmvacagjndcbvehamagihjnehacBohfmbkbmbkbmicchamhhamakbcjnbcdvphagfhcBaahakamakBxha",
  "mahcmbhbmehbmahamahxcbhagbvkhakbmbkbvahbgakamjcfhbcfhbcfhicghacghacBqfaydgifagbydcDbfBihbkam",
  "bkambkavakambcjnfcQNrhlcwhdcBwhdcDAteJMddObhbcEbhBlcgflcefecahamjhazmhacehacahacbhacbhacEdhq",
  "ypcNyhasawpBaClhbcCbhgcaBaBfclhaxcBapmgvawasavfcpmavbrbqawasawasawasawasawasawasawasawasbvaw",
  "asdvcqcvacdvarawasawasawascvazarczacavaxbvdcehacFehbcabaccvaxcvawasavazavarbvjnbvczbvzjawava",
  "sayaqayzfawazasazawasavawasbvjhagBshbgBehccfhbcfhbcfhbcchccbxazayaBabxacaBadzbBajccbbBabclha",
  "czhacshacbhacohbcnhBhcEsheccvdcBspcciBaCaodpqBabpcBaacmBaccaBaBucBsBaamEzcBchccBwhocamBapdcB",
  "fhdpicthaohhaoecBlhemecBdhacavBjhdchhaveoBpcBnjBnfCzhbcjnfcBjjdcBjfdcBnhhcBzhkcavkjacojacgja",
  "cbjackfacofacgfacbfccBzhlcLyhicvhjchhxcfgacBpgacigCqcfhbcahacBrhacbhccahbcwhacavhpwhbBagpBeh",
  "hcipBvcshacbhecepvhfpccavzhecavClcCdhdcbpbhppbcBtpahcmacbmecdmdhacchacBchbccmdcamipgcivgcBch",
  "bpavBchcpBfchhaBaBbhbmdcepgvicCbhccgvvhbchpshechprhgcdvlcgpDbcCuhCccByjmcByfgcfpBjhdmhcjnfcj",
  "ndhagahvjccemaragvfhcbzHzcBepacBphacbmarbcbhpcchCccdmBchjpahhcvhkmdpevvcrhdmdvBlcuhgptcwhica",
  "kamakCahomgvdctpjnambhbmahiccmakBshckdmbkbmbvabdvamjcabbcyhgcjnfccmBjhemakhmacjndvahbkahhcBi",
  "hambvahicbmakBvhckimbkdhdvdmavakamjnahavahcvactpkcrhacyhckcmbkamakbmfvambhamCjcghacahacdhaco",
  "hacjhavfcBuhamckhmecjnfcbmbkachhbcbhbcvhacghacbhacehacbmahbkamdkbcbkbcckbcahfcakecehbkbcgmcc",
  "emkcjhacahbcahacBlhacahckfmacakbcakacdkacbkamakamahamahbvacbvhcbmBccCahckhmbkcmakamdhevjnbva",
  "cavamchBdcBvhckfmakamdkbmakbmbhavahhcjnGjcBuhckdmbcdkbmakbmwvdhbmBhcBvhckhmbkamakbmcvahkcjnf",
  "cmvscBqhamakambkfmakamahavfcjnfctnBbcBahbcamakambkdmakemdcjnbpcvaBaghHccBrhckimakbmavDvcBfjB",
  "ffjniplchhbcahbchhacbhacxhfkacbkbcbmakamahakahakamcvicjnCrchhbcBmhckdmbcbmdkamahavahakBacahj",
  "mBnhfmakahdmhvamhcahfmbkcmBthmmakbmcvahevmcCuhgcjvGzcBghavncjnfcihacBkhakgmacfmakamahevjcjns",
  "pccbvBdhbcvmacakgmakbmakbmCucghacbhacBlhfmccamacbmacgmahamhcjnfcfhacbhacBfhekacbmacbkamakama",
  "hgcjnLxcshbmbkbvgcbmahakmhacBhhbkemccbkamakammvjnamDgcahocuphBadxqBamcavBJlhDxcEgoacevkcHnhD",
  "XjcDshbvmcBPfhpbamfhomjcFXqhecWkhKDccBdhlmckcmjnCOrcVwhgcBehacjndcbvDahacjnfcBdhbcemavjcBvhg",
  "mevdBadgavaBajcjnacgpacuhecshQpccgBnhbgcvjnHpcBfjBffwpdvDwcCwhdcamahCckgcdmmgClcbgavagamkcbk",
  "ncJBzhhcBVphBocjhNFqcdgacggacbgacLehocahBccchbcahncdhhcPfhDKtcEchecmhccihgcjhbcaBabmavdbFVfc",
  "JfBajnfcQtBaCxcBtmbcwmicElBaChcJlBajcBmBabcChBabkcmcBafkhbhmbBagmBdBadmCiBaucCnBacmaBaErctpl",
  "ctplcDiBaicypFeczjzfzjgfacrfzjzfajacbjbcajbcbjbcdjachjdfacafacgfackfzjzfbjacdjbchjacgjaczfbj",
  "acdjacejacajccgjaczfzjzfzjzfzjzfzjzfzjzfzjBbfbcyjazyfazffyjazyfazffyjazyfazffyjazyfazffyjazy",
  "fazffajafbcBxnTrBaCcmdBaBxmhBaamnBaambBaevocemacomBQlcjfahtffcffIecgmacqmbcgmacbmacemecCjgBg",
  "camEhcBshccgmggbcjndcahaBaMhcBdhamqcBrhdmjnecaxRvcBahagdmjnIfcBdhbmahjndcavSlcghacdhacbhacoh",
  "acHohbcipgmBocBhjBhfgmagdcjndcbvBEecCgpaBacpaxdpCxcBspaBaopHlcdhacBahacbhacahbcahacjhacdhaca",
  "hacahfcahdcahacahacahacchacbhacahbcahacahacahacahacahacbhacahbcdhacghacdhacdhacahacjhacqhecc",
  "hacehacqhBzcbzKjcBrBadcDvBalcoBabcoBaacoBaacBkBajcmpGeBaCdcBcBamcBrBadciBagcbBancfBaFxcJqBae",
  "yBBzBadcqBaccmBaccEoBadcDqBafclBadcaBaoclBadcCdBahcjBafcBnBahcBdBabclBadcbBaCjcNbBalcnBabcmB",
  "accjBaecCdBagcoBabckBafciBagcFqBaacDnBajnBNpcCLFbhBfcGDthfcInhbcINphncLBkhocXxhDQvcUvhCFxcHH",
  "yhecGFfhBOMXkcabBdcDrbExcJfmDSFncDSYndbcDSYndbc"]

def runs : List Run := runsOf runRows

/-- The code points of some categories. -/
def setOf (chosen : List Category) : CodeSet :=
  let numbers := chosen.map number
  setWhere runs numbers.contains

def letters : List Category := [ll, lm, lo, lt, lu]

def marks : List Category := [mc, me, mn]

/-- The categories that a name stands for, in the form of `looseName`. -/
def groups : List (List String × List Category) := [
  (["l", "letter"], letters), (["lc", "casedletter"], [ll, lt, lu]),
  (["ll", "lowercaseletter"], [ll]), (["lm", "modifierletter"], [lm]),
  (["lo", "otherletter"], [lo]), (["lt", "titlecaseletter"], [lt]),
  (["lu", "uppercaseletter"], [lu]), (["m", "mark", "combiningmark"], marks),
  (["mc", "spacingmark"], [mc]), (["me", "enclosingmark"], [me]), (["mn", "nonspacingmark"], [mn]),
  (["n", "number"], [nd, nl, no]), (["nd", "decimalnumber", "digit"], [nd]),
  (["nl", "letternumber"], [nl]), (["no", "othernumber"], [no]),
  (["p", "punctuation", "punct"], [pc, pd, pe, pf, pi, po, ps]),
  (["pc", "connectorpunctuation"], [pc]), (["pd", "dashpunctuation"], [pd]),
  (["pe", "closepunctuation"], [pe]), (["pf", "finalpunctuation"], [pf]),
  (["pi", "initialpunctuation"], [pi]), (["po", "otherpunctuation"], [po]),
  (["ps", "openpunctuation"], [ps]), (["s", "symbol"], [sc, sk, sm, so]),
  (["sc", "currencysymbol"], [sc]), (["sk", "modifiersymbol"], [sk]), (["sm", "mathsymbol"], [sm]),
  (["so", "othersymbol"], [so]), (["z", "separator"], [zl, zp, zs]),
  (["zl", "lineseparator"], [zl]), (["zp", "paragraphseparator"], [zp]),
  (["zs", "spaceseparator"], [zs]), (["c", "other"], [cc, cf, cn, co, cs]),
  (["cc", "control", "cntrl"], [cc]), (["cf", "format"], [cf]), (["cn", "unassigned"], [cn]),
  (["co", "privateuse"], [co])]

def group? (name : String) : Option (List Category) :=
  (groups.find? fun entry => entry.1.contains name).map (·.2)

end Category
end TemplateCache.Unicode
