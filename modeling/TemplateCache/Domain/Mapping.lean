import TemplateCache.Unicode.Folding

/-!
# Characters of domain names

What a domain name makes of a character: it keeps it, leaves it out, replaces it, or must not have
it. `Domain.mapped?` does so with the characters of a name.
-/

namespace TemplateCache.Domain

open Unicode (Fold foldsFrom numbers setOf)

/-- The characters that stay as they are. -/
def keptRows : List String := [
  "aCmBaBkBhgbabbbabbebdadaxahBgbababababababababababababababababababababababababadabbbababadab",
  "ababacababababababababababababababababababababababacabababacabacadbeacadccacababacabbbacadab",
  "accbgkabababababababbbababababababababbeadababababababababababababababababababababababababab",
  "ababababgcacbbaeababababDsjBegbfDmcadibBfbabababadcsaBbBiiababababababababababababadacabacbB",
  "zBvbababababababababababababababababibababababababababababababababababababababababababababac",
  "ababababababbbababababababababababababababababababababababababababababababababababababababab",
  "ababababababababaBpBtbcccbCciBaefrvbDjeDvbBvcCgcDwoCgcBwcobBbcabkfBfhCwbEmiBjbhcbcvbgbaddcic",
  "bcdiaidcyccbfebcvbgbacacbcabeebccdakajqkcbibcbvbgbbbecjbcbccapdclhgbcbhcbcvbgbbbecicbcchchec",
  "rkbbfdcbddbbabbdbdcdleedcbdcagaoufmbcbwbpcibcbdhbbcbbcdcjhvbcbwbjbecibcbdhbfcbdcjbcmmbcbBybc",
  "bfepczbcbrdxbibacgdaefbabhgjccmBxbgeBcBlbbabebxbablbjcebabgbjebBglbCbbdbdbdbdbdblbcebbafgbqb",
  "dbdbdbdbdblbcbobmBlGdBwBrbDtcIxbdcgbabdcBobdcBgbdcgbabdcobCebdcCocBfdzgDhkYpbBbdDkhvjxjtmmbc",
  "bbmBzcBncjgjgkfjgDkhBqfCrkBebleleadBpcelBrezgkdCjcCmbBcckgjgncBtcluCybGjiChdodBykaCbhiBqfBrd",
  "alasaBcmbBhBlClbabababababababababababababababababababababababababababababababababababababab",
  "ababababababababababababababababababababababababababababababababababababecbbabababababababab",
  "ababababababababababababababababababababababababababababababababababababababababiifkhihifkhi",
  "hiababababababaBzbeapajcdbicbdoavbcabebldaiccacdbabhdmbgCnhbyoBgtadalacbfbdabababaealagdffBw",
  "cbebbeFzcacJncJuwkGeBYmbDydDwbFucFhBwBvbadbbababaeabbbffabababababababababababababababababab",
  "abababababababababababababababababababababababababababababababhbabdbafBsbafacCdiaoxjgbgbgbgb",
  "gbgbgbgbEvBizbdbDeKkabBybadebDhcbcbbDqgBqDsboCrkpCuhBvaOuBQQedCcjNjvabababababababababababab",
  "ababababababababababsbabababababababababababababacDliBhbababababababcbababababababababababab",
  "ababababababababababababababababababababhbabacababababdbabbbabcbabababababababababafafababab",
  "ababababaeabacabababababababaBabcBydjgCdiCrilgEllBddCzbkeBgbCcjncjcDyyBbkfcfcfjgbgbBreibbDgB",
  "tcjgQNrmweBwMXmbbabbkababbccJkaFrBgNzrCmbCchBtcBgpvbBsaPglbzbsbbbocnBiEsfceBsdDjbmdaBvBtFaBc",
  "dBwpBbeBjjBdfBqfBdbBkenDeEncjBuBjeBniBzlaBnkbobgbbdBzmLyjvkhyaExfcabBrbbdacwbCtiiBwsbbfBgdBa",
  "fBaBmCdetcBxbbfhbcbBcccejhihClBgBmeljCbdBccBafzhdmgDcCuEpByhBtijgpzBcibIaBebBpbccbqfiiBhBtiB",
  "pwzBmBbuwjCzeBjjCjbenyhjgCabriBmjDrbtlrbBuCkgbabdbobkgCgfjgdbhcbcvbgbbbebjcbcccagafgcgdeljba",
  "cabBlbjbacabdbjbbibBdDnbeBeCtijGkCbcBlBiCqljgmtCfgjgtBcBacoewHdChFcBymhcachbbbBdbbcljjCshcBt",
  "ckBbCtiDenCuhjDihDkBhojgibBsbnkBcdBfcvbnCvgbbbBrdabbbiijgfbbbBkbbbfhjgBrejJmyhqbBodBcDhapBxn",
  "BJmDyEgbelHnDXkDunBPfqvkFXqfWkKDdCfCOsVwhBebjeDcbjgBdcfkCrkjbgbufsQqCfIwCgBgyBsCweCehqCmelgj",
  "KXxBpBfDtEkMWrdbgbbbLepaBdccaodiPfDKuEcfmdihjcdFVkIfBkcdQtgwpqpBtcwjElCiJlkBmcCahniClgBpvCrE",
  "stmtmDijyBSpZbpeboBQmBegfIfgbqcgbbbeDwaEiBsdncjebMiBerCffaRwBpIgBqeaHkBebvibIqgbdbbbobHocpCx",
  "BpejebBEfCpCyCiQsbKkBreDvmocobobBkveBfaBgzdBibBcCezDsfFyBLwdqdmdIjgleapleCdijgBniBdcleboiBnN",
  "fincmdkdCebaepclejhFqbDnkaBNpCLFbBgGMncIObcLBkpXxGRqHHyfMOn"]

def kept : CodeSet := setOf keptRows

/-- The characters that are left out. -/
def ignoredRows : List String := [
  "GraZxaFIlbCKhbDheDApaDgeffGKyaCZMppJfaGeaCTOxdHWxhBTLJhJf"]

def ignored : CodeSet := setOf ignoredRows

/-- The characters that another one replaces, written like those that fold. -/
def singleRows : List String := [
  "CnBabCmDrbbJvkbbFpicbJvdbbCHqebbKlbbbFtgxbCmyhbCmBoyccCacccfeeccbbcicechxccBubbJhbdccgbbUpcb",
  "bQebcccebbPwbcecccbPufbbGcbbbPobbbPqbbbccbbPubbbPycbbQgbbbQcbbbcebbQgbbbQkcbbQmbdccgcdQubbbc",
  "fcdccbbQudcbQsccccebbQwbcecviccrjccwleccbbHlbbbEhdpecBmbbJzeeecwbbBFYkbbbccbbMnbbbBFYedbbccb",
  "bOzbbbFibbbFmbfccEcccBSxbbbFtcbbBSjbbbEnbbbElbbbEbbbbBShbbbBSfBobbJpbbbBWjbbbBVxbbbBVpbbbGbD",
  "ocbExdbbDrcbbIyBrcccebbOjcbbcibbCMfbbbIyhbbCybbbCDjbdbCwebbEyccbEwdrbCmsjbCmBsbbqbbbChbbbBxb",
  "bbzbbblbbbrbbbBdbbbBrcmccybbEdbbbDrbbbDpcbbEpbbbExccdccbbEdedbJzdqbGeqBgbCmDcrccBqBbccCcbbBe",
  "bhccpBwccDtBmbDsDTbbbbPoBmbVMuBnbbVMugbbVMuBvbbClBDkgbpDGabbSKpbbbSKnbbbSJvbcbSJrcbbSJtbbbSJ",
  "fbbbSHjbbbEAIwbbbchBrbIXjBtdbIXjEhbbVUzbbbVKvbfdVVbcedVVbcbbUSfdcdVVbhcdVVdbbbUNrbbbVVfccbVV",
  "bcbbVUzbbbVWtbcbUKtcbbFfbbbVWzbcbVWxcbbUKnbcbUKlcbbVXbcbbVWxbccVWvbbbVFvcbbULpbcbEtcbbVXbbcb",
  "VWvcbbEpbbbUKbbbbVWzbbbEfbdbTLldcbTKdcbbVYnbbbVXxbcbVXtccbTMdcbbTLdbcbTKvpbbTCvBjbbURhbbbWDl",
  "bbbURfbbbVStbbbUQvbbbWDnbbbUQtbbbUQrbbbUQlbdbUQhdbbDjbbbUMnbbbUQhbbbCvbbbUMpbbbUQfbbbUQjbebU",
  "QhebbUQdbcbUPlcbbVGdbcbUPdcbbLzbcbUPfcbbWEbbdbUPbdbbTSnCnCxccFzbbEldbbWNtcBwccEaibpqgbpqibpq",
  "ibpqgbprecppibpjbbVAvcbbVAxcbbVAzcbbVBbcbbUYzcbbUZbcbbUZdChcbpcbbFrbbbVGndbbVFtkccGpbbbVHncb",
  "bVHpibbVKnfcbpcbbHrbbbVItibbVJhfcbpcbbIpbbbVHrbbbndbbXXljbbJvbccVIvbbbJrgbbYDrbbbYDtbbbYDvbb",
  "bYDxbbbYDzbbbYEbbbbYEdbbbYEfbbbYEhbbbYEjbbbYElhbbbBebbYHhBwbbYKzrdeYLbbbbYGtedbYLbebbYLbbbbY",
  "MfbbbBFibbbYKzbcbYMrcbbYHlbkbYMhkbbYNlbbbBEcbbbYMfbcbYNxdbbYJtbbbYJnbbbYIvbbbYIfbbbWXhbbbYJp",
  "bebYJlebbYJjbcbYJfDzbbYSjfbbXFzdcbYSrcbbYStbbbYSvbceYSxbbbYEhbcdYSzbbbYTbebbYSzedbYTddbbYTfb",
  "bbYThhbbYTfcbbWGfcbbYTncbbYUvbbbYLnbcbYVrdbbYVrbcbYVtcbbCebbbYVjbbbYVhbebUTlebbYWddbbWIpbbbW",
  "JrbbbWJtbbbWIvbbbQcfbbYXlbcbYXnccbYXhybbYZdebbYYlfbbYYrdbbYZvbcbZApcbbYZzbbbZAjebbYZrfbbYZxd",
  "bbZBbbcbZBvcbbZBfebbcQgcbJTmLzjbBBKnDiBabBBNlBaBabBBPlBabbBBVfCRuBwbDsDsbbccbbBFUjbbbLHjbbbB",
  "FTdddccgbbBFXfbbbBFUvbbbBFXlbbbBFXjccdckbbBHJvbbbBHIzbcbBFZxcByccEdccchbbcEvbbBbLsbbBUIuDgbb",
  "DHIunbbXMmbbbXPmbbbXQmbbbXRcbbbXTabbbXWibbbXWubbbXYgbbbYAebbbZXsbbbBAAobbbBAAybbbBACqbbbBAEc",
  "bbbBAFqbbbBAJqbbbBALebbbBALybbbBAXubbbBBEybbbBBHabbbBBHibbbBBJobbbBBKebbbBBMebbbBBNcbbbBBOyb",
  "bbBBSwbbbBBUebbbBBWebbbBECgbbbBEHsbbbBFRabbbBFSsbbbBFTgbbbBFUabbbBFVibbbBGBcbbbBHLsbbbBHPibb",
  "bBHYmbbbBIAebbbBIBobbbBIDebbbBIHgbbbBIHkbbbBJJebbbBJJwbbbBJKsbbbBJLqbbbBJUmbbbBJVabbbBJVibbb",
  "BKEgbbbBKEybbbBKFwbbbBKGkbbbBKLabbbBKMgbbbBKNobbbBKTqbbbBMMgbbbBMPsbbbBMRgbbbBOWcbbbBOWkbbbB",
  "PCsbbbBPDwbbbBPEubbbBPGibbbBPJgbbbBPJobbbBQEabbbBQFubbbBQIebbbBTIgbbbBTNgbbbBTOybbbBTTibbbBT",
  "VcbbbBTVsbbbBTWebbbBUAcbbbBUAkbbbBUCubbbBXHsbbbBYQabbbBYQwbbbBYRebbbBYRkbbbBYRybbbBYTgbbbBYT",
  "ibbbBYZmbbbBZQabbbBZQibbbCAQibbbCARabbbCAUubbbCAVgbbbCAVwbbbCAWkbbbCBDibbbCBDubbbCBVgbbbCBVs",
  "bbbCBZkbbbCCAqbbbCCEebbbCCWibbbCCWubbbCCYabbbCDXcbbbCEGsbbbCEHcbbbCEVabbbCFBqbbbCFFcbbbCGIcb",
  "bbCGSgbbbCIKibbbCIMibbbCIQqbbbCIUmbbbCIZqbbbCJAkbbbCJAubbbCJDgbbbCJJabbbCJJsbbbCKKgbbbCKKsbb",
  "bCKLibbbCKLybbbCKNcbbbCKOebbbCKOkbbbCKUkbbbCKUqbbbCKVabbbCNSkbbbCNUqbbbCPEqbbbCPFmbbbCPHebbb",
  "CQCwbbbCQDubbbCQJebbbCQMqbbbCSEebbbCSFgbbbCSGibbbCSIybbbCSLsbbbCTAybbbCTBubbbCTGwbbbCTZwbbbC",
  "UCebbbCUSebbbCUTsbbbCUUabbbCVKwbbbCVYybbbCWImbbbCWIwbbbCWJebbbCZCybbbCZDobbbCZPmbbbDABgbbbDA",
  "BkbbbDAEybbbDAMybbbDANwbbbDAOcbbbDAOobbbDAWabbbDAYobbbDAYybbbDAZybbbDBMsbbbDBQobbbDBQubbbDCE",
  "ubbbDCEybbbDCGibbbDCZqbbbDDDgbbbDDDsbbbDDJabbbDDJsbbbDDJwbbbDDKobbbDDMubbbDERcbbbDFVubbbDFWm",
  "bbbDFZibbbDGAybbbDGBmbbbDGCebbbDGCkbbbDGFkbbbDGFqbbbDGGwbbbDGHebbbDGIcbbbDGKcbbbDGLebbbDGLsb",
  "bbDGQebbbDGRgbbbDGRmBrbbBKGtcbbBKFvCabbCtcbbBANybcbBAOcJocbYJxcccXWzbbbYJzcbbXWzbdbYKddgbXXb",
  "gbbYJbbdbYKrdbbYIvbkbYKtkvbYEtwcbYMjccbXYtcbbXYnbbbXYlbbbXYdbbbXXxbbbXXvbbbYMlbbbXXrbbbXXpbc",
  "bYMpcbbYMnbcbYMlcbbYMfbbbYMdbfbYMbfbbYLxbbbYLrbbbYKzbbbYKnbbbYKfbcbXXpcdbYJpdcbYGjcbbYGfbcbY",
  "FpcbbYFnbbbYEvbbbYErebbVNwbbbVYobbbVOkbbbBCGabbbVOibbbVQybbbVOgbbbBZFebbbVUcbbbVPcbbbVNebbbB",
  "DYubbbBCLwbbbWBeGjbbBAOcbbbBHMsbbbBMVibbbCDNczbbZHfbcbZHdcdbZHbdbbZGzbcbZGxcfbZGvfbbDOCabbbD",
  "ROkbbbDTHobbbDWTybbbDYNcbbbEAGgbbbEDSqbbbEHFabbbEIYebbbEMKobbbEODsbbbEPWwbbbERQabbbETJedbbEI",
  "GicbbUVobbbVGgbbbUWcbbbBBNsbbbVGqbbbXKqbbbUVibbbXKibbbVCcbbbYUibbbBNTsbbbBUWmbbbBRRkbbbBNVyb",
  "bbCUDybbbBBSabbbBMWwbbbBOPmbbbBNTebbbCBNqbbbZJebbbBWKebbbCQFebbbCBPsbbbYIibbbCBZabbbBYLubbbB",
  "DKybbbCTBebbbXDqbbbYWibbbBSDubbbCYUsbbbVOabbbXLubbbBQZobbbUTobbbUWebbbUTmbbbBGTqbbbZFqbbbYRk",
  "bbbBEZybbbBEWcbbbBZRibbbVLwbbbCQGgbbbYSwbbbBDCqBgbbBQxbbbBQvbbbBQtbbbBQrbcbBQpcbbBQnbbbBQlbb",
  "bBQjbbbBQhbbbBQfbbbBQdbbbBQbbbbBPzbbbBPxbbbBPvbbbBPtbbbBPpbbbBPnbbbBPlbgbBPjgbbBPfbbbBPbbbbB",
  "OxbbbBOtbfbBOpfbbBOnbbbBOlbgbBOjgebBOhBRQzxccCmoccBcbbESYlbbbESYjFdueccdecqpecCibbbjcccebbEA",
  "NvbfccnbbccbbEVChdcccgkccuceEVElbbbEVFhbbbEVEzbbbEVEfdbbEVApbbbEVClbbbEVAvbbbCTkbiccqbbDrbbb",
  "EVEjbbbEARvbcccebbEVHdbiccqbbEVXxvbbEWWhbbbEWXpbbbEWXlbbbEWWrbbbcdbbEWIzbbbEWFrBHjbbDEvbbbCx",
  "bbbEXYzbbbzkbbEXXfhDcbEKZnBDJsbbDEIxbbbEGQbbbbDCLrbbbDDZhbbbEARlbbbEZJxbbbEVBtbbbCPSvbbbCPSx",
  "bbbEQZfbbbDAErbbbETVzbbbERAdbbbEKLhbbbDUYrbbbDOBjbbbDIYzbbbDHVxbbbDGXnbbbDBEdbbbEEJjbbbECAlb",
  "bbDZEvbbbDWXlbbbDKNdbbbDANtbbbCUBxbbbEZFlbbbEVMbbbbEDQfbbbDYGrbbbDJBnbbbCQYdbbbEOAjbbbDZYbbb",
  "bDJJfbbbDGQpbbbEJWxbbbDMJjbbbDHPvbbbEMXvbbbEGQlbbbEBVzbbbDXQjbbbDBBfbbbEYMvbbbEWVtbbbEVZdbbb",
  "EIKtbbbEDVnbbbDYJbbbbDURvbbbDNUrbbbDJGfbbbDIZrbbbDDGpbbbCWGhbbbCTAxbbbCRCxbbbDTMbbbbDSTlbbbD",
  "PQfbbbDKYzbbbCZLdbbbCQTdbbbDFQjbbbERMjbbbEMVlbbbDQPjbbbDNMjbbbDYEhbbbDTIfbbbDEFbbbbCWMdbbbER",
  "NnbbbEOVxbbbEEMjbbbEBQbbbbEASjbbbDQAhbbbDPGbbbbCWZzbbbEWCtbbbDNMlbbbEWVvbbbEWXdbbbDSJjbbbDPP",
  "xbbbDKXxbbbCWXjbbbDFFfbbbEKApbbbEEOxbbbDFPlbbbEZQfbbbEPGxbbbEMCxbbbDXJvbbbDVYhbbbEVYtbbbDTGr",
  "bbbEYMtbbbEMLlbbbEZUhbbbECMxbbbEIBhbbbDQDjbbbEVMdbbbERZnbbbDUUhbbbDKSvbbbDFXhbbbEDIpbbbDCCnb",
  "bbECSxbbbEJYvbbbDLUrbbbEJMnbbbDWArbbbEZJdbbbEXHlbbbEXAdbbbEFUvbbbDQJfbbbDMEjbbbDFVhbbbDANtbb",
  "bEWDnbbbEVDzbbbERFvbbbENCdbbbEHXjbbbEAEdbbbDTFpbbbCXQfbbbCUAzbbbCQWvbbbCQSrbbbEWLhbbbEHEfbbb",
  "EDPxbbbDCKrbbbENMhbbbELDdbbbEKUpbbbEIVlbbbEAWbbbbDZFvbbbDWTxbbbDSUnbbbDPQpbbbDNTvbbbDCQdbbbD",
  "KJlbbbDBWvbbbCZMvbbbEWWvbbbEWMdbbbEUWvbbbDZQrbbbDHMpbbbDGBdbbbENHhbbbEMKhbbbEJSzbbbEDNpbbbDQ",
  "ZnbbbDXQpbbbEZItbbbETFrbbbEPMrbbbEOCvbbbEMHzbbbDXMjbbbDWYjbbbDOMbbbbDNYxbbbDAJxbbbCWUhbbbCWO",
  "bbbbCVYdbbbEYWxbbbDSZfbbbDAUfbbbCWZnbbbELTvbbbEZRjbbbEXXpbbbEPNnbbbEPHjbbbEIFhbbbEEWnbbbDYZb",
  "bbbDVPlbbbDKLnbbbDBTdbbbCQInbbbEHNlbbbCXLfbbbEWRjbbbEGUzbbbEGLvbbbECLlbbbEBKvbbbDXIbbbbDWIhb",
  "bbDTZxbbbDQMnbbbCVUxbbbEXNzbbbEKWdbbbCXGnbbbEYMzbbbEOSlbbbEBZjbbbDCUrbbbEMWnbbbELOrbbbEGKjbb",
  "bDXTfbbbCXGdbbbEXAlbbbEVPdbbbEPHbbbbEHYnbbbEHAjbbbEFZvbbbECUlbbbDXKdbbbDVZpbbbDOSvbbbDHRbbbb",
  "DHPtbbbDAWfbbbCXAdbbbEWGdbbbEBLbbbbEVPfbbbDZClbbbDWZtbbbDJVnbbbCXFnbbbCSXhbbbCRElbbbEGWfbbbE",
  "CEdbbbDMYdbbbDSIhbbbDSBvbbbDQZlbbbDYKxbbbEABjbbbDFUtbbbEZSbbbbDLZbbbbEXBtbbbEXFtbbbENRhbbbEK",
  "NdbbbDQUzbbbEQBdbbbECSrbbbEHPbbbbDCXbbbbDIDrbbbCXNzbbbDHFhbbbENOpbbbEXVzbbbEULldbbESMlcbbEHU",
  "xdbbEXKnbbbDYExbbbDVLpbbbDTPnbbbDTMzbbbDTMnbbbDTJjbbbCWVbbbbDQYvbbbDORxcbbDJXjcbbDGFbdbbDCFx",
  "bbbDBQvebbCVQrbbbCVPtbbbCVMlbbbCSAzbbbDBTvbbbCXItbbbEZDrbbbEYFrbbbEXXxbbbEWUtbbbEWStbbbEWKlb",
  "bbEURhbbbEUJhbbbEUBvbbbESRpbbbESJrbbbEPOfbbbEPNnbbbEMJxbbbELTrbbbELQvbbbELJfbbbEIVbbbbEIJvbb",
  "bEHWlbbbEGKbbbbECQtbbbECEhbbbEBKbbbbDZQxbbbDZClbbbDXPvbbbDUGpbbbDTTjbbbDTSpbbbDTStbbbDTSfbbb",
  "DTRvbbbDTRjbcbDTNtcbbDTAdbbbDSVfbbbDRWtbbbDQFlbbbDQDxbbbDPZrbbbDPChbbbDORbbbbDNFpbbbDMUxbbbD",
  "MUzbbbDLKhbbbDHVjbbbDHLdbbbDGJhbbbDGFbbbbDEZpbbbDEVpbbbDCUxbbbDCKzbbbCXJtbbbCWNzbbbCWJlbbbEM",
  "PvbbbJOVcbbbDNDpdbbFAMtbbbEXUtbbbEYAtbbbEZMjbbbEYDpbbbEXZdbbbEXAbbbbEWWfbbbEUWjbbbEVBzbbbEUW",
  "vbbbEURhbbbESUtbbbESNzbbbESCxbbbESBtbbbERHbbbbEQRxbbbENXvbbbENXjbbbENMjbbbENHfbbbEMKhbbbEMBh",
  "bbbEMGtbbbELWnbbbEMAdbbbELOzbbbELJzbbbEKFhbbbEJYpbbbEJUnbbbEJApbbbEIErbbbEHSfbbbEHRzbbbEHNnb",
  "bbEEKdbbbEEFfbbbEDBfbbbEBVtbbbEBXbbbbEBQlbbbEAXdbbbDZXjbbbDVExbbbDZIfbbbDYYxbbbDYPnbbbDXQlbb",
  "bDXFbbbbDXBbbbbDWJtbbbDWJrbbbDVWpbbbDVVjbbbDVTnbbbDVMzbbbDVNvbbbDUJlbbbDSYfbbbDSDlbbbDRPdbbb",
  "DQXzbbbDQMhbbbDPMzbbbDOXtbbbDMKvbbbDLYvbbbDJHfbbbDHYfbbbDHSzbbbDHRvbbbDGVbbbbDGQtbbbDGUhbbbD",
  "GQfbbbDGQnbbbDGRxbbbDGMdbbbDGFzbbbDFCrbbbDDLrbbbDCNpbbbDBQzbbbDBAbbbbCXYxbbbCXRbbbbCXIhbbbCW",
  "YdbbbCWVlbbbCWUpbbbCWQzbbbCUNdbbbCRBvbbbIUIwbbbIUIibbbJDCabbbFOVhbbbFLLdbbbFLIrbbbKADkbbbKIC",
  "qbbbLHWibbbCRJlbbbCRDtCtbbHDTjbbbHDUvbcbHDUrcdbHDUfdbbHDTlbbbHDTjbbbHICpBnbbHDMbbbbHDMdbbbHD",
  "LlbcdHDLnbcdHDLpbcdHDLreccHDLtbbbHDLrcbbHDLvbbbHDLxbbbHDMlbbbHDMnbbbHDMpbbbHDMrbbbHDMjbbbHDM",
  "lbbbHDMnbbbHDMpbbbHDNdbbbHDNfbbbHDNhbbbHDNjbbbHDKdbbbHDKfbccHDKhbccHDKjdbbHDKlbbbHDKnbbbHDNf",
  "bbbHDNhbbbHDNjbbbHDNlbbbHDNpbcdHDNrbcdHDNtbcdHDNvecbHDNxcbbHDNzbbbHDObbbbHDOdbbbHDNtbbbHDNvb",
  "ccHDNzbccHDObdbbHDOpbbbHDOrbbbHDNnbbbHDNpbbbHDOfbbbHDOhbbbHDMnbbbHDMpbbbHDMrbbbHDMtbceHDMjbc",
  "eHDMlbceHDMnbceHDMpfbbHDMvbbbHDMxbbbHDMzbbbHDNbbbbHDMlbcbHDMncbbHDMpbbbHDMrbbbHDMtbbbHDMlbcb",
  "HDMncbbHDMpbbbHDMrbbbHDMtbbbHDNbbbbHDNdbbbHDNfbbbHDNhbbbHDLvbcbHDLxcbbHDLzBibbHDRnbbbHDRpbbb",
  "HDRrbbbHDRtbbbHDPvbbbHDPxbccHDQbbccHDQdebbHDQbbbbHDQdbbbHDQrbbbHDQtbbbHDQnbbbHDQpbbbHDQdbbbH",
  "DQfbbbHDQhbbbHDQjbbbHEAvbbbHEAxtbbHDShbbbHDSjbbbHDSlbbbHDSnUjbbHKHrbbbGABvccbHKGvcbbHKIxbbbH",
  "KGrbcbGAArBabbGMFxbbbGMGbbbbHKGlbbbHKGnbcbHKKvcbbHKEpbbbHKEnbcbGADlccbGADxccbGAEnccbGAEvcebG",
  "AErgbbHKIhbbbHKIffbbHKIlbbbHKInbbbHKIpbbbHKMpbbbGAGtdbbHKLtbbbHKLxbbbHKLpbbbHKNzbbbGMIxbcbHK",
  "NpcbbHKHjbbbHKHhbcbGAGfcbbHKOlbbbHKOhbcbHKObcbbHKNzbbbHKMxbbbHKMvbbbHKMzcbbHKKtbcbHKPdcbbHKN",
  "dvcbHGCzccbHGDbccbHGDdccbHGDfccbHGDhcbbHGDjbbbHGDlbcbHGDnccbHGDpcbbHGDrbbbHGDtbcbHGDvccbHGDx",
  "cbbHGDzbbbHGEbbcbHGEdcbbHGEfbbbHGEhbcbHGEjcbbHGElbbbHGEnbcbHGEpcbbHGErbbbHGEtbcbHGEvcbbHGExb",
  "bbHGEzbcbHGFbccbHGFdccbHGFfccbHGFhccbHGFjcbbHGFlbbbHGFnbcbHGFpcbbHGFrbbbHGFtbcbHGFvcbbHGFxbb",
  "bHGFzbcbHGGbcbbHGGdbbbHGGfbcbHGGhcbbHGGjbbbHGGlbcbHGGncbbHGGpbbbHGGrbcbHGGtcbbHGGvbbbHGGxbcb",
  "HGGzcbbHGHbbbbHGHdbbbHGHfbbbHGGtbbbHGGvbbbHGGxbcbHGGzcbbHGHbbbbHGHdbcbHGHfcbbHGHhbbbHGHjbcbH",
  "GHlcbbHGHnbbbHGHpbcbHGHrcbbHGHtbbbHGHvbcbHGHxcbbHGHzbbbHGIbbcbHGIdcbbHGIfbbbHGIhbcbHGIjccbHG",
  "IlccbHGIncbbHGIpbbbHGIrbbbHGItnBgbHLBbBgBabHKYpBaBkbHLBbBkcbGFZfcbbHLHlbcbGBAxcbbGBBxbbbGAIt",
  "bbbGAJnbbbGAPvbbbGAPtbbbGAPrbbbGAPpbbbGAPnbbbGALdbbbGALbbbbGAKzbbbGANvbbbGAJnbbbGAQnbbbGAQlb",
  "bbGAQjbbbGAQhbcbGAQfcbbGAQdbbbGAQbbbbGAPzbbbGAPxbbbGAPvbbbGAPtbbbGAPrbbbGAPpbbbGAPnbbbGAPlbb",
  "bGAPjbbbGAPfbbbGAPdbbbGAPbbgbGAOzgbbGAOvbbbGAOrbbbGAOnbbbGAOjbfbGAOffbbGAOdbbbGAObbgbGANzgbb",
  "GANxbbbGANrbcbGAUrdcbGYTdcccGYGfbbbGYTfcbbGYGfbdbGYTjdgbGYGhgbbGYShbdbGYTxdbbGYSbbkbGYTzngbG",
  "YOfigbGYOjigbGYOnidbGYOrgcbHLIhcbbHLHrcbbHLIhbbbHLIlbbbGNCbcbbGJUpbebGMKnebbGJIvbbbGJFpBOcBo",
  "bDcGuBkbDcHktcDabkeDacceDamdeDaqbbDaTecbHPLpcbbHQXlbbbHPQbbbbHPVncccHPPnbbbCRUhcbbHPPrbcbHPV",
  "tcbbGVFrbbbHPVvbbbHPVlbbbHPPtbbbHPVdbbbHPVjbbbHPVpbbbHPRdbbbHQTvbbbHPRfbbbHPVjbbbHPTfbcbHPQj",
  "cbbHPVhbbbGHDwbbbCUTpbbbHPVjbbbGHDsbbbHPTbbbbGHDqbbbHQYlbcbHPVdcbbHRJbbbbHPVbbbbGHDibcbHPUzc",
  "bbHPUxbbbHPRxbbbHPSdbbbCRXbbbbHPSfbbbHPUrbbbGKBlcbbHPUjbcbHPTbcbbHPTxbdbHQKpdbbGHCcbbbGHDoBV",
  "aBzbEyIawbCmEHkBgbCmBGLcBgbCmDszbCcBJRqBabNKTlBakbNKZfCRoBabNQEnBaBabNQGnBaBabNQInBancNQKnbh",
  "eNQKncbbNQKnieeNQKnpBabNQMnBaBabNQOnBaedNQQncbbNQQnigdNQQnecbNQQneddNQQnccdNQQngebNQSnflcNQS",
  "ndfeNQSncbbNQSniceNQSniBabNQUnBaBabNQWnBajdNQYnbcdNQYnebbNQYnffdNQYnbcdNQYnjcdNQYngBabNRAnBa",
  "fdNRCnbcdNRCneedNRCnfbbNRCnihbNRCniBabNREnBaBabNRGnBaBabNRInBaBabNRKnBaBabNRMnBaBabNROnBaBab",
  "NRQnBaBabNRSnBaBabNRUnBaBabNRWnBaBabNRYnBaBabNSAnBaBabNSCnBabbNROnbbbNQUldrbNPRprbbNPSjbhbNP",
  "RphbbMSUdbrbNPTprbbNPTnbhbNPTphbbMSWnbbbNPVhbbbNPVdbbbNPVbbbbNPUfbbbNPUrbbbNPUvbrbNPWbrbbNPW",
  "vbhbNPWbhbbMSYpbrbNPYbrbbNPXzbhbNPYbhbbMTAzbbbNPZtbbbNPZpbbbNPZnbbbNPYrbbbNPZdbbbNPZhbrbNQAn",
  "rbbNQBhbhbNQAnhbbMTDbbrbNQCnrbbNQClbhbNQCnhbbMTFlbbbNQEfbbbNQEbbbbNQDzbbbNQDdbbbNQDpbbbNQDtb",
  "rbNQEzrbbNQFtbhbNQEzhbbMTHnbrbNQGzrbbNQGxbhbNQGzhbbMTJxbbbNQIrbbbNQInbbbNQIlbbbNQHpbbbNQIbbb",
  "bNQIfbrbNQJlrbbNQKfbhbNQJlhbbMTLzbrbNQLlrbbNQLjbhbNQLlhbbMTOjbbbNQNdbbbNQMzbbbNQMxbbbNQMbbbb",
  "NQMnbbbNQMrbbbNQKnbbbNQKpdkbNTFfkkbNTFzkkbNTGtkkbNTHnkkbNTIhDDajbNWNnjdbNWNldlbNWNjlbbNWNfbc",
  "bNWNdcbbJDQnbbbNWCpbbbNWMtbbbNWMrbbbNWBpbbbNWGdbbbNWDtbjbNWQbjcbNWPzccbNWPvcbbNWPtbgbNWPrgcb",
  "NWPpcbbNWKhbbbNWOxbbbNWPbbbbNWOjbbbNWIpbbbJDXlbbbNWIhDGlBibCqBXgcbOFMvcbbOFMpbcdOFMlcbbOFKrc",
  "bbOFMxbbbOFMfbbbOFKvbebOFLlebbOFMzbbbOFMpbbbOFMbbbbOFNbbbbOFMdbbbOFNnbbbOFNjbcbOFOfcbbOFObbb",
  "bOFNzbbbOFNpbbbOFNnbbbOFNlbbbOFJnbbbOFDtbbbOFFtbbbOFJrcbbOFPhbbbOFPbcbbOFNddbbOFPjcbbOFNhbeb",
  "OFNxebbOFPlbbbOFPbbbbOFOnbbbOFPnbbbOFOpcbbOFPvbcbOFQrcbbOFQncbbOFQbcbbOFPxhbbOFRnfbbOFRvcbbO",
  "FPtcccOFQjdbbOFRxbbbOFRncbbOFRzbbbOFRbcbbOFShdbbOFSzcbbOFSncbbOFSjcbbOFIrcbbOFOpcbbOFUfbbbOF",
  "TzcbbOFSbdbbOFUhbbbOFTpbbbOFSfbccOFSvdbbOFSvbbbOFUjbbbOFTzbbbOFTlbbbOFUlbbbOFTncbbOFUtbcbOFV",
  "pcbbOFVlcbbOFUzbbbOFUxbbbOFUvbbbOFQxcbbOFNdccbOFWrcbbOFWlbcdOFWhbcbOFUndbbOFWtbbbOFWbbbbOFUr",
  "cdbOFVhdbbOFWvbbbOFWlbbbOFVxbbbOFWxbbbOFVzbbbOFXjbbbOFXfbcbOFYbcbbOFXxbbbOFXvbbbOFXlbbbOFXjb",
  "bbOFXhgbbOFZdbbbOFYxbcdOFYtcbbOFWzcbbOFZfbbbOFYnbbbOFXdcdbOFXtdbbOFZhbbbOFYxbbbOFYjbbbOFZjbb",
  "bOFYlbbbOFZvbbbOFZrbcbOGAncbbOGAjbbbOGAhbbbOFZxbbbOFZvbbbOFZtYabbOMGtbbbOMFreBabOMHhIcbbNCHt",
  "obbLQUjbbbLWBjbbbMBTzbbbNCHrbbbMFTnbbbLXTtbbbKMVdbbbLXStbbbMFRzbbbLNXpbbbLFOzbbbLOIdbbbMCYfb",
  "bbLSXlbbbMDNdbbbLOGrbbbMDCfbbbKWKrbbbLCOzbbbKKTnbbbLXYdbbbMBNbbbbLHEhbbbLQQlbbbLQBtbbbMGFxbb",
  "bMGFhbbbKIArbbbLUFbbbbMGCtbbbMBTdbbbLQIhbbbKKFfbbbLQWhbbbKZHxbbbKYOvbbbMBRzbbbLHQvbbbLNHxbbb",
  "LNIbbbbLCPdbbbMCXpbbbMALjbbbKHHzvbbLTAnbbbMBWdDQtkbOUOtDRLwbbTWJlbbbTWJxbbbTWJhbbbHEZpbbbTVN",
  "jbbbTVHlbbbTVGnbbbTVBdbbbTURzbbbTUPrbbbTUJtbbbTULrbbbUPUxbbbHBEbbbbTUCfbbbTUBtbbbTUApbbbTTZf",
  "bbbHCAlbbbUPTjbbbTUArbbbTTXvbbbHBXdbbbTTXfbbbTTWhbbbTWAjbbbTTVvbbbTTVfbbbCZLhbbbTTQlbbbTTPlb",
  "bbUPRjbbbTTLhbbbTTKnbbbTTHfbbbTTGxbbbUPNpbbbTTAxbbbTTAvbbbTSYvbbbTSXfbcbTSWlcbbTSVfbbbTSRlbb",
  "bTSQxbbbTSQhbbbTSOlbccTSNtbbbTSNrcbbTSNvbbbGYHjbbbSWQbbbbTSIhbbbTSGtbbbGXJtbbbTSFzbbbTSFpbbb",
  "TSEbbceTRSlbbbTSAjbbbTRZfbbbTRWvcbbTRMbbbbTRKdbbbTRFbbbbTRDxbbbTRBlbbbTRBnbbbTQZzbbbTQYrbbbT",
  "QYdbbbTQXbbbbTPWzbbbTQRzbbbTPXbbbbTQMjbbbTQJtbbbTTSzbbbTONdbbbTPJjbbbTPGnbbbTPErbbbTPOtbbbTP",
  "BzbbbTPCdbbbTOStbbbGQHdbbbTONnbbbTONfbbbTOMdbbbTOKrbbbTOKdbbbTOFhbbbGOYxbbbGOTxbbbTNUxbbbTNR",
  "jbbbTNQnbbbTNWrbbbTNLvbbbUOIjbbbUOHjbbbTMZpbbbTMVnbbbTMVpbbbGMQhbbbTMLnbbbTMJzbbbTMIxbbbTMIb",
  "bbbGLQvbbbTMHhbbbTMGvbbbTJTxbbbTMEvbbbUNYfbbbTMAfbbbTLZfbbbTLSzbbbTLWzbccGJOnbbbTLJdcbbTLFzb",
  "bbTLGhbbbTLFbbcbTKXjcbbUNLvbbbTKVlbbbTKSfbbbTKQrbbbTKNjbbbUNIhbbbGGWhbbbUNGlbbbTKIfbbbTKIbbb",
  "bTKHxbbbTKGlbbbCMJpbbbTKCpbbbGFPvbbbGFPxbbbSJPjbbbTKAdbbbTKAfbbbUNBpbbbFTWnbbbEKElbbbTJVpbbb",
  "TJUzbbbUMZvbbbTJRnbbbTJNrbbbTJMzbbbTJKlbbbTJAbbbbUMTpbbbUMVzbbbTIYvbbbGCXrbbbTIVbbbbTILfbbbT",
  "IKzbbbTIKxbbbTILdbbbTIHrbbbTIGfbbbTIDnbbbTIErbbbTIDxbbbTIAjbbbTHYxbbbTHYrbbbTHWtbbbTHVzbbbTH",
  "QzbbbTHKpbbbTHHzbbbTGYnbbbFZUdbbbTHAdbbbTHFfbbbTGWzbbbTGUzbbbTGNpbbbFZCzbbbTGIzbbbTGQfbbbTGS",
  "lbbbUMDjbbbTGDvbbbTGChbbbTFZzbbbTGCzbbbULYzbbbTFMnbbbTFKjbbbFWBfbbbTFBjbbbTEGdbbbTETrbbbULMf",
  "bbbTEOhbbbULNrbbbULQnbbbTULzbbbTULvbbbTEGdbbbTENxbbbSKUrbbbUEWpbbbTEErbbbTEElbbbTEEbbbbTDZlb",
  "bbTEAjbbbFTHjbbbULJtbbbTDNtbbbTDWvbbbTDHdbbbTDDhbbbFSUtbbbTDCtbbbTDLjbbbTCSpbbbULDzbbbTCPfbb",
  "bTCHvbbbTCClbbbTBNxbbbFRDxbbbTBKdbbbUKVbbbbTBExbbbFPQnbbbTBBdbbbUKRfbbbTAYzbbbTAVpbcbTATpcbb",
  "FOFrbbbGKOvbbbFNXlbbbTAIpbbbFMOzbbbTAAbbbbSZZbbbbTAGzbbbSZTpbbbSZQpbbbSZMhbbbSZQnbbbSZNnbbbS",
  "ZMlbbbSZLnbbbFMIhbbbSZRxbbbSYYrbbbSYTxbbbUKBlbbbSYMxbbbSYNhbbbFLBjbbbSZDhbbbSYArbbbFKQtbbbFK",
  "NdbbbSXUdbbbSXLjbbbSXNnbbbSXNvbbbUJUtbbbSXKjbbbSXGnbbbSXHbbbbSXCzbbbHCUdbbbSWRlbbbFIKhbbbSWK",
  "xbbbFHLfbbbSWAhbbbSVZjbbbSVXjbbbFFQzbbbSVTvbbbSVShbbbFEUbbbbFECzbbbSVAxbbbSUZrbbbUJAxbbbSUXv",
  "bbbUJAdbbbUJAfbbbSULpbbbSUKbbbbSUInbbbSUHbbbbSUBvbbbUITbbbbSTVbbbbFBArbbbSTTfbbbFATtbbbSTPnb",
  "bbGHHrbbbSTDjbbbEYLvbbbEYKdbbbEXZlbbbUICpbbbUIBtbbbSSMhbbbEXMhbbbEXMlbbbEXJnbbbEXHpbcbSSJlcb",
  "bSSJnbbbSSGhbbbUHYtbbbSSBlbbbUHXxbbbUHRvbbbEVCxbbbSRMtbbbSRIbbbbSRDfbbbUHMhbbbETPfbbbSQSvbbb",
  "ETGlbbbETDfbbbSQOrbbbSQHrbbbUHGzbbbSQBhbbbSQApbbbSQAhbbbERChbbbEQFjbbbEQFlbbbSPOjbbbUGRjbbbE",
  "PLrbbbSOXzbbbSOXvbbbUGOvbbbEOVpbbbSODrbbbUGFtbbbSOCdbbbSOCpbbbSOAlbbbEMOnbbbSNSzbbbUFYtbbbSN",
  "LlbbbSNGzbbbSNBxbbbUFVdbbbEKPfbbbEKMxbbbUFSnbbbEKBvbbbSMEpbbbEJUfbbbSMCrbbbSLUzbbbSLUfbbbEIO",
  "vbbbEIJhbbbSLNlbbbEHZfbbbSLMjbbbFUBpbbbUFJzbbbSLHnbbbSLBjbbbUFGbbbbSKWzbbbTOBxbbbEGMpbbbEGLp",
  "bbbFTYhbbbFTXrbbbSKIlbbbSKIhbbbSAAnbbbUEZlbbbSJXrbbbSJYfbbbSJWxbbbTUEnbbbSJVnbbbSJVlbbbSJUtb",
  "bbSJRrbbbEDVhbbbSJRxbbbSJNrbbbSJIjbbbSJCtbbbSJNlbbbSJBrbbbSIYnbbbSIPzbbbSJKbbbbSJAzbbbSJAxbb",
  "bSIZtbbbEDDbbbbECFjbbbECQzbbbUEMpbbbSIEvbbbSIEtbbbSICdbbbDXKjbbbSHWhbbbEAXlbbbUEJhbbbUEJbbbb",
  "EANlbbbDZRhbbbUEInbbbSHErbbbSHDvbbbSHDbbbbSHCzbbbSGYdbbbSHAtbbbSGQnbbbSGTzbbbSGIlbbbSGOtbbbS",
  "GJrbbbSGHrbbbUEBfbbbSGAvbbbSFYlbbbUDYvbbbSFRhbbbSFRdbbbDVMxbbbSFIjbbbSFHxbbbUDUrbbbSFFxbbbUR",
  "AzbbbDTUnbbbDTGlbbbUDKnbbbUDJxbbbSDZxbbbSDUbbbbSDIbbbbSCSnbbbDQUvbbbSCMbbbbSCKlbbbSCDpbbbSBW",
  "pbbbDOXlbbbHBEfbbbSBQjbbbSBRpbbbSBNrbbbHANtbbbSAWhbbbSAOrbbbDJXjbbbDJVjbbbRZOdbbbRZHbbbbRZEr",
  "bbbDIWzbbbRZEbbbbRYIfbcbRXWbcbbRYDfbbbRWZzbbbRWXxbbbDFHdbbbRVVhbbbUBJfbbbRVSbbbbDEEdbbbUBDfb",
  "bbRUXrbbbTMDnbbbRUQlbbbDBHpbbbDARhbbbUATfbbbUASrbbbRUChbbbCZFlbbbUAOhbbbCYUvbbbRTZhbbbRTZjbb",
  "bRTXdbbbCXYzbbbRTJbbbbUAExbbbRTDtbbbRSUdbbbRSSdbbbRSNpbbbTZTjbbbCTVtbbbRRSpbbbRQVlbbbRQGzbbb",
  "TZAbbbbTYXtbbbRPZbbbbCPPrbbbTYXdbbbCPLpbbbCORhbbbCOHhbbbROZjbbbTYQhbbbROUtbbbROUlbbbROTzbbbR",
  "OThbbbROSvbbbROQbbbbCLSj"]

def singles : List Fold := foldsFrom (numbers singleRows) 0

/-- The characters that several replace: how many characters are passed over, how many replace the
next one, and their code points. -/
def expansionRows : List String := [
  "GmcBgBDwgcBgBDsecBgBDpdcBgBFbddBxMFsCaadBxMFsByadBzMFsCaEjcEbBDvbcEbEcacEbEclcEeHbacEeHbicBA",
  "yEgEscDwOsacDwOsacDwOsacEeEcacEeEcacEeEcacEgEcacEgEcacEgEcBkcDwEsacDwEsacDwEsIucBgBDuacBgBDv",
  "acBgBDyacBgBFcacBgBDracBgBDzDycBDwBDpCbcBgBKrjcBgBDpadBgBDwBDpTtcCBdCCgJdcCIpCLoacCJwCLoacCO",
  "tCLoacCJyCLoBChcDLlDMyacDLmDMyacDLnDMyacDLsDMyacDLxDMyacDLyDMyacDMhDMyacDMlDMyEucDQvDRwacDQw",
  "DRwbcDRjDRwDfcDWkDWuccDWqDWuBicDViDWuacDVjDWuacDVoDWuccDWdDWuJtcEFpEGqacEFqEGqBBxcFKvFJuExcF",
  "PtFOsBocFOlFNtacFOlFObDxcFUgFYtjcFUqFYtecFUvFYtecFVaFYtecFVfFYtmcFUeFYrjcFWbFWcbcFWbFWeacFYo",
  "FWqadFYoFWbFWqacFYpFWqadFYpFWbFWqhcFWbFWqrcFXiFYtjcFXsFYtecFXxFYtecFYcFYtecFYhFYtmcFXgFYrFQm",
  "cDtBBaIvcLTgBKracLThBKracLTiBKracLTjBKracLTkBKracLTlBKracLTmBKracLTnBKracLTgBKracLThBKracLTi",
  "BKracLTjBKracLTkBKracLTlBKracLTmBKracLTnBKracLUmBKracLUnBKracLUoBKracLUpBKracLUqBKracLUrBKra",
  "cLUsBKracLUtBKracLUmBKracLUnBKracLUoBKracLUpBKracLUqBKracLUrBKracLUsBKracLUtBKracLWyBKracLWz",
  "BKracLXaBKracLXbBKracLXcBKracLXdBKracLXeBKracLXfBKracLWyBKracLWzBKracLXaBKracLXbBKracLXcBKra",
  "cLXdBKracLXeBKracLXfBKrccLXoBKracBKjBKracBKeBKrccMAgBKrecBKjBKracBgBEhbcBgBEhacBgBGcadBgBDwB",
  "GcacLXsBKracBKpBKracBKgBKrccMAwBKrecBKpBKradBgBEhBDoadBgBEhBDpadBgBEhBGcndBgBEiBDoadBgBEiBDp",
  "adBgBEiBGcndBgBDwBDoadBgBDwBDpdcLYaBKracBLhBKracBLmBKrccMCsBKrecBLhBKracBgBDpacBgBEiycBgBFnB",
  "bcMFaMFaadMFaMFaMFabcMFdMFdadMFdMFdMFdecBhBhbcBgBDticClClacClBhacBhClneMFaMFaMFaMFaDccEkElDj",
  "dDtBvDvadDtBvElbcGuDvbdDvBvEhadDvBvEnccGuDymcEgEhjcElEfadEmDxEeacEmEfydDyDtEqudBxMFsCdadBxMF",
  "sCfaeBxMFsBxBwadBxMFsBzadByMFsBzadBxMFsCbadByMFsCbadBzMFsCbadCaMFsCbadBxMFsCcadCbMFsCcadBxMF",
  "sCeadBzMFsCeadCbMFsCeadCdMFsCeacBxMFsbcEbEbadEbEbEbacEbEobcEoEbadEoEbEbaeEoEbEbEbacEbEqbcEqE",
  "badEqEbEbfcEbEbadEbEbEbacEbEobcEoEbadEoEbEbaeEoEbEbEbacEbEqbcEqEbadEqEbEbndBwMFsBzGgcMYlMYla",
  "dMYlMYlMYlbcMYoMYoadMYoMYoMYoVwcBxBwacBxBxacBxByacBxBzacBxCaacBxCbacBxCcacBxCdacBxCeacBxCfac",
  "ByBwadBoBxBpadBoByBpadBoBzBpadBoCaBpadBoCbBpadBoCcBpadBoCdBpadBoCeBpadBoCfBpaeBoBxBwBpaeBoBx",
  "BxBpaeBoBxByBpaeBoBxBzBpaeBoBxCaBpaeBoBxCbBpaeBoBxCcBpaeBoBxCdBpaeBoBxCeBpaeBoBxCfBpaeBoByBw",
  "BpudBoDtBpadBoDuBpadBoDvBpadBoDwBpadBoDxBpadBoDyBpadBoDzBpadBoEaBpadBoEbBpadBoEcBpadBoEdBpad",
  "BoEeBpadBoEfBpadBoEgBpadBoEhBpadBoEiBpadBoEjBpadBoEkBpadBoElBpadBoEmBpadBoEnBpadBoEoBpadBoEp",
  "BpadBoEqBpadBoErBpadBoEsBpCAoeMYlMYlMYlMYlDzdCgCgCjacCjCjadCjCjCjDxcQGbBFsCEocBgSKnacBgSKocc",
  "SJwSJyDrcSLnSMiJwdBoGLkBpadBoGLmBpadBoGLnBpadBoGLpBpadBoGLqBpadBoGLrBpadBoGLtBpadBoGLvBpadBo",
  "GLwBpadBoGLyBpadBoGLzBpadBoGMaBpadBoGMbBpadBoGMcBpadBoCNDoBpadBoCOWuBpadBoCPTkBpadBoCRMqBpad",
  "BoCSJgBpadBoCTFwBpadBoCUZcBpadBoCWSiBpadBoCXOyBpadBoCZIeBpadBoDAEuBpadBoDBBkBpadBoDBYaBpadBo",
  "DCUqBpadBoCYCyBpaeBoCXAyCXTkBpaeBoCXAyDDIqBpbdBoBDOaBpadBoBDTkBpadBoBDOjBpadBoBGXfBpadBoBDTs",
  "BpadBoBEVtBpadBoBDOdBpadBoBEVrBpadBoBDRpBpadBoBFNtBpadBoBNAmBpadBoBQOxBpadBoBOZkBpadBoBNBsBp",
  "adBoCDFtBpadBoBGZvBpadBoBMPhBpadBoBNLqBpadBoBNAnBpadBoBTXuBpadBoBFVpBpadBoBRJdBpadBoCBGrBpad",
  "BoBTYzBpadBoBFIiBpadBoBDWtBpadBoBFZwBpadBoBIPyBpadBoBTApBpadBoBDXxBpadBoCBIdBpadBoBFOmBpadBo",
  "BTZpBpadBoBDYnBpadBoBXFeBpadBoBXFnBpmdEiEmDxacByBxacByByacByBzacByCaacByCbacByCcacByCdacByCe",
  "acByCfacBzBwacBzBxacBzByacBzBzacBzCaacBzCbBccCZIuCNMeacCYCyCXMuBzcBzCcacBzCdacBzCeacBzCfacCa",
  "BwacCaBxacCaByacCaBzacCaCaacCaCbacCaCcacCaCdacCaCeacCaCfacCbBwacBxBNAmacByBNAmacBzBNAmacCaBN",
  "AmacCbBNAmacCcBNAmacCdBNAmacCeBNAmacCfBNAmadBxBwBNAmadBxBxBNAmadBxByBNAmacEaDzadDxEkDzacDxEo",
  "adEeEmDwBvcBDWuBGAmaeSKwSMrSOiSMiaeSKwSNrSMvSKvaeSKwSNzSNaSKwadSKwSOiSNraeSKySMlSNzSLkadSKyS",
  "NzSMbadSLaSLdSNzafSLcSLtSLjSOiSMjaeSLcSOiSLfSOiadSLeSNzSLtadSLeSOiSNgadSLfSKySNqaeSLfSNpSMdS",
  "MiaeSLfSNtSNqSOiadSLgSNtSNzadSLgSNzSNeacSLiSLgadSLiSMlSOiaeSLhSNlSNqSOiaeSLiSNrSMaSOiacSLhSN",
  "tafSLhSNtSLkSNpSNgagSLhSNtSNhSOiSMiSNrafSLhSNtSNvSMdSMiadSLkSNpSNgafSLkSNpSNgSMiSNzafSLjSNrS",
  "LwSKySNtaeSLjSNtSOiSMnadSLlSOiSLtadSLnSNrSMkadSLnSOiSNdaeSLpSKySLjSNrafSLpSNzSMbSOiSNgaeSLrS",
  "NqSNzSLkadSLvSNzSMbadSLvSNzSMiadSMaSOiSLtacSMhSLracSMjSNracSMiSNzacSMkSMoadSMoSMdSMiadSMpSKy",
  "SMeafSMrSOiSLvSNzSMiadSMrSOiSMeaeSMqSOiSNsSNrafSMuSKwSLtSMiSNradSMuSLjSNracSMuSLnacSMtSNrafS",
  "MvSKvSNpSMdSMjaeSMvSKxSOiSMiafSMwSMdSLrSLbSNradSMvSNpSNzafSMySLjSLzSOiSNracSNaSLxadSNaSMlSMs",
  "adSMySNrSMeadSNaSNzSLtadSNaSOiSLsadSMzSOiSLzaeSNdSKySNzSMiadSNcSNrSMiacSNbSNzadSNdSNzSMjadSN",
  "bSOiSNradSNbSOiSNzaeSNeSKySLjSNtadSNeSKySNradSNeSMdSMpadSNeSNrSLjafSNeSNzSLrSNnSNzaeSNfSLjSN",
  "tSNzacSNfSNqafSNfSNqSMqSOiSNracSNhSLgaeSNhSLgSMiSNzaeSNhSOiSMiSNradSNkSOiSMjadSNkSOiSNradSNm",
  "SKwSNzaeSNqSMdSMiSNracSNqSNpadSNrSMuSOiaeSNrSOiSMwSNracSNsSNgafSNsSNzSMiSLmSNzadSNvSMdSMiacB",
  "wBQRxacBxBQRxacByBQRxacBzBQRxacCaBQRxacCbBQRxacCcBQRxacCdBQRxacCeBQRxacCfBQRxadBxBwBQRxadBxB",
  "xBQRxadBxByBQRxadBxBzBQRxadBxCaBQRxadBxCbBQRxadBxCcBQRxadBxCdBQRxadBxCeBQRxadBxCfBQRxadByBwB",
  "QRxadByBxBQRxadByByBQRxadByBzBQRxadByCaBQRxadEaEiDtacDwDtacDtEnadDuDtEkacEhEoacEiDvacDwEfadD",
  "wEfByadDwEfBzacEbEnacBJTzBLDoacBMSbBGAmacBHTvBORjacBMQwBPEpaeBNLqBJZzBDYwBTXuacEiDtacEgDtacB",
  "KuDtacEfDtacEdDtacEdDuacEfDuacDzDuadDvDtEeaeEdDvDtEeacEiDyacEgDyacBKuDyacBKuDzacEfDzacEdDzac",
  "EaEsadEdEaEsadEfEaEsadDzEaEsadEmEaEsacBKuEeacEfEeacDwEeacEdEeacDyEfacEgEfacBKuEfacEfEfacDvEf",
  "acEdEfadEfEfByadDvEfByacEfByadEdEfByadEfEfBzadDvEfBzacEfBzadEdEfBzadEfMXpElaeEfMXpElByacEiDt",
  "adEdEiDtadEfEiDtadDzEiDtadEkDtDwafEkDtDwMXpElagEkDtDwMXpElByacEiElacEgElacBKuElacEfElacEiEoa",
  "cEgEoacBKuEoacEfEoacEdEoacEfEoacEiEpacEgEpacBKuEpacEfEpacEdEpacEfEpacEdBLhacEfBLhbcDuEjacDvD",
  "vacDvDwaeDvMXpEdDzbcDwDuacDzEracEaDtacEaEiacEbEgacEdEdacEdEfacEdEmacEeEfacEeEgadEeEhDzacEeEq",
  "acEfDuadEfEbEeadEfEhEeacEiEabdEiEiEfacEiEkacElEkacElEoacEpDuadEoMXpEfadDtMXpEfacBxBMPhacByBM",
  "PhacBzBMPhacCaBMPhacCbBMPhacCcBMPhacCdBMPhacCeBMPhacCfBMPhadBxBwBMPhadBxBxBMPhadBxByBMPhadBx",
  "BzBMPhadBxCaBMPhadBxCbBMPhadBxCcBMPhadBxCdBMPhadBxCeBMPhadBxCfBMPhadByBwBMPhadByBxBMPhadByBy",
  "BMPhadByBzBMPhadByCaBMPhadByCbBMPhadByCcBMPhadByCdBMPhadByCeBMPhadByCfBMPhadBzBwBMPhadBzBxBM",
  "PhadDzDtEeCXJkcDyDyacDyEbacDyEeadDyDyEbadDyDyEeacElEmacElEmmcCBsCBuacCBsCBdacCBsCBjacCCcCBua",
  "cCBsCBlfcCFpCEebcCGoCEhkcCGfCEracCGfCEsadCGfCEmCEradCGfCEmCEsacCFgCEhacCFgCEiacCFgCEmacCFhCE",
  "macCFiCEmacCFjCEmacCFkCEmacCFlCEmacCFmCEmbcCFoCEmacCFpCEmacCFqCEmacCFrCEmacCFsCEmbcCFuCEmbcC",
  "FwCEmacCFxCEmbcCFzCEmacCGaCEmbcCGcCEmacCGdCEmacCGeCEmacCGfCEmacCGgCEmacCFlCEjacCFhCEpacCFrCE",
  "pacCGaCEpacCFgCFsFlcCOtCLomcCIoCIpacCIoCIpacCIoCPhacCIoCPhacCIoCJwacCIoCJwacCIoCOtacCIoCOtac",
  "CIoCOsacCIoCOsacCIoCOuacCIoCOuacCIoCPcacCIoCPcacCIoCPcacCIoCJxacCIoCJxacCIoCJxecCIoCIuacCIoC",
  "IvacCIoCJtacCIoCJxacCIoCJyacCIqCIuacCIqCIvacCIqCIwacCIqCJtacCIqCJxacCIqCJyacCIsCIuacCIsCIvac",
  "CIsCIwacCIsCJtacCIsCJxacCIsCJyacCItCIuacCItCJtacCItCJxacCItCJyacCIuCIvacCIuCJtacCIvCIuacCIvC",
  "JtacCIwCIuacCIwCIvacCIwCJtacCJbCIuacCJbCIvacCJbCIwacCJbCJtacCJdCIvacCJdCJtacCJeCIuacCJeCIvac",
  "CJeCIwacCJeCJtacCJfCIvacCJfCJtacCJgCJtacCJhCIuacCJhCJtacCJiCIuacCJiCJtacCJpCIuacCJpCIvacCJpC",
  "IwacCJpCJtacCJpCJxacCJpCJyacCJqCIvacCJqCJtacCJqCJxacCJqCJyacCJrCIpacCJrCIuacCJrCIvacCJrCIwac",
  "CJrCJsacCJrCJtacCJrCJxacCJrCJyacCJsCIuacCJsCIvacCJsCIwacCJsCJtacCJsCJxacCJsCJyacCJtCIuacCJtC",
  "IvacCJtCIwacCJtCJtacCJtCJxacCJtCJyacCJuCIuacCJuCIvacCJuCIwacCJuCJtacCJuCJxacCJuCJyacCJvCIuac",
  "CJvCJtacCJvCJxacCJvCJyacCJyCIuacCJyCIvacCJyCIwacCJyCJtacCJyCJxacCJyCJyacCIyCLkacCIzCLkacCJxC",
  "LkadBgCKaCKfadBgCKbCKfadBgCKcCKfadBgCKdCKfadBgCKeCKfadBgCKfCLkacCIoCIzacCIoCJaacCIoCJtacCIoC",
  "JuacCIoCJxacCIoCJyacCIqCIzacCIqCJaacCIqCJtacCIqCJuacCIqCJxacCIqCJyacCIsCIzacCIsCJaacCIsCJtac",
  "CIsCJuacCIsCJxacCIsCJyacCItCIzacCItCJaacCItCJtacCItCJuacCItCJxacCItCJyacCJpCJxacCJpCJyacCJqC",
  "JxacCJqCJyacCJrCIpacCJrCJsacCJrCJtacCJrCJxacCJrCJyacCJsCJtacCJsCJxacCJsCJyacCJtCIpacCJtCJtac",
  "CJuCIzacCJuCJaacCJuCJtacCJuCJuacCJuCJxacCJuCJyacCJxCLkacCJyCIzacCJyCJaacCJyCJtacCJyCJuacCJyC",
  "JxacCJyCJyacCIoCIuacCIoCIvacCIoCIwacCIoCJtacCIoCJvacCIqCIuacCIqCIvacCIqCIwacCIqCJtacCIqCJvac",
  "CIsCIuacCIsCIvacCIsCIwacCIsCJtacCIsCJvacCItCJtacCIuCIvacCIuCJtacCIvCIuacCIvCJtacCIwCIuacCIwC",
  "JtacCJbCIuacCJbCIvacCJbCIwacCJbCJtacCJdCIvacCJdCIwacCJdCJtacCJeCIuacCJeCIvacCJeCIwacCJeCJtac",
  "CJfCIvacCJgCJtacCJhCIuacCJhCJtacCJiCIuacCJiCJtacCJpCIuacCJpCIvacCJpCIwacCJpCJtacCJqCIvacCJqC",
  "JtacCJrCIuacCJrCIvacCJrCIwacCJrCJsacCJrCJtacCJsCIuacCJsCIvacCJsCIwacCJsCJtacCJsCJvacCJtCIuac",
  "CJtCIvacCJtCIwacCJtCJtacCJuCIuacCJuCIvacCJuCIwacCJuCJtacCJuCJvacCJvCIuacCJvCJtacCJvCLkacCJyC",
  "IuacCJyCIvacCJyCIwacCJyCJtacCJyCJvacCIoCJtacCIoCJvacCIqCJtacCIqCJvacCIsCJtacCIsCJvacCItCJtac",
  "CItCJvacCJbCJtacCJbCJvacCJcCJtacCJcCJvacCJrCJsacCJrCJtacCJsCJtacCJuCJtacCJuCJvacCJyCJtacCJyC",
  "JvadCJoCKcCKfadCJoCKdCKfadCJoCKeCKfacCJfCJxacCJfCJyacCJhCJxacCJhCJyacCJiCJxacCJiCJyacCJbCJxa",
  "cCJbCJyacCJcCJxacCJcCJyacCIvCJxacCIvCJyacCIuCJxacCIuCJyacCIwCJxacCIwCJyacCJdCJxacCJdCJyacCJe",
  "CJxacCJeCJyacCJcCIuacCJcCIvacCJcCIwacCJcCJtacCJcCIzacCJbCIzacCJdCIzacCJeCIzacCJfCJxacCJfCJya",
  "cCJhCJxacCJhCJyacCJiCJxacCJiCJyacCJbCJxacCJbCJyacCJcCJxacCJcCJyacCIvCJxacCIvCJyacCIuCJxacCIu",
  "CJyacCIwCJxacCIwCJyacCJdCJxacCJdCJyacCJeCJxacCJeCJyacCJcCIuacCJcCIvacCJcCIwacCJcCJtacCJcCIza",
  "cCJbCIzacCJdCIzacCJeCIzacCJcCIuacCJcCIvacCJcCIwacCJcCJtacCJbCJvacCJcCJvacCJfCJtacCJbCIuacCJb",
  "CIvacCJbCIwacCJcCIuacCJcCIvacCJcCIwacCJfCJtacCJgCJtacCIpCJzacCIpCJzsdCIsCIuCJtadCIsCIvCIuadC",
  "IsCIvCIuadCIsCIvCJtadCIsCIwCJtadCIsCJtCIuadCIsCJtCIvadCIsCJtCIwadCIuCJtCIvadCIuCJtCIvadCIvCJ",
  "tCJyadCIvCJtCJxadCJbCIvCIuadCJbCIuCIvadCJbCIuCJxadCJbCJtCIvadCJbCJtCIvadCJbCJtCIuadCJbCJtCJt",
  "adCJbCJtCJtadCJdCIvCIvadCJdCIvCIvadCJdCJtCJtadCJcCIvCJtadCJcCIvCJtadCJcCIuCJyadCJcCJtCIwadCJ",
  "cCJtCIwadCJcCJtCJtadCJcCJtCJtadCJeCIvCJxadCJeCIwCJtadCJeCIwCJtadCJfCJtCIvadCJfCJtCIvadCJfCJt",
  "CJtadCJfCJtCJyadCJhCIuCJtadCJhCJtCJtadCJhCJtCJtadCJhCJtCJxadCJiCJtCJtadCJiCJtCJyadCJiCJtCJxa",
  "dCJpCIwCJtadCJpCIwCJtadCJqCJtCIvadCJqCJtCJtadCJsCIvCJtadCJsCIvCJyadCJsCIvCJxadCJsCIuCIuadCJs",
  "CIuCIuadCJsCIwCJtadCJsCIwCJtadCJsCJtCIvadCJsCJtCIvadCJtCIvCIuadCJtCIvCJtadCJtCIvCJyadCJtCIuC",
  "IvadCJtCIuCJtadCJtCIwCIuadCJtCIwCJtcdCJtCIuCIwadCJvCJtCIuadCJvCJtCJtadCJuCIvCJtadCJuCIvCJxad",
  "CJuCIuCJtadCJuCIuCJtadCJuCIuCJxadCJuCJtCJyadCJuCJtCJxadCJyCJtCJtadCJyCJtCJtadCIqCIwCJyadCIsC",
  "IuCJyadCIsCIuCJxadCIsCIwCJyadCIsCIwCJxadCIsCJtCJyadCIsCJtCJxadCIuCJtCJyadCIuCIvCJxadCIuCJtCJ",
  "xadCJbCIwCJxadCJdCIvCJyadCJcCIvCJyadCJeCIvCJyadCJsCIuCJyadCJsCJtCJyadCJyCIvCJyadCJyCIuCJyadC",
  "JyCJtCJyadCJtCJtCJyadCJqCJtCJyadCJuCIvCJyadCJqCJtCIvadCJsCIvCJtadCJhCJtCJyadCJrCJtCJyadCJuCI",
  "uCIvadCJtCIwCJyadCJsCIuCJtadCJrCJtCJtadCJsCIuCJtadCJuCIuCIvadCIuCIvCJyadCIvCIuCJyadCJtCIuCJy",
  "adCJpCJtCJyadCIqCIvCJyadCJrCJtCJtadCJhCIuCJtadCJdCJtCJtadCJbCIwCJyadCJuCIuCJyBodCJdCJsCPeadC",
  "JqCJsCPeaeCIpCJsCJsCJvaeCIpCJrCIqCIzaeCJtCIvCJtCIxaeCJdCJsCJhCJtaeCIzCJbCJwCJsaeCJhCJsCJyCJv",
  "aeCJwCJbCJsCJtadCJdCJsCJxasCJdCJsCJxBgCIpCJsCJsCJvBgCJhCJsCJyCJvBgCJwCJbCJsCJtaiCIuCJsBgCIuC",
  "JsCIpCJsCJvaeCIzCOyCIpCJsCycBgBDtacBgBDtacBgBDtacBgBDtBjcBgCJzacCJoCJzacBgCKabcBgCKbbcBgCKca",
  "cCJoCKcacBgCKdacCJoCKdacBgCKeacCJoCKeacBgCKfacCJoCKfacBgCKgacCJoCKgEncCJsCIkacCJsCIkacCJsCIl",
  "acCJsCIlacCJsCInacCJsCInacCJsCIpacCJsCIpIwcBgBDsDBIocGUFvGUGjacGUFwGUGjadGUFwGUGjGUGsadGUFwG",
  "UGjGUGtadGUFwGUGjGUGuadGUFwGUGjGUGvadGUFwGUGjGUGwDicGUJpGUGjacGUJqGUGjadGUJpGUGjGUGsadGUJqGU",
  "GjGUGsadGUJpGUGjGUGtadGUJqGUGjGUGtLVscBwBsacBxBsacByBsacBzBsacCaBsacCbBsacCcBsacCdBsacCeBsac",
  "CfBsfdBoDtBpadBoDuBpadBoDvBpadBoDwBpadBoDxBpadBoDyBpadBoDzBpadBoEaBpadBoEbBpadBoEcBpadBoEdBp",
  "adBoEeBpadBoEfBpadBoEgBpadBoEhBpadBoEiBpadBoEjBpadBoEkBpadBoElBpadBoEmBpadBoEnBpadBoEoBpadBo",
  "EpBpadBoEqBpadBoErBpadBoEsBpadSFkElSFlccDvDwacEpEsBbcEaEoacEfEoacElDwacElEladEiEiEoacEpDvBac",
  "EfDvacEfDwacEfEkBjcDwEcEhcSJjSHnacSLnSLnCkdSFkBNBwSFladSFkBDOjSFladSFkBDTkSFladSFkBIRhSFladS",
  "FkBQRxSFladSFkBLGdSFladSFkBTAdSFladSFkBFJxSFladSFkBMJvSFl"]

/-- A character and the several that replace it. -/
structure Expansion where
  source : Nat
  targets : List Nat
  deriving DecidableEq, Repr

def expansionsFrom : (fuel : Nat) → List Nat → (start : Nat) → List Expansion
  | fuel + 1, gap :: count :: rest, start =>
    ⟨start + gap, rest.take count⟩ :: expansionsFrom fuel (rest.drop count) (start + gap + 1)
  | _, _, _ => []

def expansions : List Expansion :=
  let written := numbers expansionRows
  expansionsFrom written.length written 0

/-- What a character becomes; none stands for one that must not be there. -/
def mapChar? (c : Char) : Option (List Char) :=
  let n := c.toNat
  if kept.containsCode n then some [c]
  else if ignored.containsCode n then some []
  else
    match singles.find? (·.source == n) with
    | some single => some [Char.ofNat single.target]
    | none => (expansions.find? (·.source == n)).map fun e => e.targets.map Char.ofNat

def mapped? : List Char → Option (List Char)
  | [] => some []
  | c :: rest => return (← mapChar? c) ++ (← mapped? rest)

end TemplateCache.Domain
