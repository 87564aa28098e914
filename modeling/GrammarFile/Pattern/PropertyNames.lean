/-!
# Names of character properties

The names under which Unicode knows the properties of characters and their values, in the form that
comparisons use: lower case, without blanks, hyphens, low lines and a leading `is`. Long and short names
stand side by side. Values that no character has are left out, but for those listed as empty.
-/

namespace GrammarFile.Pattern

/-- Properties that a character has or has not, and that a pattern can ask for. -/
def binaryProperties : List String :=
  ["ahex", "asciihexdigit", "alpha", "alphabetic", "bidic", "bidicontrol", "bidim",
   "bidimirrored", "ci", "caseignorable", "cased", "cwcf", "changeswhencasefolded", "cwcm",
   "changeswhencasemapped", "cwl", "changeswhenlowercased", "cwt", "changeswhentitlecased", "cwu",
   "changeswhenuppercased", "dash", "di", "defaultignorablecodepoint", "dep", "deprecated", "dia",
   "diacritic", "emoji", "ecomp", "emojicomponent", "emod", "emojimodifier", "ebase",
   "emojimodifierbase", "epres", "emojipresentation", "extpict", "extendedpictographic", "ext",
   "extender", "grbase", "graphemebase", "grext", "graphemeextend", "grlink", "graphemelink",
   "hex", "hexdigit", "hyphen", "idsb", "idsbinaryoperator", "idst", "idstrinaryoperator", "idsu",
   "idsunaryoperator", "idcompatmathcontinue", "idcompatmathstart", "idc", "idcontinue", "ids",
   "idstart", "ideo", "ideographic", "joinc", "joincontrol", "loe", "logicalorderexception",
   "lower", "lowercase", "math", "mcm", "modifiercombiningmark", "nchar", "noncharactercodepoint",
   "oalpha", "otheralphabetic", "odi", "otherdefaultignorablecodepoint", "ogrext",
   "othergraphemeextend", "oidc", "otheridcontinue", "oids", "otheridstart", "olower",
   "otherlowercase", "omath", "othermath", "oupper", "otheruppercase", "patsyn", "patternsyntax",
   "patws", "patternwhitespace", "pcm", "prependedconcatenationmark", "qmark", "quotationmark",
   "radical", "ri", "regionalindicator", "sterm", "sentenceterminal", "sd", "softdotted", "term",
   "terminalpunctuation", "uideo", "unifiedideograph", "upper", "uppercase", "vs",
   "variationselector", "wspace", "whitespace", "space", "xidc", "xidcontinue", "xids",
   "xidstart"]

/-- Properties that a pattern cannot ask for. -/
def otherProperties : List String :=
  ["bc", "bidiclass", "bmg", "bidimirroringglyph", "bpb", "bidipairedbracket", "bpt",
   "bidipairedbrackettype", "blk", "block", "ccc", "canonicalcombiningclass", "cf", "casefolding",
   "cwkcf", "changeswhennfkccasefolded", "ce", "compositionexclusion", "dm",
   "decompositionmapping", "dt", "decompositiontype", "ea", "eastasianwidth", "equideo",
   "equivalentunifiedideograph", "xonfc", "expandsonnfc", "xonfd", "expandsonnfd", "xonfkc",
   "expandsonnfkc", "xonfkd", "expandsonnfkd", "fcnfkc", "fcnfkcclosure", "compex",
   "fullcompositionexclusion", "hst", "hangulsyllabletype", "isc", "ocomment", "incb",
   "indicconjunctbreak", "inpc", "indicpositionalcategory", "insc", "indicsyllabiccategory",
   "jsn", "jamoshortname", "jg", "joininggroup", "jt", "joiningtype", "lb", "linebreak", "lc",
   "lowercasemapping", "nfcqc", "nfcquickcheck", "nfdqc", "nfdquickcheck", "nfkccf",
   "nfkccasefold", "nfkcqc", "nfkcquickcheck", "nfkcscf", "nfkcsimplecasefold", "nfkdqc",
   "nfkdquickcheck", "na", "name", "namealias", "nt", "numerictype", "nv", "numericvalue", "scf",
   "simplecasefolding", "sfc", "slc", "simplelowercasemapping", "stc", "simpletitlecasemapping",
   "suc", "simpleuppercasemapping", "tc", "titlecasemapping", "na1", "unicode1name", "uc",
   "uppercasemapping", "vo", "verticalorientation", "cjkaccountingnumeric", "kaccountingnumeric",
   "cjkcompatibilityvariant", "kcompatibilityvariant", "kehcat", "kehdesc", "kehhg", "kehifao",
   "kehjsesh", "kehnomirror", "kehnorotate", "cjkiicore", "kiicore", "cjkirggsource",
   "kirggsource", "cjkirghsource", "kirghsource", "cjkirgjsource", "kirgjsource",
   "cjkirgkpsource", "kirgkpsource", "cjkirgksource", "kirgksource", "cjkirgmsource",
   "kirgmsource", "cjkirgssource", "kirgssource", "cjkirgtsource", "kirgtsource",
   "cjkirguksource", "kirguksource", "cjkirgusource", "kirgusource", "cjkirgvsource",
   "kirgvsource", "cjkmandarin", "kmandarin", "cjkothernumeric", "kothernumeric",
   "cjkprimarynumeric", "kprimarynumeric", "cjkrsunicode", "krsunicode", "unicoderadicalstroke",
   "urs", "cjktotalstrokes", "ktotalstrokes", "cjkunihancore2020", "kunihancore2020"]

/-- General categories. -/
def generalCategories : List String :=
  ["c", "other", "cc", "control", "cntrl", "cf", "format", "cn", "unassigned", "co", "privateuse",
   "l", "letter", "lc", "casedletter", "ll", "lowercaseletter", "lm", "modifierletter", "lo",
   "otherletter", "lt", "titlecaseletter", "lu", "uppercaseletter", "m", "mark", "combiningmark",
   "mc", "spacingmark", "me", "enclosingmark", "mn", "nonspacingmark", "n", "number", "nd",
   "decimalnumber", "digit", "nl", "letternumber", "no", "othernumber", "p", "punctuation",
   "punct", "pc", "connectorpunctuation", "pd", "dashpunctuation", "pe", "closepunctuation", "pf",
   "finalpunctuation", "pi", "initialpunctuation", "po", "otherpunctuation", "ps",
   "openpunctuation", "s", "symbol", "sc", "currencysymbol", "sk", "modifiersymbol", "sm",
   "mathsymbol", "so", "othersymbol", "z", "separator", "zl", "lineseparator", "zp",
   "paragraphseparator", "zs", "spaceseparator"]

/-- General categories that no character of a text is in. -/
def emptyCategories : List String :=
  ["cs", "surrogate"]

/-- Scripts. -/
def scripts : List String :=
  ["adlm", "adlam", "aghb", "caucasianalbanian", "ahom", "arab", "arabic", "armi",
   "imperialaramaic", "armn", "armenian", "avst", "avestan", "bali", "balinese", "bamu", "bamum",
   "bass", "bassavah", "batk", "batak", "beng", "bengali", "bhks", "bhaiksuki", "bopo",
   "bopomofo", "brah", "brahmi", "brai", "braille", "bugi", "buginese", "buhd", "buhid", "cakm",
   "chakma", "cans", "canadianaboriginal", "cari", "carian", "cham", "cher", "cherokee", "chrs",
   "chorasmian", "copt", "coptic", "qaac", "cpmn", "cyprominoan", "cprt", "cypriot", "cyrl",
   "cyrillic", "deva", "devanagari", "diak", "divesakuru", "dogr", "dogra", "dsrt", "deseret",
   "dupl", "duployan", "egyp", "egyptianhieroglyphs", "elba", "elbasan", "elym", "elymaic",
   "ethi", "ethiopic", "geor", "georgian", "glag", "glagolitic", "gong", "gunjalagondi", "gonm",
   "masaramgondi", "goth", "gothic", "gran", "grantha", "grek", "greek", "gujr", "gujarati",
   "guru", "gurmukhi", "hang", "hangul", "hani", "han", "hano", "hanunoo", "hatr", "hatran",
   "hebr", "hebrew", "hira", "hiragana", "hluw", "anatolianhieroglyphs", "hmng", "pahawhhmong",
   "hmnp", "nyiakengpuachuehmong", "hung", "oldhungarian", "ital", "olditalic", "java",
   "javanese", "kali", "kayahli", "kana", "katakana", "kawi", "khar", "kharoshthi", "khmr",
   "khmer", "khoj", "khojki", "kits", "khitansmallscript", "knda", "kannada", "kthi", "kaithi",
   "lana", "taitham", "laoo", "lao", "latn", "latin", "lepc", "lepcha", "limb", "limbu", "lina",
   "lineara", "linb", "linearb", "lisu", "lyci", "lycian", "lydi", "lydian", "mahj", "mahajani",
   "maka", "makasar", "mand", "mandaic", "mani", "manichaean", "marc", "marchen", "medf",
   "medefaidrin", "mend", "mendekikakui", "merc", "meroiticcursive", "mero",
   "meroitichieroglyphs", "mlym", "malayalam", "modi", "mong", "mongolian", "mroo", "mro", "mtei",
   "meeteimayek", "mult", "multani", "mymr", "myanmar", "nagm", "nagmundari", "nand",
   "nandinagari", "narb", "oldnortharabian", "nbat", "nabataean", "newa", "nkoo", "nko", "nshu",
   "nushu", "ogam", "ogham", "olck", "olchiki", "orkh", "oldturkic", "orya", "oriya", "osge",
   "osage", "osma", "osmanya", "ougr", "olduyghur", "palm", "palmyrene", "pauc", "paucinhau",
   "perm", "oldpermic", "phag", "phagspa", "phli", "inscriptionalpahlavi", "phlp",
   "psalterpahlavi", "phnx", "phoenician", "plrd", "miao", "prti", "inscriptionalparthian",
   "rjng", "rejang", "rohg", "hanifirohingya", "runr", "runic", "samr", "samaritan", "sarb",
   "oldsoutharabian", "saur", "saurashtra", "sgnw", "signwriting", "shaw", "shavian", "shrd",
   "sharada", "sidd", "siddham", "sind", "khudawadi", "sinh", "sinhala", "sogd", "sogdian",
   "sogo", "oldsogdian", "sora", "sorasompeng", "soyo", "soyombo", "sund", "sundanese", "sylo",
   "sylotinagri", "syrc", "syriac", "tagb", "tagbanwa", "takr", "takri", "tale", "taile", "talu",
   "newtailue", "taml", "tamil", "tang", "tangut", "tavt", "taiviet", "telu", "telugu", "tfng",
   "tifinagh", "tglg", "tagalog", "thaa", "thaana", "thai", "tibt", "tibetan", "tirh", "tirhuta",
   "tnsa", "tangsa", "toto", "ugar", "ugaritic", "vaii", "vai", "vith", "vithkuqi", "wara",
   "warangciti", "wcho", "wancho", "xpeo", "oldpersian", "xsux", "cuneiform", "yezi", "yezidi",
   "yiii", "yi", "zanb", "zanabazarsquare", "zinh", "inherited", "qaai", "zyyy", "common", "gara",
   "garay", "gukh", "gurungkhema", "krai", "kiratrai", "onao", "olonal", "sunu", "sunuwar",
   "todr", "todhri", "tutg", "tulutigalari"]

/-- Scripts that no character is in. -/
def emptyScripts : List String :=
  ["hrkt", "katakanaorhiragana", "zzzz", "unknown"]

/-- Versions of Unicode that added characters. -/
def ages : List String :=
  ["1.1", "v11", "10.0", "v100", "11.0", "v110", "12.0", "v120", "12.1", "v121", "13.0", "v130",
   "14.0", "v140", "15.0", "v150", "2.0", "v20", "2.1", "v21", "3.0", "v30", "3.1", "v31", "3.2",
   "v32", "4.0", "v40", "4.1", "v41", "5.0", "v50", "5.1", "v51", "5.2", "v52", "6.0", "v60",
   "6.1", "v61", "6.2", "v62", "6.3", "v63", "7.0", "v70", "8.0", "v80", "9.0", "v90", "15.1",
   "v151", "16.0", "v160"]

/-- Classes of characters for breaking a text into graphemes. -/
def graphemeBreaks : List String :=
  ["cn", "control", "cr", "ex", "extend", "l", "lf", "lv", "lvt", "pp", "prepend", "ri",
   "regionalindicator", "sm", "spacingmark", "t", "v", "zwj"]

/-- Classes of characters for breaking a text into words. -/
def wordBreaks : List String :=
  ["cr", "dq", "doublequote", "ex", "extendnumlet", "extend", "fo", "format", "hl",
   "hebrewletter", "ka", "katakana", "le", "aletter", "lf", "mb", "midnumlet", "ml", "midletter",
   "mn", "midnum", "nl", "newline", "nu", "numeric", "ri", "regionalindicator", "sq",
   "singlequote", "wsegspace", "zwj"]

/-- Classes of characters for breaking a text into sentences. -/
def sentenceBreaks : List String :=
  ["at", "aterm", "cl", "close", "cr", "ex", "extend", "fo", "format", "le", "oletter", "lf",
   "lo", "lower", "nu", "numeric", "sc", "scontinue", "se", "sep", "sp", "st", "sterm", "up",
   "upper"]

end GrammarFile.Pattern
