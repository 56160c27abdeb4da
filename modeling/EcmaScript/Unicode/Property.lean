/-!
# Names of character properties

The names by which a regular expression may refer to a property of characters: a binary property, a
general category, or a script. Each has a long name and, with few exceptions, a short one.
-/

namespace EcmaScript.Unicode

/-- The general categories. -/
def generalCategories : List String :=
  ["L", "Letter", "LC", "Cased_Letter", "Lu", "Uppercase_Letter", "Ll", "Lowercase_Letter", "Lt",
   "Titlecase_Letter", "Lm", "Modifier_Letter", "Lo", "Other_Letter", "M", "Mark",
   "Combining_Mark", "Mn", "Nonspacing_Mark", "Mc", "Spacing_Mark", "Me", "Enclosing_Mark", "N",
   "Number", "Nd", "Decimal_Number", "digit", "Nl", "Letter_Number", "No", "Other_Number", "P",
   "Punctuation", "punct", "Pc", "Connector_Punctuation", "Pd", "Dash_Punctuation", "Ps",
   "Open_Punctuation", "Pe", "Close_Punctuation", "Pi", "Initial_Punctuation", "Pf",
   "Final_Punctuation", "Po", "Other_Punctuation", "S", "Symbol", "Sm", "Math_Symbol", "Sc",
   "Currency_Symbol", "Sk", "Modifier_Symbol", "So", "Other_Symbol", "Z", "Separator", "Zs",
   "Space_Separator", "Zl", "Line_Separator", "Zp", "Paragraph_Separator", "C", "Other", "Cc",
   "Control", "cntrl", "Cf", "Format", "Cs", "Surrogate", "Co", "Private_Use", "Cn", "Unassigned"]

/-- The properties that a character has or has not. -/
def binaryProperties : List String :=
  ["ASCII", "ASCII_Hex_Digit", "AHex", "Alphabetic", "Alpha", "Any", "Assigned", "Bidi_Control",
   "Bidi_C", "Bidi_Mirrored", "Bidi_M", "Case_Ignorable", "CI", "Cased",
   "Changes_When_Casefolded", "CWCF", "Changes_When_Casemapped", "CWCM",
   "Changes_When_Lowercased", "CWL", "Changes_When_NFKC_Casefolded", "CWKCF",
   "Changes_When_Titlecased", "CWT", "Changes_When_Uppercased", "CWU", "Dash",
   "Default_Ignorable_Code_Point", "DI", "Deprecated", "Dep", "Diacritic", "Dia", "Emoji",
   "Emoji_Component", "EComp", "Emoji_Modifier", "EMod", "Emoji_Modifier_Base", "EBase",
   "Emoji_Presentation", "EPres", "Extended_Pictographic", "ExtPict", "Extender", "Ext",
   "Grapheme_Base", "Gr_Base", "Grapheme_Extend", "Gr_Ext", "Hex_Digit", "Hex",
   "IDS_Binary_Operator", "IDSB", "IDS_Trinary_Operator", "IDST", "ID_Continue", "IDC",
   "ID_Start", "IDS", "Ideographic", "Ideo", "Join_Control", "Join_C", "Logical_Order_Exception",
   "LOE", "Lowercase", "Lower", "Math", "Noncharacter_Code_Point", "NChar", "Pattern_Syntax",
   "Pat_Syn", "Pattern_White_Space", "Pat_WS", "Quotation_Mark", "QMark", "Radical",
   "Regional_Indicator", "RI", "Sentence_Terminal", "STerm", "Soft_Dotted", "SD",
   "Terminal_Punctuation", "Term", "Unified_Ideograph", "UIdeo", "Uppercase", "Upper",
   "Variation_Selector", "VS", "White_Space", "space", "XID_Continue", "XIDC", "XID_Start",
   "XIDS"]

/-- The scripts. -/
def scripts : List String :=
  ["Adlam", "Adlm", "Ahom", "Anatolian_Hieroglyphs", "Hluw", "Arabic", "Arab", "Armenian", "Armn",
   "Avestan", "Avst", "Balinese", "Bali", "Bamum", "Bamu", "Bassa_Vah", "Bass", "Batak", "Batk",
   "Bengali", "Beng", "Bhaiksuki", "Bhks", "Bopomofo", "Bopo", "Brahmi", "Brah", "Braille",
   "Brai", "Buginese", "Bugi", "Buhid", "Buhd", "Canadian_Aboriginal", "Cans", "Carian", "Cari",
   "Caucasian_Albanian", "Aghb", "Chakma", "Cakm", "Cham", "Cherokee", "Cher", "Chorasmian",
   "Chrs", "Common", "Zyyy", "Coptic", "Copt", "Qaac", "Cuneiform", "Xsux", "Cypriot", "Cprt",
   "Cypro_Minoan", "Cpmn", "Cyrillic", "Cyrl", "Deseret", "Dsrt", "Devanagari", "Deva",
   "Dives_Akuru", "Diak", "Dogra", "Dogr", "Duployan", "Dupl", "Egyptian_Hieroglyphs", "Egyp",
   "Elbasan", "Elba", "Elymaic", "Elym", "Ethiopic", "Ethi", "Georgian", "Geor", "Glagolitic",
   "Glag", "Gothic", "Goth", "Grantha", "Gran", "Greek", "Grek", "Gujarati", "Gujr",
   "Gunjala_Gondi", "Gong", "Gurmukhi", "Guru", "Han", "Hani", "Hangul", "Hang",
   "Hanifi_Rohingya", "Rohg", "Hanunoo", "Hano", "Hatran", "Hatr", "Hebrew", "Hebr", "Hiragana",
   "Hira", "Imperial_Aramaic", "Armi", "Inherited", "Zinh", "Qaai", "Inscriptional_Pahlavi",
   "Phli", "Inscriptional_Parthian", "Prti", "Javanese", "Java", "Kaithi", "Kthi", "Kannada",
   "Knda", "Katakana", "Kana", "Kawi", "Kayah_Li", "Kali", "Kharoshthi", "Khar",
   "Khitan_Small_Script", "Kits", "Khmer", "Khmr", "Khojki", "Khoj", "Khudawadi", "Sind", "Lao",
   "Laoo", "Latin", "Latn", "Lepcha", "Lepc", "Limbu", "Limb", "Linear_A", "Lina", "Linear_B",
   "Linb", "Lisu", "Lycian", "Lyci", "Lydian", "Lydi", "Mahajani", "Mahj", "Makasar", "Maka",
   "Malayalam", "Mlym", "Mandaic", "Mand", "Manichaean", "Mani", "Marchen", "Marc",
   "Masaram_Gondi", "Gonm", "Medefaidrin", "Medf", "Meetei_Mayek", "Mtei", "Mende_Kikakui",
   "Mend", "Meroitic_Cursive", "Merc", "Meroitic_Hieroglyphs", "Mero", "Miao", "Plrd", "Modi",
   "Mongolian", "Mong", "Mro", "Mroo", "Multani", "Mult", "Myanmar", "Mymr", "Nabataean", "Nbat",
   "Nag_Mundari", "Nagm", "Nandinagari", "Nand", "New_Tai_Lue", "Talu", "Newa", "Nko", "Nkoo",
   "Nushu", "Nshu", "Nyiakeng_Puachue_Hmong", "Hmnp", "Ogham", "Ogam", "Ol_Chiki", "Olck",
   "Old_Hungarian", "Hung", "Old_Italic", "Ital", "Old_North_Arabian", "Narb", "Old_Permic",
   "Perm", "Old_Persian", "Xpeo", "Old_Sogdian", "Sogo", "Old_South_Arabian", "Sarb",
   "Old_Turkic", "Orkh", "Old_Uyghur", "Ougr", "Oriya", "Orya", "Osage", "Osge", "Osmanya",
   "Osma", "Pahawh_Hmong", "Hmng", "Palmyrene", "Palm", "Pau_Cin_Hau", "Pauc", "Phags_Pa", "Phag",
   "Phoenician", "Phnx", "Psalter_Pahlavi", "Phlp", "Rejang", "Rjng", "Runic", "Runr",
   "Samaritan", "Samr", "Saurashtra", "Saur", "Sharada", "Shrd", "Shavian", "Shaw", "Siddham",
   "Sidd", "SignWriting", "Sgnw", "Sinhala", "Sinh", "Sogdian", "Sogd", "Sora_Sompeng", "Sora",
   "Soyombo", "Soyo", "Sundanese", "Sund", "Syloti_Nagri", "Sylo", "Syriac", "Syrc", "Tagalog",
   "Tglg", "Tagbanwa", "Tagb", "Tai_Le", "Tale", "Tai_Tham", "Lana", "Tai_Viet", "Tavt", "Takri",
   "Takr", "Tamil", "Taml", "Tangsa", "Tnsa", "Tangut", "Tang", "Telugu", "Telu", "Thaana",
   "Thaa", "Thai", "Tibetan", "Tibt", "Tifinagh", "Tfng", "Tirhuta", "Tirh", "Toto", "Ugaritic",
   "Ugar", "Vai", "Vaii", "Vithkuqi", "Vith", "Wancho", "Wcho", "Warang_Citi", "Wara", "Yezidi",
   "Yezi", "Yi", "Yiii", "Zanabazar_Square", "Zanb"]

/-- The names of the property whose values are general categories. -/
def categoryProperties : List String :=
  ["General_Category", "gc"]

/-- The names of the two properties whose values are scripts. -/
def scriptProperties : List String :=
  ["Script", "sc", "Script_Extensions", "scx"]

/-- A name that stands for a set of characters on its own. -/
def isPropertyName (name : String) : Bool :=
  generalCategories.contains name || binaryProperties.contains name

/-- A property and one of its values. -/
def isPropertyValue (name value : String) : Bool :=
  (categoryProperties.contains name && generalCategories.contains value) ||
    (scriptProperties.contains name && scripts.contains value)

end EcmaScript.Unicode
