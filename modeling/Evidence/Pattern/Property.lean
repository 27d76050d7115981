import Evidence.Pattern.Sign
import Evidence.Text.Separated

namespace Evidence.Pattern.Property

def categories : List String := Text.split ' ' <|
  "L Letter Lu Uppercase_Letter Ll Lowercase_Letter Lt Titlecase_Letter LC Cased_Letter Lm " ++
  "Modifier_Letter Lo Other_Letter M Mark Combining_Mark Mn Nonspacing_Mark Mc Spacing_Mark " ++
  "Me Enclosing_Mark N Number Nd Decimal_Number digit Nl Letter_Number No Other_Number P " ++
  "Punctuation punct Pc Connector_Punctuation Pd Dash_Punctuation Ps Open_Punctuation Pe " ++
  "Close_Punctuation Pi Initial_Punctuation Pf Final_Punctuation Po Other_Punctuation S " ++
  "Symbol Sm Math_Symbol Sc Currency_Symbol Sk Modifier_Symbol So Other_Symbol Z Separator " ++
  "Zs Space_Separator Zl Line_Separator Zp Paragraph_Separator C Other Cc Control cntrl Cf " ++
  "Format Cs Surrogate Co Private_Use Cn Unassigned"

def plain : List String := Text.split ' ' <|
  "ASCII AHex ASCII_Hex_Digit Alpha Alphabetic Any Assigned Bidi_C Bidi_Control Bidi_M " ++
  "Bidi_Mirrored CI Case_Ignorable Cased CWCF Changes_When_Casefolded CWCM " ++
  "Changes_When_Casemapped CWL Changes_When_Lowercased CWKCF Changes_When_NFKC_Casefolded " ++
  "CWT Changes_When_Titlecased CWU Changes_When_Uppercased Dash DI " ++
  "Default_Ignorable_Code_Point Dep Deprecated Dia Diacritic Emoji EComp Emoji_Component " ++
  "EMod Emoji_Modifier EBase Emoji_Modifier_Base EPres Emoji_Presentation " ++
  "Extended_Pictographic ExtPict Ext Extender Gr_Base Grapheme_Base Gr_Ext Grapheme_Extend " ++
  "Hex Hex_Digit IDSB IDS_Binary_Operator IDST IDS_Trinary_Operator IDC ID_Continue IDS " ++
  "ID_Start Ideo Ideographic Join_C Join_Control LOE Logical_Order_Exception Lower " ++
  "Lowercase Math NChar Noncharacter_Code_Point Pat_Syn Pattern_Syntax Pat_WS " ++
  "Pattern_White_Space QMark Quotation_Mark Radical RI Regional_Indicator STerm " ++
  "Sentence_Terminal SD Soft_Dotted Term Terminal_Punctuation UIdeo Unified_Ideograph Upper " ++
  "Uppercase VS Variation_Selector space White_Space XIDC XID_Continue XIDS XID_Start"

def ofTexts : List String := Text.split ' ' <|
  "Basic_Emoji Emoji_Keycap_Sequence RGI_Emoji_Modifier_Sequence RGI_Emoji_Flag_Sequence " ++
  "RGI_Emoji_Tag_Sequence RGI_Emoji_ZWJ_Sequence RGI_Emoji"

def scripts : List String := Text.split ' ' <|
  "Adlam Adlm Aghb Ahom Anatolian_Hieroglyphs Arab Arabic Armenian Armi Armn Avestan Avst " ++
  "Bali Balinese Bamu Bamum Bass Bassa_Vah Batak Batk Beng Bengali Berf Beria_Erfe " ++
  "Bhaiksuki Bhks Bopo Bopomofo Brah Brahmi Brai Braille Bugi Buginese Buhd Buhid Cakm " ++
  "Canadian_Aboriginal Cans Cari Carian Caucasian_Albanian Chakma Cham Cher Cherokee " ++
  "Chorasmian Chrs Common Copt Coptic Cpmn Cprt Cuneiform Cypriot Cypro_Minoan Cyrillic " ++
  "Cyrl Deseret Deva Devanagari Diak Dives_Akuru Dogr Dogra Dsrt Dupl Duployan Egyp " ++
  "Egyptian_Hieroglyphs Elba Elbasan Elym Elymaic Ethi Ethiopic Gara Garay Geor Georgian " ++
  "Glag Glagolitic Gong Gonm Goth Gothic Gran Grantha Greek Grek Gujarati Gujr Gukh " ++
  "Gunjala_Gondi Gurmukhi Guru Gurung_Khema Han Hang Hangul Hani Hanifi_Rohingya Hano " ++
  "Hanunoo Hatr Hatran Hebr Hebrew Hira Hiragana Hluw Hmng Hmnp Hung Imperial_Aramaic " ++
  "Inherited Inscriptional_Pahlavi Inscriptional_Parthian Ital Java Javanese Kaithi Kali " ++
  "Kana Kannada Katakana Kawi Kayah_Li Khar Kharoshthi Khitan_Small_Script Khmer Khmr Khoj " ++
  "Khojki Khudawadi Kirat_Rai Kits Knda Krai Kthi Lana Lao Laoo Latin Latn Lepc Lepcha Limb " ++
  "Limbu Lina Linb Linear_A Linear_B Lisu Lyci Lycian Lydi Lydian Mahajani Mahj Maka " ++
  "Makasar Malayalam Mand Mandaic Mani Manichaean Marc Marchen Masaram_Gondi Medefaidrin " ++
  "Medf Meetei_Mayek Mend Mende_Kikakui Merc Mero Meroitic_Cursive Meroitic_Hieroglyphs " ++
  "Miao Mlym Modi Mong Mongolian Mro Mroo Mtei Mult Multani Myanmar Mymr Nabataean " ++
  "Nag_Mundari Nagm Nand Nandinagari Narb Nbat New_Tai_Lue Newa Nko Nkoo Nshu Nushu " ++
  "Nyiakeng_Puachue_Hmong Ogam Ogham Ol_Chiki Ol_Onal Olck Old_Hungarian Old_Italic " ++
  "Old_North_Arabian Old_Permic Old_Persian Old_Sogdian Old_South_Arabian Old_Turkic " ++
  "Old_Uyghur Onao Oriya Orkh Orya Osage Osge Osma Osmanya Ougr Pahawh_Hmong Palm Palmyrene " ++
  "Pau_Cin_Hau Pauc Perm Phag Phags_Pa Phli Phlp Phnx Phoenician Plrd Prti Psalter_Pahlavi " ++
  "Qaac Qaai Rejang Rjng Rohg Runic Runr Samaritan Samr Sarb Saur Saurashtra Sgnw Sharada " ++
  "Shavian Shaw Shrd Sidd Siddham Sidetic Sidt SignWriting Sind Sinh Sinhala Sogd Sogdian " ++
  "Sogo Sora Sora_Sompeng Soyo Soyombo Sund Sundanese Sunu Sunuwar Sylo Syloti_Nagri Syrc " ++
  "Syriac Tagalog Tagb Tagbanwa Tai_Le Tai_Tham Tai_Viet Tai_Yo Takr Takri Tale Talu Tamil " ++
  "Taml Tang Tangsa Tangut Tavt Tayo Telu Telugu Tfng Tglg Thaa Thaana Thai Tibetan Tibt " ++
  "Tifinagh Tirh Tirhuta Tnsa Todhri Todr Tolong_Siki Tols Toto Tulu_Tigalari Tutg Ugar " ++
  "Ugaritic Unknown Vai Vaii Vith Vithkuqi Wancho Wara Warang_Citi Wcho Xpeo Xsux Yezi " ++
  "Yezidi Yi Yiii Zanabazar_Square Zanb Zinh Zyyy Zzzz"

def hasValue (name value : String) : Bool :=
  if ["General_Category", "gc"].contains name then categories.contains value
  else ["Script", "sc", "Script_Extensions", "scx"].contains name && scripts.contains value

def isNamePart (s : Sign) : Bool := s.char.isAlphanum || s.char = '_'

def name (signs : List Sign) : String × List Sign :=
  (String.ofList ((signs.takeWhile isNamePart).map (·.char)), signs.dropWhile isNamePart)

def after? (d : Dialect) (isNegated : Bool) : Parse Bool
  | ⟨'{', _⟩ :: signs =>
      let (first, rest) := name signs
      match rest with
      | ⟨'}', _⟩ :: rest =>
          if categories.contains first || plain.contains first then some (false, rest)
          else if d.hasSets && !isNegated && ofTexts.contains first then some (true, rest)
          else none
      | ⟨'=', _⟩ :: rest =>
          let (second, rest) := name rest
          match rest with
          | ⟨'}', _⟩ :: rest => if hasValue first second then some (false, rest) else none
          | _ => none
      | _ => none
  | _ => none

end Evidence.Pattern.Property
