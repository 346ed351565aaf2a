import WordStem.RuleProgram

/-! # Affixes of Hungarian

The affix tables of the Hungarian program. The long double-acute vowels are written `õ` and `û`
throughout, as in Latin-2 text; words spelled with `ő` and `ű` are not recognised. -/
namespace WordStem.Hungarian

/-- What the Hungarian program remembers about a word: where the region R1 begins, which is the
length of the word when the region is empty. -/
structure Regions where
  r1 : Nat
deriving DecidableEq, Repr, Inhabited

/-- The vowels. -/
def vowels : CharacterSet :=
  .ofMembers "aeiouáéíóõöúûü".toList 'a' 'ü'

/-- Digraphs that count as one consonant. -/
def digraphs : AffixTable Regions :=
  .ofRows "digraphs" .forward
    [("cs", -1, 1), ("dzs", -1, 1), ("gy", -1, 1), ("ly", -1, 1), ("ny", -1, 1), ("sz", -1, 1),
    ("ty", -1, 1), ("zs", -1, 1)]

/-- Long stem vowels that a case ending leaves behind. -/
def vowelEndings : AffixTable Regions :=
  .ofRows "v_ending" .backward
    [("á", -1, 1), ("é", -1, 2)]

/-- Doubled consonants, also of digraphs. -/
def doubles : AffixTable Regions :=
  .ofRows "doubles" .backward
    [("bb", -1, 1), ("cc", -1, 1), ("dd", -1, 1), ("ff", -1, 1), ("gg", -1, 1), ("jj", -1, 1),
    ("kk", -1, 1), ("ll", -1, 1), ("mm", -1, 1), ("nn", -1, 1), ("pp", -1, 1), ("rr", -1, 1),
    ("ccs", -1, 1), ("ss", -1, 1), ("zzs", -1, 1), ("tt", -1, 1), ("vv", -1, 1), ("ggy", -1, 1),
    ("lly", -1, 1), ("nny", -1, 1), ("tty", -1, 1), ("ssz", -1, 1), ("zz", -1, 1)]

/-- Instrumental endings, after which a doubled consonant is collapsed. -/
def instrumental : AffixTable Regions :=
  .ofRows "instrum" .backward
    [("al", -1, 1), ("el", -1, 2)]

/-- The general case endings. -/
def cases : AffixTable Regions :=
  .ofRows "case" .backward
    [("ba", -1, 1), ("ra", -1, 1), ("be", -1, 1), ("re", -1, 1), ("ig", -1, 1), ("nak", -1, 1),
    ("nek", -1, 1), ("val", -1, 1), ("vel", -1, 1), ("ul", -1, 1), ("nál", -1, 1),
    ("nél", -1, 1), ("ból", -1, 1), ("ról", -1, 1), ("tól", -1, 1), ("bõl", -1, 1),
    ("rõl", -1, 1), ("tõl", -1, 1), ("ül", -1, 1), ("n", -1, 1), ("an", 19, 1), ("ban", 20, 1),
    ("en", 19, 1), ("ben", 22, 1), ("képpen", 22, 1), ("on", 19, 1), ("ön", 19, 1),
    ("képp", -1, 1), ("kor", -1, 1), ("t", -1, 1), ("at", 29, 1), ("et", 29, 1), ("ként", 29, 1),
    ("anként", 32, 1), ("enként", 32, 1), ("onként", 32, 1), ("ot", 29, 1), ("ért", 29, 1),
    ("öt", 29, 1), ("hez", -1, 1), ("hoz", -1, 1), ("höz", -1, 1), ("vá", -1, 1), ("vé", -1, 1)]

/-- Case endings that lengthen the stem vowel. -/
def specialCases : AffixTable Regions :=
  .ofRows "case_special" .backward
    [("án", -1, 2), ("én", -1, 1), ("ánként", -1, 3)]

/-- Case endings that include the stem vowel. -/
def otherCases : AffixTable Regions :=
  .ofRows "case_other" .backward
    [("stul", -1, 2), ("astul", 0, 1), ("ástul", 0, 3), ("stül", -1, 2), ("estül", 3, 1),
    ("éstül", 3, 4)]

/-- Factive endings, after which a doubled consonant is collapsed. -/
def factive : AffixTable Regions :=
  .ofRows "factive" .backward
    [("á", -1, 1), ("é", -1, 2)]

/-- Plural endings. -/
def plurals : AffixTable Regions :=
  .ofRows "plural" .backward
    [("k", -1, 7), ("ak", 0, 4), ("ek", 0, 6), ("ok", 0, 5), ("ák", 0, 1), ("ék", 0, 2),
    ("ök", 0, 3)]

/-- Endings of something owned. -/
def owned : AffixTable Regions :=
  .ofRows "owned" .backward
    [("éi", -1, 7), ("áéi", 0, 6), ("ééi", 0, 5), ("é", -1, 9), ("ké", 3, 4), ("aké", 4, 1),
    ("eké", 4, 1), ("oké", 4, 1), ("áké", 4, 3), ("éké", 4, 2), ("öké", 4, 1), ("éé", 3, 8)]

/-- Endings of something whose single thing is owned. -/
def singularOwner : AffixTable Regions :=
  .ofRows "sing_owner" .backward
    [("a", -1, 18), ("ja", 0, 17), ("d", -1, 16), ("ad", 2, 13), ("ed", 2, 13), ("od", 2, 13),
    ("ád", 2, 14), ("éd", 2, 15), ("öd", 2, 13), ("e", -1, 18), ("je", 9, 17), ("nk", -1, 4),
    ("unk", 11, 1), ("ánk", 11, 2), ("énk", 11, 3), ("ünk", 11, 1), ("uk", -1, 8),
    ("juk", 16, 7), ("ájuk", 17, 5), ("ük", -1, 8), ("jük", 19, 7), ("éjük", 20, 6),
    ("m", -1, 12), ("am", 22, 9), ("em", 22, 9), ("om", 22, 9), ("ám", 22, 10), ("ém", 22, 11),
    ("o", -1, 18), ("á", -1, 19), ("é", -1, 20)]

/-- Endings of several owned things. -/
def pluralOwner : AffixTable Regions :=
  .ofRows "plur_owner" .backward
    [("id", -1, 10), ("aid", 0, 9), ("jaid", 1, 6), ("eid", 0, 9), ("jeid", 3, 6), ("áid", 0, 7),
    ("éid", 0, 8), ("i", -1, 15), ("ai", 7, 14), ("jai", 8, 11), ("ei", 7, 14), ("jei", 10, 11),
    ("ái", 7, 12), ("éi", 7, 13), ("itek", -1, 24), ("eitek", 14, 21), ("jeitek", 15, 20),
    ("éitek", 14, 23), ("ik", -1, 29), ("aik", 18, 26), ("jaik", 19, 25), ("eik", 18, 26),
    ("jeik", 21, 25), ("áik", 18, 27), ("éik", 18, 28), ("ink", -1, 20), ("aink", 25, 17),
    ("jaink", 26, 16), ("eink", 25, 17), ("jeink", 28, 16), ("áink", 25, 18), ("éink", 25, 19),
    ("aitok", -1, 21), ("jaitok", 32, 20), ("áitok", -1, 22), ("im", -1, 5), ("aim", 35, 4),
    ("jaim", 36, 1), ("eim", 35, 4), ("jeim", 38, 1), ("áim", 35, 2), ("éim", 35, 3)]

end WordStem.Hungarian
