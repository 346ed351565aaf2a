import WordStem.Language

/-! # Stop words

Words that are too common to tell texts apart. Only some languages have a list; each list is in
ascending order. -/
namespace WordStem

def englishStopWords : List String :=
  ["a", "an", "and", "are", "as", "at", "be", "but", "by", "for", "if", "in", "into", "is",
    "it", "no", "not", "of", "on", "or", "such", "that", "the", "their", "then", "there",
    "these", "they", "this", "to", "was", "will", "with"]

def hungarianStopWords : List String :=
  ["a", "ami", "az", "azt", "csak", "de", "egy", "ez", "ezt", "ha", "hogy", "is", "itt",
    "között", "lesz", "meg", "mert", "mint", "már", "még", "nagyon", "nem", "ott", "pedig",
    "sem", "után", "vagy", "van", "volt", "által", "és"]

def Language.stopWords? : Language → Option (List String)
  | english => some englishStopWords
  | hungarian => some hungarianStopWords
  | _ => none

end WordStem
