import WordStem.HungarianAffixes

/-! # The Hungarian program

The program strips, in this order, the instrumental case, the general case endings, two groups
of special case endings, the factive, the owner markers and the plural. A suffix is touched only
when it starts inside the region R1, which begins after the first vowel of a word that starts
with a consonant, and after the first consonant or digraph of a word that starts with a vowel. -/
namespace WordStem.Hungarian

/-- Steps over the vowels that a word starts with and over the consonant or digraph after
them. -/
def skipVowelsAndConsonant : RuleM Regions Bool := do
  if !(← RuleM.scan fun buffer => buffer.inSet? .forward vowels) then
    return false
  if !(← RuleM.scan fun buffer => buffer.seek? fun character => !vowels.contains character) then
    return false
  if (← digraphs.find .forward) = 0 then
    RuleM.scan fun buffer => buffer.next? .forward
  else
    return true

/-- Steps over the consonants that a word starts with and over the vowel after them. -/
def skipConsonantsAndVowel : RuleM Regions Bool := do
  if !(← RuleM.scan fun buffer => buffer.outSet? .forward vowels) then
    return false
  if !(← RuleM.scan fun buffer => buffer.seek? vowels.contains) then
    return false
  RuleM.scan fun buffer => buffer.next? .forward

def beginR1 : RuleM Regions Bool := do
  let marked ← RuleM.buffer
  RuleM.modifyContext fun _ => { r1 := marked.cursor }
  return true

/-- Finds where R1 begins; without a region it begins at the end of the word. -/
def markRegions : RuleM Regions Bool := do
  let start ← RuleM.buffer
  RuleM.modifyContext fun _ => { r1 := start.limit }
  if ← skipVowelsAndConsonant then
    beginR1
  else
    RuleM.modifyBuffer fun buffer => buffer.moveTo start.cursor
    if ← skipConsonantsAndVowel then
      beginR1
    else
      return false

def insideR1 (buffer : WordBuffer) (regions : Regions) : Bool :=
  regions.r1 ≤ buffer.cursor

/-- Shortens the vowel that a case ending had lengthened. -/
def shortenVowel : SuffixRule Regions where
  table := vowelEndings
  region := insideR1
  outcome := .byTag [.replace "a", .replace "e"]

/-- A step that works on the suffixes of a table inside R1. -/
def suffixStep (name : String) (table : AffixTable Regions) (outcome : Outcome Regions) :
    Step Regions where
  name := name
  rule := .suffix { table, region := insideR1, outcome }

abbrev del : Action Regions := .delete

abbrev toA : Action Regions := .replace "a"

abbrev toE : Action Regions := .replace "e"

def steps : List (Step Regions) :=
  [suffixStep "instrum" instrumental (.always .undouble),
    suffixStep "case" cases (.always (.deleteThen shortenVowel)),
    suffixStep "case_special" specialCases (.byTag [toE, toA, toA]),
    suffixStep "case_other" otherCases (.byTag [del, del, toA, toE]),
    suffixStep "factive" factive (.always .undouble),
    suffixStep "owned" owned (.byTag [del, toE, toA, del, toE, toA, del, toE, del]),
    suffixStep "sing_owner" singularOwner
      (.byTag
        [del, toA, toE, del, toA, toE, del, del, del, toA, toE, del, del, toA, toE, del, del, del,
          toA, toE]),
    suffixStep "plur_owner" pluralOwner
      (.byTag
        [del, toA, toE, del, del, del, toA, toE, del, del, del, toA, toE, del, del, del, del, toA,
          toE, del, del, toA, toE, del, del, del, toA, toE, del]),
    suffixStep "plural" plurals (.byTag [toA, toE, del, del, del, del, del])]

def program : RuleProgram Regions where
  name := "hungarian"
  markRegions := markRegions
  doubles? := some doubles
  tables :=
    [digraphs, vowelEndings, doubles, instrumental, cases, specialCases, otherCases, factive,
      plurals, owned, singularOwner, pluralOwner]
  steps := steps

end WordStem.Hungarian
