/-! # Languages

The languages that can be named, and what stems each of them. -/
namespace WordStem

/-- What backs the stemmer of a language. -/
inductive Engine where
  /-- A rule program of this library. -/
  | snowball
  /-- A stemmer that is supplied from outside. -/
  | library
  /-- No stemming. -/
  | identity
deriving DecidableEq, Repr

def Engine.name : Engine → String
  | snowball => "snowball"
  | library => "library"
  | identity => "identity"

/-- The languages that can be named. -/
inductive Language where
  | hungarian
  | danish
  | dutch
  | english
  | estonian
  | finnish
  | french
  | german
  | italian
  | norwegian
  | portuguese
  | romanian
  | russian
  | spanish
  | swedish
  | turkish
deriving DecidableEq, Repr

namespace Language

/-- All languages in the order in which they are listed. -/
def all : List Language :=
  [hungarian, danish, dutch, english, estonian, finnish, french, german, italian, norwegian,
    portuguese, romanian, russian, spanish, swedish, turkish]

def name : Language → String
  | hungarian => "hungarian"
  | danish => "danish"
  | dutch => "dutch"
  | english => "english"
  | estonian => "estonian"
  | finnish => "finnish"
  | french => "french"
  | german => "german"
  | italian => "italian"
  | norwegian => "norwegian"
  | portuguese => "portuguese"
  | romanian => "romanian"
  | russian => "russian"
  | spanish => "spanish"
  | swedish => "swedish"
  | turkish => "turkish"

def engine : Language → Engine
  | hungarian => .snowball
  | estonian => .identity
  | _ => .library

def ofName? (name : String) : Option Language :=
  all.find? fun language => language.name == name

def supportedNames : String :=
  String.intercalate ", " (all.map name)

end Language

end WordStem
