import WordStem.EscapedTable

/-! # Quoted text

Text in double quotes, as it is shown in descriptions and error messages. Quotes, backslashes
and the common control characters are written with a backslash, other characters that could not
be seen by their code point in braces. -/
namespace WordStem

/-- The hexadecimal digits of a number, without leading zeros. -/
def hexadecimal (value : Nat) : List Char :=
  Nat.toDigits 16 value

def quotedCharacter (character : Char) : List Char :=
  if character = '"' then ['\\', '"']
  else if character = '\\' then ['\\', '\\']
  else if character = '\n' then ['\\', 'n']
  else if character = '\r' then ['\\', 'r']
  else if character = '\t' then ['\\', 't']
  else if character = '\x00' then ['\\', '0']
  else if escapedCodePoints.contains character then
    ['\\', 'u', '\x7b'] ++ hexadecimal character.toNat ++ ['\x7d']
  else [character]

def quoted (text : String) : String :=
  String.ofList (['"'] ++ text.toList.flatMap quotedCharacter ++ ['"'])

end WordStem
