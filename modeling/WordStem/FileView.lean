import WordStem.QuotedText

/-! # Files seen by the program

What a program can learn of the files around it: the content of the file at a path, or why it
cannot be read. A path need not be a text, so how it is shown is a part of the view. -/
namespace WordStem

/-- Why a file cannot be read or written. -/
inductive FileRefusal where
  /-- There is nothing at the path, or no directory to hold it. -/
  | missing
  /-- The path leads to a directory. -/
  | isDirectory
  /-- The path goes on below a file. -/
  | notDirectory
  /-- The path or one of the names in it is too long. -/
  | nameTooLong
  /-- The path holds a NUL character. -/
  | nulCharacter
  /-- The content is not text in UTF-8. -/
  | notText
  /-- Any other reason, as the system words it. -/
  | other (reason : String)
deriving DecidableEq, Repr

def FileRefusal.reason : FileRefusal → String
  | missing => "No such file or directory (os error 2)"
  | isDirectory => "Is a directory (os error 21)"
  | notDirectory => "Not a directory (os error 20)"
  | nameTooLong => "File name too long (os error 36)"
  | nulCharacter => "file name contained an unexpected NUL byte"
  | notText => "stream did not contain valid UTF-8"
  | other reason => reason

/-- The content of the file at each path, whether there is a file at all, and how the path is
shown, plainly and in quotes. The system may hide from the one question what it tells on the other:
a file that cannot be read is still a file. -/
structure FileView (Path : Type) where
  readBytes : Path → Except FileRefusal ByteArray
  isFile : Path → Bool
  shown : Path → String
  quoted : Path → String

/-- A view of files whose paths are texts, where every file can be read. -/
def FileView.ofTexts (readBytes : String → Except FileRefusal ByteArray) : FileView String where
  readBytes := readBytes
  isFile path := (readBytes path).isOk
  shown path := path
  quoted path := WordStem.quoted path

def decodeText (bytes : ByteArray) : Except FileRefusal String :=
  match String.fromUTF8? bytes with
  | some text => .ok text
  | none => .error .notText

/-- Bytes up to the last line break in them. -/
def completeLines (bytes : ByteArray) : ByteArray :=
  (bytes.data.toList.reverse.dropWhile (· != 10)).reverse.toByteArray

def FileView.readText {Path : Type} (files : FileView Path) (path : Path) :
    Except FileRefusal String :=
  files.readBytes path >>= decodeText

theorem decodeText_toUTF8 (text : String) : decodeText text.toUTF8 = .ok text := by
  simp [decodeText, String.fromUTF8?, String.fromUTF8, text.isValidUTF8]

end WordStem
