import WordStem.CharacterRuns
import WordStem.FileView

/-! # Tables of files

A working directory with everything below it, held in memory. Paths are followed name by name, as
a file system does: only a directory has names below it, `.` stays in it and `..` leaves it. -/
namespace WordStem

/-- What can be found at a place. -/
inductive FileEntry where
  | file (bytes : ByteArray)
  | directory

/-- The name of the working directory, and the entries below it. Each entry is known by the names
that lead to it from the working directory. -/
structure FileTable where
  directory : String
  entries : List (List String × FileEntry)

namespace FileTable

def root : List String := ["/"]

/-- What is found at a place. The working directory, the directories above it and the root
directory are always there. -/
def find? (table : FileTable) (place : List String) : Option FileEntry :=
  if place.all (· == "..") || place == root then some .directory
  else table.entries.lookup place

def above (place : List String) : List String :=
  if place = root then root
  else if place.all (· == "..") then place ++ [".."]
  else place.dropLast

def longestName : Nat := 255

/-- Goes from a place to the one that a name leads to. There need not be anything there, but a
name can only be followed from a directory. -/
def enter (table : FileTable) (place : List String) (name : String) :
    Except FileRefusal (List String) :=
  match table.find? place with
  | none => .error .missing
  | some (.file _) => .error .notDirectory
  | some .directory =>
    if name = "." then .ok place
    else if name = ".." then .ok (above place)
    else if longestName < name.utf8ByteSize then .error .nameTooLong
    else .ok (place ++ [name])

def follow (table : FileTable) : List String → List String → Except FileRefusal (List String)
  | place, [] => .ok place
  | place, name :: names => do
    let next ← table.enter place name
    table.follow next names

def start (table : FileTable) (path : List Char) : List String × List Char :=
  let inside := table.directory.toList ++ ['/']
  if inside.isPrefixOf path then ([], path.drop inside.length)
  else if path.head? = some '/' then (root, path)
  else ([], path)

def pathLimit : Nat := 4096

def place (table : FileTable) (path : String) : Except FileRefusal (List String) :=
  if path.toList.contains '\x00' then .error .nulCharacter
  else if path = "" then .error .missing
  else if pathLimit ≤ path.utf8ByteSize then .error .nameTooLong
  else
    let (origin, rest) := table.start path.toList
    table.follow origin ((runs (· != '/') rest).map String.ofList)

def endsWithSlash (path : String) : Bool :=
  path.toList.getLast? == some '/'

def readBytes (table : FileTable) (path : String) : Except FileRefusal ByteArray := do
  let place ← table.place path
  match table.find? place with
  | none => .error .missing
  | some .directory => .error .isDirectory
  | some (.file bytes) => if endsWithSlash path then .error .notDirectory else .ok bytes

def view (table : FileTable) : FileView String :=
  .ofTexts table.readBytes

/-- Puts an entry at a place, in place of what is there. -/
def insert (table : FileTable) (place : List String) (entry : FileEntry) : FileTable :=
  { table with entries := (place, entry) :: table.entries.filter fun other => other.1 != place }

def writeText (table : FileTable) (path text : String) : Except FileRefusal FileTable := do
  let place ← table.place path
  match table.find? place with
  | some .directory => .error .isDirectory
  | _ =>
    if endsWithSlash path then .error .isDirectory
    else .ok (table.insert place (.file text.toUTF8))

/-- Adds a file under the names that lead to it, with the directories on the way. -/
def addFile (table : FileTable) (names : List String) (bytes : ByteArray) : FileTable :=
  let directories := (List.range (names.length - 1)).map fun count => names.take (count + 1)
  (directories.foldl (fun table place => table.insert place .directory) table).insert names
    (.file bytes)

/-- The table of files with the given paths below a working directory. -/
def ofFiles (directory : String) (files : List (String × ByteArray)) : FileTable :=
  files.foldl (fun table file =>
    table.addFile ((runs (· != '/') file.1.toList).map String.ofList) file.2)
    { directory, entries := [] }

end FileTable

end WordStem
