import Mathlib.Algebra.Group.Nat.Defs
import WordStem.CommandLine
import WordStem.Proofs.CallSteps
import WordStem.Proofs.LanguageStemmers
import WordStem.Proofs.TextLines

/-! # What a call checks

A call makes its checks in a fixed order: the settings, the name of the language, the number of
files, and then file after file or line after line of the input. The checks say what they look at by
themselves, and not by what the program does. Every stage of a call is shown to end as the first of
its own checks that does not pass, and the lemmas on steps put the stages together. Main result:
`performs_perform`, that a call does what it is asked for unless one of its checks ends it, and that
it has printed nothing then. -/
namespace WordStem

variable {Path : Type}

/-! ## What the checks look at -/

namespace FileView

/-- Why no text can be read at a path. -/
def refusal? (files : FileView Path) (path : Path) : Option FileRefusal :=
  match files.readBytes path with
  | .error refusal => some refusal
  | .ok bytes =>
    match String.fromUTF8? bytes with
    | none => some .notText
    | some _ => none

/-- The entries of the TOML document at a path. -/
def entries? (files : FileView Path) (path : Path) : Option (List (String × Toml.Value)) := do
  Toml.read? (← String.fromUTF8? (← (files.readBytes path).toOption))

/-- The settings at a path, whether they make sense or not. -/
def settings? (files : FileView Path) (path : Path) : Option Configuration := do
  Configuration.read? .toml (.table .headed (← files.entries? path))

end FileView

/-- Where a call has settings from, if it has any: the path that is named, or else the usual one if
there is a file. -/
def Invocation.settingsPath? (sources : Sources Path) (invocation : Invocation Path) :
    Option Path :=
  match invocation.configurationPath?, sources.settingsPath with
  | some path, _ => some path
  | none, .ok path => if sources.files.isFile path then some path else none
  | none, .error _ => none

/-- The room that every vector of a call starts with. -/
def Invocation.room (sources : Sources Path) (invocation : Invocation Path) : Nat :=
  let settings? := invocation.settingsPath? sources >>= sources.files.settings?
  (settings?.getD .default).vector.initialCapacity

/-- The arguments in front of the first one that is not a text. -/
def textsInFront : List (Option String) → List String
  | some argument :: rest => argument :: textsInFront rest
  | _ => []

/-- What can be wrong with a call. -/
inductive Check (Path : Type) where
  /-- The arguments are texts, at least up to a request for JSON. -/
  | arguments (handed : List (Option String))
  /-- The working directory is known. -/
  | directory
  /-- The file of the settings can be read. -/
  | settingsFile (path : Path)
  /-- The file of the settings holds settings. -/
  | settingsText (path : Path)
  /-- The settings make sense. -/
  | settingsSense (path : Path)
  | languageName (name : String)
  | fileCount (paths : List Path)
  /-- The file of a document can be read. -/
  | file (path : Path)
  /-- There can be so much room for a document. -/
  | room (count : Nat)
  | inputLine (line : ByteArray)
  /-- The input has an end. -/
  | inputEnd

/-- How a call ends at a check, if it does not pass. -/
def Check.stop? (sources : Sources Path) (check : Check Path) : Option Stop :=
  let { files, .. } := sources
  match check with
  | arguments handed =>
    if none ∈ handed ∧ asksForJson (textsInFront handed) = false then
      some (.brokenOff "an argument is not a text")
    else none
  | directory =>
    match sources.settingsPath with
    | .ok _ => none
    | .error refusal => some (.failed (.inputOutput refusal.reason))
  | settingsFile path =>
    (files.refusal? path).map fun refusal =>
      .failed (.failedOperation "read config" (files.shown path) refusal.reason)
  | settingsText path =>
    match files.entries? path, files.settings? path with
    | none, _ => some (.failed (.toml "the text is not a TOML document"))
    | some _, none => some (.failed (.toml "a setting has a value that it cannot have"))
    | some _, some _ => none
  | settingsSense path =>
    match (files.settings? path).map Configuration.minimumTokenLength with
    | some 0 =>
      some (.failed (.invalidConfiguration (files.shown path)
        "invalid min_token_len (must be at least 1): 0" (files.quoted path)))
    | _ => none
  | languageName name =>
    let written := String.ofList (lowercase (trimWhiteSpace name.toList))
    if Language.all.any fun language => language.name == written then none
    else some (.failed (.unknownLanguage name))
  | fileCount paths =>
    if paths.length < 2 then some (.failed (.usage "similar needs at least two files")) else none
  | file path =>
    (files.refusal? path).map fun refusal =>
      .failed (.failedOperation "read" (files.shown path) refusal.reason)
  | room count => if 2 ^ 60 ≤ count then some (.brokenOff "capacity overflow") else none
  | inputLine line =>
    match String.fromUTF8? line with
    | none => some (.failed (.inputOutput FileRefusal.notText.reason))
    | some _ => none
  | inputEnd => sources.inputRefusal?.map fun refusal => .failed (.inputOutput refusal.reason)

/-! ## The order of the checks -/

def settingsFileChecks (path : Path) : List (Check Path) :=
  [.settingsFile path, .settingsText path, .settingsSense path]

def Invocation.settingsChecks (sources : Sources Path) (invocation : Invocation Path) :
    List (Check Path) :=
  (if invocation.configurationPath?.isNone then [.directory] else []) ++
    (invocation.settingsPath? sources).toList.flatMap settingsFileChecks

/-- The checks of the lines of the input. A line behind which nothing can be read is not a line. -/
def inputChecks (sources : Sources Path) : List (Check Path) :=
  let whole := lines sources.standardInput
  let complete := if sources.inputRefusal?.isSome then whole.dropLast else whole
  complete.map .inputLine ++ [.inputEnd]

def fileChecks (room : Nat) (path : Path) : List (Check Path) :=
  [.file path, .room room]

def Command.checks (sources : Sources Path) (room : Nat) (command : Command Path) :
    List (Check Path) :=
  match command with
  | languages => []
  | stem [] _ => inputChecks sources
  | stem (_ :: _) _ => []
  | vectorize request => request.paths.flatMap (fileChecks room)
  | similar request _ _ => .fileCount request.paths :: request.paths.flatMap (fileChecks room)

/-- The checks of a call in their order. -/
def Invocation.checks (sources : Sources Path) (invocation : Invocation Path) :
    List (Check Path) :=
  invocation.settingsChecks sources ++ (invocation.language?.toList.map .languageName ++
    invocation.command?.toList.flatMap (Command.checks sources (invocation.room sources)))

/-- How the first check ends a call that does not pass. -/
def firstStop? (sources : Sources Path) (checks : List (Check Path)) : Option Stop :=
  checks.findSome? (Check.stop? sources)

variable {sources : Sources Path} {invocation : Invocation Path}

theorem firstStop?_cons (check : Check Path) (checks : List (Check Path)) :
    firstStop? sources (check :: checks) =
      (check.stop? sources).or (firstStop? sources checks) := by
  unfold firstStop?
  rw [List.findSome?_cons]
  cases check.stop? sources <;> rfl

theorem firstStop?_append (earlier later : List (Check Path)) :
    firstStop? sources (earlier ++ later) =
      (firstStop? sources earlier).or (firstStop? sources later) :=
  List.findSome?_append

theorem firstStop?_flatMap {ι : Type} (items : List ι) (checks : ι → List (Check Path)) :
    firstStop? sources (items.flatMap checks) =
      items.findSome? fun item => firstStop? sources (checks item) := by
  induction items with
  | nil => rfl
  | cons item items ih =>
    rw [List.flatMap_cons, firstStop?_append, ih, List.findSome?_cons]
    cases firstStop? sources (checks item) <;> rfl

/-! ## The settings -/

open CallM

theorem reads_ofExcept {α : Type} {result : Except Failure α} {known : α → Prop}
    {stop? : Option Stop}
    (ends : match result with
      | .ok value => known value ∧ stop? = none
      | .error failure => stop? = some (.failed failure)) :
    (ofExcept result).Reads known stop? := by
  cases result with
  | ok value =>
    obtain ⟨holds, rfl⟩ := ends
    exact reads_pure holds
  | error failure =>
    obtain rfl : stop? = _ := ends
    exact reads_fail failure

/-- A text is read or refused, and what is read is what settings are looked for in. -/
theorem FileView.readText_cases (files : FileView Path) (path : Path) :
    (∃ refusal, files.readText path = .error refusal ∧ files.refusal? path = some refusal) ∨
      ∃ text, files.readText path = .ok text ∧ files.refusal? path = none ∧
        files.entries? path = Toml.read? text := by
  unfold readText refusal? entries?
  cases files.readBytes path with
  | error refusal => exact .inl ⟨refusal, rfl, rfl⟩
  | ok bytes =>
    simp only [bind, Except.bind, Except.toOption, Option.bind, decodeText]
    cases String.fromUTF8? bytes with
    | none => exact .inl ⟨.notText, rfl, rfl⟩
    | some text => exact .inr ⟨text, rfl, rfl, rfl⟩

theorem reads_load (path : Path) :
    (ofExcept (Configuration.load sources.files path)).Reads
      (fun configuration => sources.files.settings? path = some configuration)
      (firstStop? sources (settingsFileChecks path)) := by
  apply reads_ofExcept
  obtain ⟨refusal, read, refused⟩ | ⟨text, read, notRefused, entriesEq⟩ :=
    sources.files.readText_cases path
  · simp only [Configuration.load, read, settingsFileChecks, firstStop?_cons, Check.stop?, refused]
    rfl
  · have settingsEq : sources.files.settings? path =
        Toml.read? text >>= fun entries => Configuration.read? .toml (.table .headed entries) := by
      rw [FileView.settings?, entriesEq]
    simp only [Configuration.load, read, bind, Except.bind, Configuration.ofToml,
      settingsFileChecks, firstStop?_cons, Check.stop?, notRefused, entriesEq, settingsEq]
    cases Toml.read? text with
    | none => rfl
    | some entries =>
      simp only [Option.bind_some]
      cases Configuration.read? .toml (.table .headed entries) with
      | none => rfl
      | some configuration =>
        by_cases zero : configuration.minimumTokenLength = 0
        · simp [Configuration.validate, zero]
          rfl
        · simp [Configuration.validate, zero, firstStop?]

theorem reads_readSettings :
    (CommandLine.readSettings sources invocation).Reads
      (fun configuration => configuration.vector.initialCapacity = invocation.room sources)
      (firstStop? sources (invocation.settingsChecks sources)) := by
  have loads (path : Path) (isHere : invocation.settingsPath? sources = some path) :
      (ofExcept (Configuration.load sources.files path)).Reads
        (fun configuration => configuration.vector.initialCapacity = invocation.room sources)
        (firstStop? sources (settingsFileChecks path)) := by
    apply (reads_load path).weaken
    intro configuration found
    simp only [Invocation.room, isHere, Option.bind_eq_bind, Option.bind_some, found,
      Option.getD_some]
  unfold CommandLine.readSettings Invocation.settingsChecks
  cases named : invocation.configurationPath? with
  | some path =>
    have isHere : invocation.settingsPath? sources = some path := by
      simp only [Invocation.settingsPath?, named]
    rw [isHere, Option.toList_some, List.flatMap_singleton]
    exact loads path isHere
  | none =>
    rw [Option.isNone_none, if_pos rfl, List.singleton_append, firstStop?_cons, Check.stop?]
    cases known : sources.settingsPath with
    | error refusal => exact reads_fail _
    | ok path =>
      dsimp only
      rw [Option.none_or, Configuration.loadIfFile]
      split
      case isTrue isFile =>
        have isHere : invocation.settingsPath? sources = some path := by
          simp only [Invocation.settingsPath?, named, known, if_pos isFile]
        rw [isHere, Option.toList_some, List.flatMap_singleton]
        exact loads path isHere
      case isFalse noFile =>
        have nowhere : invocation.settingsPath? sources = none := by
          simp only [Invocation.settingsPath?, named, known, if_neg noFile]
        rw [nowhere]
        apply reads_pure
        rw [Invocation.room, nowhere]
        rfl

/-- A name means a language exactly if it is, in the form in which it is read, the name of one. -/
theorem reads_parse (name : String) :
    (ofExcept (Language.parse name)).Reads (fun _ => True)
      ((Check.languageName name).stop? sources) := by
  apply reads_ofExcept
  rw [Language.parse, Check.stop?, Language.ofName?]
  generalize String.ofList (lowercase (trimWhiteSpace name.toList)) = written
  cases found : Language.all.find? fun language => language.name == written with
  | none =>
    have noName : (Language.all.any fun language => language.name == written) = false := by
      simpa only [List.any_eq_false, Bool.not_eq_true] using List.find?_eq_none.mp found
    rw [noName]
    rfl
  | some language =>
    have isName : (Language.all.any fun language => language.name == written) = true := by
      have nameEq := List.find?_some found
      exact List.any_eq_true.mpr ⟨language, List.mem_of_find?_eq_some found, nameEq⟩
    rw [isName]
    exact ⟨trivial, rfl⟩

theorem reads_resolveConfiguration (sources : Sources Path) (invocation : Invocation Path) :
    (CommandLine.resolveConfiguration sources invocation).Reads
      (fun configuration => configuration.vector.initialCapacity = invocation.room sources)
      (firstStop? sources (invocation.settingsChecks sources ++
        invocation.language?.toList.map .languageName)) := by
  unfold CommandLine.resolveConfiguration
  rw [firstStop?_append]
  apply reads_readSettings.bind
  intro configuration roomEq
  cases invocation.language? with
  | none => exact reads_pure roomEq
  | some name =>
    rw [Option.toList_some, List.map_singleton, firstStop?_cons]
    apply (reads_parse name).bind
    intro language _
    exact reads_pure roomEq

/-! ## The input -/

theorem stop?_inputLine_of_decodes {line : ByteArray}
    (decodes : ∃ text, decodeText line = .ok text) :
    (Check.inputLine line).stop? sources = none := by
  obtain ⟨text, decodesTo⟩ := decodes
  rw [Check.stop?]
  cases decoded : String.fromUTF8? line with
  | none =>
    rw [decodeText, decoded] at decodesTo
    cases decodesTo
  | some text => rfl

theorem stop?_inputLine_of_not_decodes {line : ByteArray}
    (noText : ¬ ∃ text, decodeText line = .ok text) :
    (Check.inputLine line).stop? sources =
      some (.failed (.inputOutput FileRefusal.notText.reason)) := by
  rw [Check.stop?]
  cases decoded : String.fromUTF8? line with
  | none => rfl
  | some text => exact absurd ⟨text, by rw [decodeText, decoded]⟩ noText

theorem firstStop?_inputLines (sources : Sources Path) (parts : List ByteArray) :
    (∀ line ∈ parts, ∃ text, decodeText line = .ok text) ∧
        firstStop? sources (parts.map .inputLine) = none ∨
      ¬ (∀ line ∈ parts, ∃ text, decodeText line = .ok text) ∧
        firstStop? sources (parts.map .inputLine) =
          some (.failed (.inputOutput FileRefusal.notText.reason)) := by
  induction parts with
  | nil =>
    left
    exact ⟨by simp, rfl⟩
  | cons line parts ih =>
    rw [List.map_cons, firstStop?_cons, List.forall_mem_cons]
    by_cases decodes : ∃ text, decodeText line = .ok text
    · rw [stop?_inputLine_of_decodes decodes, Option.none_or]
      simpa only [decodes, true_and] using ih
    · rw [stop?_inputLine_of_not_decodes decodes, Option.some_or]
      right
      exact ⟨fun allDecode => decodes allDecode.1, rfl⟩

/-- Bytes are decoded as a whole, which fails exactly if decoding them line by line does. -/
theorem reads_decodeInput (bytes : ByteArray) :
    (CommandLine.decodeInput bytes).Reads (fun _ => True)
      (firstStop? sources ((lines bytes).map .inputLine)) := by
  obtain ⟨decodes, firstEq⟩ | ⟨noText, firstEq⟩ := firstStop?_inputLines sources (lines bytes)
  · obtain ⟨text, decoded⟩ := decodes_iff_lines.mpr decodes
    rw [firstEq, CommandLine.decodeInput, decoded]
    exact reads_pure trivial
  · rw [← decodes_iff_lines] at noText
    rw [firstEq, CommandLine.decodeInput, decodeText_eq_error noText]
    exact reads_fail _

theorem reads_readInput :
    (CommandLine.readInput sources).Reads (fun _ => True)
      (firstStop? sources (inputChecks sources)) := by
  have endEq : firstStop? sources [.inputEnd] =
      sources.inputRefusal?.map fun refusal => .failed (.inputOutput refusal.reason) := by
    rw [firstStop?_cons, Check.stop?]
    exact Option.or_none
  unfold CommandLine.readInput inputChecks
  rw [firstStop?_append, endEq]
  cases sources.inputRefusal? with
  | none =>
    rw [Option.map_none, Option.or_none]
    exact reads_decodeInput _
  | some refusal =>
    have complete :
        firstStop? sources ((lines (completeLines sources.standardInput)).map .inputLine) =
          firstStop? sources ((lines sources.standardInput).dropLast.map .inputLine) := by
      have nothing : (Check.inputLine [].toByteArray).stop? sources = none :=
        stop?_inputLine_of_decodes ⟨"", rfl⟩
      rw [lines_completeLines, List.map_append, firstStop?_append, List.map_singleton,
        firstStop?_cons, nothing]
      exact Option.or_none
    rw [Option.isSome_some, if_pos rfl, ← complete]
    apply (reads_decodeInput _).bind
    intro text _
    exact reads_fail _

theorem reads_wordsToStem (given : List String) (lowercased : Bool) (room : Nat) :
    (CommandLine.wordsToStem sources given).Reads (fun _ => True)
      (firstStop? sources ((Command.stem given lowercased).checks sources room)) := by
  cases given with
  | cons word given => exact reads_pure trivial
  | nil =>
    have stopEq : firstStop? sources ((Command.stem [] lowercased).checks sources room) =
        (firstStop? sources (inputChecks sources)).or none := Option.or_none.symm
    rw [stopEq]
    apply reads_readInput.bind
    intro text _
    exact reads_pure trivial

/-! ## The files -/

/-- A document is added behind those before it, if there can be room for it. -/
theorem reads_addDocument (sources : Sources Path) {room : Nat} {documents : DocumentVectors}
    (terms : List String) (roomEq : documents.initialCapacity = room) :
    (CommandLine.addDocument documents terms).Reads
      (fun added => added.initialCapacity = room ∧ added.counts.size = documents.counts.size + 1)
      (Check.stop? sources (.room room)) := by
  have largestEq : SparseMapping.largestRoom < documents.initialCapacity ↔ 2 ^ 60 ≤ room := by
    rw [roomEq, SparseMapping.largestRoom, Nat.pow_eq]
    omega
  rw [CommandLine.addDocument, Check.stop?]
  simp only [largestEq]
  split
  · exact reads_breakOff _
  · apply reads_pure
    exact ⟨roomEq, Array.size_push _⟩

theorem reads_readDocument {room : Nat} {options : TokenOptions} {stemmed : Bool} (path : Path)
    {reading : CommandLine.DocumentReading} (roomEq : reading.1.initialCapacity = room) :
    (CommandLine.readDocument sources.files options stemmed reading path).Reads
      (fun next => next.1.initialCapacity = room ∧ next.1.counts.size = reading.1.counts.size + 1)
      (firstStop? sources (fileChecks room path)) := by
  have added (terms : List String) := reads_addDocument sources terms roomEq
  rw [fileChecks, firstStop?_cons, firstStop?_cons, Check.stop?]
  unfold CommandLine.readDocument
  obtain ⟨refusal, read, refused⟩ | ⟨text, read, notRefused, -⟩ :=
    sources.files.readText_cases path
  · rw [refused]
    simp only [read]
    exact reads_fail _
  · rw [notRefused]
    simp only [read, Option.map_none, Option.none_or]
    apply (added _).bind
    intro next holds
    exact reads_pure holds

/-- However many files are read, the first one that cannot be read or added ends the call. -/
theorem reads_readDocuments {room : Nat} (options : TokenOptions) (stemmed : Bool)
    {reading : CommandLine.DocumentReading} (roomEq : reading.1.initialCapacity = room)
    (noneRead : reading.1.counts.size = 0) (paths : List Path) :
    (paths.foldlM (CommandLine.readDocument sources.files options stemmed) reading).Reads
      (fun next => next.1.counts.size = paths.length)
      (firstStop? sources (paths.flatMap (fileChecks room))) := by
  rw [firstStop?_flatMap]
  have counted (visited : List Path) (next : CommandLine.DocumentReading) (path : Path)
      (holds : next.1.initialCapacity = room ∧ next.1.counts.size = visited.length) :
      (CommandLine.readDocument sources.files options stemmed next path).Reads
        (fun later => later.1.initialCapacity = room ∧
          later.1.counts.size = (visited ++ [path]).length)
        (firstStop? sources (fileChecks room path)) := by
    apply (reads_readDocument path holds.1).weaken
    rintro later ⟨laterRoom, laterSize⟩
    refine ⟨laterRoom, ?_⟩
    rw [laterSize, holds.2, List.length_append, List.length_singleton]
  have nothingRead : reading.1.initialCapacity = room ∧
      reading.1.counts.size = ([] : List Path).length := ⟨roomEq, noneRead⟩
  exact (Reads.foldlM counted nothingRead paths).weaken fun next holds => holds.2

theorem reads_readCorpus (sources : Sources Path) {configuration : Configuration} {room : Nat}
    (roomEq : configuration.vector.initialCapacity = room) (request : VectorRequest Path) :
    (CommandLine.readCorpus sources configuration request).Reads
      (fun corpus => corpus.paths = request.paths.map sources.files.shown ∧
        corpus.vectors.length = request.paths.length)
      (firstStop? sources (request.paths.flatMap (fileChecks room))) := by
  -- Every language has a stemmer, so nothing ends the call in front of the files.
  obtain ⟨stemmer, stemmerEq⟩ := exists_ofLanguageWith sources.outside configuration.language
  rw [CommandLine.readCorpus, stemmerEq, ← Option.or_none (o := firstStop? _ _)]
  apply (reads_readDocuments configuration.tokenOptions request.stemmed roomEq rfl
    request.paths).bind
  intro reading sizeEq
  apply reads_pure
  refine ⟨rfl, ?_⟩
  rw [← sizeEq, DocumentVectors.weighted, List.length_map, Array.length_toList]

/-! ## The whole call -/

theorem performs_performCommand {format : OutputFormat} {quiet : Bool}
    {configuration : Configuration} {room : Nat}
    (roomEq : configuration.vector.initialCapacity = room) (command : Command Path) :
    (CommandLine.performCommand sources format quiet configuration command).Performs
      (firstStop? sources (command.checks sources room)) := by
  cases command with
  | languages => exact performs_printLines _
  | stem given lowercased =>
    obtain ⟨stemmer, stemmerEq⟩ := exists_ofLanguageWith sources.outside configuration.language
    rw [← Option.or_none (o := firstStop? _ _), CommandLine.performCommand]
    apply (reads_wordsToStem given lowercased room).bind_performs
    intro words _
    rw [stemmerEq]
    exact performs_printLines _
  | vectorize request =>
    rw [← Option.or_none (o := firstStop? _ _), CommandLine.performCommand]
    apply (reads_readCorpus sources roomEq request).bind_performs
    intro corpus _
    exact performs_printLines _
  | similar request minimumScore limit? =>
    rw [Command.checks, firstStop?_cons, CommandLine.performCommand, Check.stop?]
    split
    case isTrue tooFew => exact performs_fail _
    case isFalse enough =>
      rw [Option.none_or, ← Option.or_none (o := firstStop? _ _)]
      apply (reads_readCorpus sources roomEq request).bind_performs
      intro corpus _
      exact performs_printLines _

theorem performs_perform (sources : Sources Path) (invocation : Invocation Path) :
    (CommandLine.perform sources invocation).Performs
      (firstStop? sources (invocation.checks sources)) := by
  rw [CommandLine.perform, Invocation.checks, ← List.append_assoc, firstStop?_append]
  apply (reads_resolveConfiguration sources invocation).bind_performs
  intro configuration roomEq
  cases invocation.command? with
  | none => exact performs_printLines _
  | some command =>
    rw [Option.toList_some, List.flatMap_singleton]
    exact performs_performCommand roomEq command

end WordStem
