import WordStem.ConfigurationFile
import WordStem.Proofs.TomlLines
import WordStem.Proofs.WrittenFiles

/-! # Saved configurations

A configuration is written with one line for each setting, so its text is read as the document of
these lines. All keys of the document are different and all settings are there, so each setting
has the value that has been written and none falls back to its default. What is read is the
configuration itself. Main statement: `load_saved`. -/
namespace WordStem

/-! ## Tables with different keys -/

namespace Toml

variable {entries : List (String × Value)} {key : String} {value : Value}

theorem put_of_lookup_eq_none (new : entries.lookup key = none) :
    put key value entries = entries ++ [(key, value)] := by
  induction entries with
  | nil => rfl
  | cons first rest ih =>
    obtain ⟨other, old⟩ := first
    rw [List.lookup_cons] at new
    cases same : key == other with
    | true => simp [same] at new
    | false =>
      have different : other ≠ key := (beq_eq_false_iff_ne.mp same).symm
      rw [same] at new
      rw [put, if_neg different, ih new]
      rfl

theorem assign_of_lookup_eq_none (new : entries.lookup key = none) :
    assign entries ⟨⟨[], key⟩, value⟩ = some (entries ++ [(key, value)]) := by
  simp [assign, changeAt, new, put_of_lookup_eq_none new]

/-- Assignments of values to plain keys. -/
def assignmentsOf (settings : List (String × Value)) : List Assignment :=
  settings.map fun setting => ⟨⟨[], setting.1⟩, setting.2⟩

/-- Assignments to different keys that have no value before make one entry each. -/
theorem fill_of_new {settings : List (String × Value)}
    (different : (settings.map Prod.fst).Nodup)
    (new : ∀ setting ∈ settings, entries.lookup setting.1 = none) :
    fill entries (assignmentsOf settings) = some (entries ++ settings) := by
  induction settings generalizing entries with
  | nil => simp [fill, assignmentsOf]
  | cons setting settings ih =>
    obtain ⟨firstNew, othersNew⟩ := List.forall_mem_cons.mp new
    obtain ⟨absent, othersDifferent⟩ := List.nodup_cons.mp different
    have stillNew : ∀ later ∈ settings, (entries ++ [setting]).lookup later.1 = none := by
      intro later member
      have noKey : (later.1 == setting.1) = false := by
        rw [beq_eq_false_iff_ne]
        intro keyEq
        exact absent (keyEq ▸ List.mem_map_of_mem member)
      rw [List.lookup_append, othersNew later member, List.lookup_cons, noKey]
      rfl
    have rest := ih othersDifferent stillNew
    rw [fill] at rest ⊢
    rw [assignmentsOf, List.map_cons, ← assignmentsOf, List.foldlM_cons,
      assign_of_lookup_eq_none firstNew]
    simp only [bind, Option.bind]
    rw [rest, List.append_assoc]
    rfl

/-- A section under a new plain key makes one table of its assignments. -/
theorem addSection_of_new {settings : List (String × Value)} (new : entries.lookup key = none)
    (different : (settings.map Prod.fst).Nodup) :
    addSection entries ⟨.table ⟨[], key⟩, assignmentsOf settings⟩ =
      some (entries ++ [(key, .table .headed settings)]) := by
  have filled : fill [] (assignmentsOf settings) = some settings :=
    fill_of_new different fun _ _ => rfl
  simp only [addSection, changeAt, new, filled, bind, Option.bind]
  rw [put_of_lookup_eq_none new]
  rfl

end Toml

namespace Configuration

open Toml

variable (configuration : Configuration)

/-! ## The lines of a configuration -/

/-- The lines that are written for a configuration. -/
def lines : List Line :=
  [.assignment "language" (.name configuration.language.name),
    .assignment "stop_words" (.truth configuration.stopWords),
    .assignment "min_token_len" (.count configuration.minimumTokenLength),
    .header "vector",
    .assignment "initial_capacity" (.count configuration.vector.initialCapacity),
    .assignment "weighting" (.name configuration.vector.weighting.name),
    .assignment "normalize" (.truth configuration.vector.normalize)]

theorem toToml_eq_lines :
    configuration.toToml = String.ofList (configuration.lines.flatMap Line.text) := by
  apply String.toList_inj.mp
  rw [String.toList_ofList]
  unfold toToml
  simp [lines, Line.text, Scalar.text]

theorem isPlain_name_language (language : Language) : IsPlain language.name.toList := by
  cases language <;> decide

theorem isPlain_name_weighting (weighting : Weighting) : IsPlain weighting.name.toList := by
  cases weighting <;> decide

theorem lines_readable
    (lengthFits : configuration.minimumTokenLength ≤ SettingsFormat.largestCount)
    (capacityFits : configuration.vector.initialCapacity ≤ SettingsFormat.largestCount) :
    ∀ line ∈ configuration.lines, line.IsReadable := by
  have small {count : Nat} (fits : count ≤ SettingsFormat.largestCount) : count < Nat.pow 2 128 :=
    Nat.lt_of_le_of_lt fits (by decide)
  intro line member
  simp only [lines, List.mem_cons, List.not_mem_nil, or_false] at member
  rcases member with rfl | rfl | rfl | rfl | rfl | rfl | rfl
  · exact ⟨by decide, isPlain_name_language _⟩
  · exact ⟨by decide, trivial⟩
  · exact ⟨by decide, small lengthFits⟩
  · exact (by decide : IsPlain "vector".toList)
  · exact ⟨by decide, small capacityFits⟩
  · exact ⟨by decide, isPlain_name_weighting _⟩
  · exact ⟨by decide, trivial⟩

/-! ## The settings that are read -/

/-- The entries that are read in front of the table of vectors. -/
def leadingEntries : List (String × Value) :=
  [("language", .text configuration.language.name),
    ("stop_words", .bool configuration.stopWords),
    ("min_token_len", .integer configuration.minimumTokenLength)]

def vectorEntries : List (String × Value) :=
  [("initial_capacity", .integer configuration.vector.initialCapacity),
    ("weighting", .text configuration.vector.weighting.name),
    ("normalize", .bool configuration.vector.normalize)]

def entries : List (String × Value) :=
  configuration.leadingEntries ++ [("vector", .table .headed configuration.vectorEntries)]

theorem documentOf_lines :
    documentOf configuration.lines =
      { leading := assignmentsOf configuration.leadingEntries,
        sections := [⟨.table ⟨[], "vector"⟩, assignmentsOf configuration.vectorEntries⟩] } := rfl

theorem entries?_documentOf_lines :
    (documentOf configuration.lines).entries? = some configuration.entries := by
  have leadingDifferent : ["language", "stop_words", "min_token_len"].Nodup := by decide
  have vectorDifferent : ["initial_capacity", "weighting", "normalize"].Nodup := by decide
  have leading : fill [] (assignmentsOf configuration.leadingEntries) =
      some configuration.leadingEntries := fill_of_new leadingDifferent fun _ _ => rfl
  have vector : addSection configuration.leadingEntries
      ⟨.table ⟨[], "vector"⟩, assignmentsOf configuration.vectorEntries⟩ =
      some configuration.entries := addSection_of_new rfl vectorDifferent
  rw [documentOf_lines, Document.entries?]
  simp only [leading, bind, Option.bind, List.foldlM_cons, vector]
  rfl

theorem countOf?_natCast {count : Nat} (fits : count ≤ SettingsFormat.largestCount) :
    SettingsFormat.countOf? (count : Int) = some count := by
  rw [SettingsFormat.countOf?, if_pos ⟨Int.natCast_nonneg _, Int.ofNat_le.mpr fits⟩]
  rfl

theorem ofName?_name_language (language : Language) :
    Language.ofName? language.name = some language := by
  cases language <;> rfl

theorem ofName?_name_weighting (weighting : Weighting) :
    Weighting.ofName? weighting.name = some weighting := by
  cases weighting <;> rfl

/-- A setting that is there has the value that is there, whatever its default. -/
theorem read?_of_lookup {Meaning : Type} {found : List (String × Value)} {name : String}
    {value : Value} (there : found.lookup name = some value) (fallback : Meaning)
    (meaning? : Value → Option Meaning) :
    SettingsFormat.read? (fun name => found.lookup name) name fallback meaning? =
      meaning? value := by
  rw [SettingsFormat.read?, there]

theorem readVector?_vectorEntries
    (capacityFits : configuration.vector.initialCapacity ≤ SettingsFormat.largestCount) :
    readVector? .toml (.table .headed configuration.vectorEntries) = some configuration.vector := by
  have group : SettingsFormat.toml.group? ["initial_capacity", "weighting", "normalize"]
      (.table .headed configuration.vectorEntries) =
      some fun name => configuration.vectorEntries.lookup name := rfl
  have capacity := (read?_of_lookup
      (rfl : configuration.vectorEntries.lookup "initial_capacity" = some _)
      ({} : VectorSettings).initialCapacity SettingsFormat.toml.count?).trans
    (countOf?_natCast capacityFits)
  have weighting := (read?_of_lookup
      (rfl : configuration.vectorEntries.lookup "weighting" = some _)
      ({} : VectorSettings).weighting
      fun value => SettingsFormat.toml.name? value >>= Weighting.ofName?).trans
    (ofName?_name_weighting configuration.vector.weighting)
  have normalize := read?_of_lookup
    (rfl : configuration.vectorEntries.lookup "normalize" = some _)
    ({} : VectorSettings).normalize SettingsFormat.toml.truth?
  rw [readVector?, group]
  simp only [bind, Option.bind] at weighting ⊢
  rw [capacity, weighting, normalize]
  rfl

theorem read?_entries
    (lengthFits : configuration.minimumTokenLength ≤ SettingsFormat.largestCount)
    (capacityFits : configuration.vector.initialCapacity ≤ SettingsFormat.largestCount) :
    read? .toml (.table .headed configuration.entries) = some configuration := by
  have group : SettingsFormat.toml.group? ["language", "stop_words", "min_token_len", "vector"]
      (.table .headed configuration.entries) =
      some fun name => configuration.entries.lookup name := rfl
  have language := (read?_of_lookup
      (rfl : configuration.entries.lookup "language" = some _) default.language
      fun value => SettingsFormat.toml.name? value >>= Language.ofName?).trans
    (ofName?_name_language configuration.language)
  have stopWords := read?_of_lookup
    (rfl : configuration.entries.lookup "stop_words" = some _) default.stopWords
    SettingsFormat.toml.truth?
  have length := (read?_of_lookup
      (rfl : configuration.entries.lookup "min_token_len" = some _) default.minimumTokenLength
      SettingsFormat.toml.count?).trans
    (countOf?_natCast lengthFits)
  have vector := (read?_of_lookup
      (rfl : configuration.entries.lookup "vector" = some _) default.vector
      (readVector? .toml)).trans
    (configuration.readVector?_vectorEntries capacityFits)
  rw [read?, group]
  simp only [bind, Option.bind] at language ⊢
  rw [language, stopWords, length, vector]
  rfl

/-- What is written for a configuration is read as that configuration. -/
theorem ofToml_toToml
    (lengthFits : configuration.minimumTokenLength ≤ SettingsFormat.largestCount)
    (capacityFits : configuration.vector.initialCapacity ≤ SettingsFormat.largestCount) :
    ofToml configuration.toToml = .ok configuration := by
  have document := readDocument?_lines (configuration.lines_readable lengthFits capacityFits)
  have entries : Toml.read? configuration.toToml = some configuration.entries := by
    rw [Toml.read?, toToml_eq_lines, document]
    exact configuration.entries?_documentOf_lines
  rw [ofToml, entries]
  simp only [configuration.read?_entries lengthFits capacityFits]

/-! ## Saving and loading -/

/-- A configuration whose numbers a machine can hold can be saved at every writable path. The file
is loaded as the same configuration, unless tokens may be empty, which is refused for that path. -/
theorem load_saved (table : FileTable) (path : String) (writable : table.IsWritable path)
    (configuration : Configuration)
    (lengthFits : configuration.minimumTokenLength ≤ SettingsFormat.largestCount)
    (capacityFits : configuration.vector.initialCapacity ≤ SettingsFormat.largestCount) :
    ∃ saved, configuration.save table path = .ok saved ∧
      (1 ≤ configuration.minimumTokenLength → load saved.view path = .ok configuration) ∧
      (configuration.minimumTokenLength = 0 → load saved.view path =
        .error (.invalidConfiguration path "invalid min_token_len (must be at least 1): 0")) := by
  obtain ⟨saved, writes⟩ := (FileTable.exists_writeText_iff configuration.toToml).mpr writable
  have text := FileTable.readText_of_writeText writes
  have read := configuration.ofToml_toToml lengthFits capacityFits
  refine ⟨saved, by rw [save, writes], fun positive => ?_, fun zero => ?_⟩
  · have valid : configuration.validate = .ok () :=
      if_neg (Nat.one_le_iff_ne_zero.mp positive)
    simp only [load, text, read, valid, bind, Except.bind]
  · have refused : configuration.validate =
        .error (.invalidValue "min_token_len (must be at least 1)" "0") := if_pos zero
    simp only [load, text, read, refused, bind, Except.bind]
    rfl

/-- A file of the usual name in an empty directory. -/
theorem load_saved_german :
    let table : FileTable := { directory := "/work", entries := [] }
    let german : Configuration :=
      { language := .german, vector := { weighting := .tfIdf, normalize := true } }
    let empty : Configuration := { german with minimumTokenLength := 0 }
    table.IsWritable "lexis.toml" ∧
      (∃ saved, german.save table "lexis.toml" = .ok saved ∧
        load saved.view "lexis.toml" = .ok german) ∧
      ∃ saved, empty.save table "lexis.toml" = .ok saved ∧
        load saved.view "lexis.toml" = .error (.invalidConfiguration "lexis.toml"
          "invalid min_token_len (must be at least 1): 0") := by
  intro table german empty
  have start : table.start "lexis.toml".toList = ([], "lexis.toml".toList) := by decide +kernel
  have names : (runs (· != '/') "lexis.toml".toList).map String.ofList = ["lexis.toml"] := by
    decide +kernel
  have entered : table.enter [] "lexis.toml" = .ok ["lexis.toml"] := by
    have isDirectory : table.find? [] = some .directory := rfl
    rw [FileTable.enter, isDirectory]
    simp only
    rw [if_neg (by decide), if_neg (by decide), if_neg (by decide)]
    rfl
  have reached : table.place "lexis.toml" = .ok ["lexis.toml"] := by
    rw [FileTable.place, if_neg (by decide), if_neg (by decide), if_neg (by decide), start]
    simp only [names, FileTable.follow, entered]
    rfl
  have writable : table.IsWritable "lexis.toml" := by
    refine ⟨["lexis.toml"], reached, fun isDirectory => ?_, by decide⟩
    have missing : table.find? ["lexis.toml"] = none := rfl
    rw [missing] at isDirectory
    cases isDirectory
  obtain ⟨saved, saves, loads, -⟩ :=
    load_saved table "lexis.toml" writable german (by decide) (by decide)
  obtain ⟨emptied, savesEmpty, -, refuses⟩ :=
    load_saved table "lexis.toml" writable empty (by decide) (by decide)
  exact ⟨writable, ⟨saved, saves, loads (Nat.le_refl 1)⟩, emptied, savesEmpty, refuses rfl⟩

end Configuration

end WordStem
