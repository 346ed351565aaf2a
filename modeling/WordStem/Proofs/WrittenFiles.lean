import WordStem.FileTable

/-! # Written files

Whether a file can be written depends on its path alone, and not on what is written. A path is
followed through directories, and a file is written where there is no directory, so writing changes
none of the entries on the way. Hence the path of a written file leads to that file again, with
what has been written into it. Main statements: `exists_writeText_iff` and
`readText_of_writeText`. -/
namespace WordStem

namespace FileTable

variable {table : FileTable} {place other : List String} {entry : FileEntry}

/-! ## Entries after a change -/

theorem lookup_filter_of_ne {entries : List (List String × FileEntry)} (different : other ≠ place) :
    (entries.filter fun entry => entry.1 != place).lookup other = entries.lookup other := by
  induction entries with
  | nil => rfl
  | cons first rest ih =>
    rw [List.filter_cons]
    split
    · rw [List.lookup_cons, List.lookup_cons, ih]
    · rename_i removed
      have same : first.1 = place := by simpa using removed
      rw [List.lookup_cons, same, beq_eq_false_iff_ne.mpr different, ih]

theorem find?_insert_of_ne (different : other ≠ place) :
    (table.insert place entry).find? other = table.find? other := by
  have lookupEq : (table.insert place entry).entries.lookup other = table.entries.lookup other := by
    rw [insert, List.lookup_cons, beq_eq_false_iff_ne.mpr different]
    exact lookup_filter_of_ne different
  rw [find?, find?, lookupEq]

/-- Where there is no directory, an entry is found once it has been put there. -/
theorem find?_insert_self (notDirectory : table.find? place ≠ some .directory) :
    (table.insert place entry).find? place = some entry := by
  have free : (place.all (· == "..") || place == root) = false := by
    rw [← Bool.not_eq_true]
    intro above
    exact notDirectory (by rw [find?, if_pos above])
  rw [find?, free, insert, List.lookup_cons, beq_self_eq_true]
  rfl

/-! ## Paths after a change -/

/-- A path passes through directories, so it leads on as before when an entry is put where there is
no directory. -/
theorem follow_insert (notDirectory : table.find? place ≠ some .directory) {names : List String}
    {origin reached : List String} (found : table.follow origin names = .ok reached) :
    (table.insert place entry).follow origin names = .ok reached := by
  induction names generalizing origin with
  | nil => exact found
  | cons name names ih =>
    rw [follow] at found
    cases entered : table.enter origin name with
    | error refusal =>
      rw [entered] at found
      cases found
    | ok next =>
      rw [entered] at found
      have isDirectory : table.find? origin = some .directory := by
        rw [enter] at entered
        split at entered
        case h_1 => cases entered
        case h_2 => cases entered
        case h_3 directory => exact directory
      have kept : (table.insert place entry).find? origin = some .directory := by
        rw [find?_insert_of_ne, isDirectory]
        rintro rfl
        exact notDirectory isDirectory
      have reentered : (table.insert place entry).enter origin name = .ok next := by
        rw [← entered, enter, enter, kept, isDirectory]
      rw [follow, reentered]
      exact ih found

theorem place_insert (notDirectory : table.find? place ≠ some .directory) {path : String}
    {reached : List String} (found : table.place path = .ok reached) :
    (table.insert place entry).place path = .ok reached := by
  have startEq (characters : List Char) :
      (table.insert place entry).start characters = table.start characters := rfl
  rw [FileTable.place] at found ⊢
  rw [startEq]
  split at found
  case isTrue => cases found
  case isFalse =>
    rw [if_neg ‹_›]
    split at found
    case isTrue => cases found
    case isFalse =>
      rw [if_neg ‹_›]
      split at found
      case isTrue => cases found
      case isFalse =>
        rw [if_neg ‹_›]
        exact follow_insert notDirectory found

/-! ## Writing and reading -/

/-- A file can be written at a path: it leads to a place that is no directory, and it does not end
as the path of a directory does. -/
def IsWritable (table : FileTable) (path : String) : Prop :=
  ∃ place, table.place path = .ok place ∧ table.find? place ≠ some .directory ∧
    endsWithSlash path = false

theorem writeText_eq_ok_iff {path text : String} {written : FileTable} :
    table.writeText path text = .ok written ↔
      ∃ place, table.place path = .ok place ∧ table.find? place ≠ some .directory ∧
        endsWithSlash path = false ∧ written = table.insert place (.file text.toUTF8) := by
  rw [writeText]
  cases placeEq : table.place path with
  | error refusal => simp [bind, Except.bind]
  | ok place =>
    simp only [bind, Except.bind, Except.ok.injEq, exists_eq_left']
    split
    case h_1 directory => simp [directory]
    case h_2 notDirectory =>
      cases ends : endsWithSlash path with
      | true => simp
      | false =>
        have noDirectory : table.find? place ≠ some .directory := notDirectory
        simp only [ne_eq, noDirectory, not_false_eq_true, true_and, Bool.false_eq_true, if_false,
          Except.ok.injEq]
        exact eq_comm

/-- Whether a text can be written at a path does not depend on the text. -/
theorem exists_writeText_iff {path : String} (text : String) :
    (∃ written, table.writeText path text = .ok written) ↔ table.IsWritable path := by
  simp only [writeText_eq_ok_iff, IsWritable]
  constructor
  · rintro ⟨-, place, found, notDirectory, ends, -⟩
    exact ⟨place, found, notDirectory, ends⟩
  · rintro ⟨place, found, notDirectory, ends⟩
    exact ⟨_, place, found, notDirectory, ends, rfl⟩

/-- What is written at a path is what is read there. -/
theorem readText_of_writeText {path text : String} {written : FileTable}
    (writes : table.writeText path text = .ok written) :
    written.view.readText path = .ok text := by
  obtain ⟨place, found, notDirectory, ends, rfl⟩ := writeText_eq_ok_iff.mp writes
  have bytes : (table.insert place (.file text.toUTF8)).readBytes path = .ok text.toUTF8 := by
    rw [readBytes, place_insert notDirectory found]
    simp only [bind, Except.bind, find?_insert_self notDirectory, ends]
    rfl
  simp only [FileView.readText, view, FileView.ofTexts, bytes]
  exact decodeText_toUTF8 text

end FileTable

end WordStem
