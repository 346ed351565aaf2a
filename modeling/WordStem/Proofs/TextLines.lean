import Mathlib.Data.List.DropRight
import WordStem.FileView
import WordStem.Proofs.Utf8Code

/-! # Texts line by line

A text can be read as a whole or one line after the other. A line break is a byte of its own, so
both ways refuse the same bytes: `decodes_iff_lines` says that bytes are a text exactly when each
of their lines is one. -/
namespace WordStem

/-- The lines of some bytes, without the line breaks. -/
def lines (bytes : ByteArray) : List ByteArray :=
  (bytes.data.toList.splitOn 10).map List.toByteArray

theorem isValidUTF8_iff_exists_text {bytes : ByteArray} :
    bytes.IsValidUTF8 ↔ ∃ text, bytes.data.toList = utf8Bytes text := by
  constructor
  · rintro ⟨text, rfl⟩
    refine ⟨text, ?_⟩
    rw [List.utf8Encode, List.data_toByteArray, utf8Bytes]
  · rintro ⟨text, bytesEq⟩
    refine ⟨text, ?_⟩
    apply ByteArray.ext
    rw [List.utf8Encode, List.data_toByteArray]
    exact Array.toList_inj.mp bytesEq

theorem exists_decodeText_iff {bytes : ByteArray} :
    (∃ text, decodeText bytes = .ok text) ↔ ∃ text, bytes.data.toList = utf8Bytes text := by
  rw [← isValidUTF8_iff_exists_text, decodeText, String.fromUTF8?]
  by_cases valid : bytes.IsValidUTF8 <;> simp [valid]

theorem decodeText_eq_error {bytes : ByteArray} (noText : ¬ ∃ text, decodeText bytes = .ok text) :
    decodeText bytes = .error .notText := by
  unfold decodeText at noText ⊢
  cases decoded : String.fromUTF8? bytes with
  | none => rfl
  | some text => exact absurd ⟨text, by rw [decoded]⟩ noText

theorem utf8Bytes_lineBreak : utf8Bytes ['\n'] = [10] := rfl

/-- A line break inside the bytes of a text cuts the text in two. -/
theorem exists_cut_at_lineBreak {text : List Char} {left right : List UInt8}
    (bytesEq : left ++ 10 :: right = utf8Bytes text) :
    ∃ before after, left = utf8Bytes before ∧ right = utf8Bytes after := by
  obtain ⟨before, after, rfl, leftEq⟩ :=
    exists_split_of_isUTF8FirstByte bytesEq.symm (by decide)
  refine ⟨before, after.tail, leftEq.symm, ?_⟩
  rw [utf8Bytes_append, leftEq] at bytesEq
  have rightEq : 10 :: right = utf8Bytes after := List.append_cancel_left bytesEq
  cases after with
  | nil => cases rightEq
  | cons character after =>
    rw [utf8Bytes_cons] at rightEq
    obtain rfl : '\n' = character := eq_of_utf8EncodeChar_append rightEq
    exact (List.cons.inj rightEq).2

theorem exists_text_intercalate_iff (parts : List (List UInt8)) :
    (∃ text, [10].intercalate parts = utf8Bytes text) ↔
      ∀ part ∈ parts, ∃ text, part = utf8Bytes text := by
  induction parts with
  | nil =>
    constructor
    · intro _ part member
      cases member
    · intro _
      exact ⟨[], rfl⟩
  | cons first others ih =>
    rw [List.forall_mem_cons]
    cases others with
    | nil => simp [List.intercalate_singleton]
    | cons second others =>
      rw [← ih, List.intercalate_cons_cons]
      constructor
      · rintro ⟨text, bytesEq⟩
        rw [List.append_assoc, List.singleton_append] at bytesEq
        obtain ⟨before, after, firstEq, restEq⟩ := exists_cut_at_lineBreak bytesEq
        exact ⟨⟨before, firstEq⟩, after, restEq⟩
      · rintro ⟨⟨before, firstEq⟩, after, restEq⟩
        refine ⟨before ++ ['\n'] ++ after, ?_⟩
        rw [utf8Bytes_append, utf8Bytes_append, utf8Bytes_lineBreak, firstEq, restEq]

theorem decodes_iff_lines {bytes : ByteArray} :
    (∃ text, decodeText bytes = .ok text) ↔
      ∀ line ∈ lines bytes, ∃ text, decodeText line = .ok text := by
  rw [exists_decodeText_iff, lines, List.forall_mem_map]
  have joined : [10].intercalate (bytes.data.toList.splitOn 10) = bytes.data.toList :=
    List.intercalate_splitOn 10
  rw [← joined, exists_text_intercalate_iff, joined]
  simp only [exists_decodeText_iff, List.data_toByteArray]

/-- Up to the last separator there are all parts but the last, and nothing stands behind them. -/
theorem splitOn_rdropWhile (separator : UInt8) (values : List UInt8) :
    (values.rdropWhile (· != separator)).splitOn separator =
      (values.splitOn separator).dropLast ++ [[]] := by
  have whole := List.rdropWhile_append_rtakeWhile (p := (· != separator)) (l := values)
  have kept := List.rdropWhile_last_not (· != separator) values
  have noSeparator : separator ∉ values.rtakeWhile (· != separator) :=
    fun member => by simpa using List.mem_rtakeWhile_imp member
  generalize values.rdropWhile (· != separator) = complete at whole kept ⊢
  generalize values.rtakeWhile (· != separator) = rest at whole noSeparator
  subst whole
  obtain rfl | ⟨before, last, rfl⟩ := complete.eq_nil_or_concat
  · rw [List.nil_append, List.splitOn_eq_singleton noSeparator]
    rfl
  · obtain rfl : last = separator := by simpa using kept (by simp)
    rw [List.concat_eq_append, List.append_assoc, List.singleton_append,
      List.splitOn_append_cons_self, List.splitOn_append_cons_self,
      List.splitOn_eq_singleton noSeparator, List.dropLast_concat, List.splitOn_nil]

theorem lines_completeLines (bytes : ByteArray) :
    lines (completeLines bytes) = (lines bytes).dropLast ++ [[].toByteArray] := by
  rw [lines, lines, completeLines, List.data_toByteArray, ← List.map_dropLast]
  change (List.splitOn 10 (bytes.data.toList.rdropWhile (· != 10))).map _ = _
  rw [splitOn_rdropWhile, List.map_append, List.map_singleton]

end WordStem
