import WordStem.ByteOffset

/-! # UTF-8 as a code

Literals are matched byte by byte, and yet a match always covers whole characters. This rests on
two properties of UTF-8: no character's bytes begin the bytes of another one, and the bytes
inside a character never look like the first byte of one. So a text begins or ends with a literal
exactly when its bytes begin or end with the literal's bytes, and the boundaries of a text can be
told from its bytes. -/
namespace WordStem

theorem utf8Bytes_cons (character : Char) (text : List Char) :
    utf8Bytes (character :: text) = String.utf8EncodeChar character ++ utf8Bytes text := by
  simp [utf8Bytes]

theorem take_utf8Bytes (before after : List Char) :
    (utf8Bytes (before ++ after)).take (byteLength before) = utf8Bytes before := by
  rw [utf8Bytes_append, ← length_utf8Bytes, List.take_left]

theorem drop_utf8Bytes (before after : List Char) :
    (utf8Bytes (before ++ after)).drop (byteLength before) = utf8Bytes after := by
  rw [utf8Bytes_append, ← length_utf8Bytes, List.drop_left]

theorem eq_of_utf8EncodeChar_append {first second : Char} {left right : List UInt8}
    (equal : String.utf8EncodeChar first ++ left = String.utf8EncodeChar second ++ right) :
    first = second := by
  have decoded := congrArg (fun bytes => bytes.toByteArray.utf8DecodeChar? 0) equal
  simpa only [List.toByteArray_append, ByteArray.utf8DecodeChar?_utf8EncodeChar_append,
    Option.some.injEq] using decoded

/-- A text begins with a literal exactly when its bytes begin with the literal's bytes. -/
theorem utf8Bytes_isPrefix_iff {literal text : List Char} :
    utf8Bytes literal <+: utf8Bytes text ↔ literal <+: text := by
  constructor
  · intro begins
    induction literal generalizing text with
    | nil => exact List.nil_prefix
    | cons character literal ih =>
      obtain ⟨rest, equal⟩ := begins
      cases text with
      | nil =>
        rw [utf8Bytes_cons, List.append_assoc, utf8Bytes_nil] at equal
        exact absurd (List.append_eq_nil_iff.mp equal).1 String.utf8EncodeChar_ne_nil
      | cons other text =>
        rw [utf8Bytes_cons, utf8Bytes_cons, List.append_assoc] at equal
        obtain rfl := eq_of_utf8EncodeChar_append equal
        exact (List.prefix_cons_inj character).mpr (ih ⟨rest, List.append_cancel_left equal⟩)
  · rintro ⟨rest, rfl⟩
    rw [utf8Bytes_append]
    exact List.prefix_append _ _

theorem isPrefix_of_byteLength_le {shorter longer text : List Char} (shortBegins : shorter <+: text)
    (longBegins : longer <+: text) (lengthLe : byteLength shorter ≤ byteLength longer) :
    shorter <+: longer := by
  rw [← utf8Bytes_isPrefix_iff] at shortBegins longBegins ⊢
  apply List.prefix_of_prefix_length_le shortBegins longBegins
  rwa [length_utf8Bytes, length_utf8Bytes]

theorem utf8Bytes_injective : Function.Injective utf8Bytes := by
  intro first second equal
  have begins : first <+: second := utf8Bytes_isPrefix_iff.mp (equal ▸ List.prefix_rfl)
  have begun : second <+: first := utf8Bytes_isPrefix_iff.mp (equal ▸ List.prefix_rfl)
  exact begins.eq_of_length_le begun.length_le

/-- A byte that can begin a character does begin one wherever it stands in a text. -/
theorem exists_split_of_isUTF8FirstByte {text : List Char} {bytes rest : List UInt8}
    {byte : UInt8} (equal : utf8Bytes text = bytes ++ byte :: rest)
    (first : byte.IsUTF8FirstByte) :
    ∃ before after, text = before ++ after ∧ utf8Bytes before = bytes := by
  induction text generalizing bytes with
  | nil => simp at equal
  | cons character text ih =>
    rw [utf8Bytes_cons] at equal
    obtain ⟨further, rfl, remaining⟩ | ⟨inside, encoded, remaining⟩ :=
      List.append_eq_append_iff.mp equal
    · obtain ⟨before, after, rfl, rfl⟩ := ih remaining
      exact ⟨character :: before, after, rfl, utf8Bytes_cons character before⟩
    · cases inside with
      | nil =>
        refine ⟨[character], text, rfl, ?_⟩
        rw [utf8Bytes_cons, encoded]
        simp
      | cons head inside =>
        -- The byte stands in the encoding of the first character, so it is its first byte.
        obtain ⟨rfl, -⟩ := List.cons.inj remaining
        have place : bytes.length < (String.utf8EncodeChar character).length := by
          simp [encoded]
        have atStart : bytes.length = 0 := by
          apply (@UInt8.isUTF8FirstByte_getElem_utf8EncodeChar _ _ place).mp
          simpa [encoded] using first
        exact ⟨[], character :: text, rfl, (List.eq_nil_of_length_eq_zero atStart).symm⟩

theorem exists_isUTF8FirstByte_cons {text : List Char} (nonempty : text ≠ []) :
    ∃ byte rest, utf8Bytes text = byte :: rest ∧ byte.IsUTF8FirstByte := by
  cases text with
  | nil => exact absurd rfl nonempty
  | cons character text =>
    cases encoded : String.utf8EncodeChar character with
    | nil => exact absurd encoded String.utf8EncodeChar_ne_nil
    | cons byte rest =>
      refine ⟨byte, rest ++ utf8Bytes text, by rw [utf8Bytes_cons, encoded, List.cons_append], ?_⟩
      have first := UInt8.isUTF8FirstByte_getElem_zero_utf8EncodeChar (c := character)
      simpa [encoded] using first

theorem utf8Bytes_isSuffix_iff {literal text : List Char} :
    utf8Bytes literal <:+ utf8Bytes text ↔ literal <:+ text := by
  constructor
  · rintro ⟨bytes, equal⟩
    by_cases nonempty : literal = []
    · exact nonempty ▸ List.nil_suffix
    obtain ⟨byte, rest, encoded, first⟩ := exists_isUTF8FirstByte_cons nonempty
    obtain ⟨before, after, rfl, rfl⟩ :=
      exists_split_of_isUTF8FirstByte (equal.symm.trans (by rw [encoded])) first
    rw [utf8Bytes_append] at equal
    obtain rfl := utf8Bytes_injective (List.append_cancel_left equal)
    exact List.suffix_append before _
  · rintro ⟨before, rfl⟩
    rw [utf8Bytes_append]
    exact List.suffix_append _ _

/-- An offset lies on a boundary when the text splits into two parts there. -/
theorem onBoundary_iff_exists_split {text : List Char} {offset : Nat} :
    OnBoundary text offset ↔ ∃ before after, text = before ++ after ∧ byteLength before = offset := by
  simp only [OnBoundary, Option.isSome_iff_exists, Prod.exists, cutAt?_eq_some_iff]

theorem OnBoundary.le_byteLength {text : List Char} {offset : Nat}
    (onBoundary : OnBoundary text offset) : offset ≤ byteLength text := by
  obtain ⟨before, after, rfl, rfl⟩ := onBoundary_iff_exists_split.mp onBoundary
  rw [byteLength_append]
  exact Nat.le_add_right _ _

/-- The boundaries of a text are its end and the places of its first bytes. -/
theorem onBoundary_iff_isUTF8FirstByte {text : List Char} {offset : Nat} :
    OnBoundary text offset ↔
      offset = byteLength text ∨
        ∃ byte, (utf8Bytes text)[offset]? = some byte ∧ byte.IsUTF8FirstByte := by
  rw [onBoundary_iff_exists_split]
  constructor
  · rintro ⟨before, after, rfl, rfl⟩
    by_cases nonempty : after = []
    · left
      simp [nonempty]
    · right
      obtain ⟨byte, rest, encoded, first⟩ := exists_isUTF8FirstByte_cons nonempty
      refine ⟨byte, ?_, first⟩
      rw [utf8Bytes_append, encoded, ← length_utf8Bytes,
        List.getElem?_append_right (Nat.le_refl _)]
      simp
  · rintro (rfl | ⟨byte, found, first⟩)
    · exact ⟨text, [], (List.append_nil text).symm, rfl⟩
    · obtain ⟨inside, byteEq⟩ := List.getElem?_eq_some_iff.mp found
      have equal : utf8Bytes text = (utf8Bytes text).take offset ++ byte ::
          (utf8Bytes text).drop (offset + 1) := by
        rw [← byteEq, List.getElem_cons_drop, List.take_append_drop]
      obtain ⟨before, after, split, bytesEq⟩ := exists_split_of_isUTF8FirstByte equal first
      refine ⟨before, after, split, ?_⟩
      rw [← length_utf8Bytes, bytesEq, List.length_take]
      omega

end WordStem
