import WordStem.Proofs.ByteSearch

/-! # Histories of a buffer

A history is a list of operations that are asked of a buffer one after the other. It is legal
when every jump of the cursor aims between characters, every table is valid and without guards,
and no accepted edit begins below the floor. A legal history never faults in memory: no
operation reads or slices what is not there and no difference falls below zero. After every part
of it the bytes encode a text, the limit is their number, and the cursor and the floor lie in
order between characters. -/
namespace WordStem

/-- An operation that can be asked of a buffer. -/
inductive Operation : Type 1
  | load (word : String)
  | next (direction : Direction)
  | hop (direction : Direction) (count : Nat)
  | inSet (direction : Direction) (set : CharacterSet)
  | outSet (direction : Direction) (set : CharacterSet)
  | inRange (direction : Direction) (lowest highest : Char)
  | outRange (direction : Direction) (lowest highest : Char)
  | consume (direction : Direction) (literal : String)
  | beginBackward
  | markStart
  | markEnd
  | find {Context : Type} (direction : Direction) (table : AffixTable Context) (context : Context)
  | moveTo (position : Nat)
  | moveToDistance (distance : Nat)
  | splice (start stop : Nat) (replacement : String)
  | insert (start stop : Nat) (replacement : String)
  | replaceSlice (replacement : String)
  | deleteSlice
  | slice

namespace Operation

/-- The buffer after an operation. A scan that fails and an edit that is refused leave it as it
is. -/
def perform (buffer : WordBuffer) : Operation → WordBuffer
  | .load word => buffer.reload word
  | .next direction => (buffer.next? direction).getD buffer
  | .hop direction count => (buffer.hop? direction count).getD buffer
  | .inSet direction set => (buffer.inSet? direction set).getD buffer
  | .outSet direction set => (buffer.outSet? direction set).getD buffer
  | .inRange direction lowest highest => (buffer.inRange? direction lowest highest).getD buffer
  | .outRange direction lowest highest => (buffer.outRange? direction lowest highest).getD buffer
  | .consume direction literal => (buffer.consume? direction literal).getD buffer
  | .beginBackward => buffer.beginBackward
  | .markStart => buffer.markStart
  | .markEnd => buffer.markEnd
  | .find direction table context => ((table.find direction).after ⟨buffer, context⟩).buffer
  | .moveTo position => buffer.moveTo position
  | .moveToDistance distance => buffer.moveToDistance distance
  | .splice start stop replacement => (buffer.splice start stop replacement).toOption.getD buffer
  | .insert start stop replacement => (buffer.insert start stop replacement).toOption.getD buffer
  | .replaceSlice replacement => (buffer.replaceSlice replacement).toOption.getD buffer
  | .deleteSlice => buffer.deleteSlice.toOption.getD buffer
  | .slice => buffer

/-- The buffer in memory after an operation, if the operation does not fault. -/
def perform? (memory : ByteBuffer) : Operation → Option ByteBuffer
  | .load word => some (.load (utf8Bytes word.toList))
  | .next direction => (memory.stepIf? direction fun _ => true).map Prod.snd
  | .hop direction count => (memory.hop? direction memory.cursor count).map Prod.snd
  | .inSet direction set => (memory.stepIf? direction set.contains).map Prod.snd
  | .outSet direction set =>
    (memory.stepIf? direction fun character => !set.contains character).map Prod.snd
  | .inRange direction lowest highest =>
    (memory.stepIf? direction fun character =>
      lowest ≤ character && character ≤ highest).map Prod.snd
  | .outRange direction lowest highest =>
    (memory.stepIf? direction fun character =>
      !(lowest ≤ character && character ≤ highest)).map Prod.snd
  | .consume direction literal =>
    (memory.consume? direction (utf8Bytes literal.toList)).map Prod.snd
  | .beginBackward => some memory.beginBackward
  | .markStart => some memory.markStart
  | .markEnd => some memory.markEnd
  | .find direction table _ => (memory.find? direction table).map Prod.snd
  | .moveTo position => memory.moveTo? position
  | .moveToDistance distance => some (memory.moveToDistance distance)
  | .splice start stop replacement =>
    (memory.splice? start stop (utf8Bytes replacement.toList)).map (·.toOption.getD memory)
  | .insert start stop replacement =>
    (memory.insert? start stop (utf8Bytes replacement.toList)).map (·.toOption.getD memory)
  | .replaceSlice replacement =>
    (memory.replaceSlice? (utf8Bytes replacement.toList)).map (·.toOption.getD memory)
  | .deleteSlice => (memory.replaceSlice? []).map (·.toOption.getD memory)
  | .slice => memory.slice?.map fun _ => memory

/-- An edit spares the floor when it is refused or begins at or above the floor. -/
def SparesFloor (buffer : WordBuffer) (start stop : Nat) : Prop :=
  carve? buffer.text start stop = none ∨ buffer.floor ≤ start

/-- What an operation may ask of a buffer. -/
def Allowed (buffer : WordBuffer) : Operation → Prop
  | .find direction table _ => table.ValidFor direction ∧ table.Unguarded
  | .moveTo position => buffer.floor ≤ position ∧ OnBoundary buffer.text position
  | .moveToDistance distance =>
    OnBoundary buffer.text (buffer.limit - distance) ∨ buffer.limit - distance < buffer.floor
  | .splice start stop _ => SparesFloor buffer start stop
  | .insert start stop _ => SparesFloor buffer start stop
  | .replaceSlice _ => SparesFloor buffer buffer.sliceStart buffer.sliceEnd
  | .deleteSlice => SparesFloor buffer buffer.sliceStart buffer.sliceEnd
  | _ => True

def performAll : List Operation → WordBuffer → WordBuffer
  | [], buffer => buffer
  | operation :: later, buffer => performAll later (operation.perform buffer)

/-- The buffer in memory after a history, if no operation faults. -/
def performAll? : List Operation → ByteBuffer → Option ByteBuffer
  | [], memory => some memory
  | operation :: later, memory => (operation.perform? memory).bind (performAll? later)

/-- A history is legal when every operation is allowed where it is performed. -/
def Legal : List Operation → WordBuffer → Prop
  | [], _ => True
  | operation :: later, buffer =>
    operation.Allowed buffer ∧ Legal later (operation.perform buffer)

variable {buffer : WordBuffer} {operation : Operation} {operations : List Operation}

/-! ## One operation -/

theorem stepIf?_snd (wellFormed : buffer.WellFormed) (direction : Direction)
    (test : Char → Bool) :
    (buffer.inMemory.stepIf? direction test).map Prod.snd =
      some ((buffer.stepIf? direction test).getD buffer).inMemory := by
  rw [ByteBuffer.stepIf?_inMemory wellFormed]
  rfl

theorem toOption_getD_map (outcome : Except Defect WordBuffer) :
    (outcome.map WordBuffer.inMemory).toOption.getD buffer.inMemory =
      (outcome.toOption.getD buffer).inMemory := by
  cases outcome <;> rfl

/-- An operation that is allowed on a well-formed buffer does not fault in memory, and both
agree on the buffer after it. -/
theorem perform?_inMemory (wellFormed : buffer.WellFormed) (allowed : operation.Allowed buffer) :
    operation.perform? buffer.inMemory = some (operation.perform buffer).inMemory := by
  cases operation with
  | load word => exact congrArg some (ByteBuffer.load_inMemory word).symm
  | next direction => exact stepIf?_snd wellFormed direction _
  | hop direction count =>
    rw [perform?, ByteBuffer.hop?_inMemory wellFormed, perform]
    cases buffer.hop? direction count <;> rfl
  | inSet direction set => exact stepIf?_snd wellFormed direction _
  | outSet direction set => exact stepIf?_snd wellFormed direction _
  | inRange direction lowest highest => exact stepIf?_snd wellFormed direction _
  | outRange direction lowest highest => exact stepIf?_snd wellFormed direction _
  | consume direction literal =>
    rw [perform?, ByteBuffer.consume?_inMemory wellFormed]
    rfl
  | beginBackward => rfl
  | markStart => rfl
  | markEnd => rfl
  | find direction table context =>
    have searched : buffer.inMemory.find? direction table =
        some (ByteBuffer.answered (table.find direction ⟨buffer, context⟩)) :=
      ByteBuffer.find?_inMemory ⟨buffer, context⟩ allowed.2 wellFormed.floor_le_cursor
        wellFormed.cursor_le_limit
    rw [perform?, searched, perform, RuleM.after]
    cases table.find direction ⟨buffer, context⟩ <;> rfl
  | moveTo position => exact ByteBuffer.moveTo?_inMemory allowed.2.le_byteLength
  | moveToDistance distance => rfl
  | splice start stop replacement =>
    rw [perform?, ByteBuffer.splice?_inMemory, perform, ← toOption_getD_map]
    rfl
  | insert start stop replacement =>
    rw [perform?, ByteBuffer.insert?_inMemory, perform, ← toOption_getD_map]
    rfl
  | replaceSlice replacement =>
    rw [perform?, ByteBuffer.replaceSlice?_inMemory, perform, ← toOption_getD_map]
    rfl
  | deleteSlice =>
    rw [perform, ← toOption_getD_map]
    exact congrArg (Option.map _) (ByteBuffer.replaceSlice?_inMemory buffer "")
  | slice =>
    rw [perform?, ByteBuffer.slice?_inMemory]
    rfl

theorem find_wellFormed {Context : Type} {direction : Direction} {table : AffixTable Context}
    (workspace : Workspace Context) (wellFormed : workspace.buffer.WellFormed)
    (valid : table.ValidFor direction) (unguarded : table.Unguarded) :
    ((table.find direction).after workspace).buffer.WellFormed := by
  obtain ⟨candidates, tried, searched⟩ := valid.find_eq_tryEach workspace
  have plain : ∀ affix ∈ candidates, affix.guard? = none :=
    fun affix member => unguarded affix (tried.mem_affixes member)
  rw [RuleM.after, searched, AffixTable.tryEach_of_unguarded plain]
  cases candidates with
  | nil => exact wellFormed
  | cons affix others =>
    apply (wellFormed.advance (tried.isPrefix (.head _))).congr
    · rw [WordBuffer.advance_text]
      rfl
    · rw [WordBuffer.advance_floor]
      rfl
    · cases direction <;> rfl

theorem getD_wellFormed {moved? : Option WordBuffer} (wellFormed : buffer.WellFormed)
    (moves : ∀ moved, moved? = some moved → buffer.MovesTo moved) :
    (moved?.getD buffer).WellFormed := by
  cases moved? with
  | none => exact wellFormed
  | some moved => exact (moves moved rfl).wellFormed

theorem withCursor_wellFormed {position : Nat} (wellFormed : buffer.WellFormed)
    (above : buffer.floor ≤ position) (cut : OnBoundary buffer.text position) :
    ({ buffer with cursor := position } : WordBuffer).WellFormed :=
  ⟨above, cut.le_byteLength, cut, wellFormed.floor_onBoundary⟩

theorem splice_wellFormed {start stop : Nat} {replacement : String}
    (wellFormed : buffer.WellFormed) (spares : SparesFloor buffer start stop) :
    ((buffer.splice start stop replacement).toOption.getD buffer).WellFormed := by
  cases spliced : buffer.splice start stop replacement with
  | error defect => exact wellFormed
  | ok edited =>
    rcases spares with refused | above
    · rw [WordBuffer.splice_of_carve?_eq_none refused] at spliced
      cases spliced
    · exact wellFormed.splice above spliced

theorem perform_wellFormed (wellFormed : buffer.WellFormed) (allowed : operation.Allowed buffer) :
    (operation.perform buffer).WellFormed := by
  cases operation with
  | load word => exact WordBuffer.load_wellFormed word
  | next direction => exact getD_wellFormed wellFormed fun _ => wellFormed.next?
  | hop direction count => exact getD_wellFormed wellFormed fun _ => wellFormed.hop?
  | inSet direction set => exact getD_wellFormed wellFormed fun _ => wellFormed.stepIf?
  | outSet direction set => exact getD_wellFormed wellFormed fun _ => wellFormed.stepIf?
  | inRange direction lowest highest =>
    exact getD_wellFormed wellFormed fun _ => wellFormed.stepIf?
  | outRange direction lowest highest =>
    exact getD_wellFormed wellFormed fun _ => wellFormed.stepIf?
  | consume direction literal => exact getD_wellFormed wellFormed fun _ => wellFormed.consume?
  | beginBackward =>
    obtain ⟨hidden, behind, ahead, parts⟩ := WordBuffer.wellFormed_iff_exists_parts.mp wellFormed
    exact parts.beginBackward.wellFormed
  | markStart => exact wellFormed.congr rfl rfl rfl
  | markEnd => exact wellFormed.congr rfl rfl rfl
  | find direction table context =>
    exact find_wellFormed ⟨buffer, context⟩ wellFormed allowed.1 allowed.2
  | moveTo position =>
    obtain ⟨above, cut⟩ := allowed
    have moved : min position buffer.limit = position := Nat.min_eq_left cut.le_byteLength
    rw [perform, WordBuffer.moveTo, moved]
    exact withCursor_wellFormed wellFormed above cut
  | moveToDistance distance =>
    rw [perform, WordBuffer.moveToDistance]
    rcases Nat.le_total buffer.floor (buffer.limit - distance) with above | below
    · rw [Nat.max_eq_left above]
      rcases allowed with cut | under
      · exact withCursor_wellFormed wellFormed above cut
      · exact absurd under (Nat.not_lt.mpr above)
    · rw [Nat.max_eq_right below]
      exact withCursor_wellFormed wellFormed (Nat.le_refl _) wellFormed.floor_onBoundary
  | splice start stop replacement => exact splice_wellFormed wellFormed allowed
  | insert start stop replacement =>
    -- An insertion is an edit that moves the marks as well.
    have edits : ((buffer.splice start stop replacement).toOption.getD buffer).WellFormed :=
      splice_wellFormed wellFormed allowed
    rw [perform, WordBuffer.insert]
    cases spliced : buffer.splice start stop replacement with
    | error defect => exact wellFormed
    | ok edited =>
      rw [spliced] at edits
      exact edits.congr rfl rfl rfl
  | replaceSlice replacement => exact splice_wellFormed wellFormed allowed
  | deleteSlice => exact splice_wellFormed wellFormed allowed
  | slice => exact wellFormed

/-! ## Histories -/

theorem performAll_wellFormed (wellFormed : buffer.WellFormed) (legal : Legal operations buffer) :
    (performAll operations buffer).WellFormed := by
  induction operations generalizing buffer with
  | nil => exact wellFormed
  | cons operation later ih => exact ih (perform_wellFormed wellFormed legal.1) legal.2

/-- A legal history from a well-formed buffer never faults in memory. -/
theorem performAll?_inMemory (wellFormed : buffer.WellFormed) (legal : Legal operations buffer) :
    performAll? operations buffer.inMemory = some (performAll operations buffer).inMemory := by
  induction operations generalizing buffer with
  | nil => rfl
  | cons operation later ih =>
    obtain ⟨allowed, legal⟩ := legal
    rw [performAll?, perform?_inMemory wellFormed allowed, Option.bind_some]
    exact ih (perform_wellFormed wellFormed allowed) legal

theorem Legal.of_isPrefix {passed : List Operation} (legal : Legal operations buffer)
    (passes : passed <+: operations) : Legal passed buffer := by
  induction passed generalizing operations buffer with
  | nil => trivial
  | cons operation passed ih =>
    obtain ⟨later, rfl⟩ := passes
    exact ⟨legal.1, ih legal.2 (List.prefix_append passed later)⟩

/-- The buffer throughout a legal history that begins with a new or freshly loaded buffer.
Whatever part of the history has passed, no operation has faulted, memory holds the buffer that
the operations on texts arrive at, it is sound, and the word, the distance to the limit and the
characters on both sides of the cursor can be read. -/
theorem legal_history_stays_sound {start : WordBuffer}
    (begins : start = .empty ∨ ∃ word, start = .load word) (legal : Legal operations start)
    {passed : List Operation} (passes : passed <+: operations) :
    ∃ memory, performAll? passed start.inMemory = some memory ∧
      memory = (performAll passed start).inMemory ∧ memory.Sound ∧
      (performAll passed start).WellFormed ∧
      memory.word? = some (performAll passed start).text ∧
      memory.distanceToLimit? = some (performAll passed start).distanceToLimit ∧
      ∀ direction, memory.peek? direction = some ((performAll passed start).peek? direction) := by
  have startWellFormed : start.WellFormed := by
    rcases begins with rfl | ⟨word, rfl⟩
    · exact WordBuffer.load_wellFormed ""
    · exact WordBuffer.load_wellFormed word
  have passedLegal := legal.of_isPrefix passes
  have wellFormed := performAll_wellFormed startWellFormed passedLegal
  refine ⟨_, performAll?_inMemory startWellFormed passedLegal, rfl,
    ByteBuffer.inMemory_sound wellFormed, wellFormed, ByteBuffer.word?_inMemory _,
    ByteBuffer.distanceToLimit?_inMemory wellFormed, fun direction => ?_⟩
  exact ByteBuffer.peek?_inMemory wellFormed direction

def pluralEndings : AffixTable Unit :=
  .ofRows "plural" .backward [("k", -1, 1), ("ák", 0, 2)]

/-- A history that finds the longer ending behind the first two characters and replaces it. -/
def pluralHistory : List Operation :=
  [.next .forward, .next .forward, .beginBackward, .markEnd, .find .backward pluralEndings (),
    .markStart, .replaceSlice "a", .moveToDistance 1, .moveTo 3]

theorem pluralHistory_stays_sound :
    Legal pluralHistory (.load "kutyák") ∧
      ∃ memory, performAll? pluralHistory (WordBuffer.load "kutyák").inMemory = some memory ∧
        memory.Sound ∧ memory.word? = some "kutya".toList := by
  have legal : Legal pluralHistory (.load "kutyák") :=
    ⟨trivial, trivial, trivial, trivial, ⟨by decide +kernel, by decide +kernel⟩, trivial,
      .inr (by decide +kernel), .inl (by decide +kernel),
      ⟨by decide +kernel, by decide +kernel⟩, trivial⟩
  have word : (performAll pluralHistory (.load "kutyák")).text = "kutya".toList := by
    decide +kernel
  obtain ⟨memory, performed, -, sound, -, wordEq, -⟩ :=
    legal_history_stays_sound (.inr ⟨"kutyák", rfl⟩) legal List.prefix_rfl
  exact ⟨legal, memory, performed, sound, word ▸ wordEq⟩

end Operation

end WordStem
