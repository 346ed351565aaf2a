import WordStem.Proofs.CallFailures

/-! # One call in two formats

Two calls that differ only in the value of `--format` are read in step. At every moment the two
readings are alike: they have the same settings but for the format, the same words, and the same
argument is not judged yet. They are interrupted at the same place for the same reason, or make the
same request, so both calls end with the same exit code. The one exception is a value given to an
option that takes none.

Arguments and variables are taken to be Unicode texts here. Where they are not, the formats can end
with different exit codes too: an argument that is not a text breaks a call off in one format and is
refused in the other, and its refusal is not counted among those of wrong usage. -/
namespace WordStem

/-- Two readings end alike: they are interrupted for the same reason, or their results are
related. -/
inductive EndAlike {α β : Type} (related : α → β → Prop) :
    Except Interruption α → Except Interruption β → Prop
  | interrupted (interruption : Interruption) :
      EndAlike related (.error interruption) (.error interruption)
  | finished {left : α} {right : β} :
      related left right → EndAlike related (.ok left) (.ok right)

theorem EndAlike.bind {α β γ δ : Type} {related : α → β → Prop} {relatedNext : γ → δ → Prop}
    {left : Except Interruption α} {right : Except Interruption β}
    {leftNext : α → Except Interruption γ} {rightNext : β → Except Interruption δ}
    (alike : EndAlike related left right)
    (nextAlike : ∀ leftValue rightValue, related leftValue rightValue →
      EndAlike relatedNext (leftNext leftValue) (rightNext rightValue)) :
    EndAlike relatedNext (left >>= leftNext) (right >>= rightNext) := by
  cases alike with
  | interrupted interruption => exact .interrupted interruption
  | finished values => exact nextAlike _ _ values

/-! ## Settings but for the format -/

/-- A setting, with the format left open. -/
def Setting.withoutFormat (setting : Setting) : Setting :=
  match setting with
  | .format _ => .format .human
  | other => other

theorem Setting.option_withoutFormat (setting : Setting) :
    setting.withoutFormat.option = setting.option := by
  cases setting <;> rfl

def SettingsAlike (left right : List Setting) : Prop :=
  left.map Setting.withoutFormat = right.map Setting.withoutFormat

namespace SettingsAlike

variable {left right : List Setting}

theorem append {leftMore rightMore : List Setting} (alike : SettingsAlike left right)
    (moreAlike : SettingsAlike leftMore rightMore) :
    SettingsAlike (left ++ leftMore) (right ++ rightMore) := by
  unfold SettingsAlike at *
  rw [List.map_append, List.map_append, alike, moreAlike]

/-- What does not look at the format is the same for settings that are alike. -/
theorem any_eq (alike : SettingsAlike left right) {test : Setting → Bool}
    (ignores : ∀ setting, test setting.withoutFormat = test setting) :
    left.any test = right.any test := by
  have testEq : test ∘ Setting.withoutFormat = test := funext ignores
  have mapped := congrArg (List.any · test) alike
  simpa only [List.any_map, testEq] using mapped

theorem findSome?_eq {α : Type} (alike : SettingsAlike left right) {value? : Setting → Option α}
    (ignores : ∀ setting, value? setting.withoutFormat = value? setting) :
    left.findSome? value? = right.findSome? value? := by
  have valueEq : value? ∘ Setting.withoutFormat = value? := funext ignores
  have mapped := congrArg (List.findSome? value?) alike
  simpa only [List.findSome?_map, valueEq] using mapped

theorem hasFlag_eq (alike : SettingsAlike left right) (option : OptionName) :
    hasFlag left option = hasFlag right option := by
  apply alike.any_eq
  intro setting
  cases setting <;> rfl

theorem settingsOfVariables_eq (alike : SettingsAlike left right)
    (environment : String → Option String) :
    settingsOfVariables environment left = settingsOfVariables environment right := by
  have given : ∀ option, left.any (fun one => decide (one.option = option)) =
      right.any (fun one => decide (one.option = option)) := by
    intro option
    apply alike.any_eq
    intro setting
    rw [setting.option_withoutFormat]
  simp only [settingsOfVariables, given]

theorem vectorRequest_eq (alike : SettingsAlike left right) (paths : List String) :
    VectorRequest.ofSettings left paths = VectorRequest.ofSettings right paths := by
  unfold VectorRequest.ofSettings
  rw [alike.hasFlag_eq, alike.hasFlag_eq, alike.findSome?_eq]
  intro setting
  cases setting <;> rfl

theorem command_eq (alike : SettingsAlike left right) (name : CommandName) (words : List String) :
    Command.ofSettings name left words = Command.ofSettings name right words := by
  cases name with
  | stem => simp only [Command.ofSettings, alike.hasFlag_eq]
  | vectorize => simp only [Command.ofSettings, alike.vectorRequest_eq]
  | languages => rfl
  | similar =>
    simp only [Command.ofSettings, alike.vectorRequest_eq]
    congr 1
    · congr 1
      apply alike.findSome?_eq
      intro setting
      cases setting <;> rfl
    · apply alike.findSome?_eq
      intro setting
      cases setting <;> rfl

theorem checks_eq (alike : SettingsAlike left right) (command? : Option (Command String))
    (sources : Sources String) :
    (Invocation.ofSettings left command?).checks sources =
      (Invocation.ofSettings right command?).checks sources := by
  have pathEq : (Invocation.ofSettings left command?).configurationPath? =
      (Invocation.ofSettings right command?).configurationPath? := by
    apply alike.findSome?_eq
    intro setting
    cases setting <;> rfl
  have languageEq : (Invocation.ofSettings left command?).language? =
      (Invocation.ofSettings right command?).language? := by
    apply alike.findSome?_eq
    intro setting
    cases setting <;> rfl
  unfold Invocation.checks Invocation.settingsChecks Invocation.room Invocation.settingsPath?
  rw [pathEq, languageEq]
  rfl

end SettingsAlike

/-! ## Readings but for the format -/

/-- What is not judged yet is the same, or it is the one format and the other. -/
inductive PendingArgument.Alike : PendingArgument → PendingArgument → Prop
  | same (pending : PendingArgument) : Alike pending pending
  | formats : Alike (.option .format (some "json")) (.option .format (some "human"))

namespace ArgumentReading

/-- Two readings that differ in nothing but the format. -/
structure Alike (left right : ArgumentReading) : Prop where
  settings : SettingsAlike left.settings right.settings
  words : left.words = right.words
  pending : left.pending.Alike right.pending

variable {command? : Option CommandName} {left right : ArgumentReading}

theorem Alike.refl (reading : ArgumentReading) : reading.Alike reading :=
  ⟨rfl, rfl, .same _⟩

theorem Alike.withPending (alike : left.Alike right) (pending : PendingArgument) :
    ({ left with pending } : ArgumentReading).Alike { right with pending } :=
  ⟨alike.settings, alike.words, .same pending⟩

theorem Alike.add (alike : left.Alike right) {leftSetting rightSetting : Setting}
    (settingAlike : leftSetting.withoutFormat = rightSetting.withoutFormat) :
    EndAlike Alike (left.add leftSetting) (right.add rightSetting) := by
  have optionEq : leftSetting.option = rightSetting.option := by
    rw [← leftSetting.option_withoutFormat, settingAlike, rightSetting.option_withoutFormat]
  have repeatedEq : left.settings.any (fun other => other.option = rightSetting.option) =
      right.settings.any (fun other => other.option = rightSetting.option) := by
    apply alike.settings.any_eq
    intro setting
    rw [setting.option_withoutFormat]
  unfold ArgumentReading.add
  rw [optionEq, repeatedEq]
  split
  · exact .interrupted _
  · refine .finished ⟨alike.settings.append ?_, alike.words, alike.pending⟩
    exact congrArg ([·]) settingAlike

theorem Alike.addValue (alike : left.Alike right) (option : OptionName) (value : String) :
    EndAlike Alike (left.addValue option value) (right.addValue option value) := by
  unfold ArgumentReading.addValue
  cases Setting.ofValue? option value with
  | none => exact .interrupted _
  | some setting => exact alike.add rfl

theorem Alike.settle (alike : left.Alike right) :
    EndAlike Alike (left.settle command?) (right.settle command?) := by
  obtain ⟨leftSettings, leftWords, leftPending⟩ := left
  obtain ⟨rightSettings, rightWords, rightPending⟩ := right
  obtain ⟨settingsAlike, wordsEq, pendingAlike⟩ := alike
  obtain rfl : leftWords = rightWords := wordsEq
  have settledAlike : (⟨leftSettings, leftWords, .nothing⟩ : ArgumentReading).Alike
      ⟨rightSettings, leftWords, .nothing⟩ := ⟨settingsAlike, rfl, .same _⟩
  cases pendingAlike with
  | formats => exact settledAlike.add rfl
  | same =>
    cases leftPending with
    | nothing => exact .finished settledAlike
    | option option value? =>
      cases value? with
      | none => exact .interrupted _
      | some value => exact settledAlike.addValue option value
    | words words =>
      unfold ArgumentReading.settle
      dsimp only
      split
      · exact .interrupted _
      · exact .finished ⟨settingsAlike, rfl, .same _⟩

theorem Alike.addWord (alike : left.Alike right) (word : String) :
    EndAlike Alike (left.addWord command? word) (right.addWord command? word) := by
  have begun : EndAlike Alike
      (do return { ← left.settle command? with pending := .words [word] })
      (do return { ← right.settle command? with pending := .words [word] }) := by
    apply alike.settle.bind
    intro leftSettled rightSettled settledAlike
    exact .finished (settledAlike.withPending _)
  have pendingAlike := alike.pending
  unfold ArgumentReading.addWord
  split
  · generalize left.pending = leftPending, right.pending = rightPending at pendingAlike
    cases pendingAlike with
    | formats => exact begun
    | same =>
      cases leftPending with
      | words words => exact .finished (alike.withPending _)
      | nothing => exact begun
      | option option value? => exact begun
  · exact .interrupted _

theorem Alike.takePlain (alike : left.Alike right) (argument : String) :
    EndAlike Alike (left.takePlain command? argument) (right.takePlain command? argument) := by
  have added : EndAlike Alike (left.addWord command? argument) (right.addWord command? argument) :=
    alike.addWord argument
  have pendingAlike := alike.pending
  unfold ArgumentReading.takePlain
  generalize left.pending = leftPending, right.pending = rightPending at pendingAlike
  cases pendingAlike with
  | formats => exact added
  | same =>
    cases leftPending with
    | words words => exact added
    | nothing => exact added
    | option option value? =>
      cases value? with
      | none => exact .finished (alike.withPending _)
      | some value => exact added

theorem Alike.takeFlag (alike : left.Alike right) (option : OptionName) :
    EndAlike Alike (left.takeFlag command? option) (right.takeFlag command? option) := by
  apply alike.settle.bind
  intro leftSettled rightSettled settledAlike
  split
  · exact .interrupted _
  · exact .interrupted _
  · exact settledAlike.add rfl

theorem Alike.takeOption (alike : left.Alike right) (option : OptionName)
    (value? : Option String) :
    EndAlike Alike (left.takeOption command? option value?)
      (right.takeOption command? option value?) := by
  apply alike.settle.bind
  intro leftSettled rightSettled settledAlike
  cases value? with
  | some value => exact settledAlike.addValue option value
  | none => exact .finished (settledAlike.withPending _)

theorem Alike.takeNamed (alike : left.Alike right) (text : List Char) :
    EndAlike Alike (left.takeNamed command? text) (right.takeNamed command? text) := by
  unfold ArgumentReading.takeNamed
  dsimp only
  split
  · exact .interrupted _
  · split
    · exact alike.takeOption _ _
    · split
      · exact .interrupted _
      · exact alike.takeFlag _

theorem Alike.takeLetters (alike : left.Alike right) (letters : List Char) :
    EndAlike Alike (left.takeLetters command? letters) (right.takeLetters command? letters) := by
  induction letters generalizing left right with
  | nil => exact .finished alike
  | cons letter rest ih =>
    unfold ArgumentReading.takeLetters
    dsimp only
    split
    · exact .interrupted _
    · split
      · exact alike.takeOption _ _
      · apply (alike.takeFlag _).bind
        intro leftNext rightNext nextAlike
        exact ih nextAlike

theorem Alike.awaitsValue_eq (alike : left.Alike right) : left.awaitsValue = right.awaitsValue := by
  have pendingAlike := alike.pending
  unfold ArgumentReading.awaitsValue
  generalize left.pending = leftPending, right.pending = rightPending at pendingAlike
  cases pendingAlike <;> rfl

end ArgumentReading

/-! ## Lines but for the format -/

/-- Two lines of arguments that differ in nothing but the value of one `--format`. No free argument
marks the arguments in front of it as free. -/
inductive LinesAlike : List String → List String → Prop
  | same (arguments : List String) : LinesAlike arguments arguments
  | behind (argument : String) {left right : List String} :
      argument ≠ "--" → LinesAlike left right → LinesAlike (argument :: left) (argument :: right)
  | formats (after : List String) :
      LinesAlike ("--format" :: "json" :: after) ("--format" :: "human" :: after)

theorem LinesAlike.of_separate {before : List String} (separate : "--" ∉ before)
    (after : List String) :
    LinesAlike (before ++ "--format" :: "json" :: after)
      (before ++ "--format" :: "human" :: after) := by
  induction before with
  | nil => exact .formats after
  | cons argument before ih =>
    rw [List.mem_cons, not_or] at separate
    exact .behind argument (Ne.symm separate.1) (ih separate.2)

theorem LinesAlike.helpOn_eq {left right : List String} (alike : LinesAlike left right)
    (command? : Option CommandName) : helpOn command? left = helpOn command? right := by
  induction alike generalizing command? with
  | same arguments => rfl
  | behind argument separate alike ih =>
    unfold helpOn
    simp only [ih]
  | formats after => cases command? <;> rfl

/-- Two readings are alike and end at the name of the same command, or at none. -/
inductive ReadAlike : ArgumentReading × Option (CommandName × List String) →
    ArgumentReading × Option (CommandName × List String) → Prop
  | complete {left right : ArgumentReading} :
      left.Alike right → ReadAlike (left, none) (right, none)
  | command {left right : ArgumentReading} (name : CommandName) {leftRest rightRest : List String} :
      left.Alike right → LinesAlike leftRest rightRest →
        ReadAlike (left, some (name, leftRest)) (right, some (name, rightRest))

section Reading

variable {command? : Option CommandName} {left right : ArgumentReading}

/-- One argument keeps two readings alike if the arguments behind it do. These are free only if the
argument was already free or is the mark in front of free arguments. -/
theorem readArguments_cons_alike {leftRest rightRest : List String} {argument : String}
    {allFree : Bool} (restAlike : LinesAlike leftRest rightRest)
    (tails : ∀ (free : Bool) (left right : ArgumentReading),
      (free = true → allFree = true ∨ argument = "--") → left.Alike right →
        EndAlike ReadAlike (readArguments command? left free leftRest)
          (readArguments command? right free rightRest))
    (alike : left.Alike right) :
    EndAlike ReadAlike (readArguments command? left allFree (argument :: leftRest))
      (readArguments command? right allFree (argument :: rightRest)) := by
  have continued {leftNext rightNext : Except Interruption ArgumentReading}
      (nextAlike : EndAlike ArgumentReading.Alike leftNext rightNext) :
      EndAlike ReadAlike (leftNext >>= fun next => readArguments command? next false leftRest)
        (rightNext >>= fun next => readArguments command? next false rightRest) :=
    nextAlike.bind fun _ _ => tails false _ _ (fun free => nomatch free)
  unfold readArguments
  rw [alike.awaitsValue_eq, restAlike.helpOn_eq]
  cases allFree with
  | true =>
    apply (alike.addWord argument).bind
    intro leftNext rightNext nextAlike
    exact tails true _ _ (fun _ => Or.inl rfl) nextAlike
  | false =>
    simp only [Bool.false_eq_true, if_false]
    cases CommandName.ofName? argument with
    | some name =>
      dsimp only
      split
      · exact .finished (.command name alike restAlike)
      · exact continued (alike.takePlain argument)
    | none =>
      dsimp only
      split
      · exact .interrupted _
      · split
        · -- The mark itself is read only here, so the arguments behind it are free from now on.
          rename_i hyphens
          apply tails true _ _ _ alike
          intro _
          right
          rw [← String.ofList_toList (s := argument), hyphens]
        · exact continued (alike.takeNamed _)
        · exact continued (alike.takeLetters _)
        · exact continued (alike.takePlain argument)

theorem readArguments_same_alike (arguments : List String) (allFree : Bool)
    (alike : left.Alike right) :
    EndAlike ReadAlike (readArguments command? left allFree arguments)
      (readArguments command? right allFree arguments) := by
  induction arguments generalizing left right allFree with
  | nil => exact .finished (.complete alike)
  | cons argument arguments ih =>
    apply readArguments_cons_alike (.same arguments) _ alike
    intro free left right _ alike
    exact ih free alike

theorem takeNamed_format (reading : ArgumentReading) :
    reading.takeNamed command? "format".toList = reading.takeOption command? .format none := by
  cases command? with
  | none => rfl
  | some name => cases name <;> rfl

/-- The argument behind `--format` is its value, which is not judged before the next argument. -/
theorem readArguments_format {value : String} (known : value = "json" ∨ value = "human")
    (reading : ArgumentReading) (after : List String) :
    readArguments command? reading false ("--format" :: value :: after) = (do
      let settled ← reading.settle command?
      readArguments command? { settled with pending := .option .format (some value) } false
        after) := by
  have valueTaken (settled : ArgumentReading) :
      readArguments command? { settled with pending := .option .format none } false
        (value :: after) =
      readArguments command? { settled with pending := .option .format (some value) } false
        after := by
    rcases known with rfl | rfl <;> cases command? <;> rfl
  have named : readArguments command? reading false ("--format" :: value :: after) = (do
      readArguments command? (← reading.takeNamed command? "format".toList) false
        (value :: after)) := by
    have isNoName : CommandName.ofName? "--format" = none := rfl
    have isNoHelp : ("--format" == "help") = false := rfl
    rw [readArguments]
    simp only [isNoName, isNoHelp, Bool.and_false, Bool.false_eq_true, if_false]
    rfl
  rw [named, takeNamed_format, ArgumentReading.takeOption, bind_assoc]
  congr 1
  funext settled
  exact valueTaken settled

theorem readArguments_alike {leftLine rightLine : List String}
    (lines : LinesAlike leftLine rightLine) (alike : left.Alike right) :
    EndAlike ReadAlike (readArguments command? left false leftLine)
      (readArguments command? right false rightLine) := by
  induction lines generalizing left right with
  | same arguments => exact readArguments_same_alike arguments false alike
  | behind argument separate lines ih =>
    apply readArguments_cons_alike lines _ alike
    intro free left right freed alike
    cases free with
    | false => exact ih alike
    | true => exact absurd (freed rfl) (by simpa using separate)
  | formats after =>
    rw [readArguments_format (Or.inl rfl), readArguments_format (Or.inr rfl)]
    apply alike.settle.bind
    intro leftSettled rightSettled settledAlike
    apply readArguments_same_alike
    exact ⟨settledAlike.settings, settledAlike.words, .formats⟩

theorem ArgumentReading.Alike.finish (alike : left.Alike right)
    (environment : String → Option String) :
    EndAlike (fun leftEnd rightEnd => SettingsAlike leftEnd.1 rightEnd.1 ∧ leftEnd.2 = rightEnd.2)
      (left.finish command? environment) (right.finish command? environment) := by
  apply alike.settle.bind
  intro leftSettled rightSettled settledAlike
  rw [settledAlike.settings.settingsOfVariables_eq, settledAlike.words]
  cases settingsOfVariables environment rightSettled.settings with
  | error interruption => exact .interrupted interruption
  | ok fromVariables =>
    show EndAlike _ (if _ then _ else _) (if _ then _ else _)
    split
    · exact .interrupted _
    · exact .finished ⟨settledAlike.settings, rfl⟩

end Reading

/-- Lines that are alike are interrupted alike, or request calls that make the same checks. -/
theorem Invocation.read_alike {leftLine rightLine : List String}
    (environment : String → Option String) (lines : LinesAlike leftLine rightLine) :
    EndAlike
      (fun left right => ∀ sources, left.checks sources = right.checks sources)
      (Invocation.read environment leftLine) (Invocation.read environment rightLine) := by
  apply (readArguments_alike lines (ArgumentReading.Alike.refl {})).bind
  intro left right readAlike
  cases readAlike with
  | complete outerAlike =>
    apply (outerAlike.finish environment).bind
    rintro ⟨leftSettings, leftRest⟩ ⟨rightSettings, rightRest⟩ ⟨settingsAlike, restEq⟩
    obtain rfl : leftRest = rightRest := restEq
    apply EndAlike.finished
    exact SettingsAlike.checks_eq (settingsAlike.append rfl) none
  | command name outerAlike restAlike =>
    -- What stands behind the name of the command is read and judged first.
    apply (readArguments_alike restAlike (ArgumentReading.Alike.refl {})).bind
    intro leftInner rightInner innerRead
    have innerAlike : leftInner.1.Alike rightInner.1 := by
      cases innerRead with
      | complete alike => exact alike
      | command name alike restAlike => exact alike
    apply (innerAlike.finish environment).bind
    rintro ⟨leftInnerSettings, _, leftWords⟩ ⟨rightInnerSettings, _, rightWords⟩
      ⟨innerSettingsAlike, innerRestEq⟩
    obtain ⟨rfl, rfl⟩ := Prod.mk.inj innerRestEq
    apply (outerAlike.finish environment).bind
    rintro ⟨leftSettings, leftRest⟩ ⟨rightSettings, rightRest⟩ ⟨settingsAlike, restEq⟩
    obtain rfl : leftRest = rightRest := restEq
    have allAlike := (innerSettingsAlike.append settingsAlike).append
      (rfl : SettingsAlike leftRest.1 leftRest.1)
    apply EndAlike.finished
    intro sources
    rw [allAlike.command_eq]
    exact allAlike.checks_eq _ sources

/-! ## The exit codes of the two calls -/

def Stop.exitCode : Stop → ExitCode
  | failed failure => failure.exitCode
  | brokenOff _ => .brokenOff

theorem CallResult.EndsWith.exitCode_eq {result : CallResult} {format : OutputFormat} {quiet : Bool}
    {stop? : Option Stop} (ends : result.EndsWith format quiet stop?) :
    result.exitCode = stop?.elim .success Stop.exitCode := by
  cases stop? with
  | none => exact ends.1
  | some stop =>
    cases stop with
    | failed failure => exact CallResult.Announces.exitCode ends
    | brokenOff reason => exact CallResult.BreaksOff.exitCode ends

theorem ArgumentRefusal.exitCode_failure {refusal : ArgumentRefusal}
    (needed : ∀ option value, refusal ≠ .needlessValue option value) :
    refusal.failure.exitCode = .usage := by
  cases refusal with
  | needlessValue option value => exact absurd rfl (needed option value)
  | _ => rfl

theorem exitCode_interrupted_refusal {refusal : ArgumentRefusal}
    (needed : ∀ option value, refusal ≠ .needlessValue option value)
    (helpText : Option CommandName → String) (wantsJson : Bool) :
    (CommandLine.interrupted helpText wantsJson (.refusal refusal)).exitCode = .usage := by
  unfold CommandLine.interrupted
  dsimp only
  split
  · exact refusal.exitCode_failure needed
  · rfl

theorem exitCode_interrupted_eq {interruption : Interruption}
    (needed : ∀ option value, interruption ≠ .refusal (.needlessValue option value))
    (helpText : Option CommandName → String) (wantsJson otherWantsJson : Bool) :
    (CommandLine.interrupted helpText wantsJson interruption).exitCode =
      (CommandLine.interrupted helpText otherWantsJson interruption).exitCode := by
  cases interruption with
  | help command? => rfl
  | version command? => rfl
  | refusal refusal =>
    have refusalNeeded : ∀ option value, refusal ≠ .needlessValue option value := by
      intro option value equal
      exact needed option value (congrArg Interruption.refusal equal)
    rw [exitCode_interrupted_refusal refusalNeeded, exitCode_interrupted_refusal refusalNeeded]

/-- The call with `--format` and a value for it at a place in the line of arguments. -/
def Surroundings.withFormat (surroundings : Surroundings) (before after : List String)
    (value : String) : Surroundings :=
  { surroundings with arguments := before ++ "--format" :: value :: after }

section TwoCalls

variable {surroundings : Surroundings} {before after : List String}

/-- Both formats end with the same exit code, and a refused line ends with that of wrong usage,
unless it is refused because an option that takes no value was given one. -/
theorem exitCode_independent_of_format (separate : "--" ∉ before)
    (needed : ∀ option value,
      Invocation.read surroundings.environment (before ++ "--format" :: "human" :: after) ≠
        .error (.refusal (.needlessValue option value))) :
    (CommandLine.run (surroundings.withFormat before after "json")).exitCode =
        (CommandLine.run (surroundings.withFormat before after "human")).exitCode ∧
      ∀ value ∈ ["json", "human"], ∀ refusal,
        Invocation.read surroundings.environment (before ++ "--format" :: value :: after) =
            .error (.refusal refusal) →
          (CommandLine.run (surroundings.withFormat before after value)).exitCode = .usage := by
  have readAlike := Invocation.read_alike surroundings.environment
    (LinesAlike.of_separate separate after)
  simp only [CommandLine.run, CommandLine.start, findJsonRequest_map_some, Surroundings.withFormat,
    List.forall_mem_cons]
  generalize Invocation.read surroundings.environment (before ++ "--format" :: "json" :: after) =
    jsonRead at readAlike ⊢
  generalize Invocation.read surroundings.environment (before ++ "--format" :: "human" :: after) =
    humanRead at readAlike needed ⊢
  cases readAlike with
  | finished sameChecks =>
    -- The exit code of a call that runs is that of its first failing check, in either format.
    refine ⟨?_, ?_, ?_, by simp⟩
    · dsimp only
      rw [(endsWith_execute _ _).exitCode_eq, (endsWith_execute _ _).exitCode_eq, sameChecks]
    · intro refusal refused
      cases refused
    · intro refusal refused
      cases refused
  | interrupted interruption =>
    have interruptionNeeded : ∀ option value,
        interruption ≠ .refusal (.needlessValue option value) := by
      intro option value equal
      exact needed option value (congrArg Except.error equal)
    have usage : ∀ wantsJson refusal,
        (Except.error interruption : Except Interruption (Invocation String)) =
            .error (.refusal refusal) →
          (CommandLine.interrupted surroundings.helpText wantsJson interruption).exitCode =
            .usage := by
      intro wantsJson refusal refused
      obtain rfl := Except.error.inj refused
      apply exitCode_interrupted_refusal
      intro option value equal
      exact interruptionNeeded option value (congrArg Interruption.refusal equal)
    exact ⟨exitCode_interrupted_eq interruptionNeeded _ _ _, usage _, usage _, by simp⟩

end TwoCalls

/-- Surroundings without any file, input or variable. -/
def Surroundings.bare : Surroundings where
  arguments := []
  environment := fun _ => none
  directory := "/"
  files := .ofTexts fun _ => .error .missing
  standardInput := .empty

theorem exitCode_independent_of_format_unknownOption :
    (CommandLine.run (Surroundings.bare.withFormat [] ["stem", "--bogus-flag"] "json")).exitCode =
        .usage ∧
      (CommandLine.run
        (Surroundings.bare.withFormat [] ["stem", "--bogus-flag"] "human")).exitCode = .usage := by
  have refused : Invocation.read Surroundings.bare.environment
      ([] ++ "--format" :: "human" :: ["stem", "--bogus-flag"]) =
        .error (.refusal (.unexpected "--bogus-flag")) := rfl
  have needed : ∀ option value,
      Invocation.read Surroundings.bare.environment
          ([] ++ "--format" :: "human" :: ["stem", "--bogus-flag"]) ≠
        .error (.refusal (.needlessValue option value)) := by
    intro option value equal
    cases refused.symm.trans equal
  obtain ⟨sameCode, usage⟩ := exitCode_independent_of_format (by simp) needed
  have humanUsage := usage "human" (by simp) _ refused
  exact ⟨sameCode.trans humanUsage, humanUsage⟩

/-! ## A value given to an option that takes none -/

theorem asksForJson_format {before : List String} (first : "--format" ∉ before)
    (value : String) (after : List String) :
    asksForJson (before ++ "--format" :: value :: after) =
      (before.contains "--format=json" || value == "json" || asksForJson after) := by
  induction before with
  | nil => simp [asksForJson_separate]
  | cons argument before ih =>
    rw [List.mem_cons, not_or] at first
    rw [List.cons_append, asksForJson_cons (Ne.symm first.1), ih first.2, List.contains_cons]
    simp only [Bool.or_assoc, Bool.beq_comm]

theorem asksForJson_eq_false {arguments : List String} (separate : "--format" ∉ arguments)
    (attached : "--format=json" ∉ arguments) : asksForJson arguments = false := by
  induction arguments with
  | nil => rfl
  | cons argument arguments ih =>
    rw [List.mem_cons, not_or] at separate attached
    rw [asksForJson_cons (Ne.symm separate.1), ih separate.2 attached.2, Bool.or_false]
    exact beq_false_of_ne (Ne.symm attached.1)

/-- A line with one `--format` that is refused for a needless value ends as some other failure in
JSON, and as wrong usage for people. -/
theorem exitCodes_of_needlessValue {surroundings : Surroundings} {before after : List String}
    {option : OptionName} {value : String} (separate : "--" ∉ before)
    (onlyFormat : "--format" ∉ before ∧ "--format" ∉ after)
    (noneAttached : "--format=json" ∉ before ∧ "--format=json" ∉ after)
    (refused : Invocation.read surroundings.environment (before ++ "--format" :: "human" :: after) =
      .error (.refusal (.needlessValue option value))) :
    (CommandLine.run (surroundings.withFormat before after "json")).exitCode = .failure ∧
      (CommandLine.run (surroundings.withFormat before after "human")).exitCode = .usage := by
  have readAlike := Invocation.read_alike surroundings.environment
    (LinesAlike.of_separate separate after)
  have jsonAsked : asksForJson (before ++ "--format" :: "json" :: after) = true := by
    rw [asksForJson_format onlyFormat.1]
    simp
  have jsonNotAsked : asksForJson (before ++ "--format" :: "human" :: after) = false := by
    rw [asksForJson_format onlyFormat.1, asksForJson_eq_false onlyFormat.2 noneAttached.2]
    simpa using noneAttached.1
  rw [refused] at readAlike
  simp only [CommandLine.run, CommandLine.start, findJsonRequest_map_some, Surroundings.withFormat,
    refused]
  generalize Invocation.read surroundings.environment (before ++ "--format" :: "json" :: after) =
    jsonRead at readAlike ⊢
  cases readAlike with
  | interrupted =>
    simp only [CommandLine.interrupted, jsonAsked, jsonNotAsked]
    exact ⟨rfl, rfl⟩

/-- `--lowercase` takes no value. -/
theorem exitCodes_differ_lowercaseValue :
    (CommandLine.run (Surroundings.bare.withFormat [] ["stem", "--lowercase=1"] "json")).exitCode =
        .failure ∧
      (CommandLine.run
        (Surroundings.bare.withFormat [] ["stem", "--lowercase=1"] "human")).exitCode = .usage := by
  have refused : Invocation.read Surroundings.bare.environment
      ([] ++ "--format" :: "human" :: ["stem", "--lowercase=1"]) =
        .error (.refusal (.needlessValue .lowercase "1")) := rfl
  exact exitCodes_of_needlessValue (by simp) (by simp) (by simp) refused

end WordStem
