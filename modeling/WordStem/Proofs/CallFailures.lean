import WordStem.Proofs.CallChecks

/-! # How a call ends

The first check of a call that does not pass decides how it ends, however many come after it and
however much has been computed by then, and nothing has been printed. Main statement:
`calls_end_as_first_stop`.

Not every call that ends early fails in a way that the program announces. It is broken off where a
document should have more room than there can be, which the settings may ask for, and where an
argument is not a text and JSON has not been asked for in front of it. -/
namespace WordStem

theorem Failure.exitCode_ne_success (failure : Failure) : failure.exitCode ≠ .success := by
  cases failure <;> simp [exitCode]

theorem Failure.exitCode_ne_brokenOff (failure : Failure) : failure.exitCode ≠ .brokenOff := by
  cases failure <;> simp [exitCode]

/-- A call that has failed has printed its failure and nothing else. The JSON form of the failure
holds the exit code of the call, and is printed even if the call should be quiet. -/
structure CallResult.Announces (result : CallResult) (format : OutputFormat) (quiet : Bool)
    (failure : Failure) : Prop where
  exitCode : result.exitCode = failure.exitCode
  unsuccessful : result.exitCode ≠ .success
  noOutput : result.output = ""
  errors : result.errors =
    match format with
    | .json =>
      (JsonValue.record [("error", .record [
        ("code", .whole result.exitCode.number),
        ("message", .text failure.message),
        ("type", .text failure.kind)])]).compact ++ "\n"
    | .human => if quiet then "" else "error: " ++ failure.message ++ "\n"

/-- A call that has been broken off has an exit code of its own, and has printed no output. -/
structure CallResult.BreaksOff (result : CallResult) (reason : String) : Prop where
  exitCode : result.exitCode = .brokenOff
  noOutput : result.output = ""
  errors : result.errors = reason ++ "\n"

theorem announces_failed (format : OutputFormat) (quiet : Bool) (failure : Failure) :
    (CommandLine.failed format quiet failure "").Announces format quiet failure where
  exitCode := rfl
  unsuccessful := failure.exitCode_ne_success
  noOutput := rfl
  errors := by cases format <;> rfl

/-- A call ends in a given way, or else successfully and without a word on its errors. -/
def CallResult.EndsWith (result : CallResult) (format : OutputFormat) (quiet : Bool)
    (stop? : Option Stop) : Prop :=
  match stop? with
  | none => result.exitCode = .success ∧ result.errors = ""
  | some (.failed failure) => result.Announces format quiet failure
  | some (.brokenOff reason) => result.BreaksOff reason

section Calls

variable {Path : Type} {sources : Sources Path} {invocation : Invocation Path}
  {result : CallResult} {format : OutputFormat} {quiet : Bool} {stop? : Option Stop}
  {check : Check Path} {checks : List (Check Path)} {reason : String}

theorem endsWith_execute (sources : Sources Path) (invocation : Invocation Path) :
    (CommandLine.execute sources invocation).EndsWith invocation.format invocation.quiet
      (firstStop? sources (invocation.checks sources)) := by
  have performs := performs_perform sources invocation
  unfold CommandLine.execute
  generalize firstStop? sources (invocation.checks sources) = stop? at performs ⊢
  cases stop? with
  | none =>
    obtain ⟨after, runs⟩ := performs ""
    rw [runs]
    exact ⟨rfl, rfl⟩
  | some stop =>
    rw [performs ""]
    cases stop with
    | failed failure => exact announces_failed _ _ failure
    | brokenOff reason => exact ⟨rfl, rfl, rfl⟩

theorem CallResult.EndsWith.eq_none_of_success (ends : result.EndsWith format quiet stop?)
    (succeeds : result.exitCode = .success) : stop? = none := by
  cases stop? with
  | none => rfl
  | some stop =>
    cases stop with
    | failed failure => exact absurd succeeds (CallResult.Announces.unsuccessful ends)
    | brokenOff reason =>
      cases succeeds.symm.trans (CallResult.BreaksOff.exitCode ends)

theorem succeeds_execute
    (passes : firstStop? sources (invocation.checks sources) = none) :
    (CommandLine.execute sources invocation).exitCode = .success := by
  have ends := endsWith_execute sources invocation
  rw [passes] at ends
  exact ends.1

theorem breaksOff_execute
    (stops : firstStop? sources (invocation.checks sources) = some (.brokenOff reason)) :
    (CommandLine.execute sources invocation).BreaksOff reason := by
  have ends := endsWith_execute sources invocation
  rw [stops] at ends
  exact ends

theorem CallResult.EndsWith.noOutput (ends : result.EndsWith format quiet stop?)
    (unsuccessful : result.exitCode ≠ .success) : result.output = "" := by
  cases stop? with
  | none => exact absurd ends.1 unsuccessful
  | some stop =>
    cases stop with
    | failed failure => exact CallResult.Announces.noOutput ends
    | brokenOff reason => exact CallResult.BreaksOff.noOutput ends

/-! ## Calls that are broken off -/

/-- Two checks alone break a call off. -/
theorem Check.eq_of_breaksOff (stops : check.stop? sources = some (.brokenOff reason)) :
    (∃ handed, check = .arguments handed ∧ none ∈ handed ∧
        asksForJson (textsInFront handed) = false) ∨
      ∃ count, check = .room count ∧ 2 ^ 60 ≤ count := by
  cases check with
  | arguments handed =>
    left
    rw [Check.stop?] at stops
    split at stops
    case isTrue noText => exact ⟨handed, rfl, noText⟩
    case isFalse => cases stops
  | room count =>
    right
    rw [Check.stop?] at stops
    split at stops
    case isTrue vast => exact ⟨count, rfl, vast⟩
    case isFalse => cases stops
  | directory | settingsText | settingsSense | languageName | fileCount | inputLine =>
    rw [Check.stop?] at stops
    split at stops <;> cases stops
  | settingsFile | file | inputEnd =>
    rw [Check.stop?, Option.map_eq_some_iff] at stops
    obtain ⟨refusal, -, stopEq⟩ := stops
    cases stopEq

theorem Command.vast_of_breaksOff {command : Command Path} {room : Nat}
    (member : check ∈ command.checks sources room)
    (stops : check.stop? sources = some (.brokenOff reason)) : 2 ^ 60 ≤ room := by
  obtain ⟨handed, rfl, -⟩ | ⟨count, rfl, vast⟩ := Check.eq_of_breaksOff stops
  · cases command with
    | stem given lowercased => cases given <;> simp [checks, inputChecks] at member
    | languages | vectorize | similar => simp [checks, fileChecks] at member
  · have isRoom : count = room := by
      cases command with
      | stem given lowercased => cases given <;> simp [checks, inputChecks] at member
      | languages => cases member
      | vectorize request | similar request =>
        have found : request.paths ≠ [] ∧ count = room := by
          simpa [checks, fileChecks, List.eq_nil_iff_forall_not_mem] using member
        exact found.2
    exact isRoom ▸ vast

/-- A call whose arguments make a request is only broken off where its settings ask for more room
than there can be. -/
theorem Invocation.vast_of_breaksOff (member : check ∈ invocation.checks sources)
    (stops : check.stop? sources = some (.brokenOff reason)) :
    2 ^ 60 ≤ invocation.room sources := by
  rw [checks, List.mem_append, List.mem_append] at member
  obtain inSettings | inName | inCommand := member
  · obtain ⟨handed, rfl, -⟩ | ⟨count, rfl, -⟩ := Check.eq_of_breaksOff stops <;>
      simp [settingsChecks, settingsFileChecks] at inSettings
  · obtain ⟨handed, rfl, -⟩ | ⟨count, rfl, -⟩ := Check.eq_of_breaksOff stops <;>
      simp at inName
  · obtain ⟨command, -, member⟩ := List.mem_flatMap.mp inCommand
    exact command.vast_of_breaksOff member stops

/-! ## Arguments that are not texts -/

theorem asksForJson_separate (value : String) (after : List String) :
    asksForJson ("--format" :: value :: after) = (value == "json" || asksForJson after) := by
  by_cases json : value = "json" <;> simp [asksForJson, findJsonRequest, json]

theorem asksForJson_cons {argument : String} (other : argument ≠ "--format")
    (arguments : List String) :
    asksForJson (argument :: arguments) =
      (argument == "--format=json" || asksForJson arguments) := by
  rw [asksForJson, List.map_cons, findJsonRequest.eq_def]
  by_cases attached : argument = "--format=json" <;> simp [asksForJson, other, attached]

/-- The search for a request for JSON breaks off exactly if something is not a text and nothing in
front of it is a request. -/
theorem findJsonRequest_eq_none_iff (handed : List (Option String)) :
    findJsonRequest handed = none ↔
      none ∈ handed ∧ asksForJson (textsInFront handed) = false := by
  fun_induction findJsonRequest handed with
  | case1 => simp
  | case2 rest => simp [textsInFront, asksForJson, findJsonRequest]
  | case3 => simp
  | case4 rest => simp [textsInFront, asksForJson, findJsonRequest]
  | case5 others => simp [textsInFront, asksForJson_separate]
  | case6 value others notJson ih =>
    simpa [textsInFront, asksForJson_separate, notJson] using ih
  | case7 rest notSeparate => simp [textsInFront, asksForJson_cons]
  | case8 argument rest notSeparate notAttached ih =>
    simpa [textsInFront, asksForJson_cons notSeparate, notAttached] using ih

theorem findJsonRequest_map_some (arguments : List String) :
    findJsonRequest (arguments.map some) = some (asksForJson arguments) := by
  have found : findJsonRequest (arguments.map some) ≠ none := by
    rw [ne_eq, findJsonRequest_eq_none_iff]
    simp
  obtain ⟨answer, answerEq⟩ := Option.ne_none_iff_exists'.mp found
  rw [asksForJson, answerEq, Option.getD_some]

theorem endsWith_start (sources : Sources Path) (helpText : Option CommandName → String)
    (handed : List (Option String)) (invocation : Invocation Path) :
    (CommandLine.start sources helpText handed (.ok invocation)).EndsWith invocation.format
      invocation.quiet (firstStop? sources (.arguments handed :: invocation.checks sources)) := by
  rw [firstStop?_cons, Check.stop?, CommandLine.start]
  dsimp only
  cases found : findJsonRequest handed with
  | none =>
    rw [if_pos ((findJsonRequest_eq_none_iff handed).mp found)]
    exact ⟨rfl, rfl, rfl⟩
  | some wantsJson =>
    have answered : findJsonRequest handed ≠ none := by
      rw [found]
      exact Option.some_ne_none wantsJson
    rw [if_neg (mt (findJsonRequest_eq_none_iff handed).mpr answered), Option.none_or]
    exact endsWith_execute sources invocation

/-- A call ends as the first of some checks that does not pass: it announces a failure and has the
exit code of that failure, or it is broken off, and it has printed no output. It succeeds if they
all pass. -/
structure CallResult.FollowsChecks (result : CallResult) (sources : Sources Path)
    (invocation : Invocation Path) (checks : List (Check Path)) : Prop where
  ends : result.EndsWith invocation.format invocation.quiet (firstStop? sources checks)
  noOutput : result.exitCode ≠ .success → result.output = ""

theorem CallResult.EndsWith.followsChecks
    (ends : result.EndsWith invocation.format invocation.quiet (firstStop? sources checks)) :
    result.FollowsChecks sources invocation checks where
  ends := ends
  noOutput := ends.noOutput

/-- A call that is broken off has a check that says so. -/
theorem CallResult.FollowsChecks.exists_breaksOff
    (follows : result.FollowsChecks sources invocation checks)
    (broken : result.exitCode = .brokenOff) :
    ∃ check ∈ checks, ∃ reason, check.stop? sources = some (.brokenOff reason) := by
  have ends := follows.ends
  cases found : firstStop? sources checks with
  | none =>
    rw [found] at ends
    cases broken.symm.trans ends.1
  | some stop =>
    rw [found] at ends
    cases stop with
    | failed failure =>
      exact absurd ((CallResult.Announces.exitCode ends).symm.trans broken)
        failure.exitCode_ne_brokenOff
    | brokenOff reason =>
      obtain ⟨check, member, stops⟩ := List.exists_of_findSome?_eq_some found
      exact ⟨check, member, reason, stops⟩

theorem followsChecks_start (sources : Sources Path) (helpText : Option CommandName → String)
    (handed : List (Option String)) (invocation : Invocation Path) :
    (CommandLine.start sources helpText handed (.ok invocation)).FollowsChecks sources invocation
      (.arguments handed :: invocation.checks sources) :=
  (endsWith_start sources helpText handed invocation).followsChecks

end Calls

theorem run_eq_execute {surroundings : Surroundings} {invocation : Invocation String}
    (requested : Invocation.read surroundings.environment surroundings.arguments = .ok invocation) :
    CommandLine.run surroundings = CommandLine.execute surroundings.toSources invocation := by
  rw [CommandLine.run, CommandLine.start, findJsonRequest_map_some, requested]

theorem followsChecks_run {surroundings : Surroundings} {invocation : Invocation String}
    (requested : Invocation.read surroundings.environment surroundings.arguments = .ok invocation) :
    (CommandLine.run surroundings).FollowsChecks surroundings.toSources invocation
      (invocation.checks surroundings.toSources) := by
  rw [run_eq_execute requested]
  exact (endsWith_execute surroundings.toSources invocation).followsChecks

/-- A call whose arguments make a request ends as the first of its checks that does not pass. If the
room that it asks for can be there, it succeeds or announces a failure. The same is true of
arguments and paths that need not be texts. They are checked first, and a call may also be broken
off because one of them is not a text and JSON has not been asked for in front of it. -/
theorem calls_end_as_first_stop (surroundings : Surroundings) {invocation : Invocation String}
    (requested : Invocation.read surroundings.environment surroundings.arguments = .ok invocation) :
    (CommandLine.run surroundings).FollowsChecks surroundings.toSources invocation
        (invocation.checks surroundings.toSources) ∧
      (invocation.room surroundings.toSources < 2 ^ 60 →
        (CommandLine.run surroundings).exitCode ≠ .brokenOff) ∧
      ∀ (Path : Type) (sources : Sources Path) (helpText : Option CommandName → String)
          (handed : List (Option String)) (invocation : Invocation Path),
        let result := CommandLine.start sources helpText handed (.ok invocation)
        result.FollowsChecks sources invocation (.arguments handed :: invocation.checks sources) ∧
          (invocation.room sources < 2 ^ 60 →
            (none ∈ handed → asksForJson (textsInFront handed) = true) →
            result.exitCode ≠ .brokenOff) := by
  have follows := followsChecks_run requested
  refine ⟨follows, fun fits broken => ?_, fun Path sources helpText handed invocation => ?_⟩
  · obtain ⟨check, member, reason, stops⟩ := follows.exists_breaksOff broken
    have vast := invocation.vast_of_breaksOff member stops
    omega
  · have follows := followsChecks_start sources helpText handed invocation
    refine ⟨follows, fun fits texts broken => ?_⟩
    obtain ⟨check, member, reason, stops⟩ := follows.exists_breaksOff broken
    rw [List.mem_cons] at member
    obtain rfl | member := member
    · obtain ⟨_, handedEq, noText, noRequest⟩ | ⟨_, isRoom, -⟩ := Check.eq_of_breaksOff stops
      · cases handedEq
        rw [texts noText] at noRequest
        cases noRequest
      · cases isRoom
    · have vast := invocation.vast_of_breaksOff member stops
      omega

/-- A call that is to make vectors of two files, the second of which is missing. -/
def missingLastFile : Surroundings where
  arguments := ["--format", "json", "--quiet", "vectorize", "first", "second"]
  environment := fun _ => none
  directory := "/"
  files := .ofTexts fun path => if path = "first" then .ok "ház".toUTF8 else .error .missing
  standardInput := .empty

theorem calls_end_as_first_stop_missingLastFile :
    (CommandLine.run missingLastFile).Announces .json true
      (.failedOperation "read" "second" FileRefusal.missing.reason) := by
  have requested : Invocation.read missingLastFile.environment missingLastFile.arguments =
      .ok {
        format := .json
        configurationPath? := none
        language? := none
        quiet := true
        command? := some (.vectorize {
          paths := ["first", "second"]
          weighting? := none
          normalize := false
          stemmed := true }) } := rfl
  exact (calls_end_as_first_stop missingLastFile requested).1.ends

/-- A call for the vector of one file with settings that pass every check of theirs, but ask for
more room than there can be. -/
def vastRoom : Surroundings where
  arguments := ["--format", "json", "vectorize", "first"]
  environment := fun _ => none
  directory := "/"
  files := .ofTexts fun path =>
    if path = "/lexis.toml" then
      .ok "[vector]\ninitial_capacity = 1152921504606846976\n".toUTF8
    else if path = "first" then .ok "ház".toUTF8
    else .error .missing
  standardInput := .empty

def vastRoomInvocation : Invocation String where
  format := .json
  configurationPath? := none
  language? := none
  quiet := false
  command? := some (.vectorize {
    paths := ["first"]
    weighting? := none
    normalize := false
    stemmed := true })

/-- The call is broken off: it does not succeed, and it announces no failure. -/
theorem run_breaks_off_vastRoom :
    Invocation.read vastRoom.environment vastRoom.arguments = .ok vastRoomInvocation ∧
      (CommandLine.run vastRoom).exitCode.number = 101 ∧ (CommandLine.run vastRoom).output = "" ∧
        ∀ failure, ¬ (CommandLine.run vastRoom).Announces .json false failure := by
  have requested :
      Invocation.read vastRoom.environment vastRoom.arguments = .ok vastRoomInvocation := rfl
  have stops : firstStop? vastRoom.toSources (vastRoomInvocation.checks vastRoom.toSources) =
      some (.brokenOff "capacity overflow") := by
    decide +kernel
  have breaksOff := breaksOff_execute stops
  rw [← run_eq_execute requested] at breaksOff
  refine ⟨requested, congrArg ExitCode.number breaksOff.exitCode, breaksOff.noOutput, ?_⟩
  intro failure announces
  exact failure.exitCode_ne_brokenOff (announces.exitCode.symm.trans breaksOff.exitCode)

end WordStem
