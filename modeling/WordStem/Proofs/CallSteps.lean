import WordStem.Call

/-! # Steps of calls

A call in progress first reads and computes, and prints at its end. A step that reads prints
nothing: whether it answers or ends the call, what has been printed is what was printed before it.
So a call that prints in its last step alone has printed nothing if it ends early, and the first
step that ends it decides how. Main results: `Reads.bind` for two steps that read, and `Reads.bind_performs` for a
last step that prints. -/
namespace WordStem.CallM

section Steps

variable {α β : Type} {step : CallM α} {next : α → CallM β} {printed after : String}

theorem run_bind_of_ok {answer : α} (answers : step.run printed = .ok answer after) :
    (step >>= next).run printed = (next answer).run after := by
  change EStateM.bind step next printed = _
  rw [EStateM.bind, show step printed = _ from answers]
  rfl

theorem run_bind_of_error {stop : Stop} (ends : step.run printed = .error stop after) :
    (step >>= next).run printed = .error stop after := by
  change EStateM.bind step next printed = _
  rw [EStateM.bind, show step printed = _ from ends]

/-- Lines are printed behind what has been printed, each with a line break. -/
theorem run_printLines (lines : List String) :
    (printLines lines).run printed =
      .ok () (printed ++ String.join (lines.map fun line => line ++ "\n")) := by
  induction lines generalizing printed with
  | nil =>
    rw [List.map_nil, String.join_nil, String.append_empty]
    rfl
  | cons line lines ih =>
    have first : (printLine line).run printed = .ok () (printed ++ line ++ "\n") := rfl
    change (printLine line >>= fun _ => printLines lines).run printed = _
    rw [run_bind_of_ok first, ih, List.map_cons, String.join_cons]
    simp only [String.append_assoc]

/-! ## Steps that read -/

/-- A step prints nothing, and it ends the call in a given way, or else has an answer of which
something is known. -/
def Reads (step : CallM α) (known : α → Prop) (stop? : Option Stop) : Prop :=
  match stop? with
  | none => ∃ answer, known answer ∧ ∀ printed, step.run printed = .ok answer printed
  | some stop => ∀ printed, step.run printed = .error stop printed

/-- A call prints nothing if it ends early in a given way, and does not end early otherwise. -/
def Performs (call : CallM Unit) (stop? : Option Stop) : Prop :=
  match stop? with
  | none => ∀ printed, ∃ after, call.run printed = .ok () after
  | some stop => ∀ printed, call.run printed = .error stop printed

variable {known : α → Prop} {stop? later? : Option Stop}

theorem reads_pure {answer : α} (holds : known answer) : (pure answer : CallM α).Reads known none :=
  ⟨answer, holds, fun _ => rfl⟩

theorem reads_fail (failure : Failure) :
    (fail failure : CallM α).Reads known (some (.failed failure)) :=
  fun _ => rfl

theorem reads_breakOff (reason : String) :
    (breakOff reason : CallM α).Reads known (some (.brokenOff reason)) :=
  fun _ => rfl

theorem performs_fail (failure : Failure) : (fail failure).Performs (some (.failed failure)) :=
  fun _ => rfl

theorem performs_printLines (lines : List String) : (printLines lines).Performs none :=
  fun _ => ⟨_, run_printLines lines⟩

theorem Reads.weaken {weaker : α → Prop} (reads : step.Reads known stop?)
    (implies : ∀ answer, known answer → weaker answer) : step.Reads weaker stop? := by
  cases stop? with
  | none =>
    obtain ⟨answer, holds, runs⟩ := reads
    exact ⟨answer, implies answer holds, runs⟩
  | some stop => exact reads

/-- Two steps in a row end the call as the first one does, or else as the second one does. -/
theorem Reads.bind {knownNext : β → Prop} (reads : step.Reads known stop?)
    (readsNext : ∀ answer, known answer → (next answer).Reads knownNext later?) :
    (step >>= next).Reads knownNext (stop?.or later?) := by
  cases stop? with
  | some stop => exact fun printed => run_bind_of_error (reads printed)
  | none =>
    obtain ⟨answer, holds, runs⟩ := reads
    have readsOn := readsNext answer holds
    cases later? with
    | none =>
      obtain ⟨last, lastHolds, runsLast⟩ := readsOn
      refine ⟨last, lastHolds, fun printed => ?_⟩
      exact (run_bind_of_ok (runs printed)).trans (runsLast printed)
    | some later => exact fun printed => (run_bind_of_ok (runs printed)).trans (readsOn printed)

theorem Reads.bind_performs {next : α → CallM Unit} (reads : step.Reads known stop?)
    (performsNext : ∀ answer, known answer → (next answer).Performs later?) :
    (step >>= next).Performs (stop?.or later?) := by
  cases stop? with
  | some stop => exact fun printed => run_bind_of_error (reads printed)
  | none =>
    obtain ⟨answer, holds, runs⟩ := reads
    have performsOn := performsNext answer holds
    cases later? with
    | none =>
      intro printed
      obtain ⟨after, runsLast⟩ := performsOn printed
      exact ⟨after, (run_bind_of_ok (runs printed)).trans runsLast⟩
    | some later => exact fun printed => (run_bind_of_ok (runs printed)).trans (performsOn printed)

/-- Steps for one item after the other end the call as the first of them does that ends it. What is
known of an answer may depend on the items visited. -/
theorem Reads.foldlM {ι : Type} {visit : α → ι → CallM α} {knownAt : List ι → α → Prop}
    {stopAt? : ι → Option Stop}
    (reads : ∀ visited answer item, knownAt visited answer →
      (visit answer item).Reads (knownAt (visited ++ [item])) (stopAt? item))
    {visited : List ι} {answer : α} (holds : knownAt visited answer) (items : List ι) :
    (items.foldlM visit answer).Reads (knownAt (visited ++ items)) (items.findSome? stopAt?) := by
  induction items generalizing visited answer with
  | nil =>
    rw [List.append_nil]
    exact reads_pure holds
  | cons item items ih =>
    have findEq : (item :: items).findSome? stopAt? =
        (stopAt? item).or (items.findSome? stopAt?) := by
      rw [List.findSome?_cons]
      cases stopAt? item <;> rfl
    rw [List.foldlM_cons, findEq, ← List.singleton_append, ← List.append_assoc]
    exact (reads visited answer item holds).bind fun next nextHolds => ih nextHolds

end Steps

end WordStem.CallM
