import WordStem.Proofs.ByteSearch
import WordStem.Proofs.SearchOutcome

/-! # The entries that a search visits

A table need not be valid to be searched. Its entries may be out of order, its links may lead
anywhere, and the buffer may even stand inside a character. The search is described here by the
visits that it pays to entries, with every entry looked up and every difference checked: the
existence of such a description says that nothing is read that is not there. Main statement:
`searches_end_safely`, that the visits go strictly downward and end in one of four ways. -/
namespace WordStem

variable {Context : Type}

/-- What comes of the visit to an entry. An entry that fails is one whose guard stops at a
defect. -/
inductive Verdict where
  | mismatched
  | rejected
  | accepted
  | failed (defect : Defect)
deriving DecidableEq

/-- An entry is refused when its affix does not match or its guard rejects it. -/
def Verdict.Refuses : Verdict → Prop
  | .mismatched => True
  | .rejected => True
  | .accepted => False
  | .failed _ => False

instance (verdict : Verdict) : Decidable verdict.Refuses := by
  cases verdict <;> unfold Verdict.Refuses <;> infer_instance

structure Visit where
  index : Nat
  verdict : Verdict
deriving DecidableEq

namespace RuleM

variable {Value : Type} {rule : RuleM Context Value} {workspace left : Workspace Context}

/-- The workspace that a result leaves. -/
def leftBy : EStateM.Result Defect (Workspace Context) Value → Workspace Context
  | .ok _ left => left
  | .error _ left => left

theorem after_eq_leftBy : rule.after workspace = leftBy (rule workspace) := by
  rw [after]
  cases rule workspace <;> rfl

theorem KeepsWord.of_ok {value : Value} (keeps : rule.KeepsWord)
    (run : rule workspace = .ok value left) :
    left.buffer.text = workspace.buffer.text ∧ left.buffer.floor = workspace.buffer.floor := by
  have kept := keeps workspace
  rwa [after, run] at kept

theorem KeepsWord.of_error {defect : Defect} (keeps : rule.KeepsWord)
    (run : rule workspace = .error defect left) :
    left.buffer.text = workspace.buffer.text ∧ left.buffer.floor = workspace.buffer.floor := by
  have kept := keeps workspace
  rwa [after, run] at kept

end RuleM

/-- Where the cursor stands past an affix, if it does not fall below zero. -/
def Affix.landing? (affix : Affix Context) (direction : Direction) (start : Nat) : Option Nat :=
  match direction with
  | .forward => some (start + byteLength affix.literal.toList)
  | .backward => ByteBuffer.subtract? start (byteLength affix.literal.toList)

namespace AffixTable

/-- The visit to an affix, `agreed` bytes of which agree with the text, and the workspace after
it. The guard is called once, and only if the whole affix agrees. -/
inductive Judged (affix : Affix Context) (direction : Direction) (start agreed : Nat)
    (workspace : Workspace Context) : Verdict → Workspace Context → Prop
  | mismatched (shorter : agreed < byteLength affix.literal.toList) :
      Judged affix direction start agreed workspace .mismatched workspace
  | unguarded {landing : Nat} (whole : byteLength affix.literal.toList ≤ agreed)
      (landed : affix.landing? direction start = some landing)
      (unguarded : affix.guard? = none) :
      Judged affix direction start agreed workspace .accepted (workspace.withCursor landing)
  | accepted {landing : Nat} {guard : RuleM Context Bool} {left : Workspace Context}
      (whole : byteLength affix.literal.toList ≤ agreed)
      (landed : affix.landing? direction start = some landing)
      (guarded : affix.guard? = some guard)
      (called : guard (workspace.withCursor landing) = .ok true left) :
      Judged affix direction start agreed workspace .accepted (left.withCursor landing)
  | rejected {landing : Nat} {guard : RuleM Context Bool} {left : Workspace Context}
      (whole : byteLength affix.literal.toList ≤ agreed)
      (landed : affix.landing? direction start = some landing)
      (guarded : affix.guard? = some guard)
      (called : guard (workspace.withCursor landing) = .ok false left) :
      Judged affix direction start agreed workspace .rejected (left.withCursor landing)
  | failed {landing : Nat} {guard : RuleM Context Bool} {left : Workspace Context}
      {defect : Defect} (whole : byteLength affix.literal.toList ≤ agreed)
      (landed : affix.landing? direction start = some landing)
      (guarded : affix.guard? = some guard)
      (called : guard (workspace.withCursor landing) = .error defect left) :
      Judged affix direction start agreed workspace (.failed defect) left

/-- The visits of a walk along the links that begins at an entry, and how the walk ends. -/
inductive Walked (table : AffixTable Context) (direction : Direction) (start agreed : Nat) :
    Nat → Workspace Context → List Visit → EStateM.Result Defect (Workspace Context) Int → Prop
  | accepted {index : Nat} {workspace left : Workspace Context} {affix : Affix Context}
      (found : table.affixes[index]? = some affix)
      (judged : Judged affix direction start agreed workspace .accepted left) :
      Walked table direction start agreed index workspace [⟨index, .accepted⟩]
        (.ok affix.tag left)
  | failed {index : Nat} {workspace left : Workspace Context} {affix : Affix Context}
      {defect : Defect} (found : table.affixes[index]? = some affix)
      (judged : Judged affix direction start agreed workspace (.failed defect) left) :
      Walked table direction start agreed index workspace [⟨index, .failed defect⟩]
        (.error defect left)
  | ended {index below : Nat} {workspace left : Workspace Context} {affix : Affix Context}
      {verdict : Verdict} (found : table.affixes[index]? = some affix)
      (judged : Judged affix direction start agreed workspace verdict left)
      (refused : verdict.Refuses) (unlinked : affix.link = .negSucc below) :
      Walked table direction start agreed index workspace [⟨index, verdict⟩]
        (.ok 0 (left.withCursor start))
  | broken {index target : Nat} {workspace left : Workspace Context} {affix : Affix Context}
      {verdict : Verdict} (found : table.affixes[index]? = some affix)
      (judged : Judged affix direction start agreed workspace verdict left)
      (refused : verdict.Refuses) (linked : affix.link = .ofNat target)
      (notEarlier : index ≤ target) :
      Walked table direction start agreed index workspace [⟨index, verdict⟩]
        (.error (.brokenChain table.name index) (left.withCursor start))
  | followed {index target : Nat} {workspace left : Workspace Context} {affix : Affix Context}
      {verdict : Verdict} {visits : List Visit}
      {result : EStateM.Result Defect (Workspace Context) Int}
      (found : table.affixes[index]? = some affix)
      (judged : Judged affix direction start agreed workspace verdict left)
      (refused : verdict.Refuses) (linked : affix.link = .ofNat target)
      (earlier : target < index)
      (others : Walked table direction start agreed target left visits result) :
      Walked table direction start agreed index workspace (⟨index, verdict⟩ :: visits) result

/-- The visits of a search and how it ends. The bisection in memory says where the walk
begins. -/
inductive Searched (table : AffixTable Context) (direction : Direction)
    (workspace : Workspace Context) :
    List Visit → EStateM.Result Defect (Workspace Context) Int → Prop
  | empty (none : table.affixes = []) : Searched table direction workspace [] (.ok 0 workspace)
  | walked {interval : ByteBuffer.Interval} {visits : List Visit}
      {result : EStateM.Result Defect (Workspace Context) Int} (nonempty : table.affixes ≠ [])
      (located : workspace.buffer.inMemory.search? direction table
        ⟨0, table.affixes.length, 0, 0⟩ false = some interval)
      (walked : Walked table direction workspace.buffer.cursor interval.sharedLow interval.low
        workspace visits result) :
      Searched table direction workspace visits result

/-- The walk comes to an entry that it refuses and whose link does not lead to an earlier one. -/
def BreaksAt (table : AffixTable Context) (visits : List Visit) (index : Nat) : Prop :=
  ∃ verdict affix target, ⟨index, verdict⟩ ∈ visits ∧ verdict.Refuses ∧
    table.affixes[index]? = some affix ∧ affix.link = .ofNat target ∧ index ≤ target

def NoneFailed (visits : List Visit) : Prop :=
  ∀ visit ∈ visits, ∀ defect, visit.verdict ≠ .failed defect

variable {table : AffixTable Context} {affix : Affix Context} {direction : Direction}
  {start agreed index : Nat} {workspace left : Workspace Context} {verdict : Verdict}
  {visits : List Visit} {result : EStateM.Result Defect (Workspace Context) Int}

/-! ## Every search has visits -/

theorem landing?_eq (enough : direction = .backward → agreed ≤ start)
    (whole : byteLength affix.literal.toList ≤ agreed) :
    affix.landing? direction start = some (affix.landing direction start) := by
  cases direction with
  | forward => rfl
  | backward => exact ByteBuffer.subtract?_of_le (Nat.le_trans whole (enough rfl))

/-- Visiting an entry amounts to asking whether it is accepted. -/
theorem judged_of_accepts (enough : direction = .backward → agreed ≤ start) (affix : Affix Context)
    (workspace : Workspace Context) :
    match accepts affix direction start agreed workspace with
    | .ok true left => Judged affix direction start agreed workspace .accepted left
    | .ok false left => ∃ verdict, verdict.Refuses ∧
        Judged affix direction start agreed workspace verdict left
    | .error defect left =>
        Judged affix direction start agreed workspace (.failed defect) left := by
  by_cases shorter : agreed < byteLength affix.literal.toList
  · rw [accepts_of_lt shorter]
    exact ⟨.mismatched, trivial, .mismatched shorter⟩
  have whole := Nat.not_lt.mp shorter
  have landed := landing?_eq enough whole
  cases guarded : affix.guard? with
  | none =>
    rw [accepts_of_unguarded shorter guarded]
    exact .unguarded whole landed guarded
  | some guard =>
    rw [accepts_of_guarded shorter guarded]
    cases called : guard (workspace.withCursor (affix.landing direction start)) with
    | error defect left => exact .failed whole landed guarded called
    | ok answer left =>
      cases answer with
      | true => exact .accepted whole landed guarded called
      | false => exact ⟨.rejected, trivial, .rejected whole landed guarded called⟩

/-- The walk along the links looks up entries that are there, and it has visits. -/
theorem exists_walked (enough : direction = .backward → agreed ≤ start)
    (inside : index < table.affixes.length) (workspace : Workspace Context) :
    ∃ visits, Walked table direction start agreed index workspace visits
      (walk table direction start agreed index workspace) := by
  induction index using Nat.strongRecOn generalizing workspace with
  | ind index ih =>
    have found := List.getElem?_eq_getElem inside
    have judged := judged_of_accepts enough table.affixes[index] workspace
    rw [walk_of_found found]
    cases run : accepts table.affixes[index] direction start agreed workspace with
    | error defect left =>
      rw [run] at judged
      rw [RuleM.bind_of_error run]
      exact ⟨_, .failed found judged⟩
    | ok answer left =>
      rw [run] at judged
      rw [RuleM.bind_of_ok run]
      cases answer with
      | true => exact ⟨_, .accepted found judged⟩
      | false =>
        obtain ⟨verdict, refused, judged⟩ := judged
        simp only [Bool.false_eq_true, if_false, walkOn]
        cases linked : table.affixes[index].link with
        | negSucc below => exact ⟨_, .ended found judged refused linked⟩
        | ofNat target =>
          simp only
          split
          case isTrue earlier =>
            obtain ⟨visits, others⟩ := ih target earlier (Nat.lt_trans earlier inside) left
            exact ⟨_, .followed found judged refused linked earlier others⟩
          case isFalse later =>
            exact ⟨_, .broken found judged refused linked (Nat.not_lt.mp later)⟩

/-- What the bisection hands to the walk: an entry that is there, and no more bytes that agree
than there are to read. -/
theorem exists_search? (direction : Direction) (nonempty : 0 < table.affixes.length)
    {buffer : WordBuffer} (floorLe : buffer.floor ≤ buffer.cursor)
    (cursorLe : buffer.cursor ≤ buffer.limit) :
    ∃ interval, buffer.inMemory.search? direction table ⟨0, table.affixes.length, 0, 0⟩ false =
        some interval ∧
      (interval.low, interval.sharedLow) = bisect (table.keys direction) (buffer.view direction) 0
        (table.keys direction).size 0 0 ∧
      interval.low < table.affixes.length ∧
      interval.sharedLow ≤ (buffer.view direction).length := by
  obtain ⟨interval, arrived, located⟩ : ∃ interval, buffer.inMemory.search? direction table
      ⟨0, table.affixes.length, 0, 0⟩ false = some interval ∧ _ :=
    ByteBuffer.search?_inMemory floorLe cursorLe nonempty
  refine ⟨interval, arrived, located, ?_, ?_⟩
  · have inside : (bisect (table.keys direction) (buffer.view direction) 0
        (table.keys direction).size 0 0).1 < (table.keys direction).size :=
      ByteBuffer.bisect_fst_lt (by rwa [size_keys]) (Nat.le_refl _)
    rwa [← located, size_keys] at inside
  · have agreedLe : (bisect (table.keys direction) (buffer.view direction) 0
        (table.keys direction).size 0 0).2 ≤ (buffer.view direction).length :=
      ByteBuffer.bisect_snd_le (Nat.zero_le _)
    rwa [← located] at agreedLe

/-- A cursor between the floor and the limit has no more bytes before it than it counts. -/
theorem length_view_le {buffer : WordBuffer} (floorLe : buffer.floor ≤ buffer.cursor)
    (cursorLe : buffer.cursor ≤ buffer.limit) :
    direction = .backward → (buffer.view direction).length ≤ buffer.cursor := by
  rintro rfl
  rw [ByteBuffer.length_view_backward floorLe cursorLe]
  exact Nat.sub_le _ _

/-- Every search from a cursor between the floor and the limit has visits. -/
theorem exists_searched (table : AffixTable Context) (direction : Direction)
    (workspace : Workspace Context)
    (floorLe : workspace.buffer.floor ≤ workspace.buffer.cursor)
    (cursorLe : workspace.buffer.cursor ≤ workspace.buffer.limit) :
    ∃ visits, Searched table direction workspace visits (table.find direction workspace) := by
  cases listed : table.affixes.isEmpty with
  | true =>
    rw [find, listed]
    exact ⟨[], .empty (List.isEmpty_iff.mp listed)⟩
  | false =>
    have nonempty : 0 < table.affixes.length := by
      rw [List.length_pos_iff]
      simpa using listed
    obtain ⟨interval, arrived, located, inside, agreedLe⟩ :=
      exists_search? direction nonempty floorLe cursorLe
    have enough : direction = .backward → interval.sharedLow ≤ workspace.buffer.cursor :=
      fun backward => Nat.le_trans agreedLe (length_view_le floorLe cursorLe backward)
    obtain ⟨visits, walked⟩ := exists_walked enough inside workspace
    rw [find_of_nonempty listed, ← located]
    exact ⟨visits, .walked (List.length_pos_iff.mp nonempty) arrived walked⟩

/-! ## There is one way to search -/

theorem Judged.unique {other : Verdict} {right : Workspace Context}
    (first : Judged affix direction start agreed workspace verdict left)
    (second : Judged affix direction start agreed workspace other right) :
    verdict = other ∧ left = right := by
  cases first <;> cases second <;> grind

theorem Walked.unique {others : List Visit}
    {other : EStateM.Result Defect (Workspace Context) Int}
    (first : Walked table direction start agreed index workspace visits result)
    (second : Walked table direction start agreed index workspace others other) :
    visits = others ∧ result = other := by
  -- Two walks visit the same entry with the same verdict, so they go on alike.
  induction first generalizing others other <;> cases second <;>
    grind [Judged.unique, Verdict.Refuses]

theorem Searched.unique {others : List Visit}
    {other : EStateM.Result Defect (Workspace Context) Int}
    (first : Searched table direction workspace visits result)
    (second : Searched table direction workspace others other) :
    visits = others ∧ result = other := by
  cases first with
  | empty none =>
    cases second with
    | empty => exact ⟨rfl, rfl⟩
    | walked nonempty => exact absurd none nonempty
  | walked nonempty located walked =>
    cases second with
    | empty none => exact absurd none nonempty
    | walked _ locatedAgain walkedAgain =>
      obtain rfl := Option.some.inj (located.symm.trans locatedAgain)
      exact walked.unique walkedAgain

/-! ## Visits go downward -/

theorem Walked.index_le
    (walked : Walked table direction start agreed index workspace visits result) :
    ∀ visit ∈ visits, visit.index ≤ index := by
  induction walked with
  | accepted | failed | ended | broken => simp
  | followed found judged refused linked earlier others ih =>
    intro visit member
    rcases List.mem_cons.mp member with rfl | member
    · exact Nat.le_refl _
    · exact Nat.le_trans (ih visit member) (Nat.le_of_lt earlier)

theorem Walked.pairwise
    (walked : Walked table direction start agreed index workspace visits result) :
    visits.Pairwise fun before after => after.index < before.index := by
  induction walked with
  | accepted | failed | ended | broken => exact List.pairwise_singleton _ _
  | followed found judged refused linked earlier others ih =>
    refine List.pairwise_cons.mpr ⟨?_, ih⟩
    intro visit member
    exact Nat.lt_of_le_of_lt (others.index_le visit member) earlier

/-! ## How a walk ends -/

theorem Judged.keepsWord (keep : ∀ guard, affix.guard? = some guard → guard.KeepsWord)
    (judged : Judged affix direction start agreed workspace verdict left) :
    left.buffer.text = workspace.buffer.text ∧ left.buffer.floor = workspace.buffer.floor := by
  cases judged with
  | mismatched => exact ⟨rfl, rfl⟩
  | unguarded => exact ⟨rfl, rfl⟩
  | accepted whole landed guarded called =>
    have kept := (keep _ guarded).of_ok called
    exact kept
  | rejected whole landed guarded called =>
    have kept := (keep _ guarded).of_ok called
    exact kept
  | failed whole landed guarded called =>
    have kept := (keep _ guarded).of_error called
    exact kept

theorem Judged.cursor_of_accepted
    (judged : Judged affix direction start agreed workspace .accepted left) :
    byteLength affix.literal.toList ≤ agreed ∧
      affix.landing? direction start = some left.buffer.cursor := by
  cases judged with
  | unguarded whole landed => exact ⟨whole, landed⟩
  | accepted whole landed => exact ⟨whole, landed⟩

theorem Walked.keepsWord (keep : table.GuardsKeepWord)
    (walked : Walked table direction start agreed index workspace visits result) :
    (RuleM.leftBy result).buffer.text = workspace.buffer.text ∧
      (RuleM.leftBy result).buffer.floor = workspace.buffer.floor := by
  induction walked with
  | accepted found judged => exact judged.keepsWord (keep _ (List.mem_of_getElem? found))
  | failed found judged => exact judged.keepsWord (keep _ (List.mem_of_getElem? found))
  | ended found judged refused unlinked =>
    obtain ⟨textEq, floorEq⟩ := judged.keepsWord (keep _ (List.mem_of_getElem? found))
    exact ⟨textEq, floorEq⟩
  | broken found judged refused linked notEarlier =>
    obtain ⟨textEq, floorEq⟩ := judged.keepsWord (keep _ (List.mem_of_getElem? found))
    exact ⟨textEq, floorEq⟩
  | followed found judged refused linked earlier others ih =>
    obtain ⟨textEq, floorEq⟩ := judged.keepsWord (keep _ (List.mem_of_getElem? found))
    exact ⟨ih.1.trans textEq, ih.2.trans floorEq⟩

/-- The cursor of a walk that answers is back at the start, or past an affix that agrees with the
text. -/
theorem Walked.cursor_of_ok {tag : Int} {reached : Workspace Context}
    (walked : Walked table direction start agreed index workspace visits (.ok tag reached)) :
    reached.buffer.cursor = start ∨ ∃ affix : Affix Context,
      byteLength affix.literal.toList ≤ agreed ∧
        affix.landing? direction start = some reached.buffer.cursor := by
  generalize ending : EStateM.Result.ok tag reached = result at walked
  induction walked with
  | accepted found judged =>
    obtain ⟨-, rfl⟩ := EStateM.Result.ok.inj ending
    exact .inr ⟨_, judged.cursor_of_accepted⟩
  | failed => cases ending
  | ended found judged refused unlinked =>
    obtain ⟨-, rfl⟩ := EStateM.Result.ok.inj ending
    exact .inl rfl
  | broken => cases ending
  | followed found judged refused linked earlier others ih => exact ih ending

theorem NoneFailed.nil : NoneFailed [] :=
  List.forall_mem_nil _

theorem NoneFailed.cons (refused : verdict.Refuses) (others : NoneFailed visits) :
    NoneFailed (⟨index, verdict⟩ :: visits) := by
  refine List.forall_mem_cons.mpr ⟨?_, others⟩
  rintro defect rfl
  exact refused.elim

/-- A walk that comes to an entry with such a link stops there, and no guard has failed. -/
theorem Walked.of_breaksAt
    (walked : Walked table direction start agreed index workspace visits result) {place : Nat}
    (breaks : table.BreaksAt visits place) :
    NoneFailed visits ∧
      ∃ reached, result = .error (.brokenChain table.name place) reached := by
  obtain ⟨verdict, affix, target, member, refuses, found, linked, notEarlier⟩ := breaks
  induction walked with
  | accepted =>
    obtain ⟨-, rfl⟩ := Visit.mk.inj (List.mem_singleton.mp member)
    exact refuses.elim
  | failed =>
    obtain ⟨-, rfl⟩ := Visit.mk.inj (List.mem_singleton.mp member)
    exact refuses.elim
  | ended otherFound judged refused unlinked =>
    obtain ⟨rfl, -⟩ := Visit.mk.inj (List.mem_singleton.mp member)
    obtain rfl := Option.some.inj (found.symm.trans otherFound)
    rw [linked] at unlinked
    cases unlinked
  | broken =>
    obtain ⟨rfl, rfl⟩ := Visit.mk.inj (List.mem_singleton.mp member)
    exact ⟨.cons refuses .nil, _, rfl⟩
  | followed otherFound judged refused otherLinked earlier others ih =>
    rcases List.mem_cons.mp member with first | member
    · obtain ⟨rfl, rfl⟩ := Visit.mk.inj first
      obtain rfl := Option.some.inj (found.symm.trans otherFound)
      obtain rfl := Int.ofNat.inj (linked.symm.trans otherLinked)
      exact absurd earlier (Nat.not_lt.mpr notEarlier)
    · obtain ⟨noneFailed, stopped⟩ := ih member
      exact ⟨.cons refused noneFailed, stopped⟩

/-- A walk stops at a defect only where a guard fails or where a link does not lead to an earlier
entry. In the second case the cursor is back at the start. -/
theorem Walked.ends_error {defect : Defect} {reached : Workspace Context}
    (walked : Walked table direction start agreed index workspace visits (.error defect reached))
    (noneFailed : NoneFailed visits) :
    reached.buffer.cursor = start ∧
      ∃ place, defect = .brokenChain table.name place ∧ table.BreaksAt visits place := by
  generalize ending : EStateM.Result.error defect reached = result at walked
  induction walked with
  | accepted => cases ending
  | failed => exact absurd rfl (noneFailed _ (.head _) _)
  | ended => cases ending
  | broken found judged refused linked notEarlier =>
    obtain ⟨rfl, rfl⟩ := EStateM.Result.error.inj ending
    exact ⟨rfl, _, rfl, _, _, _, .head _, refused, found, linked, notEarlier⟩
  | followed found judged refused linked earlier others ih =>
    obtain ⟨cursorEq, place, defectEq, verdict, affix, target, member, broken⟩ :=
      ih (fun visit visited => noneFailed visit (.tail _ visited)) ending
    exact ⟨cursorEq, place, defectEq, verdict, affix, target, .tail _ member, broken⟩

/-! ## Searches -/

/-- Past a match, the cursor is still between the floor and the limit. -/
theorem landing?_between {buffer : WordBuffer} (floorLe : buffer.floor ≤ buffer.cursor)
    (cursorLe : buffer.cursor ≤ buffer.limit)
    (readable : byteLength affix.literal.toList ≤ (buffer.view direction).length) {landing : Nat}
    (landed : affix.landing? direction buffer.cursor = some landing) :
    buffer.floor ≤ landing ∧ landing ≤ buffer.limit := by
  cases direction with
  | forward =>
    rw [ByteBuffer.length_view_forward] at readable
    obtain rfl := Option.some.inj landed
    omega
  | backward =>
    rw [ByteBuffer.length_view_backward floorLe cursorLe] at readable
    obtain ⟨enough, rfl⟩ := ByteBuffer.subtract?_eq_some_iff.mp landed
    omega

theorem Searched.keepsWord (keep : table.GuardsKeepWord)
    (searched : Searched table direction workspace visits result) :
    (RuleM.leftBy result).buffer.text = workspace.buffer.text ∧
      (RuleM.leftBy result).buffer.floor = workspace.buffer.floor := by
  cases searched with
  | empty => exact ⟨rfl, rfl⟩
  | walked nonempty arrived walked => exact walked.keepsWord keep

theorem Searched.cursor_between
    (floorLe : workspace.buffer.floor ≤ workspace.buffer.cursor)
    (cursorLe : workspace.buffer.cursor ≤ workspace.buffer.limit) {tag : Int}
    {reached : Workspace Context}
    (searched : Searched table direction workspace visits (.ok tag reached)) :
    workspace.buffer.floor ≤ reached.buffer.cursor ∧
      reached.buffer.cursor ≤ workspace.buffer.limit := by
  cases searched with
  | empty => exact ⟨floorLe, cursorLe⟩
  | walked nonempty arrived walked =>
    rcases walked.cursor_of_ok with cursorEq | ⟨affix, whole, landed⟩
    · rw [cursorEq]
      exact ⟨floorLe, cursorLe⟩
    · obtain ⟨interval, arrivedAgain, -, -, agreedLe⟩ :=
        exists_search? direction (List.length_pos_iff.mpr nonempty) floorLe cursorLe
      obtain rfl := Option.some.inj (arrived.symm.trans arrivedAgain)
      exact landing?_between floorLe cursorLe (Nat.le_trans whole agreedLe) landed

theorem Searched.pairwise (searched : Searched table direction workspace visits result) :
    visits.Pairwise fun before after => after.index < before.index := by
  cases searched with
  | empty => exact .nil
  | walked nonempty arrived walked => exact walked.pairwise

theorem Searched.of_breaksAt (searched : Searched table direction workspace visits result)
    {place : Nat} (breaks : table.BreaksAt visits place) :
    NoneFailed visits ∧
      ∃ reached, result = .error (.brokenChain table.name place) reached := by
  cases searched with
  | empty =>
    obtain ⟨verdict, affix, target, member, -⟩ := breaks
    cases member
  | walked nonempty arrived walked => exact walked.of_breaksAt breaks

theorem Searched.ends_error {defect : Defect} {reached : Workspace Context}
    (searched : Searched table direction workspace visits (.error defect reached))
    (noneFailed : NoneFailed visits) :
    reached.buffer.cursor = workspace.buffer.cursor ∧
      ∃ place, defect = .brokenChain table.name place ∧ table.BreaksAt visits place := by
  cases searched with
  | walked nonempty arrived walked => exact walked.ends_error noneFailed

/-! ## Guards are called once -/

end AffixTable

/-- A guard that also notes the index of its entry whenever it is called. -/
def RuleM.noting (index : Nat) (guard : RuleM Context Bool) : RuleM (Context × List Nat) Bool :=
  fun workspace =>
    let notes := index :: workspace.context.2
    match guard ⟨workspace.buffer, workspace.context.1⟩ with
    | .ok answer left => .ok answer ⟨left.buffer, (left.context, notes)⟩
    | .error defect left => .error defect ⟨left.buffer, (left.context, notes)⟩

def Affix.noting (index : Nat) (affix : Affix Context) : Affix (Context × List Nat) where
  literal := affix.literal
  link := affix.link
  tag := affix.tag
  guard? := affix.guard?.map (RuleM.noting index)

/-- A table whose guards note their calls, the latest one first. -/
def AffixTable.noting (table : AffixTable Context) : AffixTable (Context × List Nat) where
  name := table.name
  direction := table.direction
  affixes := table.affixes.mapIdx Affix.noting

def Workspace.withoutNotes (noter : Workspace (Context × List Nat)) : Workspace Context :=
  ⟨noter.buffer, noter.context.1⟩

theorem Workspace.withoutNotes_withCursor (noter : Workspace (Context × List Nat))
    (position : Nat) :
    (noter.withCursor position).withoutNotes = noter.withoutNotes.withCursor position := rfl

def RuleM.resultWithoutNotes {Value : Type} :
    EStateM.Result Defect (Workspace (Context × List Nat)) Value →
      EStateM.Result Defect (Workspace Context) Value
  | .ok value left => .ok value left.withoutNotes
  | .error defect left => .error defect left.withoutNotes

namespace AffixTable

section Notes

variable {table : AffixTable Context} {affix : Affix Context} {direction : Direction}
  {start agreed index : Nat} {verdict : Verdict} {visits : List Visit}
  {noter noted : Workspace (Context × List Nat)}
  {result : EStateM.Result Defect (Workspace (Context × List Nat)) Int}

theorem leftBy_noting (index : Nat) (guard : RuleM Context Bool) :
    (RuleM.leftBy (guard.noting index noter)).context.2 = index :: noter.context.2 := by
  rw [RuleM.noting]
  cases guard ⟨noter.buffer, noter.context.1⟩ <;> rfl

theorem resultWithoutNotes_noting (index : Nat) (guard : RuleM Context Bool) :
    RuleM.resultWithoutNotes (guard.noting index noter) = guard noter.withoutNotes := by
  rw [RuleM.noting, Workspace.withoutNotes]
  cases guard ⟨noter.buffer, noter.context.1⟩ <;> rfl

theorem exists_found_of_noting {other : Affix (Context × List Nat)}
    (found : table.noting.affixes[index]? = some other) :
    ∃ affix, table.affixes[index]? = some affix ∧ other = affix.noting index := by
  simp only [noting, List.getElem?_mapIdx, Option.map_eq_some_iff] at found
  obtain ⟨affix, found, rfl⟩ := found
  exact ⟨affix, found, rfl⟩

/-- A visit is paid in the same way when no notes are taken. -/
theorem Judged.withoutNotes
    (judged : Judged (affix.noting index) direction start agreed noter verdict noted) :
    Judged affix direction start agreed noter.withoutNotes verdict noted.withoutNotes := by
  have unnoted {landing : Nat} {other : RuleM (Context × List Nat) Bool}
      (guarded : (affix.noting index).guard? = some other) :
      ∃ guard, affix.guard? = some guard ∧
        guard (noter.withoutNotes.withCursor landing) =
          RuleM.resultWithoutNotes (other (noter.withCursor landing)) := by
    obtain ⟨guard, plainGuarded, rfl⟩ := Option.map_eq_some_iff.mp guarded
    refine ⟨guard, plainGuarded, ?_⟩
    rw [resultWithoutNotes_noting, Workspace.withoutNotes_withCursor]
  cases judged with
  | mismatched shorter => exact .mismatched shorter
  | unguarded whole landed unguarded =>
    exact .unguarded whole landed (Option.map_eq_none_iff.mp unguarded)
  | accepted whole landed guarded called =>
    obtain ⟨guard, plainGuarded, same⟩ := unnoted guarded
    rw [called] at same
    rw [Workspace.withoutNotes_withCursor]
    exact .accepted whole landed plainGuarded same
  | rejected whole landed guarded called =>
    obtain ⟨guard, plainGuarded, same⟩ := unnoted guarded
    rw [called] at same
    rw [Workspace.withoutNotes_withCursor]
    exact .rejected whole landed plainGuarded same
  | failed whole landed guarded called =>
    obtain ⟨guard, plainGuarded, same⟩ := unnoted guarded
    rw [called] at same
    exact .failed whole landed plainGuarded same

theorem Walked.withoutNotes
    (walked : Walked table.noting direction start agreed index noter visits result) :
    Walked table direction start agreed index noter.withoutNotes visits
      (RuleM.resultWithoutNotes result) := by
  induction walked with
  | accepted found judged =>
    obtain ⟨affix, plainFound, rfl⟩ := exists_found_of_noting found
    exact .accepted plainFound judged.withoutNotes
  | failed found judged =>
    obtain ⟨affix, plainFound, rfl⟩ := exists_found_of_noting found
    exact .failed plainFound judged.withoutNotes
  | ended found judged refused unlinked =>
    obtain ⟨affix, plainFound, rfl⟩ := exists_found_of_noting found
    exact .ended plainFound judged.withoutNotes refused unlinked
  | broken found judged refused linked notEarlier =>
    obtain ⟨affix, plainFound, rfl⟩ := exists_found_of_noting found
    exact .broken plainFound judged.withoutNotes refused linked notEarlier
  | followed found judged refused linked earlier others ih =>
    obtain ⟨affix, plainFound, rfl⟩ := exists_found_of_noting found
    exact .followed plainFound judged.withoutNotes refused linked earlier ih

/-- A visit notes one call at most, under the index that is visited. -/
theorem Judged.notes {other : Affix (Context × List Nat)}
    (found : table.noting.affixes[index]? = some other)
    (judged : Judged other direction start agreed noter verdict noted) :
    noted.context.2 = noter.context.2 ∨ noted.context.2 = index :: noter.context.2 := by
  obtain ⟨affix, -, rfl⟩ := exists_found_of_noting found
  have once {landing : Nat} {guard : RuleM (Context × List Nat) Bool}
      (guarded : (affix.noting index).guard? = some guard) :
      (RuleM.leftBy (guard (noter.withCursor landing))).context.2 = index :: noter.context.2 := by
    obtain ⟨plain, -, rfl⟩ := Option.map_eq_some_iff.mp guarded
    exact leftBy_noting index plain
  cases judged with
  | mismatched => exact .inl rfl
  | unguarded => exact .inl rfl
  | accepted whole landed guarded called => exact .inr (by rw [← once guarded, called]; rfl)
  | rejected whole landed guarded called => exact .inr (by rw [← once guarded, called]; rfl)
  | failed whole landed guarded called => exact .inr (by rw [← once guarded, called]; rfl)

/-- Once a visit is paid below all calls noted so far, its own call included none is noted twice. -/
theorem Judged.notes_pairwise {other : Affix (Context × List Nat)}
    (found : table.noting.affixes[index]? = some other)
    (judged : Judged other direction start agreed noter verdict noted)
    (descending : noter.context.2.Pairwise (· < ·))
    (below : ∀ note ∈ noter.context.2, index < note) :
    noted.context.2.Pairwise (· < ·) ∧ ∀ note ∈ noted.context.2, index ≤ note := by
  rcases judged.notes found with same | called
  · rw [same]
    exact ⟨descending, fun note member => Nat.le_of_lt (below note member)⟩
  · rw [called]
    refine ⟨List.pairwise_cons.mpr ⟨below, descending⟩, ?_⟩
    exact List.forall_mem_cons.mpr
      ⟨Nat.le_refl _, fun note member => Nat.le_of_lt (below note member)⟩

/-- A walk that begins below all calls noted so far notes its own calls further and further
down. -/
theorem Walked.notes_pairwise
    (walked : Walked table.noting direction start agreed index noter visits result)
    (descending : noter.context.2.Pairwise (· < ·))
    (below : ∀ note ∈ noter.context.2, index < note) :
    (RuleM.leftBy result).context.2.Pairwise (· < ·) := by
  induction walked with
  | accepted found judged => exact (judged.notes_pairwise found descending below).1
  | failed found judged => exact (judged.notes_pairwise found descending below).1
  | ended found judged => exact (judged.notes_pairwise found descending below).1
  | broken found judged => exact (judged.notes_pairwise found descending below).1
  | followed found judged refused linked earlier others ih =>
    obtain ⟨descending, atLeast⟩ := judged.notes_pairwise found descending below
    exact ih descending fun note member => Nat.lt_of_lt_of_le earlier (atLeast note member)

theorem keys_noting : table.noting.keys direction = table.keys direction := by
  apply congrArg List.toArray
  apply List.ext_getElem?
  intro index
  simp only [noting, List.getElem?_map, List.getElem?_mapIdx]
  cases table.affixes[index]? <;> rfl

/-- Taking notes changes nothing else about a search. -/
theorem Searched.withoutNotes
    (floorLe : noter.buffer.floor ≤ noter.buffer.cursor)
    (cursorLe : noter.buffer.cursor ≤ noter.buffer.limit)
    (searched : Searched table.noting direction noter visits result) :
    Searched table direction noter.withoutNotes visits (RuleM.resultWithoutNotes result) := by
  cases searched with
  | empty none => exact .empty (List.mapIdx_eq_nil_iff.mp none)
  | walked nonempty arrived walked =>
    -- Both bisections compare the same keys, so they hand the same entry to the walk.
    have listed : table.affixes ≠ [] := fun none => nonempty (List.mapIdx_eq_nil_iff.mpr none)
    obtain ⟨interval, plainArrived, plainLocated, -⟩ :=
      exists_search? direction (List.length_pos_iff.mpr listed) floorLe cursorLe
    obtain ⟨other, otherArrived, located, -⟩ :=
      exists_search? direction (List.length_pos_iff.mpr nonempty) floorLe cursorLe
    obtain rfl := Option.some.inj (arrived.symm.trans otherArrived)
    rw [keys_noting, ← plainLocated] at located
    obtain ⟨lowEq, sharedEq⟩ := Prod.mk.inj located
    rw [lowEq, sharedEq] at walked
    exact .walked listed plainArrived walked.withoutNotes

theorem Searched.notes_pairwise (searched : Searched table.noting direction noter visits result)
    (fresh : noter.context.2 = []) : (RuleM.leftBy result).context.2.Pairwise (· < ·) := by
  cases searched with
  | empty =>
    rw [RuleM.leftBy, fresh]
    exact .nil
  | walked nonempty arrived walked =>
    apply walked.notes_pairwise
    · rw [fresh]
      exact .nil
    · rw [fresh]
      exact List.forall_mem_nil _

end Notes

/-! ## Any table -/

section AnyTable

variable {table : AffixTable Context} {visits : List Visit}

theorem not_breaksAt_of_valid (valid : table.validate = .ok ()) (place : Nat) :
    ¬ table.BreaksAt visits place := by
  rintro ⟨verdict, affix, target, -, -, found, linked, notEarlier⟩
  have earlier := ((validFor_direction valid).link_sound found linked).1
  exact absurd earlier (Nat.not_lt.mpr notEarlier)

/-- A search on any table, from any place between the floor and the limit, with guards that keep
the word. The bisection ends, and all entries and bytes that are read are there. The entries are
visited from higher to lower indices, and so are the calls of guards: none is called twice. If the
search answers, the cursor lies between the floor and the limit. The search itself stops at a
defect exactly where it refuses an entry whose link does not lead to an earlier one; then the
cursor is back where it began. A valid table has no such entry. -/
theorem searches_end_safely (table : AffixTable Context) (direction : Direction)
    (workspace : Workspace Context)
    (floorLe : workspace.buffer.floor ≤ workspace.buffer.cursor)
    (cursorLe : workspace.buffer.cursor ≤ workspace.buffer.limit) (keep : table.GuardsKeepWord) :
    ∃ visits,
      (∀ others result, Searched table direction workspace others result ↔
        others = visits ∧ result = table.find direction workspace) ∧
      (visits.Pairwise fun before after => after.index < before.index) ∧
      (∃ noted, RuleM.resultWithoutNotes noted = table.find direction workspace ∧
        noted = table.noting.find direction ⟨workspace.buffer, (workspace.context, [])⟩ ∧
        (RuleM.leftBy noted).context.2.Pairwise (· < ·)) ∧
      (∀ tag reached, table.find direction workspace = .ok tag reached →
        reached.buffer.text = workspace.buffer.text ∧
          reached.buffer.floor = workspace.buffer.floor ∧
          reached.buffer.floor ≤ reached.buffer.cursor ∧
          reached.buffer.cursor ≤ reached.buffer.limit) ∧
      (∀ index, table.BreaksAt visits index ↔ NoneFailed visits ∧
        ∃ reached, table.find direction workspace =
            .error (.brokenChain table.name index) reached ∧
          reached.buffer.cursor = workspace.buffer.cursor) ∧
      (table.validate = .ok () → ∀ index, ¬ table.BreaksAt visits index) := by
  obtain ⟨visits, searched⟩ := exists_searched table direction workspace floorLe cursorLe
  refine ⟨visits, ?_, searched.pairwise, ?_, ?_, ?_, not_breaksAt_of_valid⟩
  · intro others result
    constructor
    · intro other
      exact other.unique searched
    · rintro ⟨rfl, rfl⟩
      exact searched
  · obtain ⟨others, noted⟩ := exists_searched table.noting direction
      ⟨workspace.buffer, (workspace.context, [])⟩ floorLe cursorLe
    exact ⟨_, ((noted.withoutNotes floorLe cursorLe).unique searched).2, rfl,
      noted.notes_pairwise rfl⟩
  · intro tag reached found
    rw [found] at searched
    obtain ⟨textEq, floorEq⟩ := searched.keepsWord keep
    obtain ⟨floorLe, cursorLe⟩ := searched.cursor_between floorLe cursorLe
    rw [RuleM.leftBy] at textEq floorEq
    refine ⟨textEq, floorEq, by rwa [floorEq], ?_⟩
    rwa [WordBuffer.limit, textEq]
  · intro index
    constructor
    · intro breaks
      obtain ⟨noneFailed, reached, stopped⟩ := searched.of_breaksAt breaks
      rw [stopped] at searched
      exact ⟨noneFailed, reached, stopped, (searched.ends_error noneFailed).1⟩
    · rintro ⟨noneFailed, reached, stopped, -⟩
      rw [stopped] at searched
      obtain ⟨-, place, defectEq, breaks⟩ := searched.ends_error noneFailed
      obtain ⟨-, rfl⟩ := Defect.brokenChain.inj defectEq
      exact breaks

end AnyTable

/-- An ending that is linked to itself. Its guard moves the cursor and refuses. -/
def tangledEnding : Affix Nat where
  literal := "és"
  link := 1
  tag := 2
  guard? := some fun workspace => .ok false ⟨workspace.buffer.moveTo 0, workspace.context + 1⟩

/-- Endings that are out of order, each linked to itself. -/
def tangledEndings : AffixTable Nat where
  name := "tangled"
  direction := .backward
  affixes := [{ literal := "t", link := 0, tag := 1 }, tangledEnding]

theorem tangledEndings_keepWord : tangledEndings.GuardsKeepWord := by
  intro affix member guard guarded workspace
  simp only [tangledEndings, List.mem_cons, List.not_mem_nil, or_false] at member
  rcases member with rfl | rfl
  · cases guarded
  · cases guarded
    exact ⟨rfl, rfl⟩

/-- At the end of `kés` the search visits the longer ending, whose guard is called, and stops
there because the ending is linked to itself. -/
theorem searches_end_safely_tangledEndings :
    let workspace : Workspace Nat := ⟨(WordBuffer.load "kés").beginBackward, 0⟩
    tangledEndings.validate ≠ .ok () ∧
      workspace.buffer.floor ≤ workspace.buffer.cursor ∧
      workspace.buffer.cursor ≤ workspace.buffer.limit ∧ tangledEndings.GuardsKeepWord ∧
      ∃ reached, tangledEndings.find .backward workspace =
          .error (.brokenChain "tangled" 1) reached ∧
        Searched tangledEndings .backward workspace [⟨1, .rejected⟩]
          (tangledEndings.find .backward workspace) ∧
        tangledEndings.BreaksAt [⟨1, .rejected⟩] 1 ∧ reached.buffer.cursor = 4 ∧
        reached.context = 1 := by
  intro workspace
  have unsound : tangledEndings.validate ≠ .ok () := by
    intro valid
    cases valid
  have floorLe : workspace.buffer.floor ≤ workspace.buffer.cursor := by decide
  have cursorLe : workspace.buffer.cursor ≤ workspace.buffer.limit := by decide
  have located : ((workspace.buffer.inMemory.search? .backward tangledEndings ⟨0, 2, 0, 0⟩
      false).map fun interval => (interval.low, interval.sharedLow)) = some (1, 3) := by
    decide +kernel
  obtain ⟨⟨low, high, sharedLow, sharedHigh⟩, arrived, ends⟩ := Option.map_eq_some_iff.mp located
  obtain ⟨rfl, rfl⟩ := Prod.mk.inj ends
  have listed : tangledEndings.affixes[1]? = some tangledEnding := rfl
  have whole : byteLength tangledEnding.literal.toList ≤ 3 := by decide
  have landed : tangledEnding.landing? .backward 4 = some 1 := by decide
  have walked : Walked tangledEndings .backward 4 3 1 workspace [⟨1, .rejected⟩]
      (.error (.brokenChain "tangled" 1) ⟨workspace.buffer, 1⟩) :=
    .broken listed (.rejected whole landed rfl rfl) trivial rfl (Nat.le_refl 1)
  have paid := Searched.walked (List.cons_ne_nil _ _) arrived walked
  obtain ⟨visits, searched, -, -, -, breaks, -⟩ :=
    searches_end_safely tangledEndings .backward workspace floorLe cursorLe tangledEndings_keepWord
  obtain ⟨rfl, found⟩ := (searched _ _).mp paid
  have broken := (breaks 1).mpr ⟨.cons trivial .nil, _, found.symm, rfl⟩
  exact ⟨unsound, floorLe, cursorLe, tangledEndings_keepWord, _, found.symm, found ▸ paid, broken,
    rfl, rfl⟩

end AffixTable

end WordStem
