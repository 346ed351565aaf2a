import WordStem.Proofs.BufferParts
import WordStem.Proofs.RuleRuns
import WordStem.Proofs.ValidTables

/-! # What the search for an affix finds

On a valid table the bisection and the walk along the links amount to trying the matching entries
of one chain, the longest first, until a guard accepts. The chain begins at the greatest entry
that is not above the text. -/
namespace WordStem

variable {Context : Type}

/-- Where the cursor stands after passing an affix from a starting position. -/
def Affix.landing (affix : Affix Context) (direction : Direction) (start : Nat) : Nat :=
  match direction with
  | .forward => start + byteLength affix.literal.toList
  | .backward => start - byteLength affix.literal.toList

namespace AffixTable

variable {table : AffixTable Context} {direction : Direction} {index target : Nat}
  {affix base : Affix Context}

/-! ## Trying affixes -/

def matchesAt (direction : Direction) (text : List UInt8) (affix : Affix Context) : Bool :=
  (key direction affix).isPrefixOf text

/-- Tries affixes one after the other from a starting position. The first one without a guard, or
whose guard accepts, is passed and its tag is the answer. Every guard runs once, with the cursor
past its affix; a defect of a guard ends the search. If none is accepted, the cursor goes back to
the start. -/
def tryEach (direction : Direction) (start : Nat) : List (Affix Context) → RuleM Context Int
  | [], workspace => .ok 0 (workspace.withCursor start)
  | affix :: others, workspace =>
    let matched := workspace.withCursor (affix.landing direction start)
    match affix.guard? with
    | none => .ok affix.tag matched
    | some guard =>
      match guard matched with
      | .error defect reached => .error defect reached
      | .ok true reached => .ok affix.tag (reached.withCursor (affix.landing direction start))
      | .ok false reached => tryEach direction start others reached

/-- The affixes that a search for a text tries: those that the text starts with, on the chain
that begins at the greatest entry that is not above the text. -/
inductive Candidates (table : AffixTable Context) (direction : Direction) (text : List UInt8) :
    List (Affix Context) → Prop
  | none (above : ∀ affix ∈ table.affixes, text < key direction affix) :
      Candidates table direction text []
  | some (index : Nat) (affix : Affix Context)
      (found : table.affixes[index]? = some affix) (notAbove : key direction affix ≤ text)
      (greatest : ∀ other ∈ table.affixes,
        key direction other ≤ text → key direction other ≤ key direction affix) :
      Candidates table direction text
        ((table.chain index).filter (matchesAt direction text))

variable {start agreed : Nat} {text : List UInt8} {workspace : Workspace Context}

theorem tryEach_withCursor (position : Nat) (affixes : List (Affix Context)) :
    tryEach direction start affixes (workspace.withCursor position) =
      tryEach direction start affixes workspace := by
  cases affixes <;> rfl

theorem passOver_apply :
    passOver affix direction start workspace =
      .ok () (workspace.withCursor (affix.landing direction start)) := by
  cases direction <;> rfl

theorem accepts_of_lt (shorter : agreed < byteLength affix.literal.toList) :
    accepts affix direction start agreed workspace = .ok false workspace := by
  simp only [accepts, if_pos shorter, RuleM.pure_apply]

theorem accepts_of_unguarded (whole : ¬ agreed < byteLength affix.literal.toList)
    (unguarded : affix.guard? = none) :
    accepts affix direction start agreed workspace =
      .ok true (workspace.withCursor (affix.landing direction start)) := by
  simp only [accepts, if_neg whole, unguarded]
  rw [RuleM.bind_of_ok passOver_apply, RuleM.pure_apply]

theorem accepts_of_guarded {guard : RuleM Context Bool}
    (whole : ¬ agreed < byteLength affix.literal.toList) (guarded : affix.guard? = some guard) :
    accepts affix direction start agreed workspace =
      match guard (workspace.withCursor (affix.landing direction start)) with
      | .error defect reached => .error defect reached
      | .ok accepted reached =>
        .ok accepted (reached.withCursor (affix.landing direction start)) := by
  simp only [accepts, if_neg whole, guarded]
  rw [RuleM.bind_of_ok passOver_apply]
  cases run : guard (workspace.withCursor (affix.landing direction start)) with
  | error defect reached => rw [RuleM.bind_of_error run]
  | ok accepted reached =>
    rw [RuleM.bind_of_ok run, RuleM.bind_of_ok passOver_apply, RuleM.pure_apply]

def walkOn (table : AffixTable Context) (direction : Direction) (start agreed index : Nat)
    (affix : Affix Context) : RuleM Context Int :=
  match affix.link with
  | .negSucc _ => do
    RuleM.modifyBuffer ({ · with cursor := start })
    return 0
  | .ofNat target =>
    if target < index then
      walk table direction start agreed target
    else do
      RuleM.modifyBuffer ({ · with cursor := start })
      RuleM.fail (.brokenChain table.name index)

theorem walk_of_found (found : table.affixes[index]? = some affix) :
    walk table direction start agreed index =
      (accepts affix direction start agreed >>= fun accepted =>
        if accepted = true then pure affix.tag
        else walkOn table direction start agreed index affix) := by
  rw [walk, found]
  rfl

/-- The walk along the links tries those entries of the chain that agree with the text in all
their bytes. -/
theorem ValidFor.walk_eq_tryEach (valid : table.ValidFor direction) (index : Nat)
    (matching : ∀ other ∈ table.chain index,
      matchesAt direction text other = true ↔ byteLength other.literal.toList ≤ agreed)
    (workspace : Workspace Context) :
    walk table direction start agreed index workspace =
      tryEach direction start ((table.chain index).filter (matchesAt direction text))
        workspace := by
  induction index using Nat.strongRecOn generalizing workspace with
  | ind index ih =>
    cases found : table.affixes[index]? with
    | none =>
      rw [walk, chain, found]
      rfl
    | some affix =>
      obtain ⟨others, chained⟩ := exists_chain_eq_cons found
      have rejected : ∀ reached, walkOn table direction start agreed index affix reached =
          tryEach direction start (others.filter (matchesAt direction text)) reached := by
        intro reached
        cases linked : affix.link with
        | negSucc below =>
          obtain rfl : [] = others := by
            simpa [chain_of_unlinked found linked] using chained
          simp only [walkOn, linked]
          rfl
        | ofNat target =>
          have earlier := (valid.link_sound found linked).1
          obtain rfl : table.chain target = others := by
            simpa [valid.chain_of_linked found linked] using chained
          simp only [walkOn, linked, if_pos earlier]
          exact ih target earlier
            (fun other member => matching other (by rw [chained]; exact .tail _ member)) reached
      have headMatching := matching affix (by rw [chained]; exact .head _)
      rw [walk_of_found found, chained]
      by_cases shorter : agreed < byteLength affix.literal.toList
      · have mismatch : ¬ matchesAt direction text affix = true := by
          rw [headMatching]
          omega
        rw [RuleM.bind_of_ok (accepts_of_lt shorter), List.filter_cons_of_neg mismatch]
        exact rejected workspace
      rw [List.filter_cons_of_pos (headMatching.mpr (by omega))]
      cases guarded : affix.guard? with
      | none =>
        rw [RuleM.bind_of_ok (accepts_of_unguarded shorter guarded)]
        simp only [tryEach, guarded]
        rfl
      | some guard =>
        have accepted : accepts affix direction start agreed workspace = _ :=
          accepts_of_guarded shorter guarded
        simp only [tryEach, guarded]
        cases run : guard (workspace.withCursor (affix.landing direction start)) with
        | error defect reached =>
          rw [run] at accepted
          rw [RuleM.bind_of_error accepted]
        | ok verdict reached =>
          rw [run] at accepted
          rw [RuleM.bind_of_ok accepted]
          cases verdict with
          | true => rfl
          | false => exact (rejected _).trans (tryEach_withCursor _ _)

theorem find_of_nonempty (nonempty : table.affixes.isEmpty = false)
    (workspace : Workspace Context) :
    table.find direction workspace =
      walk table direction workspace.buffer.cursor
        (bisect (table.keys direction) (workspace.buffer.view direction) 0
          (table.keys direction).size 0 0).2
        (bisect (table.keys direction) (workspace.buffer.view direction) 0
          (table.keys direction).size 0 0).1 workspace := by
  rw [find, nonempty]
  rfl

theorem matchesAt_iff : matchesAt direction text affix = true ↔ key direction affix <+: text := by
  rw [matchesAt, List.isPrefixOf_iff_prefix]

theorem le_of_isPrefix {beginning whole : List UInt8} (begins : beginning <+: whole) :
    beginning ≤ whole := by
  obtain ⟨rest, rfl⟩ := begins
  induction beginning with
  | nil => exact List.nil_le _
  | cons byte beginning ih => exact List.cons_le_cons_iff.mpr (.inr ⟨rfl, ih⟩)

/-- A first entry that is above the text is not accepted, and its chain goes no further. -/
theorem ValidFor.walk_first_of_lt (valid : table.ValidFor direction)
    (found : table.affixes[0]? = some affix) (above : text < key direction affix)
    (workspace : Workspace Context) :
    walk table direction start 0 0 workspace = tryEach direction start [] workspace := by
  have single : table.chain 0 = [affix] := by
    cases linked : affix.link with
    | negSucc below => exact chain_of_unlinked found linked
    | ofNat target => exact absurd (valid.link_sound found linked).1 (Nat.not_lt_zero _)
  have mismatch : ¬ matchesAt direction text affix = true :=
    fun matched => le_of_isPrefix (matchesAt_iff.mp matched) above
  have matching : ∀ other ∈ table.chain 0,
      matchesAt direction text other = true ↔ byteLength other.literal.toList ≤ 0 := by
    intro other member
    obtain rfl : other = affix := by simpa [single] using member
    constructor
    · intro matched
      exact absurd matched mismatch
    · intro short
      rw [← length_key direction, Nat.le_zero, List.length_eq_zero_iff] at short
      rw [short] at above
      exact absurd above (List.not_lt_nil _)
  rw [valid.walk_eq_tryEach 0 matching, single, List.filter_cons_of_neg mismatch, List.filter_nil]

/-- A search tries its candidates. -/
theorem ValidFor.find_eq_tryEach (valid : table.ValidFor direction)
    (workspace : Workspace Context) :
    ∃ candidates, Candidates table direction (workspace.buffer.view direction) candidates ∧
      table.find direction workspace =
        tryEach direction workspace.buffer.cursor candidates workspace := by
  cases listed : table.affixes.isEmpty with
  | true =>
    have none : table.affixes = [] := List.isEmpty_iff.mp listed
    refine ⟨[], .none (by simp [none]), ?_⟩
    rw [find, listed]
    rfl
  | false =>
    have located : Located (table.keys direction) (workspace.buffer.view direction) _ _ :=
      bisect_locates valid.ascending (Narrowed.start (by
        rw [size_keys, List.length_pos_iff]
        simpa using listed))
    rw [find_of_nonempty listed]
    generalize (bisect (table.keys direction) (workspace.buffer.view direction) 0
      (table.keys direction).size 0 0).1 = index,
      (bisect (table.keys direction) (workspace.buffer.view direction) 0
      (table.keys direction).size 0 0).2 = agreed at located ⊢
    have inside := located.index_lt_size
    rw [size_keys] at inside
    have found := List.getElem?_eq_getElem inside
    have later_above : ∀ later other, table.affixes[later]? = some other → index < later →
        workspace.buffer.view direction < key direction other := by
      intro later other otherFound behind
      rw [← getD_keys otherFound]
      apply located.lt_of_later later behind
      rw [size_keys]
      exact (List.getElem?_eq_some_iff.mp otherFound).1
    have agreed_eq := located.agreed_eq
    have eq_zero_of_lt := located.eq_zero_of_lt
    rw [getD_keys found] at agreed_eq eq_zero_of_lt
    by_cases above : workspace.buffer.view direction < key direction table.affixes[index]
    · obtain ⟨rfl, rfl⟩ := eq_zero_of_lt above
      refine ⟨[], .none fun other member => ?_, valid.walk_first_of_lt found above workspace⟩
      obtain ⟨later, otherFound⟩ := List.mem_iff_getElem?.mp member
      rcases Nat.eq_zero_or_pos later with rfl | behind
      · obtain rfl : table.affixes[0] = other := Option.some.inj (found.symm.trans otherFound)
        exact above
      · exact later_above later other otherFound behind
    · refine ⟨_, .some index _ found above fun other member notAbove => ?_,
        valid.walk_eq_tryEach index (fun other member => ?_) workspace⟩
      · obtain ⟨place, otherFound⟩ := List.mem_iff_getElem?.mp member
        rcases Nat.lt_trichotomy place index with before | rfl | behind
        · exact List.le_of_lt (valid.key_lt_key before otherFound found)
        · obtain rfl : table.affixes[place] = other :=
            Option.some.inj (found.symm.trans otherFound)
          exact List.le_refl _
        · exact absurd (later_above place other otherFound behind) notAbove
      · rw [matchesAt_iff, agreed_eq above, ← length_key direction]
        exact isPrefix_iff_of_isPrefix (valid.key_isPrefix_of_mem_chain found member)

theorem Candidates.mem_affixes {candidates : List (Affix Context)}
    (tried : Candidates table direction text candidates) (member : affix ∈ candidates) :
    affix ∈ table.affixes := by
  cases tried with
  | none => cases member
  | some => exact mem_affixes_of_mem_chain (List.mem_filter.mp member).1

theorem Candidates.isPrefix {candidates : List (Affix Context)}
    (tried : Candidates table direction text candidates) (member : affix ∈ candidates) :
    key direction affix <+: text := by
  cases tried with
  | none => cases member
  | some => exact matchesAt_iff.mp (List.mem_filter.mp member).2

theorem ValidFor.candidates_pairwise (valid : table.ValidFor direction)
    {candidates : List (Affix Context)} (tried : Candidates table direction text candidates) :
    candidates.Pairwise fun longer shorter =>
      byteLength shorter.literal.toList < byteLength longer.literal.toList := by
  cases tried with
  | none => exact .nil
  | some index =>
    exact ((valid.chain_pairwise index).filter _).imp fun related => related.2

end AffixTable

end WordStem
