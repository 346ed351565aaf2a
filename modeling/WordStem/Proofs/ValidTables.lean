import WordStem.Proofs.Bisection

/-! # Valid affix tables

A valid table lists its keys in ascending order, and its links lead from every entry to a shorter
one that it extends. The entries that are reached from one index along the links form a chain, in
which every affix extends all that follow it. -/
namespace WordStem

variable {Context : Type}

namespace AffixTable

/-- A table is valid for a direction when it passes the validation of a table listed with that
direction. -/
def ValidFor (table : AffixTable Context) (direction : Direction) : Prop :=
  ({ table with direction } : AffixTable Context).validate = .ok ()

theorem validFor_direction {table : AffixTable Context} (valid : table.validate = .ok ()) :
    table.ValidFor table.direction := valid

/-- Validation accepts a table when every entry is in order and soundly linked. -/
theorem validate_eq_ok_iff {table : AffixTable Context} :
    table.validate = .ok () ↔ ∀ (index : Nat) (affix : Affix Context),
      table.affixes[index]? = some affix →
        table.inOrder index affix = true ∧ table.linkSound index affix = true := by
  have sound : table.validate = .ok () ↔ ∀ entry ∈ table.affixes.zipIdx,
      table.defectAt? entry.2 entry.1 = none := by
    rw [← List.findSome?_eq_none_iff, validate]
    split <;> simp_all
  rw [sound, Prod.forall]
  simp only [List.mem_zipIdx_iff_getElem?, defectAt?]
  constructor
  · intro noDefect index affix found
    have none := noDefect affix index found
    split at none
    · cases none
    · split at none
      · cases none
      · simp_all
  · intro accepted affix index found
    simp [accepted index affix found]

def keys (table : AffixTable Context) (direction : Direction) : Array (List UInt8) :=
  (table.affixes.map (key direction)).toArray

variable {table : AffixTable Context} {direction : Direction} {index target : Nat}
  {affix base : Affix Context}

theorem getD_keys (found : table.affixes[index]? = some affix) :
    (table.keys direction).getD index [] = key direction affix := by
  simp [keys, found]

@[simp] theorem size_keys : (table.keys direction).size = table.affixes.length := by
  simp [keys]

theorem length_key (direction : Direction) (affix : Affix Context) :
    (key direction affix).length = byteLength affix.literal.toList := by
  simp [key]

/-- Entries that are in order up to one of them have ascending keys up to there. -/
theorem key_lt_key_of_inOrder {last : Nat}
    (ordered : ∀ index ≤ last, ∀ affix, table.affixes[index]? = some affix →
      table.inOrder index affix = true)
    {earlier later : Nat} {lesser greater : Affix Context} (before : earlier < later)
    (within : later ≤ last) (lesserFound : table.affixes[earlier]? = some lesser)
    (greaterFound : table.affixes[later]? = some greater) :
    key table.direction lesser < key table.direction greater := by
  induction later generalizing greater with
  | zero => omega
  | succ later ih =>
    have inside := (List.getElem?_eq_some_iff.mp greaterFound).1
    have previousFound := List.getElem?_eq_getElem (Nat.lt_of_succ_lt inside)
    have consecutive : key table.direction table.affixes[later] < key table.direction greater := by
      simpa [inOrder, previousFound] using ordered (later + 1) within greater greaterFound
    rcases Nat.eq_or_lt_of_le (Nat.le_of_lt_succ before) with rfl | less
    · rwa [Option.some.inj (lesserFound.symm.trans previousFound)]
    · exact List.lt_trans (ih less (by omega) previousFound) consecutive

namespace ValidFor

theorem key_lt_key (valid : table.ValidFor direction) {earlier later : Nat}
    {lesser greater : Affix Context} (before : earlier < later)
    (lesserFound : table.affixes[earlier]? = some lesser)
    (greaterFound : table.affixes[later]? = some greater) :
    key direction lesser < key direction greater :=
  key_lt_key_of_inOrder
    (fun index _ affix found => (validate_eq_ok_iff.mp valid index affix found).1)
    before (Nat.le_refl later) lesserFound greaterFound

theorem ascending (valid : table.ValidFor direction) : Ascending (table.keys direction) := by
  intro earlier later before inside
  rw [size_keys] at inside
  have lesserFound := List.getElem?_eq_getElem (Nat.lt_trans before inside)
  have greaterFound := List.getElem?_eq_getElem inside
  rw [getD_keys lesserFound, getD_keys greaterFound]
  exact valid.key_lt_key before lesserFound greaterFound

/-- A link leads to an earlier and shorter entry that the affix extends. -/
theorem link_sound (valid : table.ValidFor direction)
    (found : table.affixes[index]? = some affix) (linked : affix.link = .ofNat target) :
    target < index ∧ ∃ base, table.affixes[target]? = some base ∧
      key direction base <+: key direction affix ∧
        byteLength base.literal.toList < byteLength affix.literal.toList := by
  have sound := (validate_eq_ok_iff.mp valid index affix found).2
  simp only [linkSound, linked] at sound
  split at sound
  case h_1 base baseFound =>
    rw [Bool.and_eq_true, decide_eq_true_iff, List.isPrefixOf_iff_prefix] at sound
    obtain ⟨earlier, begins⟩ := sound
    refine ⟨earlier, base, baseFound, begins, ?_⟩
    rw [← length_key direction, ← length_key direction]
    apply Nat.lt_of_le_of_ne begins.length_le
    intro same
    have less := valid.key_lt_key earlier baseFound found
    rw [begins.eq_of_length same] at less
    exact List.lt_irrefl _ less
  case h_2 => cases sound

end ValidFor

/-! ## Chains of entries -/

def chain (table : AffixTable Context) (index : Nat) : List (Affix Context) :=
  match table.affixes[index]? with
  | none => []
  | some affix =>
    affix ::
      match affix.link with
      | .negSucc _ => []
      | .ofNat target => if target < index then table.chain target else []
termination_by index

theorem chain_of_unlinked {below : Nat} (found : table.affixes[index]? = some affix)
    (unlinked : affix.link = .negSucc below) : table.chain index = [affix] := by
  rw [chain, found]
  simp only [unlinked]

theorem ValidFor.chain_of_linked (valid : table.ValidFor direction)
    (found : table.affixes[index]? = some affix) (linked : affix.link = .ofNat target) :
    table.chain index = affix :: table.chain target := by
  rw [chain, found]
  simp only [linked, if_pos (valid.link_sound found linked).1]

theorem exists_chain_eq_cons (found : table.affixes[index]? = some affix) :
    ∃ others, table.chain index = affix :: others := by
  rw [chain, found]
  exact ⟨_, rfl⟩

theorem ValidFor.chain_pairwise (valid : table.ValidFor direction) (index : Nat) :
    (table.chain index).Pairwise fun longer shorter =>
      key direction shorter <+: key direction longer ∧
        byteLength shorter.literal.toList < byteLength longer.literal.toList := by
  induction index using Nat.strongRecOn with
  | ind index ih =>
    cases found : table.affixes[index]? with
    | none => simp [chain, found]
    | some affix =>
      cases linked : affix.link with
      | negSucc below =>
        rw [chain_of_unlinked found linked]
        exact List.pairwise_singleton _ _
      | ofNat target =>
        obtain ⟨earlier, base, baseFound, begins, shorter⟩ := valid.link_sound found linked
        obtain ⟨others, chained⟩ := exists_chain_eq_cons baseFound
        have paired := ih target earlier
        rw [valid.chain_of_linked found linked]
        refine List.pairwise_cons.mpr ⟨fun other member => ?_, paired⟩
        rw [chained] at member paired
        rcases List.mem_cons.mp member with rfl | member
        · exact ⟨begins, shorter⟩
        · obtain ⟨further, less⟩ := (List.pairwise_cons.mp paired).1 other member
          exact ⟨further.trans begins, Nat.lt_trans less shorter⟩

theorem ValidFor.key_isPrefix_of_mem_chain (valid : table.ValidFor direction)
    (found : table.affixes[index]? = some affix) {other : Affix Context}
    (member : other ∈ table.chain index) : key direction other <+: key direction affix := by
  obtain ⟨others, chained⟩ := exists_chain_eq_cons found
  have paired := valid.chain_pairwise index
  rw [chained] at member paired
  rcases List.mem_cons.mp member with rfl | member
  · exact List.prefix_rfl
  · exact ((List.pairwise_cons.mp paired).1 other member).1

theorem mem_affixes_of_mem_chain (member : affix ∈ table.chain index) :
    affix ∈ table.affixes := by
  induction index using Nat.strongRecOn with
  | ind index ih =>
    rw [chain] at member
    split at member
    · cases member
    case h_2 head found =>
      rcases List.mem_cons.mp member with rfl | member
      · exact List.mem_of_getElem? found
      · split at member
        · cases member
        · split at member
          case isTrue earlier => exact ih _ earlier member
          case isFalse => cases member

end AffixTable

end WordStem
