import WordStem.Proofs.BufferParts
import WordStem.Proofs.ValidTables

/-! # What validation accepts

Validation looks at neighbours only and follows each link by one step. What it decides is said here
of whole tables: every literal is smaller than all later ones, and every link leads to an earlier
entry whose literal is a proper part of the entry's own. A table for which this does not hold is
refused at the first entry that breaks it. Main statement: `validate_decides_wellFormed`. -/
namespace WordStem

/-- The literal stands at the end of a text at which a direction begins to read, and is not the
whole text. -/
def Direction.BeginsProperly (direction : Direction) (literal text : List Char) : Prop :=
  match direction with
  | forward => literal <+: text ∧ literal ≠ text
  | backward => literal <:+ text ∧ literal ≠ text

namespace AffixTable

variable {Context : Type}

/-- Every literal is smaller than all later ones in the order of the bytes as they are read. -/
def Ordered (table : AffixTable Context) : Prop :=
  ∀ (earlier later : Nat) (lesser greater : Affix Context), earlier < later →
    table.affixes[earlier]? = some lesser → table.affixes[later]? = some greater →
    key table.direction lesser < key table.direction greater

/-- A link fits an entry when it is `-1` or leads to an earlier entry whose literal is a proper
part of the entry's own. -/
def LinkFits (table : AffixTable Context) (index : Nat) (affix : Affix Context) : Prop :=
  affix.link = -1 ∨ ∃ target < index, ∃ base, affix.link = (target : Int) ∧
    table.affixes[target]? = some base ∧
    table.direction.BeginsProperly base.literal.toList affix.literal.toList

/-- The entry at an index is not greater than the entry before it. -/
def OrderFailsAt (table : AffixTable Context) (index : Nat) : Prop :=
  ∃ before previous affix, index = before + 1 ∧ table.affixes[before]? = some previous ∧
    table.affixes[index]? = some affix ∧
    ¬ key table.direction previous < key table.direction affix

def LinkFailsAt (table : AffixTable Context) (index : Nat) : Prop :=
  ∃ affix, table.affixes[index]? = some affix ∧ ¬ table.LinkFits index affix

/-- Nothing fails at the entries in front of an index. -/
def SoundBefore (table : AffixTable Context) (index : Nat) : Prop :=
  ∀ earlier < index, ¬ table.OrderFailsAt earlier ∧ ¬ table.LinkFailsAt earlier

/-- What is reported of an entry: its order, and its link if the order is right. -/
inductive Reports (table : AffixTable Context) (index : Nat) : Defect → Prop
  | order (fails : table.OrderFailsAt index) :
    Reports table index (.unsortedTable table.name index)
  | link (ordered : ¬ table.OrderFailsAt index) (fails : table.LinkFailsAt index) :
    Reports table index (.brokenChain table.name index)

/-- The literals ascend and every link fits its entry. -/
structure WellFormed (table : AffixTable Context) : Prop where
  ordered : table.Ordered
  linksFit : ∀ (index : Nat) (affix : Affix Context), table.affixes[index]? = some affix →
    table.LinkFits index affix

/-- The links lead from the entry at an index through some affixes and then end. -/
inductive LinksEnd (table : AffixTable Context) : Nat → List (Affix Context) → Prop
  | here {index : Nat} {affix : Affix Context} (found : table.affixes[index]? = some affix)
      (unlinked : affix.link = -1) : LinksEnd table index [affix]
  | further {index target : Nat} {affix : Affix Context} {others : List (Affix Context)}
      (found : table.affixes[index]? = some affix) (linked : affix.link = (target : Int))
      (later : LinksEnd table target others) : LinksEnd table index (affix :: others)

variable {table : AffixTable Context} {index : Nat} {affix base : Affix Context}

/-! ## The test of one entry -/

theorem beginsProperly_iff {direction : Direction} :
    direction.BeginsProperly base.literal.toList affix.literal.toList ↔
      key direction base <+: key direction affix ∧ base.literal ≠ affix.literal := by
  rw [key, key, Direction.inReadingOrder_isPrefix_iff]
  cases direction <;> simp [Direction.BeginsProperly, Direction.starts, String.toList_inj]

theorem orderFailsAt_iff (found : table.affixes[index]? = some affix) :
    table.OrderFailsAt index ↔ table.inOrder index affix = false := by
  cases index with
  | zero => simp [inOrder, OrderFailsAt]
  | succ before =>
    have inside := (List.getElem?_eq_some_iff.mp found).1
    have previousFound := List.getElem?_eq_getElem (Nat.lt_of_succ_lt inside)
    simp only [inOrder, previousFound, decide_eq_false_iff_not]
    constructor
    · rintro ⟨place, previous, other, placeEq, placeFound, otherFound, notLess⟩
      obtain rfl := Nat.succ.inj placeEq
      rw [previousFound] at placeFound
      rw [found] at otherFound
      obtain rfl := Option.some.inj placeFound
      obtain rfl := Option.some.inj otherFound
      exact notLess
    · intro notLess
      exact ⟨before, _, affix, rfl, previousFound, found, notLess⟩

theorem not_orderFailsAt_iff (found : table.affixes[index]? = some affix) :
    ¬ table.OrderFailsAt index ↔ table.inOrder index affix = true := by
  rw [orderFailsAt_iff found, Bool.not_eq_false]

/-- Where the order has been right so far, a literal that an entry extends is another one. So the
test of a link need not ask for a proper part. -/
theorem linkSound_iff
    (ordered : ∀ place ≤ index, ∀ other, table.affixes[place]? = some other →
      table.inOrder place other = true)
    (found : table.affixes[index]? = some affix) :
    table.linkSound index affix = true ↔ table.LinkFits index affix := by
  cases linked : affix.link with
  | negSucc below =>
    simp only [linkSound, LinkFits, linked, beq_iff_eq]
    constructor
    · rintro rfl
      exact .inl rfl
    · rintro (unlinked | ⟨target, -, base, impossible, -⟩)
      · omega
      · omega
  | ofNat target =>
    simp only [linkSound, LinkFits, linked]
    constructor
    · intro sound
      split at sound
      case h_2 => cases sound
      case h_1 base baseFound =>
        rw [Bool.and_eq_true, decide_eq_true_iff, List.isPrefixOf_iff_prefix] at sound
        obtain ⟨earlier, begins⟩ := sound
        refine .inr ⟨target, earlier, base, rfl, baseFound, beginsProperly_iff.mpr ⟨begins, ?_⟩⟩
        intro same
        have less := key_lt_key_of_inOrder ordered earlier (Nat.le_refl index) baseFound found
        rw [key, key, same] at less
        exact List.lt_irrefl _ less
    · rintro (unlinked | ⟨place, earlier, base, placeEq, baseFound, begins⟩)
      · cases unlinked
      · obtain rfl := Int.ofNat.inj placeEq
        rw [baseFound]
        simp only [earlier, decide_true, Bool.true_and, List.isPrefixOf_iff_prefix]
        exact (beginsProperly_iff.mp begins).1

theorem SoundBefore.inOrder (sound : table.SoundBefore index) :
    ∀ place < index, ∀ other, table.affixes[place]? = some other →
      table.inOrder place other = true :=
  fun place earlier _ otherFound => (not_orderFailsAt_iff otherFound).mp (sound place earlier).1

/-- What is found wrong with an entry behind sound ones. -/
theorem SoundBefore.defectAt?_eq_some_iff (sound : table.SoundBefore index)
    (found : table.affixes[index]? = some affix) {defect : Defect} :
    table.defectAt? index affix = some defect ↔ table.Reports index defect := by
  by_cases inOrder : table.inOrder index affix = true
  · have noFailure := (not_orderFailsAt_iff found).mpr inOrder
    have ordered : ∀ place ≤ index, ∀ other, table.affixes[place]? = some other →
        table.inOrder place other = true := by
      intro place atMost other otherFound
      rcases Nat.eq_or_lt_of_le atMost with rfl | earlier
      · rwa [Option.some.inj (otherFound.symm.trans found)]
      · exact sound.inOrder place earlier other otherFound
    have linkFails : table.LinkFailsAt index ↔ ¬ table.linkSound index affix = true := by
      rw [linkSound_iff ordered found, LinkFailsAt]
      constructor
      · rintro ⟨other, otherFound, misfit⟩
        rwa [Option.some.inj (otherFound.symm.trans found)] at misfit
      · exact fun misfit => ⟨affix, found, misfit⟩
    rw [defectAt?, inOrder]
    constructor
    · intro reported
      by_cases linkSound : table.linkSound index affix = true
      · simp [linkSound] at reported
      · simp only [linkSound] at reported
        obtain rfl := Option.some.inj reported
        exact .link noFailure (linkFails.mpr linkSound)
    · rintro (fails | ⟨-, fails⟩)
      · exact absurd fails noFailure
      · simp [linkFails.mp fails]
  · have failure := (orderFailsAt_iff found).mpr (Bool.eq_false_iff.mpr inOrder)
    simp only [defectAt?, inOrder]
    constructor
    · intro reported
      obtain rfl := Option.some.inj reported
      exact .order failure
    · rintro (- | ⟨ordered, -⟩)
      · rfl
      · exact absurd failure ordered

theorem SoundBefore.defectAt?_eq_none_iff (sound : table.SoundBefore index)
    (found : table.affixes[index]? = some affix) :
    table.defectAt? index affix = none ↔
      ¬ table.OrderFailsAt index ∧ ¬ table.LinkFailsAt index := by
  rw [Option.eq_none_iff_forall_ne_some]
  simp only [ne_eq, sound.defectAt?_eq_some_iff found]
  constructor
  · intro noDefect
    have ordered : ¬ table.OrderFailsAt index := fun fails => noDefect _ (.order fails)
    exact ⟨ordered, fun fails => noDefect _ (.link ordered fails)⟩
  · rintro ⟨ordered, linked⟩ defect (fails | ⟨-, fails⟩)
    · exact ordered fails
    · exact linked fails

/-! ## The test of a table -/

/-- The entries in front of an index pass the test one after the other exactly when they are
sound. -/
theorem soundBefore_iff :
    table.SoundBefore index ↔ ∀ place < index, ∀ other, table.affixes[place]? = some other →
      table.defectAt? place other = none := by
  constructor
  · intro sound place earlier other found
    have soundThere : table.SoundBefore place :=
      fun before less => sound before (Nat.lt_trans less earlier)
    exact (soundThere.defectAt?_eq_none_iff found).mpr (sound place earlier)
  · intro noDefect
    induction index with
    | zero => exact fun place less => absurd less (Nat.not_lt_zero place)
    | succ index ih =>
      have soundThere := ih fun place less => noDefect place (Nat.lt_succ_of_lt less)
      intro place less
      rcases Nat.eq_or_lt_of_le (Nat.le_of_lt_succ less) with rfl | earlier
      · cases found : table.affixes[place]? with
        | none => simp [OrderFailsAt, LinkFailsAt, found]
        | some affix =>
          exact (soundThere.defectAt?_eq_none_iff found).mp (noDefect place less affix found)
      · exact soundThere place earlier

theorem validate_eq_error_iff_findSome? {defect : Defect} :
    table.validate = .error defect ↔
      (table.affixes.zipIdx.findSome? fun entry => table.defectAt? entry.2 entry.1) =
        some defect := by
  rw [validate]
  split
  case h_1 other found => simp [found]
  case h_2 none => simp [none]

/-- A table is refused at its first entry that is not sound. -/
theorem exists_of_validate_eq_error {defect : Defect} (refused : table.validate = .error defect) :
    ∃ index, table.SoundBefore index ∧ table.Reports index defect := by
  obtain ⟨front, ⟨affix, index⟩, rest, split, defective, passed⟩ :=
    List.findSome?_eq_some_iff.mp (validate_eq_error_iff_findSome?.mp refused)
  have found (place : Nat) (entry : Affix Context × Nat)
      (entryFound : (front ++ (affix, index) :: rest)[place]? = some entry) :
      table.affixes[place]? = some entry.1 ∧ entry.2 = place := by
    rw [← split, List.getElem?_zipIdx, Option.map_eq_some_iff] at entryFound
    obtain ⟨other, otherFound, rfl⟩ := entryFound
    exact ⟨otherFound, Nat.zero_add place⟩
  obtain ⟨affixFound, rfl⟩ := found front.length (affix, index) (by simp)
  have sound : table.SoundBefore front.length := by
    apply soundBefore_iff.mpr
    intro place earlier other otherFound
    obtain ⟨sameFound, placeEq⟩ := found place front[place] (by
      rw [List.getElem?_append_left earlier, List.getElem?_eq_getElem earlier])
    have passes := passed front[place] (List.getElem_mem earlier)
    rw [placeEq] at passes
    rwa [Option.some.inj (otherFound.symm.trans sameFound)]
  exact ⟨front.length, sound, (sound.defectAt?_eq_some_iff affixFound).mp defective⟩

theorem WellFormed.not_orderFailsAt (wellFormed : table.WellFormed) :
    ¬ table.OrderFailsAt index := by
  rintro ⟨before, lesser, greater, rfl, lesserFound, greaterFound, notLess⟩
  exact notLess (wellFormed.ordered before (before + 1) lesser greater (Nat.lt_succ_self before)
    lesserFound greaterFound)

/-- A table is accepted when it is well formed, and only then. -/
theorem validate_eq_ok_iff_wellFormed : table.validate = .ok () ↔ table.WellFormed := by
  rw [validate_eq_ok_iff]
  constructor
  · intro accepted
    have ordered (last : Nat) : ∀ place ≤ last, ∀ other, table.affixes[place]? = some other →
        table.inOrder place other = true :=
      fun place _ other otherFound => (accepted place other otherFound).1
    refine ⟨fun earlier later lesser greater before lesserFound greaterFound => ?_,
      fun index affix found => ?_⟩
    · exact key_lt_key_of_inOrder (ordered later) before (Nat.le_refl later) lesserFound
        greaterFound
    · exact (linkSound_iff (ordered index) found).mp (accepted index affix found).2
  · intro wellFormed
    have ordered : ∀ place other, table.affixes[place]? = some other →
        table.inOrder place other = true :=
      fun place other otherFound =>
        (not_orderFailsAt_iff otherFound).mp wellFormed.not_orderFailsAt
    intro index affix found
    exact ⟨ordered index affix found, (linkSound_iff (fun place _ => ordered place) found).mpr
      (wellFormed.linksFit index affix found)⟩

theorem Reports.not_sound {defect : Defect} (reports : table.Reports index defect) :
    ¬ (¬ table.OrderFailsAt index ∧ ¬ table.LinkFailsAt index) := by
  rintro ⟨ordered, linked⟩
  cases reports with
  | order fails => exact ordered fails
  | link _ fails => exact linked fails

theorem Reports.unique {first second : Defect} (reports : table.Reports index first)
    (other : table.Reports index second) : first = second := by
  cases reports with
  | order fails =>
    cases other with
    | order => rfl
    | link ordered => exact absurd fails ordered
  | link ordered =>
    cases other with
    | order fails => exact absurd fails ordered
    | link => rfl

theorem WellFormed.not_reports (wellFormed : table.WellFormed) {defect : Defect} :
    ¬ table.Reports index defect := by
  intro reports
  refine reports.not_sound ⟨wellFormed.not_orderFailsAt, ?_⟩
  rintro ⟨affix, found, misfit⟩
  exact misfit (wellFormed.linksFit index affix found)

theorem validate_eq_error_iff {defect : Defect} :
    table.validate = .error defect ↔
      ∃ index, table.SoundBefore index ∧ table.Reports index defect := by
  refine ⟨exists_of_validate_eq_error, ?_⟩
  rintro ⟨index, sound, reports⟩
  cases validated : table.validate with
  | ok _ => exact absurd reports (validate_eq_ok_iff_wellFormed.mp validated).not_reports
  | error other =>
    obtain ⟨place, soundThere, reportsThere⟩ := exists_of_validate_eq_error validated
    rcases Nat.lt_trichotomy place index with less | rfl | greater
    · exact absurd (sound place less) reportsThere.not_sound
    · rw [reports.unique reportsThere]
    · exact absurd (soundThere index greater) reports.not_sound

/-! ## What follows for an accepted table -/

theorem WellFormed.nodup_literals (wellFormed : table.WellFormed) :
    (table.affixes.map Affix.literal).Nodup := by
  rw [List.Nodup, List.pairwise_map, List.pairwise_iff_getElem]
  intro earlier later earlierInside laterInside before same
  have less := wellFormed.ordered earlier later _ _ before
    (List.getElem?_eq_getElem earlierInside) (List.getElem?_eq_getElem laterInside)
  rw [key, key, same] at less
  exact List.lt_irrefl _ less

/-- The links of an accepted table come to an end from every entry. -/
theorem WellFormed.linksEnd_chain (wellFormed : table.WellFormed)
    (found : table.affixes[index]? = some affix) : table.LinksEnd index (table.chain index) := by
  have valid : table.ValidFor table.direction := validate_eq_ok_iff_wellFormed.mpr wellFormed
  induction index using Nat.strongRecOn generalizing affix with
  | ind index ih =>
    rcases wellFormed.linksFit index affix found with unlinked | linkFits
    · rw [chain_of_unlinked found unlinked]
      exact .here found unlinked
    · obtain ⟨target, earlier, base, linked, baseFound, -⟩ := linkFits
      rw [valid.chain_of_linked found linked]
      exact .further found linked (ih target earlier baseFound)

/-- On the way along the links each literal is a proper part of all before it. -/
theorem WellFormed.chain_pairwise (wellFormed : table.WellFormed) (index : Nat) :
    (table.chain index).Pairwise fun longer shorter =>
      table.direction.BeginsProperly shorter.literal.toList longer.literal.toList := by
  have valid : table.ValidFor table.direction := validate_eq_ok_iff_wellFormed.mpr wellFormed
  refine (valid.chain_pairwise index).imp fun ⟨begins, less⟩ => ?_
  refine beginsProperly_iff.mpr ⟨begins, fun same => ?_⟩
  rw [same] at less
  exact Nat.lt_irrefl _ less

/-- Validation accepts the well-formed tables and refuses all others at the first entry whose order
or link fails. The literals of an accepted table are distinct, and from every entry its links lead
down to ever shorter parts of the literal until they end. -/
theorem validate_decides_wellFormed (table : AffixTable Context) :
    (table.validate = .ok () ↔ table.WellFormed) ∧
    (∀ defect, table.validate = .error defect ↔
      ∃ index, table.SoundBefore index ∧ table.Reports index defect) ∧
    (table.WellFormed → (table.affixes.map Affix.literal).Nodup ∧
      ∀ index < table.affixes.length, ∃ affixes, table.LinksEnd index affixes ∧
        affixes.Pairwise fun longer shorter =>
          table.direction.BeginsProperly shorter.literal.toList longer.literal.toList) := by
  refine ⟨validate_eq_ok_iff_wellFormed, fun defect => validate_eq_error_iff, ?_⟩
  intro wellFormed
  refine ⟨wellFormed.nodup_literals, fun index inside => ?_⟩
  exact ⟨table.chain index, wellFormed.linksEnd_chain (List.getElem?_eq_getElem inside),
    wellFormed.chain_pairwise index⟩

/-- Four endings, three of which extend another one. -/
def nestedEndings : AffixTable Unit :=
  .ofRows "nested endings" .backward [("n", -1, 1), ("an", 0, 2), ("ban", 1, 3), ("en", 0, 4)]

theorem validate_decides_wellFormed_nestedEndings :
    nestedEndings.WellFormed ∧ (nestedEndings.affixes.map Affix.literal).Nodup ∧
      ∃ affixes, nestedEndings.LinksEnd 2 affixes ∧
        affixes.Pairwise fun longer shorter =>
          Direction.backward.BeginsProperly shorter.literal.toList longer.literal.toList := by
  obtain ⟨accepts, -, follows⟩ := validate_decides_wellFormed nestedEndings
  have wellFormed : nestedEndings.WellFormed := accepts.mp rfl
  exact ⟨wellFormed, (follows wellFormed).1, (follows wellFormed).2 2 (by decide)⟩

end AffixTable

end WordStem
