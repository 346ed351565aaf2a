import Mathlib.Data.List.MinMax
import WordStem.Proofs.AffixMatching

/-! # The longest affix

On a valid table without guards, whose links name the longest entry that an affix extends, a
search finds the longest affix that the text starts with. Main statement: `find_eq_longest`. -/
namespace WordStem.AffixTable

variable {Context : Type}

def Unguarded (table : AffixTable Context) : Prop :=
  ∀ affix ∈ table.affixes, affix.guard? = none

def linked? (table : AffixTable Context) (affix : Affix Context) : Option (Affix Context) :=
  match affix.link with
  | .negSucc _ => none
  | .ofNat target => table.affixes[target]?

/-- Every link names the longest other entry that the affix extends. An entry without a link
extends no other one. -/
def LinksLongest (table : AffixTable Context) (direction : Direction) : Prop :=
  ∀ entry ∈ table.affixes.zipIdx, ∀ other ∈ table.affixes.zipIdx, other.2 ≠ entry.2 →
    direction.starts other.1.literal.toList entry.1.literal.toList = true →
    ∃ base ∈ table.linked? entry.1,
      byteLength other.1.literal.toList ≤ byteLength base.literal.toList

/-- A table is read longest first in a direction when it is valid for it, has no guards and links
every affix to the longest other one that it extends. -/
structure ReadsLongest (table : AffixTable Context) (direction : Direction) : Prop where
  valid : table.ValidFor direction
  unguarded : table.Unguarded
  linksLongest : table.LinksLongest direction

instance (table : AffixTable Context) (direction : Direction) :
    Decidable (table.ValidFor direction) :=
  decidable_of_iff (({ table with direction } : AffixTable Context).validate.isOk = true) (by
    rw [ValidFor]
    cases ({ table with direction } : AffixTable Context).validate <;> simp [Except.isOk,
      Except.toBool])

instance (table : AffixTable Context) : Decidable table.Unguarded :=
  inferInstanceAs (Decidable (∀ affix ∈ table.affixes, affix.guard? = none))

instance (table : AffixTable Context) (direction : Direction) :
    Decidable (table.LinksLongest direction) :=
  inferInstanceAs (Decidable (∀ entry ∈ table.affixes.zipIdx, ∀ other ∈ table.affixes.zipIdx,
    other.2 ≠ entry.2 →
      direction.starts other.1.literal.toList entry.1.literal.toList = true →
      ∃ base ∈ table.linked? entry.1,
        byteLength other.1.literal.toList ≤ byteLength base.literal.toList))

instance (table : AffixTable Context) (direction : Direction) :
    Decidable (table.ReadsLongest direction) :=
  decidable_of_iff (table.ValidFor direction ∧ table.Unguarded ∧ table.LinksLongest direction)
    ⟨fun ⟨valid, unguarded, linksLongest⟩ => ⟨valid, unguarded, linksLongest⟩,
      fun reads => ⟨reads.valid, reads.unguarded, reads.linksLongest⟩⟩

/-- The longest affix of the table that a text starts with in a reading direction. -/
def longest? (table : AffixTable Context) (direction : Direction) (text : List Char) :
    Option (Affix Context) :=
  (table.affixes.filter fun affix => direction.starts affix.literal.toList text).argmax
    fun affix => byteLength affix.literal.toList

variable {table : AffixTable Context} {direction : Direction} {index place : Nat}
  {affix other base : Affix Context} {text : List UInt8}

theorem starts_iff_key_isPrefix :
    direction.starts other.literal.toList affix.literal.toList = true ↔
      key direction other <+: key direction affix :=
  Direction.inReadingOrder_isPrefix_iff.symm

theorem linked?_eq_some (named : table.linked? affix = some base) :
    ∃ target, affix.link = .ofNat target ∧ table.affixes[target]? = some base := by
  rw [linked?] at named
  split at named
  · cases named
  case h_2 target linked => exact ⟨target, linked, named⟩

namespace ReadsLongest

/-- The chain of an entry passes every entry that the affix extends. -/
theorem mem_chain (reads : table.ReadsLongest direction)
    (found : table.affixes[index]? = some affix) (otherFound : table.affixes[place]? = some other)
    (begins : key direction other <+: key direction affix) : other ∈ table.chain index := by
  induction index using Nat.strongRecOn generalizing affix with
  | ind index ih =>
    obtain ⟨others, chained⟩ := exists_chain_eq_cons found
    by_cases same : place = index
    · subst same
      obtain rfl : affix = other := Option.some.inj (found.symm.trans otherFound)
      rw [chained]
      exact .head _
    · obtain ⟨base, named, longer⟩ := reads.linksLongest (affix, index)
        (List.mem_zipIdx_iff_getElem?.mpr found) (other, place)
        (List.mem_zipIdx_iff_getElem?.mpr otherFound) same (starts_iff_key_isPrefix.mpr begins)
      obtain ⟨target, linked, baseFound⟩ := linked?_eq_some named
      obtain ⟨earlier, base', baseFound', baseBegins, -⟩ := reads.valid.link_sound found linked
      obtain rfl : base = base' := Option.some.inj (baseFound.symm.trans baseFound')
      rw [reads.valid.chain_of_linked found linked]
      refine .tail _ (ih target earlier baseFound ?_)
      apply List.prefix_of_prefix_length_le begins baseBegins
      rwa [length_key, length_key]

theorem mem_candidates (reads : table.ReadsLongest direction) {candidates : List (Affix Context)}
    (tried : Candidates table direction text candidates) (member : other ∈ table.affixes)
    (starts : key direction other <+: text) : other ∈ candidates := by
  cases tried with
  | none above => exact absurd (above other member) (le_of_isPrefix starts)
  | some index affix found notAbove greatest =>
    obtain ⟨place, otherFound⟩ := List.mem_iff_getElem?.mp member
    have begins : key direction other <+: key direction affix :=
      isPrefix_of_between List.prefix_rfl starts
        (greatest other member (le_of_isPrefix starts)) notAbove
    exact List.mem_filter.mpr
      ⟨reads.mem_chain found otherFound begins, matchesAt_iff.mpr starts⟩

end ReadsLongest

theorem tryEach_of_unguarded {start : Nat} {candidates : List (Affix Context)}
    (unguarded : ∀ affix ∈ candidates, affix.guard? = none) (workspace : Workspace Context) :
    tryEach direction start candidates workspace =
      match candidates.head? with
      | none => .ok 0 (workspace.withCursor start)
      | some affix => .ok affix.tag (workspace.withCursor (affix.landing direction start)) := by
  cases candidates with
  | nil => rfl
  | cons affix others => simp only [tryEach, unguarded affix (.head _), List.head?_cons]

theorem mem_of_longest?_eq_some {visible : List Char}
    (longest : table.longest? direction visible = some affix) :
    affix ∈ table.affixes ∧ direction.starts affix.literal.toList visible = true :=
  List.mem_filter.mp (List.argmax_mem longest)

/-- The first candidate is the longest affix that the text starts with. -/
theorem ReadsLongest.head?_candidates (reads : table.ReadsLongest direction)
    {candidates : List (Affix Context)} {visible : List Char}
    (tried : Candidates table direction (direction.inReadingOrder (utf8Bytes visible))
      candidates) :
    candidates.head? = table.longest? direction visible := by
  cases longest : table.longest? direction visible with
  | none =>
    have empty := List.argmax_eq_none.mp longest
    rw [List.head?_eq_none_iff, List.eq_nil_iff_forall_not_mem]
    intro affix member
    have starts := Direction.inReadingOrder_isPrefix_iff.mp (tried.isPrefix member)
    exact List.filter_eq_nil_iff.mp empty affix (tried.mem_affixes member) starts
  | some affix =>
    obtain ⟨listed, starts⟩ := mem_of_longest?_eq_some longest
    have member := reads.mem_candidates tried listed
      (Direction.inReadingOrder_isPrefix_iff.mpr starts)
    have paired := reads.valid.candidates_pairwise tried
    cases candidates with
    | nil => cases member
    | cons first others =>
      rcases List.mem_cons.mp member with rfl | member
      · rfl
      · have less := (List.pairwise_cons.mp paired).1 affix member
        have firstStarts := Direction.inReadingOrder_isPrefix_iff.mp (tried.isPrefix (.head _))
        have notLess := List.le_of_mem_argmax
          (List.mem_filter.mpr ⟨tried.mem_affixes (.head _), firstStarts⟩) longest
        exact absurd less (Nat.not_lt.mpr notLess)

/-- A search finds the longest affix and passes it. -/
theorem ReadsLongest.find_eq_longest (reads : table.ReadsLongest direction)
    {workspace : Workspace Context} {hidden behind ahead : List Char}
    (parts : workspace.buffer.HasParts hidden behind ahead) :
    table.find direction workspace =
      match table.longest? direction (direction.choose behind ahead) with
      | none => .ok 0 workspace
      | some affix =>
        .ok affix.tag (workspace.withCursor (affix.landing direction workspace.buffer.cursor)) := by
  obtain ⟨candidates, tried, searched⟩ := reads.valid.find_eq_tryEach workspace
  rw [parts.view_eq] at tried
  rw [searched, tryEach_of_unguarded fun affix member =>
    reads.unguarded affix (tried.mem_affixes member), reads.head?_candidates tried]
  rfl

end WordStem.AffixTable
