import Mathlib.Data.List.Nodup
import Mathlib.Data.Nat.Choose.Basic
import Mathlib.Data.Prod.Lex
import WordStem.Proofs.CallFailures
import WordStem.Proofs.ScoreOrder

/-! # Ranked pairs

The pairs of a list of vectors are collected vector by vector, each with those after it, and then
sorted. Main statement: `pairs_ranked_and_cut`, that the ranking has every pair once with its
cosine, that it is strictly ordered, that the best pairs are a beginning of those in it that
score enough, and that a call prints these. By `isRanking_iff` nothing else is a ranking in this
sense.

Which bits a cosine leaves that is not a number is up to the machine, and they can decide where its
pair is ranked. All that is said of rankings holds whatever is left over. The best pairs score
numbers, so they are the same for all machines. -/
namespace WordStem

namespace SimilarityPair

def positions (pair : SimilarityPair) : Nat × Nat := (pair.left, pair.right)

/-- One pair stands strictly before another in a ranking: its score is higher, or the scores are
the same and it is first by its positions. -/
def RanksAhead (first second : SimilarityPair) : Prop :=
  second.score.TotalLess first.score ∨
    (first.score = second.score ∧
      (first.left < second.left ∨ (first.left = second.left ∧ first.right < second.right)))

/-- What pairs are ranked by, in one linear order. -/
def rankKey (pair : SimilarityPair) : ℤ ×ₗ ℕ ×ₗ ℕ :=
  toLex (-pair.score.orderKey, toLex pair.positions)

theorem ranksBefore_iff (first second : SimilarityPair) :
    first.ranksBefore second = true ↔ first.rankKey ≤ second.rankKey := by
  simp only [ranksBefore, rankKey, positions, Prod.Lex.toLex_le_toLex, Int.neg_lt_neg_iff,
    Int.neg_inj]
  by_cases scores : first.score.orderKey = second.score.orderKey
  · by_cases lefts : first.left = second.left
    · simp [scores, lefts]
    · simp [scores, lefts]
  · simp [scores]

theorem ranksAhead_iff (first second : SimilarityPair) :
    first.RanksAhead second ↔ first.rankKey < second.rankKey := by
  simp only [RanksAhead, rankKey, positions, Prod.Lex.toLex_lt_toLex,
    ← Score.orderKey_lt_iff, ← Score.orderKey_inj, Int.neg_inj, Int.neg_lt_neg_iff]

theorem positions_eq_of_rankKey_eq {first second : SimilarityPair}
    (same : first.rankKey = second.rankKey) : first.positions = second.positions :=
  congrArg (fun key => ofLex (ofLex key).2) same

end SimilarityPair

/-! ## Collecting pairs -/

section Collecting

variable {leftovers : Leftovers}

/-- The pairs of one vector with those that follow it. -/
theorem mem_pairsWith_iff {position start : Nat} {vector : SparseMapping}
    {others : List SparseMapping} {pair : SimilarityPair} :
    pair ∈ (others.zipIdx start).map (fun other =>
        { left := position, right := other.2,
          score := .of (vector.cosine other.1) (leftovers position other.2) }) ↔
      ∃ j second, others[j]? = some second ∧
        pair = {
          left := position
          right := start + j
          score := .of (vector.cosine second) (leftovers position (start + j)) } := by
  rw [List.mem_map]
  constructor
  · rintro ⟨⟨second, right⟩, member, rfl⟩
    obtain ⟨above, atRight⟩ := List.mk_mem_zipIdx_iff_le_and_getElem?_sub.mp member
    exact ⟨right - start, second, atRight, by rw [Nat.add_sub_cancel' above]⟩
  · rintro ⟨j, second, atJ, rfl⟩
    refine ⟨(second, start + j), List.mk_mem_zipIdx_iff_le_and_getElem?_sub.mpr ?_, rfl⟩
    exact ⟨Nat.le_add_right _ _, by rwa [Nat.add_sub_cancel_left]⟩

theorem mem_pairsFrom_iff {position : Nat} {vectors : List SparseMapping} {pair : SimilarityPair} :
    pair ∈ pairsFrom leftovers position vectors ↔
      ∃ i j first second, i < j ∧ vectors[i]? = some first ∧ vectors[j]? = some second ∧
        pair = {
          left := position + i
          right := position + j
          score := .of (first.cosine second) (leftovers (position + i) (position + j)) } := by
  induction vectors generalizing position with
  | nil => simp [pairsFrom]
  | cons vector others ih =>
    rw [pairsFrom, List.mem_append, mem_pairsWith_iff, ih]
    constructor
    · rintro (⟨j, second, atJ, rfl⟩ | ⟨i, j, first, second, less, atI, atJ, rfl⟩)
      · exact ⟨0, j + 1, vector, second, Nat.succ_pos j, rfl, atJ, by
          rw [Nat.add_assoc, Nat.add_comm 1]; rfl⟩
      · exact ⟨i + 1, j + 1, first, second, Nat.succ_lt_succ less, atI, atJ, by
          rw [Nat.add_assoc, Nat.add_comm 1, Nat.add_assoc, Nat.add_comm 1]⟩
    · rintro ⟨i, j, first, second, less, atI, atJ, rfl⟩
      cases j with
      | zero => exact absurd less (Nat.not_lt_zero i)
      | succ j =>
        cases i with
        | zero =>
          obtain rfl : vector = first := Option.some.inj atI
          exact .inl ⟨j, second, atJ, by rw [Nat.add_zero, Nat.add_assoc, Nat.add_comm 1]⟩
        | succ i =>
          exact .inr ⟨i, j, first, second, Nat.lt_of_succ_lt_succ less, atI, atJ, by
            rw [Nat.add_assoc, Nat.add_comm 1, Nat.add_assoc, Nat.add_comm 1]⟩

theorem pairsFrom_positions_nodup (position : Nat) (vectors : List SparseMapping) :
    ((pairsFrom leftovers position vectors).map SimilarityPair.positions).Nodup := by
  induction vectors generalizing position with
  | nil => exact List.nodup_nil
  | cons vector others ih =>
    rw [pairsFrom, List.map_append, List.map_map, List.nodup_append]
    refine ⟨?_, ih (position + 1), ?_⟩
    · -- The pairs of the first vector differ in the position of the other one.
      have rights : (others.zipIdx (position + 1)).map Prod.snd =
          List.range' (position + 1) others.length := List.zipIdx_map_snd _ _
      refine List.Nodup.of_map Prod.snd ?_
      rw [List.map_map]
      exact rights ▸ List.nodup_range'
    · -- The first vector is behind none of the later pairs.
      rintro place inFirst _ inLater rfl
      obtain ⟨other, -, rfl⟩ := List.mem_map.mp inFirst
      obtain ⟨pair, member, same⟩ := List.mem_map.mp inLater
      obtain ⟨i, j, first, second, -, -, -, rfl⟩ := mem_pairsFrom_iff.mp member
      have lefts : position + 1 + i = position := congrArg Prod.fst same
      omega

theorem length_pairsFrom (position : Nat) (vectors : List SparseMapping) :
    (pairsFrom leftovers position vectors).length = vectors.length * (vectors.length - 1) / 2 := by
  induction vectors generalizing position with
  | nil => rfl
  | cons vector others ih =>
    rw [pairsFrom, List.length_append, List.length_map, List.length_zipIdx, ih, List.length_cons,
      Nat.triangle_succ, Nat.add_comm]

theorem mem_positions_pairsFrom_iff (vectors : List SparseMapping) (left right : Nat) :
    (left, right) ∈ (pairsFrom leftovers 0 vectors).map SimilarityPair.positions ↔
      left < right ∧ right < vectors.length := by
  rw [List.mem_map]
  constructor
  · rintro ⟨pair, member, same⟩
    obtain ⟨i, j, first, second, less, -, atJ, rfl⟩ := mem_pairsFrom_iff.mp member
    obtain ⟨rfl, rfl⟩ : 0 + i = left ∧ 0 + j = right := Prod.mk.inj same
    rw [Nat.zero_add, Nat.zero_add]
    exact ⟨less, (List.getElem?_eq_some_iff.mp atJ).1⟩
  · rintro ⟨less, inside⟩
    refine ⟨_, mem_pairsFrom_iff.mpr ⟨left, right, _, _, less,
      List.getElem?_eq_getElem (less.trans inside), List.getElem?_eq_getElem inside, rfl⟩, ?_⟩
    rw [SimilarityPair.positions, Nat.zero_add, Nat.zero_add]

end Collecting

/-! ## Ranking and cutting -/

/-- The score of a pair is the cosine of its vectors. If that is not a number, the bits that are
left over are those of the score. -/
def SimilarityPair.IsScored (leftovers : Leftovers) (vectors : List SparseMapping)
    (pair : SimilarityPair) : Prop :=
  ∃ first second, vectors[pair.left]? = some first ∧ vectors[pair.right]? = some second ∧
    pair.score = .of (first.cosine second) (leftovers pair.left pair.right) ∧
    pair.score.value = first.cosine second

theorem SimilarityPair.IsScored.eq_of_positions {leftovers : Leftovers}
    {vectors : List SparseMapping} {pair other : SimilarityPair}
    (scored : pair.IsScored leftovers vectors) (otherScored : other.IsScored leftovers vectors)
    (same : pair.positions = other.positions) : pair = other := by
  obtain ⟨left, right, score⟩ := pair
  obtain ⟨otherLeft, otherRight, otherScore⟩ := other
  obtain ⟨rfl, rfl⟩ : left = otherLeft ∧ right = otherRight := Prod.mk.inj same
  obtain ⟨first, second, atLeft, atRight, scoreEq, -⟩ := scored
  obtain ⟨otherFirst, otherSecond, otherAtLeft, otherAtRight, otherScoreEq, -⟩ := otherScored
  obtain rfl := Option.some.inj (atLeft.symm.trans otherAtLeft)
  obtain rfl := Option.some.inj (atRight.symm.trans otherAtRight)
  obtain rfl : score = otherScore := scoreEq.trans otherScoreEq.symm
  rfl

/-- What a ranking of the pairs of some vectors has to be. -/
structure IsRanking (leftovers : Leftovers) (vectors : List SparseMapping)
    (ranked : List SimilarityPair) : Prop where
  once : ∀ left right, (ranked.map SimilarityPair.positions).count (left, right) =
    if left < right ∧ right < vectors.length then 1 else 0
  size : ranked.length = vectors.length * (vectors.length - 1) / 2
  scored : ∀ pair ∈ ranked, pair.IsScored leftovers vectors
  ordered : ranked.Pairwise SimilarityPair.RanksAhead

theorem rankPairsWith_sorted (leftovers : Leftovers) (vectors : List SparseMapping) :
    (rankPairsWith leftovers vectors).Pairwise fun first second =>
      first.rankKey ≤ second.rankKey := by
  have sorted : (rankPairsWith leftovers vectors).Pairwise fun first second =>
      first.ranksBefore second = true := by
    refine List.pairwise_mergeSort ?_ ?_ (pairsFrom leftovers 0 vectors)
    · intro first second third
      simp only [SimilarityPair.ranksBefore_iff]
      exact le_trans
    · intro first second
      rw [Bool.or_eq_true, SimilarityPair.ranksBefore_iff, SimilarityPair.ranksBefore_iff]
      exact le_total _ _
  exact sorted.imp (SimilarityPair.ranksBefore_iff _ _).mp

theorem rankPairsWith_isRanking (leftovers : Leftovers) (vectors : List SparseMapping) :
    IsRanking leftovers vectors (rankPairsWith leftovers vectors) := by
  have perm : (rankPairsWith leftovers vectors).Perm (pairsFrom leftovers 0 vectors) :=
    List.mergeSort_perm _ _
  have places := perm.map SimilarityPair.positions
  have distinct := places.nodup_iff.mpr (pairsFrom_positions_nodup 0 vectors)
  refine ⟨fun left right => ?_, ?_, fun pair member => ?_, ?_⟩
  · rw [distinct.count]
    simp only [places.mem_iff, mem_positions_pairsFrom_iff]
  · rw [perm.length_eq, length_pairsFrom]
  · obtain ⟨i, j, first, second, -, atI, atJ, rfl⟩ := mem_pairsFrom_iff.mp (perm.mem_iff.mp member)
    rw [Nat.zero_add, Nat.zero_add]
    exact ⟨first, second, atI, atJ, rfl, Score.value_of _ _⟩
  · -- No two pairs have the same positions, so none of them tie.
    have apart := List.pairwise_map.mp distinct
    refine ((rankPairsWith_sorted leftovers vectors).and apart).imp fun {first second} both => ?_
    rw [SimilarityPair.ranksAhead_iff]
    exact lt_of_le_of_ne both.1 (mt SimilarityPair.positions_eq_of_rankKey_eq both.2)

/-- Pairs in the order of a ranking are determined by which of them there are. -/
theorem eq_of_ranksAhead {first second : List SimilarityPair}
    (firstOrdered : first.Pairwise SimilarityPair.RanksAhead)
    (secondOrdered : second.Pairwise SimilarityPair.RanksAhead)
    (same : ∀ pair, pair ∈ first ↔ pair ∈ second) : first = second := by
  have nodup {pairs : List SimilarityPair} (ordered : pairs.Pairwise SimilarityPair.RanksAhead) :
      pairs.Nodup :=
    ordered.imp fun {one other} ahead equal =>
      ((SimilarityPair.ranksAhead_iff one other).mp ahead).ne (congrArg _ equal)
  have perm := (List.perm_ext_iff_of_nodup (nodup firstOrdered) (nodup secondOrdered)).mpr same
  refine perm.eq_of_pairwise (fun one other _ _ ahead behind => ?_) firstOrdered secondOrdered
  rw [SimilarityPair.ranksAhead_iff] at ahead behind
  exact absurd ahead behind.asymm

section Rankings

variable {leftovers : Leftovers} {vectors : List SparseMapping} {ranked : List SimilarityPair}

theorem IsRanking.mem_iff (isRanking : IsRanking leftovers vectors ranked) (pair : SimilarityPair) :
    pair ∈ ranked ↔ pair.left < pair.right ∧ pair.IsScored leftovers vectors := by
  have listed (left right : Nat) : (left, right) ∈ ranked.map SimilarityPair.positions ↔
      left < right ∧ right < vectors.length := by
    rw [← List.count_pos_iff, isRanking.once]
    split <;> simp_all
  constructor
  · intro member
    exact ⟨((listed _ _).mp (List.mem_map_of_mem member)).1, isRanking.scored pair member⟩
  · rintro ⟨less, scored⟩
    have ⟨_, _, _, atRight, _⟩ := scored
    have inside := (List.getElem?_eq_some_iff.mp atRight).1
    obtain ⟨other, member, same⟩ := List.mem_map.mp ((listed _ _).mpr ⟨less, inside⟩)
    rw [scored.eq_of_positions (isRanking.scored other member) same.symm]
    exact member

/-- There is only one ranking. -/
theorem isRanking_iff :
    IsRanking leftovers vectors ranked ↔ ranked = rankPairsWith leftovers vectors := by
  have isRanking := rankPairsWith_isRanking leftovers vectors
  refine ⟨fun other => ?_, fun same => same ▸ isRanking⟩
  exact eq_of_ranksAhead other.ordered isRanking.ordered fun pair =>
    (other.mem_iff pair).trans (isRanking.mem_iff pair).symm

end Rankings

/-- What is cut off an ordered list comes after what is left. -/
theorem pairwise_take_cut {α : Type} {before : α → α → Prop} {values : List α}
    (ordered : values.Pairwise before) {limit : Nat} {kept omitted : α}
    (inside : kept ∈ values.take limit) (member : omitted ∈ values)
    (outside : omitted ∉ values.take limit) : before kept omitted := by
  rw [← List.take_append_drop limit values] at ordered member
  have behind : omitted ∈ values.drop limit := (List.mem_append.mp member).resolve_left outside
  exact (List.pairwise_append.mp ordered).2.2 kept inside omitted behind

/-- The pairs of a ranking that score at least a minimum. -/
def admitted (ranked : List SimilarityPair) (minimumScore : Float) : List SimilarityPair :=
  ranked.filter fun pair => minimumScore ≤ pair.score.value

/-- What the best pairs of a ranking have to be: the first ones that it admits. -/
structure IsCut (ranked : List SimilarityPair) (minimumScore : Float) (limit? : Option Nat)
    (reported : List SimilarityPair) : Prop where
  reported_eq : reported =
    match limit? with
    | some limit => (admitted ranked minimumScore).take limit
    | none => admitted ranked minimumScore
  omitted_behind : ∀ omitted ∈ ranked, minimumScore ≤ omitted.score.value → omitted ∉ reported →
    ∀ kept ∈ reported, kept.RanksAhead omitted

theorem admitted_ordered (leftovers : Leftovers) (vectors : List SparseMapping)
    (minimumScore : Float) :
    (admitted (rankPairsWith leftovers vectors) minimumScore).Pairwise
      SimilarityPair.RanksAhead :=
  (rankPairsWith_isRanking leftovers vectors).ordered.filter _

/-- A pair that scores enough has a number for a score, and nothing is left over. -/
theorem mem_admitted_iff {leftovers : Leftovers} {vectors : List SparseMapping}
    {minimumScore : Float} {pair : SimilarityPair} :
    pair ∈ admitted (rankPairsWith leftovers vectors) minimumScore ↔
      pair.left < pair.right ∧ ∃ first second, vectors[pair.left]? = some first ∧
        vectors[pair.right]? = some second ∧ minimumScore ≤ first.cosine second ∧
        pair.score = ⟨(first.cosine second).toBits⟩ := by
  rw [admitted, List.mem_filter, (rankPairsWith_isRanking leftovers vectors).mem_iff,
    decide_eq_true_iff]
  constructor
  · rintro ⟨⟨less, first, second, atLeft, atRight, scoreEq, valueEq⟩, enough⟩
    rw [valueEq] at enough
    refine ⟨less, first, second, atLeft, atRight, enough, ?_⟩
    rw [scoreEq, Score.of_of_number (isNaN_of_le enough)]
  · rintro ⟨less, first, second, atLeft, atRight, enough, scoreEq⟩
    have scored := Score.of_of_number (isNaN_of_le enough) (leftovers pair.left pair.right)
    rw [← scored] at scoreEq
    have valueEq : pair.score.value = first.cosine second := by rw [scoreEq, Score.value_of]
    exact ⟨⟨less, first, second, atLeft, atRight, scoreEq, valueEq⟩, valueEq ▸ enough⟩

theorem admitted_eq (leftovers others : Leftovers) (vectors : List SparseMapping)
    (minimumScore : Float) :
    admitted (rankPairsWith leftovers vectors) minimumScore =
      admitted (rankPairsWith others vectors) minimumScore :=
  eq_of_ranksAhead (admitted_ordered leftovers vectors minimumScore)
    (admitted_ordered others vectors minimumScore)
    fun _ => mem_admitted_iff.trans mem_admitted_iff.symm

theorem bestPairs_isCut (leftovers : Leftovers) (vectors : List SparseMapping)
    (minimumScore : Float) (limit? : Option Nat) :
    IsCut (rankPairsWith leftovers vectors) minimumScore limit?
      (bestPairs vectors minimumScore limit?) := by
  have bestEq : bestPairs vectors minimumScore limit? =
      match limit? with
      | some limit => (admitted (rankPairsWith leftovers vectors) minimumScore).take limit
      | none => admitted (rankPairsWith leftovers vectors) minimumScore := by
    rw [admitted_eq leftovers (usualLeftovers vectors)]
    rfl
  have ordered := admitted_ordered leftovers vectors minimumScore
  refine ⟨bestEq, fun omitted member enough outside kept inside => ?_⟩
  have isAdmitted : omitted ∈ admitted (rankPairsWith leftovers vectors) minimumScore :=
    List.mem_filter.mpr ⟨member, decide_eq_true enough⟩
  rw [bestEq] at outside inside
  cases limit? with
  | none => exact absurd isAdmitted outside
  | some limit => exact pairwise_take_cut ordered inside isAdmitted outside

/-! ## What a call prints -/

/-- The lines about pairs, with the names of the documents: each pair has one, in their order. -/
inductive PairLines (name : Nat → String) : List SimilarityPair → String → Prop
  | nothing : PairLines name [] ""
  | line (pair : SimilarityPair) {others : List SimilarityPair} {text : String} :
      PairLines name others text →
        PairLines name (pair :: others)
          (fixedPlaces 4 pair.score.value ++ "  " ++ name pair.left ++ "  " ++ name pair.right ++
            "\n" ++ text)

/-- An output is about some pairs and nothing else: for people the lines, or a note that there are
none, and in JSON a list with a record for each pair. -/
def PrintsPairs (format : OutputFormat) (quiet : Bool) (name : Nat → String)
    (pairs : List SimilarityPair) (output : String) : Prop :=
  match format with
  | .human =>
    if pairs = [] ∧ quiet = false then output = "No similar pairs found\n"
    else PairLines name pairs output
  | .json =>
    output = (JsonValue.list (pairs.map fun pair =>
      .record [("left", .text (name pair.left)), ("right", .text (name pair.right)),
        ("score", .real pair.score.value)])).indented ++ "\n"

theorem pairLines_join (name : Nat → String) (pairs : List SimilarityPair) :
    PairLines name pairs (String.join (pairs.map fun pair =>
      fixedPlaces 4 pair.score.value ++ "  " ++ name pair.left ++ "  " ++ name pair.right ++
        "\n")) := by
  induction pairs with
  | nil => exact .nothing
  | cons pair pairs ih =>
    rw [List.map_cons, String.join_cons]
    exact .line pair ih

theorem printsPairs_pairsReport (format : OutputFormat) (quiet : Bool) (corpus : Corpus)
    (pairs : List SimilarityPair) :
    PrintsPairs format quiet corpus.path pairs
      (String.join ((pairsReport format quiet corpus pairs).map fun line => line ++ "\n")) := by
  cases format with
  | json => simp [PrintsPairs, pairsReport, jsonReport]
  | human =>
    rw [PrintsPairs, pairsReport]
    split
    case isTrue noted =>
      obtain ⟨rfl, rfl⟩ := noted
      rfl
    case isFalse notNoted =>
      have noNote : (pairs.isEmpty && !quiet) = false := by
        rw [Bool.and_eq_false_imp, List.isEmpty_iff]
        intro noPairs
        simpa [noPairs] using notNoted
      rw [noNote, if_neg Bool.false_ne_true, List.nil_append, List.map_map]
      exact pairLines_join corpus.path pairs

/-- A call for similar documents that succeeds has read them, and prints the best pairs of their
vectors. -/
theorem execute_similar {Path : Type} {sources : Sources Path} {invocation : Invocation Path}
    {request : VectorRequest Path} {minimumScore : Float} {limit? : Option Nat}
    (asked : invocation.command? = some (.similar request minimumScore limit?))
    (succeeds : (CommandLine.execute sources invocation).exitCode = .success) :
    ∃ configuration corpus,
      (CommandLine.resolveConfiguration sources invocation).run "" = .ok configuration "" ∧
      (CommandLine.readCorpus sources configuration request).run "" = .ok corpus "" ∧
      corpus.paths = request.paths.map sources.files.shown ∧
      corpus.vectors.length = request.paths.length ∧
      (CommandLine.execute sources invocation).output =
        String.join ((pairsReport invocation.format invocation.quiet corpus
          (bestPairs corpus.vectors minimumScore limit?)).map fun line => line ++ "\n") := by
  have passes := (endsWith_execute sources invocation).eq_none_of_success succeeds
  rw [Invocation.checks, ← List.append_assoc, firstStop?_append, Option.or_eq_none_iff, asked,
    Option.toList_some, List.flatMap_singleton, Command.checks, firstStop?_cons,
    Option.or_eq_none_iff] at passes
  obtain ⟨settingsPass, countPasses, filesPass⟩ := passes
  have settings := reads_resolveConfiguration sources invocation
  rw [settingsPass] at settings
  obtain ⟨configuration, roomEq, settingsRun⟩ := settings
  have files := reads_readCorpus sources roomEq request
  rw [filesPass] at files
  obtain ⟨corpus, ⟨pathsEq, lengthEq⟩, corpusRun⟩ := files
  have enough : ¬ request.paths.length < 2 := by
    intro tooFew
    rw [Check.stop?, if_pos tooFew] at countPasses
    cases countPasses
  refine ⟨configuration, corpus, settingsRun "", corpusRun "", pathsEq, lengthEq, ?_⟩
  rw [CommandLine.execute, CommandLine.perform, CallM.run_bind_of_ok (settingsRun ""), asked]
  dsimp only
  rw [CommandLine.performCommand, if_neg enough, CallM.run_bind_of_ok (corpusRun ""),
    CallM.run_printLines, String.empty_append]

/-- The ranking of the pairs of any vectors has every pair once with its cosine and is strictly
ordered, whatever computations leave over that do not end in a number. The best pairs are the first
ones in it that score enough. A call that asks for similar documents and succeeds prints these pairs
of the vectors of its documents, under the names of the documents, and nothing else. -/
theorem pairs_ranked_and_cut :
    (∀ leftovers vectors, IsRanking leftovers vectors (rankPairsWith leftovers vectors)) ∧
      (∀ leftovers vectors minimumScore limit?,
        IsCut (rankPairsWith leftovers vectors) minimumScore limit?
          (bestPairs vectors minimumScore limit?)) ∧
      ∀ (Path : Type) (sources : Sources Path) (invocation : Invocation Path) request minimumScore
          limit?,
        invocation.command? = some (.similar request minimumScore limit?) →
        (CommandLine.execute sources invocation).exitCode = .success →
        ∃ configuration corpus reported,
          (CommandLine.resolveConfiguration sources invocation).run "" = .ok configuration "" ∧
          (CommandLine.readCorpus sources configuration request).run "" = .ok corpus "" ∧
          corpus.vectors.length = request.paths.length ∧
          (∀ leftovers,
            IsCut (rankPairsWith leftovers corpus.vectors) minimumScore limit? reported) ∧
          PrintsPairs invocation.format invocation.quiet
            (fun position => (request.paths.map sources.files.shown).getD position "") reported
            (CommandLine.execute sources invocation).output := by
  refine ⟨rankPairsWith_isRanking, bestPairs_isCut, ?_⟩
  intro Path sources invocation request minimumScore limit? asked succeeds
  obtain ⟨configuration, corpus, settingsRun, corpusRun, pathsEq, lengthEq, outputEq⟩ :=
    execute_similar asked succeeds
  refine ⟨configuration, corpus, bestPairs corpus.vectors minimumScore limit?, settingsRun,
    corpusRun, lengthEq, fun leftovers => bestPairs_isCut leftovers _ _ _, ?_⟩
  rw [outputEq, ← pathsEq]
  exact printsPairs_pairsReport _ _ _ _

/-- Two files with a text each, and no settings. -/
def twoTexts : Sources String where
  files := .ofTexts fun path =>
    if path = "first" then .ok "ház kert".toUTF8
    else if path = "second" then .ok "kert".toUTF8
    else .error .missing
  settingsPath := .ok "/lexis.toml"
  standardInput := .empty

def twoTextsRequest : VectorRequest String where
  paths := ["first", "second"]
  weighting? := none
  normalize := true
  stemmed := true

def twoTextsInvocation : Invocation String where
  format := .human
  configurationPath? := none
  language? := none
  quiet := false
  command? := some (.similar twoTextsRequest 0.5 (some 1))

theorem pairs_ranked_and_cut_twoTexts :
    (CommandLine.execute twoTexts twoTextsInvocation).exitCode = .success ∧
      ∃ corpus reported,
        (∀ leftovers, IsCut (rankPairsWith leftovers corpus) 0.5 (some 1) reported) ∧
        corpus.length = 2 ∧
        PrintsPairs .human false (["first", "second"].getD · "") reported
          (CommandLine.execute twoTexts twoTextsInvocation).output := by
  have passes : firstStop? twoTexts (twoTextsInvocation.checks twoTexts) = none := by
    decide +kernel
  have succeeds := succeeds_execute passes
  obtain ⟨configuration, corpus, reported, -, -, lengthEq, isCut, prints⟩ :=
    pairs_ranked_and_cut.2.2 String twoTexts twoTextsInvocation twoTextsRequest 0.5 (some 1) rfl
      succeeds
  exact ⟨succeeds, corpus.vectors, reported, isCut, lengthEq, prints⟩

end WordStem
