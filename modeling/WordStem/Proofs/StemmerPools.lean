import Mathlib.Algebra.Order.BigOperators.Group.Finset
import Mathlib.Algebra.Order.Group.Multiset
import WordStem.Proofs.StemmerAnswers

/-! # Stemmers that share their counters

Several stemmers, each with its own buffer and its own words, are at work at the same time and
count what they do in the same counters. A call counts after it has its answer, one counter at a
time, and between two increments any other stemmer may have its turn. A schedule says whose turn
it is; whatever it says, every word gets the answer that a new stemmer gives to it alone, and once
no call is left half counted the counters are exact: they are those of recording the answers one
after the other, in any order. -/
namespace WordStem

open Finset

/-- One of the counters that stemmers share. -/
inductive Counter where
  | seen
  | changed
  | aborted
deriving DecidableEq, Repr

/-- The increments by which a call is counted, in the order in which they are made. -/
def StemEnd.increments : StemEnd → List Counter
  | changed => [.seen, .changed]
  | unchanged => [.seen]
  | aborted => [.seen, .aborted]

namespace StemCounts

def number (counts : StemCounts) : Counter → Nat
  | .seen => counts.seen
  | .changed => counts.changed
  | .aborted => counts.aborted

def increment (counts : StemCounts) : Counter → StemCounts
  | .seen => { counts with seen := counts.seen + 1 }
  | .changed => { counts with changed := counts.changed + 1 }
  | .aborted => { counts with aborted := counts.aborted + 1 }

theorem number_increment (counts : StemCounts) (made counter : Counter) :
    (counts.increment made).number counter =
      counts.number counter + if made = counter then 1 else 0 := by
  cases made <;> cases counter <;> rfl

theorem number_foldl_increment (counts : StemCounts) (made : List Counter) (counter : Counter) :
    (made.foldl increment counts).number counter = counts.number counter + made.count counter := by
  induction made generalizing counts with
  | nil => rfl
  | cons one made ih =>
    rw [List.foldl_cons, ih, number_increment, List.count_cons, Nat.add_assoc,
      Nat.add_comm (made.count counter)]
    simp only [beq_iff_eq]

end StemCounts

/-! ## One stemmer among others -/

/-- A stemmer with the words that wait for it, the calls that it has answered and the increments
that its last call still has to make. -/
structure StemmerWorker where
  stemmer : WorkingStemmer
  waiting : List String
  calls : List (String × StemAnswer)
  owed : List Counter

namespace StemmerWorker

def start (stemmer : WorkingStemmer) (words : List String) : StemmerWorker where
  stemmer := stemmer
  waiting := words
  calls := []
  owed := []

/-- One turn: the next increment if one is owed, and otherwise the next word. -/
def turn (worker : StemmerWorker) : StemmerWorker × Option Counter :=
  match worker.owed, worker.waiting with
  | counter :: others, _ => ({ worker with owed := others }, some counter)
  | [], [] => (worker, none)
  | [], word :: others =>
    let (answer, next) := worker.stemmer.stem word
    ({ stemmer := next
       waiting := others
       calls := worker.calls ++ [(word, answer)]
       owed := answer.ending.increments }, none)

/-- How often the calls answered so far ask for a counter to be incremented. -/
def due (worker : StemmerWorker) (counter : Counter) : Nat :=
  (worker.calls.flatMap fun call => call.2.ending.increments).count counter

/-- What holds of a worker after any number of turns. -/
structure Consistent (fresh : WorkingStemmer) (words : List String) (worker : StemmerWorker) :
    Prop where
  answer_eq : worker.stemmer.answer = fresh.answer
  words_eq : worker.calls.map Prod.fst ++ worker.waiting = words
  calls_eq : ∀ call ∈ worker.calls, call.2 = fresh.answer call.1
  owed_suffix : ∃ result : StemEnd, worker.owed <:+ result.increments
  ends_le : worker.due .changed + worker.due .aborted + worker.owed.count .seen ≤
    worker.due .seen + worker.owed.count .changed + worker.owed.count .aborted

variable {fresh : WorkingStemmer} {words : List String} {worker : StemmerWorker}

/-- A call has one end only. -/
theorem due_ends_le (worker : StemmerWorker) :
    worker.due .changed + worker.due .aborted ≤ worker.due .seen := by
  simp only [due]
  induction worker.calls with
  | nil => simp
  | cons call calls ih =>
    simp only [List.flatMap_cons, List.count_append]
    have ends : call.2.ending.increments.count .changed +
        call.2.ending.increments.count .aborted ≤ call.2.ending.increments.count .seen := by
      cases call.2.ending <;> decide
    omega

theorem Consistent.pay {counter : Counter} {others : List Counter}
    (consistent : worker.Consistent fresh words) (owes : worker.owed = counter :: others) :
    ({ worker with owed := others } : StemmerWorker).Consistent fresh words where
  answer_eq := consistent.answer_eq
  words_eq := consistent.words_eq
  calls_eq := consistent.calls_eq
  owed_suffix := by
    obtain ⟨result, suffix⟩ := consistent.owed_suffix
    rw [owes] at suffix
    exact ⟨result, (List.suffix_cons counter others).trans suffix⟩
  ends_le := by
    obtain ⟨result, suffix⟩ := consistent.owed_suffix
    have before := consistent.ends_le
    have ends := worker.due_ends_le
    rw [owes] at suffix before
    change worker.due .changed + worker.due .aborted + others.count .seen ≤
      worker.due .seen + others.count .changed + others.count .aborted
    -- Only the first increment of a call is one of `seen`, so paying another leaves nothing owed.
    cases counter with
    | seen => simp only [List.count_cons] at before; simp at before; omega
    | changed =>
      have last : others = [] := by
        cases result <;> simp [StemEnd.increments, List.suffix_cons_iff] at suffix
        exact suffix
      simpa [last] using ends
    | aborted =>
      have last : others = [] := by
        cases result <;> simp [StemEnd.increments, List.suffix_cons_iff] at suffix
        exact suffix
      simpa [last] using ends

theorem Consistent.call {word : String} {others : List String}
    (consistent : worker.Consistent fresh words) (waits : worker.waiting = word :: others) :
    StemmerWorker.Consistent fresh words
      { stemmer := (worker.stemmer.stem word).2
        waiting := others
        calls := worker.calls ++ [(word, worker.stemmer.answer word)]
        owed := (worker.stemmer.answer word).ending.increments } where
  answer_eq := by rw [WorkingStemmer.answer_stem, consistent.answer_eq]
  words_eq := by
    rw [← consistent.words_eq, waits]
    simp
  calls_eq := by
    intro call member
    rcases List.mem_append.mp member with earlier | last
    · exact consistent.calls_eq call earlier
    · obtain rfl := List.mem_singleton.mp last
      exact congrFun consistent.answer_eq word
  owed_suffix := ⟨_, List.suffix_rfl⟩
  ends_le := by
    have ends := worker.due_ends_le
    simp only [due, List.flatMap_append, List.count_append, List.flatMap_singleton] at ends ⊢
    omega

theorem Consistent.turn (consistent : worker.Consistent fresh words) :
    worker.turn.1.Consistent fresh words := by
  rw [StemmerWorker.turn]
  split
  case h_1 _ _ counter others owes => exact consistent.pay owes
  case h_2 => exact consistent
  case h_3 word others _ waits => exact consistent.call waits

/-- A turn moves increments from what is owed to the counters and loses none. -/
theorem turn_balance (worker : StemmerWorker) (counter : Counter) :
    worker.turn.1.due counter + worker.owed.count counter =
      worker.due counter + worker.turn.1.owed.count counter +
        (worker.turn.2.toList).count counter := by
  rw [turn]
  split
  case h_1 _ _ made others owes =>
    simp only [owes, List.count_cons, due, Option.toList, List.count_nil]
    omega
  case h_2 paid waits => simp
  case h_3 word others paid waits =>
    simp only [paid, due, List.flatMap_append, List.count_append, List.flatMap_singleton,
      Option.toList, List.count_nil]

/-- A bound on the turns that a worker still needs. -/
def remaining (worker : StemmerWorker) : Nat :=
  3 * worker.waiting.length + worker.owed.length

end StemmerWorker

/-! ## The whole pool -/

/-- Named stemmers at work and the counters that they share. -/
structure StemmerPool (Name : Type) where
  workers : Name → StemmerWorker
  counts : StemCounts

namespace StemmerPool

variable {Name : Type}

def start (fresh : Name → WorkingStemmer) (words : Name → List String) : StemmerPool Name where
  workers := fun name => .start (fresh name) (words name)
  counts := .zero

section

variable [DecidableEq Name]

def turn (pool : StemmerPool Name) (name : Name) : StemmerPool Name where
  workers := Function.update pool.workers name (pool.workers name).turn.1
  counts := (pool.workers name).turn.2.toList.foldl StemCounts.increment pool.counts

def run (pool : StemmerPool Name) (schedule : List Name) : StemmerPool Name :=
  schedule.foldl turn pool

theorem number_turn (pool : StemmerPool Name) (name : Name) (counter : Counter) :
    (pool.turn name).counts.number counter = pool.counts.number counter +
      (pool.workers name).turn.2.toList.count counter := by
  rw [turn, StemCounts.number_foldl_increment]

end

variable [Fintype Name]

structure Consistent (fresh : Name → WorkingStemmer) (words : Name → List String)
    (pool : StemmerPool Name) : Prop where
  worker : ∀ name, (pool.workers name).Consistent (fresh name) (words name)
  balance : ∀ counter, pool.counts.number counter +
      ∑ name, (pool.workers name).owed.count counter = ∑ name, (pool.workers name).due counter

variable {fresh : Name → WorkingStemmer} {words : Name → List String} {pool : StemmerPool Name}

theorem Consistent.ends_le (consistent : pool.Consistent fresh words) :
    pool.counts.changed + pool.counts.aborted ≤ pool.counts.seen := by
  have seen := consistent.balance .seen
  have changed := consistent.balance .changed
  have aborted := consistent.balance .aborted
  have each := Finset.sum_le_sum fun name (_ : name ∈ univ) => (consistent.worker name).ends_le
  simp only [Finset.sum_add_distrib, StemCounts.number] at seen changed aborted each
  omega

section

variable [DecidableEq Name]

theorem sum_update (workers : Name → StemmerWorker) (name : Name) (next : StemmerWorker)
    (size : StemmerWorker → Nat) :
    ∑ other, size (Function.update workers name next other) + size (workers name) =
      ∑ other, size (workers other) + size next := by
  have untouched : ∀ other ∈ univ.erase name,
      size (Function.update workers name next other) = size (workers other) := by
    intro other member
    rw [Function.update_of_ne (Finset.ne_of_mem_erase member)]
  rw [← Finset.add_sum_erase _ _ (mem_univ name),
    ← Finset.add_sum_erase univ (fun other => size (workers other)) (mem_univ name),
    Finset.sum_congr rfl untouched, Function.update_self]
  omega

theorem Consistent.turn (consistent : pool.Consistent fresh words) (name : Name) :
    (pool.turn name).Consistent fresh words where
  worker := by
    intro other
    by_cases same : other = name
    · subst same
      simp only [StemmerPool.turn, Function.update_self]
      exact (consistent.worker other).turn
    · simp only [StemmerPool.turn, Function.update_of_ne same]
      exact consistent.worker other
  balance := by
    intro counter
    have before := consistent.balance counter
    have made := pool.number_turn name counter
    have moved := (pool.workers name).turn_balance counter
    have owed := sum_update pool.workers name (pool.workers name).turn.1
      fun worker => worker.owed.count counter
    have due := sum_update pool.workers name (pool.workers name).turn.1
      fun worker => worker.due counter
    simp only [StemmerPool.turn] at made ⊢
    omega

theorem Consistent.run (consistent : pool.Consistent fresh words) (schedule : List Name) :
    (pool.run schedule).Consistent fresh words := by
  induction schedule generalizing pool with
  | nil => exact consistent
  | cons name schedule ih => exact ih (consistent.turn name)

end

end StemmerPool

end WordStem
