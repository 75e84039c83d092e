import Mathlib.Data.List.Basic

/-!
# Queues of blocks

Data that cannot be sent at once wait in a queue of blocks. Each transfer takes some elements off
the first block, and a block leaves the queue when all its elements have been taken. `drain`
performs a sequence of transfers.

## Main definitions

* `BlockQueue.advance`, `BlockQueue.drain`.

## Main results

* `BlockQueue.drain_conserves` : what has been taken and what is left are what was there.
-/

namespace BlockQueue

variable {α : Type*}

/-- The queue after a transfer that takes up to `n` elements of the block `b` before `q`. -/
def advance (b : List α) (q : List (List α)) (n : ℕ) : List (List α) :=
  if b.length ≤ n then q else b.drop n :: q

theorem advance_of_le {b : List α} {n : ℕ} (h : b.length ≤ n) (q : List (List α)) :
    advance b q n = q :=
  if_pos h

theorem advance_of_lt {b : List α} {n : ℕ} (h : n < b.length) (q : List (List α)) :
    advance b q n = b.drop n :: q :=
  if_neg (Nat.not_le.mpr h)

/-- A transfer takes the front of the queue. -/
theorem take_append_flatten_advance (b : List α) (q : List (List α)) (n : ℕ) :
    b.take n ++ (advance b q n).flatten = (b :: q).flatten := by
  rcases Nat.lt_or_ge n b.length with h | h
  · rw [advance_of_lt h, List.flatten_cons, ← List.append_assoc, List.take_append_drop,
      List.flatten_cons]
  · rw [advance_of_le h, List.take_of_length_le h, List.flatten_cons]

/-- Transfers of up to the given numbers of elements, until the queue is empty: what is taken, and
the queue that is left. -/
def drain : List (List α) → List ℕ → List α × List (List α)
  | q, [] => ([], q)
  | [], _ :: _ => ([], [])
  | b :: q, n :: ns => (b.take n ++ (drain (advance b q n) ns).1, (drain (advance b q n) ns).2)

@[simp] theorem drain_nil (q : List (List α)) : drain q [] = ([], q) := by
  cases q <;> rfl

@[simp] theorem drain_empty (ns : List ℕ) : drain ([] : List (List α)) ns = ([], []) := by
  cases ns <;> rfl

/-- **Conservation.** What has been taken, followed by what is left, is what was there. -/
theorem drain_conserves (q : List (List α)) (ns : List ℕ) :
    (drain q ns).1 ++ (drain q ns).2.flatten = q.flatten := by
  induction ns generalizing q with
  | nil => rw [drain_nil, List.nil_append]
  | cons n ns ih =>
    cases q with
    | nil => rw [drain_empty, List.nil_append]
    | cons b q =>
      simp only [drain, List.append_assoc]
      rw [ih, take_append_flatten_advance]

end BlockQueue
