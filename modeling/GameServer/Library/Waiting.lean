import Mathlib.Data.Stream.Init
import Mathlib.Order.ConditionallyCompleteLattice.Basic
import Mathlib.Order.Lattice.Nat

/-!
# Waiting for inputs

A consumer reads an infinite sequence of inputs until it has what it waits for. Busy inputs bring it
forward, and it never reads more than a fixed number of them; the others leave it where it is. It
therefore waits forever only by reading nothing but idle inputs from some point on.

## Main definitions

* `Consumer`, `Consumer.Finishes`, `Consumer.Stalls`.

## Main results

* `Consumer.finishes_iff` : a consumer finishes unless it stalls.
-/

/-- A consumer: after which inputs it waits for more, and which inputs bring it forward. -/
structure Consumer (ι : Type*) where
  /-- The inputs after which it waits. -/
  Waits : List ι → Prop
  /-- The inputs that bring it forward. -/
  busy : ι → Bool
  /-- How many of these it can read. -/
  bound : ℕ
  waits_of_append : ∀ {is i}, Waits (is ++ [i]) → Waits is
  waits_append : ∀ {is i}, Waits is → busy i = false → Waits (is ++ [i])
  countP_le : ∀ {is}, Waits is → is.countP busy ≤ bound

namespace Consumer

variable {ι : Type*} (C : Consumer ι)

/-- It is done after finitely many inputs. -/
def Finishes (s : Stream' ι) : Prop := ∃ n, ¬C.Waits (s.take n)

/-- It waits, and reads only idle inputs from some point on. -/
def Stalls (s : Stream' ι) : Prop :=
  ∃ n, C.Waits (s.take n) ∧ ∀ m, n ≤ m → C.busy (s.get m) = false

variable {C} {s : Stream' ι}

/-- A consumer that waits has been waiting before. -/
theorem waits_take_of_le {m n : ℕ} (h : C.Waits (s.take n)) (hmn : m ≤ n) :
    C.Waits (s.take m) := by
  induction n, hmn using Nat.le_induction with
  | base => exact h
  | succ n _ ih =>
    rw [Stream'.take_succ'] at h
    exact ih (C.waits_of_append h)

/-- A consumer that reads only idle inputs goes on waiting. -/
theorem waits_take_of_idle {m n : ℕ} (h : C.Waits (s.take n))
    (hidle : ∀ k, n ≤ k → C.busy (s.get k) = false) (hnm : n ≤ m) : C.Waits (s.take m) := by
  induction m, hnm using Nat.le_induction with
  | base => exact h
  | succ m hnm ih =>
    rw [Stream'.take_succ']
    exact C.waits_append ih (hidle m hnm)

theorem Stalls.waits (h : C.Stalls s) (m : ℕ) : C.Waits (s.take m) := by
  obtain ⟨n, hn, hidle⟩ := h
  rcases le_total m n with hmn | hnm
  · exact waits_take_of_le hn hmn
  · exact waits_take_of_idle hn hidle hnm

/-- **A consumer finishes unless it stalls.** The number of busy inputs read is bounded, so it is
reached at some point, and what follows is idle. -/
theorem finishes_iff : C.Finishes s ↔ ¬C.Stalls s := by
  constructor
  · rintro ⟨n, hn⟩ hstalls
    exact hn (hstalls.waits n)
  · intro hstalls
    by_contra hwaits
    simp only [Finishes, not_exists, not_not] at hwaits
    have hbdd : BddAbove (Set.range fun n => (s.take n).countP C.busy) := by
      refine ⟨C.bound, ?_⟩
      rintro _ ⟨n, rfl⟩
      exact C.countP_le (hwaits n)
    obtain ⟨n, hn⟩ := Nat.sSup_mem (Set.range_nonempty fun n => (s.take n).countP C.busy) hbdd
    have hmax : ∀ m, (s.take m).countP C.busy ≤ (s.take n).countP C.busy := fun m => by
      rw [show (s.take n).countP C.busy = _ from hn]
      exact le_csSup hbdd ⟨m, rfl⟩
    refine hstalls ⟨n, hwaits n, fun m hnm => ?_⟩
    have htake : s.take n = (s.take m).take n := by
      rw [Stream'.take_take, Nat.min_eq_right hnm]
    have hle : (s.take n).countP C.busy ≤ (s.take m).countP C.busy := by
      rw [htake]
      exact (List.take_sublist n _).countP_le
    have hnext := hmax (m + 1)
    rw [Stream'.take_succ', List.countP_append, List.countP_singleton] at hnext
    by_contra hbusy
    rw [if_pos (Bool.not_eq_false _ ▸ hbusy)] at hnext
    omega

end Consumer
