import Mathlib.Data.List.Basic

/-!
# Cursors over batches of events

An event loop keeps an array that each wait fills from the front, the number of events of the
latest batch and the index of the next event to take. What is still to be taken is the list
`pending`. As long as the index does not pass the number, taking and filling act on that list as
on a queue: `pending_fill` and `pending_take`. Setting the number to zero without the index breaks
this as soon as an event has been taken (`valid_drop_iff`).

## Main definitions

* `EventCursor`, `EventCursor.Valid`, `EventCursor.pending`.
* `EventCursor.fill`, `EventCursor.take?`, `EventCursor.drop` : a successful wait, the taking of an
  event, a failed wait.
-/

/-- An array of events, the number of events of the latest batch, and the index of the next. -/
structure EventCursor (ε : Type*) (size : ℕ) where
  eventPool : Vector ε size
  eventIndex : ℕ
  eventN : ℕ

namespace EventCursor

variable {ε : Type*} {size : ℕ}

/-- The index and the number are within the array, in this order. -/
def Valid (c : EventCursor ε size) : Prop := c.eventIndex ≤ c.eventN ∧ c.eventN ≤ size

/-- The events of the latest batch. -/
def latest (c : EventCursor ε size) : List ε := c.eventPool.toList.take c.eventN

/-- The events of the latest batch that are still to be taken. -/
def pending (c : EventCursor ε size) : List ε := c.latest.drop c.eventIndex

/-- The writes of a batch to the front of the array, from index `k` on. -/
def write (v : Vector ε size) (k : ℕ) : List ε → Option (Vector ε size)
  | [] => some v
  | e :: es => if h : k < size then write (v.set k e) (k + 1) es else none

/-- A successful wait: the batch is written, the number set and the index reset. -/
def fill (c : EventCursor ε size) (batch : List ε) : Option (EventCursor ε size) :=
  (write c.eventPool 0 batch).map fun v => ⟨v, 0, batch.length⟩

/-- A failed wait: only the number is reset. -/
def drop (c : EventCursor ε size) : EventCursor ε size := { c with eventN := 0 }

/-- The event at the index, if the index is within the array, and the cursor past it. -/
def take? (c : EventCursor ε size) : Option (ε × EventCursor ε size) :=
  if h : c.eventIndex < size then
    some (c.eventPool[c.eventIndex], { c with eventIndex := c.eventIndex + 1 })
  else none

theorem write_spec (v : Vector ε size) (k : ℕ) (batch : List ε) (h : k + batch.length ≤ size) :
    ∃ v', write v k batch = some v' ∧
      v'.toList = v.toList.take k ++ batch ++ v.toList.drop (k + batch.length) := by
  induction batch generalizing v k with
  | nil => exact ⟨v, rfl, by simp⟩
  | cons e es ih =>
    rw [List.length_cons] at h
    have hk : k < size := by omega
    have hlen : k < v.toList.length := by simpa using hk
    obtain ⟨v', hv', hlist⟩ := ih (v.set k e) (k + 1) (by omega)
    refine ⟨v', ?_, ?_⟩
    · simp only [write, hk, dite_true, hv']
    · rw [hlist, Vector.toList_set, List.take_succ_eq_append_getElem (by simpa using hk),
        List.getElem_set_self, List.take_set_of_le (Nat.le_refl k), List.drop_set_of_lt (by omega)]
      simp only [List.append_assoc, List.singleton_append, List.length_cons]
      congr 3
      omega

/-- A batch that fits is written, and is then what there is to take. -/
theorem pending_fill (c : EventCursor ε size) {batch : List ε} (h : batch.length ≤ size) :
    ∃ c', c.fill batch = some c' ∧ c'.Valid ∧ c'.latest = batch ∧ c'.pending = batch ∧
      c'.eventIndex = 0 ∧ c'.eventN = batch.length := by
  obtain ⟨v, hv, hlist⟩ := write_spec c.eventPool 0 batch (by omega)
  have hlatest : (⟨v, 0, batch.length⟩ : EventCursor ε size).latest = batch := by
    simp only [latest, hlist, List.take_zero, List.nil_append, List.take_left]
  refine ⟨⟨v, 0, batch.length⟩, ?_, ⟨Nat.zero_le _, h⟩, hlatest, ?_, rfl, rfl⟩
  · simp only [fill, hv, Option.map_some]
  · rw [pending, hlatest, List.drop_zero]

/-- Within the batch, taking removes the first pending event. -/
theorem pending_take (c : EventCursor ε size) (h : c.Valid) (hlt : c.eventIndex < c.eventN) :
    ∃ e c', c.take? = some (e, c') ∧ c'.Valid ∧ c'.latest = c.latest ∧
      c.pending = e :: c'.pending ∧ c'.eventN = c.eventN := by
  have hsize : c.eventIndex < size := Nat.lt_of_lt_of_le hlt h.2
  refine ⟨c.eventPool[c.eventIndex], { c with eventIndex := c.eventIndex + 1 }, ?_, ⟨hlt, h.2⟩,
    rfl, ?_, rfl⟩
  · simp only [take?, hsize, dite_true]
  · have hlen : c.eventIndex < c.latest.length := by
      rw [latest, List.length_take, Vector.length_toList]
      exact Nat.lt_min.mpr ⟨hlt, hsize⟩
    rw [pending, List.drop_eq_getElem_cons hlen]
    simp only [latest, List.getElem_take, Vector.getElem_toList]
    rfl

/-- A cursor at the end of its batch has nothing to take. -/
theorem pending_eq_nil (c : EventCursor ε size) (h : c.eventIndex = c.eventN) :
    c.pending = [] := by
  rw [pending, List.drop_eq_nil_iff, latest, List.length_take, h]
  exact Nat.min_le_left _ _

/-- A failed wait keeps the cursor valid just when nothing has been taken from the array yet. -/
theorem valid_drop_iff (c : EventCursor ε size) : c.drop.Valid ↔ c.eventIndex = 0 := by
  constructor
  · exact fun h => Nat.le_zero.mp h.1
  · exact fun h => ⟨Nat.le_of_eq h, Nat.zero_le _⟩

end EventCursor
