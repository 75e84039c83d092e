import Mathlib.Data.List.Basic
import Mathlib.Logic.Function.Basic

/-!
# Chains of links

Cells in a memory are linked by a pointer in each of them. `Chain next a l` says that from the
pointer `a` the links lead through the cells `l`, in this order, to a null pointer. The cells of a
chain are determined by where it starts, so that none of them occurs twice: a chain has no cycle.

## Main definitions

* `Chain` : the cells reached from a pointer.

## Main results

* `Chain.unique`, `Chain.nodup` : the cells are determined by the pointer, and distinct.
* `Chain.next_getLast` : the last cell links to nothing.
* `Chain.append_link` : a cell is linked behind the last one.
-/

variable {κ : Type*}

/-- From `a` the links `next` lead through the cells `l` to the null pointer. -/
def Chain (next : κ → Option κ) : Option κ → List κ → Prop
  | a, [] => a = none
  | a, k :: l => a = some k ∧ Chain next (next k) l

namespace Chain

variable {next next' : κ → Option κ} {a : Option κ} {k : κ} {l l' : List κ}

@[simp] theorem nil_iff : Chain next a [] ↔ a = none := Iff.rfl

@[simp] theorem cons_iff : Chain next a (k :: l) ↔ a = some k ∧ Chain next (next k) l := Iff.rfl

/-- A chain is empty just when it starts with the null pointer. -/
theorem eq_nil_iff (h : Chain next a l) : l = [] ↔ a = none := by
  cases l with
  | nil => exact iff_of_true rfl h
  | cons k l =>
    obtain ⟨rfl, -⟩ := h
    exact iff_of_false (List.cons_ne_nil k l) (Option.some_ne_none k)

/-- The cells of a chain are determined by the pointer it starts with. -/
theorem unique (h : Chain next a l) (h' : Chain next a l') : l = l' := by
  induction l generalizing a l' with
  | nil => exact (h'.eq_nil_iff.mpr h).symm
  | cons k l ih =>
    obtain ⟨rfl, h⟩ := h
    cases l' with
    | nil => cases h'
    | cons k' l' =>
      obtain ⟨hk, h'⟩ := h'
      obtain rfl := Option.some.inj hk
      rw [ih h h']

/-- A chain goes on, behind any of its cells, with the chain of the cell's link. -/
theorem of_append (h : Chain next a (l ++ k :: l')) : Chain next (next k) l' := by
  induction l generalizing a with
  | nil => exact h.2
  | cons _ l ih => exact ih h.2

/-- The cells of a chain are distinct: the links run in no circle. -/
theorem nodup (h : Chain next a l) : l.Nodup := by
  induction l generalizing a with
  | nil => exact List.nodup_nil
  | cons k l ih =>
    refine List.nodup_cons.mpr ⟨fun hmem => ?_, ih h.2⟩
    -- Met again further on, the cell would begin the same chain with fewer cells.
    obtain ⟨l₁, l₂, rfl⟩ := List.append_of_mem hmem
    have hlen := congrArg List.length (h.2.unique h.2.of_append)
    simp only [List.length_append, List.length_cons] at hlen
    omega

/-- A chain depends on the links of its own cells only. -/
theorem congr (h : Chain next a l) (hnext : ∀ k ∈ l, next' k = next k) : Chain next' a l := by
  induction l generalizing a with
  | nil => exact h
  | cons k l ih =>
    refine ⟨h.1, ?_⟩
    rw [hnext k List.mem_cons_self]
    exact ih h.2 fun k' hk' => hnext k' (List.mem_cons_of_mem k hk')

/-- The last cell of a chain links to nothing. -/
theorem next_getLast (h : Chain next a l) (hk : l.getLast? = some k) : next k = none := by
  obtain ⟨l', rfl⟩ := List.getLast?_eq_some_iff.mp hk
  exact h.of_append

/-- The chain of a single cell. -/
theorem singleton (hk : next k = none) : Chain next (some k) [k] := ⟨rfl, hk⟩

variable [DecidableEq κ]

/-- A chain does not notice the link of a cell that is not one of its own. -/
theorem update (h : Chain next a l) (hk : k ∉ l) (b : Option κ) :
    Chain (Function.update next k b) a l := by
  refine h.congr fun k' hk' => ?_
  have hne : k' ≠ k := by
    rintro rfl
    exact hk hk'
  exact Function.update_of_ne hne b next

/-- **Linking at the end.** A cell that links to nothing, linked behind the last cell of a chain,
ends it. -/
theorem append_link (h : Chain next a l) {t : κ} (ht : l.getLast? = some t) (hk : k ∉ l)
    (hnull : next k = none) : Chain (Function.update next t (some k)) a (l ++ [k]) := by
  have hkt : k ≠ t := by
    rintro rfl
    exact hk (List.mem_of_getLast? ht)
  induction l generalizing a with
  | nil => cases ht
  | cons k' l ih =>
    refine ⟨h.1, ?_⟩
    cases l with
    | nil =>
      obtain rfl : k' = t := by simpa using ht
      rw [Function.update_self]
      exact .singleton (by rw [Function.update_of_ne hkt, hnull])
    | cons k'' l =>
      have hne : k' ≠ t := by
        rintro rfl
        exact (List.nodup_cons.mp h.nodup).1 (List.mem_of_getLast? ht)
      rw [Function.update_of_ne hne]
      exact ih h.2 ht fun hmem => hk (List.mem_cons_of_mem k' hmem)

end Chain
