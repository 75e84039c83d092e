import Mathlib.Data.List.Basic
import Mathlib.Data.List.Forall2

/-!
# Prefixes of lists

A list whose elements with a property come first has them as a prefix, whose length is their
number. A table that keeps its live entries as such a prefix and their number as a counter can be
read by taking that many entries; `forall_take_countP_iff` says that the order is also necessary.

## Main results

* `List.take_countP_eq_filter`, `List.forall_take_countP_iff`.
* `List.take_set_succ` : a write at the end of a prefix extends it.
* `List.Forall₂.exists_prefix` : what is related to the front of a list is a prefix.
-/

namespace List

variable {α : Type*} {p : α → Bool}

/-- The elements with a property that come first are a prefix. -/
theorem take_countP_eq_filter {l : List α} (h : l.Pairwise fun a b => p b → p a) :
    l.take (l.countP p) = l.filter p := by
  induction l with
  | nil => rfl
  | cons a l ih =>
    obtain ⟨hhead, htail⟩ := List.pairwise_cons.mp h
    by_cases ha : p a
    · rw [List.countP_cons_of_pos ha, List.take_succ_cons, List.filter_cons_of_pos ha, ih htail]
    · have hnone : ∀ b ∈ l, ¬p b := fun b hb hpb => ha (hhead b hb hpb)
      rw [List.countP_cons_of_neg ha, List.filter_cons_of_neg ha, List.countP_eq_zero.mpr hnone,
        List.take_zero, List.filter_eq_nil_iff.mpr hnone]

/-- As many elements as have a property, taken from the front, all have it just when those that
have it come first. -/
theorem forall_take_countP_iff {l : List α} :
    (∀ a ∈ l.take (l.countP p), p a) ↔ l.Pairwise fun a b => p b → p a := by
  constructor
  · intro h
    induction l with
    | nil => exact List.Pairwise.nil
    | cons a l ih =>
      by_cases ha : p a
      · rw [List.countP_cons_of_pos ha, List.take_succ_cons] at h
        refine List.pairwise_cons.mpr ⟨fun _ _ _ => ha, ih fun b hb => ?_⟩
        exact h b (List.mem_cons_of_mem a hb)
      · rw [List.countP_cons_of_neg ha] at h
        -- No element has the property: the first one taken would be `a`.
        have hzero : l.countP p = 0 := by
          rcases Nat.eq_zero_or_pos (l.countP p) with h0 | hpos
          · exact h0
          · obtain ⟨n, hn⟩ := Nat.exists_eq_succ_of_ne_zero (Nat.ne_of_gt hpos)
            rw [hn, List.take_succ_cons] at h
            exact absurd (h a List.mem_cons_self) ha
        have hnone := List.countP_eq_zero.mp hzero
        refine List.pairwise_cons.mpr ⟨fun b hb hpb => absurd hpb (hnone b hb), ?_⟩
        exact List.pairwise_of_forall_mem_list fun b hb c hc hpc => absurd hpc (hnone c hc)
  · intro h a ha
    rw [take_countP_eq_filter h] at ha
    exact (List.mem_filter.mp ha).2

/-- The write at the end of a prefix extends the prefix. -/
theorem take_set_succ (l : List α) {n : ℕ} (h : n < l.length) (a : α) :
    (l.set n a).take (n + 1) = l.take n ++ [a] := by
  rw [List.take_succ_eq_append_getElem (by simpa using h), List.getElem_set_self,
    List.take_set_of_le (Nat.le_refl n)]

/-- What is related, entry by entry, to the front of a list is a prefix, and all if nothing comes
behind that front. -/
theorem Forall₂.exists_prefix {β : Type*} {R : α → β → Prop} {l : List α} {l₁ l₂ : List β}
    (h : Forall₂ R l (l₁ ++ l₂)) :
    ∃ done rest, l = done ++ rest ∧ Forall₂ R done l₁ ∧ (l₂ = [] → rest = []) := by
  refine ⟨l.take l₁.length, l.drop l₁.length, (List.take_append_drop _ _).symm,
    List.forall₂_take_append _ _ _ h, ?_⟩
  rintro rfl
  rw [List.append_nil] at h
  rw [← h.length_eq, List.drop_length]

end List
