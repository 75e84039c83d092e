import Mathlib.Data.List.Basic

/-!
# Several queues kept in one list

Queues that are filled by one producer can be kept in one list, in the order of the pushes: the
queue of a key is the part of the list with that key, a push appends, and a pop takes the first
entry of its key out of the list. The list also says which of two entries of different queues was
pushed first, so it can be read along another key.

## Main definitions

* `part` : the entries of one key.
* `pop` : the first entry of a key, and the list without it.

## Main results

* `part_of_pop` : a pop takes the head of its own queue.
* `part_of_pop_of_ne`, `part_of_pop_of_head` : what it takes from a part along another key.
* `pop_filterMap` : what it is when only some of the entries are read.
-/

namespace MergedQueues

variable {α κ ι : Type*} [DecidableEq κ] [DecidableEq ι]

/-- The entries of the key `k`. -/
def part (key : α → κ) (k : κ) (l : List α) : List α := l.filter fun a => key a = k

/-- The first entry of the key `k`, and the list without it. -/
def pop (key : α → κ) (k : κ) : List α → Option (α × List α)
  | [] => none
  | a :: l => if key a = k then some (a, l) else (pop key k l).map fun p => (p.1, a :: p.2)

variable {key : α → κ} {key' : α → ι} {k : κ} {a b : α} {l l' : List α}

theorem part_cons_self (h : key a = k) : part key k (a :: l) = a :: part key k l :=
  List.filter_cons_of_pos (decide_eq_true h)

theorem part_cons_of_ne (h : key a ≠ k) : part key k (a :: l) = part key k l :=
  List.filter_cons_of_neg (by simpa using h)

/-- The shape of a pop: the entry is taken out behind entries of other keys. -/
theorem pop_eq_some (h : pop key k l = some (a, l')) :
    key a = k ∧ ∃ l₁ l₂, l = l₁ ++ a :: l₂ ∧ l' = l₁ ++ l₂ ∧ ∀ b ∈ l₁, key b ≠ k := by
  induction l generalizing l' with
  | nil => cases h
  | cons b l ih =>
    by_cases hb : key b = k
    · rw [pop, if_pos hb] at h
      obtain ⟨rfl, rfl⟩ := Prod.mk.inj (Option.some.inj h)
      exact ⟨hb, [], l, rfl, rfl, fun _ hmem => absurd hmem List.not_mem_nil⟩
    · rw [pop, if_neg hb] at h
      obtain ⟨⟨c, l''⟩, hpop, he⟩ := Option.map_eq_some_iff.mp h
      obtain ⟨rfl, rfl⟩ := Prod.mk.inj he
      obtain ⟨hkey, l₁, l₂, rfl, rfl, hne⟩ := ih hpop
      refine ⟨hkey, b :: l₁, l₂, rfl, rfl, fun d hd => ?_⟩
      rcases List.mem_cons.mp hd with rfl | hd
      · exact hb
      · exact hne d hd

theorem part_append : part key k (l ++ l') = part key k l ++ part key k l' :=
  List.filter_append ..

theorem part_eq_nil (h : ∀ b ∈ l, key b ≠ k) : part key k l = [] :=
  List.filter_eq_nil_iff.mpr fun b hb => by simpa using h b hb

/-- A pop takes the head of its own queue. -/
theorem part_of_pop (h : pop key k l = some (a, l')) : part key k l = a :: part key k l' := by
  obtain ⟨hkey, l₁, l₂, rfl, rfl, hne⟩ := pop_eq_some h
  rw [part_append, part_append, part_cons_self hkey, part_eq_nil hne, List.nil_append,
    List.nil_append]

/-- A pop takes one entry. -/
theorem length_of_pop (h : pop key k l = some (a, l')) : l.length = l'.length + 1 := by
  obtain ⟨-, l₁, l₂, rfl, rfl, -⟩ := pop_eq_some h
  rw [List.length_append, List.length_append, List.length_cons, Nat.add_assoc]

/-- A pop fails just when the queue is empty. -/
theorem pop_eq_none_iff : pop key k l = none ↔ part key k l = [] := by
  induction l with
  | nil => exact iff_of_true rfl rfl
  | cons a l ih =>
    by_cases ha : key a = k
    · simp only [pop, if_pos ha, part_cons_self ha, reduceCtorEq]
    · rw [pop, if_neg ha, part_cons_of_ne ha, Option.map_eq_none_iff, ih]

/-- Along another key a pop leaves the parts alone to which its entry does not belong. -/
theorem part_of_pop_of_ne {i : ι} (h : pop key k l = some (a, l')) (hi : key' a ≠ i) :
    part key' i l' = part key' i l := by
  obtain ⟨-, l₁, l₂, rfl, rfl, -⟩ := pop_eq_some h
  rw [part_append, part_append, part_cons_of_ne hi]

/-- Along another key a pop takes the head of a part when its entry is that head. -/
theorem part_of_pop_of_head (h : pop key k l = some (a, l'))
    (hhead : (part key' (key' a) l).head? = some a) :
    part key' (key' a) l = a :: part key' (key' a) l' := by
  obtain ⟨hkey, l₁, l₂, rfl, rfl, hne⟩ := pop_eq_some h
  -- no entry before `a` has its second key: the first such entry would be `a` itself
  have hnil : part key' (key' a) l₁ = [] := by
    cases hpart : part key' (key' a) l₁ with
    | nil => rfl
    | cons b rest =>
      rw [part_append, hpart, List.cons_append, List.head?_cons, Option.some.injEq] at hhead
      have hmem : b ∈ part key' (key' a) l₁ := by
        rw [hpart]
        exact List.mem_cons_self
      have hb := hne b (List.mem_of_mem_filter hmem)
      rw [hhead] at hb
      exact absurd hkey hb
  rw [part_append, part_append, hnil, part_cons_self rfl, List.nil_append, List.nil_append]

section FilterMap

variable {β κ' : Type*} [DecidableEq κ'] {f : α → Option β} {keyOf : β → κ'} {k' : κ'} {c : β}

/-- A pop of an entry that is not read leaves what is read. -/
theorem filterMap_of_pop (h : pop key k l = some (a, l')) (hf : f a = none) :
    l'.filterMap f = l.filterMap f := by
  obtain ⟨-, l₁, l₂, rfl, rfl, -⟩ := pop_eq_some h
  rw [List.filterMap_append, List.filterMap_append, List.filterMap_cons_none hf]

/-- Where only some of the entries are read, under keys of their own, the first entry of a queue is
still the first one. -/
theorem pop_filterMap (h : pop key k l = some (a, l')) (hf : f a = some c)
    (hkey : ∀ b d, f b = some d → (keyOf d = k' ↔ key b = k)) (rest : List β) :
    pop keyOf k' (l.filterMap f ++ rest) = some (c, l'.filterMap f ++ rest) := by
  induction l generalizing l' with
  | nil => cases h
  | cons b l ih =>
    by_cases hb : key b = k
    · rw [pop, if_pos hb] at h
      obtain ⟨rfl, rfl⟩ := Prod.mk.inj (Option.some.inj h)
      rw [List.filterMap_cons_some hf, List.cons_append, pop, if_pos ((hkey _ _ hf).mpr hb)]
    · rw [pop, if_neg hb] at h
      obtain ⟨⟨a', l''⟩, hpop, he⟩ := Option.map_eq_some_iff.mp h
      obtain ⟨rfl, rfl⟩ := Prod.mk.inj he
      cases hfb : f b with
      | none =>
        rw [List.filterMap_cons_none hfb, List.filterMap_cons_none hfb]
        exact ih hpop
      | some d =>
        rw [List.filterMap_cons_some hfb, List.filterMap_cons_some hfb, List.cons_append,
          List.cons_append, pop, if_neg fun hd => hb ((hkey _ _ hfb).mp hd), ih hpop]
        rfl

end FilterMap

end MergedQueues
