import Mathlib.Data.List.Basic
import Mathlib.Data.Option.Basic

/-!
# Sessions in a history

A history interleaves the sessions of many keys. `sessionAfter` follows the session of one key: it
runs an automaton on the entries of that key and is `none` once they have left it. An entry
changes the session of its own key only, so an invariant that ties a state to the sessions of a
history is kept key by key.

## Main definitions

* `sessionAfter` : the state of the session of a key after a history.
* `IsSession` : every key has kept to its session.

## Main results

* `sessionAfter_append_of_ne`, `sessionAfter_append_self` : the effect of one entry at the end.
* `sessionAfter_of_filter_eq_cons` : the effect of the first entry.
* `IsSession.exists_step` : an entry that keeps to its session is a step of the automaton.
-/

section Session

variable {α κ σ : Type*} [DecidableEq κ]

/-- The state of the session of `k` after the history `l`, if its entries have kept to it. -/
def sessionAfter (key : α → κ) (next : σ → α → Option σ) (s₀ : σ) (k : κ) (l : List α) :
    Option σ :=
  (l.filter fun a => key a = k).foldlM next s₀

/-- Every key has kept to its session. -/
def IsSession (key : α → κ) (next : σ → α → Option σ) (s₀ : σ) (l : List α) : Prop :=
  ∀ k, (sessionAfter key next s₀ k l).isSome

variable {key : α → κ} {next : σ → α → Option σ} {s₀ : σ} {l : List α} {a : α}

theorem sessionAfter_append_of_ne {k : κ} (h : k ≠ key a) :
    sessionAfter key next s₀ k (l ++ [a]) = sessionAfter key next s₀ k l := by
  simp only [sessionAfter, List.filter_append, List.filter_singleton, h.symm, decide_false,
    cond_false, List.append_nil]

theorem sessionAfter_append_self :
    sessionAfter key next s₀ (key a) (l ++ [a]) =
      (sessionAfter key next s₀ (key a) l).bind (next · a) := by
  simp [sessionAfter, List.filter_append, List.foldlM_append]

/-- The entry is a step of the session of its key. -/
theorem sessionAfter_append_eq_some {s s' : σ} (h : sessionAfter key next s₀ (key a) l = some s)
    (hnext : next s a = some s') : sessionAfter key next s₀ (key a) (l ++ [a]) = some s' := by
  rw [sessionAfter_append_self, h, Option.bind_some, hnext]

/-- The session of a key is a matter of its entries. -/
theorem sessionAfter_congr {k : κ} {l' : List α}
    (h : (l.filter fun a => key a = k) = l'.filter fun a => key a = k) :
    sessionAfter key next s₀ k l = sessionAfter key next s₀ k l' :=
  congrArg (List.foldlM next s₀) h

/-- The session of a key begins with its first entry. -/
theorem sessionAfter_of_filter_eq_cons {k : κ} {l' : List α}
    (h : (l.filter fun a => key a = k) = a :: l'.filter fun a => key a = k) :
    sessionAfter key next s₀ k l = (next s₀ a).bind fun s => sessionAfter key next s k l' := by
  rw [sessionAfter, h, List.foldlM_cons]
  rfl

theorem IsSession.of_append {l' : List α} (h : IsSession key next s₀ (l ++ l')) :
    IsSession key next s₀ l := by
  intro k
  have hk := h k
  rw [sessionAfter, List.filter_append, List.foldlM_append] at hk
  exact Option.isSome_of_isSome_bind hk

/-- The key of an entry that keeps to its session steps from a state that allows the entry. -/
theorem IsSession.exists_step (h : IsSession key next s₀ (l ++ [a])) :
    ∃ s s', sessionAfter key next s₀ (key a) l = some s ∧ next s a = some s' ∧
      sessionAfter key next s₀ (key a) (l ++ [a]) = some s' := by
  obtain ⟨s', hs'⟩ := Option.isSome_iff_exists.mp (h (key a))
  have hbind := hs'
  rw [sessionAfter_append_self] at hbind
  obtain ⟨s, hs, hnext⟩ := Option.bind_eq_some_iff.mp hbind
  exact ⟨s, s', hs, hnext, hs'⟩

/-- Only the keys that occur need to be examined. -/
instance : Decidable (IsSession key next s₀ l) :=
  decidable_of_iff (∀ a ∈ l, (sessionAfter key next s₀ (key a) l).isSome) <| by
    constructor
    · intro h k
      by_cases hk : ∃ a ∈ l, key a = k
      · obtain ⟨a, ha, rfl⟩ := hk
        exact h a ha
      · have hnil : l.filter (fun a => key a = k) = [] := by
          rw [List.filter_eq_nil_iff]
          intro a ha
          simpa using fun he => hk ⟨a, ha, he⟩
        simp only [sessionAfter, hnil, List.foldlM_nil]
        rfl
    · exact fun h a _ => h (key a)

end Session
