import GameServer.Library.MergedQueues
import GameServer.Library.Session

/-!
# Views that follow their source through a queue

A source tells a view of its changes through a queue. For every key, the entries of the queue lead
an automaton from the state in which the view has the key to the state in which the source has it.
When the source changes it pushes an entry, and when the view reads an entry it changes in turn;
while the queue is empty they agree. The view need not read the queue from the front, as long as it
reads the entries of each key in order.

## Main definitions

* `Behind` : the view is behind the source by the entries of the queue.

## Main results

* `Behind.push`, `Behind.pop` : a change of the source and one of the view.
* `Behind.eq_of_nil` : with an empty queue they agree.
-/

/-- The view is behind the source by the entries of the queue. -/
def Behind {α κ σ : Type*} [DecidableEq κ] (key : α → κ) (next : σ → α → Option σ) (view : κ → σ)
    (l : List α) (source : κ → σ) : Prop :=
  ∀ k, sessionAfter key next (view k) k l = some (source k)

namespace Behind

variable {α κ σ : Type*} [DecidableEq κ] {key : α → κ} {next : σ → α → Option σ}
  {view source source' : κ → σ} {l l' : List α} {a : α}

theorem refl (view : κ → σ) : Behind key next view [] view := fun _ => rfl

theorem eq_of_nil (h : Behind key next view [] source) : view = source :=
  funext fun k => Option.some.inj (h k)

/-- A change of the source, with an entry that tells of it. -/
theorem push (h : Behind key next view l source)
    (hself : next (source (key a)) a = some (source' (key a)))
    (hother : ∀ k, k ≠ key a → source' k = source k) :
    Behind key next view (l ++ [a]) source' := by
  intro k
  by_cases hk : k = key a
  · subst hk
    exact sessionAfter_append_eq_some (h _) hself
  · rw [sessionAfter_append_of_ne hk, hother k hk]
    exact h k

/-- The first entry of a key is a change that the view can make; when it has made it, it is behind
by the other entries. -/
theorem pop (view' : κ → σ) (h : Behind key next view l source)
    (hself : MergedQueues.part key (key a) l = a :: MergedQueues.part key (key a) l')
    (hother : ∀ k, k ≠ key a → MergedQueues.part key k l' = MergedQueues.part key k l) :
    ∃ v, next (view (key a)) a = some v ∧ (view' (key a) = v →
      (∀ k, k ≠ key a → view' k = view k) → Behind key next view' l' source) := by
  have hfirst : sessionAfter key next (view (key a)) (key a) l =
      (next (view (key a)) a).bind fun v => sessionAfter key next v (key a) l' :=
    sessionAfter_of_filter_eq_cons hself
  have hcons := h (key a)
  rw [hfirst, Option.bind_eq_some_iff] at hcons
  obtain ⟨v, hnext, hrest⟩ := hcons
  refine ⟨v, hnext, fun hv hsame k => ?_⟩
  by_cases hk : k = key a
  · subst hk
    rw [hv]
    exact hrest
  · rw [hsame k hk, ← h k]
    exact sessionAfter_congr (hother k hk)

/-- The view reads the queue from the front. -/
theorem pop_front (view' : κ → σ) (h : Behind key next view (a :: l) source) :
    ∃ v, next (view (key a)) a = some v ∧ (view' (key a) = v →
      (∀ k, k ≠ key a → view' k = view k) → Behind key next view' l source) :=
  h.pop view' (MergedQueues.part_cons_self rfl) fun _ hk =>
    (MergedQueues.part_cons_of_ne hk.symm).symm

end Behind
