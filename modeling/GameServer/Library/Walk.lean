import Mathlib.Logic.Basic
import Mathlib.Data.List.Basic

/-!
# Walks and ways back

A state is changed by steps that always succeed, such as the moves of a piece on a board. A walk
is a sequence of steps. From the state at its end there is a way back to the state at its start
if and only if each of its steps can be undone, by whatever further steps.

## Main definitions

* `Walk.Reaches` : a walk leads from one state to another.
* `Walk.Along` : a property of all steps of a walk.
* `Walk.Exits` : an edge that one step leaves and none enters.

## Main results

* `Walk.reaches_start_iff` : there is a way back if and only if every step can be undone.
* `Walk.Reaches.invariant` : what steps keep, walks keep.
* `Walk.Exits.edge_foldl_iff` : a walk stays at the edge unless it takes the step that leaves it.
-/

namespace Walk

variable {σ α : Type*} {step : σ → α → σ} {s t u : σ}

/-- A walk leads from one state to the other. -/
def Reaches (step : σ → α → σ) (s t : σ) : Prop := ∃ as : List α, as.foldl step s = t

theorem Reaches.refl (s : σ) : Reaches step s s := ⟨[], rfl⟩

theorem Reaches.single (s : σ) (a : α) : Reaches step s (step s a) := ⟨[a], rfl⟩

theorem Reaches.of_foldl (s : σ) (as : List α) : Reaches step s (as.foldl step s) := ⟨as, rfl⟩

theorem Reaches.trans (h : Reaches step s t) (h' : Reaches step t u) : Reaches step s u := by
  obtain ⟨as, rfl⟩ := h
  obtain ⟨bs, rfl⟩ := h'
  exact ⟨as ++ bs, List.foldl_append⟩

/-- What every step keeps is kept by walks. -/
theorem Reaches.invariant {P : σ → Prop} (h : Reaches step s t)
    (hstep : ∀ s a, P s → P (step s a)) (hs : P s) : P t := by
  obtain ⟨as, rfl⟩ := h
  induction as generalizing s with
  | nil => exact hs
  | cons a as ih => exact ih (hstep s a hs)

/-- A property of the steps of a walk, in the states in which they are taken. -/
def Along (step : σ → α → σ) (ok : σ → α → Prop) : σ → List α → Prop
  | _, [] => True
  | s, a :: as => ok s a ∧ Along step ok (step s a) as

/-- **The way back.** A walk can be undone if and only if each of its steps can. -/
theorem reaches_start_iff {as : List α} : Reaches step (as.foldl step s) s ↔
    Along step (fun s a => Reaches step (step s a) s) s as := by
  induction as generalizing s with
  | nil => exact iff_of_true (.refl s) trivial
  | cons a as ih =>
    rw [List.foldl_cons, Along, ← ih]
    constructor
    · intro h
      exact ⟨(Reaches.of_foldl _ as).trans h, h.trans (.single s a)⟩
    · rintro ⟨hundo, hback⟩
      exact hback.trans hundo

/-- Among the states with `I`, which the steps keep, those at the edge are left by the step `exit`
only, and no step leads back to them. -/
structure Exits (step : σ → α → σ) (I Edge : σ → Prop) (exit : α) : Prop where
  keeps : ∀ s a, I s → I (step s a)
  edge_iff : ∀ s a, I s → (Edge (step s a) ↔ Edge s ∧ a ≠ exit)

namespace Exits

variable {I Edge : σ → Prop} {exit : α}

/-- A walk ends at the edge exactly if it starts there and does not take the step that leaves. -/
theorem edge_foldl_iff (h : Exits step I Edge exit) (hs : I s) (as : List α) :
    Edge (as.foldl step s) ↔ Edge s ∧ exit ∉ as := by
  induction as generalizing s with
  | nil => simp
  | cons a as ih =>
    rw [List.foldl_cons, ih (h.keeps s a hs), h.edge_iff s a hs, List.mem_cons, not_or, and_assoc,
      ne_comm]

/-- The step that leaves the edge cannot be undone. -/
theorem not_undone (h : Exits step I Edge exit) (hs : I s) (he : Edge s) :
    ¬Reaches step (step s exit) s := by
  rintro ⟨as, hback⟩
  have hleft : ¬Edge (step s exit) := fun hedge => ((h.edge_iff s exit hs).mp hedge).2 rfl
  have hreached := h.edge_foldl_iff (h.keeps s exit hs) as
  rw [hback] at hreached
  exact hleft (hreached.mp he).1

end Exits

end Walk
