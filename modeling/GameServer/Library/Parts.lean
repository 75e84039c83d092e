import GameServer.Library.Machine
import GameServer.Library.MergedQueues

/-!
# Systems made of parts

A system has many parts, each of them a machine of its own, and every step of the system is at
most one step of one part. The system writes down whose step it was, what the part read and what it
wrote. A part that shares memory with the others is related to a machine that has the memory to
itself. When the step of a part is a step of its machine and leaves the relations of the other
parts alone, every part has run as its machine does, on what the part has read.

## Main definitions

* `PartStep` : a step of one part.
* `PartStep.readBy`, `PartStep.wroteBy` : what a part has read and written.

## Main results

* `Machine.Exec.parts` : in a run of the system every part has made a run of its machine.
-/

universe u v w

/-- A step of one part: what it read and what it wrote. -/
structure PartStep (κ : Type u) (α : Type v) (β : Type w) where
  part : κ
  read : α
  wrote : List β

namespace PartStep

variable {κ : Type u} {α : Type v} {β : Type w} [DecidableEq κ]

/-- What the part `k` has read. -/
def readBy (k : κ) (h : List (PartStep κ α β)) : List α := (MergedQueues.part part k h).map read

/-- What the part `k` has written. -/
def wroteBy (k : κ) (h : List (PartStep κ α β)) : List β :=
  (MergedQueues.part part k h).flatMap wrote

variable {k k' : κ} (h : List (PartStep κ α β)) (a : α) (bs : List β)

theorem part_append_self : MergedQueues.part part k (h ++ [⟨k, a, bs⟩]) =
    MergedQueues.part part k h ++ [⟨k, a, bs⟩] := by
  rw [MergedQueues.part_append]
  exact congrArg _ (MergedQueues.part_cons_self rfl)

theorem part_append_of_ne (hk : k' ≠ k) :
    MergedQueues.part part k (h ++ [⟨k', a, bs⟩]) = MergedQueues.part part k h := by
  rw [MergedQueues.part_append, MergedQueues.part_cons_of_ne hk]
  exact List.append_nil _

theorem readBy_append_self : readBy k (h ++ [⟨k, a, bs⟩]) = readBy k h ++ [a] := by
  rw [readBy, part_append_self, List.map_append]
  rfl

theorem readBy_append_of_ne (hk : k' ≠ k) : readBy k (h ++ [⟨k', a, bs⟩]) = readBy k h := by
  rw [readBy, part_append_of_ne h a bs hk, readBy]

theorem wroteBy_append_self : wroteBy k (h ++ [⟨k, a, bs⟩]) = wroteBy k h ++ bs := by
  rw [wroteBy, part_append_self, List.flatMap_append]
  exact congrArg _ (List.append_nil _)

theorem wroteBy_append_of_ne (hk : k' ≠ k) : wroteBy k (h ++ [⟨k', a, bs⟩]) = wroteBy k h := by
  rw [wroteBy, part_append_of_ne h a bs hk, wroteBy]

end PartStep

namespace Machine

variable {σ τ ι κ α β ε δ : Type*} [DecidableEq κ]

/-- What a step of the system has to do with its parts: no part moves, or one does. -/
inductive Moves (N : Machine τ α β δ) (R : κ → σ → τ → Prop) (s s' : σ) :
    List (PartStep κ α β) → Prop
  | none (h : ∀ k t, R k s t → R k s' t) : Moves N R s s' []
  | one (k : κ) (a : α) (bs : List β)
      (hself : ∀ t, R k s t → ∃ t', N.step t a = .ok (t', bs) ∧ R k s' t')
      (hother : ∀ k', k' ≠ k → ∀ t, R k' s t → R k' s' t) : Moves N R s s' [⟨k, a, bs⟩]

variable {M : Machine σ ι (PartStep κ α β) ε} {N : Machine τ α β δ} {R : κ → σ → τ → Prop}
  {P : σ → Prop} {ok : σ → ι → Prop}

/-- **Every part runs as if it were alone.** The parts may share what they like: as long as each
step moves at most one of them, as its machine moves on what it has to itself, every part has made
a run of its machine. -/
theorem Exec.parts {s₀ s : σ} {t₀ : κ → τ} {is : List ι} {h : List (PartStep κ α β)}
    (hrun : M.Exec ok s₀ is h s) (h₀ : P s₀) (hR : ∀ k, R k s₀ (t₀ k))
    (hstep : ∀ s i s' o, P s → ok s i → M.step s i = .ok (s', o) → P s' ∧ Moves N R s s' o)
    (k : κ) : ∃ t, N.Exec any (t₀ k) (PartStep.readBy k h) (PartStep.wroteBy k h) t ∧ R k s t := by
  have hall : P s ∧
      ∀ k, ∃ t, N.Exec any (t₀ k) (PartStep.readBy k h) (PartStep.wroteBy k h) t ∧ R k s t := by
    induction hrun with
    | init => exact ⟨h₀, fun k => ⟨t₀ k, .init, hR k⟩⟩
    | next _ hok hs ih =>
      obtain ⟨hp, hparts⟩ := ih
      obtain ⟨hp', hmoves⟩ := hstep _ _ _ _ hp hok hs
      refine ⟨hp', fun k => ?_⟩
      obtain ⟨t, hexec, hr⟩ := hparts k
      cases hmoves with
      | none hsame =>
        rw [List.append_nil]
        exact ⟨t, hexec, hsame k t hr⟩
      | one k' a bs hself hother =>
        by_cases hk : k' = k
        · subst hk
          obtain ⟨t', hturn, hr'⟩ := hself t hr
          rw [PartStep.readBy_append_self, PartStep.wroteBy_append_self]
          exact ⟨t', hexec.next trivial hturn, hr'⟩
        · rw [PartStep.readBy_append_of_ne _ _ _ hk, PartStep.wroteBy_append_of_ne _ _ _ hk]
          exact ⟨t, hexec, hother k (Ne.symm hk) t hr⟩
  exact hall.2 k

end Machine
