import GameServer.Library.Machine

/-!
# A machine that carries out another

One machine carries out another when some of its outputs stand for inputs of the other, and every
step of the first is matched by the steps of the second on the inputs that its outputs stand for,
which may be none. Every run of the first is then a run of the second.

## Main definitions

* `Machine.CarriesOut` : a relation between the runs of two machines that every step keeps.

## Main results

* `Machine.CarriesOut.exec` : a run of the one is a run of the other.
-/

namespace Machine

variable {σ ι ο ε τ κ ω δ : Type*}

/-- A relation between the runs of two machines that every step of the first keeps, with the steps
of the second on the inputs that its outputs stand for. -/
structure CarriesOut (M : Machine σ ι ο ε) (N : Machine τ κ ω δ) (input : ο → Option κ)
    (R : List ο → σ → List ω → τ → Prop) : Prop where
  step : ∀ {os s i s' o ws t}, R os s ws t → M.step s i = .ok (s', o) →
    ∃ w t', N.Exec any t (o.filterMap input) w t' ∧ R (os ++ o) s' (ws ++ w) t'

/-- **Refinement.** A run of the first machine is a run of the second on the inputs that its
outputs stand for. -/
theorem CarriesOut.exec {M : Machine σ ι ο ε} {N : Machine τ κ ω δ} {input : ο → Option κ}
    {R : List ο → σ → List ω → τ → Prop} (h : M.CarriesOut N input R) {ok : σ → ι → Prop}
    {s₀ s : σ} {t₀ : τ} {is : List ι} {os : List ο} (hrun : M.Exec ok s₀ is os s)
    (h₀ : R [] s₀ [] t₀) : ∃ ws t, N.Exec any t₀ (os.filterMap input) ws t ∧ R os s ws t := by
  induction hrun with
  | init => exact ⟨[], t₀, .init, h₀⟩
  | next _ _ hs ih =>
    obtain ⟨ws, t, hexec, hrel⟩ := ih
    obtain ⟨w, t', hexec', hrel'⟩ := h.step hrel hs
    refine ⟨ws ++ w, t', ?_, hrel'⟩
    rw [List.filterMap_append]
    exact hexec.append hexec'

end Machine
