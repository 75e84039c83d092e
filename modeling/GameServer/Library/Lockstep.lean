import GameServer.Library.Machine

/-!
# Two runs of a machine

Two runs of one machine on the same inputs, from states that differ in what may not show. The
states are related by a relation that every step keeps (`Machine.Lockstep`): a step returns in
both states or in none, and writes the same number of outputs. Where the step also meets a
condition, the outputs are the same. Then the runs write the same as long as the condition is met,
and a run that writes the same as every other has met it at each step, if a step that does not
meet it can be told apart.

## Main definitions

* `Machine.outputs` : what a machine writes on a list of inputs until a step faults.
* `Machine.Meets` : every step taken on a list of inputs meets a condition.
* `Machine.Lockstep` : a relation between the states of two runs.

## Main results

* `Machine.Lockstep.outputs_eq` : related runs whose steps meet the condition write the same.
* `Machine.Lockstep.outputs_ne` : they do not, from the first step on whose outputs differ.
* `Machine.exists_not_of_not_meets` : the first step that does not meet the condition.
* `Machine.Exec.of_meets` : a run whose steps all meet the condition.
-/

namespace Machine

variable {σ ι ο ε : Type*} (M : Machine σ ι ο ε)

/-- What the machine writes on a list of inputs, up to the first step that faults. -/
def outputs (s : σ) : List ι → List ο
  | [] => []
  | i :: is =>
    match M.step s i with
    | .error _ => []
    | .ok (s', o) => o ++ outputs s' is

/-- Every step that the machine takes on a list of inputs without a fault meets the condition. -/
def Meets (ok : σ → ι → Prop) (s : σ) : List ι → Prop
  | [] => True
  | i :: is => ∀ s' o, M.step s i = .ok (s', o) → ok s i ∧ Meets ok s' is

variable {M} {ok : σ → ι → Prop} {s s' t : σ} {i : ι} {is is' : List ι} {o os : List ο}

theorem outputs_cons_ok (h : M.step s i = .ok (s', o)) (is : List ι) :
    M.outputs s (i :: is) = o ++ M.outputs s' is := by
  rw [outputs, h]

theorem outputs_cons_error {e : ε} (h : M.step s i = .error e) (is : List ι) :
    M.outputs s (i :: is) = [] := by
  rw [outputs, h]

/-- What is written on a run without faults comes first. -/
theorem Exec.outputs_append (h : M.Exec ok s is os s') (is' : List ι) :
    M.outputs s (is ++ is') = os ++ M.outputs s' is' := by
  induction h generalizing is' with
  | init => rfl
  | next _ _ hstep ih =>
    rw [List.append_assoc, ih, List.singleton_append, outputs_cons_ok hstep, List.append_assoc]

/-- The first step that does not meet the condition, after a run whose steps do. -/
theorem exists_not_of_not_meets (h : ¬M.Meets ok s is) :
    ∃ is₁ i is₂ os s₁ s₂ o, is = is₁ ++ i :: is₂ ∧ M.Exec ok s is₁ os s₁ ∧
      M.step s₁ i = .ok (s₂, o) ∧ ¬ok s₁ i := by
  induction is generalizing s with
  | nil => exact absurd trivial h
  | cons i is ih =>
    simp only [Meets, not_forall] at h
    obtain ⟨s', o, hstep, h⟩ := h
    by_cases hok : ok s i
    · have hrest : ¬M.Meets ok s' is := fun hm => h ⟨hok, hm⟩
      obtain ⟨is₁, j, is₂, os, s₁, s₂, o', rfl, hrun, hs, hnot⟩ := ih hrest
      exact ⟨i :: is₁, j, is₂, o ++ os, s₁, s₂, o', rfl, (Exec.single hok hstep).append hrun, hs,
        hnot⟩
    · exact ⟨[], i, is, [], s, s', o, rfl, .init, hstep, hok⟩

/-- After a run whose steps meet the condition it is met as long as it is met from there on. -/
theorem Exec.meets_append (h : M.Exec ok s is os s') (hm : M.Meets ok s' is') :
    M.Meets ok s (is ++ is') := by
  induction h generalizing is' with
  | init => exact hm
  | @next is os s₁ i s' o _ hok hstep ih =>
    rw [List.append_assoc]
    refine ih fun s'' o' hstep' => ?_
    cases hstep.symm.trans hstep'
    exact ⟨hok, hm⟩

/-- The steps of a run meet the condition when all steps on its inputs do. -/
theorem Exec.of_meets_append (h : M.Exec any s is os s') (hm : M.Meets ok s (is ++ is')) :
    M.Exec ok s is os s' ∧ M.Meets ok s' is' := by
  induction h generalizing is' with
  | init => exact ⟨.init, hm⟩
  | @next is os s₁ i s' o _ _ hstep ih =>
    rw [List.append_assoc] at hm
    obtain ⟨hrun, hrest⟩ := ih hm
    obtain ⟨hok, hrest'⟩ := hrest s' o hstep
    exact ⟨hrun.next hok hstep, hrest'⟩

/-- The steps on the inputs of a run that meets the condition. -/
theorem Exec.meets (h : M.Exec ok s is os s') : M.Meets ok s is := by
  rw [← List.append_nil is]
  exact h.meets_append trivial

/-- A run whose steps all meet the condition. -/
theorem Exec.of_meets (h : M.Exec any s is os s') (hm : M.Meets ok s is) :
    M.Exec ok s is os s' := by
  rw [← List.append_nil is] at hm
  exact (h.of_meets_append hm).1

/-- A relation between the states of two runs: it is symmetric, a step returns in related states
or in none and leads to related states, and the outputs are the same in number, and altogether
where the condition is met. -/
structure Lockstep (M : Machine σ ι ο ε) (ok : σ → ι → Prop) (R : σ → σ → Prop) : Prop where
  symm : ∀ {s t}, R s t → R t s
  step : ∀ {s t i s' o}, R s t → M.step s i = .ok (s', o) →
    ∃ t' p, M.step t i = .ok (t', p) ∧ R s' t' ∧ p.length = o.length ∧ (ok s i → p = o)

namespace Lockstep

variable {R : σ → σ → Prop}

/-- A step that faults in a state faults in the related ones. -/
theorem step_error (hR : M.Lockstep ok R) (hst : R s t) {e : ε} (h : M.step s i = .error e) :
    ∃ e', M.step t i = .error e' := by
  cases ht : M.step t i with
  | error e' => exact ⟨e', rfl⟩
  | ok q =>
    obtain ⟨s', p, hs, -⟩ := hR.step (hR.symm hst) ht
    cases h.symm.trans hs

/-- **Run lemma.** Related runs write the same while the condition is met. -/
theorem exec (hR : M.Lockstep ok R) (h : M.Exec ok s is os s') (hst : R s t) :
    ∃ t', M.Exec any t is os t' ∧ R s' t' := by
  induction h with
  | init => exact ⟨t, .init, hst⟩
  | next _ hok hstep ih =>
    obtain ⟨t', hrun, hst'⟩ := ih
    obtain ⟨t'', p, hs, hst'', -, hp⟩ := hR.step hst' hstep
    exact ⟨t'', hp hok ▸ hrun.next trivial hs, hst''⟩

/-- Related runs whose steps all meet the condition write the same, also where they fault. -/
theorem outputs_eq (hR : M.Lockstep ok R) (hst : R s t) (h : M.Meets ok s is) :
    M.outputs t is = M.outputs s is := by
  induction is generalizing s t with
  | nil => rfl
  | cons i is ih =>
    cases hs : M.step s i with
    | error e =>
      obtain ⟨e', ht⟩ := hR.step_error hst hs
      rw [outputs_cons_error hs, outputs_cons_error ht]
    | ok q =>
      obtain ⟨s', o⟩ := q
      obtain ⟨hok, hrest⟩ := h s' o hs
      obtain ⟨t', p, ht, hst', -, hp⟩ := hR.step hst hs
      rw [outputs_cons_ok hs, outputs_cons_ok ht, hp hok, ih hst' hrest]

/-- Related runs that meet the condition up to a step and differ there do not write the same. -/
theorem outputs_ne (hR : M.Lockstep ok R) {t' t'' : σ} {s'' : σ} {p : List ο}
    (hs : M.Exec ok s is os s') (ht : M.Exec any t is os t') (hst : R s' t')
    (hstep : M.step s' i = .ok (s'', o)) (hstep' : M.step t' i = .ok (t'', p)) (hne : p ≠ o) :
    M.outputs t (is ++ i :: is') ≠ M.outputs s (is ++ i :: is') := by
  obtain ⟨u, q, hu, -, hlen, -⟩ := hR.step hst hstep
  cases hstep'.symm.trans hu
  rw [hs.outputs_append, ht.outputs_append, outputs_cons_ok hstep, outputs_cons_ok hstep']
  exact fun he => hne (List.append_inj_left (List.append_cancel_left he) hlen)

end Lockstep

/-- A ghost does not show. -/
theorem outputs_withGhost {γ : Type*} (record : σ → ι → γ → γ) (s : σ × γ) (is : List ι) :
    (M.withGhost record).outputs s is = M.outputs s.1 is := by
  induction is generalizing s with
  | nil => rfl
  | cons i is ih =>
    cases hs : M.step s.1 i with
    | error e =>
      have hg : (M.withGhost record).step s i = .error e := by
        simp only [withGhost, hs, Except.map]
      rw [outputs_cons_error hs, outputs_cons_error hg]
    | ok q =>
      have hg : (M.withGhost record).step s i = .ok ((q.1, record s.1 i s.2), q.2) :=
        withGhost_step_eq_ok.mpr ⟨hs, rfl⟩
      rw [outputs_cons_ok hs, outputs_cons_ok hg, ih]

end Machine
