import GameServer.Library.Machine
import Mathlib.Data.List.Induction

/-!
# Systems that come to rest

The workers of a system take their work out of its queues, and their work puts new entries into
other queues. When every step of a worker that has something to do lowers a measure, nobody has
anything left to do after as many rounds as the measure says, whatever the order of the workers in
each round and however often they come up in it.

## Main definitions

* `IsRound` : every worker comes up, and no one else.
* `Machine.Drains` : the steps of the workers lower a measure of what is left to do.

## Main results

* `Machine.Drains.work_le` : what is left to do after a run with inputs from outside.
* `Machine.Drains.round` : a round lowers the measure if there is something to do.
* `Machine.Drains.rest_of_rounds` : the system comes to rest.
-/

/-- Every worker comes up, and no one else. -/
def IsRound {ι κ : Type*} (worker : ι → Option κ) (is : List ι) : Prop :=
  (∀ i ∈ is, worker i ≠ none) ∧ ∀ k, ∃ i ∈ is, worker i = some k

namespace Machine

variable {σ ι ο ε κ : Type*} {M : Machine σ ι ο ε}

/-- A run over two lists of inputs is a run over the first, followed by one over the second. -/
theorem Exec.exists_append {ok : σ → ι → Prop} {s₀ s : σ} {is is' : List ι} {os : List ο}
    (h : M.Exec ok s₀ (is ++ is') os s) :
    ∃ os₁ s₁ os₂, M.Exec ok s₀ is os₁ s₁ ∧ M.Exec ok s₁ is' os₂ s := by
  induction is' using List.reverseRecOn generalizing os s with
  | nil =>
    rw [List.append_nil] at h
    exact ⟨os, s, [], h, .init⟩
  | append_singleton is' i ih =>
    rw [← List.append_assoc] at h
    obtain ⟨t, ⟨os', h'⟩, hok, o, hs⟩ := Exec.concat_iff.mp ⟨os, h⟩
    obtain ⟨os₁, s₁, os₂, h₁, h₂⟩ := ih h'
    exact ⟨os₁, s₁, os₂ ++ o, h₁, h₂.next hok hs⟩

/-- The steps of the workers lower a measure of what is left to do: a worker with nothing to do
changes nothing, and a step of any other lowers the measure. -/
structure Drains (M : Machine σ ι ο ε) (worker : ι → Option κ) (HasWork : σ → κ → Prop)
    (work : σ → ℕ) : Prop where
  idle : ∀ {s i s' o k}, worker i = some k → ¬HasWork s k → M.step s i = .ok (s', o) → s' = s
  lower : ∀ {s i s' o k}, worker i = some k → HasWork s k → M.step s i = .ok (s', o) →
    work s' < work s
  pos : ∀ {s k}, HasWork s k → 0 < work s

namespace Drains

variable {worker : ι → Option κ} {HasWork : σ → κ → Prop} {work : σ → ℕ} {ok : σ → ι → Prop}
  {s s' : σ} {is : List ι} {os : List ο}

/-- A step of a worker does not raise the measure. -/
theorem work_le_of_step (h : M.Drains worker HasWork work) {i : ι} {o : List ο}
    (hi : worker i ≠ none) (hs : M.step s i = .ok (s', o)) : work s' ≤ work s := by
  obtain ⟨k, hk⟩ := Option.ne_none_iff_exists'.mp hi
  by_cases hbusy : HasWork s k
  · exact Nat.le_of_lt (h.lower hk hbusy hs)
  · exact Nat.le_of_eq (congrArg work (h.idle hk hbusy hs))

/-- **The measure after a run.** Only the inputs that are for no worker raise the measure. -/
theorem work_le (h : M.Drains worker HasWork work) {Inv : σ → Prop} {c : ℕ}
    (hstep : ∀ {s i s' o}, Inv s → M.step s i = .ok (s', o) → Inv s')
    (hraise : ∀ {s i s' o}, Inv s → worker i = none → M.step s i = .ok (s', o) →
      work s' ≤ work s + c)
    (hrun : M.Exec ok s is os s') (hinv : Inv s) :
    work s' ≤ work s + c * is.countP fun i => (worker i).isNone := by
  suffices hboth : Inv s' ∧ work s' ≤ work s + c * is.countP fun i => (worker i).isNone from hboth.2
  induction hrun with
  | init => exact ⟨hinv, Nat.le_add_right _ _⟩
  | @next is os t i t' o _ _ hs ih =>
    obtain ⟨ht, hle⟩ := ih
    refine ⟨hstep ht hs, ?_⟩
    by_cases hi : worker i = none
    · have hraised := hraise ht hi hs
      rw [List.countP_append, List.countP_singleton, if_pos (Option.isNone_iff_eq_none.mpr hi),
        Nat.mul_add, Nat.mul_one]
      omega
    · have hlow := h.work_le_of_step hi hs
      rw [List.countP_append, List.countP_singleton, if_neg (mt Option.isNone_iff_eq_none.mp hi),
        Nat.add_zero]
      omega

/-- When no one has anything to do, nothing changes while only workers come up. -/
theorem stays_exec (h : M.Drains worker HasWork work) (hrun : M.Exec ok s is os s')
    (hworkers : ∀ i ∈ is, worker i ≠ none) (hrest : ∀ k, ¬HasWork s k) : s' = s := by
  induction hrun with
  | init => rfl
  | next _ _ hs ih =>
    obtain ⟨hold, hlast⟩ := List.forall_mem_append.mp hworkers
    obtain rfl := ih hold
    obtain ⟨k, hk⟩ := Option.ne_none_iff_exists'.mp (hlast _ (List.mem_singleton_self _))
    exact h.idle hk (hrest k) hs

/-- While a worker that has something to do has not come up, nothing has changed or the measure is
lower; once it has come up, the measure is lower. -/
theorem lower_exec (h : M.Drains worker HasWork work) {k : κ} (hk : HasWork s k)
    (hrun : M.Exec ok s is os s') (hworkers : ∀ i ∈ is, worker i ≠ none) :
    (s' = s ∨ work s' < work s) ∧ ((∃ i ∈ is, worker i = some k) → work s' < work s) := by
  induction hrun with
  | init => exact ⟨.inl rfl, fun ⟨_, hmem, _⟩ => absurd hmem List.not_mem_nil⟩
  | @next is os t i t' o _ _ hs ih =>
    obtain ⟨hold, hlast⟩ := List.forall_mem_append.mp hworkers
    obtain ⟨k', hk'⟩ := Option.ne_none_iff_exists'.mp (hlast i (List.mem_singleton_self i))
    obtain ⟨hsame, hcame⟩ := ih hold
    have hnext : t' = t ∨ work t' < work t := by
      by_cases hbusy : HasWork t k'
      · exact .inr (h.lower hk' hbusy hs)
      · exact .inl (h.idle hk' hbusy hs)
    rcases hsame with rfl | hlow
    · refine ⟨hnext, ?_⟩
      rintro ⟨j, hj, hjk⟩
      rcases List.mem_append.mp hj with hj | hj
      · exact absurd (hcame ⟨j, hj, hjk⟩) (Nat.lt_irrefl _)
      · obtain rfl := List.mem_singleton.mp hj
        exact h.lower hjk hk hs
    · have hlow' : work t' < work s := by
        rcases hnext with rfl | hlt
        · exact hlow
        · exact Nat.lt_trans hlt hlow
      exact ⟨.inr hlow', fun _ => hlow'⟩

/-- **A round.** It lowers the measure if someone has something to do. -/
theorem round (h : M.Drains worker HasWork work) {k : κ} (hk : HasWork s k)
    (hrun : M.Exec ok s is os s') (hround : IsRound worker is) : work s' < work s :=
  (h.lower_exec hk hrun hround.1).2 (hround.2 k)

/-- **Coming to rest.** After as many rounds as the measure says, no one has anything to do. -/
theorem rest_of_rounds (h : M.Drains worker HasWork work) {rounds : List (List ι)}
    (hrun : M.Exec ok s rounds.flatten os s') (hrounds : ∀ r ∈ rounds, IsRound worker r)
    (hlen : work s ≤ rounds.length) (k : κ) : ¬HasWork s' k := by
  induction rounds generalizing s os with
  | nil =>
    have hstart := Exec.nil_iff.mp ⟨os, hrun⟩
    rw [hstart]
    exact fun hk => absurd (h.pos hk) (Nat.not_lt.mpr hlen)
  | cons r rounds ih =>
    rw [List.flatten_cons] at hrun
    obtain ⟨os₁, t, os₂, hfirst, hlater⟩ := hrun.exists_append
    have hlater_rounds : ∀ r ∈ rounds, IsRound worker r := fun r' hr' =>
      hrounds r' (List.mem_cons_of_mem _ hr')
    have hr := hrounds r List.mem_cons_self
    by_cases hrest : ∀ k, ¬HasWork s k
    · obtain rfl := h.stays_exec hfirst hr.1 hrest
      have hworkers : ∀ i ∈ rounds.flatten, worker i ≠ none := by
        intro i hi
        obtain ⟨r', hr', hmem⟩ := List.mem_flatten.mp hi
        exact (hlater_rounds r' hr').1 i hmem
      rw [h.stays_exec hlater hworkers hrest]
      exact hrest k
    · obtain ⟨k', hk'⟩ := not_forall_not.mp hrest
      have hlow := h.round hk' hfirst hr
      rw [List.length_cons] at hlen
      exact ih hlater hlater_rounds (by omega)

end Drains

end Machine
