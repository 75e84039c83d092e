import Mathlib.Logic.Basic
import Mathlib.Data.List.Basic

/-!
# Machines with faults and outputs

A machine reads one input at a time. A step either stops with a fault or reaches a new state and
writes a list of outputs. `Machine.Exec` collects the runs none of whose steps faults and all of
whose steps meet a condition on the state before the step and the input read there; the condition
`Machine.any` admits every step. Facts about whole runs are derived from facts about one step by
`Machine.Exec.invariant`, `Machine.Exec.invariant_outputs` and `Machine.Exec.invariant_inputs`.

## Main definitions

* `Machine`, `Machine.Exec`, `Machine.any`.
* `Machine.run`, `Machine.runStep` : the executable run over a list of inputs.
* `Machine.withGhost` : the machine with a component that only records.

## Main results

* `Machine.Exec.invariant`, `Machine.Exec.invariant_outputs`, `Machine.Exec.invariant_inputs` :
  induction over runs.
* `Machine.exec_of_run`, `Machine.exec_of_run_map`, `Machine.exec_step_of_runStep_map` : a
  computed run is a run.
-/

universe u v

/-- A sequence of two fallible computations returns exactly when both return. -/
theorem Except.bind_eq_ok_iff {ε : Type u} {α β : Type v} {x : Except ε α} {f : α → Except ε β}
    {b : β} : (x >>= f) = .ok b ↔ ∃ a, x = .ok a ∧ f a = .ok b := by
  rcases x with e | a <;> simp only [bind, Except.bind, reduceCtorEq, false_and, exists_false,
    Except.ok.injEq, exists_eq_left']

/-- A sequence of two fallible computations fails when the first fails, or when the second fails
on the result of the first. -/
theorem Except.bind_eq_error_iff {ε : Type u} {α β : Type v} {x : Except ε α}
    {f : α → Except ε β} {e : ε} :
    (x >>= f) = .error e ↔ x = .error e ∨ ∃ a, x = .ok a ∧ f a = .error e := by
  rcases x with e' | a <;> simp only [bind, Except.bind, Except.error.injEq, reduceCtorEq,
    false_and, exists_false, or_false, false_or, Except.ok.injEq, exists_eq_left']

/-- A computation whose result is mapped returns and fails when the computation does. -/
theorem Except.map_eq_ok_iff {ε α β : Type*} {f : α → β} {x : Except ε α} {b : β} :
    x.map f = .ok b ↔ ∃ a, x = .ok a ∧ f a = b := by
  rcases x with e | a <;> simp only [Except.map, reduceCtorEq, false_and, exists_false,
    Except.ok.injEq, exists_eq_left']

@[inherit_doc Except.map_eq_ok_iff]
theorem Except.map_eq_error_iff {ε α β : Type*} {f : α → β} {x : Except ε α} {e : ε} :
    x.map f = .error e ↔ x = .error e := by
  rcases x with e' | a <;> simp only [Except.map, Except.error.injEq, reduceCtorEq]

theorem Except.exists_map_eq_ok {ε α β : Type*} {f : α → β} {x : Except ε α} :
    (∃ b, x.map f = .ok b) ↔ ∃ a, x = .ok a := by
  simp only [Except.map_eq_ok_iff, exists_comm (α := β), exists_and_left, exists_eq', and_true]

/-- A machine: each step reads an input and either faults or yields a state and outputs. -/
structure Machine (σ ι ο ε : Type*) where
  /-- One step from a state on an input. -/
  step : σ → ι → Except ε (σ × List ο)

namespace Machine

variable {σ ι ο ε : Type*}

/-- The condition that every step meets. -/
def any : σ → ι → Prop := fun _ _ => True

variable (M : Machine σ ι ο ε)

/-- `M.Exec ok s₀ is os s`: from `s₀` the machine reads `is`, writes `os` and ends in `s`, without
a fault and with every step meeting `ok`. -/
inductive Exec (ok : σ → ι → Prop) (s₀ : σ) : List ι → List ο → σ → Prop
  | init : Exec ok s₀ [] [] s₀
  | next {is os s i s' o} (h : Exec ok s₀ is os s) (hok : ok s i)
      (hstep : M.step s i = .ok (s', o)) : Exec ok s₀ (is ++ [i]) (os ++ o) s'

namespace Exec

variable {M} {ok ok' : σ → ι → Prop} {s₀ s : σ} {is : List ι} {os : List ο}

/-- **Run lemma.** What holds at the start and is kept by every admitted step holds at the end of
every run. -/
theorem invariant {P : σ → Prop} (h : M.Exec ok s₀ is os s) (h₀ : P s₀)
    (hstep : ∀ s i s' o, P s → ok s i → M.step s i = .ok (s', o) → P s') : P s := by
  induction h with
  | init => exact h₀
  | next _ hok hs ih => exact hstep _ _ _ _ ih hok hs

/-- **Run lemma with history.** The invariant may speak of everything written so far. -/
theorem invariant_outputs {P : List ο → σ → Prop} (h : M.Exec ok s₀ is os s) (h₀ : P [] s₀)
    (hstep : ∀ os s i s' o, P os s → ok s i → M.step s i = .ok (s', o) → P (os ++ o) s') :
    P os s := by
  induction h with
  | init => exact h₀
  | next _ hok hs ih => exact hstep _ _ _ _ _ ih hok hs

/-- **Run lemma over the inputs.** The invariant may speak of everything read so far. -/
theorem invariant_inputs {P : List ι → σ → Prop} (h : M.Exec ok s₀ is os s) (h₀ : P [] s₀)
    (hstep : ∀ is s i s' o, P is s → ok s i → M.step s i = .ok (s', o) → P (is ++ [i]) s') :
    P is s := by
  induction h with
  | init => exact h₀
  | next _ hok hs ih => exact hstep _ _ _ _ _ ih hok hs

/-- A run whose steps meet a condition meets every weaker one. -/
theorem mono (h : M.Exec ok s₀ is os s) (himp : ∀ s i, ok s i → ok' s i) :
    M.Exec ok' s₀ is os s := by
  induction h with
  | init => exact .init
  | next _ hok hs ih => exact ih.next (himp _ _ hok) hs

/-- What every output of a run meets, if the outputs of a step meet it just when the step meets a
condition: the run is one whose steps all meet the condition. -/
theorem forall_outputs_iff {Q : ο → Prop} (h : M.Exec any s₀ is os s)
    (hstep : ∀ s i s' o, M.step s i = .ok (s', o) → ((∀ x ∈ o, Q x) ↔ ok s i)) :
    (∀ x ∈ os, Q x) ↔ M.Exec ok s₀ is os s := by
  constructor
  · intro hall
    induction h with
    | init => exact .init
    | next _ _ hs ih =>
      obtain ⟨hold, hnew⟩ := List.forall_mem_append.mp hall
      exact (ih hold).next ((hstep _ _ _ _ hs).mp hnew) hs
  · intro h
    induction h with
    | init => exact List.forall_mem_nil Q
    | next h' hok hs ih =>
      exact List.forall_mem_append.mpr ⟨ih (h'.mono fun _ _ _ => trivial),
        (hstep _ _ _ _ hs).mpr hok⟩

/-- Runs compose. -/
theorem append {s' : σ} {is' : List ι} {os' : List ο} (h : M.Exec ok s₀ is os s)
    (h' : M.Exec ok s is' os' s') : M.Exec ok s₀ (is ++ is') (os ++ os') s' := by
  induction h' with
  | init => simpa using h
  | next _ hok hs ih => simpa only [List.append_assoc] using Exec.next ih hok hs

/-- A run without inputs stays where it is. -/
theorem nil_iff : (∃ os, M.Exec ok s₀ [] os s) ↔ s = s₀ := by
  constructor
  · rintro ⟨os, h⟩
    generalize hnil : [] = is at h
    cases h with
    | init => rfl
    | next => exact absurd hnil.symm (List.append_ne_nil_of_right_ne_nil _ (List.cons_ne_nil _ _))
  · rintro rfl
    exact ⟨[], .init⟩

/-- A run ends with its last step. -/
theorem concat_iff {i : ι} {s' : σ} : (∃ os, M.Exec ok s₀ (is ++ [i]) os s') ↔
    ∃ s, (∃ os, M.Exec ok s₀ is os s) ∧ ok s i ∧ ∃ o, M.step s i = .ok (s', o) := by
  constructor
  · rintro ⟨os, h⟩
    generalize his : is ++ [i] = js at h
    cases h with
    | init => exact absurd his (List.append_ne_nil_of_right_ne_nil _ (List.cons_ne_nil _ _))
    | next h hok hs =>
      obtain ⟨rfl, hi⟩ := List.append_inj' his rfl
      obtain rfl := List.cons.inj hi |>.1
      exact ⟨_, ⟨_, h⟩, hok, _, hs⟩
  · rintro ⟨s, ⟨os, h⟩, hok, o, hs⟩
    exact ⟨os ++ o, h.next hok hs⟩

/-- Inputs that never change the state can be left out of a run; some of its outputs go with
them. -/
theorem filter {p : ι → Bool} (h : M.Exec ok s₀ is os s)
    (hidle : ∀ s i s' o, p i = false → M.step s i = .ok (s', o) → s' = s) :
    ∃ os', M.Exec ok s₀ (is.filter p) os' s ∧ os'.Sublist os := by
  induction h with
  | init => exact ⟨[], .init, .slnil⟩
  | @next is os s i s' o h' hok hs ih =>
    obtain ⟨os', hrun, hsub⟩ := ih
    rw [List.filter_append]
    cases hp : p i with
    | true =>
      rw [List.filter_cons_of_pos hp]
      exact ⟨os' ++ o, hrun.next hok hs, hsub.append (List.Sublist.refl o)⟩
    | false =>
      rw [List.filter_cons_of_neg (by simp only [hp, Bool.false_eq_true, not_false_iff]),
        List.filter_nil, List.append_nil, hidle _ _ _ _ hp hs]
      exact ⟨os', hrun, hsub.trans (List.sublist_append_left os o)⟩

/-- The run of a single step. -/
theorem single {s' : σ} {i : ι} {o : List ο} (hok : ok s i) (hstep : M.step s i = .ok (s', o)) :
    M.Exec ok s [i] o s' :=
  .next .init hok hstep

end Exec

instance (s : σ) (i : ι) : Decidable (any s i) := .isTrue trivial

/-- The executable run over a list of inputs; it stops where a step faults or does not meet the
condition. -/
def run (ok : σ → ι → Prop) [∀ s i, Decidable (ok s i)] (s : σ) :
    List ι → Option (σ × List ο)
  | [] => some (s, [])
  | i :: is =>
    if ok s i then
      match M.step s i with
      | .error _ => none
      | .ok (s', o) => (run ok s' is).map fun p => (p.1, o ++ p.2)
    else none

/-- A computed run is a run of the machine. -/
theorem exec_of_run {ok : σ → ι → Prop} [∀ s i, Decidable (ok s i)] {s s' : σ} {is : List ι}
    {os : List ο} (h : M.run ok s is = some (s', os)) : M.Exec ok s is os s' := by
  induction is generalizing s os with
  | nil =>
    simp only [run, Option.some.injEq, Prod.mk.injEq] at h
    obtain ⟨rfl, rfl⟩ := h
    exact .init
  | cons i is ih =>
    simp only [run] at h
    split_ifs at h with hok
    split at h
    · cases h
    · next s₁ o hs =>
      obtain ⟨⟨s₂, os'⟩, hr, he⟩ := Option.map_eq_some_iff.mp h
      obtain ⟨rfl, rfl⟩ := Prod.mk.inj he
      exact (Exec.single hok hs).append (ih hr)

/-- A computed run of which only an observation `f` is known: the form in which a run over
concrete inputs is evaluated. -/
theorem exec_of_run_map {α : Type*} {ok : σ → ι → Prop} [∀ s i, Decidable (ok s i)] {s : σ}
    {is : List ι} {f : σ × List ο → α} {a : α} (h : (M.run ok s is).map f = some a) :
    ∃ s' os, M.Exec ok s is os s' ∧ f (s', os) = a := by
  obtain ⟨⟨s', os⟩, hr, hf⟩ := Option.map_eq_some_iff.mp h
  exact ⟨s', os, M.exec_of_run hr, hf⟩

/-- The executable run with one step more: the state before that step and what it yields. -/
def runStep (ok : σ → ι → Prop) [∀ s i, Decidable (ok s i)] (s : σ) (is : List ι) (i : ι) :
    Option (σ × σ × List ο) :=
  (M.run ok s is).bind fun p => (M.step p.1 i).toOption.map fun q => (p.1, q)

/-- A computed run with one step more, of which only an observation `f` is known. -/
theorem exec_step_of_runStep_map {α : Type*} {ok : σ → ι → Prop} [∀ s i, Decidable (ok s i)]
    {s : σ} {is : List ι} {i : ι} {f : σ × σ × List ο → α} {a : α}
    (h : (M.runStep ok s is i).map f = some a) :
    ∃ s₁ os s₂ o, M.Exec ok s is os s₁ ∧ M.step s₁ i = .ok (s₂, o) ∧ f (s₁, s₂, o) = a := by
  obtain ⟨⟨s₁, s₂, o⟩, h, hf⟩ := Option.map_eq_some_iff.mp h
  obtain ⟨⟨s₁, os⟩, hr, h⟩ := Option.bind_eq_some_iff.mp h
  obtain ⟨q, hs, he⟩ := Option.map_eq_some_iff.mp h
  obtain ⟨rfl, rfl⟩ := Prod.mk.inj he
  refine ⟨s₁, os, s₂, o, M.exec_of_run hr, ?_, hf⟩
  cases hstep : M.step s₁ i with
  | error e =>
    rw [hstep] at hs
    cases hs
  | ok q =>
    rw [hstep] at hs
    exact congrArg _ (Option.some.inj hs)

/-- The machine with a ghost: `record` updates it at every step, and no step depends on it. -/
def withGhost {γ : Type*} (record : σ → ι → γ → γ) : Machine (σ × γ) ι ο ε where
  step s i := (M.step s.1 i).map fun p => ((p.1, record s.1 i s.2), p.2)

variable {M} in
theorem withGhost_step_eq_ok {γ : Type*} {record : σ → ι → γ → γ} {s s' : σ × γ} {i : ι}
    {o : List ο} : (M.withGhost record).step s i = .ok (s', o) ↔
      M.step s.1 i = .ok (s'.1, o) ∧ s'.2 = record s.1 i s.2 := by
  obtain ⟨t', g'⟩ := s'
  constructor
  · intro h
    obtain ⟨⟨t, o'⟩, hs, hpair⟩ := Except.map_eq_ok_iff.mp h
    obtain ⟨hstate, rfl⟩ := Prod.mk.inj hpair
    obtain ⟨rfl, rfl⟩ := Prod.mk.inj hstate
    exact ⟨hs, rfl⟩
  · rintro ⟨hs, rfl⟩
    exact Except.map_eq_ok_iff.mpr ⟨_, hs, rfl⟩

variable {M} in
/-- A run of the machine with a ghost is a run without it. -/
theorem Exec.withoutGhost {γ : Type*} {record : σ → ι → γ → γ} {ok : σ × γ → ι → Prop}
    {s s' : σ × γ} {is : List ι} {os : List ο} (h : (M.withGhost record).Exec ok s is os s') :
    M.Exec any s.1 is os s'.1 := by
  induction h with
  | init => exact .init
  | next _ _ hs ih => exact ih.next trivial (withGhost_step_eq_ok.mp hs).1

end Machine
