import GameServer.Library.Machine
import Mathlib.Logic.Function.Basic
import Mathlib.Order.Basic

/-!
# Code under a lock

Threads call functions on shared data. The code of a call runs up to its end, or up to the lock;
under the lock it goes on step by step, and between two of these steps the other threads may take
any steps of their own. The lock is a word that a thread sets while it tests it, and that it clears
when it is through; a thread that found it set tests it again.

A thread under the lock is alone there (`Critical.Exclusive`). `Critical.Rule` is the proof rule
that follows: who proves that the code under the lock leads from one agreement with an abstract
machine to the next, and that the code of the others does not disturb it, has proved that every
interleaving is a sequence of calls of the abstract machine, in the order in which they return.

## Main definitions

* `Critical` : the code of the calls.
* `Critical.State`, `Critical.machine` : the interleavings of the threads.
* `Critical.Exclusive`, `Critical.Rule`, `Critical.Agrees`.

## Main results

* `Critical.exclusive` : mutual exclusion.
* `Critical.Rule.exists_step`, `Critical.Rule.exec` : no step faults, and every run is a run of the
  abstract machine.
* `Critical.exists_unlocked` : whoever is under the lock and takes enough steps gives it back.
-/

/-- The machine that reports each input with what it writes. -/
def Machine.logged {σ ι ο ε : Type*} (M : Machine σ ι ο ε) : Machine σ ι (ι × List ο) ε where
  step s i := (M.step s i).map fun q => (q.1, [(i, q.2)])

namespace Machine

variable {σ ι ο ε : Type*} {M : Machine σ ι ο ε} {ok : σ → ι → Prop} {s₀ s s' : σ} {i : ι}

theorem logged_step_eq_ok {o : List (ι × List ο)} :
    M.logged.step s i = .ok (s', o) ↔ ∃ os, M.step s i = .ok (s', os) ∧ o = [(i, os)] := by
  constructor
  · intro h
    obtain ⟨⟨t, os⟩, hs, hpair⟩ := Except.map_eq_ok_iff.mp h
    obtain ⟨rfl, rfl⟩ := Prod.mk.inj hpair
    exact ⟨os, hs, rfl⟩
  · rintro ⟨os, hs, rfl⟩
    exact Except.map_eq_ok_iff.mpr ⟨_, hs, rfl⟩

/-- A run that reports its inputs is a run. -/
theorem Exec.of_logged {is : List ι} {log : List (ι × List ο)}
    (h : M.logged.Exec ok s₀ is log s) : M.Exec ok s₀ is (log.flatMap Prod.snd) s := by
  induction h with
  | init => exact .init
  | next _ hok hlog ih =>
    obtain ⟨os, hs, rfl⟩ := logged_step_eq_ok.mp hlog
    rw [List.flatMap_append, List.flatMap_cons, List.flatMap_nil, List.append_nil]
    exact ih.next hok hs

end Machine

/-- What calls do: the thread that makes a call, its code up to the lock, and one step of its code
under the lock. Each of the two goes on at a place under the lock or is through with outputs. -/
structure Critical (τ κ π σ ο ε : Type*) where
  caller : κ → τ
  enter : κ → σ → Except ε (σ × (List ο ⊕ π))
  inner : π → σ → Except ε (σ × (List ο ⊕ π))

namespace Critical

variable {τ κ π σ ο ε : Type*}

/-- Where a thread is. -/
inductive Place (κ π ο : Type*) where
  /-- In no call. -/
  | outside
  /-- In the call `k` before the lock, going to `p`. -/
  | waiting (k : κ) (p : π)
  /-- In the call `k` under the lock: at a place, or about to clear the lock. -/
  | inside (k : κ) (r : List ο ⊕ π)

/-- The shared data, the word of the lock, and where the threads are. -/
structure State (τ κ π σ ο : Type*) where
  shared : σ
  lock : Bool
  place : τ → Place κ π ο

/-- What happens next: a thread makes a call, or takes one step in the call that it is in. -/
inductive Input (τ κ : Type*) where
  | call (k : κ)
  | run (t : τ)

/-- Before the first call. -/
def start (shared : σ) : State τ κ π σ ο := ⟨shared, false, fun _ => .outside⟩

variable [DecidableEq τ] (C : Critical τ κ π σ ο ε)

/-- A call that has run up to its end or up to the lock. -/
def entered (s : State τ κ π σ ο) (k : κ) (shared : σ) :
    List ο ⊕ π → State τ κ π σ ο × List (κ × List ο)
  | .inl o => ({ s with shared }, [(k, o)])
  | .inr p => ({ s with shared, place := Function.update s.place (C.caller k) (.waiting k p) }, [])

/-- A call, of a thread that is in none. -/
def call (s : State τ κ π σ ο) (k : κ) : Except ε (State τ κ π σ ο × List (κ × List ο)) :=
  match s.place (C.caller k) with
  | .outside => (C.enter k s.shared).map fun q => C.entered s k q.1 q.2
  | .waiting _ _ => .ok (s, [])
  | .inside _ _ => .ok (s, [])

/-- One step of a thread. -/
def runThread (s : State τ κ π σ ο) (t : τ) : Except ε (State τ κ π σ ο × List (κ × List ο)) :=
  match s.place t with
  | .outside => .ok (s, [])
  | .waiting k p =>
    -- The word is set in any case; what it was before decides.
    .ok ({ s with
      lock := true
      place := if s.lock then s.place else Function.update s.place t (.inside k (.inr p)) }, [])
  | .inside k (.inr p) =>
    (C.inner p s.shared).map fun q =>
      ({ s with shared := q.1, place := Function.update s.place t (.inside k q.2) }, [])
  | .inside k (.inl o) =>
    .ok ({ s with lock := false, place := Function.update s.place t .outside }, [(k, o)])

/-- The threads; the outputs are the calls that return, with what they return. -/
def machine : Machine (State τ κ π σ ο) (Input τ κ) (κ × List ο) ε where
  step s
    | .call k => C.call s k
    | .run t => C.runThread s t

/-- What a step can do. -/
inductive Step (s : State τ κ π σ ο) :
    Input τ κ → State τ κ π σ ο → List (κ × List ο) → Prop
  | busy {k} (hplace : s.place (C.caller k) ≠ .outside) : Step s (.call k) s []
  | returned {k shared o} (hplace : s.place (C.caller k) = .outside)
      (henter : C.enter k s.shared = .ok (shared, .inl o)) :
      Step s (.call k) { s with shared } [(k, o)]
  | asked {k shared p} (hplace : s.place (C.caller k) = .outside)
      (henter : C.enter k s.shared = .ok (shared, .inr p)) :
      Step s (.call k)
        { s with shared, place := Function.update s.place (C.caller k) (.waiting k p) } []
  | rested {t} (hplace : s.place t = .outside) : Step s (.run t) s []
  | spun {t k p} (hplace : s.place t = .waiting k p) (hlock : s.lock = true) : Step s (.run t) s []
  | locked {t k p} (hplace : s.place t = .waiting k p) (hfree : s.lock = false) :
      Step s (.run t)
        { s with lock := true, place := Function.update s.place t (.inside k (.inr p)) } []
  | moved {t k p shared r} (hplace : s.place t = .inside k (.inr p))
      (hinner : C.inner p s.shared = .ok (shared, r)) :
      Step s (.run t) { s with shared, place := Function.update s.place t (.inside k r) } []
  | unlocked {t k o} (hplace : s.place t = .inside k (.inl o)) :
      Step s (.run t) { s with lock := false, place := Function.update s.place t .outside } [(k, o)]

variable {C} {s s' : State τ κ π σ ο} {i : Input τ κ} {o : List (κ × List ο)}

theorem call_eq (k : κ) (h : C.call s k = .ok (s', o)) : C.Step s (.call k) s' o := by
  unfold call at h
  split at h
  next hplace =>
    obtain ⟨⟨shared, r⟩, henter, h⟩ := Except.map_eq_ok_iff.mp h
    cases r with
    | inl o' =>
      cases h
      exact .returned hplace henter
    | inr p =>
      cases h
      exact .asked hplace henter
  next hplace =>
    cases h
    exact .busy fun hout => by cases hplace.symm.trans hout
  next hplace =>
    cases h
    exact .busy fun hout => by cases hplace.symm.trans hout

theorem runThread_eq (t : τ) (h : C.runThread s t = .ok (s', o)) : C.Step s (.run t) s' o := by
  unfold runThread at h
  split at h
  next hplace =>
    cases h
    exact .rested hplace
  next k p hplace =>
    cases h
    cases hlock : s.lock with
    | true =>
      obtain ⟨shared, lock, place⟩ := s
      obtain rfl : lock = true := hlock
      exact .spun hplace rfl
    | false => exact .locked hplace hlock
  next k p hplace =>
    obtain ⟨⟨shared, r⟩, hinner, h⟩ := Except.map_eq_ok_iff.mp h
    cases h
    exact .moved hplace hinner
  next k o' hplace =>
    cases h
    exact .unlocked hplace

/-- **Inversion.** A step is one of those listed. -/
theorem machine_step (h : C.machine.step s i = .ok (s', o)) : C.Step s i s' o := by
  cases i with
  | call k => exact call_eq k h
  | run t => exact runThread_eq t h

/-! ### Mutual exclusion -/

/-- The word of the lock is set just when a thread is under the lock, and there is one at most. -/
structure Exclusive (s : State τ κ π σ ο) : Prop where
  lock_iff : s.lock = true ↔ ∃ t k r, s.place t = .inside k r
  unique : ∀ {t t' k k' r r'}, s.place t = .inside k r → s.place t' = .inside k' r' → t = t'

namespace Exclusive

omit [DecidableEq τ] in
theorem start (shared : σ) : Exclusive (start shared : State τ κ π σ ο) where
  lock_iff := ⟨fun h => (Bool.false_ne_true h).elim, fun ⟨_, _, _, h⟩ => nomatch h⟩
  unique h := nomatch h

omit [DecidableEq τ] in
theorem not_inside (h : Exclusive s) (hfree : s.lock = false) (t : τ) (k : κ) (r : List ο ⊕ π) :
    s.place t ≠ .inside k r := by
  intro hin
  have hlock := h.lock_iff.mpr ⟨t, k, r, hin⟩
  rw [hfree] at hlock
  exact Bool.false_ne_true hlock

/-- A thread that takes the lock, or has it, is alone under it. -/
theorem update_inside {t : τ} {shared : σ} (k : κ) (r : List ο ⊕ π)
    (honly : ∀ t' k' r', t' ≠ t → s.place t' ≠ .inside k' r') :
    Exclusive (⟨shared, true, Function.update s.place t (.inside k r)⟩ : State τ κ π σ ο) := by
  have heq : ∀ t' k' r', Function.update s.place t (.inside k r) t' = .inside k' r' → t' = t := by
    intro t' k' r' hin
    by_contra hne
    rw [Function.update_of_ne hne] at hin
    exact honly t' k' r' hne hin
  exact ⟨iff_of_true rfl ⟨t, k, r, Function.update_self ..⟩,
    fun ht ht' => (heq _ _ _ ht).trans (heq _ _ _ ht').symm⟩

/-- **Step lemma.** -/
theorem step (h : Exclusive s) (hstep : C.Step s i s' o) : Exclusive s' := by
  cases hstep with
  | busy | returned | rested | spun => exact ⟨h.lock_iff, h.unique⟩
  | @asked k shared p hplace henter =>
    have hsame : ∀ t k' r, Function.update s.place (C.caller k) (.waiting k p) t = .inside k' r ↔
        s.place t = .inside k' r := by
      intro t k' r
      by_cases ht : t = C.caller k
      · subst ht
        simp only [Function.update_self, hplace, reduceCtorEq]
      · rw [Function.update_of_ne ht]
    refine ⟨h.lock_iff.trans ?_,
      fun ht ht' => h.unique ((hsame _ _ _).mp ht) ((hsame _ _ _).mp ht')⟩
    simp only [hsame]
  | @locked t k p hplace hfree =>
    exact update_inside k _ fun t' k' r' _ => h.not_inside hfree t' k' r'
  | @moved t k p shared r hplace hinner =>
    obtain ⟨old, lock, place⟩ := s
    obtain rfl : lock = true := h.lock_iff.mpr ⟨t, k, _, hplace⟩
    exact update_inside (s := ⟨old, true, place⟩) k r fun t' k' r' hne hin =>
      hne (h.unique hin hplace)
  | @unlocked t k o hplace =>
    have hnone : ∀ t' k' r, Function.update s.place t .outside t' ≠ .inside k' r := by
      intro t' k' r hin
      by_cases hne : t' = t
      · subst hne
        rw [Function.update_self] at hin
        cases hin
      · rw [Function.update_of_ne hne] at hin
        exact hne (h.unique hin hplace)
    exact ⟨⟨fun hlock => (Bool.false_ne_true hlock).elim, fun ⟨t', k', r, hin⟩ =>
      (hnone t' k' r hin).elim⟩, fun hin => (hnone _ _ _ hin).elim⟩

end Exclusive

variable {ok : State τ κ π σ ο → Input τ κ → Prop} {s₀ : State τ κ π σ ο} {is : List (Input τ κ)}
  {os : List (κ × List ο)}

/-- **Mutual exclusion**, in every run. -/
theorem exclusive (h : C.machine.Exec ok s₀ is os s) (h₀ : Exclusive s₀) : Exclusive s :=
  h.invariant h₀ fun _ _ _ _ hinv _ hs => hinv.step (machine_step hs)

/-! ### The proof rule -/

/-- The call that a thread is in. -/
def Place.call? : Place κ π ο → Option κ
  | .outside => none
  | .waiting k _ => some k
  | .inside k _ => some k

section Rule

variable {α ε' : Type*}

/-- `Inv none` is the agreement of the shared data with the abstract state while the lock is free,
and `Inv (some (k, r))` while the thread in the call `k` is under the lock at `r`. `Wait k p` is
what a thread in the call `k` relies on that waits to go on at `p`. Each kind of step keeps the
agreement, and what the other threads that wait rely on; the abstract machine makes a call where
the call returns without the lock, or clears the lock. -/
structure Rule (C : Critical τ κ π σ ο ε) (A : Machine α κ ο ε') (okC : σ → κ → Prop)
    (okA : α → κ → Prop) (Inv : Option (κ × (List ο ⊕ π)) → σ → α → Prop)
    (Wait : κ → π → σ → α → Prop) : Prop where
  enter : ∀ {h s a k}, (∀ k' r, h = some (k', r) → C.caller k' ≠ C.caller k) → Inv h s a →
    okC s k →
    (∃ s' o a', C.enter k s = .ok (s', .inl o) ∧ okA a k ∧ A.step a k = .ok (a', o) ∧ Inv h s' a' ∧
      ∀ k' p, C.caller k' ≠ C.caller k → Wait k' p s a → Wait k' p s' a') ∨
    ∃ s' p, C.enter k s = .ok (s', .inr p) ∧ Inv h s' a ∧ Wait k p s' a ∧
      ∀ k' p, C.caller k' ≠ C.caller k → Wait k' p s a → Wait k' p s' a
  lock : ∀ {k p s a}, Inv none s a → Wait k p s a → Inv (some (k, .inr p)) s a
  inner : ∀ {k p s a}, Inv (some (k, .inr p)) s a →
    ∃ s' r, C.inner p s = .ok (s', r) ∧ Inv (some (k, r)) s' a ∧
      ∀ k' p', C.caller k' ≠ C.caller k → Wait k' p' s a → Wait k' p' s' a
  unlock : ∀ {k o s a}, Inv (some (k, .inl o)) s a →
    ∃ a', okA a k ∧ A.step a k = .ok (a', o) ∧ Inv none s a' ∧
      ∀ k' p', C.caller k' ≠ C.caller k → Wait k' p' s a → Wait k' p' s a'

/-- A state of the threads agrees with an abstract one. -/
structure Agrees (C : Critical τ κ π σ ο ε) (Inv : Option (κ × (List ο ⊕ π)) → σ → α → Prop)
    (Wait : κ → π → σ → α → Prop) (s : State τ κ π σ ο) (a : α) : Prop where
  exclusive : Exclusive s
  own : ∀ {t k}, (s.place t).call? = some k → C.caller k = t
  holder : ∃ h, (∀ k r, h = some (k, r) ↔ s.place (C.caller k) = .inside k r) ∧ Inv h s.shared a
  wait : ∀ {k p}, s.place (C.caller k) = .waiting k p → Wait k p s.shared a

/-- The calls that a run admits. -/
def Admits (okC : σ → κ → Prop) (s : State τ κ π σ ο) : Input τ κ → Prop
  | .call k => okC s.shared k
  | .run _ => True

variable {A : Machine α κ ο ε'} {okC : σ → κ → Prop} {okA : α → κ → Prop}
  {Inv : Option (κ × (List ο ⊕ π)) → σ → α → Prop} {Wait : κ → π → σ → α → Prop} {a a₀ : α}

namespace Agrees

omit [DecidableEq τ] in
theorem start {shared : σ} (h : Inv none shared a) :
    Agrees C Inv Wait (Critical.start shared) a where
  exclusive := .start shared
  own h := nomatch h
  holder := ⟨none, fun _ _ => iff_of_false (fun h => nomatch h) (fun h => nomatch h), h⟩
  wait hin := nomatch hin

omit [DecidableEq τ] in
/-- Nobody is under a free lock. -/
theorem free (h : Agrees C Inv Wait s a) (hfree : s.lock = false) : Inv none s.shared a := by
  obtain ⟨holder, hiff, hinv⟩ := h.holder
  cases holder with
  | none => exact hinv
  | some kr => exact absurd ((hiff kr.1 kr.2).mp rfl) (h.exclusive.not_inside hfree _ _ _)

omit [DecidableEq τ] in
theorem held (h : Agrees C Inv Wait s a) {t : τ} {k : κ} {r : List ο ⊕ π}
    (hin : s.place t = .inside k r) : C.caller k = t ∧ Inv (some (k, r)) s.shared a := by
  have hown : C.caller k = t := h.own (congrArg Place.call? hin)
  obtain ⟨holder, hiff, hinv⟩ := h.holder
  subst hown
  rw [(hiff k r).mpr hin] at hinv
  exact ⟨rfl, hinv⟩

/-- Where the thread of a call is after a step of its own: the call that it is in is its own. -/
theorem own_update (h : Agrees C Inv Wait s a) {t : τ} {place : Place κ π ο}
    (hplace : ∀ k, place.call? = some k → C.caller k = t) {t' : τ} {k : κ}
    (hcall : (Function.update s.place t place t').call? = some k) : C.caller k = t' := by
  by_cases ht : t' = t
  · subst ht
    rw [Function.update_self] at hcall
    exact hplace k hcall
  · rw [Function.update_of_ne ht] at hcall
    exact h.own hcall

/-- Whoever is under the lock has moved to another place, or has taken the lock. -/
theorem moved (h : Agrees C Inv Wait s a) {shared : σ} {lock : Bool} {k : κ} {r : List ο ⊕ π}
    (hex : Exclusive (⟨shared, lock, Function.update s.place (C.caller k) (.inside k r)⟩ :
      State τ κ π σ ο))
    (hinv : Inv (some (k, r)) shared a)
    (hwait : ∀ k' p', C.caller k' ≠ C.caller k → Wait k' p' s.shared a → Wait k' p' shared a) :
    Agrees C Inv Wait ⟨shared, lock, Function.update s.place (C.caller k) (.inside k r)⟩ a where
  exclusive := hex
  own hcall := h.own_update (fun k' hk' => Option.some.inj hk' ▸ rfl) hcall
  holder := by
    refine ⟨some (k, r), fun k' r' => ?_, hinv⟩
    constructor
    · rintro ⟨⟩
      exact Function.update_self ..
    · intro hin
      have hcaller := hex.unique (Function.update_self ..) hin
      simp only [← hcaller, Function.update_self, Place.inside.injEq] at hin
      rw [hin.1, hin.2]
  wait {k' p'} hw := by
    by_cases hne : C.caller k' = C.caller k
    · simp only [hne, Function.update_self, reduceCtorEq] at hw
    · simp only [Function.update_of_ne hne] at hw
      exact hwait k' p' hne (h.wait hw)

end Agrees

namespace Rule

/-- **Step lemma.** The abstract machine follows every step. -/
theorem follows (hR : Rule C A okC okA Inv Wait) (h : Agrees C Inv Wait s a)
    (hok : Admits okC s i) (hstep : C.Step s i s' o) :
    (o = [] ∧ Agrees C Inv Wait s' a) ∨ ∃ k x a', o = [(k, x)] ∧ okA a k ∧
      A.step a k = .ok (a', x) ∧ Agrees C Inv Wait s' a' := by
  have hex := h.exclusive.step hstep
  cases hstep with
  | busy | rested | spun => exact .inl ⟨rfl, h⟩
  | @returned k shared o hplace henter =>
    obtain ⟨holder, hiff, hinv⟩ := h.holder
    have hne : ∀ k' r, holder = some (k', r) → C.caller k' ≠ C.caller k := by
      intro k' r hholder he
      cases hplace.symm.trans (he ▸ (hiff _ _).mp hholder)
    rcases hR.enter hne hinv hok with ⟨shared', o', a', he, hokA, hs, hinv', hwait⟩ | ⟨_, p, he, -⟩
    · cases henter.symm.trans he
      refine .inr ⟨k, o, a', rfl, hokA, hs, hex, h.own, ⟨holder, hiff, hinv'⟩, fun {k' p} hw => ?_⟩
      refine hwait k' p (fun hcaller => ?_) (h.wait hw)
      cases hplace.symm.trans (hcaller ▸ hw)
    · cases henter.symm.trans he
  | @asked k shared p hplace henter =>
    obtain ⟨holder, hiff, hinv⟩ := h.holder
    have hne : ∀ k' r, holder = some (k', r) → C.caller k' ≠ C.caller k := by
      intro k' r hholder he
      cases hplace.symm.trans (he ▸ (hiff _ _).mp hholder)
    rcases hR.enter hne hinv hok with ⟨_, o', a', he, -⟩ | ⟨shared', p', he, hinv', hnew, hwait⟩
    · cases henter.symm.trans he
    · cases henter.symm.trans he
      refine .inl ⟨rfl, hex, h.own_update (fun k' hk' => Option.some.inj hk' ▸ rfl),
        ⟨holder, fun k' r => ?_, hinv'⟩, fun {k' p'} hw => ?_⟩
      · by_cases hk : C.caller k' = C.caller k
        · simp only [hk, Function.update_self, reduceCtorEq, iff_false]
          exact fun hholder => hne _ _ hholder hk
        · simpa only [Function.update_of_ne hk] using hiff k' r
      · by_cases hk : C.caller k' = C.caller k
        · simp only [hk, Function.update_self, Place.waiting.injEq] at hw
          rw [← hw.1, ← hw.2]
          exact hnew
        · simp only [Function.update_of_ne hk] at hw
          exact hwait k' p' hk (h.wait hw)
  | @locked t k p hplace hfree =>
    obtain rfl := h.own (congrArg Place.call? hplace)
    exact .inl ⟨rfl, h.moved hex (hR.lock (h.free hfree) (h.wait hplace)) fun _ _ _ hw => hw⟩
  | @moved t k p shared r hplace hinner =>
    obtain ⟨rfl, hinv⟩ := h.held hplace
    obtain ⟨shared', r', hi, hinv', hwait⟩ := hR.inner hinv
    cases hinner.symm.trans hi
    exact .inl ⟨rfl, h.moved hex hinv' hwait⟩
  | @unlocked t k o hplace =>
    obtain ⟨rfl, hinv⟩ := h.held hplace
    obtain ⟨a', hokA, hs, hinv', hwait⟩ := hR.unlock hinv
    refine .inr ⟨k, o, a', rfl, hokA, hs, hex, h.own_update (by rintro k' ⟨⟩),
      ⟨none, fun k' r => ?_, hinv'⟩, fun {k' p'} hw => ?_⟩
    · exact iff_of_false (fun hnone => nomatch hnone) (hex.not_inside rfl _ k' r)
    · by_cases hk : C.caller k' = C.caller k
      · simp only [hk, Function.update_self, reduceCtorEq] at hw
      · simp only [Function.update_of_ne hk] at hw
        exact hwait k' p' hk (h.wait hw)

/-- No step faults. -/
theorem exists_step (hR : Rule C A okC okA Inv Wait) (h : Agrees C Inv Wait s a)
    (hok : Admits okC s i) : ∃ s' o, C.machine.step s i = .ok (s', o) := by
  cases i with
  | call k =>
    simp only [machine, call]
    cases hplace : s.place (C.caller k) with
    | outside =>
      obtain ⟨holder, hiff, hinv⟩ := h.holder
      have hne : ∀ k' r, holder = some (k', r) → C.caller k' ≠ C.caller k := by
        intro k' r hholder he
        cases hplace.symm.trans (he ▸ (hiff _ _).mp hholder)
      rcases hR.enter hne hinv hok with ⟨_, _, _, he, -⟩ | ⟨_, _, he, -⟩ <;>
        exact ⟨_, _, congrArg (Except.map _) he⟩
    | waiting k' p => exact ⟨_, _, rfl⟩
    | inside k' r => exact ⟨_, _, rfl⟩
  | run t =>
    simp only [machine, runThread]
    cases hplace : s.place t with
    | outside => exact ⟨_, _, rfl⟩
    | waiting k p => exact ⟨_, _, rfl⟩
    | inside k r =>
      cases r with
      | inl o => exact ⟨_, _, rfl⟩
      | inr p =>
        obtain ⟨shared, r, hi, -⟩ := hR.inner (h.held hplace).2
        exact ⟨_, _, congrArg (Except.map _) hi⟩

/-- **Run lemma.** The calls that return, in the order in which they do and with what they return,
are a run of the abstract machine. -/
theorem exec (hR : Rule C A okC okA Inv Wait) (h : C.machine.Exec (Admits okC) s₀ is os s)
    (h₀ : Agrees C Inv Wait s₀ a₀) :
    ∃ a, A.logged.Exec okA a₀ (os.map Prod.fst) os a ∧ Agrees C Inv Wait s a := by
  refine h.invariant_outputs (P := fun os s => ∃ a, A.logged.Exec okA a₀ (os.map Prod.fst) os a ∧
    Agrees C Inv Wait s a) ⟨a₀, .init, h₀⟩ ?_
  rintro os s i s' o ⟨a, hexec, hagree⟩ hok hs
  rcases hR.follows hagree hok (machine_step hs) with
    ⟨rfl, hagree'⟩ | ⟨k, x, a', rfl, hk, hA, hagree'⟩
  · rw [List.append_nil]
    exact ⟨a, hexec, hagree'⟩
  · rw [List.map_append]
    exact ⟨a', hexec.next hk (Machine.logged_step_eq_ok.mpr ⟨x, hA, rfl⟩), hagree'⟩

end Rule

end Rule

/-! ### The lock is given back -/

/-- Whether a step is one of the thread. -/
def Input.isRun (t : τ) : Input τ κ → Bool
  | .call _ => false
  | .run t' => t' = t

/-- How many steps a thread takes to clear the lock. -/
def remaining (size : π → ℕ) : List ο ⊕ π → ℕ
  | .inl _ => 1
  | .inr p => size p + 1

/-- The steps under the lock are bounded by `size`. -/
def Bounded (C : Critical τ κ π σ ο ε) (size : π → ℕ) : Prop :=
  ∀ p s s' r, C.inner p s = .ok (s', r) → remaining size r ≤ size p

variable {size : π → ℕ} {t : τ} {k : κ} {r : List ο ⊕ π}

omit [DecidableEq τ] in
theorem remaining_pos (r : List ο ⊕ π) : 0 < remaining size r := by
  cases r with
  | inl o => exact Nat.one_pos
  | inr p => exact Nat.succ_pos _

/-- A step of a thread under the lock clears the lock or brings the thread nearer to that. -/
theorem Step.own (hsize : C.Bounded size) (h : C.Step s (.run t) s' o)
    (hin : s.place t = .inside k r) : s'.lock = false ∨
      ∃ r', s'.place t = .inside k r' ∧ remaining size r' < remaining size r := by
  cases h with
  | rested hplace => cases hin.symm.trans hplace
  | spun hplace => cases hin.symm.trans hplace
  | locked hplace => cases hin.symm.trans hplace
  | @moved _ k' p shared r' hplace hinner =>
    obtain ⟨rfl, rfl⟩ := Place.inside.inj (hin.symm.trans hplace)
    exact .inr ⟨r', Function.update_self .., Nat.lt_succ_of_le (hsize p _ _ _ hinner)⟩
  | unlocked => exact .inl rfl

/-- A thread under the lock stays where it is while another thread takes a step. -/
theorem Step.other (h : C.Step s i s' o) (hex : Exclusive s) (hin : s.place t = .inside k r)
    (hne : i ≠ .run t) : s'.place t = .inside k r := by
  have hupdate : ∀ {t' place}, t ≠ t' → Function.update s.place t' place t = .inside k r :=
    fun ht => (Function.update_of_ne ht ..).trans hin
  cases h with
  | busy | returned | rested | spun => exact hin
  | asked hplace =>
    refine hupdate ?_
    rintro rfl
    cases hin.symm.trans hplace
  | locked _ hfree => exact absurd hin (hex.not_inside hfree t k r)
  | moved hplace => exact absurd (congrArg Input.run (hex.unique hplace hin)) hne
  | unlocked hplace => exact absurd (congrArg Input.run (hex.unique hplace hin)) hne

/-- **Progress.** A thread under the lock that takes as many steps as remain to it clears the lock
in one of them, whatever the other threads do in between. -/
theorem exists_unlocked (hsize : C.Bounded size) (h : C.machine.Exec ok s₀ is os s)
    (hex : Exclusive s₀) (hin : s₀.place t = .inside k r)
    (hcount : remaining size r ≤ is.countP (Input.isRun t)) :
    ∃ is₁ is₂ os₁ s₁, is = is₁ ++ is₂ ∧ C.machine.Exec ok s₀ is₁ os₁ s₁ ∧ s₁.lock = false := by
  -- Until it clears the lock, the steps taken and those that remain are bounded.
  have hrun : (∃ is₁ is₂ os₁ s₁, is = is₁ ++ is₂ ∧ C.machine.Exec ok s₀ is₁ os₁ s₁ ∧
      s₁.lock = false) ∨ ∃ r', s.place t = .inside k r' ∧
        remaining size r' + is.countP (Input.isRun t) ≤ remaining size r := by
    clear hcount
    induction h with
    | init => exact .inr ⟨r, hin, by simp only [List.countP_nil, Nat.add_zero, Nat.le_refl]⟩
    | @next is os s i s' o h hok hs ih =>
      rcases ih with ⟨is₁, is₂, os₁, s₁, rfl, h₁, hfree⟩ | ⟨r₁, hin₁, hle⟩
      · exact .inl ⟨is₁, is₂ ++ [i], os₁, s₁, List.append_assoc .., h₁, hfree⟩
      have hstep := machine_step hs
      rw [List.countP_append, List.countP_singleton]
      by_cases hi : i = .run t
      · subst hi
        rcases hstep.own hsize hin₁ with hfree | ⟨r₂, hin₂, hlt⟩
        · exact .inl ⟨_, [], _, s', (List.append_nil _).symm, h.next hok hs, hfree⟩
        · refine .inr ⟨r₂, hin₂, ?_⟩
          simp only [Input.isRun, decide_true, if_true]
          omega
      · have hidle : Input.isRun t i = false := by
          cases i with
          | call k => rfl
          | run t' => exact decide_eq_false fun ht => hi (congrArg Input.run ht)
        refine .inr ⟨r₁, hstep.other (exclusive h hex) hin₁ hi, ?_⟩
        simpa only [hidle, Bool.false_eq_true, if_false, Nat.add_zero] using hle
  rcases hrun with hdone | ⟨r', -, hle⟩
  · exact hdone
  · have hpos : 0 < remaining size r' := remaining_pos r'
    omega

end Critical
