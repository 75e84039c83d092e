import Mathlib.Logic.Function.Basic
import Mathlib.Data.List.Induction

/-!
# Presence in rooms

Members enter a room, look around in it, join in at a place, move and leave. Whoever looks around
is told of those that take part in the room; those that take part are told of everyone that joins
in, moves or leaves there. From what it is told a member pictures the others.

Between looking around and joining in a member is told nothing, and misses what the others do. Of
everybody else it has an exact picture: who takes part in its room, and where.

## Main definitions

* `Presence.Notice`, `Presence.picture` : what a member is told, and the picture it makes of it.
* `Presence.State`, `Presence.Step`, `Presence.Run` : the members and what they do.
* `Presence.Deed.missed` : who has missed whom.

## Main results

* `Presence.Run.pictured` : the pictures are exact.
-/

namespace Presence

variable {υ ρ π : Type*}

/-! ### Pictures -/

/-- What a member can be told. -/
inductive Notice (υ π : Type*) where
  /-- What it was told before counts no more. -/
  | fresh
  | present (v : υ) (x : π)
  | gone (v : υ)
deriving DecidableEq, Repr

/-- The same notice under other names. -/
def Notice.map {υ' : Type*} (f : υ → υ') : Notice υ π → Notice υ' π
  | .fresh => .fresh
  | .present v x => .present (f v) x
  | .gone v => .gone (f v)

section Picture

variable [DecidableEq υ]

/-- A picture after a notice. -/
def hear (p : υ → Option π) : Notice υ π → υ → Option π
  | .fresh => fun _ => none
  | .present v x => Function.update p v (some x)
  | .gone v => Function.update p v none

/-- The others that a member knows of, and where, from all that it was told. -/
def picture (notes : List (Notice υ π)) : υ → Option π :=
  notes.foldl hear fun _ => none

theorem picture_append (notes new : List (Notice υ π)) :
    picture (notes ++ new) = new.foldl hear (picture notes) :=
  List.foldl_append

theorem picture_append_present (notes : List (Notice υ π)) (v : υ) (x : π) :
    picture (notes ++ [.present v x]) = Function.update (picture notes) v (some x) :=
  picture_append notes _

theorem picture_append_gone (notes : List (Notice υ π)) (v : υ) :
    picture (notes ++ [.gone v]) = Function.update (picture notes) v none :=
  picture_append notes _

/-- Who is told of the members `l` knows them, besides those known before. -/
theorem foldl_hear_present (place : υ → π) (p : υ → Option π) (l : List υ) (v : υ) :
    (l.map fun v => Notice.present v (place v)).foldl hear p v =
      if v ∈ l then some (place v) else p v := by
  induction l generalizing p with
  | nil => rfl
  | cons u l ih =>
    rw [List.map_cons, List.foldl_cons, ih]
    by_cases hl : v ∈ l
    · rw [if_pos hl, if_pos (List.mem_cons_of_mem u hl)]
    · rw [if_neg hl, hear]
      by_cases hv : v = u
      · subst hv
        rw [Function.update_self, if_pos List.mem_cons_self]
      · rw [Function.update_of_ne hv, if_neg]
        simp only [List.mem_cons, hv, hl, or_self, not_false_iff]

/-- Who looks around knows the members that take part, and no others. -/
theorem picture_append_fresh (notes : List (Notice υ π)) (place : υ → π) (l : List υ) (v : υ) :
    picture (notes ++ .fresh :: l.map fun v => .present v (place v)) v =
      if v ∈ l then some (place v) else none := by
  rw [picture_append, List.foldl_cons, foldl_hear_present]
  rfl

/-- Different members under different names are told apart. -/
theorem picture_map {υ' : Type*} [DecidableEq υ'] {f : υ → υ'} (hf : Function.Injective f)
    (notes : List (Notice υ π)) (v : υ) :
    picture (notes.map (Notice.map f)) (f v) = picture notes v := by
  induction notes using List.reverseRecOn generalizing v with
  | nil => rfl
  | append_singleton notes n ih =>
    rw [List.map_append, picture_append, picture_append, List.map_singleton]
    simp only [List.foldl_cons, List.foldl_nil]
    cases n with
    | fresh => rfl
    | present u x =>
      by_cases hv : v = u
      · subst hv
        simp only [Notice.map, hear, Function.update_self]
      · simp only [Notice.map, hear, Function.update_of_ne hv, Function.update_of_ne (hf.ne hv), ih]
    | gone u =>
      by_cases hv : v = u
      · subst hv
        simp only [Notice.map, hear, Function.update_self]
      · simp only [Notice.map, hear, Function.update_of_ne hv, Function.update_of_ne (hf.ne hv), ih]

omit [DecidableEq υ] in
/-- Nobody is known under a name that is no member's. -/
theorem picture_map_eq_none {υ' : Type*} [DecidableEq υ'] {f : υ → υ'} {k : υ'}
    (hk : ∀ v, f v ≠ k) (notes : List (Notice υ π)) :
    picture (notes.map (Notice.map f)) k = none := by
  induction notes using List.reverseRecOn with
  | nil => rfl
  | append_singleton notes n ih =>
    rw [List.map_append, picture_append, List.map_singleton]
    simp only [List.foldl_cons, List.foldl_nil]
    cases n with
    | fresh => rfl
    | present u x => simp only [Notice.map, hear, Function.update_of_ne (hk u).symm, ih]
    | gone u => simp only [Notice.map, hear, Function.update_of_ne (hk u).symm, ih]

end Picture

/-! ### Rooms -/

/-- Who is in which room, has looked around there and takes part, and where. -/
structure State (υ ρ π : Type*) where
  room : υ → Option ρ
  place : υ → π
  seen : υ → Prop
  playing : υ → Prop

/-- The members that take part in a room. -/
def State.In (s : State υ ρ π) (r : ρ) (v : υ) : Prop := s.playing v ∧ s.room v = some r

/-- Two states agree about a member. -/
structure State.SameAt (s s' : State υ ρ π) (w : υ) : Prop where
  room : s.room w = s'.room w
  place : s.place w = s'.place w
  seen : s.seen w ↔ s'.seen w
  playing : s.playing w ↔ s'.playing w

theorem State.eq_of_sameAt {s s' : State υ ρ π} (h : ∀ w, s.SameAt s' w) : s = s' := by
  obtain ⟨room, place, seen, playing⟩ := s
  obtain rfl : room = s'.room := funext fun w => (h w).room
  obtain rfl : place = s'.place := funext fun w => (h w).place
  obtain rfl : seen = s'.seen := funext fun w => propext (h w).seen
  obtain rfl : playing = s'.playing := funext fun w => propext (h w).playing
  rfl

/-- Before anybody has entered. -/
def State.empty (place : υ → π) : State υ ρ π :=
  ⟨fun _ => none, place, fun _ => False, fun _ => False⟩

/-- Whose doing a step is; joining in, moving and leaving are what the others notice. -/
inductive Deed (υ : Type*) where
  | quiet
  | enters (u : υ)
  | looks (u : υ)
  | acts (u : υ)

/-- The notices `l` go to the members in `A`, and nothing to the others. -/
def Tells (n : υ → List (Notice υ π)) (A : υ → Prop) (l : List (Notice υ π)) : Prop :=
  ∀ w, (A w → n w = l) ∧ (¬A w → n w = [])

variable [DecidableEq υ]

/-- What a member can do, and who is told what. -/
inductive Step (s : State υ ρ π) :
    Deed υ → State υ ρ π → (υ → List (Notice υ π)) → Prop
  | quiet {n} (hn : ∀ w, n w = []) : Step s .quiet s n
  | enters {u n} (r x) (hroom : s.room u = none) (hn : ∀ w, n w = []) :
      Step s (.enters u)
        { s with
          room := Function.update s.room u (some r)
          place := Function.update s.place u x } n
  | looks {u r n} (x) (l : List υ) (hroom : s.room u = some r) (hnot : ¬s.playing u)
      (hl : ∀ v, v ∈ l ↔ s.In r v)
      (hn : Tells n (· = u) (.fresh :: l.map fun v => .present v (s.place v))) :
      Step s (.looks u)
        { s with place := Function.update s.place u x, seen := fun w => w = u ∨ s.seen w } n
  | joins {u r n} (hroom : s.room u = some r) (hseen : s.seen u) (hnot : ¬s.playing u)
      (hn : Tells n (s.In r) [.present u (s.place u)]) :
      Step s (.acts u) { s with playing := fun w => w = u ∨ s.playing w } n
  | moves {u r n} (x) (hin : s.In r u) (hn : Tells n (s.In r) [.present u x]) :
      Step s (.acts u) { s with place := Function.update s.place u x } n
  | leaves {u r n} (x) (hin : s.In r u) (hn : Tells n (fun w => w ≠ u ∧ s.In r w) [.gone u]) :
      Step s (.acts u)
        { s with
          room := Function.update s.room u none
          place := Function.update s.place u x
          seen := fun w => w ≠ u ∧ s.seen w
          playing := fun w => w ≠ u ∧ s.playing w } n

/-- Who has missed whom after a step: a member misses what somebody in its room does while it takes
no part there, and makes up for it when it takes part while that one does something again, or when
it looks around. -/
def Deed.missed (s : State υ ρ π) (missed : υ → υ → Prop) : Deed υ → υ → υ → Prop
  | .quiet | .enters _ => missed
  | .looks u => fun w v => w ≠ u ∧ missed w v
  | .acts u => fun w v =>
    (v = u ∧ s.room w = s.room u ∧ ¬s.playing w) ∨
      (¬(v = u ∧ s.room w = s.room u) ∧ missed w v)

/-- What the members have done since `s₀`, with what each of them was told and has missed. -/
inductive Run (s₀ : State υ ρ π) :
    State υ ρ π → (υ → List (Notice υ π)) → (υ → υ → Prop) → Prop
  | init : Run s₀ s₀ (fun _ => []) fun _ _ => False
  | next {s notes missed d s' n} (h : Run s₀ s notes missed) (hstep : Step s d s' n) :
      Run s₀ s' (fun w => notes w ++ n w) (d.missed s missed)

/-! ### The pictures are exact -/

/-- Who takes part has looked around, and who has looked around is in a room. -/
structure State.Sound (s : State υ ρ π) : Prop where
  seen : ∀ u, s.playing u → s.seen u
  room : ∀ u, s.seen u → s.room u ≠ none

/-- Whoever has looked around has an exact picture of everyone that it has not missed. -/
def Pictured (s : State υ ρ π) (notes : υ → List (Notice υ π)) (missed : υ → υ → Prop) : Prop :=
  ∀ w v, s.seen w → v ≠ w → ¬missed w v →
    ∀ x, picture (notes w) v = some x ↔ s.playing v ∧ s.room v = s.room w ∧ s.place v = x

variable {s s' s₀ : State υ ρ π} {d : Deed υ} {n notes : υ → List (Notice υ π)}
  {missed : υ → υ → Prop} {A : υ → Prop} {l : List (Notice υ π)} {u v w : υ} {x : π}

namespace Tells

omit [DecidableEq υ] in
theorem ite {p : υ → Prop} [DecidablePred p] (h : ∀ w, A w ↔ p w) :
    Tells (fun w => if p w then l else []) A l :=
  fun w => ⟨fun hA => if_pos ((h w).mp hA), fun hA => if_neg fun hp => hA ((h w).mpr hp)⟩

omit [DecidableEq υ] in
theorem append_of_not (hn : Tells n A l) (hA : ¬A w) (notes : List (Notice υ π)) :
    notes ++ n w = notes := by
  rw [(hn w).2 hA, List.append_nil]

theorem picture_present (hn : Tells n A [.present u x]) (hA : A w) (notes : List (Notice υ π)) :
    picture (notes ++ n w) u = some x := by
  rw [(hn w).1 hA, picture_append_present, Function.update_self]

theorem picture_present_of_ne (hn : Tells n A [.present u x]) (hv : v ≠ u)
    (notes : List (Notice υ π)) : picture (notes ++ n w) v = picture notes v := by
  by_cases hA : A w
  · rw [(hn w).1 hA, picture_append_present, Function.update_of_ne hv]
  · rw [hn.append_of_not hA]

theorem picture_gone (hn : Tells n A [.gone u]) (hA : A w) (notes : List (Notice υ π)) :
    picture (notes ++ n w) u = none := by
  rw [(hn w).1 hA, picture_append_gone, Function.update_self]

theorem picture_gone_of_ne (hn : Tells n A [.gone u]) (hv : v ≠ u) (notes : List (Notice υ π)) :
    picture (notes ++ n w) v = picture notes v := by
  by_cases hA : A w
  · rw [(hn w).1 hA, picture_append_gone, Function.update_of_ne hv]
  · rw [hn.append_of_not hA]

end Tells

omit [DecidableEq υ] in
/-- Who has not missed what `u` did was told of it, or is in another room. -/
theorem Deed.not_missed_acts (h : ¬(Deed.acts u).missed s missed w v) :
    (v = u → s.room w = s.room u → s.playing w) ∧
      (v ≠ u ∨ s.room w ≠ s.room u → ¬missed w v) := by
  constructor
  · rintro rfl hroom
    by_contra hnot
    exact h (.inl ⟨rfl, hroom, hnot⟩)
  · intro hne hm
    refine h (.inr ⟨fun he => ?_, hm⟩)
    exact hne.elim (fun hv => hv he.1) fun hroom => hroom he.2

theorem State.Sound.step (h : s.Sound) (hstep : Step s d s' n) : s'.Sound := by
  cases hstep with
  | quiet => exact h
  | enters r x hroom =>
    refine ⟨h.seen, fun v hv => ?_⟩
    have hne : v ≠ _ := fun he => h.room v hv (he ▸ hroom)
    simp only [Function.update_of_ne hne]
    exact h.room v hv
  | looks x l hroom =>
    refine ⟨fun v hv => .inr (h.seen v hv), fun v hv => ?_⟩
    rcases hv with rfl | hv
    · rw [hroom]
      exact Option.some_ne_none _
    · exact h.room v hv
  | joins hroom hseen =>
    refine ⟨fun v hv => ?_, h.room⟩
    rcases hv with rfl | hv
    · exact hseen
    · exact h.seen v hv
  | moves => exact ⟨h.seen, h.room⟩
  | leaves =>
    refine ⟨fun v hv => ⟨hv.1, h.seen v hv.2⟩, fun v hv => ?_⟩
    simp only [Function.update_of_ne hv.1]
    exact h.room v hv.2

/-- **Step lemma.** -/
theorem Pictured.step (h : Pictured s notes missed) (hs : s.Sound) (hstep : Step s d s' n) :
    Pictured s' (fun w => notes w ++ n w) (d.missed s missed) := by
  -- A member without a room takes no part.
  have hout : ∀ u, s.room u = none → ¬s.playing u :=
    fun u hroom hp => hs.room u (hs.seen u hp) hroom
  intro w v hw hv hm x
  change picture (notes w ++ n w) v = some x ↔ _
  cases hstep with
  | quiet hn =>
    rw [hn, List.append_nil]
    exact h w v hw hv hm x
  | @enters u n r y hroom hn =>
    rw [hn, List.append_nil, h w v hw hv hm]
    have hwu : w ≠ u := by
      rintro rfl
      exact hs.room _ hw hroom
    by_cases hvu : v = u
    · subst hvu
      simp only [hout v hroom, false_and]
    · simp only [Function.update_of_ne hvu, Function.update_of_ne hwu]
  | @looks u r n y l hroom hnot hl hn =>
    by_cases hwu : w = u
    · subst hwu
      rw [(hn w).1 rfl, picture_append_fresh]
      simp only [Function.update_of_ne hv, hroom]
      split_ifs with hmem
      · have hin := (hl v).mp hmem
        simp only [Option.some.injEq, hin.1, hin.2, true_and]
      · simp only [false_iff]
        exact fun hp => hmem ((hl v).mpr ⟨hp.1, hp.2.1⟩)
    · rw [hn.append_of_not hwu, h w v (hw.resolve_left hwu) hv fun hold => hm ⟨hwu, hold⟩]
      by_cases hvu : v = u
      · subst hvu
        simp only [hnot, false_and]
      · simp only [Function.update_of_ne hvu]
  | @joins u r n hroom hseen hnot hn =>
    obtain ⟨htold, hold⟩ := Deed.not_missed_acts hm
    by_cases hvu : v = u
    · subst hvu
      by_cases hr : s.room w = s.room v
      · rw [hn.picture_present ⟨htold rfl hr, hr.trans hroom⟩]
        simp only [Option.some.injEq, true_or, hr, true_and]
      · have hA : ¬s.In r w := fun hin => hr (hin.2.trans hroom.symm)
        rw [hn.append_of_not hA, h w v hw hv (hold (.inr hr))]
        simp only [hnot, false_and, Ne.symm hr, and_false]
    · rw [hn.picture_present_of_ne hvu, h w v hw hv (hold (.inl hvu))]
      simp only [hvu, false_or]
  | @moves u r n y hin hn =>
    obtain ⟨htold, hold⟩ := Deed.not_missed_acts hm
    by_cases hvu : v = u
    · subst hvu
      by_cases hr : s.room w = s.room v
      · rw [hn.picture_present ⟨htold rfl hr, hr.trans hin.2⟩]
        simp only [Option.some.injEq, hin.1, hr, Function.update_self, true_and]
      · have hA : ¬s.In r w := fun hw' => hr (hw'.2.trans hin.2.symm)
        rw [hn.append_of_not hA, h w v hw hv (hold (.inr hr))]
        simp only [Ne.symm hr, false_and, and_false]
    · rw [hn.picture_present_of_ne hvu, h w v hw hv (hold (.inl hvu))]
      simp only [Function.update_of_ne hvu]
  | @leaves u r n y hin hn =>
    obtain ⟨hwu, hw⟩ := hw
    obtain ⟨htold, hold⟩ := Deed.not_missed_acts hm
    by_cases hvu : v = u
    · subst hvu
      simp only [ne_eq, not_true_eq_false, false_and, iff_false]
      by_cases hr : s.room w = s.room v
      · rw [hn.picture_gone ⟨hwu, htold rfl hr, hr.trans hin.2⟩]
        exact Option.some_ne_none x ∘ Eq.symm
      · have hA : ¬(w ≠ v ∧ s.In r w) := fun hw' => hr (hw'.2.2.trans hin.2.symm)
        rw [hn.append_of_not hA, h w v hw hv (hold (.inr hr))]
        exact fun hp => hr hp.2.1.symm
    · rw [hn.picture_gone_of_ne hvu, h w v hw hv (hold (.inl hvu))]
      simp only [ne_eq, hvu, not_false_iff, true_and, Function.update_of_ne hvu,
        Function.update_of_ne hwu]

/-- **The pictures are exact.** Whoever has looked around knows of every other that it has not
missed whether it takes part in its room, and where. -/
theorem Run.pictured {place : υ → π}
    (h : Run (State.empty (ρ := ρ) place) s notes missed) : s.Sound ∧ Pictured s notes missed := by
  induction h with
  | init => exact ⟨⟨fun _ hu => hu.elim, fun _ hu => hu.elim⟩, fun _ _ hw => hw.elim⟩
  | next _ hstep ih => exact ⟨ih.1.step hstep, ih.2.step ih.1 hstep⟩

end Presence
