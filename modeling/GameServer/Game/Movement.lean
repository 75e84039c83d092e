import GameServer.Game.Avatars
import GameServer.Library.Walk

/-!
# Moves that cannot be undone

A move request takes a player one step to the left, to the right, up or down, unless the step
leads out of the map. The tests of the two lower borders exclude the border itself, but a player
starts in the corner, on both of them. So the first step to the right and the first step down
cannot be undone; all others can.

## Main definitions

* `moveReq`, `GameLogic.position`, `WayBack` : moves of a player, and a way back to a position.
* `Avatar.OnMap` : the avatars that a player has after a login and moves.

## Main results

* `Avatar.undo_iff` : which moves can be undone.
* `exec_moves` : what a run of move requests makes of a player.
* `way_back_iff` : there is a way back unless the player has left a border in between.
-/

namespace GameServer

/-! ### Moves on the map -/

namespace Avatar

/-- An avatar on the map, with the step that a login sets. -/
structure OnMap (a : Avatar) : Prop where
  inside : a.Inside
  step_eq : a.step = startStep

theorem entry_onMap : entry.OnMap := ⟨entry_inside, rfl⟩

theorem move_step (a : Avatar) (m : ℤ) : (a.move m).step = a.step := by
  unfold move
  split_ifs <;> rfl

theorem OnMap.move {a : Avatar} (h : a.OnMap) (m : ℤ) : (a.move m).OnMap :=
  ⟨h.inside.move m, (a.move_step m).trans h.step_eq⟩

theorem OnMap.foldl {a : Avatar} (h : a.OnMap) (ms : List ℤ) : (ms.foldl Avatar.move a).OnMap :=
  (Walk.Reaches.of_foldl a ms).invariant (fun _ m ha => ha.move m) h

theorem move_left (a : Avatar) :
    a.move 1 = if 0 < a.pointX - a.step then { a with pointX := a.pointX - a.step } else a := rfl

theorem move_right (a : Avatar) :
    a.move 2 = if a.pointX + a.step < mapNaxX then { a with pointX := a.pointX + a.step } else a :=
  rfl

theorem move_up (a : Avatar) :
    a.move 3 = if 0 < a.pointY - a.step then { a with pointY := a.pointY - a.step } else a := rfl

theorem move_down (a : Avatar) :
    a.move 4 = if a.pointY + a.step < mapNaxY then { a with pointY := a.pointY + a.step } else a :=
  rfl

/-- Other numbers are no moves. -/
theorem move_other {m : ℤ} (h : m ≠ 1 ∧ m ≠ 2 ∧ m ≠ 3 ∧ m ≠ 4) (a : Avatar) : a.move m = a := by
  obtain ⟨h1, h2, h3, h4⟩ := h
  rw [move, if_neg h1, if_neg h2, if_neg h3, if_neg h4]

theorem move_pointX (a : Avatar) (m : ℤ) : (a.move m).pointX =
    if m = 1 ∧ 0 < a.pointX - a.step then a.pointX - a.step
    else if m = 2 ∧ a.pointX + a.step < mapNaxX then a.pointX + a.step
    else a.pointX := by
  unfold move
  split_ifs <;> first | rfl | omega

theorem move_pointY (a : Avatar) (m : ℤ) : (a.move m).pointY =
    if m = 3 ∧ 0 < a.pointY - a.step then a.pointY - a.step
    else if m = 4 ∧ a.pointY + a.step < mapNaxY then a.pointY + a.step
    else a.pointY := by
  unfold move
  split_ifs <;> first | rfl | omega

/-- A move to the right is the only one that leaves the left border. -/
theorem OnMap.move_pointX_eq_zero {a : Avatar} (h : a.OnMap) (m : ℤ) :
    (a.move m).pointX = 0 ↔ a.pointX = 0 ∧ m ≠ 2 := by
  have hstep : a.step = 4 := h.step_eq
  have hx := h.inside.x_nonneg
  rw [move_pointX, hstep, mapNaxX]
  split_ifs <;> omega

/-- A move down is the only one that leaves the upper border. -/
theorem OnMap.move_pointY_eq_zero {a : Avatar} (h : a.OnMap) (m : ℤ) :
    (a.move m).pointY = 0 ↔ a.pointY = 0 ∧ m ≠ 4 := by
  have hstep : a.step = 4 := h.step_eq
  have hy := h.inside.y_nonneg
  rw [move_pointY, hstep, mapNaxY]
  split_ifs <;> omega

/-- A move that does not leave the left or the upper border is undone by the opposite move. -/
theorem OnMap.undo {a : Avatar} (h : a.OnMap) {m : ℤ} (hx : m = 2 → a.pointX ≠ 0)
    (hy : m = 4 → a.pointY ≠ 0) : Walk.Reaches Avatar.move (a.move m) a := by
  obtain ⟨⟨-, hx0, hx', hy0, hy'⟩, hstep⟩ := h
  by_cases hm : m ≠ 1 ∧ m ≠ 2 ∧ m ≠ 3 ∧ m ≠ 4
  · rw [move_other hm]
    exact .refl a
  have hcases : m = 1 ∨ m = 2 ∨ m = 3 ∨ m = 4 := by omega
  rcases hcases with rfl | rfl | rfl | rfl
  · rw [move_left]
    split_ifs with hleft
    · refine ⟨[2], ?_⟩
      rw [List.foldl_cons, List.foldl_nil, move_right]
      simp only [Int.sub_add_cancel, hx', if_true]
    · exact .refl a
  · rw [move_right]
    split_ifs with hright
    · refine ⟨[1], ?_⟩
      have hpos : 0 < a.pointX := lt_of_le_of_ne hx0 (Ne.symm (hx rfl))
      rw [List.foldl_cons, List.foldl_nil, move_left]
      simp only [Int.add_sub_cancel, hpos, if_true]
    · exact .refl a
  · rw [move_up]
    split_ifs with hup
    · refine ⟨[4], ?_⟩
      rw [List.foldl_cons, List.foldl_nil, move_down]
      simp only [Int.sub_add_cancel, hy', if_true]
    · exact .refl a
  · rw [move_down]
    split_ifs with hdown
    · refine ⟨[3], ?_⟩
      have hpos : 0 < a.pointY := lt_of_le_of_ne hy0 (Ne.symm (hy rfl))
      rw [List.foldl_cons, List.foldl_nil, move_up]
      simp only [Int.add_sub_cancel, hpos, if_true]
    · exact .refl a

/-- The left border is left by a move to the right only, and not entered. -/
theorem exits_left : Walk.Exits Avatar.move OnMap (fun a => a.pointX = 0) 2 :=
  ⟨fun _ m h => h.move m, fun _ m h => h.move_pointX_eq_zero m⟩

/-- The upper border is left by a move down only, and not entered. -/
theorem exits_upper : Walk.Exits Avatar.move OnMap (fun a => a.pointY = 0) 4 :=
  ⟨fun _ m h => h.move m, fun _ m h => h.move_pointY_eq_zero m⟩

/-- A move can be undone if and only if it does not leave the left or the upper border. -/
theorem OnMap.undo_iff {a : Avatar} (h : a.OnMap) (m : ℤ) :
    Walk.Reaches Avatar.move (a.move m) a ↔ (m = 2 → a.pointX ≠ 0) ∧ (m = 4 → a.pointY ≠ 0) := by
  refine ⟨fun hback => ⟨?_, ?_⟩, fun ⟨hx, hy⟩ => h.undo hx hy⟩
  · rintro rfl hx
    exact exits_left.not_undone h hx hback
  · rintro rfl hy
    exact exits_upper.not_undone h hy hback

/-- All moves of `after`, made after those of `before`, can be undone if and only if each border
that one of them leaves has been left before. -/
theorem along_undo_iff (before after : List ℤ) :
    Walk.Along Avatar.move (fun a m => Walk.Reaches Avatar.move (a.move m) a)
        (before.foldl move entry) after ↔
      (2 ∈ after → 2 ∈ before) ∧ (4 ∈ after → 4 ∈ before) := by
  induction after generalizing before with
  | nil => simp [Walk.Along]
  | cons m after ih =>
    have hnext := ih (before ++ [m])
    rw [List.foldl_append, List.foldl_cons, List.foldl_nil] at hnext
    -- A player that starts in the corner is at a border until it makes the move that leaves it.
    have hx : (before.foldl move entry).pointX = 0 ↔ 2 ∉ before :=
      (exits_left.edge_foldl_iff entry_onMap before).trans (and_iff_right rfl)
    have hy : (before.foldl move entry).pointY = 0 ↔ 4 ∉ before :=
      (exits_upper.edge_foldl_iff entry_onMap before).trans (and_iff_right rfl)
    rw [Walk.Along, hnext, (entry_onMap.foldl before).undo_iff, Ne, Ne, hx, hy, not_not, not_not]
    simp only [List.mem_append, List.mem_cons, List.not_mem_nil, or_false]
    grind

end Avatar

/-! ### Runs of move requests -/

/-- A move request of `u`. -/
def moveReq (u : Uid) (m : ℤ) : GameMsg := .data u (.moveReq (some ⟨m⟩))

/-- The position that the slot of `u` holds. -/
def GameLogic.position (gl : GameLogic) (u : Uid) : ℤ × ℤ :=
  ((gl.playerOf u).pointX, (gl.playerOf u).pointY)

/-- Further move requests of `u` bring it to the position `p`. -/
def WayBack (s : GameLogic × Record) (u : Uid) (p : ℤ × ℤ) : Prop :=
  ∃ (back : List ℤ) (os : List Broadcast) (s' : GameLogic × Record),
    avatarMachine.Exec Machine.any s (back.map (moveReq u)) os s' ∧ s'.1.position u = p

/-- The state after a move request of `u`. -/
def moved (s : GameLogic × Record) (u : Uid) (m : ℤ) : GameLogic × Record :=
  (s.1.move u ⟨m⟩, Record.after s.1 (moveReq u m) s.2)

/-- `u` is a player for whom a move request is handled: the list of its map has not overflown. -/
structure CanMove (s : GameLogic × Record) (u : Uid) : Prop where
  registered : s.1.Registered u
  list : s.1.mapPlayerNum (s.1.mapOf u) ≤ maxPlayerEachMap

section Moves

variable {s s' : GameLogic × Record} {u : Uid} {m : ℤ}

/-- A move request changes neither the entry of the player nor the counter of its map. -/
theorem canMove_moved : CanMove (moved s u m) u ↔ CanMove s u :=
  ⟨fun h => ⟨h.registered, h.list⟩, fun h => ⟨h.registered, h.list⟩⟩

theorem moved_avatar {a : Avatar} (hreg : s.1.Registered u) (ha : s.2.avatar u = some a) :
    (moved s u m).2.avatar u = some (a.move m) := by
  simp only [moved, moveReq, Record.after, hreg, if_true, Record.act, Record.setAvatar_self, ha,
    Option.map_some]

/-- The step on a move request of a player. -/
theorem step_moveReq (hreg : s.1.Registered u) : (∃ out, avatarMachine.step s (moveReq u m) =
    .ok (s', out)) ↔ CanMove s u ∧ s' = moved s u m := by
  constructor
  · obtain ⟨gl', r'⟩ := s'
    rintro ⟨out, hstep⟩
    obtain ⟨hgl, hr⟩ := Machine.withGhost_step_eq_ok.mp hstep
    have hgame : GameStep s.1 (.data u (.moveReq (some ⟨m⟩))) gl' out := disposeQueueEvent_step hgl
    cases hgame with
    | move _ _ _ hnum => exact ⟨⟨hreg, hnum⟩, Prod.ext rfl hr⟩
    | ignored hig => rcases hig hreg with he | ⟨d, he⟩ | ⟨b, he⟩ <;> cases he
  · rintro ⟨hcan, rfl⟩
    exact ⟨_, Machine.withGhost_step_eq_ok.mpr
      ⟨disposeQueueEvent_eq_ok.mpr (.move u ⟨m⟩ hcan.registered hcan.list), rfl⟩⟩

/-- The state after move requests of `u`. -/
def movedAll (s : GameLogic × Record) (u : Uid) (ms : List ℤ) : GameLogic × Record :=
  ms.foldl (fun s m => moved s u m) s

theorem movedAll_append (s : GameLogic × Record) (u : Uid) (ms : List ℤ) (m : ℤ) :
    movedAll s u (ms ++ [m]) = moved (movedAll s u ms) u m := by
  rw [movedAll, List.foldl_append, List.foldl_cons, List.foldl_nil, movedAll]

theorem canMove_movedAll (ms : List ℤ) : CanMove (movedAll s u ms) u ↔ CanMove s u := by
  induction ms using List.reverseRecOn with
  | nil => rfl
  | append_singleton ms m ih => rw [movedAll_append, canMove_moved, ih]

theorem registered_movedAll (ms : List ℤ) :
    (movedAll s u ms).1.Registered u ↔ s.1.Registered u := by
  induction ms using List.reverseRecOn with
  | nil => rfl
  | append_singleton ms m ih =>
    rw [movedAll_append]
    exact ih

theorem movedAll_avatar {a : Avatar} (hreg : s.1.Registered u) (ha : s.2.avatar u = some a)
    (ms : List ℤ) : (movedAll s u ms).2.avatar u = some (ms.foldl Avatar.move a) := by
  induction ms using List.reverseRecOn with
  | nil => exact ha
  | append_singleton ms m ih =>
    rw [movedAll_append, List.foldl_append, List.foldl_cons, List.foldl_nil]
    exact moved_avatar ((registered_movedAll ms).mpr hreg) ih

/-- **Run lemma.** The runs on move requests of a player: the requests are handled if the list of
the map has not overflown, and lead to one state. -/
theorem exec_moves (hreg : s.1.Registered u) (ms : List ℤ) :
    (∃ os, avatarMachine.Exec Machine.any s (ms.map (moveReq u)) os s') ↔
      (ms = [] ∨ CanMove s u) ∧ s' = movedAll s u ms := by
  induction ms using List.reverseRecOn generalizing s' with
  | nil => simp only [List.map_nil, Machine.Exec.nil_iff, true_or, true_and, movedAll,
      List.foldl_nil]
  | append_singleton ms m ih =>
    rw [List.map_append, List.map_singleton, Machine.Exec.concat_iff]
    simp only [ih]
    constructor
    · rintro ⟨t, ⟨-, rfl⟩, -, hstep⟩
      obtain ⟨hcan, rfl⟩ := (step_moveReq ((registered_movedAll ms).mpr hreg)).mp hstep
      exact ⟨Or.inr ((canMove_movedAll ms).mp hcan), (movedAll_append s u ms m).symm⟩
    · rintro ⟨hcan, rfl⟩
      have hcan : CanMove s u := hcan.resolve_left (by simp)
      refine ⟨_, ⟨Or.inr hcan, rfl⟩, trivial, ?_⟩
      exact (step_moveReq ((registered_movedAll ms).mpr hreg)).mpr
        ⟨(canMove_movedAll ms).mpr hcan, movedAll_append s u ms m⟩

end Moves

/-! ### The way back -/

theorem AvatarInv.position_eq {heap : MapId → SlotId → Player} {s : GameLogic × Record} {u : Uid}
    {a : Avatar} (h : AvatarInv heap s.1 s.2) (ha : s.2.avatar u = some a) :
    s.1.position u = (a.pointX, a.pointY) := by
  obtain ⟨-, hx, hy⟩ := h.playerOf_eq ha
  rw [GameLogic.position, hx, hy]

/-- Avatars on the map differ in their positions. -/
theorem Avatar.OnMap.eq_of_position {a b : Avatar} (ha : a.OnMap) (hb : b.OnMap)
    (h : (a.pointX, a.pointY) = (b.pointX, b.pointY)) : a = b := by
  obtain ⟨hx, hy⟩ := Prod.mk.inj h
  obtain ⟨x, y, step⟩ := a
  rw [Avatar.mk.injEq]
  exact ⟨hx, hy, ha.step_eq.trans hb.step_eq.symm⟩

/-- There is a way back to a position if and only if a walk leads there. -/
theorem wayBack_iff_reaches {heap : MapId → SlotId → Player} {s : GameLogic × Record} {u : Uid}
    {a b : Avatar} (h : AvatarInv heap s.1 s.2) (ha : s.2.avatar u = some a) (hmap : a.OnMap)
    (hb : b.OnMap) (hcan : a = b ∨ CanMove s u) :
    WayBack s u (b.pointX, b.pointY) ↔ Walk.Reaches Avatar.move a b := by
  have hreg : s.1.Registered u := (h.holds u a ha).registered
  constructor
  · rintro ⟨back, os, s', hexec, hpos⟩
    obtain ⟨-, rfl⟩ := (exec_moves hreg back).mp ⟨os, hexec⟩
    rw [(h.run hexec).position_eq (movedAll_avatar hreg ha back)] at hpos
    exact ⟨back, (hmap.foldl back).eq_of_position hb hpos⟩
  · rintro ⟨back, rfl⟩
    rcases hcan with heq | hcan
    · refine ⟨[], [], s, .init, ?_⟩
      rw [h.position_eq ha, ← heq]
    · obtain ⟨os, hexec⟩ := (exec_moves hreg back).mpr ⟨Or.inr hcan, rfl⟩
      exact ⟨back, os, _, hexec, (h.run hexec).position_eq (movedAll_avatar hreg ha back)⟩

/-- `MOVE_RIGHT` and `MOVE_DOWN`, the moves away from the corner where a player starts. -/
abbrev moveRight : ℤ := 2

@[inherit_doc moveRight] abbrev moveDown : ℤ := 4

/-- A player that has made the moves of `before` from the start position, and then those of
`after`, has a way back to where it was in between if and only if `after` leaves no border for the
first time: it has a move to the right or down only if `before` has one. -/
theorem way_back_iff {heap : MapId → SlotId → Player} {is : List GameMsg}
    {os os₁ os₂ : List Broadcast} {s s₁ s₂ : GameLogic × Record} {u : Uid} {before after : List ℤ}
    (hrun : avatarMachine.Exec Machine.any (avatarStart heap) is os s)
    (hstart : s.2.avatar u = some .entry)
    (hbefore : avatarMachine.Exec Machine.any s (before.map (moveReq u)) os₁ s₁)
    (hafter : avatarMachine.Exec Machine.any s₁ (after.map (moveReq u)) os₂ s₂) :
    WayBack s₂ u (s₁.1.position u) ↔
      (moveRight ∈ after → moveRight ∈ before) ∧ (moveDown ∈ after → moveDown ∈ before) := by
  have hinv : AvatarInv heap s.1 s.2 := AvatarInv.exec hrun
  have hreg : s.1.Registered u := (hinv.holds u .entry hstart).registered
  obtain ⟨-, rfl⟩ := (exec_moves hreg before).mp ⟨os₁, hbefore⟩
  have hreg₁ := (registered_movedAll before).mpr hreg
  have havatar := movedAll_avatar hreg hstart before
  obtain ⟨hcan, rfl⟩ := (exec_moves hreg₁ after).mp ⟨os₂, hafter⟩
  have hmap := Avatar.entry_onMap.foldl before
  rw [(hinv.run hbefore).position_eq havatar, wayBack_iff_reaches
    ((hinv.run hbefore).run hafter) (movedAll_avatar hreg₁ havatar after) (hmap.foldl after) hmap
    (hcan.imp (fun hnil => by rw [hnil]; rfl) (canMove_movedAll after).mpr),
    Walk.reaches_start_iff]
  exact Avatar.along_undo_iff before after

/-- A client connects and logs in. -/
theorem exists_logged_in : ∃ s os,
    avatarMachine.Exec Machine.any (avatarStart zeroHeap)
      [.success 3, .data 3 (.logReq (some ⟨[]⟩))] os s ∧
    s.2.avatar 3 = some .entry ∧ CanMove s 3 := by
  have hrun : (avatarMachine.run Machine.any (avatarStart zeroHeap)
      [.success 3, .data 3 (.logReq (some ⟨[]⟩))]).map (fun p => (p.1.2.avatar 3,
        decide (p.1.1.Registered 3), decide (p.1.1.mapPlayerNum (p.1.1.mapOf 3) ≤ 10))) =
      some (some .entry, true, true) := by
    decide +kernel
  obtain ⟨s, os, hexec, hobs⟩ := avatarMachine.exec_of_run_map hrun
  obtain ⟨havatar, hobs⟩ := Prod.mk.inj hobs
  obtain ⟨hreg, hnum⟩ := Prod.mk.inj hobs
  exact ⟨s, os, hexec, havatar, of_decide_eq_true hreg, of_decide_eq_true hnum⟩

/-- A player that has left both borders finds back. -/
theorem way_back_off_borders : ∃ s os s₁ os₁ s₂ os₂,
    avatarMachine.Exec Machine.any (avatarStart zeroHeap)
      [.success 3, .data 3 (.logReq (some ⟨[]⟩))] os s ∧
    avatarMachine.Exec Machine.any s ([moveRight, moveDown].map (moveReq 3)) os₁ s₁ ∧
    avatarMachine.Exec Machine.any s₁ ([moveDown, moveRight, 1].map (moveReq 3)) os₂ s₂ ∧
    WayBack s₂ 3 (s₁.1.position 3) := by
  obtain ⟨s, os, hexec, hstart, hcan⟩ := exists_logged_in
  obtain ⟨os₁, h₁⟩ := (exec_moves hcan.registered [moveRight, moveDown]).mpr
    ⟨Or.inr hcan, rfl⟩
  have hcan₁ := (canMove_movedAll [moveRight, moveDown]).mpr hcan
  obtain ⟨os₂, h₂⟩ := (exec_moves hcan₁.registered [moveDown, moveRight, 1]).mpr
    ⟨Or.inr hcan₁, rfl⟩
  exact ⟨s, os, _, os₁, _, os₂, hexec, h₁, h₂, (way_back_iff hexec hstart h₁ h₂).mpr (by decide)⟩

/-- A player that logs in and moves to the right does not find back to its start position. -/
theorem no_way_back_to_start : ∃ s os s₁ os₁,
    avatarMachine.Exec Machine.any (avatarStart zeroHeap)
      [.success 3, .data 3 (.logReq (some ⟨[]⟩))] os s ∧
    s.1.position 3 = (0, 0) ∧
    avatarMachine.Exec Machine.any s ([moveRight].map (moveReq 3)) os₁ s₁ ∧
    s₁.1.position 3 = (4, 0) ∧ ¬WayBack s₁ 3 (s.1.position 3) := by
  obtain ⟨s, os, hexec, hstart, hcan⟩ := exists_logged_in
  obtain ⟨os₁, h₁⟩ := (exec_moves hcan.registered [moveRight]).mpr ⟨Or.inr hcan, rfl⟩
  have hinv : AvatarInv zeroHeap s.1 s.2 := AvatarInv.exec hexec
  have havatar := movedAll_avatar hcan.registered hstart [moveRight]
  refine ⟨s, os, _, os₁, hexec, hinv.position_eq hstart, h₁,
    (hinv.run h₁).position_eq havatar, fun hback => ?_⟩
  rw [hinv.position_eq hstart, wayBack_iff_reaches (hinv.run h₁) havatar
    (Avatar.entry_onMap.foldl [moveRight]) Avatar.entry_onMap
    (Or.inr ((canMove_movedAll [moveRight]).mpr hcan))] at hback
  exact ((Avatar.entry_onMap.undo_iff moveRight).mp hback).1 rfl rfl

end GameServer
