import GameServer.Game.Tables
import Mathlib.Algebra.BigOperators.Group.Finset.Basic
import Mathlib.Algebra.Order.BigOperators.Group.Finset
import Mathlib.Data.Fin.Tuple.Basic
import Mathlib.Data.Finset.Card

/-!
# Registration of a uid that has no entry

`game_route_append` chooses a map by its counter of started players and then a slot of that map
by the marks of the registered players. The two do not have to agree: a map in which ten clients
are connected and none has started still has room by its counter, and no slot.

## Main definitions

* `AppendRegisters` : the call registers the uid in a slot that was free.
* `GameLogic.HasPlace` : the first map with room by its counter has a free slot.

## Main results

* `append_registers_iff` : in a service with room, registration succeeds just when there is such a
  place.
* `hasPlace_of_counts` : there is one where the counters count the registered players.
* `failed_calls_change_nothing` : what the calls leave when they report an error.
-/

namespace GameServer

/-- The uids registered in a map. -/
def GameLogic.registeredIn (gl : GameLogic) (m : MapId) : Finset Uid :=
  (registeredUids gl).filter fun u => gl.mapOf u = m

/-- The first map with room by its counter of started players has a free slot. -/
def GameLogic.HasPlace (gl : GameLogic) : Prop :=
  ∃ m, gl.mapPlayerNum m < maxPlayerEachMap ∧
    (∀ m' < m, (maxPlayerEachMap : ℤ) ≤ gl.mapPlayerNum m') ∧
    ∃ i, (gl.mapPlayer m i).state = .typeInvalid

/-- The call succeeds: the uid is registered in a slot that was free. -/
def AppendRegisters (gl : GameLogic) (uid : Uid) : Prop :=
  ∃ gl' m i, gameRouteAppend gl uid = (0, gl') ∧
    (gl.mapPlayer m i).state = .typeInvalid ∧ gl.mapPlayerSocketUid m i = none ∧
    gl'.uid2Playid uid = ⟨.typeUsing, m, i⟩ ∧ gl'.mapPlayerSocketUid m i = some uid

/-! ### The choice of the map and of the slot -/

theorem StateType.ne_typeUsing_iff {s : StateType} : s ≠ .typeUsing ↔ s = .typeInvalid := by
  cases s <;> simp

/-- A service with room chooses the first map with room. -/
theorem gameRouteGetMapid_eq_some {gl : GameLogic} {m : MapId}
    (hroom : gl.playerNum < maxGameServicePlayerNum) :
    gameRouteGetMapid gl = some m ↔ gl.mapPlayerNum m < maxPlayerEachMap ∧
      ∀ m' < m, (maxPlayerEachMap : ℤ) ≤ gl.mapPlayerNum m' := by
  rw [gameRouteGetMapid, if_neg (not_le.mpr hroom), ← Fin.find?_eq_find?_finRange,
    Fin.find?_eq_some_iff]
  simp only [decide_eq_true_eq, decide_eq_false_iff_not, not_lt]

theorem gameRouteGetPlayeridInMap_eq_none {gl : GameLogic} {m : MapId} :
    gameRouteGetPlayeridInMap gl m = none ↔ ∀ i, (gl.mapPlayer m i).state ≠ .typeInvalid := by
  simp only [gameRouteGetPlayeridInMap, Option.map_eq_none_iff, List.find?_eq_none,
    List.mem_finRange, true_implies, decide_eq_true_eq, ne_eq]

theorem TableInv.room_iff {gl : GameLogic} (h : TableInv gl) :
    (registeredUids gl).card < maxGameServicePlayerNum ↔
      gl.playerNum < maxGameServicePlayerNum := by
  rw [h.playerNum_eq, Int.ofNat_lt]

/-- Under the invariant a free uid is registered if the chosen map has a free slot. -/
theorem TableInv.append_of_free {gl : GameLogic} (h : TableInv gl) {uid : Uid} {m : MapId}
    (hnew : ¬gl.Registered uid) (hmap : gameRouteGetMapid gl = some m)
    (hslot : ∃ i, (gl.mapPlayer m i).state = .typeInvalid) :
    (gameRouteAppend gl uid).1 = 0 := by
  have hstate : (gl.uid2Playid uid).state = .typeInvalid := StateType.ne_typeUsing_iff.mp hnew
  cases hget : gameRouteGetPlayeridInMap gl m with
  | none =>
    obtain ⟨i, hi⟩ := hslot
    exact absurd hi (gameRouteGetPlayeridInMap_eq_none.mp hget i)
  | some p =>
    obtain ⟨i, gl₁⟩ := p
    obtain ⟨hfree, rfl⟩ := gameRouteGetPlayeridInMap_spec hget
    have hnull := h.socketUid_of_free hfree
    simp only [gameRouteAppend, hstate, hmap, hget, GameLogic.setSlot, hnull, if_true]

/-- **When registration succeeds.** In every state that a game service reaches with fewer than
`MAX_GAME_SERVICE_PLAYER_NUM` registered players, the registration of a uid whose entry is not in
use succeeds exactly when the first map with room by its counter has a free slot. -/
theorem append_registers_iff {heap : MapId → SlotId → Player} {is : List GameMsg}
    {os : List Broadcast} {gl : GameLogic} {uid : Uid}
    (hrun : gameMachine.Exec Machine.any (gameLogicCreat heap) is os gl)
    (hroom : (registeredUids gl).card < maxGameServicePlayerNum) (hnew : ¬gl.Registered uid) :
    AppendRegisters gl uid ↔ gl.HasPlace := by
  have h := (TableInv.init heap).exec hrun
  have hnum := h.room_iff.mp hroom
  constructor
  · rintro ⟨gl', m, i, hok, -⟩
    rcases h.append_cases uid with he | ⟨m, i, hmap, -, hfree, -, -⟩
    · rw [he] at hok
      cases hok
    · obtain ⟨hlt, hleast⟩ := (gameRouteGetMapid_eq_some hnum).mp hmap
      exact ⟨m, hlt, hleast, i, hfree⟩
  · rintro ⟨m, hlt, hleast, hslot⟩
    have hmap := (gameRouteGetMapid_eq_some hnum).mpr ⟨hlt, hleast⟩
    have hret := h.append_of_free hnew hmap hslot
    rcases h.append_cases uid with he | ⟨m', i, -, -, hfree, hnull, he⟩
    · rw [he] at hret
      cases hret
    · refine ⟨_, m', i, he, hfree, hnull, ?_, ?_⟩
      · exact Function.update_self ..
      · exact setCell_self ..

/-- With one client connected the next one finds a place. -/
theorem append_registers_second : ∃ gl os,
    gameMachine.Exec Machine.any (gameLogicCreat zeroHeap) [.success 3] os gl ∧
    (registeredUids gl).card < maxGameServicePlayerNum ∧ ¬gl.Registered 4 ∧
    AppendRegisters gl 4 := by
  have hrun : (gameMachine.run Machine.any (gameLogicCreat zeroHeap) [.success 3]).map
      (fun p => (p.1.playerNum, p.1.mapPlayerNum 0, (p.1.mapPlayer 0 1).state,
        (p.1.uid2Playid 4).state)) = some (1, 0, .typeInvalid, .typeInvalid) := by rfl
  obtain ⟨gl, os, hrun, hobs⟩ := gameMachine.exec_of_run_map hrun
  obtain ⟨hone, hnum, hslot, hentry⟩ : gl.playerNum = 1 ∧ gl.mapPlayerNum 0 = 0 ∧
      (gl.mapPlayer 0 1).state = .typeInvalid ∧ (gl.uid2Playid 4).state = .typeInvalid := by
    simpa using hobs
  have hnew : ¬gl.Registered 4 := by simp [GameLogic.Registered, hentry]
  have hroom := ((TableInv.init zeroHeap).exec hrun).room_iff.mpr (by rw [hone]; decide)
  have hplace : gl.HasPlace :=
    ⟨0, by rw [hnum]; decide, fun m' hm => absurd hm (Fin.not_lt_zero m'), 1, hslot⟩
  exact ⟨gl, os, hrun, hroom, hnew, (append_registers_iff hrun hroom hnew).mpr hplace⟩

/-- Ten clients are connected and none has started: the eleventh is turned away. -/
theorem append_refuses_eleventh : ∃ gl os,
    gameMachine.Exec Machine.any (gameLogicCreat zeroHeap)
      [.success 0, .success 1, .success 2, .success 3, .success 4, .success 5, .success 6,
        .success 7, .success 8, .success 9] os gl ∧
    (registeredUids gl).card < maxGameServicePlayerNum ∧ ¬gl.Registered 10 ∧
    (gameRouteAppend gl 10).1 = -1 ∧ ¬AppendRegisters gl 10 := by
  have hrun : (gameMachine.run Machine.any (gameLogicCreat zeroHeap)
      [.success 0, .success 1, .success 2, .success 3, .success 4, .success 5, .success 6,
        .success 7, .success 8, .success 9]).map
      (fun p => (p.1.playerNum, (p.1.uid2Playid 10).state, (gameRouteAppend p.1 10).1)) =
      some (10, .typeInvalid, -1) := by
    decide +kernel
  obtain ⟨gl, os, hrun, hobs⟩ := gameMachine.exec_of_run_map hrun
  obtain ⟨hten, hentry, hret⟩ : gl.playerNum = 10 ∧ (gl.uid2Playid 10).state = .typeInvalid ∧
      (gameRouteAppend gl 10).1 = -1 := by
    simpa using hobs
  have hroom := ((TableInv.init zeroHeap).exec hrun).room_iff.mpr (by rw [hten]; decide)
  refine ⟨gl, os, hrun, hroom, by simp [GameLogic.Registered, hentry], hret, ?_⟩
  rintro ⟨gl', m, i, hok, -⟩
  rw [hok] at hret
  cases hret

/-! ### Where the counters count the registered players -/

/-- A map with fewer registered players than slots has a free slot. -/
theorem TableInv.exists_free {gl : GameLogic} (h : TableInv gl) {m : MapId}
    (hlt : (gl.registeredIn m).card < maxPlayerEachMap) :
    ∃ i, (gl.mapPlayer m i).state = .typeInvalid := by
  by_contra hnone
  simp only [not_exists, ← StateType.ne_typeUsing_iff, not_not] at hnone
  have hheld (i : SlotId) : ∃ u, gl.mapPlayerSocketUid m i = some u :=
    Option.ne_none_iff_exists'.mp ((h.used_iff m i).mp (hnone i))
  choose f hf using hheld
  have hmem (i : SlotId) : f i ∈ gl.registeredIn m := by
    have hentry := h.entry_of_slot m i (f i) (hf i)
    rw [GameLogic.registeredIn, Finset.mem_filter, mem_registeredUids]
    simp only [GameLogic.Registered, GameLogic.mapOf, hentry, and_self]
  have hinj : Function.Injective f := by
    intro i j he
    have hi := h.entry_of_slot m i (f i) (hf i)
    rw [he, h.entry_of_slot m j (f j) (hf j)] at hi
    exact ((PlayerId.mk.inj hi).2.2).symm
  have hle := Finset.card_le_card_of_injOn f (fun i _ => hmem i) hinj.injOn (s := Finset.univ)
  rw [Finset.card_univ, Fintype.card_fin] at hle
  exact absurd hlt (not_lt.mpr hle)

/-- Where the counter of every map is the number of its registered players, a service with room
has a place. -/
theorem hasPlace_of_counts {gl : GameLogic} (h : TableInv gl)
    (hroom : (registeredUids gl).card < maxGameServicePlayerNum)
    (hcount : ∀ m, gl.mapPlayerNum m = (gl.registeredIn m).card) : gl.HasPlace := by
  cases hmap : gameRouteGetMapid gl with
  | some m =>
    obtain ⟨hlt, hleast⟩ := (gameRouteGetMapid_eq_some (h.room_iff.mp hroom)).mp hmap
    refine ⟨m, hlt, hleast, h.exists_free ?_⟩
    rw [hcount] at hlt
    exact Int.ofNat_lt.mp hlt
  | none =>
    -- All maps are full by their counters, hence by their registered players.
    exfalso
    rw [gameRouteGetMapid, if_neg (not_le.mpr (h.room_iff.mp hroom))] at hmap
    simp only [List.find?_eq_none, List.mem_finRange, true_implies, decide_eq_true_eq, not_lt,
      hcount, Int.ofNat_le] at hmap
    have hsum : (registeredUids gl).card = ∑ m, (gl.registeredIn m).card :=
      Finset.card_eq_sum_card_fiberwise fun u _ => Finset.mem_univ (gl.mapOf u)
    have hge := Finset.card_nsmul_le_sum Finset.univ (fun m => (gl.registeredIn m).card)
      maxPlayerEachMap fun m _ => hmap m
    rw [← hsum, Finset.card_univ, Fintype.card_fin] at hge
    exact absurd hroom (not_lt.mpr hge)

/-! ### Failed calls -/

/-- **A failed call leaves the tables as they were.** In every state that one game service
reaches, a registration or a removal that returns `-1` has changed nothing: a slot chosen for a
new uid holds no uid, and the slot of a registered uid holds it. -/
theorem failed_calls_change_nothing {heap : MapId → SlotId → Player} {is : List GameMsg}
    {os : List Broadcast} {gl : GameLogic}
    (hrun : gameMachine.Exec Machine.any (gameLogicCreat heap) is os gl) (uid : Uid) :
    ((gameRouteAppend gl uid).1 = -1 → (gameRouteAppend gl uid).2 = gl) ∧
    ((gameRouteDel gl uid).1 = -1 → (gameRouteDel gl uid).2 = gl) ∧
    (∀ m i gl₁, gameRouteGetMapid gl = some m →
      gameRouteGetPlayeridInMap gl m = some (i, gl₁) → gl₁.mapPlayerSocketUid m i = none) ∧
    (gl.Registered uid →
      gl.mapPlayerSocketUid (gl.mapOf uid) (gl.slotOf uid) = some uid) := by
  have h := (TableInv.init heap).exec hrun
  refine ⟨fun hret => ?_, fun hret => ?_, fun m i gl₁ _ hget => ?_, h.slot_of_entry uid⟩
  · rcases h.append_cases uid with he | ⟨m, i, -, -, -, -, he⟩
    · rw [he]
    · rw [he] at hret
      cases hret
  · -- A removal never fails: the slot of a registered uid holds it.
    by_cases hreg : gl.Registered uid
    · rw [h.del_eq hreg] at hret
      cases hret
    · rw [gameRouteDel_of_not_registered hreg]
  · obtain ⟨hfree, rfl⟩ := gameRouteGetPlayeridInMap_spec hget
    exact h.socketUid_of_free hfree

/-- The eleventh of eleven clients, ten of which are connected, is turned away and leaves no
trace. -/
theorem failed_calls_change_nothing_eleventh : ∃ gl os,
    gameMachine.Exec Machine.any (gameLogicCreat zeroHeap)
      [.success 0, .success 1, .success 2, .success 3, .success 4, .success 5, .success 6,
        .success 7, .success 8, .success 9] os gl ∧
    gameRouteAppend gl 10 = (-1, gl) := by
  have hrun : (gameMachine.run Machine.any (gameLogicCreat zeroHeap)
      [.success 0, .success 1, .success 2, .success 3, .success 4, .success 5, .success 6,
        .success 7, .success 8, .success 9]).map (fun p => (gameRouteAppend p.1 10).1) =
      some (-1) := by
    decide +kernel
  obtain ⟨gl, os, hrun, hret⟩ := gameMachine.exec_of_run_map hrun
  exact ⟨gl, os, hrun, Prod.ext hret ((failed_calls_change_nothing hrun 10).1 hret)⟩

end GameServer
