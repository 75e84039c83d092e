import GameServer.Game.Steps
import Mathlib.Data.Finset.Card
import Mathlib.Data.Fintype.Basic

/-!
# The tables of a game service describe one bijection

Registration and removal update the slot marks, the registered uid of each slot, the entry of each
uid and the number of players. `TableInv` says that in every reachable state these describe one
bijection between the registered uids and the slots in use. The other messages leave these tables
alone (`SameTables`), so the invariant is proved for registration and removal only.

## Main definitions

* `TableInv` : the invariant.
* `registeredUids` : the uids whose entry is in use.
* `SameTables` : two states whose tables of registration agree.

## Main results

* `TableInv.step` : every step keeps the invariant.
* `tables_bijection` : the invariant in every state reached by one game service.
-/

namespace GameServer

/-- The uids whose entry is in use. -/
def registeredUids (gl : GameLogic) : Finset Uid := Finset.univ.filter gl.Registered

@[simp] theorem mem_registeredUids {gl : GameLogic} {u : Uid} :
    u ∈ registeredUids gl ↔ gl.Registered u := by
  simp only [registeredUids, Finset.mem_filter, Finset.mem_univ, true_and]

/-- The slots in use are the slots that hold a uid, and holding a uid and being the entry of that
uid are inverse to each other. -/
structure TableInv (gl : GameLogic) : Prop where
  used_iff : ∀ m i, (gl.mapPlayer m i).state = .typeUsing ↔ gl.mapPlayerSocketUid m i ≠ none
  entry_of_slot : ∀ m i u, gl.mapPlayerSocketUid m i = some u →
    gl.uid2Playid u = ⟨.typeUsing, m, i⟩
  slot_of_entry : ∀ u, gl.Registered u →
    gl.mapPlayerSocketUid (gl.mapOf u) (gl.slotOf u) = some u
  playerNum_eq : gl.playerNum = (registeredUids gl).card
  playerNum_le : gl.playerNum ≤ maxGameServicePlayerNum

/-- The tables of registration agree: only contents of slots, counters of started players and
broadcast lists may differ. -/
structure SameTables (gl gl' : GameLogic) : Prop where
  uid2Playid_eq : gl'.uid2Playid = gl.uid2Playid
  socketUid_eq : gl'.mapPlayerSocketUid = gl.mapPlayerSocketUid
  playerNum_eq : gl'.playerNum = gl.playerNum
  state_eq : ∀ m i, (gl'.mapPlayer m i).state = (gl.mapPlayer m i).state

namespace SameTables

variable {gl gl' : GameLogic}

theorem refl (gl : GameLogic) : SameTables gl gl := ⟨rfl, rfl, rfl, fun _ _ => rfl⟩

theorem registered_iff (h : SameTables gl gl') (u : Uid) : gl'.Registered u ↔ gl.Registered u := by
  simp only [GameLogic.Registered, h.uid2Playid_eq]

theorem mapOf_eq (h : SameTables gl gl') (u : Uid) : gl'.mapOf u = gl.mapOf u := by
  simp only [GameLogic.mapOf, h.uid2Playid_eq]

theorem slotOf_eq (h : SameTables gl gl') (u : Uid) : gl'.slotOf u = gl.slotOf u := by
  simp only [GameLogic.slotOf, h.uid2Playid_eq]

theorem registeredUids_eq (h : SameTables gl gl') : registeredUids gl' = registeredUids gl := by
  ext u
  simp only [mem_registeredUids, h.registered_iff]

/-- The invariant is a matter of the tables of registration. -/
theorem tableInv (h : SameTables gl gl') (hinv : TableInv gl) : TableInv gl' where
  used_iff m i := by rw [h.state_eq, h.socketUid_eq]; exact hinv.used_iff m i
  entry_of_slot m i u := by rw [h.socketUid_eq, h.uid2Playid_eq]; exact hinv.entry_of_slot m i u
  slot_of_entry u hu := by
    rw [h.socketUid_eq, h.mapOf_eq, h.slotOf_eq]
    exact hinv.slot_of_entry u ((h.registered_iff u).mp hu)
  playerNum_eq := by rw [h.playerNum_eq, h.registeredUids_eq]; exact hinv.playerNum_eq
  playerNum_le := by rw [h.playerNum_eq]; exact hinv.playerNum_le

end SameTables

/-- A new contents of a slot with the same mark changes no table of registration. -/
theorem sameTables_setPlayer {gl : GameLogic} {uid : Uid} {p : Player}
    (hp : p.state = (gl.playerOf uid).state) : SameTables gl (gl.setPlayer uid p) := by
  refine ⟨rfl, rfl, rfl, fun m i => ?_⟩
  by_cases hc : (m, i) = (gl.mapOf uid, gl.slotOf uid)
  · obtain ⟨rfl, rfl⟩ := Prod.mk.inj hc
    simp only [GameLogic.setPlayer, GameLogic.setSlot_mapPlayer, setCell_self]
    exact hp
  · simp only [GameLogic.setPlayer, GameLogic.setSlot_mapPlayer, setCell_of_ne hc]

theorem movePlayer_state (p : Player) (move : ℤ) : (movePlayer p move).state = p.state := by
  unfold movePlayer
  split_ifs <;> rfl

theorem sameTables_login (gl : GameLogic) (uid : Uid) (req : LoginReq) :
    SameTables gl (gl.login uid req) :=
  sameTables_setPlayer rfl

theorem sameTables_move (gl : GameLogic) (uid : Uid) (req : MoveReq) :
    SameTables gl (gl.move uid req) :=
  sameTables_setPlayer (movePlayer_state _ _)

theorem sameTables_start (gl : GameLogic) (uid : Uid) : SameTables gl (gl.start uid) :=
  ⟨rfl, rfl, rfl, fun _ _ => rfl⟩

theorem sameTables_setList (gl : GameLogic) (m : MapId) (l : Vector Uid maxPlayerEachMap) :
    SameTables gl (gl.setList m l) :=
  ⟨rfl, rfl, rfl, fun _ _ => rfl⟩

namespace TableInv

variable {gl : GameLogic}

theorem init (heap : MapId → SlotId → Player) : TableInv (gameLogicCreat heap) where
  used_iff m i := by simp [gameLogicCreat]
  entry_of_slot m i u h := by simp [gameLogicCreat] at h
  slot_of_entry u h := by simp [GameLogic.Registered, gameLogicCreat] at h
  playerNum_eq := by
    have hempty : registeredUids (gameLogicCreat heap) = ∅ := by
      ext u
      simp [GameLogic.Registered, gameLogicCreat]
    rw [hempty]
    rfl
  playerNum_le := by simp [gameLogicCreat]

/-- Two registered uids with the same map and slot are the same. -/
theorem eq_of_slot (h : TableInv gl) {u v : Uid} (hu : gl.Registered u) (hv : gl.Registered v)
    (hm : gl.mapOf u = gl.mapOf v) (hi : gl.slotOf u = gl.slotOf v) : u = v := by
  have hslot := h.slot_of_entry u hu
  rw [hm, hi, h.slot_of_entry v hv] at hslot
  exact (Option.some.inj hslot).symm

/-- A free slot holds no uid. -/
theorem socketUid_of_free (h : TableInv gl) {m : MapId} {i : SlotId}
    (hfree : (gl.mapPlayer m i).state = .typeInvalid) : gl.mapPlayerSocketUid m i = none := by
  by_contra hne
  have hused := (h.used_iff m i).mpr hne
  rw [hfree] at hused
  cases hused

/-- Under the invariant registration either changes nothing or registers the uid in a free slot. -/
theorem append_cases (h : TableInv gl) (uid : Uid) :
    gameRouteAppend gl uid = (-1, gl) ∨
    ∃ m i, gameRouteGetMapid gl = some m ∧ ¬gl.Registered uid ∧
      (gl.mapPlayer m i).state = .typeInvalid ∧ gl.mapPlayerSocketUid m i = none ∧
      gameRouteAppend gl uid = (0, gl.register uid m i) := by
  rcases gameRouteAppend_cases gl uid with he | ⟨m, i, hm, hu, hi, hnull, he⟩ | ⟨m, i, hi, hne, -⟩
  · exact Or.inl he
  · exact Or.inr ⟨m, i, hm, by simp [GameLogic.Registered, hu], hi, hnull, he⟩
  · exact absurd (h.socketUid_of_free hi) hne

/-- Under the invariant the removal of a registered uid clears its slot. -/
theorem del_eq (h : TableInv gl) {uid : Uid} (hreg : gl.Registered uid) :
    gameRouteDel gl uid = (0, gl.unregister uid) :=
  gameRouteDel_of_slot hreg (h.slot_of_entry uid hreg)

theorem registeredUids_register {uid : Uid} {m : MapId} {i : SlotId} :
    registeredUids (gl.register uid m i) = insert uid (registeredUids gl) := by
  ext u
  simp only [mem_registeredUids, Finset.mem_insert, GameLogic.Registered, GameLogic.register,
    Function.update_apply]
  split_ifs with hu
  · simp only [hu, true_or]
  · simp only [hu, false_or]

theorem registeredUids_unregister {uid : Uid} :
    registeredUids (gl.unregister uid) = (registeredUids gl).erase uid := by
  ext u
  simp only [mem_registeredUids, Finset.mem_erase, GameLogic.Registered, GameLogic.unregister,
    GameLogic.dropEntry, Function.update_apply]
  split_ifs with hu
  · simp only [hu, ne_eq, not_true, false_and]
  · simp only [hu, ne_eq, not_false_iff, true_and]

theorem register (h : TableInv gl) {uid : Uid} {m : MapId} {i : SlotId}
    (hroom : gl.playerNum < maxGameServicePlayerNum) (hnew : ¬gl.Registered uid)
    (hnull : gl.mapPlayerSocketUid m i = none) : TableInv (gl.register uid m i) where
  used_iff m' i' := by
    by_cases hc : (m', i') = (m, i)
    · obtain ⟨rfl, rfl⟩ := Prod.mk.inj hc
      simp [GameLogic.register]
    · simpa only [GameLogic.register, setCell_of_ne hc] using h.used_iff m' i'
  entry_of_slot m' i' u hu := by
    by_cases hc : (m', i') = (m, i)
    · obtain ⟨rfl, rfl⟩ := Prod.mk.inj hc
      simp only [GameLogic.register, setCell_self, Option.some.injEq] at hu
      subst hu
      exact Function.update_self ..
    · simp only [GameLogic.register, setCell_of_ne hc] at hu
      have hentry := h.entry_of_slot m' i' u hu
      have hne : u ≠ uid := by
        rintro rfl
        exact hnew (by simp only [GameLogic.Registered, hentry])
      simpa only [GameLogic.register, Function.update_of_ne hne] using hentry
  slot_of_entry u hu := by
    by_cases hne : u = uid
    · subst hne
      simp only [GameLogic.mapOf, GameLogic.slotOf, GameLogic.register, Function.update_self,
        setCell_self]
    · have hreg : gl.Registered u := by
        simpa only [GameLogic.Registered, GameLogic.register, Function.update_of_ne hne] using hu
      have hslot := h.slot_of_entry u hreg
      have hc : (gl.mapOf u, gl.slotOf u) ≠ (m, i) := by
        intro hc
        obtain ⟨rfl, rfl⟩ := Prod.mk.inj hc
        rw [hnull] at hslot
        cases hslot
      have hm : (gl.register uid m i).mapOf u = gl.mapOf u := by
        simp only [GameLogic.mapOf, GameLogic.register, Function.update_of_ne hne]
      have hi : (gl.register uid m i).slotOf u = gl.slotOf u := by
        simp only [GameLogic.slotOf, GameLogic.register, Function.update_of_ne hne]
      rw [hm, hi]
      simpa only [GameLogic.register, setCell_of_ne hc] using hslot
  playerNum_eq := by
    rw [registeredUids_register, Finset.card_insert_of_notMem (by simpa using hnew)]
    have hnum := h.playerNum_eq
    simp only [GameLogic.register]
    omega
  playerNum_le := by
    simp only [GameLogic.register]
    omega

theorem unregister (h : TableInv gl) {uid : Uid} (hreg : gl.Registered uid) :
    TableInv (gl.unregister uid) where
  used_iff m' i' := by
    by_cases hc : (m', i') = (gl.mapOf uid, gl.slotOf uid)
    · obtain ⟨rfl, rfl⟩ := Prod.mk.inj hc
      simp [GameLogic.unregister]
    · simpa only [GameLogic.unregister, setCell_of_ne hc, GameLogic.dropEntry]
        using h.used_iff m' i'
  entry_of_slot m' i' u hu := by
    by_cases hc : (m', i') = (gl.mapOf uid, gl.slotOf uid)
    · obtain ⟨rfl, rfl⟩ := Prod.mk.inj hc
      simp only [GameLogic.unregister, setCell_self, reduceCtorEq] at hu
    · simp only [GameLogic.unregister, setCell_of_ne hc] at hu
      have hentry := h.entry_of_slot m' i' u hu
      have hne : u ≠ uid := by
        rintro rfl
        exact hc (by simp only [GameLogic.mapOf, GameLogic.slotOf, hentry])
      simpa only [GameLogic.unregister, GameLogic.dropEntry, Function.update_of_ne hne] using hentry
  slot_of_entry u hu := by
    have hne : u ≠ uid := by
      rintro rfl
      simp [GameLogic.Registered, GameLogic.unregister, GameLogic.dropEntry] at hu
    have hu' : gl.Registered u := by
      simpa only [GameLogic.Registered, GameLogic.unregister, GameLogic.dropEntry,
        Function.update_of_ne hne] using hu
    have hc : (gl.mapOf u, gl.slotOf u) ≠ (gl.mapOf uid, gl.slotOf uid) := by
      intro hc
      obtain ⟨hm, hi⟩ := Prod.mk.inj hc
      exact hne (h.eq_of_slot hu' hreg hm hi)
    have hm : (gl.unregister uid).mapOf u = gl.mapOf u := by
      simp only [GameLogic.mapOf, GameLogic.unregister, GameLogic.dropEntry,
        Function.update_of_ne hne]
    have hi : (gl.unregister uid).slotOf u = gl.slotOf u := by
      simp only [GameLogic.slotOf, GameLogic.unregister, GameLogic.dropEntry,
        Function.update_of_ne hne]
    rw [hm, hi]
    simp only [GameLogic.unregister, setCell_of_ne hc]
    exact h.slot_of_entry u hu'
  playerNum_eq := by
    have hpos : 1 ≤ (registeredUids gl).card := Finset.card_pos.mpr ⟨uid, by simpa using hreg⟩
    rw [registeredUids_unregister, Finset.card_erase_of_mem (by simpa using hreg)]
    have hnum := h.playerNum_eq
    simp only [GameLogic.unregister, GameLogic.dropEntry]
    omega
  playerNum_le := by
    have hle := h.playerNum_le
    simp only [GameLogic.unregister, GameLogic.dropEntry]
    omega

/-- **Step lemma.** Every message handled without a fault keeps the bijection. -/
theorem step {gl' : GameLogic} {msg : GameMsg} {out : List Broadcast} (h : TableInv gl)
    (hstep : GameStep gl msg gl' out) : TableInv gl' := by
  cases hstep with
  | success uid =>
    rcases h.append_cases uid with he | ⟨m, i, hm, hnew, -, hnull, he⟩
    · rw [he]; exact h
    · rw [he]; exact h.register (gameRouteGetMapid_spec hm).1 hnew hnull
  | ignored => exact h
  | login uid req => exact (sameTables_login gl uid req).tableInv h
  | start uid => exact (sameTables_start gl uid).tableInv h
  | move uid req => exact (sameTables_move gl uid req).tableInv h
  | leave => exact h
  | close uid l hreg =>
    have hlist := sameTables_setList gl (gl.mapOf uid) l
    rw [(hlist.tableInv h).del_eq ((hlist.registered_iff uid).mpr hreg)]
    exact (hlist.tableInv h).unregister ((hlist.registered_iff uid).mpr hreg)

/-- The invariant along a run of a service. -/
theorem exec {ok : GameLogic → GameMsg → Prop} {is : List GameMsg} {os : List Broadcast}
    {gl' : GameLogic} (h : TableInv gl) (hrun : gameMachine.Exec ok gl is os gl') :
    TableInv gl' :=
  hrun.invariant h fun _ _ _ _ hinv _ hs => hinv.step (disposeQueueEvent_step hs)

end TableInv

/-! ### Whose entry a message changes -/

namespace GameStep

variable {gl gl' : GameLogic} {msg : GameMsg} {out : List Broadcast}

/-- A message changes no entry but that of its own uid. -/
theorem entry_of_ne (hstep : GameStep gl msg gl' out) {u : Uid} (h : u ≠ msg.uid) :
    gl'.uid2Playid u = gl.uid2Playid u := by
  cases hstep with
  | success uid =>
    rcases gameRouteAppend_cases gl uid with he | ⟨m, i, -, -, -, -, he⟩ | ⟨m, i, -, -, he⟩
    · rw [he]
    · rw [he]
      exact Function.update_of_ne h _ _
    · rw [he]
      rfl
  | close uid l hreg =>
    have hreg' : (gl.setList (gl.mapOf uid) l).Registered uid := hreg
    rw [gameRouteDel_uid2Playid hreg']
    exact Function.update_of_ne h _ _
  | ignored | login | start | move | leave => rfl

/-- Requests change no entry. -/
theorem entry_of_data {uid : Uid} {req : Request} (hstep : GameStep gl (.data uid req) gl' out) :
    gl'.uid2Playid = gl.uid2Playid := by
  cases hstep <;> rfl

/-- After its close a uid is not registered. -/
theorem not_registered_of_close {uid : Uid} (hstep : GameStep gl (.close uid) gl' out) :
    ¬gl'.Registered uid := by
  cases hstep with
  | ignored h => exact h
  | close _ l hreg =>
    have hreg' : (gl.setList (gl.mapOf uid) l).Registered uid := hreg
    unfold GameLogic.Registered
    rw [gameRouteDel_uid2Playid hreg', Function.update_self]
    simp only [reduceCtorEq, not_false_iff]

end GameStep

/-- **The tables describe one bijection.** In every state that one game service reaches without an
access outside a list, a slot is in use exactly when it holds a uid, the entry of the uid it holds
points back to it, every uid in use is held by exactly one slot, and `player_num` counts the
registered uids and stays within `MAX_GAME_SERVICE_PLAYER_NUM`. -/
theorem tables_bijection {heap : MapId → SlotId → Player} {is : List GameMsg} {os : List Broadcast}
    {gl : GameLogic} (hrun : gameMachine.Exec Machine.any (gameLogicCreat heap) is os gl) :
    (∀ m i, (gl.mapPlayer m i).state = .typeUsing ↔ gl.mapPlayerSocketUid m i ≠ none) ∧
    (∀ m i u, gl.mapPlayerSocketUid m i = some u → gl.uid2Playid u = ⟨.typeUsing, m, i⟩) ∧
    (∀ u, (gl.uid2Playid u).state = .typeUsing →
      ∃! p : MapId × SlotId, gl.mapPlayerSocketUid p.1 p.2 = some u) ∧
    gl.playerNum = (Finset.univ.filter fun u => (gl.uid2Playid u).state = .typeUsing).card ∧
    gl.playerNum ≤ maxGameServicePlayerNum := by
  have h := (TableInv.init heap).exec hrun
  refine ⟨h.used_iff, h.entry_of_slot, fun u hu => ?_, h.playerNum_eq, h.playerNum_le⟩
  refine ⟨(gl.mapOf u, gl.slotOf u), h.slot_of_entry u hu, fun p hp => ?_⟩
  have hentry := h.entry_of_slot p.1 p.2 u hp
  simp only [GameLogic.mapOf, GameLogic.slotOf, hentry]

/-- Slots that hold nothing: one contents that `malloc` may return. -/
def zeroHeap : MapId → SlotId → Player := fun _ _ => ⟨.typeInvalid, 0, 0, [], 0, 0⟩

/-- Two registrations and a removal, at the end of which one player is counted. -/
theorem tables_bijection_run : ∃ gl os,
    gameMachine.Exec Machine.any (gameLogicCreat zeroHeap) [.success 3, .success 4, .close 3]
      os gl ∧
    gl.playerNum = 1 ∧
    (∀ m i, (gl.mapPlayer m i).state = .typeUsing ↔ gl.mapPlayerSocketUid m i ≠ none) ∧
    gl.playerNum = (Finset.univ.filter fun u => (gl.uid2Playid u).state = .typeUsing).card := by
  have hrun : (gameMachine.run Machine.any (gameLogicCreat zeroHeap)
      [.success 3, .success 4, .close 3]).map (fun p => p.1.playerNum) = some 1 := by rfl
  obtain ⟨gl, os, hrun, hnum⟩ := gameMachine.exec_of_run_map hrun
  have h := tables_bijection hrun
  exact ⟨gl, os, hrun, hnum, h.1, h.2.2.2.1⟩

end GameServer
