import GameServer.Game.Tables
import Mathlib.Data.Fintype.Card

/-!
# Started players

`map_player_num` is raised by the start handler and lowered by `game_route_del`, whether or not
the removed player had started. `Tracked` adds to the tables of a game service the set of the uids
whose start request has been accepted since their registration, and `SessionStep` sorts the
messages by what they do to that set: nothing, a start, or a removal.

## Main definitions

* `Tracked`, `Tracked.startedIn`, `sessionMachine`.
* `GameLogic.Accepts`, `GameLogic.Removes` : a message that starts or removes a player.
* `Orderly`, `Guarded` : the conditions on a message under which the counter is exact, and under
  which it stays an index of the list.

## Main results

* `counter_exact` : the counter of a map is the number of its started players as long as every
  start is a first start and every removed player had started, and no longer.
* `list_access_safe` : accesses to the lists stay in range along guarded runs, and a guarded
  message is exactly one that is handled safely.
-/

namespace GameServer

/-- The uid that asks to start. -/
def GameMsg.startUid : GameMsg → Option Uid
  | .data uid (.gameStartReq (some ⟨true⟩)) => some uid
  | _ => none

/-- The uid whose connection has closed. -/
def GameMsg.closeUid : GameMsg → Option Uid
  | .close uid => some uid
  | _ => none

theorem GameMsg.mem_startUid {msg : GameMsg} {uid : Uid} :
    uid ∈ msg.startUid ↔ msg = .data uid (.gameStartReq (some ⟨true⟩)) := by
  unfold startUid
  split
  · next v =>
    simp only [Option.mem_def, Option.some.injEq, data.injEq, and_true]
  · next hne =>
    simp only [Option.mem_def, reduceCtorEq, false_iff]
    exact hne uid

theorem GameMsg.mem_closeUid {msg : GameMsg} {uid : Uid} :
    uid ∈ msg.closeUid ↔ msg = .close uid := by
  cases msg <;> simp only [closeUid, Option.mem_def, Option.some.injEq, close.injEq, reduceCtorEq]

namespace GameLogic

/-- The message is a start request of `uid` that is accepted. -/
def Accepts (gl : GameLogic) (msg : GameMsg) (uid : Uid) : Prop :=
  uid ∈ msg.startUid ∧ gl.Registered uid

/-- The message removes the registered `uid`. -/
def Removes (gl : GameLogic) (msg : GameMsg) (uid : Uid) : Prop :=
  uid ∈ msg.closeUid ∧ gl.Registered uid

end GameLogic

/-- A game service with the uids whose start request was accepted since their registration. -/
structure Tracked where
  gl : GameLogic
  started : Finset Uid

namespace Tracked

/-- The started players of a map: those of its registered players that have started. -/
def startedIn (t : Tracked) (m : MapId) : Finset Uid :=
  t.started.filter fun u => t.gl.Registered u ∧ t.gl.mapOf u = m

theorem mem_startedIn {t : Tracked} {m : MapId} {u : Uid} :
    u ∈ t.startedIn m ↔ u ∈ t.started ∧ t.gl.Registered u ∧ t.gl.mapOf u = m := by
  simp only [startedIn, Finset.mem_filter]

theorem mem_startedIn_mapOf {t : Tracked} {u : Uid} (hreg : t.gl.Registered u) :
    u ∈ t.startedIn (t.gl.mapOf u) ↔ u ∈ t.started := by
  simp only [mem_startedIn, hreg, and_true]

/-- The set of started uids after a message: a registration or a removal forgets earlier starts. -/
def record (t : Tracked) (msg : GameMsg) : Finset Uid :=
  match msg with
  | .success uid => if (gameRouteAppend t.gl uid).1 = 0 then t.started.erase uid else t.started
  | .close uid => t.started.erase uid
  | .data _ _ =>
    match msg.startUid with
    | none => t.started
    | some uid => if t.gl.Registered uid then insert uid t.started else t.started

/-- The state before the first message. -/
def init (heap : MapId → SlotId → Player) : Tracked := ⟨gameLogicCreat heap, ∅⟩

/-- The state after an accepted start of `uid`. -/
def afterStart (t : Tracked) (uid : Uid) : Tracked := ⟨t.gl.start uid, insert uid t.started⟩

/-- The state after the removal of `uid`, with `l` as the rebuilt list. -/
def afterClose (t : Tracked) (uid : Uid) (l : Vector Uid maxPlayerEachMap) : Tracked :=
  ⟨(t.gl.setList (t.gl.mapOf uid) l).unregister uid, t.started.erase uid⟩

theorem afterClose_entry_of_ne (t : Tracked) {uid u : Uid} (l : Vector Uid maxPlayerEachMap)
    (h : u ≠ uid) : (t.afterClose uid l).gl.uid2Playid u = t.gl.uid2Playid u :=
  Function.update_of_ne h _ _

end Tracked

/-- The game service, with its started players recorded. -/
def sessionMachine : Machine Tracked GameMsg Broadcast Fault where
  step t msg := do
    let (gl', out) ← disposeQueueEvent t.gl msg
    .ok (⟨gl', t.record msg⟩, out)

theorem sessionMachine_step_eq_ok {t t' : Tracked} {msg : GameMsg} {out : List Broadcast} :
    sessionMachine.step t msg = .ok (t', out) ↔
      disposeQueueEvent t.gl msg = .ok (t'.gl, out) ∧ t'.started = t.record msg := by
  obtain ⟨gl', started'⟩ := t'
  simp only [sessionMachine, Except.bind_eq_ok_iff, Except.ok.injEq, Prod.mk.injEq,
    Tracked.mk.injEq, Prod.exists]
  constructor
  · rintro ⟨gl₁, out₁, h, ⟨rfl, rfl⟩, rfl⟩
    exact ⟨h, rfl⟩
  · rintro ⟨h, rfl⟩
    exact ⟨gl', out, h, ⟨rfl, rfl⟩, rfl⟩

theorem sessionMachine_step_eq_error {t : Tracked} {msg : GameMsg} {e : Fault} :
    sessionMachine.step t msg = .error e ↔ disposeQueueEvent t.gl msg = .error e := by
  simp only [sessionMachine, Except.bind_eq_error_iff, reduceCtorEq, and_false, exists_false,
    or_false]

/-- The tables of registration describe a bijection, and whoever has started is registered. -/
structure SessionInv (t : Tracked) : Prop where
  tables : TableInv t.gl
  registered : ∀ u ∈ t.started, t.gl.Registered u

theorem SessionInv.init (heap : MapId → SlotId → Player) : SessionInv (Tracked.init heap) where
  tables := TableInv.init heap
  registered u hu := absurd hu (Finset.notMem_empty u)

/-- What a message does to the started players: nothing, a start, or a removal. -/
inductive SessionStep (t : Tracked) (msg : GameMsg) (t' : Tracked) : Prop
  | quiet (hacc : ∀ uid, ¬t.gl.Accepts msg uid) (hrem : ∀ uid, ¬t.gl.Removes msg uid)
      (hstarted : t'.started = t.started) (hnum : t'.gl.mapPlayerNum = t.gl.mapPlayerNum)
      (hlist : t'.gl.mapUidList = t.gl.mapUidList)
      (hentry : ∀ u, t.gl.Registered u → t'.gl.uid2Playid u = t.gl.uid2Playid u)
  | start (uid : Uid) (hmsg : msg = .data uid (.gameStartReq (some ⟨true⟩)))
      (hreg : t.gl.Registered uid) (hpos : 0 ≤ t.gl.mapPlayerNum (t.gl.mapOf uid))
      (hlt : t.gl.mapPlayerNum (t.gl.mapOf uid) < maxPlayerEachMap)
      (ht : t' = t.afterStart uid)
  | close (uid : Uid) (l : Vector Uid maxPlayerEachMap) (hmsg : msg = .close uid)
      (hreg : t.gl.Registered uid) (hl : t.gl.IsRebuilt uid l)
      (ht : t' = t.afterClose uid l)

/-- A message that accepts no start leaves the record alone where the uid that it registers or
removes is not in it. -/
theorem Tracked.record_eq_self {t : Tracked} {msg : GameMsg} (hacc : ∀ uid, ¬t.gl.Accepts msg uid)
    (hclose : ∀ uid, msg = .close uid → uid ∉ t.started)
    (hsucc : ∀ uid, msg = .success uid → (gameRouteAppend t.gl uid).1 = 0 → uid ∉ t.started) :
    t.record msg = t.started := by
  cases msg with
  | success uid =>
    simp only [Tracked.record]
    split_ifs with h
    · exact Finset.erase_eq_of_notMem (hsucc uid rfl h)
    · rfl
  | close uid => exact Finset.erase_eq_of_notMem (hclose uid rfl)
  | data uid req =>
    simp only [Tracked.record]
    split
    · rfl
    · next v hv => rw [if_neg fun h => hacc v ⟨hv, h⟩]

namespace SessionInv

variable {t t' : Tracked} {msg : GameMsg} {out : List Broadcast}

/-- **Inversion.** -/
theorem cases_step (h : SessionInv t) (hstep : sessionMachine.step t msg = .ok (t', out)) :
    SessionStep t msg t' := by
  obtain ⟨gl', started'⟩ := t'
  obtain ⟨hgl, rfl⟩ : disposeQueueEvent t.gl msg = .ok (gl', out) ∧ started' = t.record msg :=
    sessionMachine_step_eq_ok.mp hstep
  replace hgl := disposeQueueEvent_step hgl
  have hreg {uid : Uid} (hnot : ¬t.gl.Registered uid) : uid ∉ t.started :=
    fun hu => hnot (h.registered uid hu)
  cases hgl with
  | success uid =>
    have hacc : ∀ v, ¬t.gl.Accepts (.success uid) v := fun v hv => by cases hv.1
    have hrem : ∀ v, ¬t.gl.Removes (.success uid) v := fun v hv => by cases hv.1
    rcases h.tables.append_cases uid with he | ⟨m, i, -, hnew, -, -, he⟩
    · refine .quiet hacc hrem ?_ (by rw [he]) (by rw [he]) fun u _ => by rw [he]
      refine Tracked.record_eq_self hacc (fun v hv => by cases hv) fun v hv hok => ?_
      cases hv
      have hneg : (-1 : ℤ) = 0 := by simpa only [he] using hok
      omega
    · refine .quiet hacc hrem ?_ (by rw [he]; rfl) (by rw [he]; rfl) fun u hu => ?_
      · refine Tracked.record_eq_self hacc (fun v hv => by cases hv) fun v hv _ => ?_
        cases hv
        exact hreg hnew
      · have hne : u ≠ uid := fun hu' => hnew (hu' ▸ hu)
        simp only [he, GameLogic.register, Function.update_of_ne hne]
  | ignored hig =>
    have hacc : ∀ v, ¬t.gl.Accepts msg v := by
      rintro v ⟨hs, hv⟩
      obtain rfl := GameMsg.mem_startUid.mp hs
      rcases hig hv with heq | ⟨d, heq⟩ | ⟨b, heq⟩ <;> cases heq
    have hrem : ∀ v, ¬t.gl.Removes msg v := by
      rintro v ⟨hs, hv⟩
      obtain rfl := GameMsg.mem_closeUid.mp hs
      exact hig hv
    refine .quiet hacc hrem ?_ rfl rfl fun _ _ => rfl
    refine Tracked.record_eq_self hacc ?_ ?_
    · rintro v rfl
      exact hreg hig
    · rintro v rfl
      exact hig.elim
  | login uid req =>
    exact .quiet (fun v hv => by cases hv.1) (fun v hv => by cases hv.1) rfl rfl rfl fun _ _ => rfl
  | start uid hu hpos hlt =>
    refine .start uid rfl hu hpos hlt ?_
    simp only [Tracked.record, GameMsg.startUid, if_pos hu, Tracked.afterStart]
  | move uid req =>
    exact .quiet (fun v hv => by cases hv.1) (fun v hv => by cases hv.1) rfl rfl rfl fun _ _ => rfl
  | leave uid data =>
    exact .quiet (fun v hv => by cases hv.1) (fun v hv => by cases hv.1) rfl rfl rfl fun _ _ => rfl
  | close uid l hu hl =>
    have hlist := sameTables_setList t.gl (t.gl.mapOf uid) l
    refine .close uid l rfl hu hl ?_
    rw [(hlist.tableInv h.tables).del_eq ((hlist.registered_iff uid).mpr hu)]
    rfl

/-- **Step lemma.** -/
theorem step (h : SessionInv t) (hstep : sessionMachine.step t msg = .ok (t', out)) :
    SessionInv t' := by
  have htables : TableInv t'.gl :=
    h.tables.step (disposeQueueEvent_step (sessionMachine_step_eq_ok.mp hstep).1)
  refine ⟨htables, ?_⟩
  cases h.cases_step hstep with
  | quiet _ _ hstarted _ _ hentry =>
    intro u hu
    have hreg := h.registered u (hstarted ▸ hu)
    simp only [GameLogic.Registered, hentry u hreg] at hreg ⊢
    exact hreg
  | start uid _ hreg _ _ ht =>
    subst ht
    intro u hu
    rcases Finset.mem_insert.mp hu with rfl | hu
    · exact hreg
    · exact h.registered u hu
  | close uid l _ _ _ ht =>
    subst ht
    intro u hu
    obtain ⟨hne, hu⟩ := Finset.mem_erase.mp hu
    simpa only [GameLogic.Registered, t.afterClose_entry_of_ne l hne] using h.registered u hu

/-- The started players of a map sit in different slots. -/
theorem card_startedIn_le (h : SessionInv t) (m : MapId) :
    (t.startedIn m).card ≤ maxPlayerEachMap := by
  have hinj : Set.InjOn t.gl.slotOf (t.startedIn m) := by
    intro u hu v hv hslot
    obtain ⟨-, hu, hum⟩ := Tracked.mem_startedIn.mp hu
    obtain ⟨-, hv, hvm⟩ := Tracked.mem_startedIn.mp hv
    exact h.tables.eq_of_slot hu hv (hum.trans hvm.symm) hslot
  have hcard := Finset.card_le_card_of_injOn t.gl.slotOf (fun u _ => Finset.mem_univ _) hinj
  rwa [Finset.card_univ, Fintype.card_fin] at hcard

end SessionInv

/-! ### The started players of a map after a message -/

namespace Tracked

variable {t t' : Tracked}

theorem startedIn_of_quiet (h : SessionInv t) (hstarted : t'.started = t.started)
    (hentry : ∀ u, t.gl.Registered u → t'.gl.uid2Playid u = t.gl.uid2Playid u) (m : MapId) :
    t'.startedIn m = t.startedIn m := by
  ext u
  simp only [mem_startedIn, hstarted]
  refine and_congr_right fun hu => ?_
  simp only [GameLogic.Registered, GameLogic.mapOf, hentry u (h.registered u hu)]

theorem startedIn_afterStart {uid : Uid} (hreg : t.gl.Registered uid) (m : MapId) :
    (t.afterStart uid).startedIn m =
      if m = t.gl.mapOf uid then insert uid (t.startedIn m) else t.startedIn m := by
  have hsame := sameTables_start t.gl uid
  ext u
  split_ifs with hm
  · subst hm
    simp only [mem_startedIn, afterStart, Finset.mem_insert, hsame.registered_iff, hsame.mapOf_eq]
    constructor
    · rintro ⟨rfl | hu, hrest⟩
      · exact Or.inl rfl
      · exact Or.inr ⟨hu, hrest⟩
    · rintro (rfl | ⟨hu, hrest⟩)
      · exact ⟨Or.inl rfl, hreg, rfl⟩
      · exact ⟨Or.inr hu, hrest⟩
  · simp only [mem_startedIn, afterStart, Finset.mem_insert, hsame.registered_iff, hsame.mapOf_eq]
    constructor
    · rintro ⟨rfl | hu, hr, hmap⟩
      · exact absurd hmap.symm hm
      · exact ⟨hu, hr, hmap⟩
    · rintro ⟨hu, hrest⟩
      exact ⟨Or.inr hu, hrest⟩

theorem startedIn_afterClose (uid : Uid) (l : Vector Uid maxPlayerEachMap) (m : MapId) :
    (t.afterClose uid l).startedIn m = (t.startedIn m).erase uid := by
  ext u
  have hstarted : (t.afterClose uid l).started = t.started.erase uid := rfl
  simp only [mem_startedIn, hstarted, Finset.mem_erase, and_assoc]
  refine and_congr_right fun hne => and_congr_right fun _ => ?_
  simp only [GameLogic.Registered, GameLogic.mapOf, t.afterClose_entry_of_ne l hne]

theorem mapPlayerNum_afterStart (uid : Uid) :
    (t.afterStart uid).gl.mapPlayerNum =
      Function.update t.gl.mapPlayerNum (t.gl.mapOf uid) (t.gl.mapPlayerNum (t.gl.mapOf uid) + 1) :=
  rfl

theorem mapPlayerNum_afterClose (uid : Uid) (l : Vector Uid maxPlayerEachMap) :
    (t.afterClose uid l).gl.mapPlayerNum =
      Function.update t.gl.mapPlayerNum (t.gl.mapOf uid) (t.gl.mapPlayerNum (t.gl.mapOf uid) - 1) :=
  rfl

end Tracked

/-! ### The counter of a map -/

/-- Every accepted start is the first since the registration, and every removed player had
started. -/
def Orderly (t : Tracked) (msg : GameMsg) : Prop :=
  (∀ uid ∈ msg.startUid, t.gl.Registered uid → uid ∉ t.started) ∧
    ∀ uid ∈ msg.closeUid, t.gl.Registered uid → uid ∈ t.started

-- By the uid of the message: a search through all uids would not be a feasible decision.
instance (t : Tracked) (msg : GameMsg) : Decidable (Orderly t msg) :=
  @instDecidableAnd _ _ (Option.decidableForallMem _) (Option.decidableForallMem _)

theorem orderly_of_quiet {t : Tracked} {msg : GameMsg} (hacc : ∀ uid, ¬t.gl.Accepts msg uid)
    (hrem : ∀ uid, ¬t.gl.Removes msg uid) : Orderly t msg :=
  ⟨fun uid hs hreg => absurd ⟨hs, hreg⟩ (hacc uid), fun uid hs hreg => absurd ⟨hs, hreg⟩ (hrem uid)⟩

/-- The counters are the numbers of started players. -/
def CounterExact (t : Tracked) : Prop :=
  ∀ m, t.gl.mapPlayerNum m = (t.startedIn m).card

theorem counterExact_init (heap : MapId → SlotId → Player) : CounterExact (Tracked.init heap) :=
  fun _ => rfl

/-- **Step lemma.** From exact counters a message leads to exact counters just when it is
orderly. -/
theorem counterExact_step_iff {t t' : Tracked} {msg : GameMsg} {out : List Broadcast}
    (hinv : SessionInv t) (h : CounterExact t) (hstep : sessionMachine.step t msg = .ok (t', out)) :
    CounterExact t' ↔ Orderly t msg := by
  cases hinv.cases_step hstep with
  | quiet hacc hrem hstarted hnum _ hentry =>
    refine iff_of_true (fun m => ?_) (orderly_of_quiet hacc hrem)
    rw [hnum, Tracked.startedIn_of_quiet hinv hstarted hentry]
    exact h m
  | start uid hmsg hreg _ _ ht =>
    subst hmsg ht
    have hmem := Tracked.mem_startedIn_mapOf hreg
    have hord : Orderly t (.data uid (.gameStartReq (some ⟨true⟩))) ↔ uid ∉ t.started := by
      simp [Orderly, GameMsg.startUid, GameMsg.closeUid, hreg]
    rw [hord]
    constructor
    · intro h' hu
      have hm := h' (t.gl.mapOf uid)
      rw [Tracked.mapPlayerNum_afterStart, Function.update_self, Tracked.startedIn_afterStart hreg,
        if_pos rfl, Finset.insert_eq_of_mem (hmem.mpr hu), h] at hm
      omega
    · intro hu m
      rw [Tracked.mapPlayerNum_afterStart, Tracked.startedIn_afterStart hreg]
      by_cases hm : m = t.gl.mapOf uid
      · subst hm
        rw [Function.update_self, if_pos rfl, Finset.card_insert_of_notMem (mt hmem.mp hu), h]
        omega
      · rw [Function.update_of_ne hm, if_neg hm]
        exact h m
  | close uid l hmsg hreg _ ht =>
    subst hmsg ht
    have hmem := Tracked.mem_startedIn_mapOf hreg
    have hord : Orderly t (.close uid) ↔ uid ∈ t.started := by
      simp [Orderly, GameMsg.startUid, GameMsg.closeUid, hreg]
    rw [hord]
    constructor
    · intro h'
      by_contra hu
      have hm := h' (t.gl.mapOf uid)
      rw [Tracked.mapPlayerNum_afterClose, Function.update_self, Tracked.startedIn_afterClose,
        Finset.erase_eq_of_notMem (mt hmem.mp hu), h] at hm
      omega
    · intro hu m
      rw [Tracked.mapPlayerNum_afterClose, Tracked.startedIn_afterClose]
      by_cases hm : m = t.gl.mapOf uid
      · subst hm
        have hpos := Finset.card_pos.mpr ⟨uid, hmem.mpr hu⟩
        rw [Function.update_self, Finset.card_erase_of_mem (hmem.mpr hu), h]
        omega
      · have hnot : uid ∉ t.startedIn m := fun hu' => hm (Tracked.mem_startedIn.mp hu').2.2.symm
        rw [Function.update_of_ne hm, Finset.erase_eq_of_notMem hnot]
        exact h m

theorem SessionInv.exec {ok : Tracked → GameMsg → Prop} {heap : MapId → SlotId → Player}
    {is : List GameMsg} {os : List Broadcast} {t : Tracked}
    (hrun : sessionMachine.Exec ok (Tracked.init heap) is os t) : SessionInv t :=
  hrun.invariant (SessionInv.init heap) fun _ _ _ _ hinv _ hstep => hinv.step hstep

/-- **The counter of a map is the number of its started players.** In every state reached by
orderly messages the counters are exact and within bounds; the next message keeps them exact
just when it is orderly. -/
theorem counter_exact {heap : MapId → SlotId → Player} {is : List GameMsg} {os : List Broadcast}
    {t : Tracked} (hrun : sessionMachine.Exec Orderly (Tracked.init heap) is os t) :
    (∀ m, t.gl.mapPlayerNum m = (t.startedIn m).card ∧ 0 ≤ t.gl.mapPlayerNum m ∧
      t.gl.mapPlayerNum m ≤ maxPlayerEachMap) ∧
    ∀ msg t' out, sessionMachine.step t msg = .ok (t', out) →
      ((∀ m, t'.gl.mapPlayerNum m = (t'.startedIn m).card) ↔ Orderly t msg) := by
  have hexact : SessionInv t ∧ CounterExact t := by
    refine hrun.invariant (P := fun t => SessionInv t ∧ CounterExact t)
      ⟨SessionInv.init heap, counterExact_init heap⟩ ?_
    rintro s msg s' out ⟨hinv, hcount⟩ hord hstep
    exact ⟨hinv.step hstep, (counterExact_step_iff hinv hcount hstep).mpr hord⟩
  obtain ⟨hinv, hcount⟩ := hexact
  refine ⟨fun m => ?_, fun msg t' out hstep => counterExact_step_iff hinv hcount hstep⟩
  have hle := hinv.card_startedIn_le m
  have hm := hcount m
  refine ⟨hm, ?_, ?_⟩ <;> omega

/-- Two clients start and one of them leaves: one started player is counted. -/
theorem counter_exact_run : ∃ t os, sessionMachine.Exec Orderly (Tracked.init zeroHeap)
    [.success 3, .success 4, .data 3 (.gameStartReq (some ⟨true⟩)),
      .data 4 (.gameStartReq (some ⟨true⟩)), .close 3] os t ∧
    t.gl.mapPlayerNum 0 = 1 ∧ t.gl.mapPlayerNum 0 = (t.startedIn 0).card := by
  have hrun : (sessionMachine.run Orderly (Tracked.init zeroHeap)
      [.success 3, .success 4, .data 3 (.gameStartReq (some ⟨true⟩)),
        .data 4 (.gameStartReq (some ⟨true⟩)), .close 3]).map
      (fun p => p.1.gl.mapPlayerNum 0) = some 1 := by decide +kernel
  obtain ⟨t, os, hrun, hnum⟩ := sessionMachine.exec_of_run_map hrun
  exact ⟨t, os, hrun, hnum, ((counter_exact hrun).1 0).1⟩

/-- A client that leaves without having started makes the counter of its map negative, with no
started player in the map. -/
theorem counter_negative : ∃ t os, sessionMachine.Exec Machine.any (Tracked.init zeroHeap)
    [.success 3, .close 3] os t ∧ t.gl.mapPlayerNum 0 = -1 ∧ (t.startedIn 0).card = 0 := by
  have hrun : (sessionMachine.run Machine.any (Tracked.init zeroHeap) [.success 3, .close 3]).map
      (fun p => (p.1.gl.mapPlayerNum 0, (p.1.startedIn 0).card)) = some (-1, 0) := by rfl
  obtain ⟨t, os, hrun, hobs⟩ := sessionMachine.exec_of_run_map hrun
  exact ⟨t, os, hrun, (Prod.mk.inj hobs).1, (Prod.mk.inj hobs).2⟩

/-! ### Accesses to the lists -/

/-- An accepted start is the first since the registration and finds a counter that is not
negative. -/
def Guarded (t : Tracked) (msg : GameMsg) : Prop :=
  ∀ uid ∈ msg.startUid, t.gl.Registered uid →
    uid ∉ t.started ∧ 0 ≤ t.gl.mapPlayerNum (t.gl.mapOf uid)

instance (t : Tracked) (msg : GameMsg) : Decidable (Guarded t msg) :=
  Option.decidableForallMem _

/-- The message takes no index outside a list, and an accepted start of a player that has started
changes neither the counter nor the list of its map. -/
def HandledSafely (t : Tracked) (msg : GameMsg) : Prop :=
  sessionMachine.step t msg ≠ .error .listRange ∧
    ∀ uid t' out, t.gl.Accepts msg uid → uid ∈ t.started →
      sessionMachine.step t msg = .ok (t', out) →
      t'.gl.mapPlayerNum (t.gl.mapOf uid) = t.gl.mapPlayerNum (t.gl.mapOf uid) ∧
        t'.gl.mapUidList (t.gl.mapOf uid) = t.gl.mapUidList (t.gl.mapOf uid)

/-- The counters are at most the numbers of started players. -/
def CounterBound (t : Tracked) : Prop :=
  ∀ m, t.gl.mapPlayerNum m ≤ (t.startedIn m).card

theorem CounterBound.init (heap : MapId → SlotId → Player) : CounterBound (Tracked.init heap) :=
  fun _ => le_rfl

/-- **Step lemma.** A removal lowers the counter of the map, and at most by as much the number of
its started players. -/
theorem CounterBound.step {t t' : Tracked} {msg : GameMsg} {out : List Broadcast}
    (hinv : SessionInv t) (h : CounterBound t) (hguard : Guarded t msg)
    (hstep : sessionMachine.step t msg = .ok (t', out)) : CounterBound t' := by
  cases hinv.cases_step hstep with
  | quiet _ _ hstarted hnum _ hentry =>
    intro m
    rw [hnum, Tracked.startedIn_of_quiet hinv hstarted hentry]
    exact h m
  | start uid hmsg hreg _ _ ht =>
    subst hmsg ht
    have hnew : uid ∉ t.started := (hguard uid rfl hreg).1
    intro m
    have hm := h m
    rw [Tracked.mapPlayerNum_afterStart, Tracked.startedIn_afterStart hreg]
    by_cases hmap : m = t.gl.mapOf uid
    · subst hmap
      rw [Function.update_self, if_pos rfl,
        Finset.card_insert_of_notMem (mt (Tracked.mem_startedIn_mapOf hreg).mp hnew)]
      omega
    · rw [Function.update_of_ne hmap, if_neg hmap]
      exact hm
  | close uid l hmsg hreg _ ht =>
    subst hmsg ht
    intro m
    have hm := h m
    rw [Tracked.mapPlayerNum_afterClose, Tracked.startedIn_afterClose]
    by_cases hmap : m = t.gl.mapOf uid
    · subst hmap
      have hcard := Finset.pred_card_le_card_erase (s := t.startedIn (t.gl.mapOf uid)) (a := uid)
      rw [Function.update_self]
      omega
    · have hnot : uid ∉ t.startedIn m :=
        fun hu => hmap (Tracked.mem_startedIn.mp hu).2.2.symm
      rw [Function.update_of_ne hmap, Finset.erase_eq_of_notMem hnot]
      exact hm

/-- A map with a registered player that has not started has room for a start. -/
theorem SessionInv.card_startedIn_lt {t : Tracked} (h : SessionInv t) {uid : Uid}
    (hreg : t.gl.Registered uid) (hnew : uid ∉ t.started) :
    (t.startedIn (t.gl.mapOf uid)).card < maxPlayerEachMap := by
  -- The bound for the state in which `uid` has started as well.
  let t₁ : Tracked := ⟨t.gl, insert uid t.started⟩
  have h₁ : SessionInv t₁ := by
    refine ⟨h.tables, fun u hu => ?_⟩
    rcases Finset.mem_insert.mp hu with rfl | hu
    · exact hreg
    · exact h.registered u hu
  have hle := h₁.card_startedIn_le (t.gl.mapOf uid)
  have hins : t₁.startedIn (t.gl.mapOf uid) = insert uid (t.startedIn (t.gl.mapOf uid)) := by
    simp only [Tracked.startedIn, t₁, Finset.filter_insert, hreg, and_self, if_true]
  rw [hins, Finset.card_insert_of_notMem (mt (Tracked.mem_startedIn_mapOf hreg).mp hnew)] at hle
  omega

/-- Within the bound no guarded message overruns a list. -/
theorem not_overruns_of_guarded {t : Tracked} {msg : GameMsg} (hinv : SessionInv t)
    (h : CounterBound t) (hguard : Guarded t msg) : ¬t.gl.Overruns msg := by
  have hle (m : MapId) : t.gl.mapPlayerNum m ≤ maxPlayerEachMap := by
    have hm := h m
    have hcard := hinv.card_startedIn_le m
    omega
  intro hover
  unfold GameLogic.Overruns at hover
  split at hover
  · next uid _ => exact absurd (hle (t.gl.mapOf uid)) (not_le.mpr hover.2)
  · next uid =>
    obtain ⟨hnew, hpos⟩ := hguard uid rfl hover.1
    have hlt := hinv.card_startedIn_lt hover.1 hnew
    have hm := h (t.gl.mapOf uid)
    exact hover.2 ⟨hpos, by omega⟩
  · next uid _ => exact absurd (hle (t.gl.mapOf uid)) (not_le.mpr hover.2)
  · next uid =>
    have hm := hle (t.gl.mapOf uid)
    omega
  · exact hover

/-- Within the bound the guarded messages are those handled safely. -/
theorem handledSafely_iff {t : Tracked} {msg : GameMsg} (hinv : SessionInv t)
    (h : CounterBound t) : HandledSafely t msg ↔ Guarded t msg := by
  constructor
  · rintro ⟨hrange, hagain⟩ uid huid hreg
    obtain rfl := GameMsg.mem_startUid.mp huid
    cases hstep : sessionMachine.step t (.data uid (.gameStartReq (some ⟨true⟩))) with
    | error e =>
      cases disposeQueueEvent_fault (sessionMachine_step_eq_error.mp hstep) with
      | overrun => exact absurd hstep hrange
      | nullMessage _ hnull => exact hnull.elim
    | ok p =>
      cases hinv.cases_step hstep with
      | quiet hacc => exact absurd ⟨huid, hreg⟩ (hacc uid)
      | start v hmsg _ hpos _ ht =>
        cases hmsg
        refine ⟨fun hold => ?_, hpos⟩
        have hnum := (hagain uid p.1 p.2 ⟨huid, hreg⟩ hold hstep).1
        rw [ht, Tracked.mapPlayerNum_afterStart, Function.update_self] at hnum
        omega
      | close v _ hmsg => cases hmsg
  · intro hguard
    refine ⟨fun hstep => ?_, fun uid t' out hacc hold _ => ?_⟩
    · have hover := not_overruns_of_guarded hinv h hguard
      cases disposeQueueEvent_fault (sessionMachine_step_eq_error.mp hstep) with
      | overrun hover' => exact hover hover'
    · exact absurd hold (hguard uid hacc.1 hacc.2).1

/-- **Accesses to the lists.** After messages that are all guarded, the next message takes no
index outside a list and repeats no start just when it is guarded itself. -/
theorem list_access_safe {heap : MapId → SlotId → Player} {is : List GameMsg}
    {os : List Broadcast} {t : Tracked}
    (hrun : sessionMachine.Exec Guarded (Tracked.init heap) is os t) (msg : GameMsg) :
    HandledSafely t msg ↔ Guarded t msg := by
  have hbound : SessionInv t ∧ CounterBound t := by
    refine hrun.invariant (P := fun t => SessionInv t ∧ CounterBound t)
      ⟨SessionInv.init heap, CounterBound.init heap⟩ ?_
    rintro s i s' out ⟨hinv, h⟩ hguard hstep
    exact ⟨hinv.step hstep, h.step hinv hguard hstep⟩
  exact handledSafely_iff hbound.1 hbound.2

/-- Another client leaves before it has started; the first start after that is still guarded. -/
theorem list_access_safe_run : ∃ t os, sessionMachine.Exec Guarded (Tracked.init zeroHeap)
    [.success 3, .data 3 (.gameStartReq (some ⟨true⟩)), .success 4, .success 5, .close 4] os t ∧
    HandledSafely t (.data 5 (.gameStartReq (some ⟨true⟩))) := by
  have hrun : (sessionMachine.run Guarded (Tracked.init zeroHeap)
      [.success 3, .data 3 (.gameStartReq (some ⟨true⟩)), .success 4, .success 5, .close 4]).map
      (fun p => decide (Guarded p.1 (.data 5 (.gameStartReq (some ⟨true⟩))))) = some true := by
    decide +kernel
  obtain ⟨t, os, hrun, hguard⟩ := sessionMachine.exec_of_run_map hrun
  exact ⟨t, os, hrun, (list_access_safe hrun _).mpr (of_decide_eq_true hguard)⟩

/-- Ten accepted starts of one client fill the list of its map, and the eleventh is written past
its end. -/
theorem repeated_starts_overrun : ∃ t os, sessionMachine.Exec Machine.any (Tracked.init zeroHeap)
    (.success 3 :: List.replicate 10 (.data 3 (.gameStartReq (some ⟨true⟩)))) os t ∧
    t.gl.mapPlayerNum 0 = 10 ∧
    sessionMachine.step t (.data 3 (.gameStartReq (some ⟨true⟩))) = .error .listRange := by
  have hrun : (sessionMachine.run Machine.any (Tracked.init zeroHeap)
      (.success 3 :: List.replicate 10 (.data 3 (.gameStartReq (some ⟨true⟩))))).map
      (fun p => (p.1.gl.mapPlayerNum 0,
        (sessionMachine.step p.1 (.data 3 (.gameStartReq (some ⟨true⟩)))).map fun _ => ())) =
      some (10, .error .listRange) := by
    rfl
  obtain ⟨t, os, hrun, hobs⟩ := sessionMachine.exec_of_run_map hrun
  obtain ⟨hnum, hfault⟩ := Prod.mk.inj hobs
  exact ⟨t, os, hrun, hnum, Except.map_eq_error_iff.mp hfault⟩

end GameServer
