import GameServer.Game.Avatars
import GameServer.Game.Recipients

/-!
# The players on the broadcast lists

A login walks the list of the map and looks every entry up, and a close rebuilds the front of the
list and lets the counter hide the rest. Both are right where the entries in use are registered
players of the map, each listed once (`ListsSound`). A start of a client that is listed already,
and a close while the counter is zero, are what breaks this (`KeepsLists`).

## Main definitions

* `ListsSound`, `KeepsLists` : the invariant, and the messages that keep it.
* `RemovesCompletely` : what a close should leave.
* `LoginAnswered` : what a login should be answered with.

## Main results

* `ListsSound.step` : the step lemma.
* `close_removes_iff` : when a close leaves nothing of its uid.
* `login_answered_iff` : when a login is told of the other players, each once.
-/

namespace GameServer

/-! ### The counters stay within the lists -/

/-- Registration leaves counters and lists alone. -/
theorem gameRouteAppend_lists (gl : GameLogic) (uid : Uid) :
    (gameRouteAppend gl uid).2.mapPlayerNum = gl.mapPlayerNum ∧
      (gameRouteAppend gl uid).2.mapUidList = gl.mapUidList := by
  rcases gameRouteAppend_cases gl uid with he | ⟨m, i, -, -, -, -, he⟩ | ⟨m, i, -, -, he⟩ <;>
    rw [he] <;> exact ⟨rfl, rfl⟩

/-- A counter is raised by a start only, and within the list. -/
theorem GameStep.mapPlayerNum_le {gl gl' : GameLogic} {msg : GameMsg} {out : List Broadcast}
    (hstep : GameStep gl msg gl' out) (h : ∀ m, gl.mapPlayerNum m ≤ maxPlayerEachMap) (m : MapId) :
    gl'.mapPlayerNum m ≤ maxPlayerEachMap := by
  have hm := h m
  cases hstep with
  | success uid =>
    rw [(gameRouteAppend_lists gl uid).1]
    exact hm
  | ignored | login | move | leave => exact hm
  | start uid hreg hnonneg hnum =>
    simp only [GameLogic.start, GameLogic.setList_mapPlayerNum, GameLogic.setNum_mapPlayerNum,
      Function.update_apply]
    split_ifs <;> omega
  | close uid l hreg =>
    have hreg' : (gl.setList (gl.mapOf uid) l).Registered uid := hreg
    have hcounter : (gl.setList (gl.mapOf uid) l).mapPlayerNum = gl.mapPlayerNum := rfl
    rw [gameRouteDel_mapPlayerNum hreg', hcounter, Function.update_apply]
    split_ifs with hmap
    · have hown := h ((gl.setList (gl.mapOf uid) l).mapOf uid)
      omega
    · exact hm

theorem mapPlayerNum_le {ok : GameLogic → GameMsg → Prop} {heap : MapId → SlotId → Player}
    {is : List GameMsg} {os : List Broadcast} {gl : GameLogic}
    (hrun : gameMachine.Exec ok (gameLogicCreat heap) is os gl) (m : MapId) :
    gl.mapPlayerNum m ≤ maxPlayerEachMap := by
  refine hrun.invariant (P := fun gl => ∀ m, gl.mapPlayerNum m ≤ (maxPlayerEachMap : ℤ))
    (fun _ => by simp [gameLogicCreat]) ?_ m
  intro gl msg gl' out h _ hstep m
  exact (disposeQueueEvent_step hstep).mapPlayerNum_le h m

/-- Within the list the counter is the number of recipients, unless it is negative. -/
theorem GameLogic.length_recipients {gl : GameLogic} {m : MapId}
    (hle : gl.mapPlayerNum m ≤ maxPlayerEachMap) :
    (gl.recipients m).length = (gl.mapPlayerNum m).toNat := by
  rw [GameLogic.recipients, List.length_take, Vector.length_toList]
  omega

/-! ### Sound lists -/

/-- The entries in use of every list are registered players of its map, each once, and no counter
is negative. -/
structure ListsSound (gl : GameLogic) : Prop where
  nonneg : ∀ m, 0 ≤ gl.mapPlayerNum m
  nodup : ∀ m, (gl.recipients m).Nodup
  listed : ∀ m, ∀ e ∈ gl.recipients m, gl.Registered e ∧ gl.mapOf e = m

/-- A start comes from a client that is not listed, and a close finds a counter that can go
down. -/
def KeepsLists (gl : GameLogic) (msg : GameMsg) : Prop :=
  (∀ uid ∈ msg.startUid, gl.Registered uid → uid ∉ gl.recipients (gl.mapOf uid)) ∧
    ∀ uid ∈ msg.closeUid, gl.Registered uid → 0 < gl.mapPlayerNum (gl.mapOf uid)

-- By the uid of the message, as for `Orderly`.
instance (gl : GameLogic) (msg : GameMsg) : Decidable (KeepsLists gl msg) :=
  @instDecidableAnd _ _ (Option.decidableForallMem _) (Option.decidableForallMem _)

theorem TableInv.mem_neighbours {gl : GameLogic} (h : TableInv gl) {uid u : Uid} :
    u ∈ gl.neighbours uid ↔ gl.Registered u ∧ gl.mapOf u = gl.mapOf uid ∧ u ≠ uid :=
  h.mem_others

namespace ListsSound

variable {gl gl' : GameLogic} {msg : GameMsg} {out : List Broadcast} {uid : Uid}

theorem init (heap : MapId → SlotId → Player) : ListsSound (gameLogicCreat heap) where
  nonneg _ := le_rfl
  nodup _ := List.nodup_nil
  listed _ _ he := absurd he List.not_mem_nil

/-- What keeps the lists and the entries of the registered players keeps the lists sound. -/
theorem congr (h : ListsSound gl) (hnum : gl'.mapPlayerNum = gl.mapPlayerNum)
    (hlist : gl'.mapUidList = gl.mapUidList)
    (hentry : ∀ u, gl.Registered u → gl'.uid2Playid u = gl.uid2Playid u) : ListsSound gl' := by
  have hrec (m : MapId) : gl'.recipients m = gl.recipients m := by
    simp only [GameLogic.recipients, hnum, hlist]
  refine ⟨fun m => hnum ▸ h.nonneg m, fun m => hrec m ▸ h.nodup m, fun m e he => ?_⟩
  rw [hrec] at he
  have hreg := h.listed m e he
  simpa only [GameLogic.Registered, GameLogic.mapOf, hentry e hreg.1] using hreg

theorem start (h : ListsSound gl) (hreg : gl.Registered uid)
    (hlt : gl.mapPlayerNum (gl.mapOf uid) < maxPlayerEachMap)
    (hnew : uid ∉ gl.recipients (gl.mapOf uid)) : ListsSound (gl.start uid) where
  nonneg m := by
    have hm := h.nonneg m
    have hown := h.nonneg (gl.mapOf uid)
    simp only [GameLogic.start, GameLogic.setList_mapPlayerNum, GameLogic.setNum_mapPlayerNum,
      Function.update_apply]
    split_ifs <;> omega
  nodup m := by
    rw [gl.recipients_start (h.nonneg _) hlt]
    split_ifs with hmap
    · subst hmap
      rw [← List.concat_eq_append]
      exact (h.nodup _).concat hnew
    · exact h.nodup m
  listed m e he := by
    rw [(sameTables_start gl uid).registered_iff, (sameTables_start gl uid).mapOf_eq]
    rw [gl.recipients_start (h.nonneg _) hlt] at he
    split_ifs at he with hmap
    · rcases List.mem_append.mp he with he | he
      · exact h.listed m e he
      · rw [List.mem_singleton.mp he]
        exact ⟨hreg, hmap.symm⟩
    · exact h.listed m e he

/-- The counter less one is at most the number of the other players. -/
theorem counter_le (h : ListsSound gl) (ht : TableInv gl)
    (hle : gl.mapPlayerNum (gl.mapOf uid) ≤ maxPlayerEachMap) :
    (gl.mapPlayerNum (gl.mapOf uid) - 1).toNat ≤ (gl.neighbours uid).length := by
  have hlen := GameLogic.length_recipients hle
  have hsub : gl.recipients (gl.mapOf uid) ⊆ uid :: gl.neighbours uid := by
    intro e he
    by_cases hne : e = uid
    · exact hne ▸ List.mem_cons_self
    · obtain ⟨hreg, hmap⟩ := h.listed _ e he
      exact List.mem_cons_of_mem _ (ht.mem_neighbours.mpr ⟨hreg, hmap, hne⟩)
  have hcard := ((h.nodup (gl.mapOf uid)).subperm hsub).length_le
  rw [List.length_cons] at hcard
  omega

theorem unregister (h : ListsSound gl) (ht : TableInv gl) {l : Vector Uid maxPlayerEachMap}
    (hl : gl.IsRebuilt uid l) (hle : gl.mapPlayerNum (gl.mapOf uid) ≤ maxPlayerEachMap)
    (hpos : 0 < gl.mapPlayerNum (gl.mapOf uid)) :
    ListsSound ((gl.setList (gl.mapOf uid) l).unregister uid) := by
  have hrec (m : MapId) := gl.recipients_unregister hl m
  rw [gl.staleEntries_eq_nil (h.counter_le ht hle), List.append_nil] at hrec
  have hentry {e : Uid} (hne : e ≠ uid) :
      (((gl.setList (gl.mapOf uid) l).unregister uid).Registered e ↔ gl.Registered e) ∧
        ((gl.setList (gl.mapOf uid) l).unregister uid).mapOf e = gl.mapOf e := by
    have he : ((gl.setList (gl.mapOf uid) l).unregister uid).uid2Playid e = gl.uid2Playid e :=
      Function.update_of_ne hne _ _
    exact ⟨iff_of_eq (congrArg (fun p : PlayerId => p.state = .typeUsing) he),
      congrArg PlayerId.mapid he⟩
  refine ⟨fun m => ?_, fun m => ?_, fun m e he => ?_⟩
  · have hm := h.nonneg m
    have hnum : ((gl.setList (gl.mapOf uid) l).unregister uid).mapPlayerNum =
      Function.update gl.mapPlayerNum (gl.mapOf uid) (gl.mapPlayerNum (gl.mapOf uid) - 1) := rfl
    rw [hnum, Function.update_apply]
    split_ifs <;> omega
  · rw [hrec]
    split_ifs
    · exact (ht.nodup_others _ _).sublist (List.take_sublist _ _)
    · exact h.nodup m
  · rw [hrec] at he
    split_ifs at he with hmap
    · obtain ⟨hreg, hown, hne⟩ := ht.mem_neighbours.mp (List.mem_of_mem_take he)
      exact ⟨(hentry hne).1.mpr hreg, (hentry hne).2.trans (hown.trans hmap.symm)⟩
    · obtain ⟨hreg, hown⟩ := h.listed m e he
      have hne : e ≠ uid := by
        rintro rfl
        exact hmap hown.symm
      exact ⟨(hentry hne).1.mpr hreg, (hentry hne).2.trans hown⟩

/-- **Step lemma.** -/
theorem step (h : ListsSound gl) (ht : TableInv gl)
    (hle : ∀ m, gl.mapPlayerNum m ≤ maxPlayerEachMap) (hkeep : KeepsLists gl msg)
    (hstep : GameStep gl msg gl' out) : ListsSound gl' := by
  cases hstep with
  | success uid =>
    obtain ⟨hnum, hlist⟩ := gameRouteAppend_lists gl uid
    refine h.congr hnum hlist fun u hu => ?_
    rcases ht.append_cases uid with he | ⟨m, i, -, hnew, -, -, he⟩
    · rw [he]
    · rw [he]
      have hne : u ≠ uid := by
        rintro rfl
        exact hnew hu
      exact Function.update_of_ne hne _ _
  | ignored | leave => exact h
  | login | move => exact h.congr rfl rfl fun _ _ => rfl
  | start uid hreg hnonneg hnum => exact h.start hreg hnum (hkeep.1 uid rfl hreg)
  | close uid l hreg hl =>
    have hlist := sameTables_setList gl (gl.mapOf uid) l
    rw [(hlist.tableInv ht).del_eq ((hlist.registered_iff uid).mpr hreg)]
    exact h.unregister ht hl (hle _) (hkeep.2 uid rfl hreg)

/-- The lists in a run whose messages all keep them. -/
theorem exec {heap : MapId → SlotId → Player} {is : List GameMsg} {os : List Broadcast}
    (hrun : gameMachine.Exec KeepsLists (gameLogicCreat heap) is os gl) : ListsSound gl := by
  have hall : ListsSound gl ∧ TableInv gl ∧ ∀ m, gl.mapPlayerNum m ≤ maxPlayerEachMap := by
    refine hrun.invariant (P := fun gl =>
      ListsSound gl ∧ TableInv gl ∧ ∀ m, gl.mapPlayerNum m ≤ (maxPlayerEachMap : ℤ))
      ⟨init heap, TableInv.init heap, fun _ => by simp [gameLogicCreat]⟩ ?_
    rintro gl msg gl' out ⟨h, ht, hle⟩ hkeep hstep
    have hs := disposeQueueEvent_step hstep
    exact ⟨h.step ht hle hkeep hs, ht.step hs, hs.mapPlayerNum_le hle⟩
  exact hall.1

end ListsSound

/-! ### What a close leaves -/

/-- The close removes the uid completely: it is not registered, in no slot, on no list, and no
recipient of the broadcast that announces its leave. -/
def RemovesCompletely (gl : GameLogic) (uid : Uid) : Prop :=
  ∃ gl' b, disposeUserClose gl uid = .ok (gl', [b]) ∧ ¬gl'.Registered uid ∧
    (∀ m i, gl'.mapPlayerSocketUid m i ≠ some uid) ∧ (∀ m, uid ∉ gl'.recipients m) ∧
    b.protoType = .enemyLeave ∧ uid.toInt ∉ b.uidList

/-- The uid is not on the list of another map, nor among the old entries that stay in use behind
the rebuilt front of the list of its own map. -/
def GameLogic.NoStaleEntry (gl : GameLogic) (uid : Uid) : Prop :=
  (∀ m, m ≠ gl.mapOf uid → uid ∉ gl.recipients m) ∧ uid ∉ gl.staleEntries uid

/-- The close of a registered uid is handled. -/
theorem TableInv.disposeUserClose_eq {gl : GameLogic} {uid : Uid} (h : TableInv gl)
    (hreg : gl.Registered uid) (hle : gl.mapPlayerNum (gl.mapOf uid) ≤ maxPlayerEachMap) :
    ∃ l, gl.IsRebuilt uid l ∧ disposeUserClose gl uid =
      .ok ((gl.setList (gl.mapOf uid) l).unregister uid,
        [toMap ((gl.setList (gl.mapOf uid) l).unregister uid) (gl.mapOf uid) .enemyLeave
          (.enemyLeave (gl.playerOf uid).uid)]) := by
  obtain ⟨l, -, hl⟩ := mapUidListRebuild_spec hreg
  have hclose : disposeUserClose gl uid = _ :=
    disposeQueueEvent_eq_ok.mpr (GameStep.close uid l hreg hl (by omega))
  have hlist := sameTables_setList gl (gl.mapOf uid) l
  rw [(hlist.tableInv h).del_eq ((hlist.registered_iff uid).mpr hreg)] at hclose
  exact ⟨l, hl, hclose⟩

/-- The removed uid is in no slot. -/
theorem TableInv.unregister_socketUid_ne {gl : GameLogic} {uid : Uid} (h : TableInv gl)
    (m : MapId) (i : SlotId) : (gl.unregister uid).mapPlayerSocketUid m i ≠ some uid := by
  intro hslot
  by_cases hc : (m, i) = (gl.mapOf uid, gl.slotOf uid)
  · obtain ⟨rfl, rfl⟩ := Prod.mk.inj hc
    simp only [GameLogic.unregister, setCell_self, reduceCtorEq] at hslot
  · simp only [GameLogic.unregister, setCell_of_ne hc] at hslot
    have hentry := h.entry_of_slot m i uid hslot
    exact hc (by simp only [GameLogic.mapOf, GameLogic.slotOf, hentry])

/-- Of the lists only a stale entry can keep the uid. -/
theorem TableInv.removesCompletely_iff {gl : GameLogic} {uid : Uid} (h : TableInv gl)
    (hreg : gl.Registered uid) (hle : gl.mapPlayerNum (gl.mapOf uid) ≤ maxPlayerEachMap) :
    RemovesCompletely gl uid ↔ gl.NoStaleEntry uid := by
  obtain ⟨l, hl, hclose⟩ := h.disposeUserClose_eq hreg hle
  have hrec (m : MapId) := gl.recipients_unregister hl m
  have hnot : uid ∉ gl.neighbours uid := fun hmem => (h.mem_neighbours.mp hmem).2.2 rfl
  constructor
  · rintro ⟨gl', b, hok, -, -, hlists, -, -⟩
    obtain ⟨rfl, -⟩ := Prod.mk.inj (Except.ok.inj (hclose.symm.trans hok))
    refine ⟨fun m hm => ?_, fun hstale => ?_⟩
    · have hm' := hlists m
      rwa [hrec, if_neg hm] at hm'
    · refine hlists (gl.mapOf uid) ?_
      rw [hrec, if_pos rfl]
      exact List.mem_append_right _ hstale
  · rintro ⟨hother, hstale⟩
    have hlists (m : MapId) :
        uid ∉ ((gl.setList (gl.mapOf uid) l).unregister uid).recipients m := by
      rw [hrec]
      split_ifs with hm
      · rw [List.mem_append, not_or]
        exact ⟨fun hmem => hnot (List.mem_of_mem_take hmem), hstale⟩
      · exact hother m hm
    have hlist := (sameTables_setList gl (gl.mapOf uid) l).tableInv h
    refine ⟨_, _, hclose, ?_, hlist.unregister_socketUid_ne, hlists, rfl, ?_⟩
    · simp [GameLogic.Registered, GameLogic.unregister, GameLogic.dropEntry]
    · intro hmem
      obtain ⟨v, hv, he⟩ := List.mem_map.mp hmem
      exact hlists _ (Uid.toInt_injective he ▸ hv)

/-- **What a close leaves.** In every state that a game service reaches, the close of a registered
uid removes it completely just when no stale entry keeps it on a list. In a run whose messages
all keep the lists every close does. -/
theorem close_removes_iff {heap : MapId → SlotId → Player} {is : List GameMsg}
    {os : List Broadcast} {gl : GameLogic} {uid : Uid}
    (hrun : gameMachine.Exec Machine.any (gameLogicCreat heap) is os gl)
    (hreg : gl.Registered uid) :
    (RemovesCompletely gl uid ↔ gl.NoStaleEntry uid) ∧
      (gameMachine.Exec KeepsLists (gameLogicCreat heap) is os gl → RemovesCompletely gl uid) := by
  have h := (TableInv.init heap).exec hrun
  have hle := mapPlayerNum_le hrun (gl.mapOf uid)
  have hiff := h.removesCompletely_iff hreg hle
  refine ⟨hiff, fun hkeep => hiff.mpr ?_⟩
  have hs := ListsSound.exec hkeep
  refine ⟨fun m hm hmem => hm (hs.listed m uid hmem).2.symm, ?_⟩
  rw [gl.staleEntries_eq_nil (hs.counter_le h hle)]
  exact List.not_mem_nil

/-- Two clients start, and the first leaves. -/
theorem close_removes_first : ∃ gl os, gameMachine.Exec Machine.any (gameLogicCreat zeroHeap)
    [.success 3, .success 4, .data 3 (.gameStartReq (some ⟨true⟩)),
      .data 4 (.gameStartReq (some ⟨true⟩))] os gl ∧
    gl.recipients 0 = [3, 4] ∧ gl.Registered 3 ∧ RemovesCompletely gl 3 := by
  have hrun : (gameMachine.run KeepsLists (gameLogicCreat zeroHeap)
      [.success 3, .success 4, .data 3 (.gameStartReq (some ⟨true⟩)),
        .data 4 (.gameStartReq (some ⟨true⟩))]).map
      (fun p => (p.1.recipients 0, decide (p.1.Registered 3))) = some ([3, 4], true) := by
    decide +kernel
  obtain ⟨gl, os, hrun, hobs⟩ := gameMachine.exec_of_run_map hrun
  obtain ⟨hrec, hreg⟩ := Prod.mk.inj hobs
  have hany := hrun.mono fun _ _ _ => (trivial : Machine.any _ _)
  have hreg := of_decide_eq_true hreg
  exact ⟨gl, os, hany, hrec, hreg, (close_removes_iff hany hreg).2 hrun⟩

/-- A client that has started twice stays on the list of its map when it closes. -/
theorem close_keeps_repeated : ∃ gl os, gameMachine.Exec Machine.any (gameLogicCreat zeroHeap)
    [.success 3, .data 3 (.gameStartReq (some ⟨true⟩)),
      .data 3 (.gameStartReq (some ⟨true⟩))] os gl ∧
    gl.Registered 3 ∧ ¬RemovesCompletely gl 3 := by
  have hrun : (gameMachine.run Machine.any (gameLogicCreat zeroHeap)
      [.success 3, .data 3 (.gameStartReq (some ⟨true⟩)),
        .data 3 (.gameStartReq (some ⟨true⟩))]).map
      (fun p => (decide (p.1.Registered 3),
        (disposeUserClose p.1 3).map fun q => q.1.recipients 0)) = some (true, .ok [3]) := by
    decide +kernel
  obtain ⟨gl, os, hrun, hobs⟩ := gameMachine.exec_of_run_map hrun
  obtain ⟨hreg, hclose⟩ := Prod.mk.inj hobs
  refine ⟨gl, os, hrun, of_decide_eq_true hreg, ?_⟩
  rintro ⟨gl', b, hok, -, -, hlists, -⟩
  have hrec : gl'.recipients 0 = [3] := by
    simpa only [hok, Except.map, Except.ok.injEq] using hclose
  exact hlists 0 (hrec ▸ List.mem_singleton_self _)

/-! ### What a login is answered with -/

/-- The answer to a login of `uid`: its position and the number of the players `es`, the position
of each of them, and the end of the list, all to `uid` alone. -/
def loginAnswer (gl : GameLogic) (uid : Uid) (x y : ℤ) (es : List Uid) : List Broadcast :=
  [⟨1, [uid.toInt], .logRsp, .loginRsp true uid.toInt x y es.length⟩] ++
    es.map (enemyMsgTo gl uid) ++ [⟨1, [uid.toInt], .loginEnd, .loginEnd true⟩]

/-- The login is answered with players that are registered in the map of its client, each named
once, and the client not among them. -/
def LoginAnswered (gl : GameLogic) (uid : Uid) (req : LoginReq) : Prop :=
  ∃ gl' x y es, disposeLoginRequest gl (gl.uid2Playid uid) (some req) uid =
      .ok (gl', loginAnswer gl uid x y es) ∧
    es.Nodup ∧ ∀ e ∈ es, gl.Registered e ∧ gl.mapOf e = gl.mapOf uid ∧ e ≠ uid

/-- The entries in use of the list of the map of `uid` are other registered players of the map,
each listed once, and the counter is not negative. -/
structure GameLogic.ListsOthers (gl : GameLogic) (uid : Uid) : Prop where
  nonneg : 0 ≤ gl.mapPlayerNum (gl.mapOf uid)
  nodup : (gl.recipients (gl.mapOf uid)).Nodup
  listed : ∀ e ∈ gl.recipients (gl.mapOf uid),
    gl.Registered e ∧ gl.mapOf e = gl.mapOf uid ∧ e ≠ uid

/-- In sound lists a client finds others only, as long as it is not listed itself. -/
theorem ListsSound.listsOthers_iff {gl : GameLogic} {uid : Uid} (h : ListsSound gl) :
    gl.ListsOthers uid ↔ uid ∉ gl.recipients (gl.mapOf uid) := by
  constructor
  · exact fun hlist hmem => (hlist.listed uid hmem).2.2 rfl
  · intro hnew
    refine ⟨h.nonneg _, h.nodup _, fun e he => ?_⟩
    obtain ⟨hreg, hmap⟩ := h.listed _ e he
    exact ⟨hreg, hmap, fun heq => hnew (heq ▸ he)⟩

/-- A login is handled just when every player listed is registered. -/
theorem disposeLoginRequest_eq_ok {gl gl' : GameLogic} {uid : Uid} {req : LoginReq}
    {out : List Broadcast} (hreg : gl.Registered uid)
    (hle : gl.mapPlayerNum (gl.mapOf uid) ≤ maxPlayerEachMap) :
    disposeLoginRequest gl (gl.uid2Playid uid) (some req) uid = .ok (gl', out) ↔
      (∀ e ∈ gl.recipients (gl.mapOf uid), gl.Registered e) ∧ gl' = gl.login uid req ∧
        out = loginReplies (gl.login uid req) uid := by
  constructor
  · intro h
    cases disposeLoginRequest_step hreg h with
    | ignored hig => exact (hig.not_request hreg (by simp)).elim
    | login _ _ _ _ hlist => exact ⟨hlist, rfl, rfl⟩
  · rintro ⟨hlist, rfl, rfl⟩
    have hstep := disposeQueueEvent_eq_ok.mpr (GameStep.login uid req hreg hle hlist)
    have hget := gameRouteGetPlayerid_eq_some.mpr ⟨hreg, rfl⟩
    simpa only [disposeQueueEvent, disposeGameLogic, hget] using hstep

/-- A login moves no other player. -/
theorem TableInv.enemyMsgTo_login {gl : GameLogic} {uid e : Uid} (h : TableInv gl)
    (hreg : gl.Registered uid) (he : gl.Registered e) (hne : e ≠ uid) (req : LoginReq) :
    enemyMsgTo (gl.login uid req) uid e = enemyMsgTo gl uid e := by
  have hslot : (gl.mapOf e, gl.slotOf e) ≠ (gl.mapOf uid, gl.slotOf uid) := by
    intro hc
    obtain ⟨hm, hi⟩ := Prod.mk.inj hc
    exact hne (h.eq_of_slot he hreg hm hi)
  have hplayer : (gl.login uid req).playerOf e = gl.playerOf e := setPlayer_mapPlayer_of_ne hslot
  simp only [enemyMsgTo, hplayer]

/-- The messages about players name them. -/
theorem eq_of_map_enemyMsgTo {gl gl' : GameLogic} {uid : Uid} {es es' : List Uid}
    (h : es.map (enemyMsgTo gl uid) = es'.map (enemyMsgTo gl' uid)) : es = es' := by
  induction es generalizing es' with
  | nil => exact (List.map_eq_nil_iff.mp h.symm).symm
  | cons e es ih =>
    cases es' with
    | nil => cases h
    | cons e' es' =>
      obtain ⟨hhead, htail⟩ := List.cons.inj h
      obtain ⟨he, -, -⟩ := Rsp.enemyMsg.inj (Broadcast.mk.inj hhead).2.2.2
      rw [Uid.toInt_injective he, ih htail]

/-- An answer that is sent names the players listed, and the counter counts them. -/
theorem loginAnswer_eq {gl gl' : GameLogic} {uid : Uid} {x y : ℤ} {es : List Uid}
    (h : loginAnswer gl uid x y es = loginReplies gl' uid) :
    es = gl'.recipients (gl'.mapOf uid) ∧ (es.length : ℤ) = gl'.mapPlayerNum (gl'.mapOf uid) := by
  simp only [loginAnswer, loginReplies, List.append_assoc] at h
  obtain ⟨hhead, htail⟩ := List.cons.inj h
  obtain ⟨-, -, -, -, hnum⟩ := Rsp.loginRsp.inj (Broadcast.mk.inj hhead).2.2.2
  exact ⟨eq_of_map_enemyMsgTo (List.append_cancel_right htail), hnum⟩

theorem TableInv.loginAnswered_iff {gl : GameLogic} {uid : Uid} {req : LoginReq}
    (h : TableInv gl) (hreg : gl.Registered uid)
    (hle : gl.mapPlayerNum (gl.mapOf uid) ≤ maxPlayerEachMap) :
    LoginAnswered gl uid req ↔ gl.ListsOthers uid := by
  constructor
  · rintro ⟨gl', x, y, es, hok, hnodup, hall⟩
    obtain ⟨-, -, hout⟩ := (disposeLoginRequest_eq_ok hreg hle).mp hok
    obtain ⟨rfl, hnum⟩ := loginAnswer_eq hout
    have hnonneg : 0 ≤ (gl.login uid req).mapPlayerNum ((gl.login uid req).mapOf uid) := by omega
    exact ⟨hnonneg, hnodup, hall⟩
  · rintro ⟨hnonneg, hnodup, hlisted⟩
    refine ⟨gl.login uid req, ((gl.login uid req).playerOf uid).pointX,
      ((gl.login uid req).playerOf uid).pointY, gl.recipients (gl.mapOf uid), ?_, hnodup, hlisted⟩
    refine (disposeLoginRequest_eq_ok hreg hle).mpr ⟨fun e he => (hlisted e he).1, rfl, ?_⟩
    have hlen : ((gl.recipients (gl.mapOf uid)).length : ℤ) = gl.mapPlayerNum (gl.mapOf uid) := by
      rw [GameLogic.length_recipients hle, Int.toNat_of_nonneg hnonneg]
    have hmap : (gl.recipients (gl.mapOf uid)).map (enemyMsgTo gl uid) =
        (gl.recipients (gl.mapOf uid)).map (enemyMsgTo (gl.login uid req) uid) :=
      List.map_congr_left fun e he =>
        (h.enemyMsgTo_login hreg (hlisted e he).1 (hlisted e he).2.2 req).symm
    rw [loginAnswer, hlen, hmap]
    rfl

/-- **What a login is answered with.** In every state that a game service reaches, the login of a
registered client is answered with other players of its map, each once, just when its list holds
such players only. In a run whose messages all keep the lists this is so for every client that is
not listed itself. -/
theorem login_answered_iff {heap : MapId → SlotId → Player} {is : List GameMsg}
    {os : List Broadcast} {gl : GameLogic} {uid : Uid} {req : LoginReq}
    (hrun : gameMachine.Exec Machine.any (gameLogicCreat heap) is os gl)
    (hreg : gl.Registered uid) :
    (LoginAnswered gl uid req ↔ gl.ListsOthers uid) ∧
      (gameMachine.Exec KeepsLists (gameLogicCreat heap) is os gl →
        (LoginAnswered gl uid req ↔ uid ∉ gl.recipients (gl.mapOf uid))) := by
  have h := (TableInv.init heap).exec hrun
  have hiff : LoginAnswered gl uid req ↔ gl.ListsOthers uid :=
    h.loginAnswered_iff hreg (mapPlayerNum_le hrun (gl.mapOf uid))
  exact ⟨hiff, fun hkeep => hiff.trans (ListsSound.exec hkeep).listsOthers_iff⟩

/-- A client that logs in while another one plays. -/
theorem login_answered_second : ∃ gl os, gameMachine.Exec Machine.any (gameLogicCreat zeroHeap)
    [.success 3, .success 4, .data 3 (.gameStartReq (some ⟨true⟩))] os gl ∧
    gl.recipients 0 = [3] ∧ gl.Registered 4 ∧ LoginAnswered gl 4 ⟨[]⟩ := by
  have hrun : (gameMachine.run KeepsLists (gameLogicCreat zeroHeap)
      [.success 3, .success 4, .data 3 (.gameStartReq (some ⟨true⟩))]).map
      (fun p => (p.1.recipients 0, decide (p.1.Registered 4), p.1.mapOf 4)) =
        some ([3], true, 0) := by
    decide +kernel
  obtain ⟨gl, os, hrun, hobs⟩ := gameMachine.exec_of_run_map hrun
  obtain ⟨hrec, hobs⟩ := Prod.mk.inj hobs
  obtain ⟨hreg, hmap⟩ := Prod.mk.inj hobs
  have hany := hrun.mono fun _ _ _ => (trivial : Machine.any _ _)
  have hreg := of_decide_eq_true hreg
  have hnew : 4 ∉ gl.recipients (gl.mapOf 4) := by
    rw [show gl.mapOf 4 = 0 from hmap, show gl.recipients 0 = [3] from hrec]
    decide
  exact ⟨gl, os, hany, hrec, hreg, ((login_answered_iff hany hreg).2 hrun).mpr hnew⟩

/-- A client has started three times and closed; the login of another one finds it on the list
and dereferences its missing entry. -/
theorem login_null_player : ∃ gl os, gameMachine.Exec Machine.any (gameLogicCreat zeroHeap)
    [.success 3, .success 4, .data 3 (.gameStartReq (some ⟨true⟩)),
      .data 3 (.gameStartReq (some ⟨true⟩)), .data 3 (.gameStartReq (some ⟨true⟩)), .close 3]
    os gl ∧ gl.Registered 4 ∧
    disposeLoginRequest gl (gl.uid2Playid 4) (some ⟨[]⟩) 4 = .error .nullPlayerId ∧
    ¬LoginAnswered gl 4 ⟨[]⟩ := by
  have hrun : (gameMachine.run Machine.any (gameLogicCreat zeroHeap)
      [.success 3, .success 4, .data 3 (.gameStartReq (some ⟨true⟩)),
        .data 3 (.gameStartReq (some ⟨true⟩)), .data 3 (.gameStartReq (some ⟨true⟩)),
        .close 3]).map
      (fun p => (decide (p.1.Registered 4),
        (disposeLoginRequest p.1 (p.1.uid2Playid 4) (some ⟨[]⟩) 4).map fun _ => ())) =
        some (true, .error .nullPlayerId) := by
    decide +kernel
  obtain ⟨gl, os, hrun, hobs⟩ := gameMachine.exec_of_run_map hrun
  obtain ⟨hreg, hfault⟩ := Prod.mk.inj hobs
  have herror : disposeLoginRequest gl (gl.uid2Playid 4) (some ⟨[]⟩) 4 = .error .nullPlayerId :=
    Except.map_eq_error_iff.mp hfault
  refine ⟨gl, os, hrun, of_decide_eq_true hreg, herror, ?_⟩
  rintro ⟨gl', x, y, es, hok, -⟩
  rw [herror] at hok
  cases hok

end GameServer
