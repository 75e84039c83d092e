import GameServer.Game.Service
import GameServer.Library.Prefix

/-!
# What one message does to a game service

Each handler of `GameServer.Game.Service` either faults or takes one of the steps of `GameStep`,
which name the state reached and the broadcasts sent. Later modules argue by cases on `GameStep`
and do not unfold the handlers.

The broadcast list of a map is a prefix of an array. `uidListCpy_of_le` and `rebuildLoop_spec` say
what copying and rebuilding it yield as lists.

## Main definitions

* `GameLogic.Registered`, `GameLogic.mapOf`, `GameLogic.slotOf`, `GameLogic.playerOf`.
* `GameLogic.recipients` : the recipients of a broadcast to a map.
* `others` : the registered uids of a map other than one, in slot order.
* `GameStep`, `GameFault` : the steps and the faults of a service.

## Main results

* `gameRouteAppend_cases`, `gameRouteDel_of_slot`, `gameRouteDel_of_mismatch` : registration and
  removal.
* `disposeQueueEvent_step`, `disposeQueueEvent_fault` : every message handled is a `GameStep` or a
  `GameFault`.
-/

namespace GameServer

/-! ### Reading the tables -/

namespace GameLogic

/-- The entry of the uid is in use. -/
def Registered (gl : GameLogic) (uid : Uid) : Prop := (gl.uid2Playid uid).state = .typeUsing

instance (gl : GameLogic) (uid : Uid) : Decidable (gl.Registered uid) :=
  inferInstanceAs (Decidable ((gl.uid2Playid uid).state = .typeUsing))

/-- The map of a uid. -/
def mapOf (gl : GameLogic) (uid : Uid) : MapId := (gl.uid2Playid uid).mapid

/-- The slot of a uid in its map. -/
def slotOf (gl : GameLogic) (uid : Uid) : SlotId := (gl.uid2Playid uid).mapPlayerid

/-- The player slot of a uid. -/
def playerOf (gl : GameLogic) (uid : Uid) : Player := gl.mapPlayer (gl.mapOf uid) (gl.slotOf uid)

/-- The first `map_player_num` entries of the list of a map: the recipients of its broadcasts. -/
def recipients (gl : GameLogic) (m : MapId) : List Uid :=
  (gl.mapUidList m).toList.take (gl.mapPlayerNum m).toNat

end GameLogic

theorem gameRouteGetPlayerid_eq_some {gl : GameLogic} {uid : Uid} {p : PlayerId} :
    gameRouteGetPlayerid gl uid = some p ↔ gl.Registered uid ∧ p = gl.uid2Playid uid := by
  unfold gameRouteGetPlayerid GameLogic.Registered
  split_ifs with h
  · simp only [Option.some.injEq, h, true_and, eq_comm]
  · simp only [h, false_and]

theorem gameRouteGetPlayerid_eq_none {gl : GameLogic} {uid : Uid} :
    gameRouteGetPlayerid gl uid = none ↔ ¬gl.Registered uid := by
  unfold gameRouteGetPlayerid GameLogic.Registered
  split_ifs with h <;> simp [h]

/-! ### Lists in arrays -/

theorem listWrite_eq_ok {l l' : Vector Uid maxPlayerEachMap} {i : ℤ} {u : Uid} :
    listWrite l i u = .ok l' ↔
      ∃ h : 0 ≤ i ∧ i.toNat < maxPlayerEachMap, l' = l.set i.toNat u h.2 := by
  unfold listWrite
  split_ifs with h
  · simp only [Except.ok.injEq, h, and_self, exists_true_left, eq_comm]
  · simp only [h, IsEmpty.exists_iff]

theorem listRead_of_lt {l : Vector Uid maxPlayerEachMap} {i : ℕ} (h : i < maxPlayerEachMap) :
    listRead l i = .ok l[i] := by
  simp only [listRead, h, dite_true]

theorem listRead_of_le {l : Vector Uid maxPlayerEachMap} {i : ℕ} (h : maxPlayerEachMap ≤ i) :
    listRead l i = .error .listRange := by
  simp only [listRead, Nat.not_lt.mpr h, dite_false]

/-- Copying within the array yields the prefix. -/
theorem uidListCpy_of_le (l : Vector Uid maxPlayerEachMap) {n : ℕ} (h : n ≤ maxPlayerEachMap) :
    uidListCpy l n = .ok (l.toList.take n) := by
  induction n with
  | zero => rfl
  | succ n ih =>
    have hlen : n < l.toList.length := by simpa using Nat.lt_of_succ_le h
    simp only [uidListCpy, ih (Nat.le_of_succ_le h), listRead_of_lt h, bind, Except.bind,
      List.take_succ_eq_append_getElem hlen, Vector.getElem_toList]

/-- Copying past the end of the array is a fault. -/
theorem uidListCpy_of_lt (l : Vector Uid maxPlayerEachMap) {n : ℕ} (h : maxPlayerEachMap < n) :
    uidListCpy l n = .error .listRange := by
  induction n with
  | zero => exact absurd h (Nat.not_lt_zero _)
  | succ n ih =>
    rcases Nat.lt_or_ge maxPlayerEachMap n with hn | hn
    · simp only [uidListCpy, ih hn, bind, Except.bind]
    · have hread : listRead l n = .error .listRange := listRead_of_le (Nat.le_of_lt_succ h)
      simp only [uidListCpy, uidListCpy_of_le l hn, hread, bind, Except.bind]

/-- The registered uids of a map other than `uid`, in the order of the slots `is`. -/
def others (row : SlotId → Option Uid) (uid : Uid) (is : List SlotId) : List Uid :=
  is.filterMap fun i => (row i).filter (· ≠ uid)

theorem mem_others {row : SlotId → Option Uid} {uid u : Uid} {is : List SlotId} :
    u ∈ others row uid is ↔ ∃ i ∈ is, row i = some u ∧ u ≠ uid := by
  simp only [others, List.mem_filterMap, Option.filter_eq_some_iff, decide_eq_true_eq]

theorem others_cons_none {row : SlotId → Option Uid} {uid : Uid} {i : SlotId} (is : List SlotId)
    (hi : row i = none) : others row uid (i :: is) = others row uid is := by
  simp only [others, List.filterMap_cons, hi, Option.filter_none]

theorem others_cons_self {row : SlotId → Option Uid} {uid : Uid} {i : SlotId} (is : List SlotId)
    (hi : row i = some uid) : others row uid (i :: is) = others row uid is := by
  simp only [others, List.filterMap_cons, hi, Option.filter_some, ne_eq, not_true, decide_false,
    Bool.false_eq_true, if_false]

theorem others_cons_of_ne {row : SlotId → Option Uid} {uid v : Uid} {i : SlotId} (is : List SlotId)
    (hi : row i = some v) (hv : v ≠ uid) : others row uid (i :: is) = v :: others row uid is := by
  simp only [others, List.filterMap_cons, hi, Option.filter_some, hv, ne_eq, not_false_iff,
    decide_true, if_true]

theorem length_others_le (row : SlotId → Option Uid) (uid : Uid) (is : List SlotId) :
    (others row uid is).length ≤ is.length :=
  List.length_filterMap_le _ _

/-- The rebuilt list starts with the other registered uids of the map; what was written before
and the rest of the old array stay in place. -/
theorem rebuildLoop_spec (row : SlotId → Option Uid) (uid : Uid) (is : List SlotId) (index : ℕ)
    (l : Vector Uid maxPlayerEachMap)
    (h : index + (others row uid is).length ≤ maxPlayerEachMap) :
    ∃ l', rebuildLoop row uid is index l = .ok l' ∧
      l'.toList = l.toList.take index ++ others row uid is ++
        l.toList.drop (index + (others row uid is).length) := by
  induction is generalizing index l with
  | nil => exact ⟨l, rfl, by simp [others]⟩
  | cons i is ih =>
    cases hi : row i with
    | none =>
      rw [others_cons_none is hi] at h ⊢
      simpa only [rebuildLoop, hi] using ih index l h
    | some v =>
      by_cases hv : v = uid
      · rw [others_cons_self is (hv ▸ hi)] at h ⊢
        simpa only [rebuildLoop, hi, hv, if_true] using ih index l h
      · rw [others_cons_of_ne is hi hv, List.length_cons] at h
        have hindex : index < maxPlayerEachMap := by omega
        have hlen : index < l.toList.length := by simpa using hindex
        have hwrite : listWrite l index v = .ok (l.set index v hindex) := by
          rw [listWrite_eq_ok]
          exact ⟨⟨by omega, by simpa using hindex⟩, by simp⟩
        obtain ⟨l', hl', hlist⟩ := ih (index + 1) (l.set index v hindex) (by omega)
        refine ⟨l', ?_, ?_⟩
        · simp only [rebuildLoop, hi, if_neg hv, hwrite, bind, Except.bind, hl']
        · rw [hlist, others_cons_of_ne is hi hv, Vector.toList_set, List.take_set_succ _ hlen,
            List.drop_set_of_lt (by omega)]
          simp only [List.append_assoc, List.singleton_append, List.length_cons]
          congr 3
          omega

/-- The list that `map_uid_list_rebuild` leaves for the map of a uid. -/
theorem mapUidListRebuild_spec {gl : GameLogic} {uid : Uid} (h : gl.Registered uid) :
    ∃ l, mapUidListRebuild gl uid =
        .ok (gl.setList (gl.mapOf uid) l) ∧
      l.toList = others (gl.mapPlayerSocketUid (gl.mapOf uid)) uid
          (List.finRange maxPlayerEachMap) ++
        (gl.mapUidList (gl.mapOf uid)).toList.drop
          (others (gl.mapPlayerSocketUid (gl.mapOf uid)) uid
            (List.finRange maxPlayerEachMap)).length := by
  have hlen := length_others_le (gl.mapPlayerSocketUid (gl.mapOf uid)) uid
    (List.finRange maxPlayerEachMap)
  rw [List.length_finRange] at hlen
  obtain ⟨l, hl, hlist⟩ := rebuildLoop_spec (gl.mapPlayerSocketUid (gl.mapOf uid)) uid
    (List.finRange maxPlayerEachMap) 0 (gl.mapUidList (gl.mapOf uid)) (by omega)
  refine ⟨l, ?_, by simpa using hlist⟩
  have hget : gameRouteGetPlayerid gl uid = some (gl.uid2Playid uid) :=
    gameRouteGetPlayerid_eq_some.mpr ⟨h, rfl⟩
  simp only [GameLogic.mapOf] at hl
  simp only [mapUidListRebuild, hget, hl, bind, Except.bind, GameLogic.mapOf]

/-! ### Registration and removal -/

namespace GameLogic

/-- The tables after `uid` has been registered in slot `i` of map `m`. -/
def register (gl : GameLogic) (uid : Uid) (m : MapId) (i : SlotId) : GameLogic :=
  { gl with
    mapPlayer := setCell gl.mapPlayer m i { gl.mapPlayer m i with state := .typeUsing }
    uid2Playid := Function.update gl.uid2Playid uid ⟨.typeUsing, m, i⟩
    mapPlayerSocketUid := setCell gl.mapPlayerSocketUid m i (some uid)
    playerNum := gl.playerNum + 1 }

/-- The tables after the counters and the entry of `uid` have been cleared, before its slot is. -/
def dropEntry (gl : GameLogic) (uid : Uid) : GameLogic :=
  { gl with
    uid2Playid := Function.update gl.uid2Playid uid
      { gl.uid2Playid uid with state := .typeInvalid }
    mapPlayerNum :=
      Function.update gl.mapPlayerNum (gl.mapOf uid) (gl.mapPlayerNum (gl.mapOf uid) - 1)
    playerNum := gl.playerNum - 1 }

/-- The tables after the removal of `uid`. -/
def unregister (gl : GameLogic) (uid : Uid) : GameLogic :=
  { gl.dropEntry uid with
    mapPlayerSocketUid := setCell gl.mapPlayerSocketUid (gl.mapOf uid) (gl.slotOf uid) none
    mapPlayer := setCell gl.mapPlayer (gl.mapOf uid) (gl.slotOf uid)
      { gl.playerOf uid with state := .typeInvalid } }

/-- The tables with another contents of the slot of `uid`. -/
def setPlayer (gl : GameLogic) (uid : Uid) (p : Player) : GameLogic :=
  gl.setSlot (gl.mapOf uid) (gl.slotOf uid) p

end GameLogic

/-- The map chosen for a new player has room by its counter, and the service has room. -/
theorem gameRouteGetMapid_spec {gl : GameLogic} {m : MapId} (h : gameRouteGetMapid gl = some m) :
    gl.playerNum < maxGameServicePlayerNum ∧ gl.mapPlayerNum m < maxPlayerEachMap := by
  unfold gameRouteGetMapid at h
  split_ifs at h with hfull
  exact ⟨not_le.mp hfull, by simpa using List.find?_some h⟩

/-- The slot chosen is free, and only its mark changes. -/
theorem gameRouteGetPlayeridInMap_spec {gl gl₁ : GameLogic} {m : MapId} {i : SlotId}
    (h : gameRouteGetPlayeridInMap gl m = some (i, gl₁)) :
    (gl.mapPlayer m i).state = .typeInvalid ∧
      gl₁ = gl.setSlot m i { gl.mapPlayer m i with state := .typeUsing } := by
  unfold gameRouteGetPlayeridInMap at h
  obtain ⟨j, hj, he⟩ := Option.map_eq_some_iff.mp h
  obtain ⟨rfl, rfl⟩ := Prod.mk.inj he
  exact ⟨by simpa using List.find?_some hj, rfl⟩

/-- `game_route_append` leaves the tables alone, or registers the uid in a free slot; it marks the
slot and then fails only where the slot is free but holds a uid. -/
theorem gameRouteAppend_cases (gl : GameLogic) (uid : Uid) :
    gameRouteAppend gl uid = (-1, gl) ∨
    (∃ m i, gameRouteGetMapid gl = some m ∧ (gl.uid2Playid uid).state = .typeInvalid ∧
      (gl.mapPlayer m i).state = .typeInvalid ∧ gl.mapPlayerSocketUid m i = none ∧
      gameRouteAppend gl uid = (0, gl.register uid m i)) ∨
    (∃ m i, (gl.mapPlayer m i).state = .typeInvalid ∧ gl.mapPlayerSocketUid m i ≠ none ∧
      gameRouteAppend gl uid =
        (-1, gl.setSlot m i { gl.mapPlayer m i with state := .typeUsing })) := by
  by_cases hfree : (gl.uid2Playid uid).state = .typeInvalid
  · cases hmap : gameRouteGetMapid gl with
    | none => exact Or.inl (by simp only [gameRouteAppend, hfree, hmap, if_true])
    | some m =>
      cases hslot : gameRouteGetPlayeridInMap gl m with
      | none => exact Or.inl (by simp only [gameRouteAppend, hfree, hmap, hslot, if_true])
      | some p =>
        obtain ⟨i, gl₁⟩ := p
        obtain ⟨hi, rfl⟩ := gameRouteGetPlayeridInMap_spec hslot
        right
        by_cases hnull : gl.mapPlayerSocketUid m i = none
        · exact Or.inl ⟨m, i, rfl, hfree, hi, hnull, by
            simp only [gameRouteAppend, hfree, hmap, hslot, GameLogic.setSlot, hnull, if_true,
              GameLogic.register]⟩
        · exact Or.inr ⟨m, i, hi, hnull, by
            simp only [gameRouteAppend, hfree, hmap, hslot, GameLogic.setSlot, if_neg hnull,
              if_true]⟩
  · exact Or.inl (by simp only [gameRouteAppend, if_neg hfree])

theorem gameRouteDel_of_not_registered {gl : GameLogic} {uid : Uid} (h : ¬gl.Registered uid) :
    gameRouteDel gl uid = (0, gl) := by
  unfold GameLogic.Registered at h
  simp only [gameRouteDel, if_neg h]

theorem gameRouteDel_of_slot {gl : GameLogic} {uid : Uid} (h : gl.Registered uid)
    (hslot : gl.mapPlayerSocketUid (gl.mapOf uid) (gl.slotOf uid) = some uid) :
    gameRouteDel gl uid = (0, gl.unregister uid) := by
  unfold GameLogic.Registered at h
  simp only [GameLogic.mapOf, GameLogic.slotOf] at hslot
  simp only [gameRouteDel, h, hslot, if_true]
  rfl

theorem gameRouteDel_of_mismatch {gl : GameLogic} {uid : Uid} (h : gl.Registered uid)
    (hslot : gl.mapPlayerSocketUid (gl.mapOf uid) (gl.slotOf uid) ≠ some uid) :
    gameRouteDel gl uid = (-1, gl.dropEntry uid) := by
  unfold GameLogic.Registered at h
  simp only [GameLogic.mapOf, GameLogic.slotOf] at hslot
  simp only [gameRouteDel, h, if_neg hslot, if_true]
  rfl

/-! ### Sending -/

/-- A broadcast to the recipients of a map. -/
def toMap (gl : GameLogic) (m : MapId) (ty : RspType) (rsp : Rsp) : Broadcast :=
  ⟨gl.mapPlayerNum m, (gl.recipients m).map Uid.toInt, ty, rsp⟩

/-- The message of a broadcast about a player. -/
def playerRsp (user : Player) : RspType → Option Rsp
  | .newEnemy => some (.newEnemy user.uid user.pointX user.pointY)
  | .enemyMsg => some (.enemyMsg user.uid user.pointX user.pointY)
  | .enemyLeave => some (.enemyLeave user.uid)
  | _ => none

theorem broadcastPlayerMsg_of_le {gl : GameLogic} {p : PlayerId} {ty : RspType} {rsp : Rsp}
    (hrsp : playerRsp (gl.mapPlayer p.mapid p.mapPlayerid) ty = some rsp)
    (h : gl.mapPlayerNum p.mapid ≤ maxPlayerEachMap) :
    broadcastPlayerMsg gl p ty = .ok [toMap gl p.mapid ty rsp] := by
  have hcpy := uidListCpy_of_le (gl.mapUidList p.mapid) (n := (gl.mapPlayerNum p.mapid).toNat)
    (by omega)
  cases ty <;> simp only [playerRsp, Option.some.injEq, reduceCtorEq] at hrsp <;> subst hrsp <;>
    simp only [broadcastPlayerMsg, hcpy, bind, Except.bind, toMap, GameLogic.recipients]

theorem broadcastPlayerMsg_of_lt {gl : GameLogic} {p : PlayerId} (ty : RspType)
    (h : maxPlayerEachMap < gl.mapPlayerNum p.mapid) :
    broadcastPlayerMsg gl p ty = .error .listRange := by
  have hcpy := uidListCpy_of_lt (gl.mapUidList p.mapid) (n := (gl.mapPlayerNum p.mapid).toNat)
    (by omega)
  simp only [broadcastPlayerMsg, hcpy, bind, Except.bind]

/-- The message telling `uid` of the player `e`. -/
def enemyMsgTo (gl : GameLogic) (uid e : Uid) : Broadcast :=
  ⟨1, [uid.toInt], .enemyMsg, .enemyMsg e.toInt (gl.playerOf e).pointX (gl.playerOf e).pointY⟩

theorem loginMsgSend_enemyMsg {gl : GameLogic} {uid e : Uid} (h : gl.Registered e) :
    loginMsgSend gl uid e .enemyMsg = .ok [enemyMsgTo gl uid e] := by
  have hget := gameRouteGetPlayerid_eq_some.mpr ⟨h, rfl⟩
  simp only [loginMsgSend, hget, enemyMsgTo, GameLogic.playerOf, GameLogic.mapOf, GameLogic.slotOf]

theorem loginMsgSend_enemyMsg_null {gl : GameLogic} {uid e : Uid} (h : ¬gl.Registered e) :
    loginMsgSend gl uid e .enemyMsg = .error .nullPlayerId := by
  simp only [loginMsgSend, gameRouteGetPlayerid_eq_none.mpr h]

/-- The loop over the listed players returns when the list is long enough and every player listed
is registered. -/
theorem loginEnemies_eq_ok {gl : GameLogic} {uid : Uid} {m : MapId} {n : ℕ} {os : List Broadcast} :
    loginEnemies gl uid m n = .ok os ↔ n ≤ maxPlayerEachMap ∧
      (∀ e ∈ (gl.mapUidList m).toList.take n, gl.Registered e) ∧
      os = ((gl.mapUidList m).toList.take n).map (enemyMsgTo gl uid) := by
  induction n generalizing os with
  | zero => simp [loginEnemies, eq_comm]
  | succ n ih =>
    simp only [loginEnemies, Except.bind_eq_ok_iff, ih, Except.ok.injEq]
    rcases Nat.lt_or_ge n maxPlayerEachMap with hn | hn
    · have hlen : n < (gl.mapUidList m).toList.length := by simpa using hn
      rw [List.take_succ_eq_append_getElem hlen, Vector.getElem_toList]
      by_cases he : gl.Registered (gl.mapUidList m)[n]
      · simp only [listRead_of_lt hn, Except.ok.injEq, exists_eq_left', loginMsgSend_enemyMsg he,
          List.mem_append, List.mem_singleton, List.map_append, List.map_cons, List.map_nil]
        constructor
        · rintro ⟨a, ⟨-, hall, rfl⟩, rfl⟩
          exact ⟨hn, fun e h => h.elim (hall e) (· ▸ he), rfl⟩
        · rintro ⟨-, hall, rfl⟩
          exact ⟨_, ⟨hn.le, fun e h => hall e (Or.inl h), rfl⟩, rfl⟩
      · simp only [listRead_of_lt hn, Except.ok.injEq, exists_eq_left',
          loginMsgSend_enemyMsg_null he, reduceCtorEq, false_and, exists_false, and_false,
          List.mem_append, List.mem_singleton, false_iff, not_and]
        exact fun _ hall => absurd (hall _ (Or.inr rfl)) he
    · simp only [listRead_of_le hn, reduceCtorEq, false_and, exists_false, and_false, false_iff,
        not_and]
      omega

/-! ### The steps of a service -/

namespace GameLogic

/-- The tables after a login request of `uid`. -/
def login (gl : GameLogic) (uid : Uid) (req : LoginReq) : GameLogic :=
  gl.setPlayer uid (userMsgLoad (gl.playerOf uid) req uid)

/-- The tables after an accepted start request of `uid`. -/
def start (gl : GameLogic) (uid : Uid) : GameLogic :=
  (gl.setNum (gl.mapOf uid) (gl.mapPlayerNum (gl.mapOf uid) + 1)).setList (gl.mapOf uid)
    ((gl.mapUidList (gl.mapOf uid)).setIfInBounds (gl.mapPlayerNum (gl.mapOf uid)).toNat uid)

/-- The tables after a move request of `uid`. -/
def move (gl : GameLogic) (uid : Uid) (req : MoveReq) : GameLogic :=
  gl.setPlayer uid (movePlayer (gl.playerOf uid) req.move)

/-- A message that changes nothing: a request or close of a uid that is not registered, a start
request that does not ask to start, or a request without a handler. -/
def Ignores (gl : GameLogic) : GameMsg → Prop
  | .data uid req => gl.Registered uid →
    req = .gameStartReq (some ⟨false⟩) ∨ (∃ d, req = .heroMsgReq d) ∨ ∃ b, req = .other b
  | .close uid => ¬gl.Registered uid
  | .success _ => False

/-- The list `l` is the list of the map of `uid` rebuilt without `uid`. -/
def IsRebuilt (gl : GameLogic) (uid : Uid) (l : Vector Uid maxPlayerEachMap) : Prop :=
  l.toList = others (gl.mapPlayerSocketUid (gl.mapOf uid)) uid (List.finRange maxPlayerEachMap) ++
    (gl.mapUidList (gl.mapOf uid)).toList.drop
      (others (gl.mapPlayerSocketUid (gl.mapOf uid)) uid (List.finRange maxPlayerEachMap)).length

end GameLogic

/-- The replies to a login of `uid`, sent from the tables after it. -/
def loginReplies (gl : GameLogic) (uid : Uid) : List Broadcast :=
  [⟨1, [uid.toInt], .logRsp, .loginRsp true uid.toInt (gl.playerOf uid).pointX
      (gl.playerOf uid).pointY (gl.mapPlayerNum (gl.mapOf uid))⟩] ++
    (gl.recipients (gl.mapOf uid)).map (enemyMsgTo gl uid) ++
    [⟨1, [uid.toInt], .loginEnd, .loginEnd true⟩]

/-- The steps of a game service: the message handled, the tables reached and the broadcasts sent,
with the bounds under which no index leaves an array. -/
inductive GameStep (gl : GameLogic) : GameMsg → GameLogic → List Broadcast → Prop
  | success (uid : Uid) : GameStep gl (.success uid) (gameRouteAppend gl uid).2 []
  | ignored {msg : GameMsg} (h : gl.Ignores msg) : GameStep gl msg gl []
  | login (uid : Uid) (req : LoginReq) (h : gl.Registered uid)
      (hnum : gl.mapPlayerNum (gl.mapOf uid) ≤ maxPlayerEachMap)
      (hlist : ∀ e ∈ gl.recipients (gl.mapOf uid), gl.Registered e) :
      GameStep gl (.data uid (.logReq (some req))) (gl.login uid req)
        (loginReplies (gl.login uid req) uid)
  | start (uid : Uid) (h : gl.Registered uid) (hnonneg : 0 ≤ gl.mapPlayerNum (gl.mapOf uid))
      (hnum : gl.mapPlayerNum (gl.mapOf uid) < maxPlayerEachMap) :
      GameStep gl (.data uid (.gameStartReq (some ⟨true⟩))) (gl.start uid)
        [toMap gl (gl.mapOf uid) .newEnemy (.newEnemy (gl.playerOf uid).uid
            (gl.playerOf uid).pointX (gl.playerOf uid).pointY),
          ⟨1, [uid.toInt], .gameStartRsp, .startRsp true⟩]
  | move (uid : Uid) (req : MoveReq) (h : gl.Registered uid)
      (hnum : gl.mapPlayerNum (gl.mapOf uid) ≤ maxPlayerEachMap) :
      GameStep gl (.data uid (.moveReq (some req))) (gl.move uid req)
        [toMap gl (gl.mapOf uid) .enemyMsg (.enemyMsg (movePlayer (gl.playerOf uid) req.move).uid
          (movePlayer (gl.playerOf uid) req.move).pointX
          (movePlayer (gl.playerOf uid) req.move).pointY)]
  | leave (uid : Uid) (data : Option MoveReq) (h : gl.Registered uid) :
      GameStep gl (.data uid (.leaveReq data)) gl (leaveRspSend (gl.playerOf uid) true)
  | close (uid : Uid) (l : Vector Uid maxPlayerEachMap) (h : gl.Registered uid)
      (hl : gl.IsRebuilt uid l)
      (hnum : gl.mapPlayerNum (gl.mapOf uid) - 1 ≤ maxPlayerEachMap) :
      GameStep gl (.close uid) (gameRouteDel (gl.setList (gl.mapOf uid) l) uid).2
        [toMap (gameRouteDel (gl.setList (gl.mapOf uid) l) uid).2 (gl.mapOf uid) .enemyLeave
          (.enemyLeave (gl.playerOf uid).uid)]

/-- Removing a uid leaves the stored uid of its slot alone. -/
theorem gameRouteDel_player_uid (gl : GameLogic) (uid : Uid) (m : MapId) (i : SlotId) :
    ((gameRouteDel gl uid).2.mapPlayer m i).uid = (gl.mapPlayer m i).uid := by
  by_cases h : gl.Registered uid
  · by_cases hslot : gl.mapPlayerSocketUid (gl.mapOf uid) (gl.slotOf uid) = some uid
    · rw [gameRouteDel_of_slot h hslot]
      by_cases hc : (m, i) = (gl.mapOf uid, gl.slotOf uid)
      · obtain ⟨rfl, rfl⟩ := Prod.mk.inj hc
        simp only [GameLogic.unregister, setCell_self, GameLogic.playerOf]
      · simp only [GameLogic.unregister, setCell_of_ne hc]
    · rw [gameRouteDel_of_mismatch h hslot]; rfl
  · rw [gameRouteDel_of_not_registered h]

/-- Removing a registered uid lowers the counter of its map, whatever the slot holds. -/
theorem gameRouteDel_mapPlayerNum {gl : GameLogic} {uid : Uid} (h : gl.Registered uid) :
    (gameRouteDel gl uid).2.mapPlayerNum =
      Function.update gl.mapPlayerNum (gl.mapOf uid) (gl.mapPlayerNum (gl.mapOf uid) - 1) := by
  by_cases hslot : gl.mapPlayerSocketUid (gl.mapOf uid) (gl.slotOf uid) = some uid
  · rw [gameRouteDel_of_slot h hslot]; rfl
  · rw [gameRouteDel_of_mismatch h hslot]; rfl

/-- Removing a uid leaves the broadcast lists alone. -/
theorem gameRouteDel_mapUidList (gl : GameLogic) (uid : Uid) :
    (gameRouteDel gl uid).2.mapUidList = gl.mapUidList := by
  by_cases h : gl.Registered uid
  · by_cases hslot : gl.mapPlayerSocketUid (gl.mapOf uid) (gl.slotOf uid) = some uid
    · rw [gameRouteDel_of_slot h hslot]; rfl
    · rw [gameRouteDel_of_mismatch h hslot]; rfl
  · rw [gameRouteDel_of_not_registered h]

/-- Removing a registered uid clears its entry, whatever the slot holds. -/
theorem gameRouteDel_uid2Playid {gl : GameLogic} {uid : Uid} (h : gl.Registered uid) :
    (gameRouteDel gl uid).2.uid2Playid =
      Function.update gl.uid2Playid uid { gl.uid2Playid uid with state := .typeInvalid } := by
  by_cases hslot : gl.mapPlayerSocketUid (gl.mapOf uid) (gl.slotOf uid) = some uid
  · rw [gameRouteDel_of_slot h hslot]; rfl
  · rw [gameRouteDel_of_mismatch h hslot]; rfl

theorem disposeLoginRequest_step {gl gl' : GameLogic} {uid : Uid} {data : Option LoginReq}
    {out : List Broadcast} (hreg : gl.Registered uid)
    (h : disposeLoginRequest gl (gl.uid2Playid uid) data uid = .ok (gl', out)) :
    GameStep gl (.data uid (.logReq data)) gl' out := by
  cases data with
  | none => cases h
  | some req =>
    simp only [disposeLoginRequest, Except.bind_eq_ok_iff] at h
    obtain ⟨o₁, ho₁, o₂, ho₂, o₃, ho₃, h⟩ := h
    obtain ⟨rfl, rfl⟩ := Prod.mk.inj (Except.ok.inj h)
    obtain ⟨hn, hall, rfl⟩ := loginEnemies_eq_ok.mp ho₂
    simp only [loginMsgSend, Except.ok.injEq] at ho₁ ho₃
    subst ho₁ ho₃
    exact .login uid req hreg (by simpa [GameLogic.mapOf] using hn) hall

theorem disposeStartRequest_step {gl gl' : GameLogic} {uid : Uid} {data : Option StartReq}
    {out : List Broadcast} (hreg : gl.Registered uid)
    (h : disposeStartRequest gl (gl.uid2Playid uid) data uid = .ok (gl', out)) :
    GameStep gl (.data uid (.gameStartReq data)) gl' out := by
  cases data with
  | none => cases h
  | some req =>
    obtain ⟨_ | _⟩ := req
    · simp only [disposeStartRequest, Bool.false_eq_true, if_false, Except.ok.injEq,
        Prod.mk.injEq] at h
      obtain ⟨rfl, rfl⟩ := h
      exact .ignored fun _ => Or.inl rfl
    · simp only [disposeStartRequest, if_true, Except.bind_eq_ok_iff, mapUidListAppend,
        listWrite_eq_ok, GameLogic.setNum_mapPlayerNum, GameLogic.setNum_mapUidList,
        Function.update_self] at h
      obtain ⟨o₁, ho₁, gl₂, ⟨l, ⟨⟨hpos, hlt⟩, rfl⟩, hgl₂⟩, o₂, ho₂, h⟩ := h
      have hnum : gl.mapPlayerNum (gl.uid2Playid uid).mapid < maxPlayerEachMap := by omega
      have hnonneg : 0 ≤ gl.mapPlayerNum (gl.uid2Playid uid).mapid := by omega
      rw [broadcastPlayerMsg_of_le rfl hnum.le, Except.ok.injEq] at ho₁
      cases hgl₂
      simp only [loginMsgSend, Except.ok.injEq] at ho₂
      subst ho₁ ho₂
      obtain ⟨rfl, rfl⟩ := Prod.mk.inj (Except.ok.inj h)
      have hset : (gl.mapUidList (gl.uid2Playid uid).mapid).set
          (gl.mapPlayerNum (gl.uid2Playid uid).mapid + 1 - 1).toNat uid hlt =
          (gl.mapUidList (gl.uid2Playid uid).mapid).setIfInBounds
            (gl.mapPlayerNum (gl.uid2Playid uid).mapid).toNat uid := by
        simp only [Int.add_sub_cancel] at hlt ⊢
        exact Vector.toList_inj.mp (by simp only [Vector.toList_set, Vector.toList_setIfInBounds])
      rw [hset]
      exact .start uid hreg hnonneg hnum

theorem disposeMoveRequest_step {gl gl' : GameLogic} {uid : Uid} {data : Option MoveReq}
    {out : List Broadcast} (hreg : gl.Registered uid)
    (h : disposeMoveRequest gl (gl.uid2Playid uid) data = .ok (gl', out)) :
    GameStep gl (.data uid (.moveReq data)) gl' out := by
  cases data with
  | none => cases h
  | some req =>
    simp only [disposeMoveRequest, Except.bind_eq_ok_iff] at h
    obtain ⟨o, ho, h⟩ := h
    obtain ⟨rfl, rfl⟩ := Prod.mk.inj (Except.ok.inj h)
    have hrsp : playerRsp ((gl.move uid req).mapPlayer (gl.mapOf uid) (gl.slotOf uid)) .enemyMsg =
        some (.enemyMsg (movePlayer (gl.playerOf uid) req.move).uid
          (movePlayer (gl.playerOf uid) req.move).pointX
          (movePlayer (gl.playerOf uid) req.move).pointY) := by
      simp only [GameLogic.move, GameLogic.setPlayer, GameLogic.setSlot_mapPlayer, setCell_self,
        playerRsp]
    by_cases hnum : (gl.move uid req).mapPlayerNum (gl.mapOf uid) ≤ maxPlayerEachMap
    · have hsend := broadcastPlayerMsg_of_le (p := gl.uid2Playid uid) hrsp hnum
      obtain rfl := Except.ok.inj (hsend.symm.trans ho)
      exact .move uid req hreg hnum
    · have hsend := broadcastPlayerMsg_of_lt (p := gl.uid2Playid uid) .enemyMsg (not_le.mp hnum)
      cases hsend.symm.trans ho

theorem disposeUserClose_step {gl gl' : GameLogic} {uid : Uid} {out : List Broadcast}
    (h : disposeUserClose gl uid = .ok (gl', out)) : GameStep gl (.close uid) gl' out := by
  by_cases hreg : gl.Registered uid
  · have hget := gameRouteGetPlayerid_eq_some.mpr ⟨hreg, rfl⟩
    obtain ⟨l, hl, hlist⟩ := mapUidListRebuild_spec hreg
    simp only [disposeUserClose, hget, Except.bind_eq_ok_iff, hl, Except.ok.injEq,
      exists_eq_left'] at h
    obtain ⟨o, ho, h⟩ := h
    obtain ⟨rfl, rfl⟩ := Prod.mk.inj h
    have hreg' : (gl.setList (gl.mapOf uid) l).Registered uid := hreg
    have hnum' : (gameRouteDel (gl.setList (gl.mapOf uid) l) uid).2.mapPlayerNum (gl.mapOf uid) =
        gl.mapPlayerNum (gl.mapOf uid) - 1 := by
      rw [gameRouteDel_mapPlayerNum hreg']
      exact Function.update_self ..
    by_cases hnum : gl.mapPlayerNum (gl.mapOf uid) - 1 ≤ maxPlayerEachMap
    · have hrsp : playerRsp ((gameRouteDel (gl.setList (gl.mapOf uid) l) uid).2.mapPlayer
          (gl.mapOf uid) (gl.slotOf uid)) .enemyLeave =
          some (.enemyLeave (gl.playerOf uid).uid) := by
        simp only [playerRsp, gameRouteDel_player_uid]
        rfl
      have hsend := broadcastPlayerMsg_of_le (p := gl.uid2Playid uid) hrsp (hnum'.trans_le hnum)
      obtain rfl := Except.ok.inj (hsend.symm.trans ho)
      exact .close uid l hreg hlist hnum
    · have hlt : maxPlayerEachMap <
          (gameRouteDel (gl.setList (gl.mapOf uid) l) uid).2.mapPlayerNum (gl.mapOf uid) :=
        (not_le.mp hnum).trans_eq hnum'.symm
      have hsend := broadcastPlayerMsg_of_lt (p := gl.uid2Playid uid) .enemyLeave hlt
      cases hsend.symm.trans ho
  · simp only [disposeUserClose, gameRouteGetPlayerid_eq_none.mpr hreg, Except.ok.injEq,
      Prod.mk.injEq] at h
    obtain ⟨rfl, rfl⟩ := h
    exact .ignored hreg

/-- **Inversion.** A message handled without a fault is a step of the service. -/
theorem disposeQueueEvent_step {gl gl' : GameLogic} {msg : GameMsg} {out : List Broadcast}
    (h : disposeQueueEvent gl msg = .ok (gl', out)) : GameStep gl msg gl' out := by
  cases msg with
  | success uid =>
    obtain ⟨rfl, rfl⟩ := Prod.mk.inj (Except.ok.inj h)
    exact .success uid
  | close uid => exact disposeUserClose_step h
  | data uid req =>
    by_cases hreg : gl.Registered uid
    · have hget := gameRouteGetPlayerid_eq_some.mpr ⟨hreg, rfl⟩
      simp only [disposeQueueEvent, disposeGameLogic, hget] at h
      cases req with
      | logReq data => exact disposeLoginRequest_step hreg h
      | gameStartReq data => exact disposeStartRequest_step hreg h
      | moveReq data => exact disposeMoveRequest_step hreg h
      | leaveReq data =>
        obtain ⟨rfl, rfl⟩ := Prod.mk.inj (Except.ok.inj h)
        exact .leave uid data hreg
      | heroMsgReq data =>
        obtain ⟨rfl, rfl⟩ := Prod.mk.inj (Except.ok.inj h)
        exact .ignored fun _ => Or.inr (Or.inl ⟨data, rfl⟩)
      | other b =>
        obtain ⟨rfl, rfl⟩ := Prod.mk.inj (Except.ok.inj h)
        exact .ignored fun _ => Or.inr (Or.inr ⟨b, rfl⟩)
    · simp only [disposeQueueEvent, disposeGameLogic, gameRouteGetPlayerid_eq_none.mpr hreg,
        Except.ok.injEq, Prod.mk.injEq] at h
      obtain ⟨rfl, rfl⟩ := h
      exact .ignored fun hr => absurd hr hreg

/-! ### The faults of a service -/

/-- A message whose handling takes an index outside a list: the counter of the map is past the end
of the list, or, for an accepted start, not an index of it. -/
def GameLogic.Overruns (gl : GameLogic) : GameMsg → Prop
  | .data uid (.logReq (some _)) => gl.Registered uid ∧
    maxPlayerEachMap < gl.mapPlayerNum (gl.mapOf uid)
  | .data uid (.gameStartReq (some ⟨true⟩)) => gl.Registered uid ∧
    ¬(0 ≤ gl.mapPlayerNum (gl.mapOf uid) ∧ gl.mapPlayerNum (gl.mapOf uid) < maxPlayerEachMap)
  | .data uid (.moveReq (some _)) => gl.Registered uid ∧
    maxPlayerEachMap < gl.mapPlayerNum (gl.mapOf uid)
  | .close uid => gl.Registered uid ∧ maxPlayerEachMap < gl.mapPlayerNum (gl.mapOf uid) - 1
  | _ => False

/-- A request whose handler dereferences the decoded buffer, which is `NULL`. -/
def Request.IsNull : Request → Prop
  | .logReq none => True
  | .gameStartReq none => True
  | .moveReq none => True
  | _ => False

/-- The faults of a game service: the message handled and what goes wrong. -/
inductive GameFault (gl : GameLogic) : GameMsg → Fault → Prop
  | overrun {msg : GameMsg} (h : gl.Overruns msg) : GameFault gl msg .listRange
  | nullMessage {uid : Uid} {req : Request} (h : gl.Registered uid) (hnull : req.IsNull) :
      GameFault gl (.data uid req) .nullMessage
  | nullEnemy {uid e : Uid} {req : LoginReq} (h : gl.Registered uid)
      (he : e ∈ gl.recipients (gl.mapOf uid)) (hnull : ¬gl.Registered e) :
      GameFault gl (.data uid (.logReq (some req))) .nullPlayerId

theorem loginEnemies_error {gl : GameLogic} {uid : Uid} {m : MapId} {n : ℕ} {e : Fault}
    (h : loginEnemies gl uid m n = .error e) :
    (e = .listRange ∧ maxPlayerEachMap < n) ∨
      (e = .nullPlayerId ∧ ∃ v ∈ (gl.mapUidList m).toList.take n, ¬gl.Registered v) := by
  induction n with
  | zero => cases h
  | succ n ih =>
    simp only [loginEnemies, Except.bind_eq_error_iff, reduceCtorEq, and_false, exists_false,
      or_false] at h
    rcases h with h | ⟨os, -, h⟩
    · rcases ih h with ⟨rfl, hn⟩ | ⟨rfl, v, hv, hnull⟩
      · exact Or.inl ⟨rfl, by omega⟩
      · exact Or.inr ⟨rfl, v, (List.take_sublist_take_left (Nat.le_succ n)).subset hv, hnull⟩
    · rcases Nat.lt_or_ge n maxPlayerEachMap with hn | hn
      · have hlen : n < (gl.mapUidList m).toList.length := by simpa using hn
        simp only [listRead_of_lt hn, reduceCtorEq, false_or, Except.ok.injEq,
          exists_eq_left'] at h
        by_cases hv : gl.Registered (gl.mapUidList m)[n]
        · rw [loginMsgSend_enemyMsg hv] at h
          cases h
        · rw [loginMsgSend_enemyMsg_null hv] at h
          cases h
          refine Or.inr ⟨rfl, _, ?_, hv⟩
          rw [List.take_succ_eq_append_getElem hlen, Vector.getElem_toList]
          exact List.mem_append_right _ (List.mem_singleton_self _)
      · simp only [listRead_of_le hn, Except.error.injEq, reduceCtorEq, false_and, exists_false,
          or_false] at h
        exact Or.inl ⟨h.symm, by omega⟩

/-- A broadcast fails only where the counter is past the end of the list. -/
theorem broadcastPlayerMsg_error {gl : GameLogic} {p : PlayerId} {ty : RspType} {e : Fault}
    (h : broadcastPlayerMsg gl p ty = .error e) :
    e = .listRange ∧ maxPlayerEachMap < gl.mapPlayerNum p.mapid := by
  rcases lt_or_ge maxPlayerEachMap (gl.mapPlayerNum p.mapid).toNat with hn | hn
  · have hlt : (maxPlayerEachMap : ℤ) < gl.mapPlayerNum p.mapid := by omega
    rw [broadcastPlayerMsg_of_lt ty hlt] at h
    cases h
    exact ⟨rfl, hlt⟩
  · have hcpy := uidListCpy_of_le (gl.mapUidList p.mapid) hn
    cases ty <;> simp only [broadcastPlayerMsg, hcpy, bind, Except.bind, reduceCtorEq] at h

theorem disposeLoginRequest_fault {gl : GameLogic} {uid : Uid} {data : Option LoginReq} {e : Fault}
    (hreg : gl.Registered uid)
    (h : disposeLoginRequest gl (gl.uid2Playid uid) data uid = .error e) :
    GameFault gl (.data uid (.logReq data)) e := by
  cases data with
  | none => cases h; exact .nullMessage hreg trivial
  | some req =>
    simp only [disposeLoginRequest, Except.bind_eq_error_iff, loginMsgSend, reduceCtorEq,
      Except.ok.injEq, and_false, exists_false, or_false, false_or, exists_eq_left'] at h
    rcases loginEnemies_error h with ⟨rfl, hn⟩ | ⟨rfl, v, hv, hnull⟩
    · refine .overrun ⟨hreg, ?_⟩
      simp only [GameLogic.setSlot_mapPlayerNum] at hn
      simp only [GameLogic.mapOf]
      omega
    · exact .nullEnemy hreg hv hnull

theorem disposeStartRequest_fault {gl : GameLogic} {uid : Uid} {data : Option StartReq} {e : Fault}
    (hreg : gl.Registered uid)
    (h : disposeStartRequest gl (gl.uid2Playid uid) data uid = .error e) :
    GameFault gl (.data uid (.gameStartReq data)) e := by
  cases data with
  | none => cases h; exact .nullMessage hreg trivial
  | some req =>
    obtain ⟨_ | _⟩ := req
    · simp only [disposeStartRequest, Bool.false_eq_true, if_false, reduceCtorEq] at h
    · simp only [disposeStartRequest, if_true, Except.bind_eq_error_iff] at h
      rcases h with h | ⟨o₁, -, h | ⟨gl₂, -, h⟩⟩
      · obtain ⟨rfl, hlt⟩ := broadcastPlayerMsg_error h
        exact .overrun ⟨hreg, fun hin => absurd hin.2 (not_lt.mpr hlt.le)⟩
      · simp only [mapUidListAppend, Except.bind_eq_error_iff, GameLogic.setNum_mapPlayerNum,
          Function.update_self, reduceCtorEq, and_false, exists_false, or_false, listWrite] at h
        split_ifs at h with hin
        cases h
        refine .overrun ⟨hreg, fun hnum => hin ?_⟩
        simp only [GameLogic.mapOf] at hnum
        exact ⟨by omega, by omega⟩
      · simp only [loginMsgSend, reduceCtorEq, and_false, exists_false, or_false] at h

theorem disposeMoveRequest_fault {gl : GameLogic} {uid : Uid} {data : Option MoveReq} {e : Fault}
    (hreg : gl.Registered uid) (h : disposeMoveRequest gl (gl.uid2Playid uid) data = .error e) :
    GameFault gl (.data uid (.moveReq data)) e := by
  cases data with
  | none => cases h; exact .nullMessage hreg trivial
  | some req =>
    simp only [disposeMoveRequest, Except.bind_eq_error_iff, reduceCtorEq, and_false,
      exists_false, or_false] at h
    obtain ⟨rfl, hlt⟩ := broadcastPlayerMsg_error h
    exact .overrun ⟨hreg, hlt⟩

theorem disposeUserClose_fault {gl : GameLogic} {uid : Uid} {e : Fault}
    (h : disposeUserClose gl uid = .error e) : GameFault gl (.close uid) e := by
  by_cases hreg : gl.Registered uid
  · have hget := gameRouteGetPlayerid_eq_some.mpr ⟨hreg, rfl⟩
    obtain ⟨l, hl, -⟩ := mapUidListRebuild_spec hreg
    simp only [disposeUserClose, hget, Except.bind_eq_error_iff, hl, reduceCtorEq, and_false,
      exists_false, or_false, false_or, Except.ok.injEq, exists_eq_left'] at h
    obtain ⟨rfl, hlt⟩ := broadcastPlayerMsg_error h
    have hreg' : (gl.setList (gl.mapOf uid) l).Registered uid := hreg
    refine .overrun ⟨hreg, ?_⟩
    rw [gameRouteDel_mapPlayerNum hreg'] at hlt
    simpa only [GameLogic.mapOf, GameLogic.setList_uid2Playid, GameLogic.setList_mapPlayerNum,
      Function.update_self] using hlt
  · simp only [disposeUserClose, gameRouteGetPlayerid_eq_none.mpr hreg, reduceCtorEq] at h

/-- **Inversion of faults.** -/
theorem disposeQueueEvent_fault {gl : GameLogic} {msg : GameMsg} {e : Fault}
    (h : disposeQueueEvent gl msg = .error e) : GameFault gl msg e := by
  cases msg with
  | success uid => cases h
  | close uid => exact disposeUserClose_fault h
  | data uid req =>
    by_cases hreg : gl.Registered uid
    · have hget := gameRouteGetPlayerid_eq_some.mpr ⟨hreg, rfl⟩
      simp only [disposeQueueEvent, disposeGameLogic, hget] at h
      cases req with
      | logReq data => exact disposeLoginRequest_fault hreg h
      | gameStartReq data => exact disposeStartRequest_fault hreg h
      | moveReq data => exact disposeMoveRequest_fault hreg h
      | leaveReq data => cases h
      | heroMsgReq data => cases h
      | other b => cases h
    · simp only [disposeQueueEvent, disposeGameLogic, gameRouteGetPlayerid_eq_none.mpr hreg,
        reduceCtorEq] at h

/-! ### The steps are what the handlers do -/

/-- A request of a registered uid that has a handler is not ignored. -/
theorem GameLogic.Ignores.not_request {gl : GameLogic} {uid : Uid} {req : Request}
    (h : gl.Ignores (.data uid req)) (hreg : gl.Registered uid)
    (hreq : req ≠ .gameStartReq (some ⟨false⟩) ∧ (∀ d, req ≠ .heroMsgReq d) ∧
      ∀ b, req ≠ .other b) : False := by
  rcases h hreg with he | ⟨d, he⟩ | ⟨b, he⟩
  · exact hreq.1 he
  · exact hreq.2.1 d he
  · exact hreq.2.2 b he

/-- A message that makes the service fault is none that it handles. -/
theorem GameFault.not_step {gl gl' : GameLogic} {msg : GameMsg} {out : List Broadcast} {e : Fault}
    (h : GameFault gl msg e) (hstep : GameStep gl msg gl' out) : False := by
  cases hstep with
  | success uid =>
    cases h with
    | overrun h => exact h
  | ignored hig =>
    cases h with
    | overrun h =>
      unfold GameLogic.Overruns at h
      split at h
      · exact hig.not_request h.1 (by simp)
      · exact hig.not_request h.1 (by simp)
      · exact hig.not_request h.1 (by simp)
      · exact hig h.1
      · exact h
    | nullMessage hreg hnull =>
      refine hig.not_request hreg ⟨?_, ?_, ?_⟩
      · rintro rfl
        exact hnull
      · rintro d rfl
        exact hnull
      · rintro b rfl
        exact hnull
    | nullEnemy hreg => exact hig.not_request hreg (by simp)
  | login uid req hreg hnum hlist =>
    cases h with
    | overrun h => exact absurd hnum (not_le.mpr h.2)
    | nullMessage _ hnull => exact hnull
    | nullEnemy _ he hnull => exact hnull (hlist _ he)
  | start uid hreg hnonneg hnum =>
    cases h with
    | overrun h => exact h.2 ⟨hnonneg, hnum⟩
    | nullMessage _ hnull => exact hnull
  | move uid req hreg hnum =>
    cases h with
    | overrun h => exact absurd hnum (not_le.mpr h.2)
    | nullMessage _ hnull => exact hnull
  | leave uid data hreg =>
    cases h with
    | overrun h => exact h
    | nullMessage _ hnull => exact hnull
  | close uid l hreg hl hnum =>
    cases h with
    | overrun h => exact absurd hnum (not_le.mpr h.2)

/-- A message makes one step. -/
theorem GameStep.unique {gl gl₁ gl₂ : GameLogic} {msg : GameMsg} {o₁ o₂ : List Broadcast}
    (h₁ : GameStep gl msg gl₁ o₁) (h₂ : GameStep gl msg gl₂ o₂) : gl₁ = gl₂ ∧ o₁ = o₂ := by
  cases h₁ with
  | success uid =>
    cases h₂ with
    | success => exact ⟨rfl, rfl⟩
    | ignored hig => exact hig.elim
  | ignored hig =>
    cases h₂ with
    | success => exact hig.elim
    | ignored => exact ⟨rfl, rfl⟩
    | login _ _ hreg => exact (hig.not_request hreg (by simp)).elim
    | start _ hreg => exact (hig.not_request hreg (by simp)).elim
    | move _ _ hreg => exact (hig.not_request hreg (by simp)).elim
    | leave _ _ hreg => exact (hig.not_request hreg (by simp)).elim
    | close _ _ hreg => exact (hig hreg).elim
  | login uid req hreg =>
    cases h₂ with
    | ignored hig => exact (hig.not_request hreg (by simp)).elim
    | login => exact ⟨rfl, rfl⟩
  | start uid hreg =>
    cases h₂ with
    | ignored hig => exact (hig.not_request hreg (by simp)).elim
    | start => exact ⟨rfl, rfl⟩
  | move uid req hreg =>
    cases h₂ with
    | ignored hig => exact (hig.not_request hreg (by simp)).elim
    | move => exact ⟨rfl, rfl⟩
  | leave uid data hreg =>
    cases h₂ with
    | ignored hig => exact (hig.not_request hreg (by simp)).elim
    | leave => exact ⟨rfl, rfl⟩
  | close uid l hreg hl =>
    cases h₂ with
    | ignored hig => exact (hig hreg).elim
    | close _ l' _ hl' =>
      -- The rebuilt list is the same whichever way it was reached.
      obtain rfl : l = l' := Vector.toList_inj.mp (hl.trans hl'.symm)
      exact ⟨rfl, rfl⟩

/-- The steps are exactly what the handlers do. -/
theorem disposeQueueEvent_eq_ok {gl gl' : GameLogic} {msg : GameMsg} {out : List Broadcast} :
    disposeQueueEvent gl msg = .ok (gl', out) ↔ GameStep gl msg gl' out := by
  refine ⟨disposeQueueEvent_step, fun hstep => ?_⟩
  cases h : disposeQueueEvent gl msg with
  | error e => exact ((disposeQueueEvent_fault h).not_step hstep).elim
  | ok q =>
    obtain ⟨rfl, rfl⟩ := (disposeQueueEvent_step h).unique hstep
    rfl

end GameServer
