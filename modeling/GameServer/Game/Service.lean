import GameServer.Library.Machine
import GameServer.Messages
import Mathlib.Data.List.FinRange
import Mathlib.Logic.Function.Basic
import Mathlib.Tactic.Simps.Basic

/-!
# The game service

The handlers of one game service over its tables: the player slots of each map, the routing table
with the registered uid of each slot, the number of started players of each map and the list of
recipients that each map keeps for its broadcasts. `map_uid_list` is an array of
`MAX_PLAYER_EACH_MAP` entries whose length in use is the counter `map_player_num`, which the
handlers do not bound; an index outside the array is a fault. `PLAYER_UID_NULL` is `none`.

The slots come from `malloc`, which leaves everything but their state unset. The initial contents
are the parameter of `gameLogicCreat`. An `int` is an integer without bounds here: the overflow of
the counters and of the positions is left out.

## Main definitions

* `GameLogic` : the tables of a service, with the `uid_2_playid` table that its router points to.
* `gameRouteAppend`, `gameRouteDel` : registration and removal.
* `disposeLoginRequest`, `disposeStartRequest`, `disposeMoveRequest`, `disposeLeaveRequest`,
  `disposeUserClose` : the handlers; `disposeQueueEvent` selects one by the message.
* `gameMachine` : the service as a machine.
-/

namespace GameServer

/-! ### Tables -/

/-- The state of a table entry: `STATE_TYPE_INVALID` or `STATE_TYPE_USING`. -/
inductive StateType
  | typeInvalid | typeUsing
deriving DecidableEq, Repr

/-- An entry of `uid_2_playid`: where a uid is registered. -/
structure PlayerId where
  state : StateType
  mapid : MapId
  mapPlayerid : SlotId
deriving DecidableEq, Repr

/-- A player slot: its state, `tec.step`, `msg.uid`, `msg.name` and `pos`. The `int` fields are
integers without bounds. -/
structure Player where
  state : StateType
  step : ℤ
  uid : ℤ
  name : List UInt8
  pointX : ℤ
  pointY : ℤ
deriving DecidableEq, Repr

/-- The tables of a game service: `map_player` and the fields of its `game_router`. The counters are
integers without bounds: as `int`, `map_player_num` would overflow after 2^31 closes of clients that
have not started. -/
structure GameLogic where
  mapPlayer : MapId → SlotId → Player
  playerNum : ℤ
  mapPlayerNum : MapId → ℤ
  uid2Playid : Uid → PlayerId
  mapPlayerSocketUid : MapId → SlotId → Option Uid
  mapUidList : MapId → Vector Uid maxPlayerEachMap

/-- The table `f` with the cell `(m, i)` set to `v`. -/
def setCell {κ ι α : Type*} [DecidableEq κ] [DecidableEq ι] (f : κ → ι → α) (m : κ) (i : ι)
    (v : α) : κ → ι → α :=
  fun m' i' => if m' = m ∧ i' = i then v else f m' i'

@[simp] theorem setCell_self {κ ι α : Type*} [DecidableEq κ] [DecidableEq ι] (f : κ → ι → α)
    (m : κ) (i : ι) (v : α) : setCell f m i v m i = v := by
  simp only [setCell, and_self, ite_true]

theorem setCell_of_ne {κ ι α : Type*} [DecidableEq κ] [DecidableEq ι] {f : κ → ι → α} {m m' : κ}
    {i i' : ι} {v : α} (h : (m', i') ≠ (m, i)) : setCell f m i v m' i' = f m' i' := by
  have h' : ¬(m' = m ∧ i' = i) := fun he => h (Prod.ext he.1 he.2)
  simp only [setCell, if_neg h']

namespace GameLogic

/-- Assignment to the slot `i` of map `m`. -/
@[simps] def setSlot (gl : GameLogic) (m : MapId) (i : SlotId) (p : Player) : GameLogic :=
  { gl with mapPlayer := setCell gl.mapPlayer m i p }

/-- Assignment to `map_player_num`. -/
@[simps] def setNum (gl : GameLogic) (m : MapId) (n : ℤ) : GameLogic :=
  { gl with mapPlayerNum := Function.update gl.mapPlayerNum m n }

/-- Assignment to the list of map `m`. -/
@[simps] def setList (gl : GameLogic) (m : MapId) (l : Vector Uid maxPlayerEachMap) : GameLogic :=
  { gl with mapUidList := Function.update gl.mapUidList m l }

end GameLogic

/-- `game_logic_creat` with `playerid_list_creat` and `game_route_table_creat`, over the contents
`heap` of the slots that `malloc` returned. -/
def gameLogicCreat (heap : MapId → SlotId → Player) : GameLogic where
  mapPlayer m i := { heap m i with state := .typeInvalid }
  playerNum := 0
  mapPlayerNum _ := 0
  uid2Playid _ := ⟨.typeInvalid, 0, 0⟩
  mapPlayerSocketUid _ _ := none
  mapUidList _ := Vector.replicate maxPlayerEachMap 0

/-- A write to a `map_uid_list`, at an index that is an `int`. -/
def listWrite (l : Vector Uid maxPlayerEachMap) (i : ℤ) (u : Uid) :
    Except Fault (Vector Uid maxPlayerEachMap) :=
  if h : 0 ≤ i ∧ i.toNat < maxPlayerEachMap then .ok (l.set i.toNat u h.2) else .error .listRange

/-- A read of a `map_uid_list`. -/
def listRead (l : Vector Uid maxPlayerEachMap) (i : ℕ) : Except Fault Uid :=
  if h : i < maxPlayerEachMap then .ok l[i] else .error .listRange

/-! ### The routing table -/

/-- `game_route_get_mapid`: the first map with room by its number of started players. -/
def gameRouteGetMapid (gl : GameLogic) : Option MapId :=
  if (maxGameServicePlayerNum : ℤ) ≤ gl.playerNum then none
  else (List.finRange maxMap).find? fun i => gl.mapPlayerNum i < maxPlayerEachMap

/-- `game_route_get_playerid_in_map`: the first free slot of the map, which is marked used. -/
def gameRouteGetPlayeridInMap (gl : GameLogic) (mapid : MapId) : Option (SlotId × GameLogic) :=
  ((List.finRange maxPlayerEachMap).find? fun i =>
    (gl.mapPlayer mapid i).state = .typeInvalid).map fun i =>
      (i, gl.setSlot mapid i { gl.mapPlayer mapid i with state := .typeUsing })

/-- `game_route_get_playerid`. -/
def gameRouteGetPlayerid (gl : GameLogic) (uid : Uid) : Option PlayerId :=
  if (gl.uid2Playid uid).state = .typeUsing then some (gl.uid2Playid uid) else none

/-- `game_route_append`. -/
def gameRouteAppend (gl : GameLogic) (uid : Uid) : ℤ × GameLogic :=
  if (gl.uid2Playid uid).state = .typeInvalid then
    match gameRouteGetMapid gl with
    | none => (-1, gl)
    | some mapId =>
      match gameRouteGetPlayeridInMap gl mapId with
      | none => (-1, gl)
      | some (idInMap, gl₁) =>
        if gl₁.mapPlayerSocketUid mapId idInMap = none then
          (0, { gl₁ with
            uid2Playid := Function.update gl₁.uid2Playid uid ⟨.typeUsing, mapId, idInMap⟩
            mapPlayerSocketUid := setCell gl₁.mapPlayerSocketUid mapId idInMap (some uid)
            playerNum := gl₁.playerNum + 1 })
        else (-1, gl₁)
  else (-1, gl)

/-- `game_route_del`. The counters go down before the registered uid of the slot is checked. -/
def gameRouteDel (gl : GameLogic) (uid : Uid) : ℤ × GameLogic :=
  if (gl.uid2Playid uid).state = .typeUsing then
    let mapId := (gl.uid2Playid uid).mapid
    let mapPlayerid := (gl.uid2Playid uid).mapPlayerid
    let gl₁ := { gl with
      uid2Playid := Function.update gl.uid2Playid uid
        { gl.uid2Playid uid with state := .typeInvalid }
      mapPlayerNum := Function.update gl.mapPlayerNum mapId (gl.mapPlayerNum mapId - 1)
      playerNum := gl.playerNum - 1 }
    if gl₁.mapPlayerSocketUid mapId mapPlayerid = some uid then
      (0, { gl₁ with
        mapPlayerSocketUid := setCell gl₁.mapPlayerSocketUid mapId mapPlayerid none
        mapPlayer := setCell gl₁.mapPlayer mapId mapPlayerid
          { gl₁.mapPlayer mapId mapPlayerid with state := .typeInvalid } })
    else (-1, gl₁)
  else (0, gl)

/-! ### The broadcast lists -/

/-- The loop of `map_uid_list_rebuild` over the slots `is`: the registered uids other than `uid`
are written from `index` on. -/
def rebuildLoop (row : SlotId → Option Uid) (uid : Uid) :
    List SlotId → ℕ → Vector Uid maxPlayerEachMap → Except Fault (Vector Uid maxPlayerEachMap)
  | [], _, l => .ok l
  | i :: is, index, l =>
    match row i with
    | none => rebuildLoop row uid is index l
    | some userId =>
      if userId = uid then rebuildLoop row uid is index l
      else do
        let l' ← listWrite l index userId
        rebuildLoop row uid is (index + 1) l'

/-- `map_uid_list_rebuild`. -/
def mapUidListRebuild (gl : GameLogic) (uid : Uid) : Except Fault GameLogic :=
  match gameRouteGetPlayerid gl uid with
  | none => .ok gl
  | some userId => do
    let l ← rebuildLoop (gl.mapPlayerSocketUid userId.mapid) uid
      (List.finRange maxPlayerEachMap) 0 (gl.mapUidList userId.mapid)
    .ok (gl.setList userId.mapid l)

/-- `map_uid_list_append`: the index is the number of players of the map less one. -/
def mapUidListAppend (gl : GameLogic) (mapid : MapId) (uid : Uid) : Except Fault GameLogic := do
  let l ← listWrite (gl.mapUidList mapid) (gl.mapPlayerNum mapid - 1) uid
  .ok (gl.setList mapid l)

/-- `uid_list_cpy`: the first `n` entries. The destination, the `uid_list` of a broadcast, has as
many entries as the source, so one check covers the read and the write. -/
def uidListCpy (src : Vector Uid maxPlayerEachMap) : ℕ → Except Fault (List Uid)
  | 0 => .ok []
  | n + 1 => do
    let des ← uidListCpy src n
    let u ← listRead src n
    .ok (des ++ [u])

/-! ### Sending -/

/-- `broadcast_player_msg`: a message about the player of `userId` to the recipients of its map.
Types other than the three of the switch leave `rsp` null, and nothing is sent. -/
def broadcastPlayerMsg (gl : GameLogic) (userId : PlayerId) (ty : RspType) :
    Except Fault (List Broadcast) := do
  let user := gl.mapPlayer userId.mapid userId.mapPlayerid
  let playerNum := gl.mapPlayerNum userId.mapid
  let uidList ← uidListCpy (gl.mapUidList userId.mapid) playerNum.toNat
  let send (rsp : Rsp) : List Broadcast := [⟨playerNum, uidList.map Uid.toInt, ty, rsp⟩]
  match ty with
  | .newEnemy => .ok (send (.newEnemy user.uid user.pointX user.pointY))
  | .enemyMsg => .ok (send (.enemyMsg user.uid user.pointX user.pointY))
  | .enemyLeave => .ok (send (.enemyLeave user.uid))
  | _ => .ok []

/-- `login_msg_send`: a message to `heroUid` alone. -/
def loginMsgSend (gl : GameLogic) (heroUid enemyUid : Uid) (ty : RspType) :
    Except Fault (List Broadcast) :=
  let userId := gl.uid2Playid heroUid
  let user := gl.mapPlayer userId.mapid userId.mapPlayerid
  let playerNum := gl.mapPlayerNum userId.mapid
  let send (rsp : Rsp) : List Broadcast := [⟨1, [heroUid.toInt], ty, rsp⟩]
  match ty with
  | .logRsp => .ok (send (.loginRsp true heroUid.toInt user.pointX user.pointY playerNum))
  | .enemyMsg =>
    match gameRouteGetPlayerid gl enemyUid with
    | none => .error .nullPlayerId
    | some enemyId =>
      let enemy := gl.mapPlayer enemyId.mapid enemyId.mapPlayerid
      .ok (send (.enemyMsg enemyUid.toInt enemy.pointX enemy.pointY))
  | .newEnemy => .ok (send (.newEnemy enemyUid.toInt user.pointX user.pointY))
  | .loginEnd => .ok (send (.loginEnd true))
  | .gameStartRsp => .ok (send (.startRsp true))
  | _ => .ok []

/-- `leave_rsp_send`: the recipient is the uid stored in the slot. -/
def leaveRspSend (user : Player) (success : Bool) : List Broadcast :=
  [⟨1, [user.uid], .leaveRsp, .leaveRsp success⟩]

/-! ### The handlers -/

/-- `START_POSITION_X`, `START_POSITION_Y`, `START_STEP`, `MAP_NAX_X`, `MAP_NAX_Y` and
`MAX_USER_NAME_LEN`. -/
abbrev startPositionX : ℤ := 0

@[inherit_doc startPositionX] abbrev startPositionY : ℤ := 0

@[inherit_doc startPositionX] abbrev startStep : ℤ := 4

@[inherit_doc startPositionX] abbrev mapNaxX : ℤ := 960

@[inherit_doc startPositionX] abbrev mapNaxY : ℤ := 560

@[inherit_doc startPositionX] abbrev maxUserNameLen : ℕ := 15

/-- The copy of a name into the array `msg.name`: `strcpy` with the terminator when the string
fits, else `strncpy` of its first bytes, which leaves the last byte of the array as it was. -/
def nameCopy (name src : List UInt8) : List UInt8 :=
  let s := src.takeWhile (· ≠ 0)
  if s.length ≤ maxUserNameLen then s ++ [0] ++ name.drop (s.length + 1)
  else s.take maxUserNameLen ++ name.drop maxUserNameLen

/-- `user_msg_load`. -/
def userMsgLoad (user : Player) (req : LoginReq) (uid : Uid) : Player :=
  { user with
    uid := uid.toInt
    name := nameCopy user.name req.name
    pointX := startPositionX
    pointY := startPositionY
    step := startStep }

/-- The loop of `dispose_login_request` over the first `n` entries of the list of the map. -/
def loginEnemies (gl : GameLogic) (uid : Uid) (mapid : MapId) : ℕ → Except Fault (List Broadcast)
  | 0 => .ok []
  | n + 1 => do
    let os ← loginEnemies gl uid mapid n
    let enemyUid ← listRead (gl.mapUidList mapid) n
    let o ← loginMsgSend gl uid enemyUid .enemyMsg
    .ok (os ++ o)

/-- `dispose_login_request`. -/
def disposeLoginRequest (gl : GameLogic) (userId : PlayerId) (data : Option LoginReq)
    (uid : Uid) : Except Fault (GameLogic × List Broadcast) :=
  match data with
  | none => .error .nullMessage
  | some req => do
    let user := gl.mapPlayer userId.mapid userId.mapPlayerid
    let gl₁ := gl.setSlot userId.mapid userId.mapPlayerid (userMsgLoad user req uid)
    let o₁ ← loginMsgSend gl₁ uid 0 .logRsp
    let o₂ ← loginEnemies gl₁ uid userId.mapid (gl₁.mapPlayerNum userId.mapid).toNat
    let o₃ ← loginMsgSend gl₁ uid 0 .loginEnd
    .ok (gl₁, o₁ ++ o₂ ++ o₃)

/-- `dispose_start_request`: announce the player, raise the counter, append to the list, reply. -/
def disposeStartRequest (gl : GameLogic) (userId : PlayerId) (data : Option StartReq)
    (uid : Uid) : Except Fault (GameLogic × List Broadcast) :=
  match data with
  | none => .error .nullMessage
  | some req =>
    if req.start = true then do
      let o₁ ← broadcastPlayerMsg gl userId .newEnemy
      let gl₁ := gl.setNum userId.mapid (gl.mapPlayerNum userId.mapid + 1)
      let gl₂ ← mapUidListAppend gl₁ userId.mapid uid
      let o₂ ← loginMsgSend gl₂ uid 0 .gameStartRsp
      .ok (gl₂, o₁ ++ o₂)
    else .ok (gl, [])

/-- `dispose_leave_request`. -/
def disposeLeaveRequest (gl : GameLogic) (userId : PlayerId) (_data : Option MoveReq) :
    Except Fault (GameLogic × List Broadcast) :=
  .ok (gl, leaveRspSend (gl.mapPlayer userId.mapid userId.mapPlayerid) true)

/-- The switch of `dispose_move_request` over `MOVE_LEFT`, `MOVE_RIGHT`, `MOVE_UP` and
`MOVE_DOWN`. The overflow of `point_x + step` and its like, which C leaves undefined, is left out;
it takes contents of a slot that no login has filled. -/
def movePlayer (user : Player) (move : ℤ) : Player :=
  if move = 1 then
    if user.pointX - user.step > 0 then { user with pointX := user.pointX - user.step } else user
  else if move = 2 then
    if user.pointX + user.step < mapNaxX then { user with pointX := user.pointX + user.step }
    else user
  else if move = 3 then
    if user.pointY - user.step > 0 then { user with pointY := user.pointY - user.step } else user
  else if move = 4 then
    if user.pointY + user.step < mapNaxY then { user with pointY := user.pointY + user.step }
    else user
  else user

/-- `dispose_move_request`: the new position is broadcast whether or not the move succeeded. -/
def disposeMoveRequest (gl : GameLogic) (userId : PlayerId) (data : Option MoveReq) :
    Except Fault (GameLogic × List Broadcast) :=
  match data with
  | none => .error .nullMessage
  | some req => do
    let user := gl.mapPlayer userId.mapid userId.mapPlayerid
    let gl₁ := gl.setSlot userId.mapid userId.mapPlayerid (movePlayer user req.move)
    let o ← broadcastPlayerMsg gl₁ userId .enemyMsg
    .ok (gl₁, o)

/-- `dispose_game_logic`: requests of uids that are not registered are dropped. -/
def disposeGameLogic (gl : GameLogic) (uid : Uid) (req : Request) :
    Except Fault (GameLogic × List Broadcast) :=
  match gameRouteGetPlayerid gl uid with
  | none => .ok (gl, [])
  | some userId =>
    match req with
    | .logReq data => disposeLoginRequest gl userId data uid
    | .gameStartReq data => disposeStartRequest gl userId data uid
    | .moveReq data => disposeMoveRequest gl userId data
    | .leaveReq data => disposeLeaveRequest gl userId data
    | .heroMsgReq _ => .ok (gl, [])
    | .other _ => .ok (gl, [])

/-- `dispose_user_close`. The entry `userId` points to keeps its map and slot after the removal,
so the broadcast is about the slot that has just been freed. -/
def disposeUserClose (gl : GameLogic) (uid : Uid) : Except Fault (GameLogic × List Broadcast) :=
  match gameRouteGetPlayerid gl uid with
  | none => .ok (gl, [])
  | some userId => do
    let gl₁ ← mapUidListRebuild gl uid
    let gl₂ := (gameRouteDel gl₁ uid).2
    let o ← broadcastPlayerMsg gl₂ userId .enemyLeave
    .ok (gl₂, o)

/-- `dispose_queue_event` on the message popped from the queue of the service. -/
def disposeQueueEvent (gl : GameLogic) (msg : GameMsg) :
    Except Fault (GameLogic × List Broadcast) :=
  match msg with
  | .data uid req => disposeGameLogic gl uid req
  | .close uid => disposeUserClose gl uid
  | .success uid => .ok ((gameRouteAppend gl uid).2, [])

/-- One game service as a machine that reads messages and sends broadcasts. -/
def gameMachine : Machine GameLogic GameMsg Broadcast Fault := ⟨disposeQueueEvent⟩

end GameServer
