import GameServer.Net.Codec
import Mathlib.Data.List.FinRange
import Mathlib.Logic.Function.Basic

/-!
# The net logic service

The handlers of net logic over its router. The router keeps for each uid the game service that
serves it, as a `char` that is `PLAYER_TYPE_INVALID` when there is none, and for each service the
number of its players. `game_service_id` is a scratch field: lookups leave the service they found
in it, and the queue, the socket and the counter of a message are taken from there. An index
outside the per-service arrays is a fault.

`game_service_id` and `gamelog_socket` are not set by `net_logic_creat`; their contents are
parameters.

## Main definitions

* `Router`, `routeSetGamelogicId`, `routeClearGamelogicId`, `routeGetGamelogicId`.
* `disposeNetioServiceQue`, `disposeGameServiceQue` : the handlers of the two queues.
* `netMachine` : the handler of the queue from net IO as a machine.
-/

namespace GameServer

/-- The message queues of `que_pool`. -/
inductive QueId
  | netio2Netlogic | netlogic2Netio | netlogic2Game (g : ServiceId) | gamelogic2Netlogic | logServer
deriving DecidableEq, Repr

/-- `router`. -/
structure Router where
  sockId2gameLogic : Uid → Int8
  onlinePlayer : ServiceId → ℤ
  que2Gamelogic : ServiceId → QueId
  gamelogSocket : ServiceId → ℤ
  gameServiceId : ℤ

/-- `PLAYER_TYPE_INVALID`. -/
abbrev playerTypeInvalid : Int8 := -1

/-- The router that `net_logic_creat` sets up. -/
def routerCreat (gamelogSocket : ServiceId → ℤ) (gameServiceId : ℤ) : Router where
  sockId2gameLogic _ := playerTypeInvalid
  onlinePlayer _ := 0
  que2Gamelogic g := .netlogic2Game g
  gamelogSocket := gamelogSocket
  gameServiceId := gameServiceId

/-- What net logic sends: nodes pushed to queues, and the wake-up bytes that follow them. -/
inductive NetOut
  | pushGame (que : QueId) (msg : GameMsg)
  | wakeGame (socket : ℤ)
  | pushNetIo (node : NetIoNode)
  | wakeNetIo
deriving DecidableEq, Repr

/-- An access to a per-service array. -/
def serviceIndex (i : ℤ) : Except Fault ServiceId :=
  if h : 0 ≤ i ∧ i.toNat < gameLogicServiceNum then .ok ⟨i.toNat, h.2⟩ else .error .serviceRange

/-! ### The router -/

/-- `route_distribute_gamelogic`: the first service with room, else `-1` as a `uint8_t`. -/
def routeDistributeGamelogic (r : Router) : UInt8 :=
  match (List.finRange gameLogicServiceNum).find? fun g =>
    r.onlinePlayer g < maxGameServicePlayerNum with
  | some gameIndex => UInt8.ofNat gameIndex.val
  | none => 255

/-- `route_set_gamelogic_id`. The service is compared with `-1` as an `int`. -/
def routeSetGamelogicId (r : Router) (socketId : Uid) : Except Fault (ℤ × Router) :=
  if r.sockId2gameLogic socketId = playerTypeInvalid then
    let id : ℤ := (routeDistributeGamelogic r).toNat
    if id ≠ -1 then do
      let g ← serviceIndex id
      .ok (0, { r with
        gameServiceId := id
        sockId2gameLogic := Function.update r.sockId2gameLogic socketId (Int8.ofInt id)
        onlinePlayer := Function.update r.onlinePlayer g (r.onlinePlayer g + 1) })
    else .ok (-1, r)
  else .ok (-1, r)

/-- `route_clear_gamelogic_id`: the counter that goes down is that of the scratch field. -/
def routeClearGamelogicId (r : Router) (socketId : Uid) : Except Fault (ℤ × Router) :=
  if r.sockId2gameLogic socketId = playerTypeInvalid then .ok (-1, r)
  else do
    let g ← serviceIndex r.gameServiceId
    .ok (0, { r with
      sockId2gameLogic := Function.update r.sockId2gameLogic socketId playerTypeInvalid
      onlinePlayer := Function.update r.onlinePlayer g (r.onlinePlayer g - 1) })

/-- `route_get_gamelogic_id`. -/
def routeGetGamelogicId (r : Router) (socketId : Uid) : ℤ × Router :=
  if r.sockId2gameLogic socketId ≠ playerTypeInvalid then
    (0, { r with gameServiceId := (r.sockId2gameLogic socketId).toInt })
  else (-1, r)

/-- `route_get_msg_que`. -/
def routeGetMsgQue (r : Router) (socketId : Uid) : Except Fault (Option QueId × Router) :=
  let (ret, r₁) := routeGetGamelogicId r socketId
  if ret = 0 then do
    let g ← serviceIndex r₁.gameServiceId
    .ok (some (r₁.que2Gamelogic g), r₁)
  else .ok (none, r₁)

/-- `route_get_msg_socket`: the uid is not used. -/
def routeGetMsgSocket (r : Router) (_socketId : Uid) : Except Fault ℤ := do
  let g ← serviceIndex r.gameServiceId
  .ok (r.gamelogSocket g)

/-! ### The handlers -/

/-- `send_msg_2_game_logic`. -/
def sendMsg2GameLogic (r : Router) (qnode : GameMsg) (uid : Uid) :
    Except Fault (Router × List NetOut) := do
  let (que, r₁) ← routeGetMsgQue r uid
  match que with
  | none => .ok (r₁, [])
  | some que =>
    let socket ← routeGetMsgSocket r₁ uid
    .ok (r₁, [.pushGame que qnode, .wakeGame socket])

/-- `report_service_full`. -/
def reportServiceFull (uid : Uid) : List NetOut := [.pushNetIo (.serviceFull uid), .wakeNetIo]

/-- `dispose_netio_service_que`. -/
def disposeNetioServiceQue (P : Protobuf) (r : Router) (msg : IoMsg) :
    Except Fault (Router × List NetOut) :=
  match msg with
  | .data uid contentLen data => do
    let req ← unpackUserData P data contentLen
    sendMsg2GameLogic r (.data uid req) uid
  | .close uid => do
    let (r₁, out) ← sendMsg2GameLogic r (.close uid) uid
    let (_, r₂) ← routeClearGamelogicId r₁ uid
    .ok (r₂, out)
  | .success uid => do
    let (ret, r₁) ← routeSetGamelogicId r uid
    if ret = -1 then .ok (r₁, reportServiceFull uid)
    else sendMsg2GameLogic r₁ (.success uid) uid

/-- `dispose_game_service_que`: the recipients of the broadcast pass through. -/
def disposeGameServiceQue (P : Protobuf) (b : Broadcast) : Except Fault (List NetOut) := do
  let (rsp, rspSize) ← rspDataPack P b.protoType b.buffer
  .ok [.pushNetIo (.broadcast rspSize b.uidList rsp), .wakeNetIo]

/-- The handler of the queue from net IO as a machine. -/
def netMachine (P : Protobuf) : Machine Router IoMsg NetOut Fault := ⟨disposeNetioServiceQue P⟩

end GameServer
