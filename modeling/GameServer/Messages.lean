import Mathlib.Data.Fin.Basic
import Mathlib.Data.Int.Basic
import Mathlib.Order.Basic

/-!
# The messages between the services

The services exchange nodes over message queues: the net IO service passes connects, frames and
closes to the net logic service, which decodes the frames and passes them to the game services;
the game services send broadcasts back, which net logic encodes and passes to net IO. This file
holds the limits of the headers, the messages, and the faults that end a run.

A `uid` is the index of a connection in the socket pool, hence an element of `Fin maxSocket`. A
field of C type `int` that may hold anything, such as the `uid` stored in a player slot, is an
integer. The client requests keep the pair of `proto_type` and decoded `buffer` together:
a constructor for each `proto_type`, whose argument is `none` when the buffer is `NULL`.
-/

namespace GameServer

/-! ### Limits -/

/-- `MAX_SOCKET`: the number of slots of the socket pool. -/
abbrev maxSocket : ℕ := 32 * 1024

/-- `MAX_MAP`: the number of maps of a game service. -/
abbrev maxMap : ℕ := 20

/-- `MAX_PLAYER_EACH_MAP`. -/
abbrev maxPlayerEachMap : ℕ := 10

/-- `MAX_GAME_SERVICE_PLAYER_NUM`. -/
abbrev maxGameServicePlayerNum : ℕ := 20 * 10

/-- `GAME_LOGIC_SERVICE_NUM`. -/
abbrev gameLogicServiceNum : ℕ := 4

instance : @NeZero ℕ Zero.ofOfNat0 maxSocket := ⟨Nat.succ_ne_zero 32767⟩

instance : @NeZero ℕ Zero.ofOfNat0 maxMap := ⟨Nat.succ_ne_zero 19⟩

instance : @NeZero ℕ Zero.ofOfNat0 maxPlayerEachMap := ⟨Nat.succ_ne_zero 9⟩

instance : @NeZero ℕ Zero.ofOfNat0 gameLogicServiceNum := ⟨Nat.succ_ne_zero 3⟩

/-- The ids of connections. -/
abbrev Uid := Fin maxSocket

/-- The maps of a game service. -/
abbrev MapId := Fin maxMap

/-- The player slots of a map. -/
abbrev SlotId := Fin maxPlayerEachMap

/-- The game services. -/
abbrev ServiceId := Fin gameLogicServiceNum

/-- The C `int` that holds a uid. -/
def Uid.toInt (u : Uid) : ℤ := (u.val : ℤ)

theorem Uid.toInt_injective : Function.Injective Uid.toInt := fun u v h => by
  apply Fin.ext
  simpa only [Uid.toInt, Int.natCast_inj] using h

@[simp] theorem Uid.toInt_inj {u v : Uid} : u.toInt = v.toInt ↔ u = v :=
  Uid.toInt_injective.eq_iff

/-! ### Faults -/

/-- What ends a run: a memory access outside an object, a dereference of `NULL`, a failed
assertion, or a call that does not return on the outcomes supplied. -/
inductive Fault
  /-- A read outside the buffer of a received frame. -/
  | frameRange
  /-- A negative length passed to an unpack function. -/
  | negativeLength
  /-- A dereference of a decoded message that is `NULL`. -/
  | nullMessage
  /-- A dereference of a `player_id` that is `NULL`. -/
  | nullPlayerId
  /-- An index outside a `map_uid_list` or the `uid_list` of a broadcast. -/
  | listRange
  /-- An index outside the per-service arrays of the router. -/
  | serviceRange
  /-- An index outside the socket pool. -/
  | poolRange
  /-- An index outside the event pool. -/
  | eventRange
  /-- An access to a block that is not in the chain. -/
  | chainRange
  /-- A failed `assert`. -/
  | assertFailed
  /-- A node handled as one of another queue. -/
  | nodeType
  /-- The call is still waiting for an outcome of a system call. -/
  | blocked
deriving DecidableEq, Repr

/-! ### Requests of the clients -/

/-- `login_req`. -/
structure LoginReq where
  name : List UInt8
deriving DecidableEq, Repr

/-- `hero_msg`. -/
structure HeroMsg where
  uid : ℤ
  pointX : ℤ
  pointY : ℤ
deriving DecidableEq, Repr

/-- `start_req`. -/
structure StartReq where
  start : Bool
deriving DecidableEq, Repr

/-- `move_req`. -/
structure MoveReq where
  move : ℤ
deriving DecidableEq, Repr

/-- A request with its `proto_type` and decoded buffer, as net logic passes it on. Leave requests
are decoded as move requests. -/
inductive Request
  | logReq (data : Option LoginReq)
  | heroMsgReq (data : Option HeroMsg)
  | gameStartReq (data : Option StartReq)
  | moveReq (data : Option MoveReq)
  | leaveReq (data : Option MoveReq)
  | other (protoType : UInt8)
deriving DecidableEq, Repr

/-- What net IO reports of a connection: `TYPE_DATA` with a frame, `TYPE_CLOSE`, `TYPE_SUCCESS`. -/
inductive IoMsg
  | data (uid : Uid) (len : ℤ) (buffer : List UInt8)
  | close (uid : Uid)
  | success (uid : Uid)
deriving DecidableEq, Repr

/-- The uid in the head of a message of net IO. -/
def IoMsg.uid : IoMsg → Uid
  | .data u _ _ => u
  | .close u => u
  | .success u => u

@[simp] theorem IoMsg.uid_data (u : Uid) (len : ℤ) (buffer : List UInt8) :
    (IoMsg.data u len buffer).uid = u := rfl

@[simp] theorem IoMsg.uid_close (u : Uid) : (IoMsg.close u).uid = u := rfl

@[simp] theorem IoMsg.uid_success (u : Uid) : (IoMsg.success u).uid = u := rfl

/-- What net logic passes to a game service. -/
inductive GameMsg
  | data (uid : Uid) (req : Request)
  | close (uid : Uid)
  | success (uid : Uid)
deriving DecidableEq, Repr

/-- The uid in the head of a message to a game service. -/
def GameMsg.uid : GameMsg → Uid
  | .data u _ => u
  | .close u => u
  | .success u => u

@[simp] theorem GameMsg.uid_data (u : Uid) (req : Request) : (GameMsg.data u req).uid = u := rfl

@[simp] theorem GameMsg.uid_close (u : Uid) : (GameMsg.close u).uid = u := rfl

@[simp] theorem GameMsg.uid_success (u : Uid) : (GameMsg.success u).uid = u := rfl

/-! ### Responses of the game services -/

/-- The `proto_type` of a response. -/
inductive RspType
  | logRsp | enemyMsg | newEnemy | gameStartRsp | loginEnd | leaveRsp | moveRsp | enemyLeave
deriving DecidableEq, Repr

/-- The byte of a `proto_type`. -/
def RspType.code : RspType → UInt8
  | .logRsp => 'l'.toUInt8
  | .enemyMsg => 'e'.toUInt8
  | .newEnemy => 'n'.toUInt8
  | .gameStartRsp => 's'.toUInt8
  | .loginEnd => 'i'.toUInt8
  | .leaveRsp => 'v'.toUInt8
  | .moveRsp => 'm'.toUInt8
  | .enemyLeave => 'y'.toUInt8

/-- The message structures of the responses. -/
inductive Rsp
  | loginRsp (success : Bool) (uid pointX pointY enemyNum : ℤ)
  | enemyMsg (uid pointX pointY : ℤ)
  | newEnemy (uid pointX pointY : ℤ)
  | startRsp (start : Bool)
  | loginEnd (success : Bool)
  | leaveRsp (leave : Bool)
  | moveRsp (success : Bool) (uid posX posY : ℤ)
  | enemyLeave (uid : ℤ)
deriving DecidableEq, Repr

/-- A `broadcast` of a game service: the first `broadcast_player_num` entries of its recipient
list, and the message with its `proto_type`. -/
structure Broadcast where
  broadcastPlayerNum : ℤ
  uidList : List ℤ
  protoType : RspType
  buffer : Rsp
deriving DecidableEq, Repr

/-- What net logic passes to net IO: `TYPE_EVENT_SERVICE_FULL`, `TYPE_EVENT_PLAYER_ERROR`, or an
encoded frame with its recipients. -/
inductive NetIoNode
  | serviceFull (uid : Uid)
  | playerError (uid : Uid)
  | broadcast (size : ℤ) (uidList : List ℤ) (buffer : List UInt8)
deriving DecidableEq, Repr

end GameServer
