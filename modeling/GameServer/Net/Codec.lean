import GameServer.Library.Machine
import GameServer.Messages

/-!
# Decoding requests and encoding responses

`unpack_user_data` decodes a frame by its type byte; the `*_data_pack` functions encode a response
under its type. The functions of protobuf-c and the functions it generates are the parameter
`Protobuf`: an unpack function reads a payload and returns `NULL` (`none`) when it is no valid
encoding, and `pack` returns the packed bytes of a message structure.

## Main definitions

* `Protobuf`, `unpackUserData`.
* `dataPack` and the packers of the eight responses; `rspDataPack` selects one by the type.
* `oneByteProtobuf` : a concrete codec, for runs over concrete messages.
-/

namespace GameServer

/-- The functions of protobuf-c that the services call. -/
structure Protobuf where
  loginReqUnpack : List UInt8 → Option LoginReq
  heroMsgUnpack : List UInt8 → Option HeroMsg
  startReqUnpack : List UInt8 → Option StartReq
  moveReqUnpack : List UInt8 → Option MoveReq
  pack : Rsp → List UInt8

/-! ### Requests -/

/-- The bytes that an unpack function is given: `dataLen` bytes of the frame after its type byte.
The length is an `int` here and a `size_t` in the callee. -/
def seriaData (dataPack : List UInt8) (dataLen : ℤ) : Except Fault (List UInt8) :=
  if dataLen < 0 then .error .negativeLength
  else if dataPack.length < dataLen.toNat + 1 then .error .frameRange
  else .ok ((dataPack.drop 1).take dataLen.toNat)

/-- `unpack_user_data`: the type byte is read whatever the length, the payload is one byte shorter
than the frame, and the name of a decoded `login_req` is printed. -/
def unpackUserData (P : Protobuf) (dataPack : List UInt8) (len : ℤ) : Except Fault Request :=
  match dataPack with
  | [] => .error .frameRange
  | protoType :: _ =>
    let dataLen := len - 1
    if protoType = 'L'.toUInt8 then do
      let seria ← seriaData dataPack dataLen
      match P.loginReqUnpack seria with
      | none => .error .nullMessage
      | some msg => .ok (.logReq (some msg))
    else if protoType = 'H'.toUInt8 then do
      let seria ← seriaData dataPack dataLen
      .ok (.heroMsgReq (P.heroMsgUnpack seria))
    else if protoType = 'S'.toUInt8 then do
      let seria ← seriaData dataPack dataLen
      .ok (.gameStartReq (P.startReqUnpack seria))
    else if protoType = 'M'.toUInt8 then do
      let seria ← seriaData dataPack dataLen
      .ok (.moveReq (P.moveReqUnpack seria))
    else if protoType = 'V'.toUInt8 then do
      let seria ← seriaData dataPack dataLen
      .ok (.leaveReq (P.moveReqUnpack seria))
    else .ok (.other protoType)

/-- Unpacking fails by reading outside the frame, by a negative length, or on `NULL`. -/
theorem unpackUserData_fault {P : Protobuf} {dataPack : List UInt8} {len : ℤ} {e : Fault}
    (h : unpackUserData P dataPack len = .error e) :
    e = .frameRange ∨ e = .negativeLength ∨ e = .nullMessage := by
  have hseria (e : Fault) (h : seriaData dataPack (len - 1) = .error e) :
      e = .frameRange ∨ e = .negativeLength ∨ e = .nullMessage := by
    unfold seriaData at h
    split_ifs at h <;> cases h
    · exact Or.inr (Or.inl rfl)
    · exact Or.inl rfl
  unfold unpackUserData at h
  split at h
  · cases h
    exact Or.inl rfl
  · simp only at h
    split_ifs at h <;> simp only [Except.bind_eq_error_iff, reduceCtorEq, and_false, exists_false,
      or_false] at h
    · rcases h with h | ⟨seria, -, h⟩
      · exact hseria e h
      · split at h <;> cases h
        exact Or.inr (Or.inr rfl)
    all_goals exact hseria e h

/-! ### Responses -/

/-- The response that a message structure belongs to by its descriptor. -/
def Rsp.descriptor : Rsp → RspType
  | .loginRsp .. => .logRsp
  | .enemyMsg .. => .enemyMsg
  | .newEnemy .. => .newEnemy
  | .startRsp .. => .gameStartRsp
  | .loginEnd .. => .loginEnd
  | .leaveRsp .. => .leaveRsp
  | .moveRsp .. => .moveRsp
  | .enemyLeave .. => .enemyLeave

/-- The common part of the packers: a size byte, the byte of the type `ty` and the packed message,
with the total size. The size byte is a `uint8_t`. The generated pack function, that of
`descriptor`, asserts that it is given its own message. -/
def dataPack (P : Protobuf) (descriptor ty : RspType) (packData : Rsp) :
    Except Fault (List UInt8 × ℤ) :=
  if packData.descriptor = descriptor then
    let packed := P.pack packData
    .ok (UInt8.ofNat (packed.length + 1) :: ty.code :: packed, packed.length + 2)
  else .error .assertFailed

/-- `log_rsp_data_pack`. -/
def logRspDataPack (P : Protobuf) := dataPack P .logRsp .logRsp

/-- `enemy_msg_data_pack`. -/
def enemyMsgDataPack (P : Protobuf) := dataPack P .enemyMsg .enemyMsg

/-- `start_rsp_data_pack`. -/
def startRspDataPack (P : Protobuf) := dataPack P .gameStartRsp .gameStartRsp

/-- `new_enemy_data_pack`. -/
def newEnemyDataPack (P : Protobuf) := dataPack P .newEnemy .newEnemy

/-- `login_end_data_pack`. -/
def loginEndDataPack (P : Protobuf) := dataPack P .loginEnd .loginEnd

/-- `move_rsp_data_pack`. -/
def moveRspDataPack (P : Protobuf) := dataPack P .moveRsp .moveRsp

/-- `leave_rsp_data_pack`. -/
def leaveRspDataPack (P : Protobuf) := dataPack P .leaveRsp .leaveRsp

/-- `enemy_leave_data_pack`. -/
def enemyLeaveDataPack (P : Protobuf) := dataPack P .enemyLeave .enemyLeave

/-- The switch of `dispose_game_service_que` over the type of a response. -/
def rspDataPack (P : Protobuf) (ty : RspType) (buffer : Rsp) : Except Fault (List UInt8 × ℤ) :=
  match ty with
  | .logRsp => logRspDataPack P buffer
  | .enemyMsg => enemyMsgDataPack P buffer
  | .loginEnd => loginEndDataPack P buffer
  | .gameStartRsp => startRspDataPack P buffer
  | .newEnemy => newEnemyDataPack P buffer
  | .moveRsp => moveRspDataPack P buffer
  | .leaveRsp => leaveRspDataPack P buffer
  | .enemyLeave => enemyLeaveDataPack P buffer

/-- The packer of a type writes that type and is given the message of that type. -/
theorem rspDataPack_eq (P : Protobuf) (ty : RspType) (buffer : Rsp) :
    rspDataPack P ty buffer = dataPack P ty ty buffer := by
  cases ty <;> rfl

/-! ### A concrete codec -/

/-- A field of number `k` with a varint of one byte. -/
def varintField (k : UInt8) (v : ℤ) : List UInt8 := [8 * k, UInt8.ofNat v.toNat]

/-- The encoding of protobuf for messages whose numbers and lengths take one byte. -/
def oneByteProtobuf : Protobuf where
  loginReqUnpack
    | 10 :: n :: name => if name.length = n.toNat then some ⟨name⟩ else none
    | _ => none
  heroMsgUnpack
    | [8, u, 16, x, 24, y] => some ⟨u.toNat, x.toNat, y.toNat⟩
    | _ => none
  startReqUnpack
    | [8, b] => some ⟨b ≠ 0⟩
    | _ => none
  moveReqUnpack
    | [8, d] => some ⟨d.toNat⟩
    | _ => none
  pack
    | .loginRsp success uid x y n => varintField 1 success.toInt ++ varintField 2 uid ++
        varintField 3 x ++ varintField 4 y ++ varintField 5 n
    | .enemyMsg uid x y => varintField 1 uid ++ varintField 2 x ++ varintField 3 y
    | .newEnemy uid x y => varintField 1 uid ++ varintField 2 x ++ varintField 3 y
    | .startRsp start => varintField 1 start.toInt
    | .loginEnd success => varintField 1 success.toInt
    | .leaveRsp leave => varintField 1 leave.toInt
    | .moveRsp success uid x y => varintField 1 success.toInt ++ varintField 2 uid ++
        varintField 3 x ++ varintField 4 y
    | .enemyLeave uid => varintField 1 uid

end GameServer
