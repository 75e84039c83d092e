import GameServer.Library.Varint
import GameServer.Net.Codec

/-!
# The wire format of the responses

The messages of `message.proto` have fields of the types `bool` and `int32` only, numbered from 1
and all required, and the generated functions write them in the order of their numbers. A field is
a key byte and a varint: a `bool` is 0 or 1, an `int32` is extended to 64 bits, so that a negative
one takes ten bytes.

## Main definitions

* `Rsp.InRange` : the fields are `int32`s.
* `Rsp.wire`, `Rsp.ofWire` : a response as bytes, and the response that bytes of a type mean.
* `wireProtobuf` : the codec of this format.

## Main results

* `Rsp.ofWire_wire` : a response is read back from its bytes.
* `Rsp.length_wire_le` : a response takes at most 55 bytes.
-/

namespace GameServer

/-- The number has the type `int32`. -/
def IsInt32 (v : ℤ) : Prop := -2 ^ 31 ≤ v ∧ v < 2 ^ 31

/-- The varint of an `int32` is that of its extension to 64 bits. -/
def wireInt32 (v : ℤ) : ℕ := (v % 2 ^ 64).toNat

/-- The `int32` of a varint: its lower 32 bits. -/
def int32OfWire (n : ℕ) : ℤ := (n : ℤ).bmod (2 ^ 32)

theorem wireInt32_lt (v : ℤ) : wireInt32 v < 2 ^ 64 := by
  unfold wireInt32
  omega

theorem int32OfWire_wireInt32 {v : ℤ} (h : IsInt32 v) : int32OfWire (wireInt32 v) = v := by
  obtain ⟨hlo, hhi⟩ := h
  unfold int32OfWire wireInt32
  rw [Int.bmod_def]
  split_ifs <;> omega

/-- The key of field number `k`, of the wire type of varints. -/
def fieldKey (k : UInt8) : UInt8 := 8 * k

/-- The fields of a response, in the order of their numbers. -/
def Rsp.fields : Rsp → List (UInt8 × ℕ)
  | .loginRsp success uid pointX pointY enemyNum =>
    [(fieldKey 1, success.toNat), (fieldKey 2, wireInt32 uid), (fieldKey 3, wireInt32 pointX),
      (fieldKey 4, wireInt32 pointY), (fieldKey 5, wireInt32 enemyNum)]
  | .enemyMsg uid pointX pointY =>
    [(fieldKey 1, wireInt32 uid), (fieldKey 2, wireInt32 pointX), (fieldKey 3, wireInt32 pointY)]
  | .newEnemy uid pointX pointY =>
    [(fieldKey 1, wireInt32 uid), (fieldKey 2, wireInt32 pointX), (fieldKey 3, wireInt32 pointY)]
  | .startRsp start => [(fieldKey 1, start.toNat)]
  | .loginEnd success => [(fieldKey 1, success.toNat)]
  | .leaveRsp leave => [(fieldKey 1, leave.toNat)]
  | .moveRsp success uid posX posY =>
    [(fieldKey 1, success.toNat), (fieldKey 2, wireInt32 uid), (fieldKey 3, wireInt32 posX),
      (fieldKey 4, wireInt32 posY)]
  | .enemyLeave uid => [(fieldKey 1, wireInt32 uid)]

/-- The bytes of a response. -/
def Rsp.wire (m : Rsp) : List UInt8 := encodeFields 9 m.fields

/-- The response of a type that has these fields. -/
def Rsp.ofFields : RspType → List (UInt8 × ℕ) → Option Rsp
  | .logRsp, [(8, success), (16, uid), (24, pointX), (32, pointY), (40, enemyNum)] =>
    some (.loginRsp (success ≠ 0) (int32OfWire uid) (int32OfWire pointX) (int32OfWire pointY)
      (int32OfWire enemyNum))
  | .enemyMsg, [(8, uid), (16, pointX), (24, pointY)] =>
    some (.enemyMsg (int32OfWire uid) (int32OfWire pointX) (int32OfWire pointY))
  | .newEnemy, [(8, uid), (16, pointX), (24, pointY)] =>
    some (.newEnemy (int32OfWire uid) (int32OfWire pointX) (int32OfWire pointY))
  | .gameStartRsp, [(8, start)] => some (.startRsp (start ≠ 0))
  | .loginEnd, [(8, success)] => some (.loginEnd (success ≠ 0))
  | .leaveRsp, [(8, leave)] => some (.leaveRsp (leave ≠ 0))
  | .moveRsp, [(8, success), (16, uid), (24, posX), (32, posY)] =>
    some (.moveRsp (success ≠ 0) (int32OfWire uid) (int32OfWire posX) (int32OfWire posY))
  | .enemyLeave, [(8, uid)] => some (.enemyLeave (int32OfWire uid))
  | _, _ => none

/-- The response that the bytes mean as a message of the type. -/
def Rsp.ofWire (ty : RspType) (bytes : List UInt8) : Option Rsp :=
  (decodeFields 5 bytes).bind (Rsp.ofFields ty)

/-- The integer fields are `int32`s. -/
def Rsp.InRange : Rsp → Prop
  | .loginRsp _ uid pointX pointY enemyNum =>
    IsInt32 uid ∧ IsInt32 pointX ∧ IsInt32 pointY ∧ IsInt32 enemyNum
  | .enemyMsg uid pointX pointY => IsInt32 uid ∧ IsInt32 pointX ∧ IsInt32 pointY
  | .newEnemy uid pointX pointY => IsInt32 uid ∧ IsInt32 pointX ∧ IsInt32 pointY
  | .moveRsp _ uid posX posY => IsInt32 uid ∧ IsInt32 posX ∧ IsInt32 posY
  | .enemyLeave uid => IsInt32 uid
  | .startRsp _ | .loginEnd _ | .leaveRsp _ => True

theorem Rsp.fields_lt (m : Rsp) : ∀ f ∈ m.fields, f.2 < 128 ^ (9 + 1) := by
  have hint : ∀ v, wireInt32 v < 128 ^ (9 + 1) := fun v =>
    lt_of_lt_of_le (wireInt32_lt v) (by decide)
  have hbool : ∀ b : Bool, b.toNat < 128 ^ (9 + 1) := by decide
  intro f hf
  cases m <;> simp only [fields, List.mem_cons, List.not_mem_nil, or_false] at hf
  case loginRsp =>
    rcases hf with rfl | rfl | rfl | rfl | rfl
    · exact hbool _
    all_goals exact hint _
  case moveRsp =>
    rcases hf with rfl | rfl | rfl | rfl
    · exact hbool _
    all_goals exact hint _
  case enemyMsg | newEnemy => rcases hf with rfl | rfl | rfl <;> exact hint _
  case startRsp | loginEnd | leaveRsp =>
    subst hf
    exact hbool _
  case enemyLeave =>
    subst hf
    exact hint _

theorem Rsp.length_fields_le (m : Rsp) : m.fields.length ≤ 5 := by
  cases m <;> simp only [fields, List.length_cons, List.length_nil] <;> omega

/-- A response is at most 55 bytes long. -/
theorem Rsp.length_wire_le (m : Rsp) : m.wire.length ≤ 55 := by
  have hbytes := length_encodeFields_le 9 m.fields
  have hfields := m.length_fields_le
  unfold wire
  omega

theorem Rsp.ofFields_fields {m : Rsp} (h : m.InRange) :
    Rsp.ofFields m.descriptor m.fields = some m := by
  have hbool : ∀ b : Bool, decide (b.toNat ≠ 0) = b := by decide
  cases m with
  | loginRsp success uid pointX pointY enemyNum =>
    obtain ⟨huid, hx, hy, hnum⟩ := h
    show some (Rsp.loginRsp (decide (success.toNat ≠ 0)) _ _ _ _) = _
    rw [hbool, int32OfWire_wireInt32 huid, int32OfWire_wireInt32 hx, int32OfWire_wireInt32 hy,
      int32OfWire_wireInt32 hnum]
  | enemyMsg uid pointX pointY =>
    obtain ⟨huid, hx, hy⟩ := h
    show some (Rsp.enemyMsg _ _ _) = _
    rw [int32OfWire_wireInt32 huid, int32OfWire_wireInt32 hx, int32OfWire_wireInt32 hy]
  | newEnemy uid pointX pointY =>
    obtain ⟨huid, hx, hy⟩ := h
    show some (Rsp.newEnemy _ _ _) = _
    rw [int32OfWire_wireInt32 huid, int32OfWire_wireInt32 hx, int32OfWire_wireInt32 hy]
  | startRsp start => exact congrArg (fun b => some (Rsp.startRsp b)) (hbool start)
  | loginEnd success => exact congrArg (fun b => some (Rsp.loginEnd b)) (hbool success)
  | leaveRsp leave => exact congrArg (fun b => some (Rsp.leaveRsp b)) (hbool leave)
  | moveRsp success uid posX posY =>
    obtain ⟨huid, hx, hy⟩ := h
    show some (Rsp.moveRsp (decide (success.toNat ≠ 0)) _ _ _) = _
    rw [hbool, int32OfWire_wireInt32 huid, int32OfWire_wireInt32 hx, int32OfWire_wireInt32 hy]
  | enemyLeave uid =>
    exact congrArg (fun v => some (Rsp.enemyLeave v)) (int32OfWire_wireInt32 h)

/-- **A response is read back from its bytes.** -/
theorem Rsp.ofWire_wire {m : Rsp} (h : m.InRange) : Rsp.ofWire m.descriptor m.wire = some m := by
  rw [ofWire, wire, decodeFields_encodeFields m.fields_lt m.length_fields_le, Option.bind_some,
    ofFields_fields h]

/-- The codec of the wire format; requests are decoded when their numbers take one byte. -/
def wireProtobuf : Protobuf := { oneByteProtobuf with pack := Rsp.wire }

end GameServer
