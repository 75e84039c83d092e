import GameServer.Game.Steps
import GameServer.Net.Service
import GameServer.Net.WireFormat
import GameServer.NetIo.Slots

/-!
# Frames on a connection

Net logic writes a response as a frame: a length byte, the byte of its type, the packed message.
`dispose_readmessage` reads a length byte and as many bytes, the first of which is the type. Both
ends of a connection use this format, so what one writes the other has to be able to cut: the
length byte must not be too small for any response, and the type must select the packer of the
message that the game service has created.

## Main definitions

* `Broadcast.frame` : the frame of a message.
* `cutFrame`, `cutStream` : a stream of bytes cut by the rule of `dispose_readmessage`.
* `Delivers` : outcomes of `read` calls through which bytes arrive.

## Main results

* `disposeReadmessage_of_cutFrame` : the rule is that of `dispose_readmessage`.
* `GameStep.descriptor_eq` : a game service sets the type of the message that it has created.
* `framing_round_trip` : the responses are cut from the stream and decoded as they were written.
-/

namespace GameServer

/-! ### Cutting a stream -/

/-- The first frame of a stream, as type and payload, and the bytes behind it. -/
def cutFrame : List UInt8 → Option ((UInt8 × List UInt8) × List UInt8)
  | [] => none
  | len :: bs =>
    if bs.length < len.toNat then none
    else
      match bs.take len.toNat with
      | [] => none
      | ty :: payload => some ((ty, payload), bs.drop len.toNat)

/-- The first `n` frames of a stream, which has no more. -/
def cutFrames : ℕ → List UInt8 → Option (List (UInt8 × List UInt8))
  | _, [] => some []
  | 0, _ :: _ => none
  | n + 1, b :: bs => do
    let (frame, rest) ← cutFrame (b :: bs)
    let frames ← cutFrames n rest
    some (frame :: frames)

/-- The frames of a stream. -/
def cutStream (stream : List UInt8) : Option (List (UInt8 × List UInt8)) :=
  cutFrames stream.length stream

/-- The frame of a type and a payload. -/
def frameBytes (ty : UInt8) (payload : List UInt8) : List UInt8 :=
  UInt8.ofNat (payload.length + 1) :: ty :: payload

/-- The frame that net logic makes of a message. -/
def Broadcast.frame (P : Protobuf) (b : Broadcast) : List UInt8 :=
  frameBytes b.protoType.code (P.pack b.buffer)

/-- The packers make the frame of a message that has the type of its own structure, and fail on any
other. -/
theorem rspDataPack_eq_ok {P : Protobuf} {b : Broadcast} {rsp : List UInt8} {rspSize : ℤ} :
    rspDataPack P b.protoType b.buffer = .ok (rsp, rspSize) ↔
      b.buffer.descriptor = b.protoType ∧ rsp = b.frame P ∧ rspSize = (b.frame P).length := by
  have hsize : ((P.pack b.buffer).length : ℤ) + 2 = (b.frame P).length := by
    simp only [Broadcast.frame, frameBytes, List.length_cons]
    omega
  rw [rspDataPack_eq, dataPack]
  split_ifs with hty
  · simp only [Except.ok.injEq, Prod.mk.injEq, hty, true_and, hsize]
    exact and_congr eq_comm eq_comm
  · simp only [hty, false_and]

/-- The size byte of a frame that is short enough is the size. -/
theorem toNat_size {payload : List UInt8} (h : payload.length ≤ 254) :
    (UInt8.ofNat (payload.length + 1)).toNat = payload.length + 1 := by
  rw [UInt8.toNat_ofNat']
  exact Nat.mod_eq_of_lt (by omega)

/-- A frame is cut off the stream that it begins. -/
theorem cutFrame_frameBytes (ty : UInt8) {payload : List UInt8} (h : payload.length ≤ 254)
    (rest : List UInt8) :
    cutFrame (frameBytes ty payload ++ rest) = some ((ty, payload), rest) := by
  have hroom : ¬(ty :: (payload ++ rest)).length < payload.length + 1 := by
    simp only [List.length_cons, List.length_append]
    omega
  simp only [frameBytes, List.cons_append, cutFrame, toNat_size h, if_neg hroom,
    List.take_succ_cons, List.drop_succ_cons, List.take_left, List.drop_left]

/-- **Cutting.** A concatenation of frames is cut into these frames. -/
theorem cutStream_flatMap {frames : List (UInt8 × List UInt8)}
    (h : ∀ f ∈ frames, f.2.length ≤ 254) :
    cutStream (frames.flatMap fun f => frameBytes f.1 f.2) = some frames := by
  have hcut : ∀ n, frames.length ≤ n →
      cutFrames n (frames.flatMap fun f => frameBytes f.1 f.2) = some frames := by
    induction frames with
    | nil => intro n _; cases n <;> rfl
    | cons f frames ih =>
      intro n hn
      cases n with
      | zero => exact absurd hn (Nat.not_succ_le_zero _)
      | succ n =>
        have hfirst := cutFrame_frameBytes f.1 (h f List.mem_cons_self)
          (frames.flatMap fun f => frameBytes f.1 f.2)
        have hrest := ih (fun f' hf' => h f' (List.mem_cons_of_mem f hf')) n
          (Nat.le_of_succ_le_succ hn)
        rw [List.flatMap_cons]
        simp only [frameBytes, List.cons_append] at hfirst hrest ⊢
        simp only [cutFrames, hfirst, hrest, Option.bind_eq_bind, Option.bind_some]
  refine hcut _ ?_
  -- Every frame has bytes of its own.
  clear hcut h
  induction frames with
  | nil => exact Nat.zero_le _
  | cons f frames ih =>
    rw [List.flatMap_cons, List.length_append, List.length_cons]
    simp only [frameBytes, List.length_cons]
    simp only [frameBytes] at ih
    omega

/-! ### Reading a frame -/

/-- The bytes arrive through the outcomes of `read`, in pieces of any size and with interruptions
in between. -/
inductive Delivers : List UInt8 → List ReadRes → Prop
  | done : Delivers [] []
  | eintr {bytes reads} (hne : bytes ≠ []) (h : Delivers bytes reads) :
      Delivers bytes (.eintr :: reads)
  | eagain {bytes reads} (hne : bytes ≠ []) (h : Delivers bytes reads) :
      Delivers bytes (.eagain :: reads)
  | data {bytes reads} (chunk : List UInt8) (hne : chunk ≠ []) (h : Delivers bytes reads) :
      Delivers (chunk ++ bytes) (.data chunk :: reads)

/-- The function `readn` reads what arrives. -/
theorem readn_of_delivers {bytes : List UInt8} {reads : List ReadRes} (h : Delivers bytes reads)
    (later : List ReadRes) : readn bytes.length (reads ++ later) = .ok (some bytes, later) := by
  have hpos {bytes : List UInt8} (hne : bytes ≠ []) : bytes.length ≠ 0 :=
    fun h0 => hne (List.length_eq_zero_iff.mp h0)
  induction h with
  | done => cases later <;> rfl
  | eintr hne h ih => simpa only [List.cons_append, readn, if_neg (hpos hne)] using ih
  | eagain hne h ih => simpa only [List.cons_append, readn, if_neg (hpos hne)] using ih
  | data chunk hne h ih =>
    rename_i bytes reads
    have hne' : (chunk ++ bytes).length ≠ 0 := hpos (List.append_ne_nil_of_left_ne_nil hne bytes)
    have htake : chunk.take (chunk ++ bytes).length = chunk :=
      List.take_of_length_le (by simp)
    have hleft : (chunk ++ bytes).length - chunk.length = bytes.length := by simp
    simp only [List.cons_append, readn, if_neg hne', htake, if_neg hne, hleft, ih]
    rfl

/-- **The rule of `dispose_readmessage`.** From a stream of which a frame can be cut the function
reads that frame, in whatever pieces its bytes arrive. -/
theorem disposeReadmessage_of_cutFrame {stream rest payload : List UInt8} {ty : UInt8}
    (hcut : cutFrame stream = some ((ty, payload), rest)) {reads₁ reads₂ : List ReadRes}
    (h₁ : Delivers (stream.take 1) reads₁) (h₂ : Delivers (ty :: payload) reads₂)
    (later : List ReadRes) (ss : SocketServer) (i : Uid) :
    disposeReadmessage ss i (reads₁ ++ (reads₂ ++ later)) =
      .ok (ss, [.data (ss.socketPool i).id (payload.length + 1) (ty :: payload)]) := by
  cases stream with
  | nil => cases hcut
  | cons len bs =>
    simp only [cutFrame] at hcut
    split_ifs at hcut with hroom
    have hlen : len.toNat = payload.length + 1 := by
      have htake : (bs.take len.toNat).length = len.toNat := List.length_take_of_le (by omega)
      split at hcut
      · cases hcut
      · next ty' payload' hbody =>
        obtain ⟨rfl, rfl⟩ := Prod.mk.inj (Prod.mk.inj (Option.some.inj hcut)).1
        rw [hbody, List.length_cons] at htake
        exact htake.symm
    have hfirst := readn_of_delivers h₁ (reads₂ ++ later)
    have hbody := readn_of_delivers h₂ later
    simp only [List.take_succ_cons, List.take_zero, List.length_singleton] at hfirst
    rw [List.length_cons] at hbody
    simp only [disposeReadmessage, hfirst, bind, Except.bind, List.headD_cons, hbody, hlen,
      Nat.cast_add, Nat.cast_one]

/-! ### The types that game services set -/

/-- The type of every message that a game service sends is that of the message it has created. -/
theorem GameStep.descriptor_eq {gl gl' : GameLogic} {msg : GameMsg} {out : List Broadcast}
    (h : GameStep gl msg gl' out) : ∀ b ∈ out, b.buffer.descriptor = b.protoType := by
  intro b hb
  cases h with
  | success | ignored => cases hb
  | login =>
    simp only [loginReplies, List.cons_append, List.nil_append, List.mem_cons, List.mem_append,
      List.mem_map, List.not_mem_nil, or_false] at hb
    rcases hb with rfl | ⟨e, -, rfl⟩ | rfl <;> rfl
  | start =>
    simp only [List.mem_cons, List.not_mem_nil, or_false] at hb
    rcases hb with rfl | rfl <;> rfl
  | move | leave | close =>
    obtain rfl := List.mem_singleton.mp hb
    rfl

theorem RspType.code_injective : ∀ ty ty' : RspType, ty.code = ty'.code → ty = ty' := by
  intro ty ty'
  cases ty <;> cases ty' <;> first | exact fun _ => rfl | exact fun h => absurd h (by decide)

/-! ### Round trip -/

section RoundTrip

variable {P : Protobuf} {unpack : RspType → List UInt8 → Option Rsp}

/-- The frame that net logic builds from a message under its own type. -/
theorem disposeGameServiceQue_of_descriptor {b : Broadcast}
    (h : b.buffer.descriptor = b.protoType) :
    disposeGameServiceQue P b = .ok
      [.pushNetIo (.broadcast ((P.pack b.buffer).length + 2) b.uidList
        (frameBytes b.protoType.code (P.pack b.buffer))), .wakeNetIo] := by
  simp only [disposeGameServiceQue, rspDataPack_eq, dataPack, if_pos h]
  rfl

/-- **Framing is a round trip.** A game service sets the type of the message that it has created.
For any sequence of responses under their types, with `int32` fields, net logic builds a frame each,
whose first byte is the length of the rest without truncation and whose second byte is the type;
`dispose_readmessage` reads it, in whatever pieces it arrives; from the concatenation of the
frames, cut by the rule of `dispose_readmessage`, the types and payloads come back; and the payload
decodes, as a message of the type with that byte, to the response. -/
theorem framing_round_trip (hpack : ∀ m : Rsp, m.InRange → P.pack m = m.wire)
    (hunpack : ∀ ty bytes m, Rsp.ofWire ty bytes = some m → unpack ty bytes = some m) :
    (∀ gl msg gl' out, disposeQueueEvent gl msg = .ok (gl', out) →
      ∀ b ∈ out, b.buffer.descriptor = b.protoType) ∧
    ∀ bs : List Broadcast, (∀ b ∈ bs, b.buffer.descriptor = b.protoType ∧ b.buffer.InRange) →
      ∃ frames : List (List UInt8),
        List.Forall₂ (fun b frame =>
          disposeGameServiceQue P b = .ok
            [.pushNetIo (.broadcast ((P.pack b.buffer).length + 2) b.uidList frame), .wakeNetIo] ∧
          (∃ len, frame = len :: b.protoType.code :: P.pack b.buffer ∧
            len.toNat = 1 + (P.pack b.buffer).length) ∧
          ∀ reads₁ reads₂, Delivers (frame.take 1) reads₁ → Delivers (frame.drop 1) reads₂ →
            ∀ ss i, disposeReadmessage ss i (reads₁ ++ reads₂) =
              .ok (ss, [.data (ss.socketPool i).id ((P.pack b.buffer).length + 1)
                (b.protoType.code :: P.pack b.buffer)])) bs frames ∧
        cutStream frames.flatten = some (bs.map fun b => (b.protoType.code, P.pack b.buffer)) ∧
        ∀ b ∈ bs, ∀ ty : RspType, ty.code = b.protoType.code →
          unpack ty (P.pack b.buffer) = some b.buffer := by
  refine ⟨fun gl msg gl' out h => (disposeQueueEvent_step h).descriptor_eq, fun bs hbs => ?_⟩
  have hlen : ∀ b ∈ bs, (P.pack b.buffer).length ≤ 254 := fun b hb => by
    rw [hpack b.buffer (hbs b hb).2]
    exact le_trans b.buffer.length_wire_le (by decide)
  refine ⟨bs.map fun b => frameBytes b.protoType.code (P.pack b.buffer), ?_, ?_, ?_⟩
  · rw [List.forall₂_map_right_iff, List.forall₂_same]
    intro b hb
    refine ⟨disposeGameServiceQue_of_descriptor (hbs b hb).1, ⟨_, rfl, ?_⟩, ?_⟩
    · rw [toNat_size (hlen b hb), Nat.add_comm]
    · intro reads₁ reads₂ h₁ h₂ ss i
      have hcut := cutFrame_frameBytes b.protoType.code (hlen b hb) []
      rw [List.append_nil] at hcut
      have hread := disposeReadmessage_of_cutFrame hcut h₁ h₂ [] ss i
      rwa [List.append_nil] at hread
  · have hshort : ∀ f ∈ bs.map fun b => (b.protoType.code, P.pack b.buffer), f.2.length ≤ 254 :=
      List.forall_mem_map.mpr hlen
    have hcut := cutStream_flatMap hshort
    rwa [List.flatMap_map] at hcut
  · intro b hb ty hty
    obtain ⟨hdesc, hrange⟩ := hbs b hb
    refine hunpack _ _ _ ?_
    rw [RspType.code_injective _ _ hty, ← hdesc, hpack b.buffer hrange]
    exact Rsp.ofWire_wire hrange

end RoundTrip

/-- A response with negative fields and one without, on one stream. -/
theorem framing_round_trip_run : ∃ frames : List (List UInt8),
    cutStream frames.flatten =
      some ([⟨1, [3], .enemyMsg, .enemyMsg 3 (-1) (-4)⟩, ⟨1, [3], .loginEnd, .loginEnd true⟩].map
        fun b : Broadcast => (b.protoType.code, wireProtobuf.pack b.buffer)) ∧
    Rsp.ofWire .enemyMsg (wireProtobuf.pack (.enemyMsg 3 (-1) (-4))) =
      some (.enemyMsg 3 (-1) (-4)) := by
  have hunpack : ∀ ty bytes m, Rsp.ofWire ty bytes = some m → Rsp.ofWire ty bytes = some m :=
    fun _ _ _ h => h
  have hround := (framing_round_trip (P := wireProtobuf) (fun _ _ => rfl) hunpack).2
    [⟨1, [3], .enemyMsg, .enemyMsg 3 (-1) (-4)⟩, ⟨1, [3], .loginEnd, .loginEnd true⟩]
  obtain ⟨frames, -, hcut, hdecode⟩ := hround (by
    simp only [List.forall_mem_cons, List.not_mem_nil, false_implies, implies_true, and_true,
      Rsp.descriptor, Rsp.InRange, IsInt32, true_and]
    decide)
  exact ⟨frames, hcut, hdecode _ List.mem_cons_self .enemyMsg rfl⟩

end GameServer
