import GameServer.Game.Tables
import GameServer.NetIo.Faults
import GameServer.Server.Service

/-!
# The frames of the clients

A frame is read by net IO, decoded by net logic and handled by a game service. Net IO reads as many
bytes as the length byte says, so net logic gets a buffer of that length, but it takes the type
byte and, for a login request, the decoded message for granted; a game service does so for start
and move requests. `FramesDecode` is the condition under which they may.

## Main definitions

* `Fault.OfFrame` : the faults of the path of a frame.
* `FrameDecodes` : a frame has a type byte, and a login request decodes.
* `FramesDecode` : the condition on the next step of the server.
* `FrameInv` : every frame in the queue to net logic has the length in its head.

## Main results

* `unpackUserData_error_iff` : which frames net logic fails to unpack.
* `frames_read_safely` : the next step fails on a frame exactly where the condition fails.
-/

namespace GameServer

/-- The faults of the path of a frame: a read outside its buffer, a negative length passed to an
unpack function, or a dereference of a decoded message that is `NULL`. -/
def Fault.OfFrame : Fault → Prop
  | .frameRange => True
  | .negativeLength => True
  | .nullMessage => True
  | _ => False

/-- The frame has a type byte, and the payload of a login request is a valid encoding. -/
def FrameDecodes (P : Protobuf) : List UInt8 → Prop
  | [] => False
  | protoType :: payload => protoType = 'L'.toUInt8 → P.loginReqUnpack payload ≠ none

instance (P : Protobuf) : (data : List UInt8) → Decidable (FrameDecodes P data)
  | [] => .isFalse id
  | protoType :: payload =>
    inferInstanceAs (Decidable (protoType = 'L'.toUInt8 → P.loginReqUnpack payload ≠ none))

/-- The payload of a frame whose length is that of its buffer. -/
theorem seriaData_cons (protoType : UInt8) (payload : List UInt8) :
    seriaData (protoType :: payload) ((protoType :: payload).length - 1) = .ok payload := by
  have hlen : (((protoType :: payload).length : ℤ) - 1) = payload.length := by simp
  have hnonneg : ¬(payload.length : ℤ) < 0 := by omega
  have hroom : ¬(protoType :: payload).length < (payload.length : ℤ).toNat + 1 := by simp
  rw [seriaData, hlen, if_neg hnonneg, if_neg hroom]
  simp

/-- A frame whose length is that of its buffer fails to unpack when it has no type byte, or when it
is a login request that does not decode. -/
theorem unpackUserData_error_iff {P : Protobuf} {data : List UInt8} :
    (∃ e, unpackUserData P data data.length = .error e) ↔ ¬FrameDecodes P data := by
  cases data with
  | nil => exact iff_of_true ⟨.frameRange, rfl⟩ id
  | cons protoType payload =>
    simp only [FrameDecodes, Classical.not_imp, not_not]
    simp only [unpackUserData, seriaData_cons, bind, Except.bind]
    split_ifs with hlogin
    · cases P.loginReqUnpack payload with
      | none => simp only [Except.error.injEq, exists_eq', hlogin, and_self]
      | some req => simp only [reduceCtorEq, exists_false, and_false]
    all_goals simp only [exists_false, hlogin, false_and]

theorem disposeGameServiceQue_error {P : Protobuf} {b : Broadcast} {e : Fault}
    (h : disposeGameServiceQue P b = .error e) : e = .assertFailed := by
  rcases Except.bind_eq_error_iff.mp h with h | ⟨⟨rsp, rspSize⟩, -, h⟩
  · rw [rspDataPack_eq, dataPack] at h
    split_ifs at h
    cases h
    rfl
  · cases h

/-! ### The next step of the server -/

/-- A message of net IO that net logic can decode. -/
def IoMsg.Decodes (P : Protobuf) : IoMsg → Prop
  | .data _ _ buffer => FrameDecodes P buffer
  | _ => True

instance (P : Protobuf) : (msg : IoMsg) → Decidable (msg.Decodes P)
  | .data _ _ buffer => inferInstanceAs (Decidable (FrameDecodes P buffer))
  | .close _ => .isTrue trivial
  | .success _ => .isTrue trivial

instance : (req : Request) → Decidable req.IsNull
  | .logReq none | .gameStartReq none | .moveReq none => .isTrue trivial
  | .logReq (some _) | .gameStartReq (some _) | .moveReq (some _) => .isFalse id
  | .heroMsgReq _ | .leaveReq _ | .other _ => .isFalse id

/-- A message whose handler finds the decoded buffer that it reads. -/
def GameLogic.HasBuffer (gl : GameLogic) : GameMsg → Prop
  | .data uid req => gl.Registered uid → ¬req.IsNull
  | _ => True

instance (gl : GameLogic) : (msg : GameMsg) → Decidable (gl.HasBuffer msg)
  | .data uid req => inferInstanceAs (Decidable (gl.Registered uid → ¬req.IsNull))
  | .close _ => .isTrue trivial
  | .success _ => .isTrue trivial

/-- The condition on the next step: net logic takes up a frame only if it decodes, and a game
service takes up a start or move request of a registered uid only if it has been decoded. -/
def FramesDecode (P : Protobuf) (s : Server) : ServerIn → Prop
  | .netIoMsg => ∀ msg ∈ s.fromNetIo.head?, msg.Decodes P
  | .game g => ∀ msg ∈ s.services.next g, (s.services.game g).HasBuffer msg
  | _ => True

instance (P : Protobuf) (s : Server) (i : ServerIn) : Decidable (FramesDecode P s i) := by
  unfold FramesDecode
  split <;> infer_instance

/-- The length in the head of a frame is that of its buffer. -/
def IoMsg.HasLength : IoMsg → Prop
  | .data _ len buffer => len = buffer.length
  | _ => True

/-- What net logic relies on when it takes up a message. -/
structure FrameInv (s : Server) : Prop where
  ids : IdInv s.io
  routes : RouteInv s.services.router
  lengths : ∀ msg ∈ s.fromNetIo, msg.HasLength

theorem SlotStep.hasLength {ends fails : Uid → Prop} {ss ss' : SocketServer} {out : List IoMsg}
    (h : SlotStep ends fails ss ss' out) {msg : IoMsg} (hmsg : msg ∈ out) : msg.HasLength := by
  cases h with
  | quiet => cases hmsg
  | frame u data =>
    obtain rfl := List.mem_singleton.mp hmsg
    exact rfl
  | opened | closed | lost =>
    obtain rfl := List.mem_singleton.mp hmsg
    trivial

theorem FrameInv.step {P : Protobuf} {s s' : Server} {i : ServerIn} (h : FrameInv s)
    (hs : ServerStep P s i s') : FrameInv s' := by
  cases hs with
  | idle => exact h
  | event eve oc hfree hevent =>
    obtain ⟨hid, hslot⟩ := disposeEvent_step h.ids hevent
    refine ⟨hid, h.routes, fun msg hmsg => ?_⟩
    exact (List.mem_append.mp hmsg).elim (h.lengths msg) hslot.hasLength
  | closed uid => exact ⟨closeFd_idInv h.ids uid, h.routes, h.lengths⟩
  | begun => exact ⟨h.ids, h.routes, h.lengths⟩
  | sent w hids hi hsend =>
    obtain ⟨hid, -, hslot⟩ := sendData_step h.ids hsend
    refine ⟨hid, h.routes, fun msg hmsg => ?_⟩
    exact (List.mem_append.mp hmsg).elim (h.lengths msg) hslot.hasLength
  | routed msg hmsg hroute =>
    refine ⟨h.ids, h.routes.step hroute, fun m hm => h.lengths m ?_⟩
    rw [hmsg]
    exact List.mem_cons_of_mem _ hm
  | packed => exact ⟨h.ids, h.routes, h.lengths⟩
  | handled => exact ⟨h.ids, h.routes, h.lengths⟩

theorem FrameInv.init {ss : SocketServer} {listenFd netlogicFd : ℤ}
    (hstart : networkIoServiceStart listenFd netlogicFd = .ok ss)
    (heap : ServiceId → MapId → SlotId → Player) (gamelogSocket : ServiceId → ℤ)
    (gameServiceId : ℤ) :
    FrameInv (Server.start ss (Services.start heap gamelogSocket gameServiceId)) where
  ids u hu := absurd hu (networkIoServiceStart_not_open hstart u)
  routes := RouteInv.init _ _
  lengths _ hmsg := absurd hmsg List.not_mem_nil

/-- A step that fails on a frame does not meet the condition. -/
theorem FrameInv.not_framesDecode {P : Protobuf} {s : Server} {i : ServerIn} {e : Fault}
    (h : FrameInv s) (he : e.OfFrame) (hs : s.step P i = .error e) : ¬FramesDecode P s i := by
  cases i with
  | event eve oc =>
    simp only [Server.step] at hs
    split_ifs at hs
    rcases Except.bind_eq_error_iff.mp hs with hs | ⟨⟨io, out⟩, -, hs⟩
    · rcases disposeEvent_error hs with rfl | rfl | rfl <;> exact he.elim
    · cases hs
  | node =>
    simp only [Server.step] at hs
    split_ifs at hs
    unfold Server.node at hs
    split at hs <;> cases hs
  | send w =>
    simp only [Server.step, Server.send] at hs
    split at hs
    · cases hs
    · rcases Except.bind_eq_error_iff.mp hs with hs | ⟨i, -, hs⟩
      · rw [poolIndex_error hs] at he
        exact he.elim
      · rcases Except.bind_eq_error_iff.mp hs with hs | ⟨⟨io, out⟩, -, hs⟩
        · rcases sendData_error hs with ⟨rfl, -⟩ | rfl <;> exact he.elim
        · cases hs
  | netIoMsg =>
    cases hmsg : s.fromNetIo with
    | nil =>
      simp only [Server.step, Server.netIoMsg, hmsg] at hs
      cases hs
    | cons msg rest =>
      simp only [Server.step, Server.netIoMsg, hmsg] at hs
      rcases Except.bind_eq_error_iff.mp hs with hs | ⟨⟨sv, nodes⟩, -, hs⟩
      · rcases Except.bind_eq_error_iff.mp hs with hs | ⟨⟨r, out⟩, -, hs⟩
        · rcases disposeNetioServiceQue_fault h.routes hs with
            ⟨uid, len, data, rfl, hunpack⟩ | ⟨rfl, -⟩
          · have hlen : len = data.length := h.lengths (.data uid len data) (by simp [hmsg])
            rw [hlen] at hunpack
            intro hok
            refine unpackUserData_error_iff.mp ⟨e, hunpack⟩ (hok (.data uid len data) ?_)
            simp [hmsg]
          · exact he.elim
        · cases hs
      · cases hs
  | gameMsg =>
    simp only [Server.step, Server.gameMsg] at hs
    split at hs
    · cases hs
    · rcases Except.bind_eq_error_iff.mp hs with hs | ⟨out, -, hs⟩
      · rw [disposeGameServiceQue_error hs] at he
        exact he.elim
      · cases hs
  | game g =>
    rcases Except.bind_eq_error_iff.mp hs with hs | ⟨⟨sv, out⟩, -, hs⟩
    · obtain ⟨msg, hnext, hgame⟩ := Services.handle_eq_error.mp hs
      cases disposeQueueEvent_fault hgame with
      | overrun => exact he.elim
      | nullMessage hreg hnull => exact fun hok => hok _ hnext hreg hnull
      | nullEnemy => exact he.elim
    · cases hs

theorem disposeQueueEvent_of_isNull {gl : GameLogic} {uid : Uid} {req : Request}
    (hreg : gl.Registered uid) (hnull : req.IsNull) :
    disposeQueueEvent gl (.data uid req) = .error .nullMessage := by
  have hget := gameRouteGetPlayerid_eq_some.mpr ⟨hreg, rfl⟩
  simp only [disposeQueueEvent, disposeGameLogic, hget]
  cases req with
  | logReq buffer | gameStartReq buffer | moveReq buffer =>
    cases buffer with
    | none => rfl
    | some msg => exact hnull.elim
  | heroMsgReq | leaveReq | other => exact hnull.elim

/-- A step that does not meet the condition fails on a frame. -/
theorem FrameInv.step_eq_error {P : Protobuf} {s : Server} {i : ServerIn} (h : FrameInv s)
    (hok : ¬FramesDecode P s i) : ∃ e : Fault, e.OfFrame ∧ s.step P i = .error e := by
  cases i with
  | event | node | send | gameMsg => exact absurd trivial hok
  | netIoMsg =>
    simp only [FramesDecode, not_forall] at hok
    obtain ⟨msg, hmsg, hbad⟩ := hok
    cases hqueue : s.fromNetIo with
    | nil => simp [hqueue] at hmsg
    | cons m rest =>
      obtain rfl : m = msg := by simpa [hqueue] using hmsg
      cases m with
      | close | success => exact absurd trivial hbad
      | data uid len buffer =>
        have hlen : len = buffer.length := h.lengths (.data uid len buffer) (by simp [hqueue])
        obtain ⟨e, he⟩ := unpackUserData_error_iff.mpr hbad
        refine ⟨e, ?_, ?_⟩
        · rcases unpackUserData_fault he with rfl | rfl | rfl <;> trivial
        · simp only [Server.step, Server.netIoMsg, hqueue, Services.receive,
            disposeNetioServiceQue, hlen, he, bind, Except.bind]
  | game g =>
    simp only [FramesDecode, not_forall] at hok
    obtain ⟨msg, hmsg, hbad⟩ := hok
    cases msg with
    | close | success => exact absurd trivial hbad
    | data uid req =>
      simp only [GameLogic.HasBuffer, Classical.not_imp, not_not] at hbad
      have hgame := disposeQueueEvent_of_isNull hbad.1 hbad.2
      have hhandle := Services.handle_eq_error.mpr ⟨_, hmsg, hgame⟩
      exact ⟨.nullMessage, trivial, Except.bind_eq_error_iff.mpr (Or.inl hhandle)⟩

/-- **Frames are read safely exactly as long as they decode.** In every run in which net logic
takes up no frame without a type byte and no login request that does not decode, and no game
service takes up a start or move request of a registered uid that did not decode, the next step
reads outside a frame, passes on a negative length or dereferences `NULL` if and only if it does
not meet this condition. -/
theorem frames_read_safely {P : Protobuf} {listenFd netlogicFd : ℤ} {ss : SocketServer}
    {heap : ServiceId → MapId → SlotId → Player} {gamelogSocket : ServiceId → ℤ}
    {gameServiceId : ℤ} {is : List ServerIn} {os : List Unit} {s : Server}
    (hstart : networkIoServiceStart listenFd netlogicFd = .ok ss)
    (hrun : (serverMachine P).Exec (FramesDecode P)
      (Server.start ss (Services.start heap gamelogSocket gameServiceId)) is os s)
    (i : ServerIn) :
    (∃ e : Fault, e.OfFrame ∧ (serverMachine P).step s i = .error e) ↔ ¬FramesDecode P s i := by
  have hinv : FrameInv s := hrun.invariant (FrameInv.init hstart heap gamelogSocket gameServiceId)
    fun s i s' o h _ hstep => h.step (serverMachine_step hstep)
  constructor
  · rintro ⟨e, he, hstep⟩
    exact hinv.not_framesDecode he (serverMachine_eq_error.mp hstep)
  · intro hok
    obtain ⟨e, he, hstep⟩ := hinv.step_eq_error hok
    exact ⟨e, he, serverMachine_eq_error.mpr hstep⟩

/-- The connection 3 has something to read. -/
def readsFrame (reads : List ReadRes) : ServerIn :=
  .event ⟨3, true, false, false⟩ ⟨⟨none, true, true⟩, reads, []⟩

/-- A client connects and logs in; its next frame is a start request that does not decode. -/
def garbledStart : List ServerIn :=
  [.event ⟨1, true, false, false⟩ ⟨⟨some 9, true, true⟩, [], []⟩, .netIoMsg, .game 0,
    readsFrame [.data [5], .data ['L'.toUInt8, 10, 2, 97, 98]], .netIoMsg, .game 0,
    readsFrame [.data [2], .data ['S'.toUInt8, 255]], .netIoMsg]

theorem frames_read_safely_run : ∃ ss s os, networkIoServiceStart 7 8 = .ok ss ∧
    (serverMachine oneByteProtobuf).Exec (FramesDecode oneByteProtobuf)
      (Server.start ss (Services.start (fun _ => zeroHeap) (fun _ => 7) 0)) garbledStart os s ∧
    s.fromGame.length = 2 ∧
    ∃ e : Fault, e.OfFrame ∧ (serverMachine oneByteProtobuf).step s (.game 0) = .error e := by
  obtain ⟨ss, hstart, hrun⟩ : ∃ ss, networkIoServiceStart 7 8 = .ok ss ∧
      ((serverMachine oneByteProtobuf).run (FramesDecode oneByteProtobuf)
        (Server.start ss (Services.start (fun _ => zeroHeap) (fun _ => 7) 0)) garbledStart).map
        (fun p => (p.1.fromGame.length, decide (FramesDecode oneByteProtobuf p.1 (.game 0)))) =
      some (2, false) :=
    ⟨_, rfl, by decide +kernel⟩
  obtain ⟨s, os, hrun, hobs⟩ := (serverMachine oneByteProtobuf).exec_of_run_map hrun
  obtain ⟨hlen, hbad⟩ := Prod.mk.inj hobs
  exact ⟨ss, s, os, hstart, hrun, hlen,
    (frames_read_safely hstart hrun (.game 0)).mpr (of_decide_eq_false hbad)⟩

/-- **An empty frame.** A client connects and sends the length byte 0; net logic reads the type
byte of the frame, which has none. -/
theorem empty_frame_overread : ∃ ss s os, networkIoServiceStart 7 8 = .ok ss ∧
    (serverMachine oneByteProtobuf).Exec Machine.any
      (Server.start ss (Services.start (fun _ => zeroHeap) (fun _ => 7) 0))
      [.event ⟨1, true, false, false⟩ ⟨⟨some 9, true, true⟩, [], []⟩, .netIoMsg, .game 0,
        readsFrame [.data [0]]] os s ∧
    s.fromNetIo = [.data 3 0 []] ∧
    (serverMachine oneByteProtobuf).step s .netIoMsg = .error .frameRange := by
  obtain ⟨ss, hstart, hrun⟩ : ∃ ss, networkIoServiceStart 7 8 = .ok ss ∧
      ((serverMachine oneByteProtobuf).run Machine.any
        (Server.start ss (Services.start (fun _ => zeroHeap) (fun _ => 7) 0))
        [.event ⟨1, true, false, false⟩ ⟨⟨some 9, true, true⟩, [], []⟩, .netIoMsg, .game 0,
          readsFrame [.data [0]]]).map (fun p => p.1.fromNetIo) = some [.data 3 0 []] :=
    ⟨_, rfl, by decide +kernel⟩
  obtain ⟨s, os, hrun, hqueue⟩ := (serverMachine oneByteProtobuf).exec_of_run_map hrun
  refine ⟨ss, s, os, hstart, hrun, hqueue, ?_⟩
  have hq : s.fromNetIo = [.data 3 0 []] := hqueue
  simp only [serverMachine, Server.step, Server.netIoMsg, hq]
  rfl

end GameServer
