import GameServer.Game.Tables
import GameServer.NetIo.Faults
import GameServer.Server.Service

/-!
# The recipients of the broadcasts

A game service takes the recipients of a broadcast from its tables; the list then waits in two
queues before net IO calls `send_data` for each recipient, which asserts that the slot is open. Net
IO closes slots on its own, and the tables do not follow at once. `RecipientsStay` says when every
recipient on its way stays connected, and `InFlightInv` that they then are.

## Main definitions

* `GameLogic.addressees` : whom the handling of a message addresses, read off the tables.
* `Server.inFlight` : the recipients in the queues and of the broadcast being sent.
* `RecipientsStay` : the condition on the next step of the server.

## Main results

* `GameStep.mem_addressees` : a game service sends to the addressees only.
* `InFlightInv.step` : the step lemma.
* `recipients_connected` : the assertion of `send_data` never fails.
-/

namespace GameServer

/-! ### Whom a message addresses -/

/-- The recipients of the map of `uid` once `uid` has been removed from the list and the counter. -/
def GameLogic.recipientsWithout (gl : GameLogic) (uid : Uid) : List Uid :=
  let rest := others (gl.mapPlayerSocketUid (gl.mapOf uid)) uid (List.finRange maxPlayerEachMap)
  (rest ++ (gl.mapUidList (gl.mapOf uid)).toList.drop rest.length).take
    (gl.mapPlayerNum (gl.mapOf uid) - 1).toNat

/-- Whom a request of the registered `uid` addresses. -/
def GameLogic.requestAddressees (gl : GameLogic) (uid : Uid) : Request → List ℤ
  | .logReq (some _) => [uid.toInt]
  | .gameStartReq (some ⟨true⟩) => (gl.recipients (gl.mapOf uid)).map Uid.toInt ++ [uid.toInt]
  | .moveReq (some _) => (gl.recipients (gl.mapOf uid)).map Uid.toInt
  | .leaveReq _ => [(gl.playerOf uid).uid]
  | _ => []

/-- Whom the handling of a message addresses. -/
def GameLogic.addressees (gl : GameLogic) : GameMsg → List ℤ
  | .data uid req => if gl.Registered uid then gl.requestAddressees uid req else []
  | .close uid => if gl.Registered uid then (gl.recipientsWithout uid).map Uid.toInt else []
  | .success _ => []

/-- The recipients that the tables hold after the removal of `uid`. -/
theorem recipients_gameRouteDel {gl : GameLogic} {uid : Uid} {l : Vector Uid maxPlayerEachMap}
    (hreg : gl.Registered uid) (hl : gl.IsRebuilt uid l) :
    (gameRouteDel (gl.setList (gl.mapOf uid) l) uid).2.recipients (gl.mapOf uid) =
      gl.recipientsWithout uid := by
  have hreg' : (gl.setList (gl.mapOf uid) l).Registered uid := hreg
  have hnum : (gameRouteDel (gl.setList (gl.mapOf uid) l) uid).2.mapPlayerNum (gl.mapOf uid) =
      gl.mapPlayerNum (gl.mapOf uid) - 1 := by
    rw [gameRouteDel_mapPlayerNum hreg']
    exact Function.update_self ..
  unfold GameLogic.recipients GameLogic.recipientsWithout
  rw [hnum, gameRouteDel_mapUidList, GameLogic.setList_mapUidList, Function.update_self, hl]

/-- A game service sends to the addressees of the message only. -/
theorem GameStep.mem_addressees {gl gl' : GameLogic} {msg : GameMsg} {out : List Broadcast}
    (h : GameStep gl msg gl' out) {b : Broadcast} (hb : b ∈ out) {id : ℤ} (hid : id ∈ b.uidList) :
    id ∈ gl.addressees msg := by
  cases h with
  | success | ignored => cases hb
  | login uid req hreg =>
    have hself : b.uidList = [uid.toInt] := by
      simp only [loginReplies, List.cons_append, List.nil_append, List.mem_cons,
        List.mem_append, List.mem_map, List.not_mem_nil, or_false] at hb
      rcases hb with rfl | ⟨e, -, rfl⟩ | rfl <;> rfl
    rw [hself] at hid
    rw [GameLogic.addressees, if_pos hreg]
    exact hid
  | start uid hreg =>
    rw [GameLogic.addressees, if_pos hreg]
    simp only [List.mem_cons, List.not_mem_nil, or_false] at hb
    rcases hb with rfl | rfl
    · exact List.mem_append_left _ hid
    · exact List.mem_append_right _ hid
  | move uid req hreg =>
    obtain rfl := List.mem_singleton.mp hb
    rw [GameLogic.addressees, if_pos hreg]
    exact hid
  | leave uid data hreg =>
    obtain rfl := List.mem_singleton.mp hb
    rw [GameLogic.addressees, if_pos hreg]
    exact hid
  | close uid l hreg hl =>
    obtain rfl := List.mem_singleton.mp hb
    rw [GameLogic.addressees, if_pos hreg, ← recipients_gameRouteDel hreg hl]
    exact hid

/-! ### Recipients on their way -/

/-- The id leads to an open connection of the pool. -/
def SocketServer.Reaches (ss : SocketServer) (id : ℤ) : Prop :=
  ∃ u, poolIndex id = .ok u ∧ ss.Open u

instance (ss : SocketServer) (id : ℤ) : Decidable (ss.Reaches id) :=
  match h : poolIndex id with
  | .ok u => decidable_of_iff (ss.Open u) <| by
      simp only [SocketServer.Reaches, h, Except.ok.injEq, exists_eq_left']
  | .error _ => .isFalse <| by
      simp only [SocketServer.Reaches, h, reduceCtorEq, false_and, exists_false, not_false_iff]

/-- Some of the ids leads to the slot `u`. -/
def NamedIn (ids : List ℤ) (u : Uid) : Prop := ∃ id ∈ ids, poolIndex id = .ok u

instance (ids : List ℤ) (u : Uid) : Decidable (NamedIn ids u) :=
  inferInstanceAs (Decidable (∃ id ∈ ids, poolIndex id = .ok u))

/-- The recipients of a node for net IO. -/
def NetIoNode.recipients : NetIoNode → List ℤ
  | .broadcast _ uidList _ => uidList
  | _ => []

/-- The node does not order net IO to close a connection to which one of the ids leads. -/
def NetIoNode.Spares (ids : List ℤ) : NetIoNode → Prop
  | .serviceFull uid => ¬NamedIn ids uid
  | .playerError uid => ¬NamedIn ids uid
  | .broadcast _ _ _ => True

instance (ids : List ℤ) : (n : NetIoNode) → Decidable (n.Spares ids)
  | .serviceFull uid => inferInstanceAs (Decidable (¬NamedIn ids uid))
  | .playerError uid => inferInstanceAs (Decidable (¬NamedIn ids uid))
  | .broadcast _ _ _ => .isTrue trivial

/-- The recipients of the broadcast being sent and of the broadcasts in the queues. -/
def Server.inFlight (s : Server) : List ℤ :=
  s.sending.uidList ++ s.toNetIo.flatMap NetIoNode.recipients ++
    s.fromGame.flatMap Broadcast.uidList

/-- A read or a write of the event fails in a way that closes its connection. -/
def EventCloses (eve : Event Uid) (oc : Outcomes) : Prop :=
  (eve.read = true ∧ FrameLost oc.reads) ∨
    (eve.read = false ∧ eve.write = true ∧ .fail ∈ oc.writes)

instance (eve : Event Uid) (oc : Outcomes) : Decidable (EventCloses eve oc) :=
  inferInstanceAs (Decidable (_ ∨ _))

/-- The condition on the next step: net IO closes a connection, on its own or by order of net
logic, only when no recipient on its way leads to it, and a game service takes up a message only
when everyone it addresses is connected. -/
def RecipientsStay (s : Server) : ServerIn → Prop
  | .event eve oc => ¬s.Busy → s.io.Open eve.sP → EventCloses eve oc → ¬NamedIn s.inFlight eve.sP
  | .node => ¬s.Busy → ∀ n ∈ s.toNetIo.head?, n.Spares s.inFlight
  | .send w => w = .fail → ∀ id ∈ s.sending.uidList.head?,
      ∀ id' ∈ s.inFlight.tail, poolIndex id' ≠ poolIndex id
  | .netIoMsg => True
  | .gameMsg => True
  | .game g => ∀ msg ∈ s.services.next g, ∀ id ∈ (s.services.game g).addressees msg, s.io.Reaches id

instance (s : Server) : (i : ServerIn) → Decidable (RecipientsStay s i)
  | .event eve oc => inferInstanceAs (Decidable
      (¬s.Busy → s.io.Open eve.sP → EventCloses eve oc → ¬NamedIn s.inFlight eve.sP))
  | .node => inferInstanceAs (Decidable
      (¬s.Busy → ∀ n ∈ s.toNetIo.head?, n.Spares s.inFlight))
  | .send w => inferInstanceAs (Decidable (w = .fail → ∀ id ∈ s.sending.uidList.head?,
      ∀ id' ∈ s.inFlight.tail, poolIndex id' ≠ poolIndex id))
  | .netIoMsg => .isTrue trivial
  | .gameMsg => .isTrue trivial
  | .game g => inferInstanceAs (Decidable
      (∀ msg ∈ s.services.next g, ∀ id ∈ (s.services.game g).addressees msg, s.io.Reaches id))

/-- Every recipient on its way is connected. -/
structure InFlightInv (s : Server) : Prop where
  ids : IdInv s.io
  reach : ∀ id ∈ s.inFlight, s.io.Reaches id

/-- Recipients stay connected when no connection that they lead to is closed. -/
theorem SocketServer.Reaches.of_open {ss ss' : SocketServer} {ids : List ℤ}
    (h : ∀ id ∈ ids, ss.Reaches id) (hopen : ∀ u, NamedIn ids u → ss.Open u → ss'.Open u) :
    ∀ id ∈ ids, ss'.Reaches id := by
  intro id hid
  obtain ⟨u, hu, hu'⟩ := h id hid
  exact ⟨u, hu, hopen u ⟨id, hid, hu⟩ hu'⟩

/-- A step of the slots closes none but the connections whose read or write fails. -/
theorem SlotStep.open_of_ne {ends fails : Uid → Prop} {ss ss' : SocketServer} {out : List IoMsg}
    (h : SlotStep ends fails ss ss' out) {u : Uid} (hu : ss.Open u) (hends : ¬ends u)
    (hfails : ¬fails u) : ss'.Open u := by
  cases h with
  | quiet hsame => exact (hsame u).mpr hu
  | frame v data hopen hsame => exact (hsame u).mpr hu
  | opened v hnew hset => exact (hset u).mpr (Or.inl hu)
  | closed v hend hopen hset =>
    refine (hset u).mpr ⟨hu, ?_⟩
    rintro rfl
    exact hends hend
  | lost v hfail hopen hset =>
    refine (hset u).mpr ⟨hu, ?_⟩
    rintro rfl
    exact hfails hfail

/-- Net logic sends net IO no recipients when it handles a message of net IO. -/
theorem RouteStep.no_recipients {P : Protobuf} {r r' : Router} {msg : IoMsg} {out : List NetOut}
    (h : RouteStep P r msg r' out) :
    (out.filterMap NetOut.toNetIo).flatMap NetIoNode.recipients = [] := by
  cases h with
  | refused => rfl
  | dropped | closedUnrouted => rfl
  | routed | forwarded | closed => rw [Router.sendsTo_toNetIo, List.flatMap_nil]

/-- **Step lemma.** -/
theorem InFlightInv.step {P : Protobuf} {s s' : Server} {i : ServerIn} (h : InFlightInv s)
    (hok : RecipientsStay s i) (hs : ServerStep P s i s') : InFlightInv s' := by
  cases hs with
  | idle => exact h
  | event eve oc hfree hevent =>
    obtain ⟨hid, hslot⟩ := disposeEvent_step h.ids hevent
    refine ⟨hid, SocketServer.Reaches.of_open h.reach fun u hnamed hu => hslot.open_of_ne hu ?_ ?_⟩
    · rintro ⟨rfl, hread, hlost⟩
      exact hok hfree hu (Or.inl ⟨hread, hlost⟩) hnamed
    · rintro ⟨rfl, hread, hwrite, hfail⟩
      exact hok hfree hu (Or.inr ⟨hread, hwrite, hfail⟩) hnamed
  | closed uid hfree hnode =>
    have hstays : ¬NamedIn s.inFlight uid := by
      rcases hnode with hnode | hnode
      · exact hok hfree (.serviceFull uid) (by simp [hnode])
      · exact hok hfree (.playerError uid) (by simp [hnode])
    have hsame : ∀ id ∈ s.inFlight, (closeFd s.io uid).1.Reaches id := by
      refine SocketServer.Reaches.of_open h.reach fun u hnamed hu => ?_
      refine (closeFd_open_iff s.io uid u).mpr ⟨hu, ?_⟩
      rintro rfl
      exact hstays hnamed
    refine ⟨closeFd_idInv h.ids uid, fun id hid => hsame id ?_⟩
    rcases hnode with hnode | hnode <;>
      simpa [Server.inFlight, hnode, NetIoNode.recipients] using hid
  | begun size uidList buffer hfree hnode =>
    have hidle : s.sending.uidList = [] := not_not.mp hfree
    refine ⟨h.ids, fun id hid => h.reach id ?_⟩
    simpa [Server.inFlight, hnode, hidle, NetIoNode.recipients] using hid
  | @sent w id ids i io out hids hi hsend =>
    obtain ⟨hid, -, hslot⟩ := sendData_step h.ids hsend
    have htail : (s.sent io ids out).inFlight = s.inFlight.tail := by
      simp only [Server.inFlight, Server.sent, hids, List.cons_append, List.tail_cons]
    have hreach : ∀ id' ∈ s.inFlight.tail, s.io.Reaches id' :=
      fun id' hid' => h.reach id' (List.mem_of_mem_tail hid')
    refine ⟨hid, ?_⟩
    rw [htail]
    refine SocketServer.Reaches.of_open hreach fun u hnamed hu => hslot.open_of_ne hu not_false ?_
    rintro ⟨rfl, hfail⟩
    obtain ⟨id', hmem, hid'⟩ := hnamed
    exact hok hfail id (by simp [hids]) id' hmem (hid'.trans hi.symm)
  | routed msg hmsg hroute =>
    refine ⟨h.ids, fun id hid => h.reach id ?_⟩
    simpa [Server.inFlight, hroute.no_recipients] using hid
  | packed b hb hpack =>
    refine ⟨h.ids, fun id hid => h.reach id ?_⟩
    simpa [Server.inFlight, hb, NetIoNode.recipients, or_assoc] using hid
  | handled g msg hpop hnext hgame =>
    refine ⟨h.ids, fun id hid => ?_⟩
    simp only [Server.inFlight, List.flatMap_append, ← List.append_assoc] at hid
    rcases List.mem_append.mp hid with hid | hid
    · exact h.reach id hid
    · obtain ⟨b, hb, hid⟩ := List.mem_flatMap.mp hid
      exact hok msg hnext id (hgame.mem_addressees hb hid)

theorem InFlightInv.init {ss : SocketServer} {listenFd netlogicFd : ℤ}
    (hstart : networkIoServiceStart listenFd netlogicFd = .ok ss) (sv : Services) :
    InFlightInv (Server.start ss sv) where
  ids u hu := absurd hu (networkIoServiceStart_not_open hstart u)
  reach _ hid := absurd hid List.not_mem_nil

/-- **Recipients are connected.** In every run in which no connection is closed while a recipient
on its way leads to it, and every game service takes up a message only when everyone it addresses
is connected, the slot of the next recipient is open when net IO calls `send_data` for it, and the
assertion there does not fail. -/
theorem recipients_connected {P : Protobuf} {listenFd netlogicFd : ℤ} {ss : SocketServer}
    {heap : ServiceId → MapId → SlotId → Player} {gamelogSocket : ServiceId → ℤ}
    {gameServiceId : ℤ} {is : List ServerIn} {os : List Unit} {s : Server}
    (hstart : networkIoServiceStart listenFd netlogicFd = .ok ss)
    (hrun : (serverMachine P).Exec RecipientsStay
      (Server.start ss (Services.start heap gamelogSocket gameServiceId)) is os s) :
    (∀ id ids, s.sending.uidList = id :: ids →
      ∃ u, poolIndex id = .ok u ∧ (s.io.socketPool u).type = .connectAdd) ∧
    ∀ w, (serverMachine P).step s (.send w) ≠ .error .assertFailed := by
  have hinv : InFlightInv s := hrun.invariant (InFlightInv.init hstart _)
    fun s i s' o h hok hstep => h.step hok (serverMachine_step hstep)
  have hnext (id : ℤ) (ids : List ℤ) (hids : s.sending.uidList = id :: ids) : s.io.Reaches id := by
    refine hinv.reach id ?_
    simp [Server.inFlight, hids]
  refine ⟨hnext, fun w hfault => ?_⟩
  rw [serverMachine_eq_error] at hfault
  cases hids : s.sending.uidList with
  | nil =>
    simp only [Server.step, Server.send, hids] at hfault
    cases hfault
  | cons id ids =>
    obtain ⟨u, hu, hopen⟩ := hnext id ids hids
    simp only [Server.step, Server.send, hids] at hfault
    rcases Except.bind_eq_error_iff.mp hfault with h | ⟨i, hi, hfault⟩
    · cases hu.symm.trans h
    · obtain rfl : u = i := Except.ok.inj (hu.symm.trans hi)
      rcases Except.bind_eq_error_iff.mp hfault with hsend | ⟨⟨io, out⟩, -, h⟩
      · rcases sendData_error hsend with ⟨-, hclosed⟩ | he
        · exact hclosed hopen
        · cases he
      · cases h

/-- A client connects, logs in and starts. Of the replies to its login the first is sent and the
second has to wait; the next message for it has reached net IO. -/
def loginAndStart : List ServerIn :=
  [.event ⟨1, true, false, false⟩ ⟨⟨some 9, true, true⟩, [], []⟩, .netIoMsg, .game 0,
    .event ⟨3, true, false, false⟩
      ⟨⟨none, true, true⟩, [.data [5], .data ['L'.toUInt8, 10, 2, 97, 98]], []⟩, .netIoMsg, .game 0,
    .gameMsg, .gameMsg, .node, .send (.wrote 7), .node, .send .eagain,
    .event ⟨3, true, false, false⟩
      ⟨⟨none, true, true⟩, [.data [3], .data ['S'.toUInt8, 8, 1]], []⟩, .netIoMsg, .game 0,
    .gameMsg, .node]

theorem recipients_connected_run : ∃ ss s os, networkIoServiceStart 7 8 = .ok ss ∧
    (serverMachine oneByteProtobuf).Exec RecipientsStay
      (Server.start ss (Services.start (fun _ => zeroHeap) (fun _ => 7) 0)) loginAndStart os s ∧
    s.fromGame.length = 1 ∧
    ∀ w, (serverMachine oneByteProtobuf).step s (.send w) ≠ .error .assertFailed := by
  obtain ⟨ss, hstart, hrun⟩ : ∃ ss, networkIoServiceStart 7 8 = .ok ss ∧
      ((serverMachine oneByteProtobuf).run RecipientsStay
        (Server.start ss (Services.start (fun _ => zeroHeap) (fun _ => 7) 0)) loginAndStart).map
        (fun p => p.1.fromGame.length) = some 1 :=
    ⟨_, rfl, by decide +kernel⟩
  obtain ⟨s, os, hrun, hlen⟩ := (serverMachine oneByteProtobuf).exec_of_run_map hrun
  exact ⟨ss, s, os, hstart, hrun, hlen, (recipients_connected hstart hrun).2⟩

/-- **A recipient that has left.** A client connects, logs in and leaves while the reply to its
login is on its way: the slot of the recipient is free when net IO calls `send_data` for it. -/
theorem recipient_has_left : ∃ ss s os, networkIoServiceStart 7 8 = .ok ss ∧
    (serverMachine oneByteProtobuf).Exec Machine.any
      (Server.start ss (Services.start (fun _ => zeroHeap) (fun _ => 7) 0))
      [.event ⟨1, true, false, false⟩ ⟨⟨some 9, true, true⟩, [], []⟩, .netIoMsg, .game 0,
        .event ⟨3, true, false, false⟩
          ⟨⟨none, true, true⟩, [.data [5], .data ['L'.toUInt8, 10, 2, 97, 98]], []⟩,
        .netIoMsg, .game 0, .gameMsg,
        .event ⟨3, true, false, false⟩ ⟨⟨none, true, true⟩, [.data []], []⟩, .node] os s ∧
    s.sending.uidList = [3] ∧ (s.io.socketPool 3).type = .invalid ∧
    (serverMachine oneByteProtobuf).step s (.send (.wrote 7)) = .error .assertFailed := by
  obtain ⟨ss, hstart, hrun⟩ : ∃ ss, networkIoServiceStart 7 8 = .ok ss ∧
      ((serverMachine oneByteProtobuf).run Machine.any
        (Server.start ss (Services.start (fun _ => zeroHeap) (fun _ => 7) 0))
        [.event ⟨1, true, false, false⟩ ⟨⟨some 9, true, true⟩, [], []⟩, .netIoMsg, .game 0,
          .event ⟨3, true, false, false⟩
            ⟨⟨none, true, true⟩, [.data [5], .data ['L'.toUInt8, 10, 2, 97, 98]], []⟩,
          .netIoMsg, .game 0, .gameMsg,
          .event ⟨3, true, false, false⟩ ⟨⟨none, true, true⟩, [.data []], []⟩, .node]).map
        (fun p => (p.1.sending.uidList, (p.1.io.socketPool 3).type)) = some ([3], .invalid) :=
    ⟨_, rfl, by decide +kernel⟩
  obtain ⟨s, os, hrun, hobs⟩ := (serverMachine oneByteProtobuf).exec_of_run_map hrun
  obtain ⟨hids, htype⟩ := Prod.mk.inj hobs
  change s.sending.uidList = [3] at hids
  refine ⟨ss, s, os, hstart, hrun, hids, htype, ?_⟩
  have hindex : poolIndex 3 = .ok 3 := poolIndex_uid 3
  have hsend : sendData s.io 3 s.sending.buffer s.sending.size (.wrote 7) =
      .error .assertFailed := by
    rw [sendData, htype]
    rfl
  rw [serverMachine_eq_error]
  simp only [Server.step, Server.send, hids, hindex, hsend, bind, Except.bind]

end GameServer
