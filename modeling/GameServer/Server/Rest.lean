import GameServer.Library.Rest
import GameServer.Server.Agreement
import GameServer.Server.Frames
import Mathlib.Algebra.GroupWithZero.Nat

/-!
# The server comes to rest

Once no events come from the clients, the services work off what is in the queues between them. A
message of net IO makes one message of a game service or one order to close, a message of a game
service makes a bounded number of broadcasts, and a broadcast makes one `send_data` for each of its
recipients; a `send_data` that fails makes a message of net IO again, but it closes a connection.
So there is a bound on what is left to do: every round of the services lowers it, and an event
raises it by a constant.

## Main definitions

* `Worker`, `ServerIn.worker` : who takes a step, when no client does.
* `Server.HasWork`, `Server.AtRest` : what a service has to do, and that nothing is left to do.
* `Server.work` : the bound on the steps left.

## Main results

* `serverMachine_drains` : every step that finds something to do lowers the bound.
* `Server.work_le` : the bound after a run, by the number of its events.
* `server_comes_to_rest` : after that many rounds the server is at rest.
* `tables_agree_in_silence` : and its tables agree.
-/

namespace GameServer

/-- Who takes a step of the server, when no client does. -/
inductive Worker
  | node | send | netIoMsg | gameMsg
  | game (g : ServiceId)
deriving DecidableEq, Repr

/-- The worker of a step. -/
def ServerIn.worker : ServerIn → Option Worker
  | .event _ _ => none
  | .node => some .node
  | .send _ => some .send
  | .netIoMsg => some .netIoMsg
  | .gameMsg => some .gameMsg
  | .game g => some (.game g)

/-- What a worker finds something to do in. Net IO takes no node up while it is sending. -/
def Server.HasWork (s : Server) : Worker → Prop
  | .node => ¬s.Busy ∧ s.toNetIo ≠ []
  | .send => s.Busy
  | .netIoMsg => s.fromNetIo ≠ []
  | .gameMsg => s.fromGame ≠ []
  | .game g => s.services.next g ≠ none

/-- All queues are empty, and net IO is sending nothing. -/
structure Server.AtRest (s : Server) : Prop where
  sending : s.sending.uidList = []
  toNetIo : s.toNetIo = []
  fromGame : s.fromGame = []
  waiting : s.services.waiting = []
  fromNetIo : s.fromNetIo = []

/-- When no service has anything to do, all queues are empty. -/
theorem Server.atRest_of_idle {s : Server} (h : ∀ k, ¬s.HasWork k) : s.AtRest where
  sending := not_not.mp (h .send)
  toNetIo := not_not.mp fun hnode => h .node ⟨h .send, hnode⟩
  fromGame := not_not.mp (h .gameMsg)
  waiting := by
    cases hwaiting : s.services.waiting with
    | nil => rfl
    | cons p rest =>
      refine absurd (fun hnext => ?_) (h (.game p.1))
      have hpop : MergedQueues.pop Prod.fst p.1 s.services.waiting = some (p, rest) := by
        rw [hwaiting]
        exact if_pos rfl
      rw [Services.next, hpop] at hnext
      cases hnext
  fromNetIo := not_not.mp (h .netIoMsg)

/-! ### How much is left to do -/

/-- The steps that a node for net IO makes: it is taken up, and sent to its recipients. -/
def NetIoNode.work : NetIoNode → ℕ
  | .broadcast _ uidList _ => 1 + uidList.length
  | .serviceFull _ | .playerError _ => 1

/-- The steps that a broadcast makes: it is packed, and its node is sent. -/
def Broadcast.work (b : Broadcast) : ℕ := 2 + b.uidList.length

/-- A bound on the steps that a message of a game service makes: it is handled, and the most
broadcasts come from a login, to which there is one reply for every listed player and two more. -/
def gameMsgWork : ℕ := 1 + 3 * (maxPlayerEachMap + 2)

/-- A bound on the steps that a message of net IO makes. -/
def ioMsgWork : ℕ := 1 + gameMsgWork

/-- How many connections are open. -/
def SocketServer.openCount (ss : SocketServer) : ℕ := (Finset.univ.filter ss.Open).card

/-- A bound on the steps that are left to do, if no events come. -/
def Server.work (s : Server) : ℕ :=
  ioMsgWork * (s.io.openCount + s.fromNetIo.length) + gameMsgWork * s.services.waiting.length +
    (s.fromGame.map Broadcast.work).sum + (s.toNetIo.map NetIoNode.work).sum +
    s.sending.uidList.length

theorem SameSlots.openCount_eq {ss ss' : SocketServer} (h : SameSlots ss ss') :
    ss'.openCount = ss.openCount :=
  congrArg Finset.card (Finset.filter_congr fun u _ => h.open_iff u)

theorem SocketServer.openCount_le {ss ss' : SocketServer} (h : ∀ u, ss'.Open u → ss.Open u) :
    ss'.openCount ≤ ss.openCount :=
  Finset.card_le_card (Finset.monotone_filter_right _ fun u _ => h u)

/-- Closing a slot opens no other. -/
theorem closeFd_openCount_le (ss : SocketServer) (i : Uid) :
    (closeFd ss i).1.openCount ≤ ss.openCount :=
  SocketServer.openCount_le fun u hu => ((closeFd_open_iff ss i u).mp hu).1

/-- Closing an open slot leaves one connection less. -/
theorem closeFd_openCount_lt {ss : SocketServer} {i : Uid} (h : ss.Open i) :
    (closeFd ss i).1.openCount < ss.openCount := by
  refine Finset.card_lt_card ((Finset.ssubset_iff_of_subset fun u hu => ?_).mpr ⟨i, ?_, ?_⟩)
  · obtain ⟨-, hopen⟩ := Finset.mem_filter.mp hu
    exact Finset.mem_filter.mpr ⟨Finset.mem_univ u, ((closeFd_open_iff ss i u).mp hopen).1⟩
  · exact Finset.mem_filter.mpr ⟨Finset.mem_univ i, h⟩
  · intro hi
    exact ((closeFd_open_iff ss i i).mp (Finset.mem_filter.mp hi).2).2 rfl

/-- One event opens at most one connection and makes at most one message, and what closes a
connection opens none. -/
theorem SlotStep.openCount_le {ends fails : Uid → Prop} {ss ss' : SocketServer} {out : List IoMsg}
    (h : SlotStep ends fails ss ss' out) : ss'.openCount + out.length ≤ ss.openCount + 2 := by
  cases h with
  | quiet hsame =>
    have hle := SocketServer.openCount_le fun u => (hsame u).mp
    rw [List.length_nil]
    omega
  | frame u data hopen hsame =>
    have hle := SocketServer.openCount_le fun u => (hsame u).mp
    rw [List.length_singleton]
    omega
  | opened u hnew hset =>
    have hle : ss'.openCount ≤ ss.openCount + 1 := by
      refine le_trans (Finset.card_le_card fun v hv => ?_) (Finset.card_insert_le u _)
      rcases (hset v).mp (Finset.mem_filter.mp hv).2 with hopen | rfl
      · exact Finset.mem_insert_of_mem (Finset.mem_filter.mpr ⟨Finset.mem_univ v, hopen⟩)
      · exact Finset.mem_insert_self v _
    rw [List.length_singleton]
    omega
  | closed u _ _ hset | lost u _ _ hset =>
    have hle := SocketServer.openCount_le fun v hv => ((hset v).mp hv).1
    rw [List.length_singleton]
    omega

theorem length_recipients_le (gl : GameLogic) (m : MapId) :
    (gl.recipients m).length ≤ maxPlayerEachMap := by
  rw [GameLogic.recipients, List.length_take, Vector.length_toList]
  exact min_le_right _ _

theorem toMap_work_le (gl : GameLogic) (m : MapId) (ty : RspType) (rsp : Rsp) :
    (toMap gl m ty rsp).work ≤ 2 + maxPlayerEachMap := by
  have hlen := length_recipients_le gl m
  simp only [Broadcast.work, toMap, List.length_map]
  omega

theorem loginReplies_work_le (gl : GameLogic) (uid : Uid) :
    ((loginReplies gl uid).map Broadcast.work).sum ≤ 3 * (maxPlayerEachMap + 2) := by
  have hlen := length_recipients_le gl (gl.mapOf uid)
  have hreplies : (((gl.recipients (gl.mapOf uid)).map (enemyMsgTo gl uid)).map
      Broadcast.work).sum = 3 * (gl.recipients (gl.mapOf uid)).length := by
    rw [List.map_map]
    have hconst : Broadcast.work ∘ enemyMsgTo gl uid = fun _ => 3 := rfl
    rw [hconst, List.map_const', List.sum_replicate_nat, Nat.mul_comm]
  simp only [loginReplies, List.map_append, List.sum_append, hreplies, List.map_cons, List.map_nil,
    List.sum_cons, List.sum_nil, Broadcast.work, List.length_singleton]
  omega

/-- What a game service sends for one message. -/
theorem GameStep.work_lt {gl gl' : GameLogic} {msg : GameMsg} {out : List Broadcast}
    (h : GameStep gl msg gl' out) : (out.map Broadcast.work).sum < gameMsgWork := by
  cases h with
  | success | ignored => exact Nat.succ_pos _
  | login uid req =>
    have hle := loginReplies_work_le (gl.login uid req) uid
    simp only [gameMsgWork]
    omega
  | start uid =>
    have hle := toMap_work_le gl (gl.mapOf uid) .newEnemy (.newEnemy (gl.playerOf uid).uid
      (gl.playerOf uid).pointX (gl.playerOf uid).pointY)
    simp only [List.map_cons, List.map_nil, List.sum_cons, List.sum_nil, gameMsgWork]
    simp only [Broadcast.work, List.length_singleton] at hle ⊢
    omega
  | move uid req =>
    rw [List.map_singleton, List.sum_singleton]
    exact lt_of_le_of_lt (toMap_work_le ..) (by decide)
  | leave uid data => exact show 3 < gameMsgWork by decide
  | close uid l =>
    rw [List.map_singleton, List.sum_singleton]
    exact lt_of_le_of_lt (toMap_work_le ..) (by decide)

/-- What net logic makes of one message of net IO. -/
theorem RouteStep.work_lt {P : Protobuf} {r r' : Router} {msg : IoMsg} {out : List NetOut}
    (h : RouteStep P r msg r' out) :
    gameMsgWork * (out.filterMap NetOut.toGame).length +
      ((out.filterMap NetOut.toNetIo).map NetIoNode.work).sum < ioMsgWork := by
  have hsends (g : ServiceId) (m : GameMsg) :
      ((r.sendsTo g m).filterMap NetOut.toGame).length ≤ 1 := by
    have hwake : NetOut.toGame (.wakeGame (r.gamelogSocket g)) = none := rfl
    rw [Router.sendsTo, List.filterMap_cons, List.filterMap_cons, hwake, List.filterMap_nil]
    cases NetOut.toGame (.pushGame (r.que2Gamelogic g) m) with
    | none => exact Nat.zero_le 1
    | some p => exact le_rfl
  cases h with
  | routed uid g | forwarded uid len data req g | closed uid g =>
    rw [Router.sendsTo_toNetIo, List.map_nil, List.sum_nil]
    exact Nat.lt_succ_of_le (Nat.mul_le_mul_left gameMsgWork (hsends g _))
  | refused => exact show 1 < ioMsgWork by decide
  | dropped | closedUnrouted => exact Nat.succ_pos _

/-! ### Every step lowers it -/

namespace Server

variable {P : Protobuf} {s s' : Server}

/-- A `send_data` is for one of the recipients; where it makes a message, it closes a connection. -/
theorem send_work_lt {w : WriteRes} {id : ℤ} {ids : List ℤ} (hids : s.sending.uidList = id :: ids)
    (h : s.send w = .ok s') : s'.work < s.work := by
  simp only [send, hids] at h
  obtain ⟨i, -, h⟩ := Except.bind_eq_ok_iff.mp h
  obtain ⟨⟨io, out⟩, hsend, h⟩ := Except.bind_eq_ok_iff.mp h
  obtain rfl := Except.ok.inj h
  have hopen : io.openCount + out.length ≤ s.io.openCount := by
    obtain ⟨hi, ⟨hsame, rfl⟩ | ⟨-, rfl, rfl⟩⟩ := sendData_cases hsend
    · rw [List.length_nil, Nat.add_zero, hsame.openCount_eq]
    · rw [List.length_singleton]
      exact closeFd_openCount_lt hi
  have hlen : s.sending.uidList.length = ids.length + 1 := by rw [hids, List.length_cons]
  have hmul := Nat.mul_le_mul_left ioMsgWork hopen
  simp only [work, sent, List.length_append, Nat.mul_add] at hmul ⊢
  omega

/-- A node is taken up, and its recipients are left. -/
theorem node_work_lt {n : NetIoNode} {rest : List NetIoNode} (hidle : s.sending.uidList = [])
    (hnode : s.toNetIo = n :: rest) (h : s.node = .ok s') : s'.work < s.work := by
  have hsum : (s.toNetIo.map NetIoNode.work).sum = n.work + (rest.map NetIoNode.work).sum := by
    rw [hnode, List.map_cons, List.sum_cons]
  have hclose (uid : Uid) := Nat.mul_le_mul_left ioMsgWork (closeFd_openCount_le s.io uid)
  cases n with
  | serviceFull uid =>
    simp only [node, hnode] at h
    obtain rfl := Except.ok.inj h
    have hle := hclose uid
    simp only [work, NetIoNode.work, Nat.mul_add] at hsum hle ⊢
    omega
  | playerError uid =>
    simp only [node, hnode] at h
    obtain rfl := Except.ok.inj h
    have hle := hclose uid
    simp only [work, NetIoNode.work, Nat.mul_add] at hsum hle ⊢
    omega
  | broadcast size uidList buffer =>
    simp only [node, hnode] at h
    obtain rfl := Except.ok.inj h
    simp only [work, NetIoNode.work, hidle, List.length_nil] at hsum ⊢
    omega

theorem netIoMsg_work_lt {msg : IoMsg} {rest : List IoMsg} (hmsg : s.fromNetIo = msg :: rest)
    (h : s.netIoMsg P = .ok s') : s'.work < s.work := by
  simp only [netIoMsg, hmsg] at h
  obtain ⟨⟨sv, nodes⟩, hreceive, h⟩ := Except.bind_eq_ok_iff.mp h
  obtain rfl := Except.ok.inj h
  obtain ⟨r, out, hroute, rfl, rfl⟩ := Services.receive_eq_ok hreceive
  have hlt := hroute.work_lt
  have hlen : s.fromNetIo.length = rest.length + 1 := by rw [hmsg, List.length_cons]
  simp only [work, List.length_append, List.map_append, List.sum_append, hlen, Nat.mul_add] at hlt ⊢
  omega

theorem gameMsg_work_lt {b : Broadcast} {rest : List Broadcast} (hb : s.fromGame = b :: rest)
    (h : s.gameMsg P = .ok s') : s'.work < s.work := by
  simp only [gameMsg, hb] at h
  obtain ⟨out, hdispose, h⟩ := Except.bind_eq_ok_iff.mp h
  obtain ⟨⟨rsp, rspSize⟩, -, hout⟩ := Except.bind_eq_ok_iff.mp hdispose
  obtain rfl := Except.ok.inj hout
  obtain rfl := Except.ok.inj h
  have hsum : (s.fromGame.map Broadcast.work).sum = b.work + (rest.map Broadcast.work).sum := by
    rw [hb, List.map_cons, List.sum_cons]
  have hnode : (([.broadcast rspSize b.uidList rsp] : List NetIoNode).map NetIoNode.work).sum =
      1 + b.uidList.length := rfl
  have hb' : b.work = 2 + b.uidList.length := rfl
  have hnodes : List.filterMap NetOut.toNetIo
      [.pushNetIo (.broadcast rspSize b.uidList rsp), .wakeNetIo] =
      [.broadcast rspSize b.uidList rsp] := rfl
  simp only [work, hnodes, List.map_append, List.sum_append, hnode, hsum, hb']
  omega

theorem game_work_lt {g : ServiceId} (hnext : s.services.next g ≠ none) (h : s.game g = .ok s') :
    s'.work < s.work := by
  obtain ⟨⟨sv, out⟩, hhandle, h⟩ := Except.bind_eq_ok_iff.mp h
  obtain rfl := Except.ok.inj h
  rcases Services.handle_eq_ok hhandle with
    ⟨hnone, -⟩ | ⟨msg, rest, gl, hpop, -, hgame, rfl⟩
  · exact absurd hnone hnext
  · have hlt := hgame.work_lt
    have hlen : s.services.waiting.length = rest.length + 1 := MergedQueues.length_of_pop hpop
    simp only [work, Services.setGame, List.map_append, List.sum_append, hlen, Nat.mul_add] at hlt ⊢
    omega

end Server

namespace Server

variable {P : Protobuf} {s s' : Server} {i : ServerIn} {o : List Unit} {k : Worker}

/-- A service with nothing to do changes nothing. -/
theorem eq_of_idle (hi : i.worker = some k) (hidle : ¬s.HasWork k)
    (h : (serverMachine P).step s i = .ok (s', o)) : s' = s := by
  have hs := serverMachine_eq_ok h
  cases i <;> cases hi
  case node =>
    by_cases hbusy : s.Busy
    · rw [step, if_pos hbusy] at hs
      exact (Except.ok.inj hs).symm
    · have hnil : s.toNetIo = [] := not_not.mp fun hnode => hidle ⟨hbusy, hnode⟩
      simp only [step, if_neg hbusy, node, hnil] at hs
      exact (Except.ok.inj hs).symm
  case send w =>
    have hnil : s.sending.uidList = [] := not_not.mp hidle
    simp only [step, send, hnil] at hs
    exact (Except.ok.inj hs).symm
  case netIoMsg =>
    have hnil : s.fromNetIo = [] := not_not.mp hidle
    simp only [step, netIoMsg, hnil] at hs
    exact (Except.ok.inj hs).symm
  case gameMsg =>
    have hnil : s.fromGame = [] := not_not.mp hidle
    simp only [step, gameMsg, hnil] at hs
    exact (Except.ok.inj hs).symm
  case game g =>
    obtain ⟨⟨sv, out⟩, hhandle, hs⟩ := Except.bind_eq_ok_iff.mp hs
    obtain rfl := Except.ok.inj hs
    rcases Services.handle_eq_ok hhandle with ⟨-, rfl, rfl⟩ | ⟨msg, rest, gl, -, hnext, -⟩
    · rw [List.append_nil]
    · have hbusy : s.services.next g ≠ none := by
        rw [hnext]
        exact Option.some_ne_none msg
      exact absurd hbusy hidle

/-- **Step lemma.** A service with something to do lowers the bound. -/
theorem work_lt (hi : i.worker = some k) (hk : s.HasWork k)
    (h : (serverMachine P).step s i = .ok (s', o)) : s'.work < s.work := by
  have hs := serverMachine_eq_ok h
  cases i <;> cases hi
  case node =>
    obtain ⟨hfree, hnode⟩ := hk
    obtain ⟨n, rest, hnode⟩ := List.exists_cons_of_ne_nil hnode
    simp only [step, if_neg hfree] at hs
    exact node_work_lt (not_not.mp hfree) hnode hs
  case send w =>
    obtain ⟨id, ids, hids⟩ := List.exists_cons_of_ne_nil hk
    exact send_work_lt hids hs
  case netIoMsg =>
    obtain ⟨msg, rest, hmsg⟩ := List.exists_cons_of_ne_nil hk
    exact netIoMsg_work_lt hmsg hs
  case gameMsg =>
    obtain ⟨b, rest, hb⟩ := List.exists_cons_of_ne_nil hk
    exact gameMsg_work_lt hb hs
  case game g => exact game_work_lt hk hs

/-- With something to do, the bound is not zero. -/
theorem work_pos (hk : s.HasWork k) : 0 < s.work := by
  cases k with
  | node =>
    obtain ⟨n, rest, hnode⟩ := List.exists_cons_of_ne_nil hk.2
    have hn : 0 < n.work := by cases n <;> simp [NetIoNode.work]
    simp only [work, hnode, List.map_cons, List.sum_cons]
    omega
  | send =>
    have hlen : 0 < s.sending.uidList.length := List.length_pos_iff.mpr hk
    simp only [work]
    omega
  | netIoMsg =>
    have hlen : 0 < s.fromNetIo.length := List.length_pos_iff.mpr hk
    have hmul : 0 < ioMsgWork * (s.io.openCount + s.fromNetIo.length) :=
      Nat.mul_pos (by decide) (Nat.add_pos_right _ hlen)
    simp only [work]
    omega
  | gameMsg =>
    obtain ⟨b, rest, hb⟩ := List.exists_cons_of_ne_nil hk
    simp only [work, hb, List.map_cons, List.sum_cons, Broadcast.work]
    omega
  | game g =>
    have hlen : 0 < s.services.waiting.length := by
      refine List.length_pos_iff.mpr fun hnil => hk ?_
      rw [Services.next, hnil]
      rfl
    have hmul : 0 < gameMsgWork * s.services.waiting.length := Nat.mul_pos (by decide) hlen
    simp only [work]
    omega

end Server

/-- **The services work off their queues.** -/
theorem serverMachine_drains (P : Protobuf) :
    (serverMachine P).Drains ServerIn.worker Server.HasWork Server.work where
  idle := Server.eq_of_idle
  lower := Server.work_lt
  pos := Server.work_pos

/-! ### Events raise it by a constant -/

/-- A bound on what an event adds: a connection and a message of net IO. -/
def eventWork : ℕ := 2 * ioMsgWork

namespace Server

variable {P : Protobuf} {s s' : Server}

theorem event_work_le (hinv : FrameInv s) {i : ServerIn} {o : List Unit} (hi : i.worker = none)
    (h : (serverMachine P).step s i = .ok (s', o)) : s'.work ≤ s.work + eventWork := by
  cases serverMachine_step h with
  | idle => exact Nat.le_add_right _ _
  | event eve oc hfree hevent =>
    have hopen := (disposeEvent_step hinv.ids hevent).2.openCount_le
    have hmul := Nat.mul_le_mul_left ioMsgWork hopen
    simp only [work, eventWork, List.length_append, Nat.mul_add] at hmul ⊢
    omega
  | closed | begun | sent | routed | packed | handled => cases hi

/-- At the start there is nothing to do. -/
theorem work_start {listenFd netlogicFd : ℤ} {ss : SocketServer}
    (hstart : networkIoServiceStart listenFd netlogicFd = .ok ss)
    (heap : ServiceId → MapId → SlotId → Player) (gamelogSocket : ServiceId → ℤ)
    (gameServiceId : ℤ) :
    (start ss (Services.start heap gamelogSocket gameServiceId)).work = 0 := by
  have hclosed : ss.openCount = 0 := by
    rw [SocketServer.openCount, Finset.card_eq_zero, Finset.filter_eq_empty_iff]
    exact fun u _ => networkIoServiceStart_not_open hstart u
  simp only [work, start, hclosed]
  rfl

/-- **The bound after a run.** It is at most `eventWork` for each event. -/
theorem work_le {listenFd netlogicFd : ℤ} {ss : SocketServer}
    {heap : ServiceId → MapId → SlotId → Player} {gamelogSocket : ServiceId → ℤ}
    {gameServiceId : ℤ} {ok : Server → ServerIn → Prop} {is : List ServerIn} {os : List Unit}
    (hstart : networkIoServiceStart listenFd netlogicFd = .ok ss)
    (hrun : (serverMachine P).Exec ok
      (start ss (Services.start heap gamelogSocket gameServiceId)) is os s) :
    s.work ≤ eventWork * is.countP fun i => i.worker.isNone := by
  have hle := (serverMachine_drains P).work_le
    (fun hinv h => hinv.step (serverMachine_step h)) (fun hinv => event_work_le hinv) hrun
    (FrameInv.init hstart heap gamelogSocket gameServiceId)
  rw [work_start hstart, Nat.zero_add] at hle
  exact hle

end Server

/-- **The server comes to rest.** After every run, when no more events come from the clients, and
each of the services comes up in every round, all queues are empty after at most `eventWork` rounds
for each event that has come, whatever the order of the services and whichever writes fail. -/
theorem server_comes_to_rest {P : Protobuf} {listenFd netlogicFd : ℤ} {ss : SocketServer}
    {heap : ServiceId → MapId → SlotId → Player} {gamelogSocket : ServiceId → ℤ}
    {gameServiceId : ℤ} {is : List ServerIn} {rounds : List (List ServerIn)} {os os' : List Unit}
    {s s' : Server}
    (hstart : networkIoServiceStart listenFd netlogicFd = .ok ss)
    (hrun : (serverMachine P).Exec Machine.any
      (Server.start ss (Services.start heap gamelogSocket gameServiceId)) is os s)
    (hsilent : (serverMachine P).Exec Machine.any s rounds.flatten os' s')
    (hrounds : ∀ r ∈ rounds, IsRound ServerIn.worker r)
    (hlen : (eventWork * is.countP fun i => i.worker.isNone) ≤ rounds.length) : s'.AtRest :=
  Server.atRest_of_idle <| (serverMachine_drains P).rest_of_rounds hsilent hrounds <|
    (Server.work_le hstart hrun).trans hlen

/-- A round of the services. -/
def oneRound : List ServerIn :=
  [.netIoMsg, .game 0, .game 1, .game 2, .game 3, .gameMsg, .node, .send (.wrote 1)]

theorem isRound_oneRound : IsRound ServerIn.worker oneRound := by
  refine ⟨by decide, fun k => ?_⟩
  cases k with
  | node => exact ⟨.node, by decide, rfl⟩
  | send => exact ⟨.send (.wrote 1), by decide, rfl⟩
  | netIoMsg => exact ⟨.netIoMsg, by decide, rfl⟩
  | gameMsg => exact ⟨.gameMsg, by decide, rfl⟩
  | game g =>
    refine ⟨.game g, ?_, rfl⟩
    fin_cases g <;> decide

/-- A client connects and leaves before net logic has heard of it. -/
def leavesAtOnce : List ServerIn :=
  [.event ⟨1, true, false, false⟩ ⟨⟨some 9, true, true⟩, [], []⟩,
    .event ⟨3, true, false, false⟩ ⟨⟨none, true, true⟩, [.data []], []⟩]

theorem server_comes_to_rest_run : ∃ ss s os s' os', networkIoServiceStart 7 8 = .ok ss ∧
    (serverMachine oneByteProtobuf).Exec Machine.any
      (Server.start ss (Services.start (fun _ => zeroHeap) (fun _ => 7) 0)) leavesAtOnce os s ∧
    s.fromNetIo = [.success 3, .close 3] ∧
    (serverMachine oneByteProtobuf).Exec Machine.any s
      (List.replicate 152 oneRound).flatten os' s' ∧
    s'.services.router.onlinePlayer 0 = 0 ∧ s'.AtRest := by
  obtain ⟨ss, hstart, hrun⟩ : ∃ ss, networkIoServiceStart 7 8 = .ok ss ∧
      ((serverMachine oneByteProtobuf).run Machine.any
        (Server.start ss (Services.start (fun _ => zeroHeap) (fun _ => 7) 0)) leavesAtOnce).map
          (fun p => (p.1.fromNetIo, ((serverMachine oneByteProtobuf).run Machine.any p.1
            (List.replicate 152 oneRound).flatten).map
              fun q => q.1.services.router.onlinePlayer 0)) =
        some ([.success 3, .close 3], some 0) :=
    ⟨_, rfl, by decide +kernel⟩
  obtain ⟨s, os, hrun, hobs⟩ := (serverMachine oneByteProtobuf).exec_of_run_map hrun
  obtain ⟨hio, hsilent⟩ := Prod.mk.inj hobs
  obtain ⟨s', os', hsilent, honline⟩ := (serverMachine oneByteProtobuf).exec_of_run_map hsilent
  refine ⟨ss, s, os, s', os', hstart, hrun, hio, hsilent, honline,
    server_comes_to_rest hstart hrun hsilent (fun r hr => ?_) ?_⟩
  · rw [List.eq_of_mem_replicate hr]
    exact isRound_oneRound
  · rw [List.length_replicate]
    decide

/-- **The tables agree once the clients are silent.** After a run in which no write to a client
fails, the messages of each uid are handled in order and every registration succeeds, when no more
events come and the services go on like that for at most `eventWork` rounds for each event that has
come, the server is at rest and its tables agree. -/
theorem tables_agree_in_silence {P : Protobuf} {listenFd netlogicFd : ℤ} {ss : SocketServer}
    {heap : ServiceId → MapId → SlotId → Player} {gamelogSocket : ServiceId → ℤ}
    {gameServiceId : ℤ} {is : List ServerIn} {rounds : List (List ServerIn)} {os os' : List Unit}
    {s s' : Server} {owner owner' : Uid → Option ServiceId}
    (hstart : networkIoServiceStart listenFd netlogicFd = .ok ss)
    (hrun : (ownerMachine P).Exec KeepsInStep
      (Server.start ss (Services.start heap gamelogSocket gameServiceId), fun _ => none) is os
      (s, owner))
    (hsilent : (ownerMachine P).Exec KeepsInStep (s, owner) rounds.flatten os' (s', owner'))
    (hrounds : ∀ r ∈ rounds, IsRound ServerIn.worker r)
    (hlen : (eventWork * is.countP fun i => i.worker.isNone) ≤ rounds.length) :
    s'.AtRest ∧ TablesAgree s' := by
  have hwork : s.work ≤ rounds.length := (Server.work_le hstart hrun.withoutGhost).trans hlen
  have hrest : s'.AtRest := Server.atRest_of_idle
    ((serverMachine_drains P).rest_of_rounds hsilent.withoutGhost hrounds hwork)
  have hinv : InStep s' owner' := InStep.run hstart (hrun.append hsilent)
  exact ⟨hrest, hinv.tablesAgree hrest.fromNetIo hrest.waiting⟩

/-- Three clients connect, and one of them leaves. -/
def threeConnect : List ServerIn :=
  [.event ⟨1, true, false, false⟩ ⟨⟨some 9, true, true⟩, [], []⟩,
    .event ⟨1, true, false, false⟩ ⟨⟨some 10, true, true⟩, [], []⟩,
    .event ⟨3, true, false, false⟩ ⟨⟨none, true, true⟩, [.data []], []⟩,
    .event ⟨1, true, false, false⟩ ⟨⟨some 11, true, true⟩, [], []⟩]

theorem tables_agree_in_silence_run : ∃ ss s owner os s' owner' os',
    networkIoServiceStart 7 8 = .ok ss ∧
    (ownerMachine oneByteProtobuf).Exec KeepsInStep
      (Server.start ss (Services.start (fun _ => zeroHeap) (fun _ => 7) 0), fun _ => none)
      threeConnect os (s, owner) ∧
    (ownerMachine oneByteProtobuf).Exec KeepsInStep (s, owner)
      (List.replicate 304 oneRound).flatten os' (s', owner') ∧
    s'.services.router.onlinePlayer 0 = 2 ∧ s'.AtRest ∧ TablesAgree s' := by
  obtain ⟨ss, hstart, hrun⟩ : ∃ ss, networkIoServiceStart 7 8 = .ok ss ∧
      ((ownerMachine oneByteProtobuf).run KeepsInStep
        (Server.start ss (Services.start (fun _ => zeroHeap) (fun _ => 7) 0), fun _ => none)
        threeConnect).map
          (fun p => ((ownerMachine oneByteProtobuf).run KeepsInStep p.1
            (List.replicate 304 oneRound).flatten).map
              fun q => q.1.1.services.router.onlinePlayer 0) =
        some (some 2) :=
    ⟨_, rfl, by decide +kernel⟩
  obtain ⟨⟨s, owner⟩, os, hrun, hsilent⟩ :=
    (ownerMachine oneByteProtobuf).exec_of_run_map hrun
  obtain ⟨⟨s', owner'⟩, os', hsilent, honline⟩ :=
    (ownerMachine oneByteProtobuf).exec_of_run_map hsilent
  refine ⟨ss, s, owner, os, s', owner', os', hstart, hrun, hsilent, honline,
    tables_agree_in_silence hstart hrun hsilent (fun r hr => ?_) ?_⟩
  · rw [List.eq_of_mem_replicate hr]
    exact isRound_oneRound
  · rw [List.length_replicate]
    decide

end GameServer
