import GameServer.NetIo.Service
import GameServer.Server.Services

/-!
# The whole server

Net IO, net logic and the game services with the queues between them. A step is one event or one
node handled by net IO, one `send_data` of a broadcast that net IO is sending, one message handled
by net logic from either of its queues, or one message handled by a game service. A service whose
queue is empty does nothing, and net IO finishes a broadcast before it goes on.

The game services share one queue to net logic, and `send_data` is a step of its own so that the
steps of the other services come between the recipients of a broadcast; `sends_broadcastUserMsg`
relates these steps to the loop of `broadcast_user_msg`.

## Main definitions

* `Server`, `ServerIn`, `serverMachine`.
* `ServerStep` : what a step does, in terms of the steps of the single services.

## Main results

* `serverMachine_step` : every step of the machine is a `ServerStep`.
* `sends_broadcastUserMsg` : the single sends make up `broadcast_user_msg`.
-/

namespace GameServer

/-- A broadcast that net IO is sending: the frame and the recipients left. -/
structure Sending where
  buffer : List UInt8
  size : ℤ
  uidList : List ℤ

/-- The services and the queues `NETIO_2_NETLOGIC`, `GAMELOGIC_2_NETLOGIC` and
`NETLOGIC_2_NETIO`. -/
structure Server where
  io : SocketServer
  sending : Sending
  services : Services
  fromNetIo : List IoMsg
  fromGame : List Broadcast
  toNetIo : List NetIoNode

/-- What happens next: net IO handles an event of its epoll set, or a node from net logic, or calls
`send_data` for the next recipient; net logic handles a message of net IO or of the game services;
a game service handles a message. -/
inductive ServerIn
  | event (eve : Event Uid) (oc : Outcomes)
  | node
  | send (w : WriteRes)
  | netIoMsg
  | gameMsg
  | game (g : ServiceId)
deriving DecidableEq, Repr

namespace Server

/-- The server when the loops of its services start. -/
def start (io : SocketServer) (services : Services) : Server :=
  ⟨io, ⟨[], 0, []⟩, services, [], [], []⟩

/-- Net IO handles an event. -/
def event (s : Server) (eve : Event Uid) (oc : Outcomes) : Except Fault Server := do
  let (io, out) ← disposeEvent s.io eve oc
  .ok { s with io := io, fromNetIo := s.fromNetIo ++ out }

/-- Net IO handles a node; a broadcast is only begun. -/
def node (s : Server) : Except Fault Server :=
  match s.toNetIo with
  | [] => .ok s
  | .serviceFull uid :: rest => .ok { s with io := (closeFd s.io uid).1, toNetIo := rest }
  | .playerError uid :: rest => .ok { s with io := (closeFd s.io uid).1, toNetIo := rest }
  | .broadcast size uidList buffer :: rest =>
    .ok { s with sending := ⟨buffer, size, uidList⟩, toNetIo := rest }

/-- Net IO has reached the pool `io` by a send, with the recipients `ids` left. -/
def sent (s : Server) (io : SocketServer) (ids : List ℤ) (out : List IoMsg) : Server :=
  { s with io := io, sending := { s.sending with uidList := ids }, fromNetIo := s.fromNetIo ++ out }

/-- Net IO calls `send_data` for the next recipient. -/
def send (s : Server) (w : WriteRes) : Except Fault Server :=
  match s.sending.uidList with
  | [] => .ok s
  | id :: ids => do
    let i ← poolIndex id
    let (io, out) ← sendData s.io i s.sending.buffer s.sending.size w
    .ok (s.sent io ids out)

/-- Net logic handles a message of net IO. -/
def netIoMsg (P : Protobuf) (s : Server) : Except Fault Server :=
  match s.fromNetIo with
  | [] => .ok s
  | msg :: rest => do
    let (sv, nodes) ← s.services.receive P msg
    .ok { s with services := sv, fromNetIo := rest, toNetIo := s.toNetIo ++ nodes }

/-- Net logic handles a message of the game services. -/
def gameMsg (P : Protobuf) (s : Server) : Except Fault Server :=
  match s.fromGame with
  | [] => .ok s
  | b :: rest => do
    let out ← disposeGameServiceQue P b
    .ok { s with fromGame := rest, toNetIo := s.toNetIo ++ out.filterMap NetOut.toNetIo }

/-- The game service `g` handles a message. -/
def game (s : Server) (g : ServiceId) : Except Fault Server := do
  let (sv, out) ← s.services.handle g
  .ok { s with services := sv, fromGame := s.fromGame ++ out }

/-- Net IO is sending a broadcast. -/
def Busy (s : Server) : Prop := s.sending.uidList ≠ []

instance (s : Server) : Decidable s.Busy := inferInstanceAs (Decidable (_ ≠ _))

/-- One step of the server. -/
def step (P : Protobuf) (s : Server) : ServerIn → Except Fault Server
  | .event eve oc => if s.Busy then .ok s else s.event eve oc
  | .node => if s.Busy then .ok s else s.node
  | .send w => s.send w
  | .netIoMsg => s.netIoMsg P
  | .gameMsg => s.gameMsg P
  | .game g => s.game g

end Server

/-- The server as a machine. -/
def serverMachine (P : Protobuf) : Machine Server ServerIn Unit Fault where
  step s i := (s.step P i).map fun s' => (s', [])

/-- The steps of the server. -/
inductive ServerStep (P : Protobuf) (s : Server) : ServerIn → Server → Prop
  | idle (i : ServerIn) : ServerStep P s i s
  | event (eve : Event Uid) (oc : Outcomes) {io : SocketServer} {out : List IoMsg}
      (hfree : ¬s.Busy) (h : disposeEvent s.io eve oc = .ok (io, out)) :
      ServerStep P s (.event eve oc) { s with io := io, fromNetIo := s.fromNetIo ++ out }
  | closed (uid : Uid) {rest : List NetIoNode} (hfree : ¬s.Busy)
      (hnode : s.toNetIo = .serviceFull uid :: rest ∨ s.toNetIo = .playerError uid :: rest) :
      ServerStep P s .node { s with io := (closeFd s.io uid).1, toNetIo := rest }
  | begun (size : ℤ) (uidList : List ℤ) (buffer : List UInt8) {rest : List NetIoNode}
      (hfree : ¬s.Busy) (hnode : s.toNetIo = .broadcast size uidList buffer :: rest) :
      ServerStep P s .node { s with sending := ⟨buffer, size, uidList⟩, toNetIo := rest }
  | sent (w : WriteRes) {id : ℤ} {ids : List ℤ} {i : Uid} {io : SocketServer} {out : List IoMsg}
      (hids : s.sending.uidList = id :: ids) (hi : poolIndex id = .ok i)
      (hsend : sendData s.io i s.sending.buffer s.sending.size w = .ok (io, out)) :
      ServerStep P s (.send w) (s.sent io ids out)
  | routed (msg : IoMsg) {rest : List IoMsg} {r : Router} {out : List NetOut}
      (hmsg : s.fromNetIo = msg :: rest) (hroute : RouteStep P s.services.router msg r out) :
      ServerStep P s .netIoMsg { s with
        services := { s.services with
          router := r, waiting := s.services.waiting ++ out.filterMap NetOut.toGame }
        fromNetIo := rest
        toNetIo := s.toNetIo ++ out.filterMap NetOut.toNetIo }
  | packed (b : Broadcast) {rest : List Broadcast} {rsp : List UInt8} {rspSize : ℤ}
      (hb : s.fromGame = b :: rest)
      (hpack : rspDataPack P b.protoType b.buffer = .ok (rsp, rspSize)) :
      ServerStep P s .gameMsg { s with
        fromGame := rest, toNetIo := s.toNetIo ++ [.broadcast rspSize b.uidList rsp] }
  | handled (g : ServiceId) (msg : GameMsg) {rest : List (ServiceId × GameMsg)} {gl : GameLogic}
      {out : List Broadcast}
      (hpop : MergedQueues.pop Prod.fst g s.services.waiting = some ((g, msg), rest))
      (hnext : s.services.next g = some msg) (hgame : GameStep (s.services.game g) msg gl out) :
      ServerStep P s (.game g) { s with
        services := s.services.setGame g gl rest, fromGame := s.fromGame ++ out }

theorem serverMachine_eq_ok {P : Protobuf} {s s' : Server} {i : ServerIn} {o : List Unit}
    (h : (serverMachine P).step s i = .ok (s', o)) : s.step P i = .ok s' := by
  obtain ⟨t, hs, hpair⟩ := Except.map_eq_ok_iff.mp h
  rw [hs, (Prod.mk.inj hpair).1]

theorem serverMachine_eq_error {P : Protobuf} {s : Server} {i : ServerIn} {e : Fault} :
    (serverMachine P).step s i = .error e ↔ s.step P i = .error e :=
  Except.map_eq_error_iff

/-- **Inversion.** A step of the machine is a step of the server. -/
theorem serverMachine_step {P : Protobuf} {s s' : Server} {i : ServerIn} {o : List Unit}
    (h : (serverMachine P).step s i = .ok (s', o)) : ServerStep P s i s' := by
  have hs := serverMachine_eq_ok h
  cases i with
  | event eve oc =>
    simp only [Server.step] at hs
    split_ifs at hs with hbusy
    · obtain rfl := Except.ok.inj hs
      exact .idle _
    · obtain ⟨⟨io, out⟩, hevent, hs⟩ := Except.bind_eq_ok_iff.mp hs
      obtain rfl := Except.ok.inj hs
      exact .event eve oc hbusy hevent
  | node =>
    simp only [Server.step] at hs
    split_ifs at hs with hbusy
    · obtain rfl := Except.ok.inj hs
      exact .idle _
    · cases hnode : s.toNetIo with
      | nil =>
        simp only [Server.node, hnode] at hs
        obtain rfl := Except.ok.inj hs
        exact .idle _
      | cons n rest =>
        cases n with
        | serviceFull uid =>
          simp only [Server.node, hnode] at hs
          obtain rfl := Except.ok.inj hs
          exact .closed uid hbusy (Or.inl hnode)
        | playerError uid =>
          simp only [Server.node, hnode] at hs
          obtain rfl := Except.ok.inj hs
          exact .closed uid hbusy (Or.inr hnode)
        | broadcast size uidList buffer =>
          simp only [Server.node, hnode] at hs
          obtain rfl := Except.ok.inj hs
          exact .begun size uidList buffer hbusy hnode
  | send w =>
    cases hids : s.sending.uidList with
    | nil =>
      simp only [Server.step, Server.send, hids] at hs
      obtain rfl := Except.ok.inj hs
      exact .idle _
    | cons id ids =>
      simp only [Server.step, Server.send, hids] at hs
      obtain ⟨i, hi, hs⟩ := Except.bind_eq_ok_iff.mp hs
      obtain ⟨⟨io, out⟩, hsend, hs⟩ := Except.bind_eq_ok_iff.mp hs
      obtain rfl := Except.ok.inj hs
      exact .sent w hids hi hsend
  | netIoMsg =>
    cases hmsg : s.fromNetIo with
    | nil =>
      simp only [Server.step, Server.netIoMsg, hmsg] at hs
      obtain rfl := Except.ok.inj hs
      exact .idle _
    | cons msg rest =>
      simp only [Server.step, Server.netIoMsg, hmsg] at hs
      obtain ⟨⟨sv, nodes⟩, hreceive, hs⟩ := Except.bind_eq_ok_iff.mp hs
      obtain rfl := Except.ok.inj hs
      obtain ⟨r, out, hroute, rfl, rfl⟩ := Services.receive_eq_ok hreceive
      exact .routed msg hmsg hroute
  | gameMsg =>
    cases hb : s.fromGame with
    | nil =>
      simp only [Server.step, Server.gameMsg, hb] at hs
      obtain rfl := Except.ok.inj hs
      exact .idle _
    | cons b rest =>
      simp only [Server.step, Server.gameMsg, hb] at hs
      obtain ⟨out, hdispose, hs⟩ := Except.bind_eq_ok_iff.mp hs
      obtain ⟨⟨rsp, rspSize⟩, hpack, hout⟩ := Except.bind_eq_ok_iff.mp hdispose
      obtain rfl := Except.ok.inj hout
      obtain rfl := Except.ok.inj hs
      exact .packed b hb hpack
  | game g =>
    obtain ⟨⟨sv, out⟩, hhandle, hs⟩ := Except.bind_eq_ok_iff.mp hs
    obtain rfl := Except.ok.inj hs
    rcases Services.handle_eq_ok hhandle with
      ⟨-, rfl, rfl⟩ | ⟨msg, rest, gl, hpop, hnext, hgame, rfl⟩
    · simp only [List.append_nil]
      exact .idle _
    · exact .handled g msg hpop hnext hgame

theorem Server.sent_sent (s : Server) (io io' : SocketServer) (ids ids' : List ℤ)
    (out out' : List IoMsg) :
    (s.sent io ids out).sent io' ids' out' = s.sent io' ids' (out ++ out') := by
  simp only [Server.sent, List.append_assoc]

theorem serverMachine_send {P : Protobuf} {s : Server} {w : WriteRes} {id : ℤ} {ids : List ℤ}
    {i : Uid} {io : SocketServer} {out : List IoMsg} (hids : s.sending.uidList = id :: ids)
    (hi : poolIndex id = .ok i)
    (hsend : sendData s.io i s.sending.buffer s.sending.size w = .ok (io, out)) :
    (serverMachine P).step s (.send w) = .ok (s.sent io ids out, []) := by
  simp only [serverMachine, Server.step, Server.send, hids, hi, hsend, bind, Except.bind,
    Except.map]

/-- **The single sends make up `broadcast_user_msg`.** -/
theorem sends_broadcastUserMsg {P : Protobuf} {s : Server} {ids : List ℤ} {ws : List WriteRes}
    {io : SocketServer} {out : List IoMsg} (hids : s.sending.uidList = ids)
    (hlen : ws.length = ids.length)
    (h : broadcastUserMsg s.io s.sending.buffer s.sending.size ids ws = .ok (io, out)) :
    (serverMachine P).Exec Machine.any s (ws.map .send) [] (s.sent io [] out) := by
  induction ids generalizing s ws out with
  | nil =>
    obtain rfl := List.length_eq_zero_iff.mp hlen
    obtain ⟨rfl, rfl⟩ := Prod.mk.inj (Except.ok.inj h)
    have hsame : s.sent s.io [] [] = s := by
      rw [Server.sent, ← hids, List.append_nil]
    rw [hsame]
    exact .init
  | cons id ids ih =>
    cases ws with
    | nil => cases h
    | cons w ws =>
      obtain ⟨i, hi, h⟩ := Except.bind_eq_ok_iff.mp h
      obtain ⟨⟨io₁, out₁⟩, hsend, h⟩ := Except.bind_eq_ok_iff.mp h
      obtain ⟨⟨io₂, out₂⟩, hrest, h⟩ := Except.bind_eq_ok_iff.mp h
      obtain ⟨rfl, rfl⟩ := Prod.mk.inj (Except.ok.inj h)
      have hfirst : (serverMachine P).Exec Machine.any s [.send w] [] (s.sent io₁ ids out₁) :=
        .single trivial (serverMachine_send hids hi hsend)
      have hlater := ih (s := s.sent io₁ ids out₁) rfl (Nat.succ.inj hlen) hrest
      rw [Server.sent_sent] at hlater
      exact hfirst.append hlater

end GameServer
