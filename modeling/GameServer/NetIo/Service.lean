import GameServer.EventLoop

/-!
# The net IO service

What net IO does with one event of the epoll set and with one node of the queue from net logic.
The outcomes of the system calls are arguments; a call that they do not cover is still waiting.
`network_io_service_loop` pushes a message to net logic for each result of `socket_server_event`;
`send_buffer` and `send_data` push the reports of write errors themselves.

## Main definitions

* `readn`, `disposeReadmessage`, `disposeAccept`, `socketServerStart` : reading and accepting.
* `disposeEvent`, `disposeQueueNode` : one event, one node.
* `networkIoServiceStart` : the steps before the loop.
* `netIoMachine` : the service as a machine, whose outputs also record the closes that net logic
  has ordered.
-/

namespace GameServer

/-! ### Reading -/

/-- What `read` returns: bytes (none at the end of the stream), `EINTR`, `EAGAIN`, or another
error. -/
inductive ReadRes
  | data (bytes : List UInt8) | eintr | eagain | fail
deriving DecidableEq, Repr

/-- `readn` on the outcomes of its `read` calls: the bytes read, if it succeeds, and the outcomes
left. A call never returns more than was asked for. -/
def readn (nleft : ℕ) : List ReadRes → Except Fault (Option (List UInt8) × List ReadRes)
  | [] => if nleft = 0 then .ok (some [], []) else .error .blocked
  | r :: rs =>
    if nleft = 0 then .ok (some [], r :: rs)
    else
      match r with
      | .eintr => readn nleft rs
      | .eagain => readn nleft rs
      | .fail => .ok (none, rs)
      | .data bytes =>
        let got := bytes.take nleft
        if got = [] then .ok (none, rs)
        else do
          let (rest, rs') ← readn (nleft - got.length) rs
          .ok (rest.map (got ++ ·), rs')

/-- The result of a read that failed: the slot is closed, and its id is that of the result. -/
def readError (ss : SocketServer) (i : Uid) : SocketServer × List IoMsg :=
  let (ss₁, id) := closeFd ss i
  (ss₁, (id.map IoMsg.close).toList)

/-- `dispose_readmessage`: a length byte and a frame of that length. -/
def disposeReadmessage (ss : SocketServer) (i : Uid) (reads : List ReadRes) :
    Except Fault (SocketServer × List IoMsg) := do
  let (lenByte, reads₁) ← readn 1 reads
  match lenByte with
  | none => .ok (readError ss i)
  | some b =>
    let len := (b.headD 0).toNat
    let (body, _) ← readn len reads₁
    match body with
    | none => .ok (readError ss i)
    | some buffer => .ok (ss, [.data (ss.socketPool i).id len buffer])

/-! ### Accepting -/

/-- The outcomes of `accept`, `set_nonblock` and `epoll_add` for one client. -/
structure AcceptRes where
  fd : Option ℤ
  nonblock : Bool
  epollOk : Bool
deriving DecidableEq, Repr

/-- `dispose_accept`: the slot of the new client, if there is one. -/
def disposeAccept (ss : SocketServer) (res : AcceptRes) :
    Except Fault (SocketServer × Option Uid) :=
  match res.fd with
  | none => .ok (ss, none)
  | some clientFd =>
    let (id, ss₁) := applyId ss
    if res.nonblock = false then .ok (ss₁, none)
    else do
      let (i, ss₂) ← applySocket ss₁ clientFd id
      .ok (ss₂.setSocket i { ss₂.socketPool i with type := .connectNotadd }, some i)

/-- `socket_server_start`: whether the slot has been added to the epoll set. -/
def socketServerStart (ss : SocketServer) (i : Uid) (epollOk : Bool) : SocketServer × Bool :=
  let s := ss.socketPool i
  match s.type with
  | .connectNotadd =>
    match epollAdd ss s.fd i epollOk with
    | none => (ss.setSocket i { s with type := .invalid }, false)
    | some ss₁ => (ss₁.setSocket i { s with type := .connectAdd }, true)
  | .listenNotadd =>
    match epollAdd ss s.fd i epollOk with
    | none => (ss.setSocket i { s with type := .invalid }, false)
    | some ss₁ => (ss₁.setSocket i { s with type := .listenAdd }, true)
  | _ => (ss, false)

/-! ### Events and nodes -/

/-- The outcomes of the system calls made for one event. -/
structure Outcomes where
  accept : AcceptRes
  reads : List ReadRes
  writes : List WriteRes
deriving DecidableEq, Repr

/-- The switch of `socket_server_event` over the type of the slot, with the push of the result.
An event of the connection to net logic only sets the queue flag. -/
def disposeEvent (ss : SocketServer) (eve : Event Uid) (oc : Outcomes) :
    Except Fault (SocketServer × List IoMsg) :=
  match (ss.socketPool eve.sP).type with
  | .listenAdd => do
    let (ss₁, id) ← disposeAccept ss oc.accept
    match id with
    | none => .ok (ss₁, [])
    | some i =>
      let (ss₂, success) := socketServerStart ss₁ i oc.accept.epollOk
      .ok (ss₂, if success then [.success i] else [])
  | .connectAdd =>
    if eve.read then disposeReadmessage ss eve.sP oc.reads
    else if eve.write then sendBuffer ss eve.sP oc.writes
    else .ok (ss, [])
  | _ => .ok (ss, [])

/-- `broadcast_user_msg`: the recipients in order, with an outcome for the `write` of each. -/
def broadcastUserMsg (ss : SocketServer) (msgBuf : List UInt8) (requestLen : ℤ) :
    List ℤ → List WriteRes → Except Fault (SocketServer × List IoMsg)
  | [], _ => .ok (ss, [])
  | _ :: _, [] => .error .blocked
  | id :: ids, w :: ws => do
    let i ← poolIndex id
    let (ss₁, out₁) ← sendData ss i msgBuf requestLen w
    let (ss₂, out₂) ← broadcastUserMsg ss₁ msgBuf requestLen ids ws
    .ok (ss₂, out₁ ++ out₂)

/-- What net IO does that the other services see: the messages pushed to net logic, and the slots
closed on its order. -/
inductive NetIoOut
  | push (msg : IoMsg)
  | order (uid : Uid)
deriving DecidableEq, Repr

/-- `dispose_queue_event` of net IO on a node of the queue from net logic. -/
def disposeQueueNode (ss : SocketServer) (node : NetIoNode) (writes : List WriteRes) :
    Except Fault (SocketServer × List NetIoOut) :=
  match node with
  | .serviceFull uid => .ok ((closeFd ss uid).1, [.order uid])
  | .playerError uid => .ok ((closeFd ss uid).1, [])
  | .broadcast size uidList buffer => do
    let (ss₁, out) ← broadcastUserMsg ss buffer size uidList writes
    .ok (ss₁, out.map .push)

/-! ### The service -/

/-- `socket_server_listen`: a slot for the listening socket. -/
def socketServerListen (ss : SocketServer) (listenFd : ℤ) :
    Except Fault (Uid × SocketServer) := do
  let (id, ss₁) := applyId ss
  let (i, ss₂) ← applySocket ss₁ listenFd id
  .ok (i, ss₂.setSocket i { ss₂.socketPool i with type := .listenNotadd })

/-- `wait_netlogic_service_connect`: a slot for the connection to net logic, in the epoll set. -/
def waitNetlogicServiceConnect (ss : SocketServer) (socket : ℤ) : Except Fault SocketServer := do
  let (id, ss₁) := applyId ss
  let (i, ss₂) ← applySocket ss₁ socket id
  .ok ((ss₂.setEpoll socket (some ⟨i, false⟩)).setSocket i
    { ss₂.socketPool i with type := .netlogic })

/-- The part of `network_io_service_loop` before its loop, when its calls succeed. -/
def networkIoServiceStart (listenFd netlogicFd : ℤ) : Except Fault SocketServer := do
  let (listenId, ss₁) ← socketServerListen socketServerCreate listenFd
  let ss₂ ← waitNetlogicServiceConnect ss₁ netlogicFd
  .ok (socketServerStart ss₂ listenId true).1

/-- What net IO handles: an event of the epoll set, or a node of the queue from net logic. -/
inductive NetIoIn
  | event (eve : Event Uid) (oc : Outcomes)
  | node (node : NetIoNode) (writes : List WriteRes)
deriving DecidableEq, Repr

/-- The net IO service as a machine. -/
def netIoMachine : Machine SocketServer NetIoIn NetIoOut Fault where
  step ss i :=
    match i with
    | .event eve oc => do
      let (ss₁, out) ← disposeEvent ss eve oc
      .ok (ss₁, out.map .push)
    | .node node writes => disposeQueueNode ss node writes

end GameServer
