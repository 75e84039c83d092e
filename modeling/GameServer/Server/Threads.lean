import GameServer.EventLoop
import GameServer.Game.Service
import GameServer.Library.MergedQueues
import GameServer.Net.Service

/-!
# The threads of the server

Net IO, net logic and each game service run in a thread of their own. A producer pushes a node to a
queue and then writes one byte to the socket between it and the consumer; the consumer sleeps in
`sepoll_wait` or `select`, reads the bytes that have come in, and drains the queue. A step is one
action of one thread: a push, a write, or a turn of its loop that pops one node, takes one event or
waits. A turn computes what is to be pushed and written, and the thread does this first. A step of
a thread that is blocked changes nothing.

The queues of `que_pool` are kept in one list. What net IO reads from its clients, and the reports
of a broadcast, are inputs. A descriptor is named after the service at its other end.

Each node has a mark that no step reads: the number of the connection of its uid, or the game
service that emitted it.

## Main definitions

* `Wire`, `Sockets` : the connections between the services, and what the kernel promises.
* `QueNode`, `Act`, `Threads` : the nodes, the actions, the state of all threads.
* `Threads.netIoTurn`, `Threads.netLogicTurn`, `Threads.gameTurn` : the turns of the loops.
* `threadsMachine` : the threads as a machine, with the pushes, the pops and the reads as outputs.
-/

namespace GameServer

/-! ### Nodes and connections -/

/-- The threads. -/
inductive Thread
  | netIo | netLogic | game (g : ServiceId)
deriving DecidableEq, Repr

/-- The connections between the services, each once for every direction. -/
inductive Wire
  | netIo2NetLogic | netLogic2NetIo | netLogic2Game (g : ServiceId) | game2NetLogic (g : ServiceId)
deriving DecidableEq, Repr

/-- The thread that writes to a connection. -/
def Wire.writer : Wire → Thread
  | .netIo2NetLogic => .netIo
  | .netLogic2NetIo => .netLogic
  | .netLogic2Game _ => .netLogic
  | .game2NetLogic g => .game g

/-- The thread that reads from a connection. -/
def Wire.reader : Wire → Thread
  | .netIo2NetLogic => .netLogic
  | .netLogic2NetIo => .netIo
  | .netLogic2Game g => .game g
  | .game2NetLogic _ => .netLogic

/-- The queue that the bytes of a connection announce. -/
def Wire.que : Wire → QueId
  | .netIo2NetLogic => .netio2Netlogic
  | .netLogic2NetIo => .netlogic2Netio
  | .netLogic2Game g => .netlogic2Game g
  | .game2NetLogic _ => .gamelogic2Netlogic

/-- How many unread bytes a connection holds, and which ends are set non-blocking. -/
structure Sockets where
  capacity : Wire → ℕ
  pos : ∀ w, 0 < capacity w
  nonblock : Wire → Bool

/-- The sockets as the services set them up: `wait_netlogic_service_connect` alone calls
`set_nonblock`; in `accept_gamelog_service_connect` and `connect_netlogic_service` the call is
commented out. -/
def Sockets.established (capacity : Wire → ℕ) (pos : ∀ w, 0 < capacity w) : Sockets where
  capacity := capacity
  pos := pos
  nonblock w := w = .netIo2NetLogic

/-- The nodes of `que_pool`, with their marks. -/
inductive QueNode
  | netio2Netlogic (msg : IoMsg) (conn : ℕ)
  | netlogic2Netio (node : NetIoNode) (origin : Option ServiceId)
  | netlogic2Game (g : ServiceId) (msg : GameMsg) (conn : ℕ)
  | gamelogic2Netlogic (b : Broadcast) (origin : ServiceId)
deriving DecidableEq, Repr

/-- The queue of a node. -/
def QueNode.que : QueNode → QueId
  | .netio2Netlogic _ _ => .netio2Netlogic
  | .netlogic2Netio _ _ => .netlogic2Netio
  | .netlogic2Game g _ _ => .netlogic2Game g
  | .gamelogic2Netlogic _ _ => .gamelogic2Netlogic

/-- The thread that pushes a node. -/
def QueNode.producer : QueNode → Thread
  | .netio2Netlogic _ _ => .netIo
  | .netlogic2Netio _ _ => .netLogic
  | .netlogic2Game _ _ _ => .netLogic
  | .gamelogic2Netlogic _ g => .game g

/-- What a thread has to do before its next turn: `queue_push`, `send_msg2_service`. -/
inductive Act
  | push (node : QueNode)
  | wake (w : Wire)
deriving DecidableEq, Repr

/-- `send_client_msg2net_logic` on messages with the numbers of their connections. -/
def reportActs (reports : List (IoMsg × ℕ)) : List Act :=
  reports.flatMap fun p => [.push (.netio2Netlogic p.1 p.2), .wake .netIo2NetLogic]

/-- The actions by which a game service sends its broadcasts. -/
def broadcastActs (g : ServiceId) (out : List Broadcast) : List Act :=
  out.flatMap fun b => [.push (.gamelogic2Netlogic b g), .wake (.game2NetLogic g)]

/-- An action of net logic; the marks are those of the node that it is handling. -/
def NetOut.act (conn : ℕ) (origin : Option ServiceId) : NetOut → Except Fault Act
  | .pushGame (.netlogic2Game g) msg => .ok (.push (.netlogic2Game g msg conn))
  | .pushGame _ _ => .error .nodeType
  | .wakeGame socket => do
    let g ← serviceIndex socket
    .ok (.wake (.netLogic2Game g))
  | .pushNetIo node => .ok (.push (.netlogic2Netio node origin))
  | .wakeNetIo => .ok (.wake .netLogic2NetIo)

/-! ### The state -/

instance : @NeZero ℕ Zero.ofOfNat0 maxService := ⟨Nat.succ_ne_zero 7⟩

/-- The entries of `service_pool` once all services are connected. -/
inductive ServiceEntry
  | netIo | unused | game (g : ServiceId)
deriving DecidableEq, Repr

/-- `service_pool`: net IO is `SERVICE_ID_NETWORK_IO`, and the game services are
`SERVICE_ID_GAME_FIRST` and the following. -/
def serviceEntry (sv : Fin maxService) : ServiceEntry :=
  if sv.val = 0 then .netIo
  else if h : 4 ≤ sv.val then .game ⟨sv.val - 4, Nat.sub_lt_left_of_lt_add h sv.isLt⟩
  else .unused

/-- The type of an entry. That of the unused entries is in none of the switches. -/
def ServiceEntry.type : ServiceEntry → ServiceType
  | .netIo => .netIo
  | .unused => .unset
  | .game _ => .gameLogic

/-- The threads, their queues and the unread bytes of their connections. `todo` holds what a thread
has still to push and to write. -/
structure Threads where
  quePool : List QueNode
  unread : Wire → ℕ
  todo : Thread → List Act
  netIo : LoopState Uid maxEvent
  netLogic : LoopState (Fin maxService) netLogicMaxEvent
  currentQue : QueId
  currentSerice : Fin maxService
  router : Router
  checkQue : ServiceId → Bool
  gameLogic : ServiceId → GameLogic
  uid2Playid : Uid → PlayerId

/-- What the fields hold that the services read only after a write of their own. -/
structure Unset where
  heap : ServiceId → MapId → SlotId → Player
  eventPool : Vector (Event Uid) maxEvent
  servicePool : Vector (Event (Fin maxService)) netLogicMaxEvent
  currentQue : QueId
  currentSerice : Fin maxService
  gameServiceId : ℤ

/-- Memory that is all zero. -/
def Unset.zero : Unset where
  heap _ _ _ := ⟨.typeInvalid, 0, 0, [], 0, 0⟩
  eventPool := Vector.replicate _ (readEvent 0)
  servicePool := Vector.replicate _ (readEvent 0)
  currentQue := .netio2Netlogic
  currentSerice := 0
  gameServiceId := 0

namespace Threads

/-- The state in which the loops start. The memory of the queues, which `message_que_creat` does not
set, holds null pointers. -/
def start (u : Unset) : Threads where
  quePool := []
  unread _ := 0
  todo _ := []
  netIo := loopInit u.eventPool
  netLogic := loopInit u.servicePool
  currentQue := u.currentQue
  currentSerice := u.currentSerice
  router := routerCreat (fun g => g.val) u.gameServiceId
  checkQue _ := false
  gameLogic g := gameLogicCreat (u.heap g)
  uid2Playid _ := ⟨.typeInvalid, 0, 0⟩

/-- The tables that a game service works on. -/
def game (s : Threads) (g : ServiceId) : GameLogic :=
  { s.gameLogic g with uid2Playid := s.uid2Playid }

/-- The nodes that wait in a queue. -/
def queue (s : Threads) (q : QueId) : List QueNode := MergedQueues.part QueNode.que q s.quePool

/-- The thread `t` has `acts` to do. -/
def setTodo (s : Threads) (t : Thread) (acts : List Act) : Threads :=
  { s with todo := Function.update s.todo t acts }

/-- `n` bytes have been read from a connection. -/
def setRead (s : Threads) (w : Wire) (n : ℕ) : Threads :=
  { s with unread := Function.update s.unread w (s.unread w - n) }

end Threads

/-! ### The machine -/

/-- What the other services see of a step. -/
inductive ThreadsOut
  | pushed (node : QueNode)
  | popped (node : QueNode)
  | read (w : Wire) (n : ℕ)
deriving DecidableEq, Repr

/-- What net IO finds in a turn: the outcome of `sepoll_wait`, the types of the slots, how much a
`read` returns at most, and the messages to push. -/
structure NetIoTurn where
  wait : Option (Batch (Event Uid) maxEvent)
  typeOf : Uid → SocketType
  got : ℕ
  reports : List (IoMsg × ℕ)

/-- What net logic finds in a turn. -/
structure NetLogicTurn where
  wait : Option (Batch (Event (Fin maxService)) maxService)
  got : ℕ

/-- Which thread is next. -/
inductive ThreadsIn
  | netIo (t : NetIoTurn)
  | netLogic (t : NetLogicTurn)
  | game (g : ServiceId) (got : ℕ)

/-- The thread of a step. -/
def ThreadsIn.thread : ThreadsIn → Thread
  | .netIo _ => .netIo
  | .netLogic _ => .netLogic
  | .game g _ => .game g

namespace Threads

/-- An action. A write to a full connection fails if it is non-blocking, and waits otherwise. -/
def perform (K : Sockets) (s : Threads) (t : Thread) (act : Act) (rest : List Act) :
    Threads × List ThreadsOut :=
  match act with
  | .push node => ({ s.setTodo t rest with quePool := s.quePool ++ [node] }, [.pushed node])
  | .wake w =>
    if s.unread w < K.capacity w then
      ({ s.setTodo t rest with unread := Function.update s.unread w (s.unread w + 1) }, [])
    else if K.nonblock w then (s.setTodo t rest, [])
    else (s, [])

/-- How many bytes `read` returns: no more than there are, and none if it is interrupted. -/
def readSize (s : Threads) (w : Wire) (size got : ℕ) : ℕ := min got (min size (s.unread w))

/-- A turn of `socket_server_event`. -/
def netIoTurn (s : Threads) (t : NetIoTurn) : Except Fault (Threads × List ThreadsOut) := do
  let (loop, out) ← socketServerEvent s.netIo ⟨(s.queue .netlogic2Netio).isEmpty, t.wait, t.typeOf⟩
  if s.netIo.checkQue then
    match MergedQueues.pop QueNode.que .netlogic2Netio s.quePool with
    | none => .ok ({ s with netIo := loop }, [])
    | some (node, rest) =>
      .ok ({ s.setTodo .netIo (reportActs t.reports) with netIo := loop, quePool := rest },
        [.popped node])
  else
    match takenEvents out with
    | [] => .ok ({ s with netIo := loop }, [])
    | eve :: _ =>
      if t.typeOf eve.sP = .netlogic then
        let n := s.readSize .netLogic2NetIo 64 t.got
        .ok ({ s.setRead .netLogic2NetIo n with netIo := loop }, [.read .netLogic2NetIo n])
      else .ok ({ s.setTodo .netIo (reportActs t.reports) with netIo := loop }, [])

/-- `dispose_queue_event` of net logic on the node that it has popped: the handler is that of the
type of `current_serice`. -/
def netLogicNode (P : Protobuf) (s : Threads) (node : QueNode) :
    Except Fault (Router × List Act) :=
  match serviceEntry s.currentSerice with
  | .netIo =>
    match node with
    | .netio2Netlogic msg conn => do
      let (r, out) ← disposeNetioServiceQue P s.router msg
      let acts ← out.mapM (NetOut.act conn none)
      .ok (r, acts)
    | _ => .error .nodeType
  | .game _ =>
    match node with
    | .gamelogic2Netlogic b origin => do
      let out ← disposeGameServiceQue P b
      let acts ← out.mapM (NetOut.act 0 (some origin))
      .ok (s.router, acts)
    | _ => .error .nodeType
  | .unused => .ok (s.router, [])

/-- The part of `net_logic_event` after an event of the service `sv` on the connection `w`, which
announces the queue that is drained next. A `read` from an empty connection waits. -/
def netLogicWoken (s : Threads) (loop : LoopState (Fin maxService) netLogicMaxEvent)
    (eve : Event (Fin maxService)) (que : QueId) (w : Wire) (got : ℕ) :
    Threads × List ThreadsOut :=
  if eve.read then
    if s.unread w = 0 then (s, [])
    else
      let n := s.readSize w 512 got
      ({ s.setRead w n with netLogic := loop, currentQue := que, currentSerice := eve.sP },
        [.read w n])
  else ({ s with netLogic := loop, currentQue := que, currentSerice := eve.sP }, [])

/-- A turn of `net_logic_event`. -/
def netLogicTurn (P : Protobuf) (s : Threads) (t : NetLogicTurn) :
    Except Fault (Threads × List ThreadsOut) := do
  let (loop, out) ← netLogicEvent s.netLogic
    ⟨(s.queue s.currentQue).isEmpty, t.wait, fun sv => (serviceEntry sv).type⟩
  if s.netLogic.checkQue then
    match MergedQueues.pop QueNode.que s.currentQue s.quePool with
    | none => .ok ({ s with netLogic := loop }, [])
    | some (node, rest) => do
      let (r, acts) ← s.netLogicNode P node
      .ok ({ s.setTodo .netLogic acts with netLogic := loop, quePool := rest, router := r },
        [.popped node])
  else
    match takenEvents out with
    | [] => .ok ({ s with netLogic := loop }, [])
    | eve :: _ =>
      match serviceEntry eve.sP with
      | .netIo => .ok (s.netLogicWoken loop eve .netio2Netlogic .netIo2NetLogic t.got)
      | .game g => .ok (s.netLogicWoken loop eve .gamelogic2Netlogic (.game2NetLogic g) t.got)
      | .unused => .ok ({ s with netLogic := loop }, [])

/-- A turn of `game_logic_event`; `select` waits for a byte. -/
def gameTurn (s : Threads) (g : ServiceId) (got : ℕ) : Except Fault (Threads × List ThreadsOut) :=
  if s.checkQue g then
    match MergedQueues.pop QueNode.que (.netlogic2Game g) s.quePool with
    | none => .ok ({ s with checkQue := Function.update s.checkQue g false }, [])
    | some (node, rest) =>
      match node with
      | .netlogic2Game _ msg _ => do
        let (gl, out) ← disposeQueueEvent (s.game g) msg
        .ok ({ s.setTodo (.game g) (broadcastActs g out) with
          quePool := rest
          gameLogic := Function.update s.gameLogic g gl
          uid2Playid := gl.uid2Playid }, [.popped node])
      | _ => .error .nodeType
  else if s.unread (.netLogic2Game g) = 0 then .ok (s, [])
  else
    let n := s.readSize (.netLogic2Game g) 512 got
    .ok ({ s.setRead (.netLogic2Game g) n with checkQue := Function.update s.checkQue g true },
      [.read (.netLogic2Game g) n])

/-- A step: the next action of the thread, or a turn of its loop. -/
def step (P : Protobuf) (K : Sockets) (s : Threads) (i : ThreadsIn) :
    Except Fault (Threads × List ThreadsOut) :=
  match s.todo i.thread with
  | act :: rest => .ok (s.perform K i.thread act rest)
  | [] =>
    match i with
    | .netIo t => s.netIoTurn t
    | .netLogic t => s.netLogicTurn P t
    | .game g got => s.gameTurn g got

end Threads

/-- The threads as a machine. -/
def threadsMachine (P : Protobuf) (K : Sockets) : Machine Threads ThreadsIn ThreadsOut Fault :=
  ⟨Threads.step P K⟩

end GameServer
