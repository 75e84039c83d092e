import GameServer.Library.Machine
import GameServer.Messages
import Mathlib.Logic.Function.Basic
import Mathlib.Tactic.Simps.Basic

/-!
# The socket pool of net IO

A slot of the pool holds the descriptor, the type and the pending output of one connection; its
index is the id of the connection, the `uid` of the other services. The pending output is a chain
of blocks: `head` is the chain, `tail` the address of the block that the slot takes for its last.

The kernel side is the epoll set: for each descriptor the slot it was registered with and whether
write events are asked for. A system call takes its outcome from the arguments of the operation.

## Main definitions

* `Socket`, `SocketServer`, `applyId`, `applySocket`, `closeFd`.
* `appendRemaindata`, `sendBuffer`, `sendData` : the output of a connection.
-/

namespace GameServer

/-- The types of a slot that net IO assigns. -/
inductive SocketType
  | invalid | listenNotadd | listenAdd | connectAdd | connectNotadd | netlogic
deriving DecidableEq, Repr

/-- `append_buffer`, with its address; `current` is an offset into `buffer`. -/
structure AppendBuffer where
  addr : ℕ
  buffer : List UInt8
  current : ℕ
  size : ℤ
deriving DecidableEq, Repr

/-- `socket`: a slot of the pool. -/
structure Socket where
  fd : ℤ
  id : Uid
  type : SocketType
  remainSize : ℤ
  head : List AppendBuffer
  tail : Option ℕ
deriving DecidableEq, Repr

/-- A registration in the epoll set: the slot, and whether `EPOLLOUT` is asked for. -/
structure EpollEntry where
  slot : Uid
  write : Bool
deriving DecidableEq, Repr

/-- `socket_server`, with the epoll set and the next address that `malloc` returns. -/
structure SocketServer where
  socketPool : Uid → Socket
  allocId : ℕ
  epoll : ℤ → Option EpollEntry
  nextAddr : ℕ

namespace SocketServer

/-- Assignment to a slot. -/
@[simps] def setSocket (ss : SocketServer) (i : Uid) (s : Socket) : SocketServer :=
  { ss with socketPool := Function.update ss.socketPool i s }

/-- Assignment to the epoll set. -/
@[simps] def setEpoll (ss : SocketServer) (fd : ℤ) (e : Option EpollEntry) : SocketServer :=
  { ss with epoll := Function.update ss.epoll fd e }

/-- `epoll_write`, which fails on a descriptor that is not registered. -/
def epollWrite (ss : SocketServer) (fd : ℤ) (i : Uid) (write : Bool) : SocketServer :=
  match ss.epoll fd with
  | none => ss
  | some _ => ss.setEpoll fd (some ⟨i, write⟩)

end SocketServer

/-- The slots that `socket_server_create` sets up. -/
def socketServerCreate : SocketServer where
  socketPool _ := ⟨0, 0, .invalid, 0, [], none⟩
  allocId := 0
  epoll _ := none
  nextAddr := 0

/-- An access to `socket_pool[id % MAX_SOCKET]`, with the remainder of C. -/
def poolIndex (id : ℤ) : Except Fault Uid :=
  if h : 0 ≤ id.tmod maxSocket then
    .ok ⟨(id.tmod maxSocket).toNat, by
      have hlt := Int.tmod_lt_of_pos id (b := (maxSocket : ℤ)) (by decide)
      omega⟩
  else .error .poolRange

/-! ### Slots -/

/-- The loop of `apply_id`: the first free slot from `id` on. -/
def applyIdLoop (ss : SocketServer) : ℕ → ℕ → ℤ × SocketServer
  | 0, _ => (-1, ss)
  | n + 1, id =>
    if h : id < maxSocket then
      if (ss.socketPool ⟨id, h⟩).type = .invalid then (id, { ss with allocId := id })
      else applyIdLoop ss n (id + 1)
    else (-1, ss)

/-- `apply_id`. The loop starts from the last id that was read before the counter is reset. -/
def applyId (ss : SocketServer) : ℤ × SocketServer :=
  let lastId := ss.allocId
  let ss₁ := if maxSocket - 1 ≤ lastId then { ss with allocId := 0 } else ss
  applyIdLoop ss₁ maxSocket (lastId + 1)

/-- `epoll_add` with the outcome `ok` of the call. -/
def epollAdd (ss : SocketServer) (fd : ℤ) (i : Uid) (ok : Bool) : Option SocketServer :=
  if ok then some (ss.setEpoll fd (some ⟨i, false⟩)) else none

/-- `apply_socket` without registration. -/
def applySocket (ss : SocketServer) (fd id : ℤ) : Except Fault (Uid × SocketServer) := do
  let i ← poolIndex id
  if (ss.socketPool i).type = .invalid then
    .ok (i, ss.setSocket i
      { ss.socketPool i with fd := fd, id := i, remainSize := 0, head := [], tail := none })
  else .error .assertFailed

/-- `close_fd`, with the id that it stores in the result. Closing a descriptor removes it from the
epoll set. -/
def closeFd (ss : SocketServer) (i : Uid) : SocketServer × Option Uid :=
  let s := ss.socketPool i
  if s.type = .invalid then (ss, none)
  else
    ((ss.setEpoll s.fd none).setSocket i
      { s with type := .invalid, id := 0, head := [], tail := none, remainSize := 0 }, some s.id)

/-! ### Output -/

/-- What `write` returns: a number of bytes, `EINTR`, `EAGAIN`, or another error. -/
inductive WriteRes
  | wrote (n : ℕ) | eintr | eagain | fail
deriving DecidableEq, Repr

/-- `strncpy`: the string at `src`, padded with zeros to `n` bytes. -/
def strncpy (src : List UInt8) (n : ℕ) : List UInt8 :=
  let s := (src.take n).takeWhile (· ≠ 0)
  s ++ List.replicate (n - s.length) 0

/-- `append_remaindata`. The new block is linked behind the block that `tail` points to, which has
to be the last of the chain. -/
def appendRemaindata (ss : SocketServer) (i : Uid) (buf : List UInt8) (bufSize start : ℤ) :
    Except Fault SocketServer :=
  let s := ss.socketPool i
  let node : AppendBuffer :=
    ⟨ss.nextAddr, strncpy buf bufSize.toNat, start.toNat, bufSize - start⟩
  let ss₁ : SocketServer := { ss with nextAddr := ss.nextAddr + 1 }
  let s₁ : Socket := { s with remainSize := s.remainSize + node.size }
  if s.head = [] then
    .ok (ss₁.setSocket i { s₁ with head := [node], tail := some node.addr })
  else if s.tail ≠ none ∧ s.tail = s.head.getLast?.map AppendBuffer.addr then
    .ok (ss₁.setSocket i { s₁ with head := s.head ++ [node], tail := some node.addr })
  else .error .chainRange

/-- `report_socket_error`: the message pushed to net logic. -/
def reportSocketError (uid : Uid) : List IoMsg := [.close uid]

/-- The end of a write error in `send_buffer` and `send_data`: the slot is closed, and the close
is reported under the id that the slot has afterwards. -/
def sendError (ss : SocketServer) (i : Uid) : SocketServer × List IoMsg :=
  let ss₁ := (closeFd ss i).1
  (ss₁, reportSocketError (ss₁.socketPool i).id)

/-- The end of `send_buffer` when the chain is empty. -/
def sendBufferDone (ss : SocketServer) (i : Uid) : SocketServer :=
  (ss.setSocket i { ss.socketPool i with tail := none }).epollWrite (ss.socketPool i).fd i false

/-- One `write` of `send_buffer` that accepted `n` bytes of the first block. The test whether the
block is done comes after its size has been lowered. -/
def sendBufferWrote (ss : SocketServer) (i : Uid) (tmp : AppendBuffer) (rest : List AppendBuffer)
    (n : ℤ) : SocketServer :=
  let s := ss.socketPool i
  let tmp₁ := if n ≠ tmp.size then
    { tmp with current := tmp.current + n.toNat, size := tmp.size - n } else tmp
  let head := if n = tmp₁.size then rest else tmp₁ :: rest
  ss.setSocket i { s with remainSize := s.remainSize - n, head := head }

/-- `send_buffer` on the outcomes of its `write` calls. -/
def sendBuffer (ss : SocketServer) (i : Uid) :
    List WriteRes → Except Fault (SocketServer × List IoMsg)
  | [] => if (ss.socketPool i).head = [] then .ok (sendBufferDone ss i, []) else .error .blocked
  | w :: ws =>
    match (ss.socketPool i).head with
    | [] => .ok (sendBufferDone ss i, [])
    | tmp :: rest =>
      match w with
      | .eintr => sendBuffer ss i ws
      | .eagain => .ok (ss, [])
      | .fail => .ok (sendError ss i)
      | .wrote n => sendBuffer (sendBufferWrote ss i tmp rest (min n tmp.size)) i ws

/-- The end of `send_data` when `write` has accepted `n` bytes: the rest is appended, and write
events are asked for. -/
def sendRest (ss : SocketServer) (i : Uid) (buf : List UInt8) (len n : ℤ) :
    Except Fault (SocketServer × List IoMsg) :=
  if n < len then do
    let ss₁ ← appendRemaindata ss i buf len n
    .ok (ss₁.epollWrite (ss.socketPool i).fd i true, [])
  else .ok (ss, [])

/-- `send_data` on the outcome of its `write` call, which is made only when nothing is pending. -/
def sendData (ss : SocketServer) (i : Uid) (buf : List UInt8) (len : ℤ) (w : WriteRes) :
    Except Fault (SocketServer × List IoMsg) :=
  if (ss.socketPool i).type = .connectAdd then
    if (ss.socketPool i).head = [] then
      match w with
      | .fail => .ok (sendError ss i)
      | .eintr => sendRest ss i buf len 0
      | .eagain => sendRest ss i buf len 0
      | .wrote n => sendRest ss i buf len (min n len)
    else do
      let ss₁ ← appendRemaindata ss i buf len 0
      .ok (ss₁, [])
  else .error .assertFailed

end GameServer
