import GameServer.NetIo.Slots

/-!
# Slots, chains and the epoll set

Six operations of net IO change the type of a slot, the chain of its pending blocks and its entry
in the epoll set, each in an order of its own. `SlotInv` says what a slot looks like between
operations, and `Socket.epollEntry` which entry of the epoll set belongs to it: the epoll set is
then a function of the pool. Every operation writes one slot, and `PoolInv.set` reduces it to the
new slot and its entry.

## Main definitions

* `SlotInv`, `Socket.epollEntry`, `PoolInv`.
* `SocketServer.FdFree` : a descriptor that is new to the pool.
* `PoolOp`, `poolMachine` : the operations, in any order.

## Main results

* `PoolInv.closeFd`, `PoolInv.sendData`, `PoolInv.sendBuffer`, .. : what each operation keeps.
* `socket_pool_invariant` : the pool between operations.
-/

namespace GameServer

/-- A slot of this type has an entry in the epoll set. -/
def SocketType.registered : SocketType → Bool
  | .listenAdd => true
  | .connectAdd => true
  | .netlogic => true
  | _ => false

/-- The entry of the epoll set that belongs to the slot: write events are asked for while there
are pending blocks. -/
def Socket.epollEntry (i : Uid) (s : Socket) : Option EpollEntry :=
  if s.type.registered then some ⟨i, decide (s.head ≠ [])⟩ else none

theorem Socket.epollEntry_eq_some {i : Uid} {s : Socket} {e : EpollEntry} :
    s.epollEntry i = some e ↔ s.type.registered = true ∧ e = ⟨i, decide (s.head ≠ [])⟩ := by
  unfold epollEntry
  split_ifs with h
  · simp only [h, Option.some.injEq, eq_comm, true_and]
  · simp only [h, Bool.false_eq_true, false_and]

/-- The slot `i` between operations: it knows its index, only a connected client has pending
blocks, and `tail` is the last of them; `nextAddr` bounds the addresses in use. -/
structure SlotInv (nextAddr : ℕ) (i : Uid) (s : Socket) : Prop where
  id_eq : s.type ≠ .invalid → s.id = i
  idle : s.type ≠ .connectAdd → s.head = [] ∧ s.remainSize = 0
  tail_eq : s.tail = s.head.getLast?.map AppendBuffer.addr
  addr_nodup : (s.head.map AppendBuffer.addr).Nodup
  addr_lt : ∀ b ∈ s.head, b.addr < nextAddr

/-- No slot in use has the descriptor. -/
def SocketServer.FdFree (ss : SocketServer) (fd : ℤ) : Prop :=
  ∀ j, (ss.socketPool j).type ≠ .invalid → (ss.socketPool j).fd ≠ fd

/-- Every slot is well formed, no two slots in use share a descriptor, and the epoll set holds the
entries of the slots. -/
structure PoolInv (ss : SocketServer) : Prop where
  slots : ∀ i, SlotInv ss.nextAddr i (ss.socketPool i)
  fd_inj : ∀ i j, (ss.socketPool i).type ≠ .invalid → (ss.socketPool j).type ≠ .invalid →
    (ss.socketPool i).fd = (ss.socketPool j).fd → i = j
  epoll_iff : ∀ fd e, ss.epoll fd = some e ↔
    (ss.socketPool e.slot).fd = fd ∧ (ss.socketPool e.slot).epollEntry e.slot = some e

theorem SlotInv.mono {n n' : ℕ} {i : Uid} {s : Socket} (h : SlotInv n i s) (hle : n ≤ n') :
    SlotInv n' i s :=
  { h with addr_lt := fun b hb => lt_of_lt_of_le (h.addr_lt b hb) hle }

/-- A slot without pending blocks. -/
theorem SlotInv.of_empty {n : ℕ} {i : Uid} {s : Socket} (hid : s.type ≠ .invalid → s.id = i)
    (hhead : s.head = []) (htail : s.tail = none)
    (hremain : s.type ≠ .connectAdd → s.remainSize = 0) : SlotInv n i s where
  id_eq := hid
  idle htype := ⟨hhead, hremain htype⟩
  tail_eq := by rw [htail, hhead, List.getLast?_nil, Option.map_none]
  addr_nodup := by
    rw [hhead]
    exact List.nodup_nil
  addr_lt b hb := by
    rw [hhead] at hb
    cases hb

theorem SocketServer.setSocket_pool (ss : SocketServer) (i : Uid) (s : Socket) :
    (ss.setSocket i s).socketPool = Function.update ss.socketPool i s := rfl

/-- The loop of `apply_id` touches neither the epoll set nor the allocator. -/
theorem applyIdLoop_frame (ss : SocketServer) (n id : ℕ) :
    (applyIdLoop ss n id).2.epoll = ss.epoll ∧
      (applyIdLoop ss n id).2.nextAddr = ss.nextAddr := by
  induction n generalizing id with
  | zero => exact ⟨rfl, rfl⟩
  | succ n ih =>
    unfold applyIdLoop
    split_ifs
    · exact ⟨rfl, rfl⟩
    · exact ih (id + 1)
    · exact ⟨rfl, rfl⟩

theorem applyId_frame (ss : SocketServer) :
    (applyId ss).2.epoll = ss.epoll ∧ (applyId ss).2.nextAddr = ss.nextAddr := by
  have hsame := applyIdLoop_frame
    (if maxSocket - 1 ≤ ss.allocId then { ss with allocId := 0 } else ss) maxSocket (ss.allocId + 1)
  refine ⟨hsame.1.trans ?_, hsame.2.trans ?_⟩
  · split_ifs <;> rfl
  · split_ifs <;> rfl

namespace PoolInv

variable {ss ss' : SocketServer} {i : Uid} {s : Socket}

/-- The pool that `socket_server_create` sets up. -/
theorem socketServerCreate : PoolInv socketServerCreate where
  slots _ := .of_empty (fun h => absurd rfl h) rfl rfl fun _ => rfl
  fd_inj _ _ h := absurd rfl h
  epoll_iff _ _ := iff_of_false nofun nofun

theorem type_ne_of_registered (h : s.type.registered = true) : s.type ≠ .invalid := by
  intro htype
  rw [htype] at h
  cases h

/-- **Writing a slot.** One slot and its entry change, under a descriptor that is the slot's own or
new. -/
theorem set (h : PoolInv ss) (hpool : ss'.socketPool = Function.update ss.socketPool i s)
    (hepoll : ss'.epoll = Function.update ss.epoll s.fd (s.epollEntry i))
    (haddr : ss.nextAddr ≤ ss'.nextAddr) (hslot : SlotInv ss'.nextAddr i s)
    (hfd : ∀ j, j ≠ i → (ss.socketPool j).type ≠ .invalid → (ss.socketPool j).fd ≠ s.fd)
    (hold : (ss.socketPool i).type ≠ .invalid → (ss.socketPool i).fd = s.fd) : PoolInv ss' where
  slots j := by
    rw [hpool]
    by_cases hj : j = i
    · subst hj
      rw [Function.update_self]
      exact hslot
    · rw [Function.update_of_ne hj]
      exact (h.slots j).mono haddr
  fd_inj j k hj hk he := by
    rw [hpool] at hj hk he
    by_cases hji : j = i <;> by_cases hki : k = i
    · rw [hji, hki]
    · rw [hji, Function.update_self, Function.update_of_ne hki] at he
      rw [Function.update_of_ne hki] at hk
      exact absurd he.symm (hfd k hki hk)
    · rw [hki, Function.update_self, Function.update_of_ne hji] at he
      rw [Function.update_of_ne hji] at hj
      exact absurd he (hfd j hji hj)
    · rw [Function.update_of_ne hji] at hj he
      rw [Function.update_of_ne hki] at hk he
      exact h.fd_inj j k hj hk he
  epoll_iff fd e := by
    rw [hpool, hepoll]
    by_cases hslot : e.slot = i
    · -- The entry is one of the slot that is written.
      rw [hslot, Function.update_self]
      by_cases hfds : fd = s.fd
      · subst hfds
        rw [Function.update_self, eq_self, true_and]
      · rw [Function.update_of_ne hfds, h.epoll_iff, hslot]
        refine iff_of_false ?_ fun hs => hfds hs.1.symm
        rintro ⟨hfd', hentry⟩
        have hreg := (Socket.epollEntry_eq_some.mp hentry).1
        exact hfds (hfd'.symm.trans (hold (type_ne_of_registered hreg)))
    · rw [Function.update_of_ne hslot]
      by_cases hfds : fd = s.fd
      · subst hfds
        rw [Function.update_self]
        refine iff_of_false ?_ ?_
        · intro hentry
          exact hslot (congrArg EpollEntry.slot (Socket.epollEntry_eq_some.mp hentry).2)
        · rintro ⟨hfd', hentry⟩
          have hreg := (Socket.epollEntry_eq_some.mp hentry).1
          exact hfd e.slot hslot (type_ne_of_registered hreg) hfd'
      · rw [Function.update_of_ne hfds, h.epoll_iff]

/-- A slot in use is written, and keeps its descriptor. -/
theorem set_used (h : PoolInv ss) (hused : (ss.socketPool i).type ≠ .invalid)
    (hpool : ss'.socketPool = Function.update ss.socketPool i s)
    (hfd : s.fd = (ss.socketPool i).fd)
    (hepoll : ss'.epoll = Function.update ss.epoll s.fd (s.epollEntry i))
    (haddr : ss.nextAddr ≤ ss'.nextAddr) (hslot : SlotInv ss'.nextAddr i s) : PoolInv ss' := by
  refine h.set hpool hepoll haddr hslot (fun j hj hjused he => hj ?_) fun _ => hfd.symm
  exact h.fd_inj j i hjused hused (he.trans hfd)

/-- A free slot is taken, under a new descriptor. -/
theorem set_free (h : PoolInv ss) (hfree : (ss.socketPool i).type = .invalid)
    (hfd : ss.FdFree s.fd) (hpool : ss'.socketPool = Function.update ss.socketPool i s)
    (hepoll : ss'.epoll = Function.update ss.epoll s.fd (s.epollEntry i))
    (haddr : ss.nextAddr ≤ ss'.nextAddr) (hslot : SlotInv ss'.nextAddr i s) : PoolInv ss' :=
  h.set hpool hepoll haddr hslot (fun j _ hj => hfd j hj) fun hused => absurd hfree hused

/-- The epoll set at the descriptor of a slot in use. -/
theorem epoll_fd (h : PoolInv ss) (hused : (ss.socketPool i).type ≠ .invalid) :
    ss.epoll (ss.socketPool i).fd = (ss.socketPool i).epollEntry i := by
  refine Option.ext fun e => ?_
  rw [h.epoll_iff]
  constructor
  · rintro ⟨hfd, hentry⟩
    have hreg := (Socket.epollEntry_eq_some.mp hentry).1
    have hslot := h.fd_inj e.slot i (type_ne_of_registered hreg) hused hfd
    rwa [hslot] at hentry
  · intro hentry
    obtain rfl : e.slot = i := congrArg EpollEntry.slot (Socket.epollEntry_eq_some.mp hentry).2
    exact ⟨rfl, hentry⟩

/-- The epoll set at a new descriptor. -/
theorem epoll_fdFree (h : PoolInv ss) {fd : ℤ} (hfd : ss.FdFree fd) : ss.epoll fd = none := by
  refine Option.eq_none_iff_forall_ne_some.mpr fun e he => ?_
  obtain ⟨hfd', hentry⟩ := (h.epoll_iff fd e).mp he
  exact hfd e.slot (type_ne_of_registered (Socket.epollEntry_eq_some.mp hentry).1) hfd'

/-- The pool is a matter of its slots, the epoll set and the allocator. -/
theorem congr (h : PoolInv ss) (hpool : ss'.socketPool = ss.socketPool)
    (hepoll : ss'.epoll = ss.epoll) (haddr : ss.nextAddr ≤ ss'.nextAddr) : PoolInv ss' where
  slots i := by
    rw [hpool]
    exact (h.slots i).mono haddr
  fd_inj := by
    rw [hpool]
    exact h.fd_inj
  epoll_iff := by
    rw [hpool, hepoll]
    exact h.epoll_iff

/-! ### Slots are taken, added and closed -/

/-- A free slot is given to a new descriptor. -/
theorem applySocket {fd id : ℤ} (h : PoolInv ss) (hfd : ss.FdFree fd)
    (happly : GameServer.applySocket ss fd id = .ok (i, ss')) {type : SocketType}
    (htype : type.registered = false) :
    PoolInv (ss'.setSocket i { ss'.socketPool i with type := type }) := by
  obtain ⟨-, hfree, hpool⟩ := applySocket_cases happly
  obtain ⟨j, -, happly⟩ := Except.bind_eq_ok_iff.mp happly
  split_ifs at happly
  obtain ⟨rfl, rfl⟩ := Prod.mk.inj (Except.ok.inj happly)
  refine h.set_free (s := ⟨fd, j, type, 0, [], none⟩) hfree hfd ?_ ?_ le_rfl
    (.of_empty (fun _ => rfl) rfl rfl fun _ => rfl)
  · simp only [SocketServer.setSocket_pool, Function.update_self, Function.update_idem]
  · have hentry : Socket.epollEntry j ⟨fd, j, type, 0, [], none⟩ = none := by
      simp only [Socket.epollEntry, htype, Bool.false_eq_true, if_false]
    rw [hentry, ← h.epoll_fdFree hfd, Function.update_eq_self]
    rfl

/-- The search for a free slot writes none. -/
theorem applyId (h : PoolInv ss) : PoolInv (GameServer.applyId ss).2 :=
  h.congr (applyId_spec ss).1 (applyId_frame ss).1 (applyId_frame ss).2.ge

theorem fdFree_applyId {fd : ℤ} (hfd : ss.FdFree fd) : (GameServer.applyId ss).2.FdFree fd := by
  intro j hj
  rw [(applyId_spec ss).1] at hj ⊢
  exact hfd j hj

/-- `socket_server_listen`. -/
theorem socketServerListen {fd : ℤ} (h : PoolInv ss) (hfd : ss.FdFree fd)
    (hlisten : GameServer.socketServerListen ss fd = .ok (i, ss')) : PoolInv ss' := by
  obtain ⟨⟨j, ss₂⟩, happly, hlisten⟩ := Except.bind_eq_ok_iff.mp hlisten
  obtain ⟨rfl, rfl⟩ := Prod.mk.inj (Except.ok.inj hlisten)
  exact h.applyId.applySocket (fdFree_applyId hfd) happly rfl

/-- `wait_netlogic_service_connect`. -/
theorem waitNetlogicServiceConnect {fd : ℤ} (h : PoolInv ss) (hfd : ss.FdFree fd)
    (hwait : GameServer.waitNetlogicServiceConnect ss fd = .ok ss') : PoolInv ss' := by
  have hinv := h.applyId
  have hnew := fdFree_applyId hfd
  unfold GameServer.waitNetlogicServiceConnect at hwait
  generalize GameServer.applyId ss = r at hwait hinv hnew
  obtain ⟨⟨j, ss₂⟩, happly, hwait⟩ := Except.bind_eq_ok_iff.mp hwait
  obtain ⟨-, hfree, -⟩ := applySocket_cases happly
  obtain ⟨k, -, happly⟩ := Except.bind_eq_ok_iff.mp happly
  split_ifs at happly
  obtain ⟨rfl, rfl⟩ := Prod.mk.inj (Except.ok.inj happly)
  obtain rfl := Except.ok.inj hwait
  refine hinv.set_free (s := ⟨fd, k, .netlogic, 0, [], none⟩) hfree hnew ?_ rfl le_rfl
    (.of_empty (fun _ => rfl) rfl rfl fun _ => rfl)
  show Function.update (Function.update _ k _) k _ = _
  rw [Function.update_idem]
  simp only [SocketServer.setSocket_pool, Function.update_self]

/-- `dispose_accept`. -/
theorem disposeAccept {res : AcceptRes} {id : Option Uid} (h : PoolInv ss)
    (hfd : ∀ fd, res.fd = some fd → ss.FdFree fd)
    (haccept : GameServer.disposeAccept ss res = .ok (ss', id)) : PoolInv ss' := by
  unfold GameServer.disposeAccept at haccept
  cases hres : res.fd with
  | none =>
    simp only [hres] at haccept
    obtain ⟨rfl, rfl⟩ := Prod.mk.inj (Except.ok.inj haccept)
    exact h
  | some fd =>
    simp only [hres] at haccept
    split_ifs at haccept
    · obtain ⟨rfl, rfl⟩ := Prod.mk.inj (Except.ok.inj haccept)
      exact h.applyId
    · obtain ⟨⟨j, ss₂⟩, happly, haccept⟩ := Except.bind_eq_ok_iff.mp haccept
      obtain ⟨rfl, rfl⟩ := Prod.mk.inj (Except.ok.inj haccept)
      exact h.applyId.applySocket (fdFree_applyId (hfd fd hres)) happly rfl

/-- An idle slot in use becomes one of another type, and its entry with it. -/
theorem retype (h : PoolInv ss) (hused : (ss.socketPool i).type ≠ .invalid)
    (hidle : (ss.socketPool i).type ≠ .connectAdd) (t : SocketType)
    {f : ℤ → Option EpollEntry} (hepoll : f = Function.update ss.epoll (ss.socketPool i).fd
      (Socket.epollEntry i { ss.socketPool i with type := t })) :
    PoolInv ({ ss with epoll := f }.setSocket i { ss.socketPool i with type := t }) := by
  have hslot := h.slots i
  obtain ⟨hhead, hremain⟩ := hslot.idle hidle
  refine h.set_used (s := { ss.socketPool i with type := t }) hused rfl rfl hepoll le_rfl
    (.of_empty (fun _ => hslot.id_eq hused) hhead ?_ fun _ => hremain)
  rw [hslot.tail_eq, hhead, List.getLast?_nil, Option.map_none]

/-- `socket_server_start`: the slot and the epoll set change together, or the slot is given up
and no entry has been made. -/
theorem socketServerStart {ok success : Bool} (h : PoolInv ss)
    (hstart : GameServer.socketServerStart ss i ok = (ss', success)) : PoolInv ss' := by
  unfold GameServer.socketServerStart at hstart
  have hadd : ∀ ty : SocketType, ty.registered = true → (ss.socketPool i).head = [] →
      Socket.epollEntry i { ss.socketPool i with type := ty } = some ⟨i, false⟩ := by
    intro ty hty hhead
    simp only [Socket.epollEntry, hty, if_true, hhead, ne_eq, not_true, decide_false]
  have hkeep : (ss.socketPool i).type ≠ .invalid → (ss.socketPool i).type.registered = false →
      ss.epoll = Function.update ss.epoll (ss.socketPool i).fd
        (Socket.epollEntry i { ss.socketPool i with type := .invalid }) := by
    intro hused hreg
    have hnone : ss.epoll (ss.socketPool i).fd =
        Socket.epollEntry i { ss.socketPool i with type := .invalid } := by
      rw [h.epoll_fd hused]
      simp only [Socket.epollEntry, hreg]
      rfl
    rw [← hnone, Function.update_eq_self]
  simp only at hstart
  split at hstart
  · next htype =>
    have hused : (ss.socketPool i).type ≠ .invalid := by rw [htype]; decide
    have hidle : (ss.socketPool i).type ≠ .connectAdd := by rw [htype]; decide
    cases ok with
    | true =>
      obtain ⟨rfl, -⟩ := Prod.mk.inj hstart
      refine h.retype hused hidle .connectAdd ?_
      rw [hadd .connectAdd rfl ((h.slots i).idle hidle).1]
    | false =>
      obtain ⟨rfl, -⟩ := Prod.mk.inj hstart
      refine h.retype (f := ss.epoll) hused hidle .invalid (hkeep hused ?_)
      rw [htype]
      rfl
  · next htype =>
    have hused : (ss.socketPool i).type ≠ .invalid := by rw [htype]; decide
    have hidle : (ss.socketPool i).type ≠ .connectAdd := by rw [htype]; decide
    cases ok with
    | true =>
      obtain ⟨rfl, -⟩ := Prod.mk.inj hstart
      refine h.retype hused hidle .listenAdd ?_
      rw [hadd .listenAdd rfl ((h.slots i).idle hidle).1]
    | false =>
      obtain ⟨rfl, -⟩ := Prod.mk.inj hstart
      refine h.retype (f := ss.epoll) hused hidle .invalid (hkeep hused ?_)
      rw [htype]
      rfl
  · obtain ⟨rfl, -⟩ := Prod.mk.inj hstart
    exact h

/-- `close_fd`. -/
theorem closeFd (h : PoolInv ss) (i : Uid) : PoolInv (GameServer.closeFd ss i).1 := by
  unfold GameServer.closeFd
  simp only
  split_ifs with hfree
  · exact h
  · refine h.set_used (s := { ss.socketPool i with
        type := .invalid, id := 0, head := [], tail := none, remainSize := 0 }) hfree rfl rfl rfl
      le_rfl (.of_empty (fun hne => absurd rfl hne) rfl rfl fun _ => rfl)

end PoolInv

/-! ### Output -/

/-- The slot with a block linked behind the last one. -/
def Socket.append (s : Socket) (node : AppendBuffer) : Socket :=
  { s with remainSize := s.remainSize + node.size, head := s.head ++ [node],
           tail := some node.addr }

/-- `append_remaindata` finds the last block, and links the new one behind it. -/
theorem appendRemaindata_eq {ss : SocketServer} {i : Uid} {buf : List UInt8} {bufSize start : ℤ}
    (h : (ss.socketPool i).tail = (ss.socketPool i).head.getLast?.map AppendBuffer.addr) :
    appendRemaindata ss i buf bufSize start =
      .ok ({ ss with nextAddr := ss.nextAddr + 1 }.setSocket i ((ss.socketPool i).append
        ⟨ss.nextAddr, strncpy buf bufSize.toNat, start.toNat, bufSize - start⟩)) := by
  unfold appendRemaindata
  by_cases hhead : (ss.socketPool i).head = []
  · simp only [hhead, if_true, Socket.append, List.nil_append]
  · have htail : (ss.socketPool i).tail ≠ none := by
      rw [h]
      simpa only [ne_eq, Option.map_eq_none_iff, List.getLast?_eq_none_iff] using hhead
    simp only [if_neg hhead, if_pos (And.intro htail h), Socket.append]

theorem SlotInv.append {n : ℕ} {i : Uid} {s : Socket} {node : AppendBuffer} (h : SlotInv n i s)
    (hopen : s.type = .connectAdd) (haddr : node.addr = n) : SlotInv (n + 1) i (s.append node) where
  id_eq := h.id_eq
  idle hne := absurd hopen hne
  tail_eq := by simp only [Socket.append, List.getLast?_concat, Option.map_some]
  addr_nodup := by
    simp only [Socket.append, List.map_append, List.map_cons, List.map_nil]
    refine List.nodup_append.mpr
      ⟨h.addr_nodup, List.nodup_cons.mpr ⟨List.not_mem_nil, List.nodup_nil⟩, ?_⟩
    intro a ha b hb he
    obtain ⟨c, hc, rfl⟩ := List.mem_map.mp ha
    have hlt := h.addr_lt c hc
    rw [List.mem_singleton] at hb
    omega
  addr_lt b hb := by
    rcases List.mem_append.mp hb with hb | hb
    · exact Nat.lt_succ_of_lt (h.addr_lt b hb)
    · rw [List.mem_singleton.mp hb, haddr]
      exact Nat.lt_succ_self n

/-- The first block of a chain is lowered or removed, and others are left. -/
theorem SlotInv.shrink {n : ℕ} {i : Uid} {s s' : Socket} {tmp : AppendBuffer}
    {rest : List AppendBuffer} (h : SlotInv n i s) (hhead : s.head = tmp :: rest)
    (hid : s'.id = s.id) (htype : s'.type = s.type) (htail : s'.tail = s.tail)
    (haddrs : s'.head.map AppendBuffer.addr = (tmp :: rest).map AppendBuffer.addr ∨
      s'.head.map AppendBuffer.addr = rest.map AppendBuffer.addr) (hne : s'.head ≠ []) :
    SlotInv n i s' := by
  have hold := h.tail_eq
  have hnodup := h.addr_nodup
  rw [hhead] at hold hnodup
  have hlt : ∀ a ∈ (tmp :: rest).map AppendBuffer.addr, a < n := by
    intro a ha
    obtain ⟨b, hb, rfl⟩ := List.mem_map.mp ha
    exact h.addr_lt b (hhead ▸ hb)
  have hsub : (s'.head.map AppendBuffer.addr).Sublist ((tmp :: rest).map AppendBuffer.addr) := by
    rcases haddrs with he | he
    · rw [he]
    · rw [he]
      exact List.sublist_cons_self ..
  refine ⟨fun hused => ?_, fun hidle => ?_, ?_, hsub.nodup hnodup, fun b hb => ?_⟩
  · rw [hid]
    exact h.id_eq (htype ▸ hused)
  · have hnil := (h.idle (htype ▸ hidle)).1
    rw [hhead] at hnil
    cases hnil
  · rw [htail, hold, ← List.getLast?_map, ← List.getLast?_map]
    rcases haddrs with he | he
    · rw [he]
    · -- What is left ends as before.
      rw [he]
      cases rest with
      | nil => exact absurd (List.map_eq_nil_iff.mp he) hne
      | cons b rest => rfl
  · exact hlt _ (hsub.subset (List.mem_map_of_mem hb))

/-- A connection with pending blocks has its entry with `EPOLLOUT`, one without has it without. -/
theorem Socket.epollEntry_of_open {i : Uid} {s : Socket} (hopen : s.type = .connectAdd) :
    s.epollEntry i = some ⟨i, decide (s.head ≠ [])⟩ := by
  simp only [epollEntry, hopen, SocketType.registered, if_true]

namespace PoolInv

variable {ss ss' : SocketServer} {i : Uid} {buf : List UInt8} {len : ℤ} {out : List IoMsg}

/-- A block is appended to the chain of a connection, and write events are asked for. -/
theorem append (h : PoolInv ss) (hopen : ss.Open i) {node : AppendBuffer}
    (haddr : node.addr = ss.nextAddr)
    (hpool : ss'.socketPool = Function.update ss.socketPool i ((ss.socketPool i).append node))
    (hepoll : ss'.epoll = Function.update ss.epoll (ss.socketPool i).fd (some ⟨i, true⟩))
    (hnext : ss'.nextAddr = ss.nextAddr + 1) : PoolInv ss' := by
  have hentry : ((ss.socketPool i).append node).epollEntry i = some ⟨i, true⟩ := by
    rw [Socket.epollEntry_of_open (by exact hopen)]
    simp only [Socket.append, ne_eq, List.append_eq_nil_iff, List.cons_ne_nil, and_false,
      not_false_eq_true, decide_true]
  refine h.set_used hopen.type_ne hpool rfl ?_ ?_ ?_
  · rw [hentry, hepoll]
    rfl
  · rw [hnext]
    exact Nat.le_succ _
  · rw [hnext]
    exact (h.slots i).append hopen haddr

/-- The end of `send_data`: what is left is appended, and write events are asked for. -/
theorem sendRest {n : ℤ} (h : PoolInv ss) (hopen : ss.Open i)
    (hrest : GameServer.sendRest ss i buf len n = .ok (ss', out)) : PoolInv ss' := by
  unfold GameServer.sendRest at hrest
  split_ifs at hrest
  · rw [appendRemaindata_eq (h.slots i).tail_eq] at hrest
    obtain ⟨rfl, -⟩ := Prod.mk.inj (Except.ok.inj hrest)
    have hentry := h.epoll_fd hopen.type_ne
    rw [Socket.epollEntry_of_open hopen] at hentry
    simp only [SocketServer.epollWrite, SocketServer.setSocket_epoll, hentry]
    exact h.append hopen rfl rfl rfl rfl
  · obtain ⟨rfl, -⟩ := Prod.mk.inj (Except.ok.inj hrest)
    exact h

/-- `send_data`. -/
theorem sendData {w : WriteRes} (h : PoolInv ss)
    (hsend : GameServer.sendData ss i buf len w = .ok (ss', out)) : PoolInv ss' := by
  obtain ⟨hopen, -⟩ := sendData_cases hsend
  have htype : (ss.socketPool i).type = .connectAdd := hopen
  unfold GameServer.sendData at hsend
  rw [if_pos htype] at hsend
  by_cases hhead : (ss.socketPool i).head = []
  · rw [if_pos hhead] at hsend
    cases w with
    | fail =>
      simp only [sendError_eq hopen] at hsend
      obtain ⟨rfl, -⟩ := Prod.mk.inj (Except.ok.inj hsend)
      exact h.closeFd i
    | eintr => exact h.sendRest hopen hsend
    | eagain => exact h.sendRest hopen hsend
    | wrote n => exact h.sendRest hopen hsend
  · -- There are pending blocks already, and write events are asked for.
    rw [if_neg hhead, appendRemaindata_eq (h.slots i).tail_eq] at hsend
    obtain ⟨rfl, -⟩ := Prod.mk.inj (Except.ok.inj hsend)
    refine h.append hopen rfl rfl ?_ rfl
    have hentry : some ⟨i, true⟩ = ss.epoll (ss.socketPool i).fd := by
      rw [h.epoll_fd hopen.type_ne, Socket.epollEntry_of_open hopen]
      simp only [ne_eq, hhead, not_false_eq_true, decide_true]
    exact (Function.update_eq_self_iff.mpr hentry).symm

/-- The end of `send_buffer`: the chain is empty, and write events are no longer asked for. -/
theorem sendBufferDone {r : ℤ} (h : PoolInv ss) (hopen : ss.Open i)
    (hpool : ss'.socketPool = Function.update ss.socketPool i
      { ss.socketPool i with head := [], tail := none, remainSize := r })
    (hepoll : ss'.epoll = Function.update ss.epoll (ss.socketPool i).fd (some ⟨i, false⟩))
    (hnext : ss'.nextAddr = ss.nextAddr) : PoolInv ss' := by
  refine h.set_used hopen.type_ne hpool rfl ?_ hnext.ge
    (.of_empty (fun _ => (h.slots i).id_eq hopen.type_ne) rfl rfl fun hne => absurd hopen hne)
  rw [Socket.epollEntry_of_open (by exact hopen), hepoll]
  simp only [ne_eq, not_true, decide_false]

/-- Between two writes of `send_buffer` the pool is as between operations, once `tail` and the
epoll set are brought up to date with an empty chain. -/
def Sending (ss : SocketServer) (i : Uid) : Prop :=
  ss.Open i ∧ ((ss.socketPool i).head ≠ [] → PoolInv ss) ∧
    ((ss.socketPool i).head = [] → PoolInv (GameServer.sendBufferDone ss i))

theorem sending (h : PoolInv ss) (hopen : ss.Open i) : Sending ss i := by
  refine ⟨hopen, fun _ => h, fun hhead => ?_⟩
  have hentry := h.epoll_fd hopen.type_ne
  rw [Socket.epollEntry_of_open hopen] at hentry
  refine h.sendBufferDone (r := (ss.socketPool i).remainSize) hopen ?_ ?_ ?_
  · simp only [GameServer.sendBufferDone, SocketServer.epollWrite, SocketServer.setSocket_epoll,
      hentry, ← hhead]
    rfl
  · simp only [GameServer.sendBufferDone, SocketServer.epollWrite, SocketServer.setSocket_epoll,
      hentry]
    rfl
  · simp only [GameServer.sendBufferDone, SocketServer.epollWrite, SocketServer.setSocket_epoll,
      hentry]
    rfl

/-- One write of `send_buffer`: the first block is smaller or gone. -/
theorem Sending.wrote {tmp : AppendBuffer} {rest : List AppendBuffer} (h : Sending ss i)
    (hhead : (ss.socketPool i).head = tmp :: rest) (n : ℤ) :
    Sending (sendBufferWrote ss i tmp rest n) i := by
  obtain ⟨hopen, hinv, -⟩ := h
  replace hinv := hinv (by rw [hhead]; exact List.cons_ne_nil tmp rest)
  have hslot := hinv.slots i
  obtain ⟨s, hs, hfd, hid, htype, htail, haddrs⟩ : ∃ s : Socket,
      (sendBufferWrote ss i tmp rest n) = ss.setSocket i s ∧
      s.fd = (ss.socketPool i).fd ∧ s.id = (ss.socketPool i).id ∧
      s.type = (ss.socketPool i).type ∧ s.tail = (ss.socketPool i).tail ∧
      (s.head.map AppendBuffer.addr = (tmp :: rest).map AppendBuffer.addr ∨
        s.head.map AppendBuffer.addr = rest.map AppendBuffer.addr) := by
    refine ⟨_, rfl, rfl, rfl, rfl, rfl, ?_⟩
    simp only
    split_ifs
    · exact .inr rfl
    · exact .inl rfl
    · exact .inr rfl
    · exact .inl rfl
  have hself : (ss.setSocket i s).socketPool i = s := Function.update_self ..
  have hentry := hinv.epoll_fd hopen.type_ne
  rw [Socket.epollEntry_of_open hopen, hhead] at hentry
  rw [hs]
  refine ⟨?_, fun hne => ?_, fun hnil => ?_⟩
  · rw [SocketServer.Open, hself, htype]
    exact hopen
  · rw [hself] at hne
    refine hinv.set_used hopen.type_ne rfl hfd ?_ le_rfl ?_
    · rw [Socket.epollEntry_of_open (htype.trans hopen), hfd]
      simp only [ne_eq, hne, List.cons_ne_nil, not_false_eq_true, decide_true] at hentry ⊢
      exact (Function.update_eq_self_iff.mpr hentry.symm).symm
    · exact hslot.shrink hhead hid htype htail haddrs hne
  · rw [hself] at hnil
    refine hinv.sendBufferDone (r := s.remainSize) hopen ?_ ?_ ?_
    · simp only [GameServer.sendBufferDone, SocketServer.epollWrite, hself, hfd, hentry,
        SocketServer.setSocket_epoll]
      show Function.update (Function.update _ i _) i _ = _
      rw [Function.update_idem, ← hnil, ← hfd, ← hid, ← htype]
    · simp only [GameServer.sendBufferDone, SocketServer.epollWrite, hself, hfd, hentry,
        SocketServer.setSocket_epoll]
      rfl
    · simp only [GameServer.sendBufferDone, SocketServer.epollWrite, hself, hfd, hentry,
        SocketServer.setSocket_epoll]
      rfl

/-- `send_buffer`. -/
theorem Sending.sendBuffer {ws : List WriteRes} (h : Sending ss i)
    (hsend : GameServer.sendBuffer ss i ws = .ok (ss', out)) : PoolInv ss' := by
  induction ws generalizing ss with
  | nil =>
    simp only [GameServer.sendBuffer] at hsend
    split_ifs at hsend with hhead
    obtain ⟨rfl, -⟩ := Prod.mk.inj (Except.ok.inj hsend)
    exact h.2.2 hhead
  | cons w ws ih =>
    simp only [GameServer.sendBuffer] at hsend
    split at hsend
    · next hhead =>
      obtain ⟨rfl, -⟩ := Prod.mk.inj (Except.ok.inj hsend)
      exact h.2.2 hhead
    · next tmp rest hhead =>
      have hinv : PoolInv ss := h.2.1 (by rw [hhead]; exact List.cons_ne_nil tmp rest)
      cases w with
      | eintr => exact ih h hsend
      | eagain =>
        obtain ⟨rfl, -⟩ := Prod.mk.inj (Except.ok.inj hsend)
        exact hinv
      | fail =>
        simp only [sendError_eq h.1] at hsend
        obtain ⟨rfl, -⟩ := Prod.mk.inj (Except.ok.inj hsend)
        exact hinv.closeFd i
      | wrote n => exact ih (h.wrote hhead _) hsend

/-- `broadcast_user_msg`. -/
theorem broadcastUserMsg {ids : List ℤ} {ws : List WriteRes} (h : PoolInv ss)
    (hsend : GameServer.broadcastUserMsg ss buf len ids ws = .ok (ss', out)) : PoolInv ss' := by
  induction ids generalizing ss ws out with
  | nil =>
    obtain ⟨rfl, -⟩ := Prod.mk.inj (Except.ok.inj hsend)
    exact h
  | cons id ids ih =>
    cases ws with
    | nil => cases hsend
    | cons w ws =>
      obtain ⟨j, -, hsend⟩ := Except.bind_eq_ok_iff.mp hsend
      obtain ⟨⟨ss₁, out₁⟩, hone, hsend⟩ := Except.bind_eq_ok_iff.mp hsend
      obtain ⟨⟨ss₂, out₂⟩, hrest, hsend⟩ := Except.bind_eq_ok_iff.mp hsend
      obtain ⟨rfl, -⟩ := Prod.mk.inj (Except.ok.inj hsend)
      exact ih (h.sendData hone) hrest

/-- `dispose_queue_event` of net IO. -/
theorem disposeQueueNode {node : NetIoNode} {ws : List WriteRes} {out : List NetIoOut}
    (h : PoolInv ss) (hnode : GameServer.disposeQueueNode ss node ws = .ok (ss', out)) :
    PoolInv ss' := by
  cases node with
  | serviceFull uid =>
    obtain ⟨rfl, -⟩ := Prod.mk.inj (Except.ok.inj hnode)
    exact h.closeFd uid
  | playerError uid =>
    obtain ⟨rfl, -⟩ := Prod.mk.inj (Except.ok.inj hnode)
    exact h.closeFd uid
  | broadcast size uidList buffer =>
    obtain ⟨⟨ss₁, out₁⟩, hsend, hnode⟩ := Except.bind_eq_ok_iff.mp hnode
    obtain ⟨rfl, -⟩ := Prod.mk.inj (Except.ok.inj hnode)
    exact h.broadcastUserMsg hsend

theorem readError (h : PoolInv ss) (i : Uid) : PoolInv (GameServer.readError ss i).1 :=
  h.closeFd i

/-- `dispose_readmessage`. -/
theorem disposeReadmessage {reads : List ReadRes} (h : PoolInv ss)
    (hread : GameServer.disposeReadmessage ss i reads = .ok (ss', out)) : PoolInv ss' := by
  obtain ⟨⟨lenByte, reads₁⟩, -, hread⟩ := Except.bind_eq_ok_iff.mp hread
  cases lenByte with
  | none =>
    obtain ⟨rfl, -⟩ := Prod.mk.inj (Except.ok.inj hread)
    exact h.readError i
  | some b =>
    obtain ⟨⟨body, reads₂⟩, -, hread⟩ := Except.bind_eq_ok_iff.mp hread
    cases body with
    | none =>
      obtain ⟨rfl, -⟩ := Prod.mk.inj (Except.ok.inj hread)
      exact h.readError i
    | some buffer =>
      obtain ⟨rfl, -⟩ := Prod.mk.inj (Except.ok.inj hread)
      exact h

/-- The switch of `socket_server_event`. -/
theorem disposeEvent {eve : Event Uid} {oc : Outcomes} (h : PoolInv ss)
    (hfd : ∀ fd, oc.accept.fd = some fd → ss.FdFree fd)
    (hevent : GameServer.disposeEvent ss eve oc = .ok (ss', out)) : PoolInv ss' := by
  unfold GameServer.disposeEvent at hevent
  split at hevent
  · obtain ⟨⟨ss₁, id⟩, haccept, hevent⟩ := Except.bind_eq_ok_iff.mp hevent
    have h₁ := h.disposeAccept hfd haccept
    cases id with
    | none =>
      obtain ⟨rfl, -⟩ := Prod.mk.inj (Except.ok.inj hevent)
      exact h₁
    | some i =>
      cases hstart : GameServer.socketServerStart ss₁ i oc.accept.epollOk with
      | mk ss₂ success =>
        simp only [hstart] at hevent
        obtain ⟨rfl, -⟩ := Prod.mk.inj (Except.ok.inj hevent)
        exact h₁.socketServerStart hstart
  · next hopen =>
    split_ifs at hevent
    · exact h.disposeReadmessage hevent
    · exact (h.sending hopen).sendBuffer hevent
    · obtain ⟨rfl, -⟩ := Prod.mk.inj (Except.ok.inj hevent)
      exact h
  · obtain ⟨rfl, -⟩ := Prod.mk.inj (Except.ok.inj hevent)
    exact h

end PoolInv

/-! ### Runs -/

/-- An operation of net IO. -/
inductive PoolOp where
  /-- `socket_server_listen` gets the descriptor `fd`. -/
  | listen (fd : ℤ)
  /-- `wait_netlogic_service_connect` accepts net logic. -/
  | connectNetlogic (fd : ℤ)
  /-- `dispose_accept`. -/
  | accept (res : AcceptRes)
  /-- `socket_server_start`. -/
  | start (i : Uid) (epollOk : Bool)
  /-- An event of the epoll set, whether it is still current or not. -/
  | event (eve : Event Uid) (oc : Outcomes)
  /-- A node of the queue from net logic. -/
  | node (node : NetIoNode) (writes : List WriteRes)
deriving DecidableEq, Repr

/-- The kernel hands out descriptors that are not open. -/
def PoolOp.Fresh (ss : SocketServer) : PoolOp → Prop
  | .listen fd => ss.FdFree fd
  | .connectNetlogic fd => ss.FdFree fd
  | .accept res => ∀ fd, res.fd = some fd → ss.FdFree fd
  | .event _ oc => ∀ fd, oc.accept.fd = some fd → ss.FdFree fd
  | _ => True

/-- A pool without a socket has no descriptor open. -/
theorem PoolOp.fresh_accept {ss : SocketServer} (hfree : ∀ u, (ss.socketPool u).type = .invalid)
    (res : AcceptRes) : PoolOp.Fresh ss (.accept res) := fun _ _ u hu => absurd (hfree u) hu

theorem PoolOp.fresh_start (ss : SocketServer) (i : Uid) (epollOk : Bool) :
    PoolOp.Fresh ss (.start i epollOk) := trivial

theorem PoolOp.fresh_node (ss : SocketServer) (node : NetIoNode) (writes : List WriteRes) :
    PoolOp.Fresh ss (.node node writes) := trivial

/-- The operations of net IO, in any order. -/
def poolMachine : Machine SocketServer PoolOp NetIoOut Fault where
  step ss
    | .listen fd => do
      let (_, ss₁) ← socketServerListen ss fd
      .ok (ss₁, [])
    | .connectNetlogic fd => do
      let ss₁ ← waitNetlogicServiceConnect ss fd
      .ok (ss₁, [])
    | .accept res => do
      let (ss₁, _) ← disposeAccept ss res
      .ok (ss₁, [])
    | .start i epollOk => .ok ((socketServerStart ss i epollOk).1, [])
    | .event eve oc => do
      let (ss₁, out) ← disposeEvent ss eve oc
      .ok (ss₁, out.map .push)
    | .node node writes => disposeQueueNode ss node writes

/-- **Step lemma.** Every operation keeps the invariant. -/
theorem PoolInv.step {ss ss' : SocketServer} {op : PoolOp} {out : List NetIoOut} (h : PoolInv ss)
    (hfresh : op.Fresh ss) (hstep : poolMachine.step ss op = .ok (ss', out)) : PoolInv ss' := by
  cases op with
  | listen fd =>
    obtain ⟨⟨i, ss₁⟩, hlisten, hstep⟩ := Except.bind_eq_ok_iff.mp hstep
    obtain ⟨rfl, -⟩ := Prod.mk.inj (Except.ok.inj hstep)
    exact h.socketServerListen hfresh hlisten
  | connectNetlogic fd =>
    obtain ⟨ss₁, hwait, hstep⟩ := Except.bind_eq_ok_iff.mp hstep
    obtain ⟨rfl, -⟩ := Prod.mk.inj (Except.ok.inj hstep)
    exact h.waitNetlogicServiceConnect hfresh hwait
  | accept res =>
    obtain ⟨⟨ss₁, id⟩, haccept, hstep⟩ := Except.bind_eq_ok_iff.mp hstep
    obtain ⟨rfl, -⟩ := Prod.mk.inj (Except.ok.inj hstep)
    exact h.disposeAccept hfresh haccept
  | start i epollOk =>
    obtain ⟨rfl, -⟩ := Prod.mk.inj (Except.ok.inj hstep)
    exact h.socketServerStart rfl
  | event eve oc =>
    obtain ⟨⟨ss₁, out⟩, hevent, hstep⟩ := Except.bind_eq_ok_iff.mp hstep
    obtain ⟨rfl, -⟩ := Prod.mk.inj (Except.ok.inj hstep)
    exact h.disposeEvent hfresh hevent
  | node node writes => exact h.disposeQueueNode hstep

/-- The invariant along a run. -/
theorem PoolInv.exec {ops : List PoolOp} {out : List NetIoOut} {ss : SocketServer}
    (hrun : poolMachine.Exec PoolOp.Fresh GameServer.socketServerCreate ops out ss) : PoolInv ss :=
  hrun.invariant .socketServerCreate fun _ _ _ _ hinv hfresh hs => hinv.step hfresh hs

/-- The operation that handles an input of the service. -/
def NetIoIn.op : NetIoIn → PoolOp
  | .event eve oc => .event eve oc
  | .node q writes => .node q writes

/-- **The service runs on the operations.** Its start and its inputs are operations of the pool. -/
theorem poolMachine_exec_of_netIo {ok : SocketServer → NetIoIn → Prop} {listenFd netlogicFd : ℤ}
    {ss₀ ss : SocketServer} {is : List NetIoIn} {out : List NetIoOut} (hne : listenFd ≠ netlogicFd)
    (hstart : networkIoServiceStart listenFd netlogicFd = .ok ss₀)
    (hok : ∀ ss i, ok ss i → i.op.Fresh ss) (hrun : netIoMachine.Exec ok ss₀ is out ss) :
    ∃ ops, poolMachine.Exec PoolOp.Fresh socketServerCreate ops out ss := by
  induction hrun with
  | init =>
    obtain ⟨⟨listenId, ss₁⟩, hlisten, hstart⟩ := Except.bind_eq_ok_iff.mp hstart
    obtain ⟨ss₂, hwait, hstart⟩ := Except.bind_eq_ok_iff.mp hstart
    obtain rfl := Except.ok.inj hstart
    have hnew : ss₁.FdFree netlogicFd := by
      obtain ⟨⟨i, ss₃⟩, happly, hlisten⟩ := Except.bind_eq_ok_iff.mp hlisten
      obtain ⟨rfl, rfl⟩ := Prod.mk.inj (Except.ok.inj hlisten)
      obtain ⟨-, -, hpool⟩ := applySocket_cases happly
      intro j hj
      simp only [SocketServer.setSocket_pool, hpool, Function.update_self,
        Function.update_idem] at hj ⊢
      by_cases hji : j = i
      · subst hji
        simpa only [Function.update_self] using hne
      · rw [Function.update_of_ne hji] at hj
        exact absurd rfl hj
    have h₁ : poolMachine.step socketServerCreate (.listen listenFd) = .ok (ss₁, []) := by
      simp only [poolMachine, hlisten]
      rfl
    have h₂ : poolMachine.step ss₁ (.connectNetlogic netlogicFd) = .ok (ss₂, []) := by
      simp only [poolMachine, hwait]
      rfl
    have hfirst : PoolOp.Fresh socketServerCreate (.listen listenFd) :=
      fun _ hj => absurd rfl hj
    have hsecond : PoolOp.Fresh ss₁ (.connectNetlogic netlogicFd) := hnew
    exact ⟨_, ((Machine.Exec.single hfirst h₁).next hsecond h₂).next (PoolOp.fresh_start ..) rfl⟩
  | next h hi hs ih =>
    obtain ⟨ops, hexec⟩ := ih
    rename_i i s' o
    refine ⟨ops ++ [i.op], hexec.next (hok _ i hi) ?_⟩
    cases i with
    | event eve oc => exact hs
    | node node writes => exact hs

/-- **The socket pool between operations.** In every order of operations a slot in use has its
index as id; a free slot has nothing pending and no entry in the epoll set; only connected clients
have pending blocks; `head` is null just when `tail` is, and `tail` is the last of the distinct
blocks from `head` on; an entry of the epoll set is at the descriptor of its slot; and `EPOLLOUT`
is asked for exactly while blocks are pending. -/
theorem socket_pool_invariant {ops : List PoolOp} {out : List NetIoOut} {ss : SocketServer}
    (hrun : poolMachine.Exec PoolOp.Fresh socketServerCreate ops out ss) :
    (∀ i, (ss.socketPool i).type ≠ .invalid → (ss.socketPool i).id = i) ∧
    (∀ i, (ss.socketPool i).type = .invalid →
      (ss.socketPool i).head = [] ∧ (ss.socketPool i).tail = none ∧
      (ss.socketPool i).remainSize = 0 ∧ ∀ fd e, ss.epoll fd = some e → e.slot ≠ i) ∧
    (∀ i, (ss.socketPool i).head ≠ [] → (ss.socketPool i).type = .connectAdd) ∧
    (∀ i, ((ss.socketPool i).head = [] ↔ (ss.socketPool i).tail = none) ∧
      ((ss.socketPool i).head.map AppendBuffer.addr).Nodup ∧
      ∀ b, (ss.socketPool i).head.getLast? = some b → (ss.socketPool i).tail = some b.addr) ∧
    (∀ fd e, ss.epoll fd = some e → (ss.socketPool e.slot).fd = fd) ∧
    ∀ i, ss.epoll (ss.socketPool i).fd = some ⟨i, true⟩ ↔ (ss.socketPool i).head ≠ [] := by
  have hinv := PoolInv.exec hrun
  refine ⟨fun i => (hinv.slots i).id_eq, fun i hfree => ?_, fun i hne => ?_, fun i => ?_,
    fun fd e he => ((hinv.epoll_iff fd e).mp he).1, fun i => ?_⟩
  · have hslot := hinv.slots i
    obtain ⟨hhead, hremain⟩ := hslot.idle (by rw [hfree]; exact SocketType.noConfusion)
    refine ⟨hhead, ?_, hremain, ?_⟩
    · rw [hslot.tail_eq, hhead, List.getLast?_nil, Option.map_none]
    · rintro fd e he rfl
      have hentry := ((hinv.epoll_iff fd e).mp he).2
      exact PoolInv.type_ne_of_registered (Socket.epollEntry_eq_some.mp hentry).1 hfree
  · by_contra htype
    exact hne ((hinv.slots i).idle htype).1
  · have hslot := hinv.slots i
    refine ⟨?_, hslot.addr_nodup, fun b hb => ?_⟩
    · rw [hslot.tail_eq, Option.map_eq_none_iff, List.getLast?_eq_none_iff]
    · rw [hslot.tail_eq, hb, Option.map_some]
  · constructor
    · intro he
      have hentry := (Socket.epollEntry_eq_some.mp ((hinv.epoll_iff _ _).mp he).2).2
      exact of_decide_eq_true (congrArg EpollEntry.write hentry).symm
    · intro hne
      have hopen : ss.Open i := by
        by_contra htype
        exact hne ((hinv.slots i).idle htype).1
      rw [hinv.epoll_fd hopen.type_ne, Socket.epollEntry_of_open hopen, decide_eq_true hne]

/-- A client is accepted and gets a message of which it takes one byte: the rest is pending. -/
theorem socket_pool_invariant_run : ∃ ss, poolMachine.Exec PoolOp.Fresh socketServerCreate
      [.accept ⟨some 6, true, true⟩, .start 1 true,
        .node (.broadcast 4 [1] [3, 0, 1, 2]) [.wrote 1]] [] ss ∧
    (ss.socketPool 1).head = [⟨0, [3, 0, 0, 0], 1, 3⟩] ∧
    ss.epoll (ss.socketPool 1).fd = some ⟨1, true⟩ := by
  have hnew : PoolOp.Fresh socketServerCreate (.accept ⟨some 6, true, true⟩) :=
    PoolOp.fresh_accept (fun _ => rfl) _
  have hrun : poolMachine.Exec PoolOp.Fresh socketServerCreate
      [.accept ⟨some 6, true, true⟩, .start 1 true,
        .node (.broadcast 4 [1] [3, 0, 1, 2]) [.wrote 1]] [] _ :=
    ((Machine.Exec.single hnew (o := []) rfl).next (o := []) (PoolOp.fresh_start ..) rfl).next
      (o := []) (PoolOp.fresh_node ..) rfl
  refine ⟨_, hrun, by decide +kernel, ?_⟩
  exact ((socket_pool_invariant hrun).2.2.2.2.2 1).mpr (by decide +kernel)
end GameServer
