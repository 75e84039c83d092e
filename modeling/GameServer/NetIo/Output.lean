import GameServer.Library.BlockQueue
import GameServer.NetIo.PoolInv

/-!
# The pending output of a connection

What `write` does not accept at once waits in the chain of blocks of the slot. The bytes of the
chain, in order, are the output that is still to be sent, and a call of `send_data` or
`send_buffer` should only move bytes from there to the kernel. Two things stand in the way:
`append_remaindata` copies with `strncpy`, which stops at a zero byte, and `send_buffer` takes a
block for done when the bytes that are left of it are as many as were just written.

## Main definitions

* `Socket.pending`, `Socket.Linked` : the unsent bytes of a slot, and its chain between operations.
* `StringFrom`, `NoHalfWrite` : where the copy is exact, and where no block is given up early.

## Main results

* `send_data_conserves_iff`, `send_buffer_conserves_iff` : the output is conserved exactly there.
-/

namespace GameServer

/-! ### Pending bytes -/

/-- The bytes of a block that have not been sent. -/
def AppendBuffer.bytes (b : AppendBuffer) : List UInt8 :=
  (b.buffer.drop b.current).take b.size.toNat

/-- The unsent part of a block lies inside its buffer. -/
structure AppendBuffer.InBounds (b : AppendBuffer) : Prop where
  size_nonneg : 0 ≤ b.size
  le_length : b.current + b.size ≤ b.buffer.length

theorem AppendBuffer.InBounds.length_bytes {b : AppendBuffer} (h : b.InBounds) :
    b.bytes.length = b.size.toNat := by
  have hle := h.le_length
  have hpos := h.size_nonneg
  rw [bytes, List.length_take, List.length_drop]
  omega

/-- The unsent bytes of a chain, in the order in which they are to be sent. -/
def chainBytes (q : List AppendBuffer) : List UInt8 := (q.map AppendBuffer.bytes).flatten

@[simp] theorem chainBytes_nil : chainBytes [] = [] := rfl

@[simp] theorem chainBytes_cons (b : AppendBuffer) (q : List AppendBuffer) :
    chainBytes (b :: q) = b.bytes ++ chainBytes q := rfl

@[simp] theorem chainBytes_append (q q' : List AppendBuffer) :
    chainBytes (q ++ q') = chainBytes q ++ chainBytes q' := by
  simp only [chainBytes, List.map_append, List.flatten_append]

/-- The sum of the sizes of the blocks of a chain. -/
def chainSize : List AppendBuffer → ℤ
  | [] => 0
  | b :: q => b.size + chainSize q

/-- The bytes pending on a slot. -/
def Socket.pending (s : Socket) : List UInt8 := chainBytes s.head

/-- The output queue of a slot is consistent: `tail` is the last block of the chain. -/
def Socket.Linked (s : Socket) : Prop := s.tail = s.head.getLast?.map AppendBuffer.addr

theorem SocketServer.epollWrite_socketPool (ss : SocketServer) (fd : ℤ) (i : Uid) (write : Bool) :
    (ss.epollWrite fd i write).socketPool = ss.socketPool := by
  unfold SocketServer.epollWrite
  split <;> rfl

/-! ### The copy of `append_remaindata` -/

/-- No byte from `start` on that stands behind a zero byte of the message differs from zero. -/
def StringFrom (buf : List UInt8) (start : ℕ) : Prop :=
  ∀ j k b, k < j → start ≤ j → buf[k]? = some 0 → buf[j]? = some b → b = 0

theorem strncpy_cons_zero (bs : List UInt8) :
    strncpy (0 :: bs) (bs.length + 1) = List.replicate (bs.length + 1) 0 := by
  simp [strncpy]

theorem strncpy_cons_of_ne {b : UInt8} (h : b ≠ 0) (bs : List UInt8) :
    strncpy (b :: bs) (bs.length + 1) = b :: strncpy bs bs.length := by
  simp [strncpy, h]

theorem length_strncpy (buf : List UInt8) : (strncpy buf buf.length).length = buf.length := by
  have hle := (List.takeWhile_sublist (l := buf) (· ≠ 0)).length_le
  simp only [strncpy, List.take_length, List.length_append, List.length_replicate]
  omega

theorem stringFrom_cons_zero {bs : List UInt8} {start : ℕ} :
    StringFrom (0 :: bs) start ↔ ∀ b ∈ (0 :: bs).drop start, b = 0 := by
  constructor
  · intro h b hb
    obtain ⟨i, hi⟩ := List.mem_iff_getElem?.mp hb
    rw [List.getElem?_drop] at hi
    rcases Nat.eq_zero_or_pos (start + i) with hzero | hpos
    · rw [hzero, List.getElem?_cons_zero, Option.some.injEq] at hi
      exact hi.symm
    · exact h (start + i) 0 b hpos (Nat.le_add_right _ _) rfl hi
  · intro h j k b _ hstart _ hb
    refine h b (List.mem_iff_getElem?.mpr ⟨j - start, ?_⟩)
    rwa [List.getElem?_drop, Nat.add_sub_cancel' hstart]

theorem stringFrom_cons_of_ne {b : UInt8} (hb : b ≠ 0) {bs : List UInt8} {start : ℕ} :
    StringFrom (b :: bs) start ↔ StringFrom bs (start - 1) := by
  constructor
  · intro h j k c hkj hstart hk hj
    exact h (j + 1) (k + 1) c (by omega) (by omega) (by simpa using hk) (by simpa using hj)
  · intro h j k c hkj hstart hk hj
    obtain ⟨j, rfl⟩ := Nat.exists_eq_succ_of_ne_zero (Nat.ne_of_gt (Nat.zero_lt_of_lt hkj))
    cases k with
    | zero => exact absurd (Option.some.inj hk) hb
    | succ k => exact h j k c (by omega) (by omega) (by simpa using hk) (by simpa using hj)

/-- The copy of the message is exact from `start` on just when it is a string from there. -/
theorem drop_strncpy_eq_iff (buf : List UInt8) (start : ℕ) :
    (strncpy buf buf.length).drop start = buf.drop start ↔ StringFrom buf start := by
  induction buf generalizing start with
  | nil => simp [strncpy, StringFrom]
  | cons b bs ih =>
    rw [List.length_cons]
    by_cases hb : b = 0
    · subst hb
      rw [strncpy_cons_zero, stringFrom_cons_zero, List.drop_replicate, eq_comm,
        List.eq_replicate_iff, List.length_drop, List.length_cons]
      exact and_iff_right rfl
    · rw [strncpy_cons_of_ne hb, stringFrom_cons_of_ne hb]
      cases start with
      | zero => simpa using ih 0
      | succ start => simpa using ih start

/-! ### Sending -/

/-- The number of bytes that a `write` of `len` bytes has accepted. -/
def WriteRes.accepted (len : ℕ) : WriteRes → ℕ
  | .wrote n => min n len
  | _ => 0

/-- The number of bytes that `write` accepts in a call of `send_data`, which makes no `write` while
blocks are queued. -/
def acceptedDirectly (s : Socket) (len : ℕ) (w : WriteRes) : ℕ :=
  if s.head = [] then w.accepted len else 0

/-- The bytes of the message from `start` on, as `append_remaindata` queues them. -/
theorem pending_append {s : Socket} {buf : List UInt8} {addr start : ℕ}
    (hstart : start ≤ buf.length) :
    (s.append ⟨addr, strncpy buf buf.length, start, buf.length - start⟩).pending =
      s.pending ++ (strncpy buf buf.length).drop start := by
  have hsize : ((buf.length : ℤ) - start).toNat = ((strncpy buf buf.length).drop start).length := by
    rw [List.length_drop, length_strncpy]
    omega
  simp only [Socket.pending, Socket.append, chainBytes_append, chainBytes_cons, chainBytes_nil,
    List.append_nil, AppendBuffer.bytes, hsize, List.take_length]

/-- **`send_data`.** What `write` has not accepted is queued behind the pending bytes. -/
theorem sendData_pending {ss : SocketServer} {i : Uid} (buf : List UInt8) {w : WriteRes}
    (h : (ss.socketPool i).Linked) (hopen : ss.Open i) (hw : w ≠ .fail) :
    ∃ ss', sendData ss i buf buf.length w = .ok (ss', []) ∧
      (ss'.socketPool i).pending = (ss.socketPool i).pending ++
        (strncpy buf buf.length).drop (acceptedDirectly (ss.socketPool i) buf.length w) := by
  have happend (start : ℕ) (hstart : start ≤ buf.length) :
      ∃ ss', appendRemaindata ss i buf buf.length start = .ok ss' ∧
        (ss'.socketPool i).pending =
          (ss.socketPool i).pending ++ (strncpy buf buf.length).drop start := by
    refine ⟨_, appendRemaindata_eq h, ?_⟩
    rw [SocketServer.setSocket_pool, Function.update_self, Int.toNat_natCast, Int.toNat_natCast]
    exact pending_append hstart
  have hrest (n : ℕ) (hn : n ≤ buf.length) : ∃ ss', sendRest ss i buf buf.length n = .ok (ss', []) ∧
      (ss'.socketPool i).pending =
        (ss.socketPool i).pending ++ (strncpy buf buf.length).drop n := by
    unfold sendRest
    split_ifs with hlt
    · obtain ⟨ss₁, hss₁, hpending⟩ := happend n hn
      refine ⟨ss₁.epollWrite (ss.socketPool i).fd i true, ?_, ?_⟩
      · simp only [hss₁, bind, Except.bind]
      · rw [SocketServer.epollWrite_socketPool]
        exact hpending
    · have hnil : (strncpy buf buf.length).drop n = [] :=
        List.drop_eq_nil_of_le (by rw [length_strncpy]; omega)
      exact ⟨ss, rfl, by rw [hnil, List.append_nil]⟩
  unfold SocketServer.Open at hopen
  by_cases hhead : (ss.socketPool i).head = []
  · simp only [sendData, hopen, hhead, if_true, acceptedDirectly]
    cases w with
    | fail => exact absurd rfl hw
    | eintr => exact hrest 0 (Nat.zero_le _)
    | eagain => exact hrest 0 (Nat.zero_le _)
    | wrote n =>
      have hmin : (min (n : ℤ) buf.length) = ((min n buf.length : ℕ) : ℤ) := by omega
      simp only [hmin]
      exact hrest (min n buf.length) (Nat.min_le_right _ _)
  · obtain ⟨ss₁, hss₁, hpending⟩ := happend 0 (Nat.zero_le _)
    replace hss₁ : appendRemaindata ss i buf buf.length 0 = .ok ss₁ := hss₁
    refine ⟨ss₁, ?_, ?_⟩
    · simp only [sendData, hopen, if_true, if_neg hhead, hss₁, bind, Except.bind]
    · simpa only [acceptedDirectly, if_neg hhead] using hpending

/-- While blocks are queued `send_data` makes no `write`: it does the same whatever one would
return. -/
theorem sendData_eq_of_head_ne_nil {ss : SocketServer} {i : Uid} (buf : List UInt8) (len : ℤ)
    (h : (ss.socketPool i).head ≠ []) (w w' : WriteRes) :
    sendData ss i buf len w = sendData ss i buf len w' := by
  simp only [sendData, if_neg h]

/-- Nothing is pending in an empty chain. -/
theorem Socket.head_ne_nil {s : Socket} (h : s.pending ≠ []) : s.head ≠ [] := by
  intro hhead
  rw [Socket.pending, hhead] at h
  exact h rfl

/-- A call of `send_data` conserves the output: the bytes that `write` accepts, followed by those
pending afterwards, are those pending before, followed by the message; and while bytes are pending
no `write` is made, so that the call does the same whatever one would return. -/
def SendConserves (ss : SocketServer) (i : Uid) (buf : List UInt8) (w : WriteRes) : Prop :=
  ∃ ss' out, sendData ss i buf buf.length w = .ok (ss', out) ∧
    buf.take (acceptedDirectly (ss.socketPool i) buf.length w) ++ (ss'.socketPool i).pending =
      (ss.socketPool i).pending ++ buf ∧
    ((ss.socketPool i).pending ≠ [] → acceptedDirectly (ss.socketPool i) buf.length w = 0 ∧
      ∀ w', sendData ss i buf buf.length w' = .ok (ss', out))

/-- **The output is conserved exactly where the copy is exact.** On a slot with a consistent output
queue and for a `write` that accepts any number of bytes or is interrupted, `send_data` conserves
the output just when the slot is connected and no byte of the part of the message that is queued
other than zero stands behind a zero byte of the message, be it in that part or before it. -/
theorem send_data_conserves_iff {ss : SocketServer} {i : Uid} {buf : List UInt8} {w : WriteRes}
    (h : (ss.socketPool i).Linked) (hw : w ≠ .fail) :
    SendConserves ss i buf w ↔
      ss.Open i ∧ StringFrom buf (acceptedDirectly (ss.socketPool i) buf.length w) := by
  by_cases hopen : ss.Open i
  · obtain ⟨ss', hsend, hpending⟩ := sendData_pending buf h hopen hw
    rw [and_iff_right hopen, ← drop_strncpy_eq_iff]
    have hdirect (hne : (ss.socketPool i).pending ≠ []) :
        acceptedDirectly (ss.socketPool i) buf.length w = 0 :=
      if_neg (Socket.head_ne_nil hne)
    -- Where something has been written nothing was pending.
    have hfront : buf.take (acceptedDirectly (ss.socketPool i) buf.length w) ++
        ((ss.socketPool i).pending ++ (strncpy buf buf.length).drop
          (acceptedDirectly (ss.socketPool i) buf.length w)) = (ss.socketPool i).pending ++
        (buf.take (acceptedDirectly (ss.socketPool i) buf.length w) ++
          (strncpy buf buf.length).drop (acceptedDirectly (ss.socketPool i) buf.length w)) := by
      by_cases hnil : (ss.socketPool i).pending = []
      · rw [hnil, List.nil_append, List.nil_append]
      · rw [hdirect hnil, List.take_zero, List.nil_append, List.nil_append]
    constructor
    · rintro ⟨ss₁, out, hsend₁, hconserve, -⟩
      obtain ⟨rfl, rfl⟩ := Prod.mk.inj (Except.ok.inj (hsend.symm.trans hsend₁))
      rw [hpending, hfront] at hconserve
      have hmsg := List.append_cancel_left hconserve
      conv_rhs at hmsg =>
        rw [← List.take_append_drop (acceptedDirectly (ss.socketPool i) buf.length w) buf]
      exact List.append_cancel_left hmsg
    · intro hcopy
      refine ⟨ss', [], hsend, ?_, fun hne => ⟨hdirect hne, fun w' => ?_⟩⟩
      · rw [hpending, hfront, hcopy, List.take_append_drop]
      · rw [sendData_eq_of_head_ne_nil buf _ (Socket.head_ne_nil hne) w' w, hsend]
  · refine iff_of_false ?_ fun hcond => hopen hcond.1
    rintro ⟨ss', out, hsend, -⟩
    exact hopen (sendData_cases hsend).1

/-- A client is accepted and its slot is added to the epoll set: it is connected and has nothing
pending. -/
theorem exists_connected : ∃ ss, poolMachine.Exec PoolOp.Fresh socketServerCreate
    [.accept ⟨some 6, true, true⟩, .start 1 true] [] ss ∧ ss.Open 1 ∧
    (ss.socketPool 1).head = [] ∧ (ss.socketPool 1).Linked := by
  have hnew : PoolOp.Fresh socketServerCreate (.accept ⟨some 6, true, true⟩) :=
    PoolOp.fresh_accept (fun _ => rfl) _
  have hrun : poolMachine.Exec PoolOp.Fresh socketServerCreate
      [.accept ⟨some 6, true, true⟩, .start 1 true] [] _ :=
    (Machine.Exec.single hnew (o := []) rfl).next (o := []) (PoolOp.fresh_start ..) rfl
  exact ⟨_, hrun, by decide +kernel, by decide +kernel, ((PoolInv.exec hrun).slots 1).tail_eq⟩

/-- A message without a byte behind a zero byte: `write` takes one byte, and the rest is pending. -/
theorem send_data_conserves_string : ∃ ss, poolMachine.Exec PoolOp.Fresh socketServerCreate
    [.accept ⟨some 6, true, true⟩, .start 1 true] [] ss ∧
    SendConserves ss 1 [3, 1, 2, 0] (.wrote 1) := by
  obtain ⟨ss, hrun, hopen, hhead, hlinked⟩ := exists_connected
  refine ⟨ss, hrun, (send_data_conserves_iff hlinked fun h => WriteRes.noConfusion h).mpr
    ⟨hopen, ?_⟩⟩
  rw [acceptedDirectly, if_pos hhead]
  exact (drop_strncpy_eq_iff [3, 1, 2, 0] 1).mp (by decide)

/-- `write` takes one byte of a message whose second byte is zero: the bytes behind the zero byte
are pending as zeros. -/
theorem send_data_drops_bytes : ∃ ss, poolMachine.Exec PoolOp.Fresh socketServerCreate
    [.accept ⟨some 6, true, true⟩, .start 1 true] [] ss ∧ (ss.socketPool 1).Linked ∧
    ¬SendConserves ss 1 [3, 0, 1, 2] (.wrote 1) := by
  obtain ⟨ss, hrun, hopen, hhead, hlinked⟩ := exists_connected
  refine ⟨ss, hrun, hlinked, ?_⟩
  rintro ⟨ss₁, out, hsend₁, hconserve, -⟩
  obtain ⟨ss', hsend, hpending⟩ := sendData_pending [3, 0, 1, 2] (w := .wrote 1) hlinked
    hopen fun h => WriteRes.noConfusion h
  obtain ⟨rfl, rfl⟩ := Prod.mk.inj (Except.ok.inj (hsend.symm.trans hsend₁))
  have hnone : (ss.socketPool 1).pending = [] := by rw [Socket.pending, hhead, chainBytes_nil]
  rw [hpending, hnone, acceptedDirectly, if_pos hhead] at hconserve
  revert hconserve
  decide

/-! ### Emptying the chain -/

/-- The bytes that the `write` calls of `send_buffer` accept, in order. -/
def sendBufferAccepted (ss : SocketServer) (i : Uid) : List WriteRes → List UInt8
  | [] => []
  | w :: ws =>
    match (ss.socketPool i).head with
    | [] => []
    | tmp :: rest =>
      match w with
      | .eintr => sendBufferAccepted ss i ws
      | .eagain => []
      | .fail => []
      | .wrote n =>
        (tmp.buffer.drop tmp.current).take (min (n : ℤ) tmp.size).toNat ++
          sendBufferAccepted (sendBufferWrote ss i tmp rest (min n tmp.size)) i ws

/-- A block of which `n` bytes more have been sent. -/
def AppendBuffer.advance (b : AppendBuffer) (n : ℤ) : AppendBuffer :=
  { b with current := b.current + n.toNat, size := b.size - n }

/-- The chain after a `write` that accepted `n` bytes of its first block `tmp`. -/
def chainAfter (tmp : AppendBuffer) (rest : List AppendBuffer) (n : ℤ) : List AppendBuffer :=
  if n = tmp.size ∨ 2 * n = tmp.size then rest else tmp.advance n :: rest

/-- The block leaves the chain when all of it, or half of it, has been accepted. -/
theorem sendBufferWrote_self (ss : SocketServer) (i : Uid) (tmp : AppendBuffer)
    (rest : List AppendBuffer) (n : ℤ) : (sendBufferWrote ss i tmp rest n).socketPool i =
      { ss.socketPool i with
        remainSize := (ss.socketPool i).remainSize - n, head := chainAfter tmp rest n } := by
  have hhead : (if n = (if n ≠ tmp.size then tmp.advance n else tmp).size then rest
      else (if n ≠ tmp.size then tmp.advance n else tmp) :: rest) = chainAfter tmp rest n := by
    unfold chainAfter
    by_cases hall : n = tmp.size
    · simp only [hall, ne_eq, not_true, if_false, if_true, true_or]
    · have hhalf : n = tmp.size - n ↔ 2 * n = tmp.size := by omega
      simp only [hall, ne_eq, not_false_iff, if_true, AppendBuffer.advance, hhalf, false_or]
  rw [← hhead]
  exact Function.update_self ..

namespace AppendBuffer.InBounds

variable {b : AppendBuffer} {n : ℤ}

theorem advance (h : b.InBounds) (hn : 0 ≤ n) (hlt : n ≤ b.size) : (b.advance n).InBounds where
  size_nonneg := by
    simp only [AppendBuffer.advance]
    omega
  le_length := by
    have hle := h.le_length
    simp only [AppendBuffer.advance]
    omega

theorem bytes_advance (hn : 0 ≤ n) : (b.advance n).bytes = b.bytes.drop n.toNat := by
  have hsize : (b.size - n).toNat = b.size.toNat - n.toNat := by omega
  rw [bytes, bytes, AppendBuffer.advance, hsize, List.drop_take, List.drop_drop]

/-- The bytes that a `write` accepts are the first of the block. -/
theorem accepted_eq (n : ℕ) (h : b.InBounds) :
    (b.buffer.drop b.current).take (min (n : ℤ) b.size).toNat = b.bytes.take n := by
  have hpos := h.size_nonneg
  have hmin : (min (n : ℤ) b.size).toNat = min n b.size.toNat := by omega
  rw [hmin, bytes, List.take_take]

end AppendBuffer.InBounds

/-- A call of `send_buffer` as it changes the chain and its size: the outcomes of `write`, the bytes
accepted, and what is left. -/
inductive ChainRun : List AppendBuffer → ℤ → List WriteRes → List UInt8 → List AppendBuffer → ℤ →
    Prop
  | done (r : ℤ) (ws : List WriteRes) : ChainRun [] r ws [] [] r
  | eintr {tmp rest r ws acc q r'} (h : ChainRun (tmp :: rest) r ws acc q r') :
      ChainRun (tmp :: rest) r (.eintr :: ws) acc q r'
  | eagain (tmp : AppendBuffer) (rest : List AppendBuffer) (r : ℤ) (ws : List WriteRes) :
      ChainRun (tmp :: rest) r (.eagain :: ws) [] (tmp :: rest) r
  | wrote {tmp rest r ws acc q r'} (n : ℕ)
      (h : ChainRun (chainAfter tmp rest (min (n : ℤ) tmp.size)) (r - min (n : ℤ) tmp.size) ws acc
        q r') :
      ChainRun (tmp :: rest) r (.wrote n :: ws)
        ((tmp.buffer.drop tmp.current).take (min (n : ℤ) tmp.size).toNat ++ acc) q r'

/-- An empty chain is left empty. -/
theorem sendBufferDone_run {ss : SocketServer} {i : Uid} (hhead : (ss.socketPool i).head = [])
    (ws : List WriteRes) :
    ChainRun (ss.socketPool i).head (ss.socketPool i).remainSize ws []
      ((sendBufferDone ss i).socketPool i).head
      ((sendBufferDone ss i).socketPool i).remainSize := by
  rw [sendBufferDone, SocketServer.epollWrite_socketPool, SocketServer.setSocket_pool,
    Function.update_self]
  simp only [hhead]
  exact .done _ ws

/-- **Inversion.** A call of `send_buffer` that returns, with no write error, is such a run. -/
theorem sendBuffer_run {ss ss' : SocketServer} {i : Uid} {ws : List WriteRes} {out : List IoMsg}
    (hfail : .fail ∉ ws) (h : sendBuffer ss i ws = .ok (ss', out)) :
    ChainRun (ss.socketPool i).head (ss.socketPool i).remainSize ws (sendBufferAccepted ss i ws)
      (ss'.socketPool i).head (ss'.socketPool i).remainSize := by
  induction ws generalizing ss with
  | nil =>
    simp only [sendBuffer] at h
    split_ifs at h with hhead
    obtain ⟨rfl, -⟩ := Prod.mk.inj (Except.ok.inj h)
    exact sendBufferDone_run hhead []
  | cons w ws ih =>
    rw [List.mem_cons, not_or] at hfail
    cases hhead : (ss.socketPool i).head with
    | nil =>
      simp only [sendBuffer, hhead] at h
      obtain ⟨rfl, -⟩ := Prod.mk.inj (Except.ok.inj h)
      simp only [sendBufferAccepted, hhead]
      have hrun := sendBufferDone_run hhead (w :: ws)
      rwa [hhead] at hrun
    | cons tmp rest =>
      simp only [sendBuffer, hhead] at h
      cases w with
      | fail => exact absurd rfl hfail.1
      | eagain =>
        obtain ⟨rfl, -⟩ := Prod.mk.inj (Except.ok.inj h)
        simp only [sendBufferAccepted, hhead]
        exact .eagain tmp rest _ ws
      | eintr =>
        have hrun := ih hfail.2 h
        simp only [sendBufferAccepted, hhead] at hrun ⊢
        exact .eintr hrun
      | wrote n =>
        have hrun := ih hfail.2 h
        rw [sendBufferWrote_self] at hrun
        simp only [sendBufferAccepted, hhead]
        exact .wrote n hrun

/-- No `write` accepts exactly half of what is left of the first block, unless nothing is left of
it; `sizes` are the sizes of the blocks before the first `write`. -/
def NoHalfWrite : List ℤ → List WriteRes → Prop
  | [], _ => True
  | _ :: _, [] => True
  | size :: sizes, w :: ws =>
    match w with
    | .eintr => NoHalfWrite (size :: sizes) ws
    | .eagain => True
    | .fail => True
    | .wrote n =>
      if size ≤ n then NoHalfWrite sizes ws
      else 2 * (n : ℤ) ≠ size ∧ NoHalfWrite ((size - n) :: sizes) ws

theorem noHalfWrite_nil (ws : List WriteRes) : NoHalfWrite [] ws := by
  cases ws <;> exact trivial

/-- The numbers of bytes that the `write` calls accept before there is no more room. -/
def writeCounts : List WriteRes → List ℕ
  | .wrote n :: ws => n :: writeCounts ws
  | .eintr :: ws => writeCounts ws
  | _ => []

theorem chainAfter_of_le {tmp : AppendBuffer} {n : ℕ} (h : tmp.size ≤ n)
    (rest : List AppendBuffer) : chainAfter tmp rest (min (n : ℤ) tmp.size) = rest :=
  if_pos (Or.inl (min_eq_right h))

theorem chainAfter_of_half {tmp : AppendBuffer} {n : ℕ} (h : n < tmp.size)
    (hhalf : 2 * n = tmp.size) (rest : List AppendBuffer) :
    chainAfter tmp rest (min (n : ℤ) tmp.size) = rest := by
  rw [min_eq_left h.le]
  exact if_pos (Or.inr hhalf)

theorem chainAfter_of_ne {tmp : AppendBuffer} {n : ℕ} (h : n < tmp.size)
    (hhalf : 2 * n ≠ tmp.size) (rest : List AppendBuffer) :
    chainAfter tmp rest (min (n : ℤ) tmp.size) = tmp.advance n :: rest := by
  rw [min_eq_left h.le]
  exact if_neg fun hor => hor.elim (fun he => h.ne he) hhalf

namespace ChainRun

variable {q q' : List AppendBuffer} {r r' : ℤ} {ws : List WriteRes} {acc : List UInt8}

/-- Whatever `write` accepts, no byte is repeated and none is moved. -/
theorem sublist (h : ChainRun q r ws acc q' r') (hin : ∀ b ∈ q, b.InBounds) :
    (acc ++ chainBytes q').Sublist (chainBytes q) := by
  induction h with
  | done => exact List.Sublist.refl _
  | eintr h ih => exact ih hin
  | eagain => exact List.Sublist.refl _
  | @wrote tmp rest r ws acc q' r' n h ih =>
    obtain ⟨htmp, hrest⟩ := List.forall_mem_cons.mp hin
    rw [htmp.accepted_eq, List.append_assoc, chainBytes_cons]
    rcases le_or_gt tmp.size n with hle | hlt
    · rw [chainAfter_of_le hle] at ih
      exact (List.take_sublist n _).append (ih hrest)
    · by_cases hhalf : 2 * (n : ℤ) = tmp.size
      · rw [chainAfter_of_half hlt hhalf] at ih
        exact (List.take_sublist n _).append (ih hrest)
      · rw [chainAfter_of_ne hlt hhalf] at ih
        have hnext := htmp.advance (Int.natCast_nonneg n) hlt.le
        have hlater := ih (List.forall_mem_cons.mpr ⟨hnext, hrest⟩)
        rw [chainBytes_cons, AppendBuffer.InBounds.bytes_advance (Int.natCast_nonneg n),
          Int.toNat_natCast] at hlater
        conv_rhs => rw [← List.take_append_drop n tmp.bytes, List.append_assoc]
        exact hlater.append_left _

/-- Without such a `write` the chain is a queue of blocks, and `remain_size` keeps in step. -/
theorem drain (h : ChainRun q r ws acc q' r') (hin : ∀ b ∈ q, b.InBounds)
    (hhalf : NoHalfWrite (q.map AppendBuffer.size) ws) :
    BlockQueue.drain (q.map AppendBuffer.bytes) (writeCounts ws) =
        (acc, q'.map AppendBuffer.bytes) ∧
      r' - chainSize q' = r - chainSize q := by
  induction h with
  | done => exact ⟨BlockQueue.drain_empty _, rfl⟩
  | eintr h ih => exact ih hin hhalf
  | eagain => exact ⟨rfl, rfl⟩
  | @wrote tmp rest r ws acc q' r' n h ih =>
    obtain ⟨htmp, hrest⟩ := List.forall_mem_cons.mp hin
    have hlen := htmp.length_bytes
    have hpos := htmp.size_nonneg
    simp only [List.map_cons, NoHalfWrite] at hhalf
    rw [htmp.accepted_eq]
    simp only [List.map_cons, writeCounts, BlockQueue.drain, chainSize]
    rcases le_or_gt tmp.size n with hle | hlt
    · rw [if_pos hle] at hhalf
      rw [chainAfter_of_le hle] at ih
      obtain ⟨hdrain, hsize⟩ := ih hrest hhalf
      rw [BlockQueue.advance_of_le (by omega), hdrain]
      exact ⟨rfl, by omega⟩
    · rw [if_neg hlt.not_ge] at hhalf
      rw [chainAfter_of_ne hlt hhalf.1] at ih
      have hnext := htmp.advance (Int.natCast_nonneg n) hlt.le
      obtain ⟨hdrain, hsize⟩ := ih (List.forall_mem_cons.mpr ⟨hnext, hrest⟩) hhalf.2
      rw [List.map_cons, AppendBuffer.InBounds.bytes_advance (Int.natCast_nonneg n),
        Int.toNat_natCast] at hdrain
      rw [BlockQueue.advance_of_lt (by omega), hdrain]
      simp only [chainSize, AppendBuffer.advance] at hsize
      exact ⟨rfl, by omega⟩

/-- After such a `write` bytes are missing. -/
theorem length_lt (h : ChainRun q r ws acc q' r') (hin : ∀ b ∈ q, b.InBounds)
    (hhalf : ¬NoHalfWrite (q.map AppendBuffer.size) ws) :
    (acc ++ chainBytes q').length < (chainBytes q).length := by
  induction h with
  | done r ws => exact absurd (noHalfWrite_nil ws) hhalf
  | eintr h ih => exact ih hin hhalf
  | eagain => exact absurd trivial hhalf
  | @wrote tmp rest r ws acc q' r' n h ih =>
    obtain ⟨htmp, hrest⟩ := List.forall_mem_cons.mp hin
    have hlen := htmp.length_bytes
    have hpos := htmp.size_nonneg
    simp only [List.map_cons, NoHalfWrite] at hhalf
    rw [htmp.accepted_eq]
    simp only [List.length_append] at ih
    simp only [chainBytes_cons, List.length_append, List.length_take]
    rcases le_or_gt tmp.size n with hle | hlt
    · rw [if_pos hle] at hhalf
      rw [chainAfter_of_le hle] at ih
      have hlater := ih hrest hhalf
      omega
    · rw [if_neg hlt.not_ge, not_and_or, not_not] at hhalf
      by_cases heq : 2 * (n : ℤ) = tmp.size
      · rw [chainAfter_of_half hlt heq] at h
        have hlater := (h.sublist hrest).length_le
        rw [List.length_append] at hlater
        omega
      · rw [chainAfter_of_ne hlt heq] at ih
        have hnext := htmp.advance (Int.natCast_nonneg n) hlt.le
        have hlater := ih (List.forall_mem_cons.mpr ⟨hnext, hrest⟩) (hhalf.resolve_left heq)
        simp only [chainBytes_cons, AppendBuffer.InBounds.bytes_advance (Int.natCast_nonneg n),
          Int.toNat_natCast, List.length_append, List.length_drop] at hlater
        omega

end ChainRun

/-- A call of `send_buffer` conserves the output: the bytes that `write` accepts, followed by those
pending at return, are those pending at entry, and `remain_size` is the sum of the sizes of the
blocks still in the chain. -/
def BufferConserves (ss : SocketServer) (i : Uid) (ws : List WriteRes) (ss' : SocketServer) :
    Prop :=
  sendBufferAccepted ss i ws ++ (ss'.socketPool i).pending = (ss.socketPool i).pending ∧
    (ss'.socketPool i).remainSize = chainSize (ss'.socketPool i).head

/-- **The chain is sent exactly unless a block is given up early.** For every chain of blocks and
every sequence of `write` outcomes, a call of `send_buffer` conserves the output just when no
`write` accepts exactly half of what is left of a block. -/
theorem send_buffer_conserves_iff {ss ss' : SocketServer} {i : Uid} {ws : List WriteRes}
    {out : List IoMsg} (hin : ∀ b ∈ (ss.socketPool i).head, b.InBounds)
    (hremain : (ss.socketPool i).remainSize = chainSize (ss.socketPool i).head)
    (hfail : .fail ∉ ws) (h : sendBuffer ss i ws = .ok (ss', out)) :
    BufferConserves ss i ws ss' ↔
      NoHalfWrite ((ss.socketPool i).head.map AppendBuffer.size) ws := by
  have hrun := sendBuffer_run hfail h
  constructor
  · rintro ⟨hbytes, -⟩
    by_contra hhalf
    have hlt := hrun.length_lt hin hhalf
    rw [Socket.pending, Socket.pending] at hbytes
    rw [hbytes] at hlt
    exact lt_irrefl _ hlt
  · intro hhalf
    obtain ⟨hdrain, hsize⟩ := hrun.drain hin hhalf
    have hconserve := BlockQueue.drain_conserves ((ss.socketPool i).head.map AppendBuffer.bytes)
      (writeCounts ws)
    rw [hdrain] at hconserve
    exact ⟨hconserve, by omega⟩

/-- A client takes two bytes of a message of four: the other two are pending in one block. -/
theorem exists_pending : ∃ ss, poolMachine.Exec PoolOp.Fresh socketServerCreate
    [.accept ⟨some 6, true, true⟩, .start 1 true, .node (.broadcast 4 [1] [3, 1, 2, 5]) [.wrote 2]]
    [] ss ∧ (ss.socketPool 1).head = [⟨0, [3, 1, 2, 5], 2, 2⟩] ∧
    (ss.socketPool 1).remainSize = 2 := by
  have hnew : PoolOp.Fresh socketServerCreate (.accept ⟨some 6, true, true⟩) :=
    PoolOp.fresh_accept (fun _ => rfl) _
  have hrun : poolMachine.Exec PoolOp.Fresh socketServerCreate
      [.accept ⟨some 6, true, true⟩, .start 1 true,
        .node (.broadcast 4 [1] [3, 1, 2, 5]) [.wrote 2]] [] _ :=
    ((Machine.Exec.single hnew (o := []) rfl).next (o := []) (PoolOp.fresh_start ..) rfl).next
      (o := []) (PoolOp.fresh_node ..) rfl
  exact ⟨_, hrun, by decide +kernel, by decide +kernel⟩

/-- A last block that leaves the chain ends the call. -/
theorem sendBuffer_last {ss : SocketServer} {i : Uid} {tmp : AppendBuffer} {n : ℕ}
    (hhead : (ss.socketPool i).head = [tmp])
    (hlast : chainAfter tmp [] (min (n : ℤ) tmp.size) = []) :
    ∃ ss', sendBuffer ss i [.wrote n] = .ok (ss', []) := by
  have hnext : ((sendBufferWrote ss i tmp [] (min (n : ℤ) tmp.size)).socketPool i).head = [] := by
    rw [sendBufferWrote_self]
    exact hlast
  refine ⟨sendBufferDone (sendBufferWrote ss i tmp [] (min (n : ℤ) tmp.size)) i, ?_⟩
  simp only [sendBuffer, hhead, hnext, if_true]

/-- Two messages are pending in two blocks of three bytes. The first block is accepted in two parts
with an interruption in between, and of the second block one byte is left when there is no more
room. -/
theorem send_buffer_conserves_in_parts : ∃ ss ss',
    poolMachine.Exec PoolOp.Fresh socketServerCreate
      [.accept ⟨some 6, true, true⟩, .start 1 true,
        .node (.broadcast 4 [1] [3, 1, 2, 5]) [.wrote 1],
        .node (.broadcast 3 [1] [2, 7, 9]) [.wrote 3]] [] ss ∧
    (ss.socketPool 1).pending = [1, 2, 5, 2, 7, 9] ∧
    sendBuffer ss 1 [.wrote 1, .eintr, .wrote 5, .wrote 2, .eagain] = .ok (ss', []) ∧
    (ss'.socketPool 1).pending = [9] ∧
    BufferConserves ss 1 [.wrote 1, .eintr, .wrote 5, .wrote 2, .eagain] ss' := by
  obtain ⟨ss, hrun, hhead, hremain, hobs⟩ : ∃ ss, poolMachine.Exec PoolOp.Fresh socketServerCreate
      [.accept ⟨some 6, true, true⟩, .start 1 true,
        .node (.broadcast 4 [1] [3, 1, 2, 5]) [.wrote 1],
        .node (.broadcast 3 [1] [2, 7, 9]) [.wrote 3]] [] ss ∧
      (ss.socketPool 1).head = [⟨0, [3, 1, 2, 5], 1, 3⟩, ⟨1, [2, 7, 9], 0, 3⟩] ∧
      (ss.socketPool 1).remainSize = 6 ∧
      (sendBuffer ss 1 [.wrote 1, .eintr, .wrote 5, .wrote 2, .eagain]).map
        (fun p => (p.2, (p.1.socketPool 1).pending)) = .ok ([], [9]) := by
    have hnew : PoolOp.Fresh socketServerCreate (.accept ⟨some 6, true, true⟩) :=
      PoolOp.fresh_accept (fun _ => rfl) _
    have hrun : poolMachine.Exec PoolOp.Fresh socketServerCreate
        [.accept ⟨some 6, true, true⟩, .start 1 true,
          .node (.broadcast 4 [1] [3, 1, 2, 5]) [.wrote 1],
          .node (.broadcast 3 [1] [2, 7, 9]) [.wrote 3]] [] _ :=
      (((Machine.Exec.single hnew (o := []) rfl).next (o := []) (PoolOp.fresh_start ..) rfl).next
        (o := []) (PoolOp.fresh_node ..) rfl).next (o := []) (PoolOp.fresh_node ..) rfl
    exact ⟨_, hrun, by decide +kernel, by decide +kernel, by decide +kernel⟩
  obtain ⟨⟨ss', out⟩, hsend, hobs⟩ := Except.map_eq_ok_iff.mp hobs
  obtain ⟨rfl, hleft⟩ := Prod.mk.inj hobs
  refine ⟨ss, ss', hrun, ?_, hsend, hleft,
    (send_buffer_conserves_iff ?_ ?_ (by decide) hsend).mpr ?_⟩
  · rw [Socket.pending, hhead]
    rfl
  · rw [hhead]
    exact List.forall_mem_cons.mpr
      ⟨⟨by decide, by decide⟩, List.forall_mem_singleton.mpr ⟨by decide, by decide⟩⟩
  · rw [hremain, hhead]
    rfl
  · rw [hhead]
    simp [NoHalfWrite]

/-- One of the two bytes is accepted: the block is given up, and the other byte is lost. -/
theorem send_buffer_drops_half : ∃ ss ss', poolMachine.Exec PoolOp.Fresh socketServerCreate
    [.accept ⟨some 6, true, true⟩, .start 1 true, .node (.broadcast 4 [1] [3, 1, 2, 5]) [.wrote 2]]
    [] ss ∧ (ss.socketPool 1).pending = [2, 5] ∧ (ss.socketPool 1).remainSize = 2 ∧
    sendBuffer ss 1 [.wrote 1] = .ok (ss', []) ∧ ¬BufferConserves ss 1 [.wrote 1] ss' := by
  obtain ⟨ss, hrun, hhead, hremain⟩ := exists_pending
  obtain ⟨ss', hsend⟩ := sendBuffer_last (n := 1) hhead rfl
  have hpending : (ss.socketPool 1).pending = [2, 5] := by
    rw [Socket.pending, hhead]
    rfl
  refine ⟨ss, ss', hrun, hpending, hremain, hsend, ?_⟩
  rintro ⟨hbytes, -⟩
  have hlt := (sendBuffer_run (by decide) hsend).length_lt (by
    rw [hhead]
    exact List.forall_mem_singleton.mpr ⟨by decide, by decide⟩) (by
    rw [hhead]
    simp [NoHalfWrite])
  rw [Socket.pending, Socket.pending] at hbytes
  rw [hbytes] at hlt
  exact lt_irrefl _ hlt

end GameServer
