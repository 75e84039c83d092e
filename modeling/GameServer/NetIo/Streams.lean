import GameServer.NetIo.Output

/-!
# The output of a connection from event to event

What a connection has been given and what `write` has accepted of it, through the events and sends
of net IO. A call of `send_data` or `send_buffer` moves bytes from the chain of the slot to the
kernel; a failing `write` ends the connection, and what is pending then is lost, but what has been
accepted until then is the front of what was there. An accept opens a connection with nothing
pending.

## Main definitions

* `Socket.Ready` : the chain of a slot between operations.
* `Transfer` : a slot before and after an operation, with the bytes given and accepted.
* `eventAccepted` : the bytes that `write` accepts of a connection during an event.

## Main results

* `sendBuffer_transfer`, `sendData_transfer` : `send_buffer` and `send_data` are transfers.
* `disposeEvent_transfer` : so is every event, for every connection.
-/

namespace GameServer

/-- The chain of a slot between operations: `tail` is its last block, and the unsent part of each
block lies inside its buffer. -/
structure Socket.Ready (s : Socket) : Prop where
  linked : s.Linked
  inBounds : ∀ b ∈ s.head, b.InBounds

/-- A slot without pending blocks. -/
theorem Socket.Ready.of_empty {s : Socket} (hhead : s.head = []) (htail : s.tail = none) :
    s.Ready where
  linked := by rw [Socket.Linked, htail, hhead, List.getLast?_nil, Option.map_none]
  inBounds b hb := by
    rw [hhead] at hb
    cases hb

theorem Socket.pending_eq_nil {s : Socket} (hhead : s.head = []) : s.pending = [] := by
  rw [Socket.pending, hhead, chainBytes_nil]

/-- The slot of a connection `s` has become `s'`: it was given bytes, and `write` has accepted some.
What was accepted is the front of what was there, and all but the pending bytes while the
connection is open. -/
structure Transfer (s : Socket) (given accepted : List UInt8) (s' : Socket) : Prop where
  ready : s'.Ready
  front : accepted <+: s.pending ++ given
  rest : s'.type = .connectAdd → accepted ++ s'.pending = s.pending ++ given

namespace Transfer

variable {s s' : Socket} {given accepted : List UInt8}

theorem refl (h : s.Ready) : Transfer s [] [] s :=
  ⟨h, List.nil_prefix, fun _ => by rw [List.nil_append, List.append_nil]⟩

/-- A connection that ends. -/
theorem of_closed (hready : s'.Ready) (htype : s'.type ≠ .connectAdd) (given : List UInt8) :
    Transfer s given [] s' :=
  ⟨hready, List.nil_prefix, fun h => absurd h htype⟩

theorem of_rest (hready : s'.Ready) (hrest : accepted ++ s'.pending = s.pending ++ given) :
    Transfer s given accepted s' :=
  ⟨hready, ⟨_, hrest⟩, fun _ => hrest⟩

/-- Bytes that were accepted before. -/
theorem cons {s₁ : Socket} {front : List UInt8} (h : Transfer s₁ [] accepted s')
    (hfront : front ++ s₁.pending = s.pending) : Transfer s [] (front ++ accepted) s' where
  ready := h.ready
  front := by
    rw [List.append_nil, ← hfront, List.prefix_append_right_inj]
    simpa only [List.append_nil] using h.front
  rest hopen := by
    have hrest := h.rest hopen
    rw [List.append_nil] at hrest ⊢
    rw [List.append_assoc, hrest, hfront]

end Transfer

/-- A closed slot has nothing pending. -/
theorem closeFd_ready {ss : SocketServer} {i : Uid} (h : (ss.socketPool i).type ≠ .invalid) :
    ((closeFd ss i).1.socketPool i).Ready ∧
      ((closeFd ss i).1.socketPool i).type ≠ .connectAdd := by
  rw [closeFd_pool h, Function.update_self]
  exact ⟨.of_empty rfl rfl, SocketType.noConfusion⟩

theorem closeFd_of_ne {ss : SocketServer} {i v : Uid} (hv : v ≠ i) :
    (closeFd ss i).1.socketPool v = ss.socketPool v := by
  unfold closeFd
  simp only
  split_ifs
  · rfl
  · exact Function.update_of_ne hv ..

/-! ### `send_buffer` -/

/-- A `write` that does not give up the first block takes the front of the pending bytes. -/
theorem take_append_chainAfter {tmp : AppendBuffer} (htmp : tmp.InBounds) (n : ℕ)
    (hhalf : n < tmp.size → 2 * (n : ℤ) ≠ tmp.size) (rest : List AppendBuffer) :
    tmp.bytes.take n ++ chainBytes (chainAfter tmp rest (min (n : ℤ) tmp.size)) =
      chainBytes (tmp :: rest) := by
  have hlen := htmp.length_bytes
  have hpos := htmp.size_nonneg
  rw [chainBytes_cons]
  rcases le_or_gt tmp.size n with hle | hlt
  · rw [chainAfter_of_le hle, List.take_of_length_le (by omega)]
  · rw [chainAfter_of_ne hlt (hhalf hlt), chainBytes_cons,
      AppendBuffer.InBounds.bytes_advance (Int.natCast_nonneg n), Int.toNat_natCast,
      ← List.append_assoc, List.take_append_drop]

/-- The blocks of the chain after a `write` are inside their buffers. -/
theorem chainAfter_inBounds {tmp : AppendBuffer} {rest : List AppendBuffer}
    (hin : ∀ b ∈ tmp :: rest, b.InBounds) (n : ℕ) :
    ∀ b ∈ chainAfter tmp rest (min (n : ℤ) tmp.size), b.InBounds := by
  obtain ⟨htmp, hrest⟩ := List.forall_mem_cons.mp hin
  have hpos := htmp.size_nonneg
  unfold chainAfter
  split_ifs
  · exact hrest
  · exact List.forall_mem_cons.mpr ⟨htmp.advance (by omega) (by omega), hrest⟩

/-- The chain after a `write` is empty or ends as before. -/
theorem chainAfter_getLast? (tmp : AppendBuffer) (rest : List AppendBuffer) (n : ℤ)
    (hne : chainAfter tmp rest n ≠ []) :
    (chainAfter tmp rest n).getLast?.map AppendBuffer.addr =
      (tmp :: rest).getLast?.map AppendBuffer.addr := by
  unfold chainAfter at hne ⊢
  split_ifs at hne ⊢
  · cases rest with
    | nil => exact absurd rfl hne
    | cons b rest => rfl
  · rw [← List.getLast?_map, ← List.getLast?_map]
    rfl

/-- The sizes that `NoHalfWrite` goes on with are those of the chain after the `write`. -/
theorem noHalfWrite_chainAfter {tmp : AppendBuffer} {rest : List AppendBuffer} {n : ℕ}
    {ws : List WriteRes}
    (h : NoHalfWrite ((tmp :: rest).map AppendBuffer.size) (.wrote n :: ws)) :
    (n < tmp.size → 2 * (n : ℤ) ≠ tmp.size) ∧
      NoHalfWrite ((chainAfter tmp rest (min (n : ℤ) tmp.size)).map AppendBuffer.size) ws := by
  simp only [List.map_cons, NoHalfWrite] at h
  rcases le_or_gt tmp.size n with hle | hlt
  · rw [if_pos hle] at h
    rw [chainAfter_of_le hle]
    exact ⟨fun hlt => absurd hle hlt.not_ge, h⟩
  · rw [if_neg hlt.not_ge] at h
    rw [chainAfter_of_ne hlt h.1]
    exact ⟨fun _ => h.1, h.2⟩

/-- The end of `send_buffer` leaves an empty chain. -/
theorem sendBufferDone_transfer {ss : SocketServer} {i : Uid}
    (hhead : (ss.socketPool i).head = []) :
    Transfer (ss.socketPool i) [] [] ((sendBufferDone ss i).socketPool i) := by
  rw [sendBufferDone, SocketServer.epollWrite_socketPool, SocketServer.setSocket_pool,
    Function.update_self]
  refine .of_rest (.of_empty hhead rfl) ?_
  rw [List.nil_append, List.append_nil]
  rfl

/-- **`send_buffer`.** Whatever its `write` calls return, as long as none of them makes it give up
a block, the call is a transfer of the slot. -/
theorem sendBuffer_transfer {ss ss' : SocketServer} {i : Uid} {ws : List WriteRes}
    {out : List IoMsg} (hopen : ss.Open i) (hin : ∀ b ∈ (ss.socketPool i).head, b.InBounds)
    (hlinked : (ss.socketPool i).head ≠ [] → (ss.socketPool i).Linked)
    (hhalf : NoHalfWrite ((ss.socketPool i).head.map AppendBuffer.size) ws)
    (h : sendBuffer ss i ws = .ok (ss', out)) :
    Transfer (ss.socketPool i) [] (sendBufferAccepted ss i ws) (ss'.socketPool i) := by
  induction ws generalizing ss with
  | nil =>
    simp only [sendBuffer] at h
    split_ifs at h with hhead
    obtain ⟨rfl, -⟩ := Prod.mk.inj (Except.ok.inj h)
    exact sendBufferDone_transfer hhead
  | cons w ws ih =>
    cases hhead : (ss.socketPool i).head with
    | nil =>
      simp only [sendBuffer, hhead] at h
      obtain ⟨rfl, -⟩ := Prod.mk.inj (Except.ok.inj h)
      simp only [sendBufferAccepted, hhead]
      exact sendBufferDone_transfer hhead
    | cons tmp rest =>
      simp only [sendBuffer, hhead] at h
      simp only [sendBufferAccepted, hhead]
      cases w with
      | eintr =>
        rw [hhead] at hhalf
        refine ih hopen hin hlinked ?_ h
        rw [hhead]
        exact hhalf
      | eagain =>
        obtain ⟨rfl, -⟩ := Prod.mk.inj (Except.ok.inj h)
        exact .refl ⟨hlinked (by rw [hhead]; exact List.cons_ne_nil _ _), hin⟩
      | fail =>
        simp only [sendError_eq hopen] at h
        obtain ⟨rfl, -⟩ := Prod.mk.inj (Except.ok.inj h)
        obtain ⟨hready, htype⟩ := closeFd_ready hopen.type_ne
        exact .of_closed hready htype _
      | wrote n =>
        rw [hhead] at hhalf hin
        obtain ⟨hnot, hhalf⟩ := noHalfWrite_chainAfter hhalf
        have hself := sendBufferWrote_self ss i tmp rest (min (n : ℤ) tmp.size)
        have hlast := hlinked (by rw [hhead]; exact List.cons_ne_nil _ _)
        rw [Socket.Linked, hhead] at hlast
        have hstays : (sendBufferWrote ss i tmp rest (min (n : ℤ) tmp.size)).Open i := by
          rw [SocketServer.Open, hself]
          exact hopen
        have hlater := ih hstays
          (by rw [hself]; exact chainAfter_inBounds hin n)
          (by
            rw [hself]
            intro hne
            exact hlast.trans (chainAfter_getLast? tmp rest _ hne).symm)
          (by rw [hself]; exact hhalf) h
        have htmp := hin tmp List.mem_cons_self
        simp only [htmp.accepted_eq]
        refine hlater.cons ?_
        rw [hself, Socket.pending, Socket.pending, hhead]
        exact take_append_chainAfter htmp n hnot rest

theorem sendBuffer_of_ne {ss ss' : SocketServer} {i v : Uid} {ws : List WriteRes}
    {out : List IoMsg} (hv : v ≠ i) (h : sendBuffer ss i ws = .ok (ss', out)) :
    ss'.socketPool v = ss.socketPool v := by
  have hdone (ss : SocketServer) : (sendBufferDone ss i).socketPool v = ss.socketPool v := by
    rw [sendBufferDone, SocketServer.epollWrite_socketPool]
    exact Function.update_of_ne hv ..
  induction ws generalizing ss with
  | nil =>
    simp only [sendBuffer] at h
    split_ifs at h
    obtain ⟨rfl, -⟩ := Prod.mk.inj (Except.ok.inj h)
    exact hdone ss
  | cons w ws ih =>
    simp only [sendBuffer] at h
    split at h
    · obtain ⟨rfl, -⟩ := Prod.mk.inj (Except.ok.inj h)
      exact hdone ss
    · cases w with
      | eintr => exact ih h
      | eagain =>
        obtain ⟨rfl, -⟩ := Prod.mk.inj (Except.ok.inj h)
        rfl
      | fail =>
        obtain ⟨rfl, -⟩ := Prod.mk.inj (Except.ok.inj h)
        exact closeFd_of_ne hv
      | wrote n => exact (ih h).trans (Function.update_of_ne hv ..)

/-! ### `send_data` -/

/-- The slot after `append_remaindata`, with the bytes of the message from `start` on. -/
theorem Socket.Ready.append {s : Socket} (h : s.Ready) {buf : List UInt8} {addr start : ℕ}
    (hstart : start ≤ buf.length) :
    (s.append ⟨addr, strncpy buf buf.length, start, buf.length - start⟩).Ready where
  linked := by
    rw [Socket.Linked]
    simp only [Socket.append, List.getLast?_concat, Option.map_some]
  inBounds b hb := by
    rcases List.mem_append.mp hb with hb | hb
    · exact h.inBounds b hb
    · rw [List.mem_singleton.mp hb]
      have hlen := length_strncpy buf
      constructor
      · simp only
        omega
      · simp only
        omega

instance (buf : List UInt8) (start : ℕ) : Decidable (StringFrom buf start) :=
  decidable_of_iff _ (drop_strncpy_eq_iff buf start)

/-- What `send_data` queues of the message is copied exactly, unless its `write` fails. -/
def SendKeeps (s : Socket) (buf : List UInt8) (w : WriteRes) : Prop :=
  (s.head = [] ∧ w = .fail) ∨ StringFrom buf (acceptedDirectly s buf.length w)

instance (s : Socket) (buf : List UInt8) (w : WriteRes) : Decidable (SendKeeps s buf w) :=
  inferInstanceAs (Decidable ((s.head = [] ∧ w = .fail) ∨
    StringFrom buf (acceptedDirectly s buf.length w)))

/-- **`send_data`.** For a message whose queued part is copied exactly, the call is a transfer of
the slot, and the other slots stay as they are. -/
theorem sendData_transfer {ss ss' : SocketServer} {i : Uid} {buf : List UInt8} {w : WriteRes}
    {out : List IoMsg} (hready : (ss.socketPool i).Ready)
    (hkeeps : SendKeeps (ss.socketPool i) buf w)
    (h : sendData ss i buf buf.length w = .ok (ss', out)) :
    Transfer (ss.socketPool i) buf
        (buf.take (acceptedDirectly (ss.socketPool i) buf.length w)) (ss'.socketPool i) ∧
      ∀ v, v ≠ i → ss'.socketPool v = ss.socketPool v := by
  obtain ⟨hopen, -⟩ := sendData_cases h
  have hlinked := hready.linked
  -- The part of the message from `start` on is appended to the chain.
  have happend (start : ℕ) (hstart : start ≤ buf.length) {ss₁ : SocketServer}
      (hpool : ss₁.socketPool = Function.update ss.socketPool i ((ss.socketPool i).append
        ⟨ss.nextAddr, strncpy buf buf.length, start, buf.length - start⟩))
      (hcopy : StringFrom buf start) (hdirect : start ≠ 0 → (ss.socketPool i).head = []) :
      Transfer (ss.socketPool i) buf (buf.take start) (ss₁.socketPool i) ∧
        ∀ v, v ≠ i → ss₁.socketPool v = ss.socketPool v := by
    rw [hpool]
    refine ⟨?_, fun v hv => Function.update_of_ne hv ..⟩
    rw [Function.update_self]
    refine .of_rest (hready.append hstart) ?_
    rw [pending_append hstart, (drop_strncpy_eq_iff buf start).mpr hcopy]
    rcases Nat.eq_zero_or_pos start with rfl | hpos
    · rw [List.take_zero, List.nil_append, List.drop_zero]
    · rw [Socket.pending_eq_nil (hdirect (Nat.ne_of_gt hpos)), List.nil_append, List.nil_append,
        List.take_append_drop]
  have hrest (n : ℕ) (hn : n ≤ buf.length) (hhead : (ss.socketPool i).head = [])
      (hcopy : StringFrom buf n) (h : sendRest ss i buf buf.length n = .ok (ss', out)) :
      Transfer (ss.socketPool i) buf (buf.take n) (ss'.socketPool i) ∧
        ∀ v, v ≠ i → ss'.socketPool v = ss.socketPool v := by
    unfold sendRest at h
    rw [appendRemaindata_eq hlinked] at h
    split_ifs at h with hlt
    · obtain ⟨rfl, -⟩ := Prod.mk.inj (Except.ok.inj h)
      refine happend n hn ?_ hcopy fun _ => hhead
      rw [SocketServer.epollWrite_socketPool, SocketServer.setSocket_pool]
      rfl
    · obtain ⟨rfl, -⟩ := Prod.mk.inj (Except.ok.inj h)
      obtain rfl : n = buf.length := by omega
      refine ⟨.of_rest hready ?_, fun _ _ => rfl⟩
      rw [Socket.pending_eq_nil hhead, List.take_length, List.append_nil, List.nil_append]
  have htype : (ss.socketPool i).type = .connectAdd := hopen
  unfold sendData at h
  rw [if_pos htype] at h
  by_cases hhead : (ss.socketPool i).head = []
  · rw [if_pos hhead] at h
    simp only [SendKeeps, acceptedDirectly, hhead, true_and] at hkeeps ⊢
    cases w with
    | fail =>
      simp only [sendError_eq hopen] at h
      obtain ⟨rfl, -⟩ := Prod.mk.inj (Except.ok.inj h)
      obtain ⟨hclosed, hnot⟩ := closeFd_ready hopen.type_ne
      exact ⟨.of_closed hclosed hnot _, fun v hv => closeFd_of_ne hv⟩
    | eintr => exact hrest 0 (Nat.zero_le _) hhead (hkeeps.resolve_left WriteRes.noConfusion) h
    | eagain => exact hrest 0 (Nat.zero_le _) hhead (hkeeps.resolve_left WriteRes.noConfusion) h
    | wrote n =>
      have hmin : (min (n : ℤ) buf.length) = ((min n buf.length : ℕ) : ℤ) := by omega
      simp only [hmin] at h
      exact hrest _ (Nat.min_le_right _ _) hhead (hkeeps.resolve_left WriteRes.noConfusion) h
  · rw [if_neg hhead, appendRemaindata_eq hlinked] at h
    obtain ⟨rfl, -⟩ := Prod.mk.inj (Except.ok.inj h)
    simp only [SendKeeps, acceptedDirectly, hhead, false_and, false_or] at hkeeps ⊢
    exact happend 0 (Nat.zero_le _) rfl hkeeps fun h => absurd rfl h

/-! ### Events -/

/-- The slot of a new client has nothing pending. -/
theorem disposeAccept_empty {ss ss' : SocketServer} {res : AcceptRes} {i : Uid}
    (h : disposeAccept ss res = .ok (ss', some i)) :
    (ss'.socketPool i).head = [] ∧ (ss'.socketPool i).tail = none := by
  unfold disposeAccept at h
  cases hfd : res.fd with
  | none =>
    simp only [hfd] at h
    cases h
  | some fd =>
    simp only [hfd] at h
    split_ifs at h
    · cases h
    · obtain ⟨⟨j, ss₂⟩, happly, h⟩ := Except.bind_eq_ok_iff.mp h
      obtain ⟨rfl, hi⟩ := Prod.mk.inj (Except.ok.inj h)
      obtain rfl := Option.some.inj hi
      obtain ⟨-, -, hpool⟩ := applySocket_cases happly
      rw [SocketServer.setSocket_pool, Function.update_self, hpool, Function.update_self]
      exact ⟨rfl, rfl⟩

/-- The bytes that `write` accepts of the connection `v` during an event. -/
def eventAccepted (ss : SocketServer) (eve : Event Uid) (oc : Outcomes) (v : Uid) : List UInt8 :=
  if v = eve.sP ∧ ss.Open v ∧ eve.read = false ∧ eve.write = true then
    sendBufferAccepted ss v oc.writes
  else []

/-- No `write` of the event makes `send_buffer` give up a block. -/
def EventKeeps (ss : SocketServer) (eve : Event Uid) (oc : Outcomes) : Prop :=
  ss.Open eve.sP → eve.read = false → eve.write = true →
    NoHalfWrite ((ss.socketPool eve.sP).head.map AppendBuffer.size) oc.writes

/-- Whether a `write` gives up a block is decided write by write. -/
instance decidableNoHalfWrite :
    (sizes : List ℤ) → (ws : List WriteRes) → Decidable (NoHalfWrite sizes ws)
  | [], ws => .isTrue (noHalfWrite_nil ws)
  | _ :: _, [] => .isTrue trivial
  | size :: sizes, .eintr :: ws => decidableNoHalfWrite (size :: sizes) ws
  | _ :: _, .eagain :: _ => .isTrue trivial
  | _ :: _, .fail :: _ => .isTrue trivial
  | size :: sizes, .wrote n :: ws =>
    if h : size ≤ n then
      haveI := decidableNoHalfWrite sizes ws
      decidable_of_iff (NoHalfWrite sizes ws) (by simp only [NoHalfWrite, if_pos h])
    else
      haveI := decidableNoHalfWrite ((size - n) :: sizes) ws
      decidable_of_iff (2 * (n : ℤ) ≠ size ∧ NoHalfWrite ((size - n) :: sizes) ws)
        (by simp only [NoHalfWrite, if_neg h])

instance (ss : SocketServer) (eve : Event Uid) (oc : Outcomes) :
    Decidable (EventKeeps ss eve oc) :=
  inferInstanceAs (Decidable (_ → _))

/-- What an event is to the connection `v`: it is opened with nothing pending, or its slot is as in
a transfer. -/
inductive EventTransfer (ss ss' : SocketServer) (out : List IoMsg) (accepted : List UInt8)
    (v : Uid) : Prop
  | opened (hout : out = [.success v]) (hready : (ss'.socketPool v).Ready)
      (hpending : (ss'.socketPool v).pending = [])
  | moved (hout : .success v ∉ out) (hold : ss'.Open v → ss.Open v)
      (h : Transfer (ss.socketPool v) [] accepted (ss'.socketPool v))

namespace EventTransfer

variable {ss ss' : SocketServer} {out : List IoMsg} {v : Uid}

/-- A slot that stays as it is. -/
theorem of_eq (hready : (ss.socketPool v).Ready) (hsame : ss'.socketPool v = ss.socketPool v)
    (hout : .success v ∉ out) : EventTransfer ss ss' out [] v := by
  refine .moved hout (fun h => ?_) ?_
  · rwa [SocketServer.Open, hsame] at h
  · rw [hsame]
    exact .refl hready

/-- A slot that is closed. -/
theorem of_closeFd {i : Uid} (hopen : ss.Open i) (hready : ∀ v, (ss.socketPool v).Ready)
    (hout : .success v ∉ out) : EventTransfer ss (closeFd ss i).1 out [] v := by
  by_cases hv : v = i
  · subst hv
    obtain ⟨hclosed, hnot⟩ := closeFd_ready hopen.type_ne
    exact .moved hout (fun h => absurd h hnot) (.of_closed hclosed hnot _)
  · exact of_eq (hready v) (closeFd_of_ne hv) hout

end EventTransfer

theorem eventAccepted_eq_nil {ss : SocketServer} {eve : Event Uid} {oc : Outcomes}
    (h : ss.Open eve.sP → eve.read = false → eve.write = true → False) (v : Uid) :
    eventAccepted ss eve oc v = [] := by
  refine if_neg ?_
  rintro ⟨rfl, hopen, hread, hwrite⟩
  exact h hopen hread hwrite

/-- A new client. -/
theorem accept_transfer {ss ss₁ ss₂ : SocketServer} {res : AcceptRes} {i : Uid}
    {ok success : Bool} (hready : ∀ v, (ss.socketPool v).Ready)
    (haccept : disposeAccept ss res = .ok (ss₁, some i))
    (hstart : socketServerStart ss₁ i ok = (ss₂, success)) (v : Uid) :
    EventTransfer ss ss₂ (if success then [.success i] else []) [] v := by
  rcases disposeAccept_cases haccept with ⟨hnone, -⟩ | ⟨j, s, hj, hfree, htype, -, hpool⟩
  · cases hnone
  obtain rfl : i = j := Option.some.inj hj
  obtain ⟨hhead, htail⟩ := disposeAccept_empty haccept
  have hself : ss₁.socketPool i = s := by rw [hpool, Function.update_self]
  rw [hself] at hhead htail
  obtain ⟨ty, hpool₂, hty⟩ := socketServerStart_cases (hself ▸ htype) hstart
  rw [hself, hpool, Function.update_idem] at hpool₂
  by_cases hv : v = i
  · subst hv
    have hslot : ss₂.socketPool v = { s with type := ty } := by rw [hpool₂, Function.update_self]
    have hslotReady : (ss₂.socketPool v).Ready := by
      rw [hslot]
      exact .of_empty hhead htail
    rcases hty with ⟨rfl, rfl⟩ | ⟨rfl, rfl⟩
    · refine .opened rfl hslotReady ?_
      rw [hslot]
      exact Socket.pending_eq_nil hhead
    · have hnot : (ss₂.socketPool v).type ≠ .connectAdd := by
        rw [hslot]
        exact SocketType.noConfusion
      exact .moved List.not_mem_nil (fun h => absurd h hnot) (.of_closed hslotReady hnot _)
  · refine .of_eq (hready v) (by rw [hpool₂, Function.update_of_ne hv]) ?_
    split_ifs
    · simpa only [List.mem_singleton, IoMsg.success.injEq] using hv
    · exact List.not_mem_nil

/-- **Events.** For every connection an event is a transfer, or opens it. -/
theorem disposeEvent_transfer {ss ss' : SocketServer} {eve : Event Uid} {oc : Outcomes}
    {out : List IoMsg} (hid : IdInv ss) (hready : ∀ v, (ss.socketPool v).Ready)
    (hkeeps : EventKeeps ss eve oc) (h : disposeEvent ss eve oc = .ok (ss', out)) (v : Uid) :
    EventTransfer ss ss' out (eventAccepted ss eve oc v) v := by
  unfold disposeEvent at h
  split at h
  · next htype =>
    have hnot : ¬ss.Open eve.sP := by
      rw [SocketServer.Open, htype]
      exact SocketType.noConfusion
    rw [eventAccepted_eq_nil fun hopen => absurd hopen hnot]
    obtain ⟨⟨ss₁, id⟩, haccept, h⟩ := Except.bind_eq_ok_iff.mp h
    cases id with
    | none =>
      obtain ⟨rfl, rfl⟩ := Prod.mk.inj (Except.ok.inj h)
      rcases disposeAccept_cases haccept with ⟨-, hpool⟩ | ⟨i, s, hi, -⟩
      · exact .of_eq (hready v) (by rw [hpool]) List.not_mem_nil
      · cases hi
    | some i =>
      cases hstart : socketServerStart ss₁ i oc.accept.epollOk with
      | mk ss₂ success =>
        simp only [hstart] at h
        obtain ⟨rfl, rfl⟩ := Prod.mk.inj (Except.ok.inj h)
        exact accept_transfer hready haccept hstart v
  · next hopen =>
    replace hopen : ss.Open eve.sP := hopen
    split_ifs at h with hread hwrite
    · rw [eventAccepted_eq_nil fun _ hfalse => by rw [hread] at hfalse; cases hfalse]
      rcases disposeReadmessage_cases hid hopen h with ⟨rfl, data, rfl⟩ | ⟨-, rfl, rfl⟩
      · refine .of_eq (hready v) rfl fun hmem => ?_
        cases List.mem_singleton.mp hmem
      · refine .of_closeFd hopen hready fun hmem => ?_
        cases List.mem_singleton.mp hmem
    · have hread : eve.read = false := Bool.eq_false_iff.mpr hread
      have hout : .success v ∉ out := by
        rcases sendBuffer_cases hopen h with ⟨-, rfl⟩ | ⟨-, ss₁, -, -, rfl⟩
        · exact List.not_mem_nil
        · intro hmem
          cases List.mem_singleton.mp hmem
      by_cases hv : v = eve.sP
      · subst hv
        have htransfer := sendBuffer_transfer hopen (hready eve.sP).inBounds
          (fun _ => (hready eve.sP).linked) (hkeeps hopen hread hwrite) h
        rw [eventAccepted, if_pos ⟨rfl, hopen, hread, hwrite⟩]
        exact .moved hout (fun _ => hopen) htransfer
      · rw [eventAccepted, if_neg fun hand => hv hand.1]
        exact .of_eq (hready v) (sendBuffer_of_ne hv h) hout
    · obtain ⟨rfl, rfl⟩ := Prod.mk.inj (Except.ok.inj h)
      rw [eventAccepted_eq_nil fun _ _ hw => absurd hw hwrite]
      exact .of_eq (hready v) rfl List.not_mem_nil
  · next _ htype =>
    obtain ⟨rfl, rfl⟩ := Prod.mk.inj (Except.ok.inj h)
    rw [eventAccepted_eq_nil fun hopen => absurd hopen htype]
    exact .of_eq (hready v) rfl List.not_mem_nil

/-- A slot without pending blocks is written. -/
theorem Socket.Ready.update {f : Uid → Socket} (h : ∀ v, (f v).Ready) {i : Uid} {s : Socket}
    (hs : s.Ready) (v : Uid) : (Function.update f i s v).Ready := by
  by_cases hv : v = i
  · subst hv
    rwa [Function.update_self]
  · rw [Function.update_of_ne hv]
    exact h v

/-- The service starts with nothing pending. -/
theorem networkIoServiceStart_ready {ss : SocketServer} {listenFd netlogicFd : ℤ}
    (h : networkIoServiceStart listenFd netlogicFd = .ok ss) (v : Uid) :
    (ss.socketPool v).Ready := by
  obtain rfl := Except.ok.inj h
  let free : Socket := ⟨0, 0, .invalid, 0, [], none⟩
  show (Function.update (Function.update (Function.update (Function.update (Function.update
    (fun _ => free) 1 _) 1 _) 2 _) 2 _) 1 _ v).Ready
  exact .update (.update (.update (.update (.update (fun _ => .of_empty rfl rfl)
    (.of_empty rfl rfl)) (.of_empty rfl rfl)) (.of_empty rfl rfl)) (.of_empty rfl rfl))
    (.of_empty rfl rfl) v

end GameServer
