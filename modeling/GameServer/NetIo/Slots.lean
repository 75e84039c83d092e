import GameServer.NetIo.Service

/-!
# The open connections of net IO

A connection is open while its slot has the type `SOCKET_TYPE_CONNECT_ADD`. `SlotStep` states what
one event or one `send_data` does to the open connections and what it reports: nothing, a frame,
an open, a close, or, after a write error, a close under an id that the slot no longer has.

## Main definitions

* `SocketServer.Open`, `IdInv` : the open connections, whose slots hold their own index as id.
* `SameSlots` : two pools whose slots agree in type and id.
* `FrameLost` : the stream ends before a whole frame.
* `SlotStep` : the effect of one event, or of one message sent to one connection.

## Main results

* `disposeEvent_step`, `sendData_step` : events and sends are `SlotStep`s.
* `broadcastUserMsg_quiet` : a broadcast whose writes succeed reports nothing.
* `networkIoServiceStart_not_open` : the service starts without connections.
-/

namespace GameServer

namespace SocketServer

/-- The connection is open: its slot has the type `SOCKET_TYPE_CONNECT_ADD`. -/
def Open (ss : SocketServer) (u : Uid) : Prop := (ss.socketPool u).type = .connectAdd

instance (ss : SocketServer) (u : Uid) : Decidable (ss.Open u) :=
  inferInstanceAs (Decidable (_ = _))

end SocketServer

/-- The slot of an open connection holds its own index. -/
def IdInv (ss : SocketServer) : Prop := ∀ u, ss.Open u → (ss.socketPool u).id = u

/-- Types and ids of all slots agree. -/
def SameSlots (ss ss' : SocketServer) : Prop :=
  ∀ u, (ss'.socketPool u).type = (ss.socketPool u).type ∧
    (ss'.socketPool u).id = (ss.socketPool u).id

namespace SameSlots

variable {ss ss' ss'' : SocketServer}

theorem refl (ss : SocketServer) : SameSlots ss ss := fun _ => ⟨rfl, rfl⟩

theorem trans (h : SameSlots ss ss') (h' : SameSlots ss' ss'') : SameSlots ss ss'' :=
  fun u => ⟨(h' u).1.trans (h u).1, (h' u).2.trans (h u).2⟩

theorem open_iff (h : SameSlots ss ss') (u : Uid) : ss'.Open u ↔ ss.Open u := by
  simp only [SocketServer.Open, (h u).1]

theorem idInv (h : SameSlots ss ss') (hid : IdInv ss) : IdInv ss' := fun u hu => by
  rw [(h u).2]
  exact hid u ((h.open_iff u).mp hu)

/-- An update of one slot that keeps its type and its id. -/
theorem setSocket {i : Uid} {s : Socket} (htype : s.type = (ss.socketPool i).type)
    (hid : s.id = (ss.socketPool i).id) : SameSlots ss (ss.setSocket i s) := by
  intro u
  by_cases hu : u = i
  · subst hu
    simp only [SocketServer.setSocket_socketPool, Function.update_self]
    exact ⟨htype, hid⟩
  · simp only [SocketServer.setSocket_socketPool, Function.update_of_ne hu, and_self]

theorem epollWrite (ss : SocketServer) (fd : ℤ) (i : Uid) (write : Bool) :
    SameSlots ss (ss.epollWrite fd i write) := by
  unfold SocketServer.epollWrite
  split <;> exact fun _ => ⟨rfl, rfl⟩

end SameSlots

/-! ### Closing -/

theorem closeFd_pool {ss : SocketServer} {i : Uid} (h : (ss.socketPool i).type ≠ .invalid) :
    (closeFd ss i).1.socketPool = Function.update ss.socketPool i { ss.socketPool i with
      type := .invalid, id := 0, head := [], tail := none, remainSize := 0 } := by
  simp only [closeFd, if_neg h]
  rfl

theorem closeFd_id {ss : SocketServer} {i : Uid} (h : (ss.socketPool i).type ≠ .invalid) :
    (closeFd ss i).2 = some (ss.socketPool i).id := by
  simp only [closeFd, if_neg h]

/-- A closed connection is not open, the others stay as they are. -/
theorem closeFd_open_iff (ss : SocketServer) (i u : Uid) :
    (closeFd ss i).1.Open u ↔ ss.Open u ∧ u ≠ i := by
  by_cases hinv : (ss.socketPool i).type = .invalid
  · have hsame : (closeFd ss i).1 = ss := by simp only [closeFd, if_pos hinv]
    rw [hsame]
    refine (and_iff_left_of_imp ?_).symm
    rintro hu rfl
    simp only [SocketServer.Open, hinv, reduceCtorEq] at hu
  · unfold SocketServer.Open
    rw [closeFd_pool hinv]
    by_cases hu : u = i
    · subst hu
      simp only [Function.update_self, reduceCtorEq, ne_eq, not_true, and_false]
    · simp only [Function.update_of_ne hu, ne_eq, hu, not_false_iff, and_true]

theorem closeFd_idInv {ss : SocketServer} (hid : IdInv ss) (i : Uid) : IdInv (closeFd ss i).1 := by
  intro u hu
  obtain ⟨hopen, hne⟩ := (closeFd_open_iff ss i u).mp hu
  by_cases hinv : (ss.socketPool i).type = .invalid
  · simpa only [closeFd, if_pos hinv] using hid u hopen
  · rw [closeFd_pool hinv, Function.update_of_ne hne]
    exact hid u hopen

theorem SocketServer.Open.type_ne {ss : SocketServer} {i : Uid} (h : ss.Open i) :
    (ss.socketPool i).type ≠ .invalid := by
  rw [h]
  decide

/-- After a write error the close is reported under the id 0. -/
theorem sendError_eq {ss : SocketServer} {i : Uid} (h : ss.Open i) :
    sendError ss i = ((closeFd ss i).1, [.close 0]) := by
  simp only [sendError, reportSocketError, closeFd_pool h.type_ne, Function.update_self]

/-! ### Sending -/

/-- What one event, or one message sent to one connection, does to the open connections, with the
messages pushed to net logic; `ends` and `fails` hold of a connection whose read or write fails. -/
inductive SlotStep (ends fails : Uid → Prop) (ss ss' : SocketServer) : List IoMsg → Prop
  | quiet (h : ∀ v, ss'.Open v ↔ ss.Open v) : SlotStep ends fails ss ss' []
  | frame (u : Uid) (data : List UInt8) (hopen : ss.Open u) (h : ∀ v, ss'.Open v ↔ ss.Open v) :
      SlotStep ends fails ss ss' [.data u data.length data]
  | opened (u : Uid) (hnew : ¬ss.Open u) (h : ∀ v, ss'.Open v ↔ ss.Open v ∨ v = u) :
      SlotStep ends fails ss ss' [.success u]
  | closed (u : Uid) (hend : ends u) (hopen : ss.Open u)
      (h : ∀ v, ss'.Open v ↔ ss.Open v ∧ v ≠ u) : SlotStep ends fails ss ss' [.close u]
  | lost (u : Uid) (hfail : fails u) (hopen : ss.Open u)
      (h : ∀ v, ss'.Open v ↔ ss.Open v ∧ v ≠ u) : SlotStep ends fails ss ss' [.close 0]

theorem appendRemaindata_sameSlots {ss ss' : SocketServer} {i : Uid} {buf : List UInt8}
    {bufSize start : ℤ} (h : appendRemaindata ss i buf bufSize start = .ok ss') :
    SameSlots ss ss' := by
  unfold appendRemaindata at h
  simp only at h
  have halloc : SameSlots ss { ss with nextAddr := ss.nextAddr + 1 } := fun _ => ⟨rfl, rfl⟩
  split_ifs at h <;> cases h
  · exact halloc.trans (SameSlots.setSocket rfl rfl)
  · exact halloc.trans (SameSlots.setSocket rfl rfl)

theorem sendRest_sameSlots {ss ss' : SocketServer} {i : Uid} {buf : List UInt8} {len n : ℤ}
    {out : List IoMsg} (h : sendRest ss i buf len n = .ok (ss', out)) :
    SameSlots ss ss' ∧ out = [] := by
  unfold sendRest at h
  split_ifs at h
  · obtain ⟨ss₁, happ, h⟩ := Except.bind_eq_ok_iff.mp h
    obtain ⟨rfl, rfl⟩ := Prod.mk.inj (Except.ok.inj h)
    exact ⟨(appendRemaindata_sameSlots happ).trans (SameSlots.epollWrite _ _ _ _), rfl⟩
  · obtain ⟨rfl, rfl⟩ := Prod.mk.inj (Except.ok.inj h)
    exact ⟨SameSlots.refl _, rfl⟩

/-- **`send_data`.** The connection is open; it stays open, or a write error closes it. -/
theorem sendData_cases {ss ss' : SocketServer} {i : Uid} {buf : List UInt8} {len : ℤ}
    {w : WriteRes} {out : List IoMsg} (h : sendData ss i buf len w = .ok (ss', out)) :
    ss.Open i ∧ ((SameSlots ss ss' ∧ out = []) ∨
      (w = .fail ∧ ss' = (closeFd ss i).1 ∧ out = [.close 0])) := by
  unfold sendData at h
  by_cases hopen : (ss.socketPool i).type = .connectAdd
  · refine ⟨hopen, ?_⟩
    rw [if_pos hopen] at h
    by_cases hhead : (ss.socketPool i).head = []
    · rw [if_pos hhead] at h
      cases w with
      | fail =>
        simp only [sendError_eq hopen] at h
        obtain ⟨rfl, rfl⟩ := Prod.mk.inj (Except.ok.inj h)
        exact Or.inr ⟨rfl, rfl, rfl⟩
      | eintr => exact Or.inl (sendRest_sameSlots h)
      | eagain => exact Or.inl (sendRest_sameSlots h)
      | wrote n => exact Or.inl (sendRest_sameSlots h)
    · rw [if_neg hhead] at h
      obtain ⟨ss₁, happ, h⟩ := Except.bind_eq_ok_iff.mp h
      obtain ⟨rfl, rfl⟩ := Prod.mk.inj (Except.ok.inj h)
      exact Or.inl ⟨appendRemaindata_sameSlots happ, rfl⟩
  · rw [if_neg hopen] at h
    cases h

theorem sendBufferDone_sameSlots (ss : SocketServer) (i : Uid) :
    SameSlots ss (sendBufferDone ss i) := by
  have hset : SameSlots ss (ss.setSocket i { ss.socketPool i with tail := none }) :=
    SameSlots.setSocket rfl rfl
  exact hset.trans (SameSlots.epollWrite _ _ _ _)

theorem sendBufferWrote_sameSlots (ss : SocketServer) (i : Uid) (tmp : AppendBuffer)
    (rest : List AppendBuffer) (n : ℤ) : SameSlots ss (sendBufferWrote ss i tmp rest n) :=
  SameSlots.setSocket rfl rfl

/-- **`send_buffer`.** The connection stays open, or a write error closes it. -/
theorem sendBuffer_cases {ss ss' : SocketServer} {i : Uid} {ws : List WriteRes}
    {out : List IoMsg} (hopen : ss.Open i) (h : sendBuffer ss i ws = .ok (ss', out)) :
    (SameSlots ss ss' ∧ out = []) ∨
      (.fail ∈ ws ∧ ∃ ss₁, SameSlots ss ss₁ ∧ ss' = (closeFd ss₁ i).1 ∧ out = [.close 0]) := by
  induction ws generalizing ss with
  | nil =>
    simp only [sendBuffer] at h
    split_ifs at h
    obtain ⟨rfl, rfl⟩ := Prod.mk.inj (Except.ok.inj h)
    exact Or.inl ⟨sendBufferDone_sameSlots _ _, rfl⟩
  | cons w ws ih =>
    simp only [sendBuffer] at h
    split at h
    · obtain ⟨rfl, rfl⟩ := Prod.mk.inj (Except.ok.inj h)
      exact Or.inl ⟨sendBufferDone_sameSlots _ _, rfl⟩
    · next tmp rest hhead =>
      cases w with
      | eintr =>
        rcases ih hopen h with hsame | ⟨hfail, hclose⟩
        · exact Or.inl hsame
        · exact Or.inr ⟨List.mem_cons_of_mem _ hfail, hclose⟩
      | eagain =>
        obtain ⟨rfl, rfl⟩ := Prod.mk.inj (Except.ok.inj h)
        exact Or.inl ⟨SameSlots.refl _, rfl⟩
      | fail =>
        simp only [sendError_eq hopen] at h
        obtain ⟨rfl, rfl⟩ := Prod.mk.inj (Except.ok.inj h)
        exact Or.inr ⟨List.mem_cons_self, ss, SameSlots.refl _, rfl, rfl⟩
      | wrote n =>
        have hwrote := sendBufferWrote_sameSlots ss i tmp rest (min n tmp.size)
        rcases ih ((hwrote.open_iff i).mpr hopen) h with ⟨hsame, rfl⟩ | ⟨hfail, ss₁, hsame, hclose⟩
        · exact Or.inl ⟨hwrote.trans hsame, rfl⟩
        · exact Or.inr ⟨List.mem_cons_of_mem _ hfail, ss₁, hwrote.trans hsame, hclose⟩

/-! ### Reading and accepting -/

theorem readError_eq {ss : SocketServer} {i : Uid} (hid : IdInv ss) (hopen : ss.Open i) :
    readError ss i = ((closeFd ss i).1, [.close i]) := by
  have hclose := closeFd_id hopen.type_ne
  simp only [readError, hclose, Option.map_some, Option.toList_some, hid i hopen]

/-- A successful `readn` returns as many bytes as it was asked for. -/
theorem readn_length {nleft : ℕ} {rs rs' : List ReadRes} {bytes : List UInt8}
    (h : readn nleft rs = .ok (some bytes, rs')) : bytes.length = nleft := by
  induction rs generalizing nleft bytes rs' with
  | nil =>
    simp only [readn] at h
    split_ifs at h with hzero
    obtain ⟨hbytes, -⟩ := Prod.mk.inj (Except.ok.inj h)
    rw [← Option.some.inj hbytes, hzero, List.length_nil]
  | cons r rs ih =>
    simp only [readn] at h
    split_ifs at h with hzero
    · obtain ⟨hbytes, -⟩ := Prod.mk.inj (Except.ok.inj h)
      rw [← Option.some.inj hbytes, hzero, List.length_nil]
    · cases r with
      | eintr => exact ih h
      | eagain => exact ih h
      | fail => cases h
      | data chunk =>
        simp only at h
        split_ifs at h with hend
        · cases h
        · obtain ⟨⟨later, rs₁⟩, hlater, h⟩ := Except.bind_eq_ok_iff.mp h
          obtain ⟨hbytes, -⟩ := Prod.mk.inj (Except.ok.inj h)
          obtain ⟨tail, rfl, rfl⟩ := Option.map_eq_some_iff.mp hbytes
          have htail := ih hlater
          have hchunk : (chunk.take nleft).length ≤ nleft := List.length_take_le ..
          rw [List.length_append, htail]
          omega

/-- The stream ends or fails before a whole frame has been read. -/
def FrameLost (reads : List ReadRes) : Prop :=
  match readn 1 reads with
  | .ok (none, _) => True
  | .ok (some lenByte, reads₁) =>
    match readn (lenByte.headD 0).toNat reads₁ with
    | .ok (none, _) => True
    | _ => False
  | _ => False

instance (reads : List ReadRes) : Decidable (FrameLost reads) := by
  unfold FrameLost
  split
  · infer_instance
  · split <;> infer_instance
  · infer_instance

/-- **`dispose_readmessage`.** A frame is reported, or the connection is closed and reported. -/
theorem disposeReadmessage_cases {ss ss' : SocketServer} {i : Uid} {reads : List ReadRes}
    {out : List IoMsg} (hid : IdInv ss) (hopen : ss.Open i)
    (h : disposeReadmessage ss i reads = .ok (ss', out)) :
    (ss' = ss ∧ ∃ data, out = [.data i data.length data]) ∨
      (FrameLost reads ∧ ss' = (closeFd ss i).1 ∧ out = [.close i]) := by
  unfold disposeReadmessage at h
  obtain ⟨⟨lenByte, reads₁⟩, hlen, h⟩ := Except.bind_eq_ok_iff.mp h
  cases lenByte with
  | none =>
    simp only [readError_eq hid hopen] at h
    obtain ⟨rfl, rfl⟩ := Prod.mk.inj (Except.ok.inj h)
    exact Or.inr ⟨by simp only [FrameLost, hlen], rfl, rfl⟩
  | some b =>
    obtain ⟨⟨body, reads₂⟩, hbody, h⟩ := Except.bind_eq_ok_iff.mp h
    cases body with
    | none =>
      simp only [readError_eq hid hopen] at h
      obtain ⟨rfl, rfl⟩ := Prod.mk.inj (Except.ok.inj h)
      exact Or.inr ⟨by simp only [FrameLost, hlen, hbody], rfl, rfl⟩
    | some buffer =>
      simp only [hid i hopen, ← readn_length hbody] at h
      obtain ⟨rfl, rfl⟩ := Prod.mk.inj (Except.ok.inj h)
      exact Or.inl ⟨rfl, buffer, rfl⟩

/-- The loop of `apply_id` finds a free slot or returns -1; it changes no slot. -/
theorem applyIdLoop_spec (ss : SocketServer) (n id : ℕ) :
    (applyIdLoop ss n id).2.socketPool = ss.socketPool ∧
      ((applyIdLoop ss n id).1 = -1 ∨ ∃ i : Uid, (applyIdLoop ss n id).1 = i.val ∧ id ≤ i.val ∧
        (ss.socketPool i).type = .invalid) := by
  induction n generalizing id with
  | zero => exact ⟨rfl, Or.inl rfl⟩
  | succ n ih =>
    unfold applyIdLoop
    split_ifs with hlt hfree
    · exact ⟨rfl, Or.inr ⟨⟨id, hlt⟩, rfl, le_rfl, hfree⟩⟩
    · obtain ⟨hpool, hid⟩ := ih (id + 1)
      refine ⟨hpool, hid.imp_right ?_⟩
      rintro ⟨i, hi, hle, hfree'⟩
      exact ⟨i, hi, by omega, hfree'⟩
    · exact ⟨rfl, Or.inl rfl⟩

theorem applyId_spec (ss : SocketServer) :
    (applyId ss).2.socketPool = ss.socketPool ∧
      ((applyId ss).1 = -1 ∨ ∃ i : Uid, (applyId ss).1 = i.val ∧ 0 < i.val ∧
        (ss.socketPool i).type = .invalid) := by
  obtain ⟨hpool, hid⟩ := applyIdLoop_spec
    (if maxSocket - 1 ≤ ss.allocId then { ss with allocId := 0 } else ss) maxSocket (ss.allocId + 1)
  have hsame : (if maxSocket - 1 ≤ ss.allocId then { ss with allocId := 0 } else ss).socketPool =
      ss.socketPool := by
    split_ifs <;> rfl
  rw [hsame] at hpool hid
  refine ⟨hpool, hid.imp_right ?_⟩
  rintro ⟨i, hi, hle, hfree⟩
  exact ⟨i, hi, by omega, hfree⟩

theorem poolIndex_uid (i : Uid) : poolIndex i.val = .ok i := by
  have hmod : (i.val : ℤ).tmod maxSocket = i.val :=
    Int.tmod_eq_of_lt (by omega) (by exact_mod_cast i.isLt)
  have hpos : (0 : ℤ) ≤ i.val := by omega
  simp only [poolIndex, hmod, hpos, dite_true, Except.ok.injEq]
  exact Fin.ext (by simp)

/-- **`apply_socket`.** The slot is free and takes the descriptor. -/
theorem applySocket_cases {ss ss' : SocketServer} {fd id : ℤ} {i : Uid}
    (h : applySocket ss fd id = .ok (i, ss')) :
    poolIndex id = .ok i ∧ (ss.socketPool i).type = .invalid ∧
      ss'.socketPool = Function.update ss.socketPool i ⟨fd, i, .invalid, 0, [], none⟩ := by
  obtain ⟨j, hj, h⟩ := Except.bind_eq_ok_iff.mp h
  split_ifs at h with hfree
  obtain ⟨rfl, rfl⟩ := Prod.mk.inj (Except.ok.inj h)
  refine ⟨hj, hfree, ?_⟩
  simp only [hfree]
  rfl

/-- **`dispose_accept`.** There is no new client, or it has a slot that was free. -/
theorem disposeAccept_cases {ss ss' : SocketServer} {res : AcceptRes} {id : Option Uid}
    (h : disposeAccept ss res = .ok (ss', id)) :
    (id = none ∧ ss'.socketPool = ss.socketPool) ∨
    ∃ i s, id = some i ∧ (ss.socketPool i).type = .invalid ∧ s.type = .connectNotadd ∧
      s.id = i ∧ ss'.socketPool = Function.update ss.socketPool i s := by
  unfold disposeAccept at h
  cases hfd : res.fd with
  | none =>
    simp only [hfd] at h
    obtain ⟨rfl, rfl⟩ := Prod.mk.inj (Except.ok.inj h)
    exact Or.inl ⟨rfl, rfl⟩
  | some fd =>
    obtain ⟨hpool, -⟩ := applyId_spec ss
    simp only [hfd] at h
    split_ifs at h
    · obtain ⟨rfl, rfl⟩ := Prod.mk.inj (Except.ok.inj h)
      exact Or.inl ⟨rfl, hpool⟩
    · obtain ⟨⟨i, ss₂⟩, happly, h⟩ := Except.bind_eq_ok_iff.mp h
      obtain ⟨rfl, rfl⟩ := Prod.mk.inj (Except.ok.inj h)
      obtain ⟨-, hfree, hpool₂⟩ := applySocket_cases happly
      rw [hpool] at hfree hpool₂
      refine Or.inr ⟨i, ⟨fd, i, .connectNotadd, 0, [], none⟩, rfl, hfree, rfl, rfl, ?_⟩
      show Function.update ss₂.socketPool i { ss₂.socketPool i with type := .connectNotadd } = _
      rw [hpool₂, Function.update_self, Function.update_idem]

/-- **`socket_server_start`** on a new client: the slot is open, or free again. -/
theorem socketServerStart_cases {ss ss' : SocketServer} {i : Uid} {ok success : Bool}
    (h : (ss.socketPool i).type = .connectNotadd)
    (hstart : socketServerStart ss i ok = (ss', success)) :
    ∃ ty, ss'.socketPool = Function.update ss.socketPool i { ss.socketPool i with type := ty } ∧
      ((ty = .connectAdd ∧ success = true) ∨ (ty = .invalid ∧ success = false)) := by
  cases ok with
  | true =>
    simp only [socketServerStart, h, epollAdd, if_true] at hstart
    obtain ⟨rfl, rfl⟩ := Prod.mk.inj hstart
    exact ⟨.connectAdd, rfl, Or.inl ⟨rfl, rfl⟩⟩
  | false =>
    simp only [socketServerStart, h, epollAdd, Bool.false_eq_true, if_false] at hstart
    obtain ⟨rfl, rfl⟩ := Prod.mk.inj hstart
    exact ⟨.invalid, rfl, Or.inr ⟨rfl, rfl⟩⟩

/-- A free slot that is written: the other connections stay as they are. -/
theorem open_iff_of_update {ss ss' : SocketServer} {i : Uid} {s : Socket} (hnew : ¬ss.Open i)
    (h : ss'.socketPool = Function.update ss.socketPool i s) (v : Uid) :
    ss'.Open v ↔ ss.Open v ∨ (v = i ∧ s.type = .connectAdd) := by
  by_cases hv : v = i
  · subst hv
    rw [SocketServer.Open, h, Function.update_self]
    exact ⟨fun hs => Or.inr ⟨rfl, hs⟩, fun hs => hs.elim (fun ho => absurd ho hnew) And.right⟩
  · rw [SocketServer.Open, h, Function.update_of_ne hv]
    exact ⟨Or.inl, fun hs => hs.elim id fun hs => absurd hs.1 hv⟩

/-- **A new client.** It is open and reported, or its slot is free again. -/
theorem accept_step {ends fails : Uid → Prop} {ss ss₁ ss₂ : SocketServer} {res : AcceptRes}
    {i : Uid} {ok success : Bool} (hid : IdInv ss)
    (haccept : disposeAccept ss res = .ok (ss₁, some i))
    (hstart : socketServerStart ss₁ i ok = (ss₂, success)) :
    IdInv ss₂ ∧ SlotStep ends fails ss ss₂ (if success then [.success i] else []) := by
  rcases disposeAccept_cases haccept with ⟨hnone, -⟩ | ⟨j, s, hj, hfree, htype, hsid, hpool⟩
  · cases hnone
  obtain rfl : i = j := Option.some.inj hj
  have hnew : ¬ss.Open i := fun hopen => hopen.type_ne hfree
  have hnot : (ss₁.socketPool i).type = .connectNotadd := by rw [hpool, Function.update_self, htype]
  obtain ⟨ty, hpool₂, hty⟩ := socketServerStart_cases hnot hstart
  rw [hpool, Function.update_self, Function.update_idem] at hpool₂
  have hopen := open_iff_of_update hnew hpool₂
  refine ⟨fun u hu => ?_, ?_⟩
  · rw [hpool₂]
    by_cases hui : u = i
    · subst hui
      rw [Function.update_self]
      exact hsid
    · rw [Function.update_of_ne hui]
      exact hid u (((hopen u).mp hu).resolve_right fun h => hui h.1)
  · rcases hty with ⟨rfl, rfl⟩ | ⟨rfl, rfl⟩
    · refine .opened i hnew fun v => ?_
      rw [hopen v, and_iff_left rfl]
    · refine .quiet fun v => ?_
      rw [hopen v, or_iff_left fun h => nomatch h.2]

/-- **Sends.** A message sent to a connection is a step of the slots. -/
theorem sendData_step {ss ss' : SocketServer} {i : Uid} {buf : List UInt8} {len : ℤ}
    {w : WriteRes} {out : List IoMsg} (hid : IdInv ss)
    (h : sendData ss i buf len w = .ok (ss', out)) :
    IdInv ss' ∧ ss.Open i ∧
      SlotStep (fun _ => False) (fun u => u = i ∧ w = .fail) ss ss' out := by
  obtain ⟨hopen, ⟨hsame, rfl⟩ | ⟨hfail, rfl, rfl⟩⟩ := sendData_cases h
  · exact ⟨hsame.idInv hid, hopen, .quiet hsame.open_iff⟩
  · exact ⟨closeFd_idInv hid i, hopen, .lost i ⟨rfl, hfail⟩ hopen (closeFd_open_iff ss i)⟩

/-- **Events.** An event is a step of the slots. -/
theorem disposeEvent_step {ss ss' : SocketServer} {eve : Event Uid} {oc : Outcomes}
    {out : List IoMsg} (hid : IdInv ss) (h : disposeEvent ss eve oc = .ok (ss', out)) :
    IdInv ss' ∧ SlotStep (fun u => u = eve.sP ∧ eve.read = true ∧ FrameLost oc.reads)
      (fun u => u = eve.sP ∧ eve.read = false ∧ eve.write = true ∧ .fail ∈ oc.writes)
      ss ss' out := by
  have hquiet {ends fails : Uid → Prop} (hss : ss = ss') (hout : [] = out) :
      IdInv ss' ∧ SlotStep ends fails ss ss' out := by
    subst hss hout
    exact ⟨hid, .quiet fun _ => Iff.rfl⟩
  unfold disposeEvent at h
  split at h
  · obtain ⟨⟨ss₁, id⟩, haccept, h⟩ := Except.bind_eq_ok_iff.mp h
    cases id with
    | none =>
      obtain ⟨rfl, rfl⟩ := Prod.mk.inj (Except.ok.inj h)
      rcases disposeAccept_cases haccept with ⟨-, hpool⟩ | ⟨i, s, hi, -⟩
      · have hsame : SameSlots ss ss₁ := fun u => by simp only [hpool, and_self]
        exact ⟨hsame.idInv hid, .quiet hsame.open_iff⟩
      · cases hi
    | some i =>
      cases hstart : socketServerStart ss₁ i oc.accept.epollOk with
      | mk ss₂ success =>
        simp only [hstart] at h
        obtain ⟨rfl, rfl⟩ := Prod.mk.inj (Except.ok.inj h)
        exact accept_step hid haccept hstart
  · next hopen =>
    replace hopen : ss.Open eve.sP := hopen
    split_ifs at h with hread hwrite
    · rcases disposeReadmessage_cases hid hopen h with ⟨rfl, data, rfl⟩ | ⟨hlost, rfl, rfl⟩
      · exact ⟨hid, .frame eve.sP data hopen fun _ => Iff.rfl⟩
      · exact ⟨closeFd_idInv hid _,
          .closed eve.sP ⟨rfl, hread, hlost⟩ hopen (closeFd_open_iff ss _)⟩
    · rcases sendBuffer_cases hopen h with ⟨hsame, rfl⟩ | ⟨hfail, ss₁, hsame, rfl, rfl⟩
      · exact ⟨hsame.idInv hid, .quiet hsame.open_iff⟩
      · refine ⟨closeFd_idInv (hsame.idInv hid) _,
          .lost eve.sP ⟨rfl, Bool.eq_false_iff.mpr hread, hwrite, hfail⟩ hopen fun v => ?_⟩
        rw [closeFd_open_iff, hsame.open_iff]
    · obtain ⟨hss, hout⟩ := Prod.mk.inj (Except.ok.inj h)
      exact hquiet hss hout
  · obtain ⟨hss, hout⟩ := Prod.mk.inj (Except.ok.inj h)
    exact hquiet hss hout

/-- A broadcast whose writes succeed leaves the connections as they are. -/
theorem broadcastUserMsg_quiet {ss ss' : SocketServer} {buf : List UInt8} {len : ℤ}
    {ids : List ℤ} {ws : List WriteRes} {out : List IoMsg} (hfail : .fail ∉ ws)
    (h : broadcastUserMsg ss buf len ids ws = .ok (ss', out)) : SameSlots ss ss' ∧ out = [] := by
  induction ids generalizing ss ws out with
  | nil =>
    obtain ⟨rfl, rfl⟩ := Prod.mk.inj (Except.ok.inj h)
    exact ⟨SameSlots.refl _, rfl⟩
  | cons id ids ih =>
    cases ws with
    | nil => cases h
    | cons w ws =>
      obtain ⟨i, -, h⟩ := Except.bind_eq_ok_iff.mp h
      obtain ⟨⟨ss₁, out₁⟩, hsend, h⟩ := Except.bind_eq_ok_iff.mp h
      obtain ⟨⟨ss₂, out₂⟩, hrest, h⟩ := Except.bind_eq_ok_iff.mp h
      obtain ⟨rfl, rfl⟩ := Prod.mk.inj (Except.ok.inj h)
      rw [List.mem_cons, not_or] at hfail
      obtain ⟨-, ⟨hsame, rfl⟩ | ⟨hw, -⟩⟩ := sendData_cases hsend
      · obtain ⟨hsame', rfl⟩ := ih hfail.2 hrest
        exact ⟨hsame.trans hsame', rfl⟩
      · exact absurd hw.symm hfail.1

/-! ### The start -/

/-- The service starts without connections. -/
theorem networkIoServiceStart_not_open {ss : SocketServer} {listenFd netlogicFd : ℤ}
    (h : networkIoServiceStart listenFd netlogicFd = .ok ss) (u : Uid) : ¬ss.Open u := by
  obtain rfl := Except.ok.inj h
  let free : Socket := ⟨0, 0, .invalid, 0, [], none⟩
  let listener : Socket := ⟨listenFd, 1, .listenAdd, 0, [], none⟩
  let netlogic : Socket := ⟨netlogicFd, 2, .netlogic, 0, [], none⟩
  show (Function.update (Function.update (Function.update (Function.update (Function.update
    (fun _ => free) 1 _) 1 _) 2 _) 2 netlogic) 1 listener u).type ≠ .connectAdd
  by_cases h1 : u = 1
  · subst h1
    simp only [Function.update_self, listener, ne_eq, reduceCtorEq, not_false_iff]
  · by_cases h2 : u = 2
    · subst h2
      simp only [Function.update_of_ne h1, Function.update_self, netlogic, ne_eq, reduceCtorEq,
        not_false_iff]
    · simp only [Function.update_of_ne h1, Function.update_of_ne h2, free, ne_eq, reduceCtorEq,
        not_false_iff]

end GameServer
