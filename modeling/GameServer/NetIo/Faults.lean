import GameServer.NetIo.Slots

/-!
# The faults of net IO

What can go wrong in the operations of net IO. Reading and the output of `send_buffer` only wait; a
new client fails where `apply_id` finds no slot; `send_data` fails on a slot that is not open, and
where the last block of a chain is not the one that `tail` points to.

## Main results

* `disposeEvent_error`, `sendData_error` : the faults of an event and of a send.
-/

namespace GameServer

theorem readn_error {nleft : ℕ} {rs : List ReadRes} {e : Fault} (h : readn nleft rs = .error e) :
    e = .blocked := by
  induction rs generalizing nleft with
  | nil =>
    simp only [readn] at h
    split_ifs at h
    cases h
    rfl
  | cons r rs ih =>
    simp only [readn] at h
    split_ifs at h with hzero
    cases r with
    | eintr => exact ih h
    | eagain => exact ih h
    | fail => cases h
    | data chunk =>
      simp only at h
      split_ifs at h with hend
      rcases Except.bind_eq_error_iff.mp h with h | ⟨⟨later, rs'⟩, -, h⟩
      · exact ih h
      · cases h

theorem disposeReadmessage_error {ss : SocketServer} {i : Uid} {reads : List ReadRes} {e : Fault}
    (h : disposeReadmessage ss i reads = .error e) : e = .blocked := by
  rcases Except.bind_eq_error_iff.mp h with h | ⟨⟨lenByte, reads₁⟩, -, h⟩
  · exact readn_error h
  · cases lenByte with
    | none => cases h
    | some b =>
      rcases Except.bind_eq_error_iff.mp h with h | ⟨⟨body, reads₂⟩, -, h⟩
      · exact readn_error h
      · cases body <;> cases h

theorem poolIndex_error {id : ℤ} {e : Fault} (h : poolIndex id = .error e) : e = .poolRange := by
  unfold poolIndex at h
  split_ifs at h
  cases h
  rfl

theorem applySocket_error {ss : SocketServer} {fd id : ℤ} {e : Fault}
    (h : applySocket ss fd id = .error e) : e = .poolRange ∨ e = .assertFailed := by
  rcases Except.bind_eq_error_iff.mp h with h | ⟨i, -, h⟩
  · exact Or.inl (poolIndex_error h)
  · split_ifs at h
    cases h
    exact Or.inr rfl

theorem disposeAccept_error {ss : SocketServer} {res : AcceptRes} {e : Fault}
    (h : disposeAccept ss res = .error e) : e = .poolRange ∨ e = .assertFailed := by
  unfold disposeAccept at h
  cases hfd : res.fd with
  | none =>
    simp only [hfd] at h
    cases h
  | some fd =>
    simp only [hfd] at h
    split_ifs at h
    rcases Except.bind_eq_error_iff.mp h with h | ⟨⟨i, ss₂⟩, -, h⟩
    · exact applySocket_error h
    · cases h

theorem sendBuffer_error {ss : SocketServer} {i : Uid} {ws : List WriteRes} {e : Fault}
    (h : sendBuffer ss i ws = .error e) : e = .blocked := by
  induction ws generalizing ss with
  | nil =>
    simp only [sendBuffer] at h
    split_ifs at h
    cases h
    rfl
  | cons w ws ih =>
    simp only [sendBuffer] at h
    split at h
    · cases h
    · cases w with
      | eintr => exact ih h
      | eagain => cases h
      | fail => cases h
      | wrote n => exact ih h

/-- An event waits, or fails on a new client. -/
theorem disposeEvent_error {ss : SocketServer} {eve : Event Uid} {oc : Outcomes} {e : Fault}
    (h : disposeEvent ss eve oc = .error e) :
    e = .blocked ∨ e = .poolRange ∨ e = .assertFailed := by
  unfold disposeEvent at h
  split at h
  · rcases Except.bind_eq_error_iff.mp h with h | ⟨⟨ss₁, id⟩, -, h⟩
    · exact Or.inr (disposeAccept_error h)
    · cases id <;> cases h
  · split_ifs at h
    · exact Or.inl (disposeReadmessage_error h)
    · exact Or.inl (sendBuffer_error h)
  · cases h

theorem appendRemaindata_error {ss : SocketServer} {i : Uid} {buf : List UInt8}
    {bufSize start : ℤ} {e : Fault} (h : appendRemaindata ss i buf bufSize start = .error e) :
    e = .chainRange := by
  unfold appendRemaindata at h
  simp only at h
  split_ifs at h
  cases h
  rfl

theorem sendRest_error {ss : SocketServer} {i : Uid} {buf : List UInt8} {len n : ℤ} {e : Fault}
    (h : sendRest ss i buf len n = .error e) : e = .chainRange := by
  unfold sendRest at h
  split_ifs at h
  rcases Except.bind_eq_error_iff.mp h with h | ⟨ss₁, -, h⟩
  · exact appendRemaindata_error h
  · cases h

/-- `send_data` fails on a slot that is not open, or on a chain whose last block is not `tail`. -/
theorem sendData_error {ss : SocketServer} {i : Uid} {buf : List UInt8} {len : ℤ} {w : WriteRes}
    {e : Fault} (h : sendData ss i buf len w = .error e) :
    (e = .assertFailed ∧ ¬ss.Open i) ∨ e = .chainRange := by
  unfold sendData at h
  split_ifs at h with hopen hhead
  · right
    cases w with
    | fail => cases h
    | eintr => exact sendRest_error h
    | eagain => exact sendRest_error h
    | wrote n => exact sendRest_error h
  · right
    rcases Except.bind_eq_error_iff.mp h with h | ⟨ss₁, -, h⟩
    · exact appendRemaindata_error h
    · cases h
  · cases h
    exact Or.inl ⟨rfl, hopen⟩

end GameServer
