import GameServer.Library.Waiting
import GameServer.NetIo.Faults
import GameServer.NetIo.Output
import Mathlib.Algebra.GroupWithZero.Nat

/-!
# Clients that stall the service

`readn` calls `read` again after `EINTR` and after `EAGAIN`. The sockets of the clients are set
non-blocking, so `read` answers `EAGAIN` as long as nothing has come in, and one read event is
handled only when the frame is complete or the connection is over.

`FrameWaits` says of the outcomes of the `read` calls made so far whether `dispose_readmessage`
calls `read` again. A frame has a length byte and at most 255 bytes behind it, and every call that
returns data returns a byte at least.

## Main definitions

* `FrameWaits` : the outcomes after which `read` is called again.
* `ReadEventEnds`, `ClientStalls`.

## Main results

* `disposeReadmessage_eq_blocked` : `FrameWaits` is what it says.
* `read_event_ends_iff` : a read event is handled unless the client stalls.
-/

namespace GameServer

/-! ### Outcomes of `read` -/

/-- The call is made again: `EINTR` or `EAGAIN`. -/
def ReadRes.Interrupted (r : ReadRes) : Prop := r = .eintr ∨ r = .eagain

instance (r : ReadRes) : Decidable r.Interrupted := inferInstanceAs (Decidable (_ ∨ _))

/-- Neither an error nor the end of the stream. -/
def ReadRes.Alive (r : ReadRes) : Prop := r ≠ .fail ∧ r ≠ .data []

/-- How many bytes are there to be read. -/
def ReadRes.size : ReadRes → ℕ
  | .data bytes => bytes.length
  | _ => 0

/-- How many bytes there are in all. -/
def received (reads : List ReadRes) : ℕ := (reads.map ReadRes.size).sum

theorem received_cons (r : ReadRes) (reads : List ReadRes) :
    received (r :: reads) = r.size + received reads := by
  rw [received, List.map_cons, List.sum_cons, received]

theorem received_append (reads reads' : List ReadRes) :
    received (reads ++ reads') = received reads + received reads' := by
  rw [received, List.map_append, List.sum_append, received, received]

theorem ReadRes.Interrupted.size_eq {r : ReadRes} (h : r.Interrupted) : r.size = 0 := by
  rcases h with rfl | rfl <;> rfl

theorem ReadRes.Interrupted.alive {r : ReadRes} (h : r.Interrupted) : r.Alive := by
  rcases h with rfl | rfl <;> exact ⟨nofun, nofun⟩

theorem ReadRes.alive_data {bytes : List UInt8} (h : bytes ≠ []) : ReadRes.Alive (.data bytes) := by
  refine ⟨fun hfail => ?_, fun hnil => h (ReadRes.data.inj hnil)⟩
  cases hfail

/-- Data of a living connection are a byte at least. -/
theorem ReadRes.Alive.size_pos {r : ReadRes} (h : r.Alive) (hr : ¬r.Interrupted) : 0 < r.size := by
  cases r with
  | data bytes => exact List.length_pos_iff.mpr fun hnil => h.2 (hnil ▸ rfl)
  | eintr => exact absurd (Or.inl rfl) hr
  | eagain => exact absurd (Or.inr rfl) hr
  | fail => exact absurd rfl h.1

/-- `readn` waits as long as the connection lives and bytes are missing. -/
theorem readn_eq_blocked {n : ℕ} {reads : List ReadRes} :
    readn n reads = .error .blocked ↔ (∀ r ∈ reads, r.Alive) ∧ received reads < n := by
  induction reads generalizing n with
  | nil =>
    rcases Nat.eq_zero_or_pos n with rfl | hpos
    · simp [readn, received]
    · simp [readn, received, Nat.ne_of_gt hpos, hpos]
  | cons r reads ih =>
    rcases Nat.eq_zero_or_pos n with rfl | hpos
    · simp [readn]
    · have hne : n ≠ 0 := Nat.ne_of_gt hpos
      rw [List.forall_mem_cons, received_cons]
      cases r with
      | eintr =>
        have halive : ReadRes.Alive .eintr := ReadRes.Interrupted.alive (Or.inl rfl)
        simp only [readn, if_neg hne, ih, ReadRes.size, Nat.zero_add, halive, true_and]
      | eagain =>
        have halive : ReadRes.Alive .eagain := ReadRes.Interrupted.alive (Or.inr rfl)
        simp only [readn, if_neg hne, ih, ReadRes.size, Nat.zero_add, halive, true_and]
      | fail => simp [readn, hne, ReadRes.Alive]
      | data bytes =>
        by_cases hnil : bytes = []
        · simp [readn, hne, hnil, ReadRes.Alive]
        · have hgot : bytes.take n ≠ [] := by
            simp only [ne_eq, List.take_eq_nil_iff, hne, hnil, or_self, not_false_iff]
          have halive : ReadRes.Alive (.data bytes) := ReadRes.alive_data hnil
          simp only [readn, if_neg hne, if_neg hgot, Except.bind_eq_error_iff, ih, reduceCtorEq,
            and_false, exists_false, or_false, halive, true_and, ReadRes.size, List.length_take]
          refine and_congr_right fun _ => ?_
          omega

/-! ### One read event -/

/-- After these outcomes `dispose_readmessage` calls `read` again: the connection lives, and the
length byte or a part of the bytes that it announces is missing. The call for the length byte asks
for one byte. -/
def FrameWaits : List ReadRes → Prop
  | [] => True
  | .eintr :: reads => FrameWaits reads
  | .eagain :: reads => FrameWaits reads
  | .fail :: _ => False
  | .data [] :: _ => False
  | .data (b :: _) :: reads => (∀ r ∈ reads, r.Alive) ∧ received reads < b.toNat

theorem disposeReadmessage_eq_blocked {ss : SocketServer} {i : Uid} {reads : List ReadRes} :
    disposeReadmessage ss i reads = .error .blocked ↔ FrameWaits reads := by
  induction reads with
  | nil => simp [disposeReadmessage, readn, FrameWaits, bind, Except.bind]
  | cons r reads ih =>
    cases r with
    | eintr => exact ih
    | eagain => exact ih
    | fail => simp [disposeReadmessage, readn, FrameWaits, bind, Except.bind]
    | data bytes =>
      cases bytes with
      | nil => simp [disposeReadmessage, readn, FrameWaits, bind, Except.bind]
      | cons b bs =>
        have hlen : readn 1 (.data (b :: bs) :: reads) = .ok (some [b], reads) := by
          cases reads <;> rfl
        rw [FrameWaits, ← readn_eq_blocked]
        simp only [disposeReadmessage, hlen, bind, Except.bind, List.headD_cons]
        cases hbody : readn b.toNat reads with
        | error e => simp only [Except.error.injEq]
        | ok p =>
          obtain ⟨body, later⟩ := p
          cases body <;> simp

theorem FrameWaits.of_append {reads : List ReadRes} {r : ReadRes} (h : FrameWaits (reads ++ [r])) :
    FrameWaits reads := by
  induction reads with
  | nil => trivial
  | cons r' reads ih =>
    cases r' with
    | eintr => exact ih h
    | eagain => exact ih h
    | fail => exact h
    | data bytes =>
      cases bytes with
      | nil => exact h
      | cons b bs =>
        obtain ⟨halive, hlt⟩ : (∀ x ∈ reads ++ [r], x.Alive) ∧
          received (reads ++ [r]) < b.toNat := h
        rw [received_append] at hlt
        exact ⟨fun x hx => halive x (List.mem_append_left _ hx), Nat.lt_of_add_right_lt hlt⟩

theorem FrameWaits.append {reads : List ReadRes} {r : ReadRes} (h : FrameWaits reads)
    (hr : r.Interrupted) : FrameWaits (reads ++ [r]) := by
  induction reads with
  | nil => rcases hr with rfl | rfl <;> trivial
  | cons r' reads ih =>
    cases r' with
    | eintr => exact ih h
    | eagain => exact ih h
    | fail => exact h
    | data bytes =>
      cases bytes with
      | nil => exact h
      | cons b bs =>
        obtain ⟨halive, hlt⟩ := h
        refine ⟨fun x hx => ?_, ?_⟩
        · rcases List.mem_append.mp hx with hx | hx
          · exact halive x hx
          · rw [List.mem_singleton.mp hx]
            exact hr.alive
        · have hsame : received (reads ++ [r]) = received reads := by
            rw [received_append, received_cons, hr.size_eq]
            rfl
          exact hsame.symm ▸ hlt

/-- The calls that return data return that many bytes at least. -/
theorem countP_le_received {reads : List ReadRes} (h : ∀ r ∈ reads, r.Alive) :
    reads.countP (fun r => ¬r.Interrupted) ≤ received reads := by
  induction reads with
  | nil => exact Nat.le_refl 0
  | cons r reads ih =>
    obtain ⟨halive, hrest⟩ := List.forall_mem_cons.mp h
    have htail := ih hrest
    rw [List.countP_cons, received_cons]
    by_cases hr : r.Interrupted
    · simp only [hr, not_true_eq_false, decide_false, Bool.false_eq_true, if_false]
      omega
    · have hpos := halive.size_pos hr
      simp only [hr, not_false_iff, decide_true, if_true]
      omega

theorem FrameWaits.countP_le {reads : List ReadRes} (h : FrameWaits reads) :
    reads.countP (fun r => ¬r.Interrupted) ≤ 256 := by
  induction reads with
  | nil => exact Nat.zero_le _
  | cons r reads ih =>
    cases r with
    | eintr => exact ih h
    | eagain => exact ih h
    | fail => exact h.elim
    | data bytes =>
      cases bytes with
      | nil => exact h.elim
      | cons b bs =>
        have hle := countP_le_received h.1
        have hlt := h.2
        have hb := b.toNat_lt
        rw [List.countP_cons]
        split_ifs <;> omega

/-- The outcomes of `read` as the inputs of `dispose_readmessage`. -/
def frameConsumer : Consumer ReadRes where
  Waits := FrameWaits
  busy r := ¬r.Interrupted
  bound := 256
  waits_of_append := FrameWaits.of_append
  waits_append h hr := h.append (by simpa using hr)
  countP_le := FrameWaits.countP_le

/-- A read event is handled after finitely many `read` calls, whose outcomes are the first of
`reads`. -/
def ReadEventEnds (ss : SocketServer) (i : Uid) (reads : Stream' ReadRes) : Prop :=
  ∃ n res, disposeReadmessage ss i (reads.take n) = .ok res

/-- From some point on `read` is interrupted or has nothing to return, while the frame is
incomplete and the connection is not over. -/
def ClientStalls (reads : Stream' ReadRes) : Prop :=
  ∃ n, FrameWaits (reads.take n) ∧ ∀ m, n ≤ m → (reads.get m).Interrupted

/-- **A read event is handled unless the client stalls.** In every state of net IO and for every
infinite sequence of outcomes of `read`, `dispose_readmessage` returns after finitely many calls
exactly if the outcomes are not, from some point on, `EINTR` and `EAGAIN` only, with a frame that is
still incomplete. -/
theorem read_event_ends_iff (ss : SocketServer) (i : Uid) (reads : Stream' ReadRes) :
    ReadEventEnds ss i reads ↔ ¬ClientStalls reads := by
  have hends : ReadEventEnds ss i reads ↔ frameConsumer.Finishes reads := by
    refine exists_congr fun n => ?_
    rw [show frameConsumer.Waits (reads.take n) = FrameWaits (reads.take n) from rfl,
      ← @disposeReadmessage_eq_blocked ss i]
    cases hread : disposeReadmessage ss i (reads.take n) with
    | ok res => simp
    | error e => simp [disposeReadmessage_error hread]
  have hstalls : ClientStalls reads ↔ frameConsumer.Stalls reads := by
    refine exists_congr fun n => and_congr_right fun _ => forall₂_congr fun m _ => ?_
    simp only [frameConsumer, decide_not, Bool.not_eq_false', decide_eq_true_eq]
  rw [hends, hstalls]
  exact Consumer.finishes_iff

/-- A client sends the length byte 3 and then nothing: its read event is never handled. -/
theorem silent_client_stalls : ∃ ss, poolMachine.Exec PoolOp.Fresh socketServerCreate
    [.accept ⟨some 6, true, true⟩, .start 1 true] [] ss ∧ ss.Open 1 ∧
    ¬ReadEventEnds ss 1 (Stream'.cons (.data [3]) (Stream'.const .eagain)) := by
  obtain ⟨ss, hrun, hopen, -⟩ := exists_connected
  refine ⟨ss, hrun, hopen, ?_⟩
  rintro ⟨n, res, hread⟩
  have hwaits : ∀ n, FrameWaits ((Stream'.cons (.data [3]) (Stream'.const .eagain)).take n) := by
    intro n
    induction n with
    | zero => trivial
    | succ n ih =>
      rw [Stream'.take_succ']
      cases n with
      | zero => exact ⟨List.forall_mem_nil _, by decide⟩
      | succ n => exact ih.append (Or.inr rfl)
  rw [disposeReadmessage_eq_blocked.mpr (hwaits n)] at hread
  cases hread

end GameServer
