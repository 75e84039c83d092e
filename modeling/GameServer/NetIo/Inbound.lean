import GameServer.Library.LengthPrefix
import GameServer.NetIo.Slots

/-!
# The frames of an inbound stream

What a client sends arrives in pieces of any size, with interruptions anywhere between them, and
then ends. `readn` asks for a number of bytes at a time, so the outcomes of its `read` calls depend
on what it asks for: `readnOutcomes` are these outcomes for a socket on which the stream arrives in
given pieces. Whatever the pieces are, the results of the read events on the slot are the frames of
the stream, and one close at its end.

## Main definitions

* `Arrival`, `streamOf` : the pieces in which a stream arrives.
* `readnOutcomes`, `messageOutcomes` : the outcomes of the `read` calls of one `readn` and of one
  `dispose_readmessage`, with what is left to arrive.
* `readEvents` : a number of read events on one slot.

## Main results

* `readn_outcomes` : one `readn` reads a prefix of the stream, or the stream is too short.
* `inbound_framing` : the results do not depend on the pieces.
-/

namespace GameServer

open LengthPrefix

/-! ### Streams in pieces -/

/-- What `read` finds next on a socket: bytes, at least one, or an interruption. -/
inductive Arrival
  | bytes (b : UInt8) (bs : List UInt8) | eintr | eagain
deriving DecidableEq, Repr

/-- The stream that arrives; the client closes after it. -/
def streamOf : List Arrival → List UInt8
  | [] => []
  | .bytes b bs :: as => b :: bs ++ streamOf as
  | .eintr :: as => streamOf as
  | .eagain :: as => streamOf as

/-- The outcomes of the `read` calls of `readn` for `nleft` bytes, and what is left to arrive. A
call returns no more than it asks for, so a longer piece stays in part; at the end of the stream
it returns nothing. -/
def readnOutcomes (nleft : ℕ) : List Arrival → List ReadRes × List Arrival
  | [] => if nleft = 0 then ([], []) else ([.data []], [])
  | a :: as =>
    if nleft = 0 then ([], a :: as)
    else
      match a with
      | .eintr => (.eintr :: (readnOutcomes nleft as).1, (readnOutcomes nleft as).2)
      | .eagain => (.eagain :: (readnOutcomes nleft as).1, (readnOutcomes nleft as).2)
      | .bytes b bs =>
        match (b :: bs).drop nleft with
        | [] =>
          (.data (b :: bs) :: (readnOutcomes (nleft - (b :: bs).length) as).1,
            (readnOutcomes (nleft - (b :: bs).length) as).2)
        | c :: cs => ([.data ((b :: bs).take nleft)], .bytes c cs :: as)

/-- The outcomes of the `read` calls of one `dispose_readmessage`, which asks for the length byte
and then for as many bytes as it says, and what is left to arrive. -/
def messageOutcomes (as : List Arrival) : List ReadRes × List Arrival :=
  let (reads₁, as₁) := readnOutcomes 1 as
  match readn 1 reads₁ with
  | .ok (some len, _) =>
    let (reads₂, as₂) := readnOutcomes (len.headD 0).toNat as₁
    (reads₁ ++ reads₂, as₂)
  | _ => (reads₁, as₁)

/-- Read events on the slot `i`, handled one after the other. -/
def readEvents (i : Uid) : ℕ → SocketServer → List Arrival →
    Except Fault (SocketServer × List IoMsg)
  | 0, ss, _ => .ok (ss, [])
  | n + 1, ss, as => do
    let (reads, as₁) := messageOutcomes as
    let (ss₁, out₁) ← disposeEvent ss ⟨i, true, false, false⟩ ⟨⟨none, false, false⟩, reads, []⟩
    let (ss₂, out₂) ← readEvents i n ss₁ as₁
    .ok (ss₂, out₁ ++ out₂)

/-! ### One `readn` -/

theorem readn_zero (reads : List ReadRes) : readn 0 reads = .ok (some [], reads) := by
  cases reads <;> rfl

theorem readnOutcomes_zero (as : List Arrival) : readnOutcomes 0 as = ([], as) := by
  cases as <;> rfl

/-- A piece that is no longer than asked for is taken whole. -/
theorem readn_data {n : ℕ} {chunk : List UInt8} {rs later : List ReadRes}
    {rest : Option (List UInt8)} (hne : chunk ≠ []) (hle : chunk.length ≤ n)
    (hrest : readn (n - chunk.length) rs = .ok (rest, later)) :
    readn n (.data chunk :: rs) = .ok (rest.map (chunk ++ ·), later) := by
  have hpos : 0 < chunk.length := List.length_pos_iff.mpr hne
  have hn : n ≠ 0 := by omega
  simp only [readn, if_neg hn, List.take_of_length_le hle, if_neg hne, hrest, bind, Except.bind]

/-- **`readn`.** From a stream that is long enough it reads as much as it was asked for, in
whatever pieces that arrives. -/
theorem readn_outcomes_of_le {n : ℕ} {as : List Arrival} (later : List ReadRes)
    (h : n ≤ (streamOf as).length) :
    readn n ((readnOutcomes n as).1 ++ later) = .ok (some ((streamOf as).take n), later) ∧
      streamOf (readnOutcomes n as).2 = (streamOf as).drop n := by
  induction as generalizing n with
  | nil =>
    obtain rfl := Nat.le_zero.mp h
    exact ⟨readn_zero later, rfl⟩
  | cons a as ih =>
    rcases Nat.eq_zero_or_pos n with rfl | hpos
    · rw [readnOutcomes_zero]
      exact ⟨readn_zero later, rfl⟩
    · have hne : n ≠ 0 := Nat.ne_of_gt hpos
      cases a with
      | eintr =>
        simp only [readnOutcomes, if_neg hne, List.cons_append, readn]
        exact ih h
      | eagain =>
        simp only [readnOutcomes, if_neg hne, List.cons_append, readn]
        exact ih h
      | bytes b bs =>
        rw [streamOf] at h ⊢
        cases hdrop : (b :: bs).drop n with
        | nil =>
          -- The whole piece is taken, and the rest is read from what follows.
          have hle : (b :: bs).length ≤ n := List.drop_eq_nil_iff.mp hdrop
          rw [List.length_append] at h
          obtain ⟨hread, hleft⟩ := ih (Nat.sub_le_of_le_add (Nat.add_comm _ _ ▸ h))
          have htake : (b :: bs ++ streamOf as).take n =
              b :: bs ++ (streamOf as).take (n - (b :: bs).length) := by
            rw [List.take_append, List.take_of_length_le hle]
          have hrest : (b :: bs ++ streamOf as).drop n =
              (streamOf as).drop (n - (b :: bs).length) := by
            rw [List.drop_append, hdrop, List.nil_append]
          rw [htake, hrest]
          simp only [readnOutcomes, if_neg hne, hdrop]
          exact ⟨readn_data (List.cons_ne_nil b bs) hle hread, hleft⟩
        | cons c cs =>
          -- The piece is longer than asked for.
          have hlt : n < (b :: bs).length := by
            rw [← Nat.not_le, ← List.drop_eq_nil_iff, hdrop]
            exact List.cons_ne_nil c cs
          have hlen : ((b :: bs).take n).length = n := List.length_take_of_le hlt.le
          have hchunk : (b :: bs).take n ≠ [] := List.length_pos_iff.mp (by omega)
          have hrest : readn (n - ((b :: bs).take n).length) later = .ok (some [], later) := by
            rw [hlen, Nat.sub_self, readn_zero]
          have hread := readn_data hchunk hlen.le hrest
          rw [Option.map_some, List.append_nil] at hread
          rw [List.take_append_of_le_length hlt.le, List.drop_append_of_le_length hlt.le, hdrop]
          simp only [readnOutcomes, if_neg hne, hdrop]
          exact ⟨hread, rfl⟩

/-- From a stream that is too short it reads to the end, and fails. -/
theorem readn_outcomes_of_lt {n : ℕ} {as : List Arrival} (later : List ReadRes)
    (h : (streamOf as).length < n) :
    readn n ((readnOutcomes n as).1 ++ later) = .ok (none, later) := by
  have hne : n ≠ 0 := Nat.ne_of_gt (Nat.zero_lt_of_lt h)
  induction as generalizing n with
  | nil =>
    simp only [readnOutcomes, if_neg hne, List.cons_append, List.nil_append, readn, List.take_nil,
      if_true]
  | cons a as ih =>
    cases a with
    | eintr =>
      simp only [readnOutcomes, if_neg hne, List.cons_append, readn]
      exact ih h hne
    | eagain =>
      simp only [readnOutcomes, if_neg hne, List.cons_append, readn]
      exact ih h hne
    | bytes b bs =>
      rw [streamOf, List.length_append] at h
      have hle : (b :: bs).length ≤ n := by omega
      have hrest := ih (n := n - (b :: bs).length) (by omega) (by omega)
      simp only [readnOutcomes, if_neg hne, List.drop_eq_nil_iff.mpr hle]
      exact readn_data (List.cons_ne_nil b bs) hle hrest

/-! ### One `dispose_readmessage` -/

/-- The length byte is read with whatever follows it left. -/
theorem readn_length_byte {b : UInt8} {as : List Arrival} {s : List UInt8}
    (h : streamOf as = b :: s) (later : List ReadRes) :
    readn 1 ((readnOutcomes 1 as).1 ++ later) = .ok (some [b], later) ∧
      streamOf (readnOutcomes 1 as).2 = s := by
  have hle : 1 ≤ (streamOf as).length := by
    rw [h, List.length_cons]
    omega
  have hread := readn_outcomes_of_le later hle
  rw [h] at hread
  exact hread

theorem messageOutcomes_eq {b : UInt8} {as : List Arrival} {s : List UInt8}
    (h : streamOf as = b :: s) : messageOutcomes as =
      ((readnOutcomes 1 as).1 ++ (readnOutcomes b.toNat (readnOutcomes 1 as).2).1,
        (readnOutcomes b.toNat (readnOutcomes 1 as).2).2) := by
  have hread := (readn_length_byte h []).1
  rw [List.append_nil] at hread
  simp only [messageOutcomes, hread, List.headD_cons]

/-- A complete frame is delivered. -/
theorem disposeReadmessage_frame {b : UInt8} {as : List Arrival} {s : List UInt8}
    (h : streamOf as = b :: s) (hle : b.toNat ≤ s.length) (ss : SocketServer) (i : Uid) :
    disposeReadmessage ss i (messageOutcomes as).1 =
        .ok (ss, [.data (ss.socketPool i).id b.toNat (s.take b.toNat)]) ∧
      streamOf (messageOutcomes as).2 = s.drop b.toNat := by
  obtain ⟨hlen, hleft⟩ := readn_length_byte h (readnOutcomes b.toNat (readnOutcomes 1 as).2).1
  obtain ⟨hbody, hrest⟩ := readn_outcomes_of_le [] (hleft.symm ▸ hle)
  rw [List.append_nil, hleft] at hbody
  rw [messageOutcomes_eq h]
  constructor
  · simp only [disposeReadmessage, hlen, bind, Except.bind, List.headD_cons, hbody]
  · rw [hrest, hleft]

/-- At the end of the stream, and inside an incomplete frame, the connection is closed. -/
theorem disposeReadmessage_incomplete {as : List Arrival}
    (h : Incomplete UInt8.toNat (streamOf as)) (ss : SocketServer) (i : Uid) :
    disposeReadmessage ss i (messageOutcomes as).1 = .ok (readError ss i) := by
  cases hs : streamOf as with
  | nil =>
    have hshort : (streamOf as).length < 1 := by
      rw [hs]
      exact Nat.zero_lt_one
    have hread := readn_outcomes_of_lt [] hshort
    rw [List.append_nil] at hread
    simp only [messageOutcomes, hread, disposeReadmessage, bind, Except.bind]
  | cons b s =>
    rw [hs] at h
    obtain ⟨hlen, hleft⟩ := readn_length_byte hs (readnOutcomes b.toNat (readnOutcomes 1 as).2).1
    have hbody := readn_outcomes_of_lt [] (hleft.symm ▸ h : _ < b.toNat)
    rw [List.append_nil] at hbody
    rw [messageOutcomes_eq hs]
    simp only [disposeReadmessage, hlen, bind, Except.bind, List.headD_cons, hbody]

/-! ### The read events of a connection -/

/-- What is reported for a stream: a message for each frame, with its bytes and their number, and
a close. -/
def framesReported (id : Uid) (stream : List UInt8) : List IoMsg :=
  (frames UInt8.toNat stream).map (fun body => .data id body.length body) ++ [.close id]

/-- Events on a slot that is closed are ignored. -/
theorem readEvents_closed {i : Uid} {ss : SocketServer}
    (h : (ss.socketPool i).type = .invalid) (n : ℕ) (as : List Arrival) :
    readEvents i n ss as = .ok (ss, []) := by
  induction n generalizing as with
  | zero => rfl
  | succ n ih =>
    simp only [readEvents, disposeEvent, h, bind, Except.bind, ih, List.append_nil]

theorem readEvents_succ {i : Uid} {ss ss₁ : SocketServer} {as : List Arrival} {out : List IoMsg}
    (hopen : ss.Open i) (hread : disposeReadmessage ss i (messageOutcomes as).1 = .ok (ss₁, out))
    (n : ℕ) : readEvents i (n + 1) ss as = (do
      let (ss₂, out₂) ← readEvents i n ss₁ (messageOutcomes as).2
      .ok (ss₂, out ++ out₂)) := by
  have htype : (ss.socketPool i).type = .connectAdd := hopen
  simp only [readEvents, disposeEvent, htype, if_true, hread, bind, Except.bind]

theorem framesReported_of_incomplete {id : Uid} {s : List UInt8}
    (h : Incomplete UInt8.toNat s) : framesReported id s = [.close id] := by
  rw [framesReported, frames_of_incomplete h, List.map_nil, List.nil_append]

theorem framesReported_cons {id : Uid} {b : UInt8} {s : List UInt8} (h : b.toNat ≤ s.length) :
    framesReported id (b :: s) =
      .data id b.toNat (s.take b.toNat) :: framesReported id (s.drop b.toNat) := by
  rw [framesReported, frames_cons_of_le h, List.map_cons, List.length_take_of_le h,
    List.cons_append, framesReported]

/-- **Framing does not depend on the pieces.** Whatever the pieces in which a stream arrives on a
connection, the first `n` read events report the first `n` of its frames, in order and each with
its bytes and their number, then the close of the connection, once; an incomplete frame at the end
is not reported. -/
theorem inbound_framing {ss : SocketServer} {i : Uid} (hopen : ss.Open i) (as : List Arrival)
    (n : ℕ) : readEvents i n ss as =
      .ok (if n ≤ (frames UInt8.toNat (streamOf as)).length then ss else (closeFd ss i).1,
        (framesReported (ss.socketPool i).id (streamOf as)).take n) := by
  induction n generalizing as with
  | zero => simp only [readEvents, Nat.zero_le, if_true, List.take_zero]
  | succ n ih =>
    by_cases hinc : Incomplete UInt8.toNat (streamOf as)
    · -- The stream is over: this event closes the slot, and those after it are ignored.
      have hclosed : ((closeFd ss i).1.socketPool i).type = .invalid := by
        rw [closeFd_pool hopen.type_ne, Function.update_self]
      have herror : readError ss i = ((closeFd ss i).1, [.close (ss.socketPool i).id]) := by
        simp only [readError, closeFd_id hopen.type_ne, Option.map_some, Option.toList_some]
      have hread := disposeReadmessage_incomplete hinc ss i
      rw [herror] at hread
      rw [readEvents_succ hopen hread, readEvents_closed hclosed, framesReported_of_incomplete hinc,
        frames_of_incomplete hinc]
      simp [bind, Except.bind]
    · cases hs : streamOf as with
      | nil => exact absurd (hs ▸ trivial) hinc
      | cons b s =>
        rw [hs] at hinc
        have hle : b.toNat ≤ s.length := Nat.not_lt.mp hinc
        obtain ⟨hread, hleft⟩ := disposeReadmessage_frame hs hle ss i
        rw [readEvents_succ hopen hread, ih, hleft, framesReported_cons hle, frames_cons_of_le hle]
        simp only [bind, Except.bind, List.length_cons, Nat.add_le_add_iff_right,
          List.take_succ_cons, List.singleton_append]

/-- Two frames, the second one empty, and the length byte of a third arrive in four pieces with
interruptions between them. -/
theorem inbound_framing_pieces :
    readEvents 1 5 (socketServerCreate.setSocket 1 ⟨6, 1, .connectAdd, 0, [], none⟩)
      [.eintr, .bytes 2 [7], .eagain, .eintr, .bytes 8 [0, 3], .bytes 1 [], .eagain] =
    .ok ((closeFd (socketServerCreate.setSocket 1 ⟨6, 1, .connectAdd, 0, [], none⟩) 1).1,
      [.data 1 2 [7, 8], .data 1 0 [], .close 1]) := by
  have hstream : streamOf [.eintr, .bytes 2 [7], .eagain, .eintr, .bytes 8 [0, 3], .bytes 1 [],
      .eagain] = ([(2, [7, 8]), (0, [])].flatMap fun f => f.1 :: f.2) ++ [3, 1] := rfl
  have hincomplete : Incomplete UInt8.toNat [3, 1] := by decide
  have hopen : (socketServerCreate.setSocket 1 ⟨6, 1, .connectAdd, 0, [], none⟩).Open 1 := rfl
  rw [inbound_framing hopen, hstream, framesReported,
    frames_flatMap_append (by decide) hincomplete]
  rfl

end GameServer
