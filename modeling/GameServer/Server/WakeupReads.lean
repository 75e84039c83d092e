import GameServer.NetIo.Service
import GameServer.Server.ThreadSteps

/-!
# Reading the wake-up bytes

`dispose_service_read_msg` of net IO and of net logic reads into a local array and then stores a
terminator at the index that `read` has returned, before it looks whether the call has failed. The
array is as long as the call may read.

A connection collects a byte for every message that is pushed while its reader is busy. In the
machine a `read` that returns nothing is one that has been interrupted or found nothing, since the
connections between the services stay open.

## Main definitions

* `serviceReadMsg`, `netIoServiceReadMsg`, `netLogicServiceReadMsg`.
* `TerminatorInside`, `ReadsShort`.

## Main results

* `serviceReadMsg_isSome` : which results of `read` keep the terminator inside the array.
* `terminators_inside_iff` : in a run the terminators stay inside just when no read fails or finds
  as many bytes as its array holds.
-/

namespace GameServer

/-! ### The two functions -/

/-- What `read` returns when it is asked for `size` bytes. -/
def ReadRes.value (size : ℕ) : ReadRes → ℤ
  | .data bytes => (bytes.take size).length
  | _ => -1

/-- The array after the call; it is zero at first. -/
def ReadRes.buffer (size : ℕ) : ReadRes → Vector UInt8 size
  | .data bytes => Vector.ofFn fun i => bytes.getD i 0
  | _ => Vector.replicate size 0

/-- The store of the terminator, or `none` where it is outside the array. -/
def terminate {size : ℕ} (buf : Vector UInt8 size) (n : ℤ) : Option (Vector UInt8 size) :=
  if h : 0 ≤ n ∧ n.toNat < size then some (buf.set n.toNat 0 h.2) else none

/-- `dispose_service_read_msg` with an array of `size` bytes: what it returns, and whether it closes
the descriptor; `none` where the store is outside the array. The values returned after an error and
at the end of the stream are those of the service. -/
def serviceReadMsg (size : ℕ) (connectErr disconnect : ℤ) (res : ReadRes) : Option (ℤ × Bool) := do
  let _ ← terminate (res.buffer size) (res.value size)
  match res with
  | .eintr => some (0, false)
  | .eagain => some (0, false)
  | .fail => some (connectErr, true)
  | .data _ => if res.value size = 0 then some (disconnect, true) else some (0, false)

/-- `dispose_service_read_msg` of net IO. -/
def netIoServiceReadMsg : ReadRes → Option (ℤ × Bool) := serviceReadMsg 64 (-1) (-1)

/-- `dispose_service_read_msg` of net logic, with `EVENT_THREAD_CONNECT_ERR` and
`EVENT_THREAD_DISCONNECT`. -/
def netLogicServiceReadMsg : ReadRes → Option (ℤ × Bool) := serviceReadMsg 512 2 3

/-- The terminator is stored inside the array just when the call succeeds and finds fewer bytes than
the array holds. -/
theorem serviceReadMsg_isSome {size : ℕ} {connectErr disconnect : ℤ} {res : ReadRes} :
    (serviceReadMsg size connectErr disconnect res).isSome ↔
      ∃ bytes, res = .data bytes ∧ bytes.length < size := by
  have hstore : (serviceReadMsg size connectErr disconnect res).isSome ↔
      0 ≤ res.value size ∧ (res.value size).toNat < size := by
    by_cases h : 0 ≤ res.value size ∧ (res.value size).toNat < size
    · refine iff_of_true ?_ h
      simp only [serviceReadMsg, terminate, dif_pos h, Option.bind_eq_bind, Option.bind_some]
      cases res with
      | data bytes =>
        simp only
        split_ifs <;> rfl
      | eintr | eagain | fail => rfl
    · refine iff_of_false ?_ h
      simp only [serviceReadMsg, terminate, dif_neg h, Option.bind_eq_bind, Option.bind_none,
        Option.isSome_none, Bool.false_eq_true, not_false_iff]
  rw [hstore]
  cases res with
  | data bytes =>
    simp only [ReadRes.value, List.length_take, ReadRes.data.injEq, exists_eq_left']
    omega
  | eintr | eagain | fail => simp [ReadRes.value]

/-! ### The reads of a run -/

/-- The function that reads from a connection; game services have one of their own, which stores at
the last index. -/
def Wire.serviceReadMsg : Wire → Option (ReadRes → Option (ℤ × Bool))
  | .netLogic2NetIo => some netIoServiceReadMsg
  | .netIo2NetLogic => some netLogicServiceReadMsg
  | .game2NetLogic _ => some netLogicServiceReadMsg
  | .netLogic2Game _ => none

/-- How many bytes the array of the reader holds. -/
def Wire.bufLen : Wire → ℕ
  | .netLogic2NetIo => 64
  | _ => 512

theorem Wire.serviceReadMsg_isSome {w : Wire} {f : ReadRes → Option (ℤ × Bool)}
    (h : w.serviceReadMsg = some f) (res : ReadRes) :
    (f res).isSome ↔ ∃ bytes, res = .data bytes ∧ bytes.length < w.bufLen := by
  cases w with
  | netIo2NetLogic | netLogic2NetIo | game2NetLogic =>
    rw [← Option.some.inj h]
    exact GameServer.serviceReadMsg_isSome
  | netLogic2Game => cases h

/-- The result of a `read` of the machine: `n` wake-up bytes, or a failure. -/
def readOutcome (n : ℕ) : ReadRes :=
  if n = 0 then .eagain else .data (List.replicate n 'D'.toUInt8)

/-- A read of net IO or net logic stores its terminator inside its array. -/
def TerminatorInside : ThreadsOut → Prop
  | .read w n => ∀ f, w.serviceReadMsg = some f → (f (readOutcome n)).isSome
  | _ => True

/-- How much a `read` of the step returns at most; none if it is interrupted. -/
def ThreadsIn.got : ThreadsIn → ℕ
  | .netIo t => t.got
  | .netLogic t => t.got
  | .game _ got => got

/-- Every read of the step by net IO or net logic is not interrupted, finds a byte, and does not
fill its array: because fewer bytes are unread, or because the call returns fewer. -/
def ReadsShort (P : Protobuf) (K : Sockets) (s : Threads) (i : ThreadsIn) : Prop :=
  ∀ s' out w n, (threadsMachine P K).step s i = .ok (s', out) → .read w n ∈ out →
    w.serviceReadMsg ≠ none →
      0 < i.got ∧ 0 < s.unread w ∧ (s.unread w < w.bufLen ∨ i.got < w.bufLen)

theorem terminatorInside_read {w : Wire} {n : ℕ} :
    TerminatorInside (.read w n) ↔ w.serviceReadMsg ≠ none → 0 < n ∧ n < w.bufLen := by
  have hres : (∃ bytes, readOutcome n = .data bytes ∧ bytes.length < w.bufLen) ↔
      0 < n ∧ n < w.bufLen := by
    unfold readOutcome
    split_ifs with hn
    · simp [hn]
    · simp [Nat.pos_of_ne_zero hn]
  constructor
  · intro h hsome
    obtain ⟨f, hf⟩ := Option.ne_none_iff_exists'.mp hsome
    exact hres.mp ((Wire.serviceReadMsg_isSome hf _).mp (h f hf))
  · intro h f hf
    refine (Wire.serviceReadMsg_isSome hf _).mpr (hres.mpr (h ?_))
    rw [hf]
    exact Option.some_ne_none f

theorem netIoTurn_read {s s' : Threads} {t : NetIoTurn} {out : List ThreadsOut} {w : Wire} {n : ℕ}
    (h : s.netIoTurn t = .ok (s', out)) (hread : .read w n ∈ out) :
    n = min t.got (min w.bufLen (s.unread w)) := by
  obtain ⟨⟨loop, os⟩, -, h⟩ := Except.bind_eq_ok_iff.mp h
  simp only at h
  split_ifs at h with hflag
  · split at h <;> obtain ⟨-, rfl⟩ := Prod.mk.inj (Except.ok.inj h)
    · exact absurd hread List.not_mem_nil
    · simp at hread
  · split at h
    · obtain ⟨-, rfl⟩ := Prod.mk.inj (Except.ok.inj h)
      exact absurd hread List.not_mem_nil
    · split_ifs at h with htype <;> obtain ⟨-, rfl⟩ := Prod.mk.inj (Except.ok.inj h)
      · obtain ⟨rfl, rfl⟩ := ThreadsOut.read.inj (List.mem_singleton.mp hread)
        rfl
      · exact absurd hread List.not_mem_nil

theorem netLogicWoken_read {s s' : Threads} {loop : LoopState (Fin maxService) netLogicMaxEvent}
    {eve : Event (Fin maxService)} {que : QueId} {w w' : Wire} {got n : ℕ} {out : List ThreadsOut}
    (hlen : w'.bufLen = 512) (h : s.netLogicWoken loop eve que w' got = (s', out))
    (hread : .read w n ∈ out) : n = min got (min w.bufLen (s.unread w)) := by
  unfold Threads.netLogicWoken at h
  split_ifs at h with heve hempty <;> obtain ⟨-, rfl⟩ := Prod.mk.inj h
  · exact absurd hread List.not_mem_nil
  · obtain ⟨rfl, rfl⟩ := ThreadsOut.read.inj (List.mem_singleton.mp hread)
    rw [hlen]
    rfl
  · exact absurd hread List.not_mem_nil

theorem netLogicTurn_read {P : Protobuf} {s s' : Threads} {t : NetLogicTurn}
    {out : List ThreadsOut} {w : Wire} {n : ℕ} (h : s.netLogicTurn P t = .ok (s', out))
    (hread : .read w n ∈ out) : n = min t.got (min w.bufLen (s.unread w)) := by
  obtain ⟨⟨loop, os⟩, -, h⟩ := Except.bind_eq_ok_iff.mp h
  simp only at h
  split_ifs at h with hflag
  · split at h
    · obtain ⟨-, rfl⟩ := Prod.mk.inj (Except.ok.inj h)
      exact absurd hread List.not_mem_nil
    · obtain ⟨⟨r, acts⟩, -, h⟩ := Except.bind_eq_ok_iff.mp h
      obtain ⟨-, rfl⟩ := Prod.mk.inj (Except.ok.inj h)
      simp at hread
  · split at h
    · obtain ⟨-, rfl⟩ := Prod.mk.inj (Except.ok.inj h)
      exact absurd hread List.not_mem_nil
    · split at h <;> have hout := Except.ok.inj h
      · exact netLogicWoken_read rfl hout hread
      · exact netLogicWoken_read rfl hout hread
      · obtain ⟨-, rfl⟩ := Prod.mk.inj hout
        exact absurd hread List.not_mem_nil

theorem gameTurn_read {s s' : Threads} {g : ServiceId} {got : ℕ} {out : List ThreadsOut} {w : Wire}
    {n : ℕ} (h : s.gameTurn g got = .ok (s', out)) (hread : .read w n ∈ out) :
    n = min got (min w.bufLen (s.unread w)) := by
  unfold Threads.gameTurn at h
  split_ifs at h with hflag hempty
  · split at h
    · obtain ⟨-, rfl⟩ := Prod.mk.inj (Except.ok.inj h)
      exact absurd hread List.not_mem_nil
    · split at h
      · obtain ⟨⟨gl, os⟩, -, h⟩ := Except.bind_eq_ok_iff.mp h
        obtain ⟨-, rfl⟩ := Prod.mk.inj (Except.ok.inj h)
        simp at hread
      · cases h
  · obtain ⟨-, rfl⟩ := Prod.mk.inj (Except.ok.inj h)
    exact absurd hread List.not_mem_nil
  · obtain ⟨-, rfl⟩ := Prod.mk.inj (Except.ok.inj h)
    obtain ⟨rfl, rfl⟩ := ThreadsOut.read.inj (List.mem_singleton.mp hread)
    rfl

/-- **Step lemma.** How many bytes the read of a step returns. -/
theorem read_eq {P : Protobuf} {K : Sockets} {s s' : Threads} {i : ThreadsIn}
    {out : List ThreadsOut} {w : Wire} {n : ℕ}
    (h : (threadsMachine P K).step s i = .ok (s', out)) (hread : .read w n ∈ out) :
    n = min i.got (min w.bufLen (s.unread w)) := by
  simp only [threadsMachine, Threads.step] at h
  cases hdo : s.todo i.thread with
  | cons act rest =>
    rw [hdo] at h
    obtain ⟨-, rfl⟩ := Prod.mk.inj (Except.ok.inj h)
    cases act with
    | push node => simp at hread
    | wake w' =>
      simp only at hread
      split_ifs at hread <;> exact absurd hread List.not_mem_nil
  | nil =>
    simp only [hdo] at h
    cases i with
    | netIo t => exact netIoTurn_read h hread
    | netLogic t => exact netLogicTurn_read h hread
    | game g got => exact gameTurn_read h hread

/-- The terminators of a step stay inside their arrays just when its reads are short. -/
theorem terminatorInside_step_iff {P : Protobuf} {K : Sockets} {s s' : Threads} {i : ThreadsIn}
    {out : List ThreadsOut} (h : (threadsMachine P K).step s i = .ok (s', out)) :
    (∀ x ∈ out, TerminatorInside x) ↔ ReadsShort P K s i := by
  constructor
  · intro hall s₁ out₁ w n h₁ hread hsome
    obtain ⟨rfl, rfl⟩ := Prod.mk.inj (Except.ok.inj (h.symm.trans h₁))
    have hn := read_eq h hread
    have hinside := terminatorInside_read.mp (hall _ hread) hsome
    omega
  · intro hshort x hx
    cases x with
    | read w n =>
      refine terminatorInside_read.mpr fun hsome => ?_
      have hn := read_eq h hx
      have hlim := hshort s' out w n h hx hsome
      omega
    | pushed | popped => trivial

/-- **The terminators stay inside their arrays just when the reads are short.** The function that
reads from a connection stores inside its array exactly where `read` succeeds and finds fewer bytes
than the array holds. So in a run of the threads all stores of net IO and net logic are inside
exactly if at each of their reads fewer bytes are unread, or returned, and the call does not
fail. -/
theorem terminators_inside_iff {P : Protobuf} {K : Sockets} {u : Unset} {is : List ThreadsIn}
    {os : List ThreadsOut} {s : Threads}
    (hrun : (threadsMachine P K).Exec Machine.any (Threads.start u) is os s) :
    (∀ w f res, Wire.serviceReadMsg w = some f →
      ((f res).isSome ↔ ∃ bytes, res = .data bytes ∧ bytes.length < w.bufLen)) ∧
    ((∀ x ∈ os, TerminatorInside x) ↔
      (threadsMachine P K).Exec (ReadsShort P K) (Threads.start u) is os s) :=
  ⟨fun _ _ res hf => Wire.serviceReadMsg_isSome hf res,
    hrun.forall_outputs_iff fun _ _ _ _ hstep => terminatorInside_step_iff hstep⟩

/-- Sockets that hold 1024 bytes. -/
def kilobyteSockets : Sockets := .established (fun _ => 1024) fun _ => Nat.succ_pos 1023

/-- `n` clients connect one after the other, and net IO reports each. -/
def connects (n : ℕ) : List ThreadsIn :=
  (List.range n).flatMap fun u =>
    [.netIo ⟨oneEvent maxEvent_pos 5, fun _ => .connectAdd, 0, [(.success (Fin.ofNat _ u), u)]⟩,
      .netIo ⟨none, fun _ => .invalid, 0, []⟩, .netIo ⟨none, fun _ => .invalid, 0, []⟩]

/-- Two clients connect before net logic reads. -/
theorem terminators_inside_two : ∃ s os,
    (threadsMachine oneByteProtobuf kilobyteSockets).Exec
      (ReadsShort oneByteProtobuf kilobyteSockets) (Threads.start .zero)
      (connects 2 ++ [.netLogic ⟨oneEvent maxService_pos 0, 512⟩]) os s ∧
    .read .netIo2NetLogic 2 ∈ os := by
  have hrun : ((threadsMachine oneByteProtobuf kilobyteSockets).run Machine.any
      (Threads.start .zero) (connects 2 ++ [.netLogic ⟨oneEvent maxService_pos 0, 512⟩])).map
      Prod.snd = some [.pushed (.netio2Netlogic (.success 0) 0),
        .pushed (.netio2Netlogic (.success 1) 1), .read .netIo2NetLogic 2] := by
    decide +kernel
  obtain ⟨s, os, hrun, hos⟩ := Machine.exec_of_run_map _ hrun
  subst hos
  refine ⟨s, _, (terminators_inside_iff hrun).2.mp ?_, by decide⟩
  simp only [List.forall_mem_cons, TerminatorInside, true_and, List.not_mem_nil, false_implies,
    implies_true, and_true]
  intro f hf
  exact (Wire.serviceReadMsg_isSome hf _).mpr ⟨_, rfl, by decide⟩

/-- 512 clients connect while net logic is busy: the terminator is stored behind the array. -/
theorem full_array_overrun : ∃ s os,
    (threadsMachine oneByteProtobuf kilobyteSockets).Exec Machine.any (Threads.start .zero)
      (connects 512 ++ [.netLogic ⟨oneEvent maxService_pos 0, 512⟩]) os s ∧
    ¬∀ x ∈ os, TerminatorInside x := by
  have hrun : ((threadsMachine oneByteProtobuf kilobyteSockets).run Machine.any
      (Threads.start .zero) (connects 512 ++ [.netLogic ⟨oneEvent maxService_pos 0, 512⟩])).map
      (fun p => decide (.read .netIo2NetLogic 512 ∈ p.2)) = some true := by
    decide +kernel
  obtain ⟨s, os, hrun, hread⟩ := Machine.exec_of_run_map _ hrun
  refine ⟨s, os, hrun, fun hall => ?_⟩
  have hinside := terminatorInside_read.mp (hall _ (of_decide_eq_true hread)) (by nofun)
  exact absurd hinside.2 (Nat.lt_irrefl 512)

end GameServer
