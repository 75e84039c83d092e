import GameServer.NetIo.PoolInv

/-!
# Allocating slots and accepting clients

`apply_id` looks for a free slot behind the last one that it has handed out. At the end of the pool
it resets its counter, but only for the next call: the search itself does not wrap around. A client
for which it returns `-1`, and one whose descriptor cannot be prepared, has to be refused; the only
`close` of `dispose_accept` is in a branch that is never taken.

## Main definitions

* `SocketServer.FreeBehind`, `AllocatesFree` : what the search finds, and what it should find.
* `acceptClient` : `dispose_accept` and `socket_server_start`, with the descriptors they close.
* `AcceptsOrRefuses` : the client is registered, or refused with nothing left behind.

## Main results

* `apply_id_finds_free_iff`, `accept_refuses_cleanly_iff` : when the code does so.
-/

namespace GameServer

/-! ### The search for a free slot -/

namespace SocketServer

/-- The slot is free. -/
def Free (ss : SocketServer) (u : Uid) : Prop := (ss.socketPool u).type = .invalid

/-- Some slot behind the last one that was handed out is free. -/
def FreeBehind (ss : SocketServer) : Prop := ∃ u : Uid, ss.allocId < u.val ∧ ss.Free u

end SocketServer

/-- The loop fails when the slots that it looks at are all in use. -/
theorem applyIdLoop_eq_neg_one_iff (ss : SocketServer) (n id : ℕ) :
    (applyIdLoop ss n id).1 = -1 ↔ ∀ u : Uid, id ≤ u.val → u.val < id + n → ¬ss.Free u := by
  induction n generalizing id with
  | zero => exact iff_of_true rfl fun u hle hlt => by omega
  | succ n ih =>
    unfold applyIdLoop
    split_ifs with hid hfree
    · refine iff_of_false not_false fun hused => ?_
      exact hused ⟨id, hid⟩ le_rfl (by simp) hfree
    · rw [ih]
      constructor
      · intro hused u hle hlt
        rcases Nat.eq_or_lt_of_le hle with heq | hnext
        · obtain rfl : u = ⟨id, hid⟩ := Fin.ext heq.symm
          exact hfree
        · exact hused u hnext (by omega)
      · intro hused u hle hlt
        exact hused u (by omega) (by omega)
    · refine iff_of_true rfl fun u hle _ => ?_
      have hlt := u.isLt
      omega

/-- The search fails when no slot behind the last one is free. -/
theorem applyId_eq_neg_one_iff (ss : SocketServer) : (applyId ss).1 = -1 ↔ ¬ss.FreeBehind := by
  have hsame : (if maxSocket - 1 ≤ ss.allocId then { ss with allocId := 0 } else ss).socketPool =
      ss.socketPool := by
    split_ifs <;> rfl
  unfold applyId
  simp only [applyIdLoop_eq_neg_one_iff, SocketServer.Free, hsame, SocketServer.FreeBehind,
    not_exists, not_and]
  refine forall_congr' fun u => ⟨fun h hlt => h hlt ?_, fun h hle _ => h hle⟩
  have hu := u.isLt
  omega

/-- The search does what it is for: it returns a free slot whenever there is one, and fails only
when all are in use. Slot 0 is not handed out. -/
def AllocatesFree (ss : SocketServer) : Prop :=
  ((∃ u : Uid, u ≠ 0 ∧ ss.Free u) → ∃ u : Uid, (applyId ss).1 = u.val ∧ u ≠ 0 ∧ ss.Free u) ∧
    ((applyId ss).1 = -1 → ∀ u : Uid, u ≠ 0 → ¬ss.Free u)

/-- **Where the search finds a free slot.** In every state of the pool `apply_id` finds a free slot
whenever there is one, and fails only when all are in use, exactly if a slot behind the last one
handed out is free or none is free at all. -/
theorem apply_id_finds_free_iff (ss : SocketServer) :
    AllocatesFree ss ↔ ss.FreeBehind ∨ ∀ u : Uid, u ≠ 0 → ¬ss.Free u := by
  constructor
  · rintro ⟨-, hfail⟩
    by_cases hbehind : ss.FreeBehind
    · exact Or.inl hbehind
    · exact Or.inr (hfail ((applyId_eq_neg_one_iff ss).mpr hbehind))
  · rintro (hbehind | hused)
    · have hne : (applyId ss).1 ≠ -1 := fun h => (applyId_eq_neg_one_iff ss).mp h hbehind
      refine ⟨fun _ => ?_, fun h => absurd h hne⟩
      obtain ⟨u, hu, hpos, hfree⟩ := (applyId_spec ss).2.resolve_left hne
      refine ⟨u, hu, ?_, hfree⟩
      rintro rfl
      exact Nat.lt_irrefl 0 hpos
    · exact ⟨fun ⟨u, hne, hfree⟩ => absurd hfree (hused u hne), fun _ => hused⟩

/-- The slot behind the last one handed out, if it is free, comes next. -/
theorem applyId_of_next {ss : SocketServer} {u : Uid} (hu : u.val = ss.allocId + 1)
    (hfree : ss.Free u) : applyId ss = ((u.val : ℤ), { ss with allocId := u.val }) := by
  have hroom : ¬maxSocket - 1 ≤ ss.allocId := by
    have hlt := u.isLt
    omega
  have hloop (n : ℕ) (hn : n ≠ 0) :
      applyIdLoop ss n u.val = ((u.val : ℤ), { ss with allocId := u.val }) := by
    have htype : (ss.socketPool ⟨u.val, u.isLt⟩).type = .invalid := hfree
    cases n with
    | zero => exact absurd rfl hn
    | succ n => rw [applyIdLoop, dif_pos u.isLt, if_pos htype]
  unfold applyId
  simp only [if_neg hroom]
  rw [← hu]
  exact hloop maxSocket (NeZero.ne maxSocket)

/-- The slot of a client that has just been accepted. -/
def acceptedSlot (fd : ℤ) (u : Uid) : Socket := ⟨fd, u, .connectNotadd, 0, [], none⟩

/-- A client for which a slot is found gets that slot. -/
theorem disposeAccept_of_found {ss : SocketServer} {fd : ℤ} {u : Uid} {ok : Bool}
    (hu : (applyId ss).1 = u.val) (hfree : ss.Free u) : disposeAccept ss ⟨some fd, true, ok⟩ =
      .ok ((applyId ss).2.setSocket u (acceptedSlot fd u), some u) := by
  have htype : ((applyId ss).2.socketPool u).type = .invalid := by
    rw [(applyId_spec ss).1]
    exact hfree
  simp only [disposeAccept, hu, applySocket, poolIndex_uid, htype, bind, Except.bind, if_true,
    Bool.true_eq_false, if_false, SocketServer.setSocket, Function.update_self,
    Function.update_idem, acceptedSlot]

theorem closeFd_allocId (ss : SocketServer) (i : Uid) : (closeFd ss i).1.allocId = ss.allocId := by
  unfold closeFd
  simp only
  split_ifs <;> rfl

/-- A client is accepted and closed again on the order of net logic: the counter has moved on. -/
theorem exec_accept_close {ss : SocketServer} {u : Uid} (hu : u.val = ss.allocId + 1)
    (hfree : ∀ v, ss.Free v) : ∃ ss',
      poolMachine.Exec PoolOp.Fresh ss [.accept ⟨some 6, true, true⟩, .node (.serviceFull u) []]
        [.order u] ss' ∧ ss'.allocId = u.val ∧ ∀ v, ss'.Free v := by
  have hnew := PoolOp.fresh_accept hfree ⟨some 6, true, true⟩
  have hnext := applyId_of_next hu (hfree u)
  let ss₁ := (applyId ss).2.setSocket u (acceptedSlot 6 u)
  have haccept : poolMachine.step ss (.accept ⟨some 6, true, true⟩) = .ok (ss₁, []) := by
    simp only [poolMachine, disposeAccept_of_found (by rw [hnext]) (hfree u), bind, Except.bind,
      ss₁]
  have hclose : poolMachine.step ss₁ (.node (.serviceFull u) []) =
      .ok ((closeFd ss₁ u).1, [.order u]) := rfl
  refine ⟨_, (Machine.Exec.single hnew haccept).next (PoolOp.fresh_node ..) hclose, ?_, fun v => ?_⟩
  · rw [closeFd_allocId]
    show (applyId ss).2.allocId = u.val
    rw [hnext]
  · have hpool : ss₁.socketPool = Function.update ss.socketPool u (acceptedSlot 6 u) := by
      show Function.update (applyId ss).2.socketPool u _ = _
      rw [(applyId_spec ss).1]
    have hused : (ss₁.socketPool u).type ≠ .invalid := by
      rw [hpool, Function.update_self]
      exact SocketType.noConfusion
    unfold SocketServer.Free
    rw [closeFd_pool hused, hpool, Function.update_idem]
    by_cases hv : v = u
    · rw [hv, Function.update_self]
    · rw [Function.update_of_ne hv]
      exact hfree v

/-- Clients that come and go one after the other move the counter to the end of the pool. -/
theorem exists_alloc_at (n : ℕ) (hn : n < maxSocket) : ∃ ops out ss,
    poolMachine.Exec PoolOp.Fresh socketServerCreate ops out ss ∧ ss.allocId = n ∧
    ∀ u, ss.Free u := by
  induction n with
  | zero => exact ⟨_, _, _, .init, rfl, fun _ => rfl⟩
  | succ n ih =>
    obtain ⟨ops, out, ss, hrun, halloc, hfree⟩ := ih (Nat.lt_of_succ_lt hn)
    obtain ⟨ss', hround, halloc', hfree'⟩ :=
      exec_accept_close (u := ⟨n + 1, hn⟩) (by rw [halloc]) hfree
    exact ⟨_, _, ss', hrun.append hround, halloc', hfree'⟩

/-- After 32767 clients that came and went one after the other every slot is free, and `apply_id`
returns `-1`. -/
theorem apply_id_misses_free : ∃ ops out ss,
    poolMachine.Exec PoolOp.Fresh socketServerCreate ops out ss ∧ (∀ u, ss.Free u) ∧
    (applyId ss).1 = -1 ∧ ¬AllocatesFree ss := by
  obtain ⟨ops, out, ss, hrun, halloc, hfree⟩ := exists_alloc_at (maxSocket - 1)
    (Nat.sub_one_lt (NeZero.ne maxSocket))
  have hfail : (applyId ss).1 = -1 := by
    rw [applyId_eq_neg_one_iff]
    rintro ⟨u, hu, -⟩
    have hlt := u.isLt
    omega
  exact ⟨ops, out, ss, hrun, hfree, hfail, fun h => h.2 hfail 1 (by decide) (hfree 1)⟩

/-! ### Accepting a client -/

/-- `apply_socket` with its argument `add_epoll`, which is the outcome of `epoll_add` where the call
is asked for. `none` is the null pointer that it returns when that call fails. -/
def applySocketAdd (ss : SocketServer) (fd id : ℤ) (addEpoll : Option Bool) :
    Except Fault (Option (Uid × SocketServer)) := do
  let i ← poolIndex id
  if (ss.socketPool i).type = .invalid then
    match addEpoll.elim (some ss) (epollAdd ss fd i) with
    | none => .ok none
    | some ss₁ => .ok (some (i, ss₁.setSocket i
        { ss₁.socketPool i with fd := fd, id := i, remainSize := 0, head := [], tail := none }))
  else .error .assertFailed

/-- `dispose_accept`, with the descriptors that it closes. -/
def disposeAcceptClosing (ss : SocketServer) (res : AcceptRes) :
    Except Fault (SocketServer × Option Uid × List ℤ) :=
  match res.fd with
  | none => .ok (ss, none, [])
  | some clientFd =>
    let (id, ss₁) := applyId ss
    if res.nonblock = false then .ok (ss₁, none, [])
    else do
      let cs ← applySocketAdd ss₁ clientFd id none
      match cs with
      | none => .ok (ss₁, none, [clientFd])
      | some (i, ss₂) =>
        .ok (ss₂.setSocket i { ss₂.socketPool i with type := .connectNotadd }, some i, [])

/-- `dispose_accept` followed by `socket_server_start`, which closes no descriptor: whether the
client is registered, and the descriptors closed. -/
def acceptClient (ss : SocketServer) (res : AcceptRes) :
    Except Fault (SocketServer × Bool × List ℤ) := do
  let (ss₁, id, closed) ← disposeAcceptClosing ss res
  match id with
  | none => .ok (ss₁, false, closed)
  | some i =>
    let (ss₂, success) := socketServerStart ss₁ i res.epollOk
    .ok (ss₂, success, closed)

theorem applySocketAdd_none (ss : SocketServer) (fd id : ℤ) :
    applySocketAdd ss fd id none = (applySocket ss fd id).map some := by
  unfold applySocketAdd applySocket
  cases poolIndex id with
  | error e => rfl
  | ok i =>
    simp only [bind, Except.bind, Option.elim]
    split_ifs <;> rfl

/-- The two accounts of `dispose_accept` agree, and no descriptor is ever closed. -/
theorem disposeAcceptClosing_eq (ss : SocketServer) (res : AcceptRes) :
    disposeAcceptClosing ss res = (disposeAccept ss res).map fun p => (p.1, p.2, []) := by
  unfold disposeAcceptClosing disposeAccept
  cases res.fd with
  | none => rfl
  | some fd =>
    simp only [applySocketAdd_none]
    split_ifs
    · rfl
    · cases applySocket (applyId ss).2 fd (applyId ss).1 <;> rfl

/-- The client has no slot, or `socket_server_start` decides. -/
theorem acceptClient_eq_ok {ss ss' : SocketServer} {res : AcceptRes} {success : Bool}
    {closed : List ℤ} : acceptClient ss res = .ok (ss', success, closed) ↔ closed = [] ∧
      ((disposeAccept ss res = .ok (ss', none) ∧ success = false) ∨
        ∃ ss₁ i, disposeAccept ss res = .ok (ss₁, some i) ∧
          socketServerStart ss₁ i res.epollOk = (ss', success)) := by
  unfold acceptClient
  rw [disposeAcceptClosing_eq]
  cases disposeAccept ss res with
  | error e => simp only [Except.map, bind, Except.bind, reduceCtorEq, false_and, exists_false,
      or_self, and_false]
  | ok p =>
    obtain ⟨ss₁, id⟩ := p
    cases id with
    | none =>
      simp only [Except.map, bind, Except.bind, Except.ok.injEq, Prod.mk.injEq, and_true,
        reduceCtorEq, and_false, false_and, exists_false, or_false]
      constructor
      · rintro ⟨rfl, rfl, rfl⟩
        exact ⟨rfl, rfl, rfl⟩
      · rintro ⟨rfl, rfl, rfl⟩
        exact ⟨rfl, rfl, rfl⟩
    | some i =>
      simp only [Except.map, bind, Except.bind, Except.ok.injEq, Prod.mk.injEq, reduceCtorEq,
        and_false, false_and, false_or, Option.some.injEq]
      constructor
      · rintro ⟨rfl, rfl, rfl⟩
        exact ⟨rfl, ss₁, i, ⟨rfl, rfl⟩, rfl⟩
      · rintro ⟨rfl, ss₂, j, ⟨rfl, rfl⟩, hstart⟩
        exact ⟨congrArg Prod.fst hstart, congrArg Prod.snd hstart, rfl⟩

/-- The client is registered, in a slot of the type `SOCKET_TYPE_CONNECT_ADD`, or it is refused: an
accepted descriptor is closed, and the pool is as before. -/
def AcceptsOrRefuses (ss : SocketServer) (res : AcceptRes) : Prop :=
  ∃ ss' success closed, acceptClient ss res = .ok (ss', success, closed) ∧
    ((success = true ∧ ∃ fd i, res.fd = some fd ∧ (ss'.socketPool i).fd = fd ∧ ss'.Open i) ∨
      (success = false ∧ (∀ fd, res.fd = some fd → fd ∈ closed) ∧
        ss'.socketPool = ss.socketPool))

/-- `socket_server_start` on a client that has just been accepted, whose descriptor is added to the
epoll set. -/
theorem socketServerStart_accepted {ss : SocketServer} {fd : ℤ} {u : Uid}
    (h : ss.socketPool u = acceptedSlot fd u) : ∃ ss', socketServerStart ss u true = (ss', true) ∧
      (ss'.socketPool u).fd = fd ∧ ss'.Open u := by
  refine ⟨(ss.setEpoll fd (some ⟨u, false⟩)).setSocket u ⟨fd, u, .connectAdd, 0, [], none⟩, ?_, ?_⟩
  · simp only [socketServerStart, h, acceptedSlot, epollAdd, if_true]
  · simp only [SocketServer.Open, SocketServer.setSocket_socketPool, Function.update_self, and_self]

/-- Without a free slot behind the last one the pool is indexed with `-1`. -/
theorem disposeAccept_of_not_found {ss : SocketServer} (h : ¬ss.FreeBehind) (fd : ℤ) (ok : Bool) :
    disposeAccept ss ⟨some fd, true, ok⟩ = .error .poolRange := by
  have hid := (applyId_eq_neg_one_iff ss).mpr h
  have hindex : poolIndex (-1) = .error .poolRange := by decide
  simp only [disposeAccept, hid, applySocket, hindex, bind, Except.bind, Bool.true_eq_false,
    if_false]

/-- A registration means that the descriptor could be prepared and that a slot was found. -/
theorem accept_conditions {ss ss₁ ss₂ : SocketServer} {res : AcceptRes} {i : Uid}
    (haccept : disposeAccept ss res = .ok (ss₁, some i))
    (hstart : socketServerStart ss₁ i res.epollOk = (ss₂, true)) :
    res.nonblock = true ∧ res.epollOk = true ∧ ss.FreeBehind := by
  obtain ⟨fd, nonblock, epollOk⟩ := res
  have hnot : (ss₁.socketPool i).type = .connectNotadd := by
    rcases disposeAccept_cases haccept with ⟨hnone, -⟩ | ⟨j, s, hj, -, htype, -, hpool⟩
    · cases hnone
    · obtain rfl := Option.some.inj hj
      rw [hpool, Function.update_self, htype]
  have hepoll : epollOk = true := by
    by_contra hne
    obtain rfl := Bool.eq_false_iff.mpr hne
    simp only [socketServerStart, hnot, epollAdd, Bool.false_eq_true, if_false, Prod.mk.injEq,
      and_false] at hstart
  cases fd with
  | none => cases haccept
  | some fd =>
    cases nonblock with
    | false => cases haccept
    | true =>
      refine ⟨rfl, hepoll, ?_⟩
      by_contra hbehind
      rw [disposeAccept_of_not_found hbehind] at haccept
      cases haccept

/-- **When a client is registered or refused cleanly.** In every state of net IO and for every
outcome of the calls, `dispose_accept` followed by `socket_server_start` registers the client or
refuses it cleanly exactly if there is no client, or its descriptor can be made non-blocking and
added to the epoll set and a slot behind the last one handed out is free. -/
theorem accept_refuses_cleanly_iff (ss : SocketServer) (res : AcceptRes) :
    AcceptsOrRefuses ss res ↔
      res.fd = none ∨ (res.nonblock = true ∧ res.epollOk = true ∧ ss.FreeBehind) := by
  unfold AcceptsOrRefuses
  simp only [acceptClient_eq_ok]
  constructor
  · rintro ⟨ss', success, closed, ⟨rfl, hcases⟩, hres⟩
    by_cases hnone : res.fd = none
    · exact Or.inl hnone
    obtain ⟨fd, hfd⟩ := Option.ne_none_iff_exists'.mp hnone
    -- No descriptor is closed, so the client is not refused cleanly.
    obtain ⟨rfl, -⟩ := hres.resolve_right fun h => absurd (h.2.1 fd hfd) List.not_mem_nil
    rcases hcases with ⟨-, hfalse⟩ | ⟨ss₁, i, haccept, hstart⟩
    · cases hfalse
    · exact Or.inr (accept_conditions haccept hstart)
  · rintro (hnone | ⟨hblock, hepoll, hbehind⟩)
    · refine ⟨ss, false, [], ⟨rfl, Or.inl ⟨?_, rfl⟩⟩, Or.inr ⟨rfl, ?_, rfl⟩⟩
      · simp only [disposeAccept, hnone]
      · simp only [hnone, reduceCtorEq, false_implies, implies_true]
    · obtain ⟨fd, nonblock, epollOk⟩ := res
      subst hblock hepoll
      cases fd with
      | none =>
        refine ⟨ss, false, [], ⟨rfl, Or.inl ⟨rfl, rfl⟩⟩, Or.inr ⟨rfl, fun _ h => ?_, rfl⟩⟩
        cases h
      | some fd =>
        have hne : (applyId ss).1 ≠ -1 := fun h => (applyId_eq_neg_one_iff ss).mp h hbehind
        obtain ⟨u, hu, -, hfree⟩ := (applyId_spec ss).2.resolve_left hne
        have hnew : ((applyId ss).2.setSocket u (acceptedSlot fd u)).socketPool u =
          acceptedSlot fd u := Function.update_self ..
        obtain ⟨ss', hstart, hslot⟩ := socketServerStart_accepted hnew
        exact ⟨ss', true, [], ⟨rfl, Or.inr ⟨_, u, disposeAccept_of_found hu hfree, hstart⟩⟩,
          Or.inl ⟨rfl, fd, u, rfl, hslot⟩⟩

/-- The descriptor of a client cannot be made non-blocking: it stays open, and no slot holds it. -/
theorem refused_client_leaks : ∃ ss, networkIoServiceStart 4 5 = .ok ss ∧
    ¬AcceptsOrRefuses ss ⟨some 6, false, true⟩ := by
  refine ⟨_, rfl, ?_⟩
  rintro ⟨ss', success, closed, h, hres⟩
  obtain ⟨rfl, ⟨-, rfl⟩ | ⟨ss₁, i, haccept, -⟩⟩ := acceptClient_eq_ok.mp h
  · rcases hres with ⟨hsuccess, -⟩ | ⟨-, hclosed, -⟩
    · cases hsuccess
    · exact absurd (hclosed 6 rfl) List.not_mem_nil
  · cases haccept

end GameServer
