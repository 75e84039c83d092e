import GameServer.Game.Steps
import GameServer.Net.Routes
import GameServer.Server.Threads

/-!
# What one step does to the threads

`ThreadsStep` lists the steps of the threads with the states that they reach, in terms of the steps
of the single services. Later modules argue by cases on it, or on `IsTurn`, which says what a turn
of a loop may do to the connections and to what the threads have to do.

## Main definitions

* `ThreadsStep` : the steps.
* `Sends`, `Pending` : every push is followed by the write that announces it.
* `ThreadsInv` : the invariant that the other modules rest on.
* `pushes`, `pops` : the history of a queue.

## Main results

* `threadsMachine_step` : every step of the machine is a `ThreadsStep`.
* `ThreadsInv.step`, `ThreadsInv.exec` : the step lemma and the run lemma.
* `queues_fifo` : what has been pushed to a queue has been popped from it or waits in it.
-/

namespace GameServer

/-! ### The steps -/

/-- The connection from the service of an entry. -/
def ServiceEntry.wire : ServiceEntry → Option Wire
  | .netIo => some .netIo2NetLogic
  | .unused => none
  | .game g => some (.game2NetLogic g)

theorem ServiceEntry.reader_of_wire {e : ServiceEntry} {w : Wire} (h : e.wire = some w) :
    w.reader = .netLogic := by
  cases e with
  | netIo | game => exact Option.some.inj h ▸ rfl
  | unused => cases h

/-- The next node of a queue, and the pool without it. -/
def Threads.Pops (s : Threads) (node : QueNode) (rest : List QueNode) : Prop :=
  MergedQueues.pop QueNode.que node.que s.quePool = some (node, rest)

/-- The steps of the threads. The first four are those of a thread that is blocked or has something
to do; the others are turns of the loops. -/
inductive ThreadsStep (P : Protobuf) (K : Sockets) (s : Threads) :
    ThreadsIn → Threads → List ThreadsOut → Prop
  | waits (i : ThreadsIn) : ThreadsStep P K s i s []
  | pushed (i : ThreadsIn) {node : QueNode} {rest : List Act}
      (hdo : s.todo i.thread = .push node :: rest) :
      ThreadsStep P K s i { s.setTodo i.thread rest with quePool := s.quePool ++ [node] }
        [.pushed node]
  | wrote (i : ThreadsIn) {w : Wire} {rest : List Act} (hdo : s.todo i.thread = .wake w :: rest)
      (hroom : s.unread w < K.capacity w) :
      ThreadsStep P K s i
        { s.setTodo i.thread rest with unread := Function.update s.unread w (s.unread w + 1) } []
  | failed (i : ThreadsIn) {w : Wire} {rest : List Act} (hdo : s.todo i.thread = .wake w :: rest)
      (hfull : K.capacity w ≤ s.unread w) (hnonblock : K.nonblock w = true) :
      ThreadsStep P K s i (s.setTodo i.thread rest) []
  | netIoSlept (t : NetIoTurn) {loop : LoopState Uid maxEvent} (hidle : s.todo .netIo = [])
      (hempty : s.netIo.checkQue = true → s.queue .netlogic2Netio = [])
      (hflag : loop.checkQue = false) :
      ThreadsStep P K s (.netIo t) { s with netIo := loop } []
  | netIoReported (t : NetIoTurn) {loop : LoopState Uid maxEvent} (hidle : s.todo .netIo = [])
      (hflag : s.netIo.checkQue = false) (hflag' : loop.checkQue = false) :
      ThreadsStep P K s (.netIo t)
        { s.setTodo .netIo (reportActs t.reports) with netIo := loop } []
  | netIoPopped (t : NetIoTurn) {node : NetIoNode} {origin : Option ServiceId}
      {rest : List QueNode} (hidle : s.todo .netIo = []) (hflag : s.netIo.checkQue = true)
      (hpop : s.Pops (.netlogic2Netio node origin) rest) :
      ThreadsStep P K s (.netIo t)
        { s.setTodo .netIo (reportActs t.reports) with quePool := rest }
        [.popped (.netlogic2Netio node origin)]
  | netIoWoken (t : NetIoTurn) (n : ℕ) {loop : LoopState Uid maxEvent} (hidle : s.todo .netIo = [])
      (hflag : s.netIo.checkQue = false) (hflag' : loop.checkQue = true) :
      ThreadsStep P K s (.netIo t) { s.setRead .netLogic2NetIo n with netIo := loop }
        [.read .netLogic2NetIo n]
  | netLogicSlept (t : NetLogicTurn) {loop : LoopState (Fin maxService) netLogicMaxEvent}
      (hidle : s.todo .netLogic = [])
      (hempty : s.netLogic.checkQue = true → s.queue s.currentQue = [])
      (hflag : loop.checkQue = false) :
      ThreadsStep P K s (.netLogic t) { s with netLogic := loop } []
  | routed (t : NetLogicTurn) {msg : IoMsg} {conn : ℕ} {rest : List QueNode} {r : Router}
      {out : List NetOut} {acts : List Act} (hidle : s.todo .netLogic = [])
      (hflag : s.netLogic.checkQue = true) (hque : s.currentQue = .netio2Netlogic)
      (hpop : s.Pops (.netio2Netlogic msg conn) rest) (hroute : RouteStep P s.router msg r out)
      (hacts : out.mapM (NetOut.act conn none) = .ok acts) :
      ThreadsStep P K s (.netLogic t)
        { s.setTodo .netLogic acts with quePool := rest, router := r }
        [.popped (.netio2Netlogic msg conn)]
  | packed (t : NetLogicTurn) {b : Broadcast} {g : ServiceId} {rest : List QueNode}
      {rsp : List UInt8} {rspSize : ℤ} (hidle : s.todo .netLogic = [])
      (hflag : s.netLogic.checkQue = true) (hque : s.currentQue = .gamelogic2Netlogic)
      (hpop : s.Pops (.gamelogic2Netlogic b g) rest)
      (hpack : rspDataPack P b.protoType b.buffer = .ok (rsp, rspSize)) :
      ThreadsStep P K s (.netLogic t)
        { s.setTodo .netLogic [.push (.netlogic2Netio (.broadcast rspSize b.uidList rsp) (some g)),
            .wake .netLogic2NetIo] with
          quePool := rest }
        [.popped (.gamelogic2Netlogic b g)]
  | dropped (t : NetLogicTurn) {node : QueNode} {rest : List QueNode}
      (hidle : s.todo .netLogic = []) (hflag : s.netLogic.checkQue = true)
      (hunused : serviceEntry s.currentSerice = .unused) (hque : s.currentQue = node.que)
      (hpop : s.Pops node rest) :
      ThreadsStep P K s (.netLogic t) { s with quePool := rest } [.popped node]
  | netLogicWoken (t : NetLogicTurn) (n : ℕ) {loop : LoopState (Fin maxService) netLogicMaxEvent}
      {sv : Fin maxService} {w : Wire} {out : List ThreadsOut} (hidle : s.todo .netLogic = [])
      (hflag : s.netLogic.checkQue = false) (hflag' : loop.checkQue = true)
      (hentry : (serviceEntry sv).wire = some w) (hout : out = [] ∨ out = [.read w n]) :
      ThreadsStep P K s (.netLogic t)
        { s.setRead w n with netLogic := loop, currentQue := w.que, currentSerice := sv } out
  | gameSlept (g : ServiceId) (got : ℕ) (hidle : s.todo (.game g) = [])
      (hempty : s.queue (.netlogic2Game g) = []) :
      ThreadsStep P K s (.game g got) { s with checkQue := Function.update s.checkQue g false } []
  | handled (g : ServiceId) (got : ℕ) {msg : GameMsg} {conn : ℕ} {rest : List QueNode}
      {gl : GameLogic} {out : List Broadcast} (hidle : s.todo (.game g) = [])
      (hflag : s.checkQue g = true) (hpop : s.Pops (.netlogic2Game g msg conn) rest)
      (hgame : GameStep (s.game g) msg gl out) :
      ThreadsStep P K s (.game g got)
        { s.setTodo (.game g) (broadcastActs g out) with
          quePool := rest
          gameLogic := Function.update s.gameLogic g gl
          uid2Playid := gl.uid2Playid }
        [.popped (.netlogic2Game g msg conn)]
  | gameWoken (g : ServiceId) (got n : ℕ) (hidle : s.todo (.game g) = [])
      (hflag : s.checkQue g = false) :
      ThreadsStep P K s (.game g got)
        { s.setRead (.netLogic2Game g) n with checkQue := Function.update s.checkQue g true }
        [.read (.netLogic2Game g) n]

namespace Threads

variable {P : Protobuf} {K : Sockets} {s s' : Threads} {out : List ThreadsOut}

/-- A popped node is one of the queue that it is popped from. -/
theorem pops_of_pop {q : QueId} {node : QueNode} {rest : List QueNode}
    (h : MergedQueues.pop QueNode.que q s.quePool = some (node, rest)) :
    node.que = q ∧ s.Pops node rest := by
  obtain rfl : node.que = q := (MergedQueues.pop_eq_some h).1
  exact ⟨rfl, h⟩

theorem queue_eq_nil_of_isEmpty {q : QueId} (h : (s.queue q).isEmpty = true) : s.queue q = [] :=
  List.isEmpty_iff.mp h

theorem perform_step (i : ThreadsIn) {act : Act} {rest : List Act}
    (hdo : s.todo i.thread = act :: rest) :
    ThreadsStep P K s i (s.perform K i.thread act rest).1 (s.perform K i.thread act rest).2 := by
  cases act with
  | push node => exact .pushed i hdo
  | wake w =>
    simp only [perform]
    split_ifs with hroom hnonblock
    · exact .wrote i hdo hroom
    · exact .failed i hdo (Nat.le_of_not_lt hroom) hnonblock
    · exact .waits i

theorem netIoTurn_step {t : NetIoTurn} (hidle : s.todo .netIo = [])
    (h : s.netIoTurn t = .ok (s', out)) : ThreadsStep P K s (.netIo t) s' out := by
  obtain ⟨⟨loop, os⟩, hloop, h⟩ := Except.bind_eq_ok_iff.mp h
  rcases eventTurn_eq_ok hloop with ⟨hflag, hnull, hflag'⟩ | ⟨hflag, hnull, rfl⟩ |
    ⟨hflag, htaken, hflag'⟩ | ⟨hflag, eve, htaken, hwakes⟩
  · have hempty := queue_eq_nil_of_isEmpty hnull
    simp only [hflag, if_true, MergedQueues.pop_eq_none_iff.mpr hempty] at h
    obtain ⟨rfl, rfl⟩ := Prod.mk.inj (Except.ok.inj h)
    exact .netIoSlept t hidle (fun _ => hempty) hflag'
  · simp only [hflag, if_true] at h
    cases hpop : MergedQueues.pop QueNode.que .netlogic2Netio s.quePool with
    | none =>
      have hempty : s.queue .netlogic2Netio = [] := MergedQueues.pop_eq_none_iff.mp hpop
      simp only [hempty, List.isEmpty_nil, Bool.true_eq_false] at hnull
    | some p =>
      obtain ⟨node, rest⟩ := p
      obtain ⟨hque, hpops⟩ := pops_of_pop hpop
      rw [hpop] at h
      obtain ⟨rfl, rfl⟩ := Prod.mk.inj (Except.ok.inj h)
      cases node with
      | netlogic2Netio node origin => exact .netIoPopped t hidle hflag hpops
      | netio2Netlogic | netlogic2Game | gamelogic2Netlogic => cases hque
  · simp only [hflag, Bool.false_eq_true, if_false, htaken] at h
    obtain ⟨rfl, rfl⟩ := Prod.mk.inj (Except.ok.inj h)
    exact .netIoSlept t hidle (fun htrue => by simp [hflag] at htrue) hflag'
  · simp only [hflag, Bool.false_eq_true, if_false, htaken] at h
    split_ifs at h with htype
    · obtain ⟨rfl, rfl⟩ := Prod.mk.inj (Except.ok.inj h)
      exact .netIoWoken t _ hidle hflag (by rw [hwakes, decide_eq_true htype])
    · obtain ⟨rfl, rfl⟩ := Prod.mk.inj (Except.ok.inj h)
      exact .netIoReported t hidle hflag (by rw [hwakes, decide_eq_false htype])

theorem netLogicNode_step {t : NetLogicTurn} {node : QueNode} {rest : List QueNode} {r : Router}
    {acts : List Act} (hidle : s.todo .netLogic = []) (hflag : s.netLogic.checkQue = true)
    (hque : s.currentQue = node.que) (hpop : s.Pops node rest)
    (h : s.netLogicNode P node = .ok (r, acts)) :
    ThreadsStep P K s (.netLogic t)
      { s.setTodo .netLogic acts with quePool := rest, router := r } [.popped node] := by
  unfold netLogicNode at h
  cases hentry : serviceEntry s.currentSerice with
  | netIo =>
    rw [hentry] at h
    cases node with
    | netio2Netlogic msg conn =>
      simp only [Except.bind_eq_ok_iff] at h
      obtain ⟨⟨r', out⟩, hdispose, acts', hacts, h⟩ := h
      obtain ⟨rfl, rfl⟩ := Prod.mk.inj (Except.ok.inj h)
      exact .routed t hidle hflag hque hpop (disposeNetioServiceQue_step hdispose) hacts
    | netlogic2Netio | netlogic2Game | gamelogic2Netlogic => cases h
  | game g =>
    rw [hentry] at h
    cases node with
    | gamelogic2Netlogic b origin =>
      simp only [disposeGameServiceQue, Except.bind_eq_ok_iff] at h
      obtain ⟨out, ⟨⟨rsp, rspSize⟩, hpack, hout⟩, acts', hacts, h⟩ := h
      obtain ⟨rfl, rfl⟩ := Prod.mk.inj (Except.ok.inj h)
      obtain rfl := Except.ok.inj hout
      obtain rfl := Except.ok.inj hacts
      exact .packed t hidle hflag hque hpop hpack
    | netio2Netlogic | netlogic2Netio | netlogic2Game => cases h
  | unused =>
    rw [hentry] at h
    obtain ⟨rfl, rfl⟩ := Prod.mk.inj (Except.ok.inj h)
    have hsame : s.setTodo .netLogic [] = s := by
      rw [setTodo, ← hidle, Function.update_eq_self]
    rw [hsame]
    exact .dropped t hidle hflag hentry hque hpop

theorem netLogicWoken_step {t : NetLogicTurn} {loop : LoopState (Fin maxService) netLogicMaxEvent}
    {eve : Event (Fin maxService)} {w : Wire} (hidle : s.todo .netLogic = [])
    (hflag : s.netLogic.checkQue = false) (hflag' : loop.checkQue = true)
    (hentry : (serviceEntry eve.sP).wire = some w) :
    ThreadsStep P K s (.netLogic t) (s.netLogicWoken loop eve w.que w t.got).1
      (s.netLogicWoken loop eve w.que w t.got).2 := by
  unfold netLogicWoken
  split_ifs with hread hzero
  · exact .waits _
  · exact .netLogicWoken t _ hidle hflag hflag' hentry (Or.inr rfl)
  · have hsame : s.setRead w 0 = s := by
      rw [setRead, Nat.sub_zero, Function.update_eq_self]
    have hstep := ThreadsStep.netLogicWoken (P := P) (K := K) t 0 hidle hflag hflag' hentry
      (Or.inl rfl)
    rw [hsame] at hstep
    exact hstep

theorem netLogicTurn_step {t : NetLogicTurn} (hidle : s.todo .netLogic = [])
    (h : s.netLogicTurn P t = .ok (s', out)) : ThreadsStep P K s (.netLogic t) s' out := by
  obtain ⟨⟨loop, os⟩, hloop, h⟩ := Except.bind_eq_ok_iff.mp h
  rcases eventTurn_eq_ok hloop with ⟨hflag, hnull, hflag'⟩ | ⟨hflag, hnull, rfl⟩ |
    ⟨hflag, htaken, hflag'⟩ | ⟨hflag, eve, htaken, hwakes⟩
  · have hempty := queue_eq_nil_of_isEmpty hnull
    simp only [hflag, if_true, MergedQueues.pop_eq_none_iff.mpr hempty] at h
    obtain ⟨rfl, rfl⟩ := Prod.mk.inj (Except.ok.inj h)
    exact .netLogicSlept t hidle (fun _ => hempty) hflag'
  · simp only [hflag, if_true] at h
    cases hpop : MergedQueues.pop QueNode.que s.currentQue s.quePool with
    | none =>
      have hempty : s.queue s.currentQue = [] := MergedQueues.pop_eq_none_iff.mp hpop
      simp only [hempty, List.isEmpty_nil, Bool.true_eq_false] at hnull
    | some p =>
      obtain ⟨node, rest⟩ := p
      obtain ⟨hque, hpops⟩ := pops_of_pop hpop
      simp only [hpop, Except.bind_eq_ok_iff] at h
      obtain ⟨⟨r, acts⟩, hnode, h⟩ := h
      obtain ⟨rfl, rfl⟩ := Prod.mk.inj (Except.ok.inj h)
      exact netLogicNode_step hidle hflag hque.symm hpops hnode
  · simp only [hflag, Bool.false_eq_true, if_false, htaken] at h
    obtain ⟨rfl, rfl⟩ := Prod.mk.inj (Except.ok.inj h)
    exact .netLogicSlept t hidle (fun htrue => by simp [hflag] at htrue) hflag'
  · simp only [hflag, Bool.false_eq_true, if_false, htaken] at h
    cases hentry : serviceEntry eve.sP with
    | netIo =>
      have hflag' : loop.checkQue = true := by
        simpa [hentry, ServiceEntry.type] using hwakes
      rw [hentry] at h
      obtain ⟨rfl, rfl⟩ := Prod.mk.inj (Except.ok.inj h)
      exact netLogicWoken_step (w := .netIo2NetLogic) hidle hflag hflag' (by rw [hentry]; rfl)
    | game g =>
      have hflag' : loop.checkQue = true := by
        simpa [hentry, ServiceEntry.type] using hwakes
      rw [hentry] at h
      obtain ⟨rfl, rfl⟩ := Prod.mk.inj (Except.ok.inj h)
      exact netLogicWoken_step (w := .game2NetLogic g) hidle hflag hflag' (by rw [hentry]; rfl)
    | unused =>
      have hflag' : loop.checkQue = false := by
        simpa [hentry, ServiceEntry.type] using hwakes
      rw [hentry] at h
      obtain ⟨rfl, rfl⟩ := Prod.mk.inj (Except.ok.inj h)
      exact .netLogicSlept t hidle (fun htrue => by simp [hflag] at htrue) hflag'

theorem gameTurn_step {g : ServiceId} {got : ℕ} (hidle : s.todo (.game g) = [])
    (h : s.gameTurn g got = .ok (s', out)) : ThreadsStep P K s (.game g got) s' out := by
  unfold gameTurn at h
  split_ifs at h with hflag hzero
  · cases hpop : MergedQueues.pop QueNode.que (.netlogic2Game g) s.quePool with
    | none =>
      rw [hpop] at h
      obtain ⟨rfl, rfl⟩ := Prod.mk.inj (Except.ok.inj h)
      exact .gameSlept g got hidle (MergedQueues.pop_eq_none_iff.mp hpop)
    | some p =>
      obtain ⟨node, rest⟩ := p
      obtain ⟨hque, hpops⟩ := pops_of_pop hpop
      rw [hpop] at h
      cases node with
      | netlogic2Game g' msg conn =>
        obtain rfl : g' = g := QueId.netlogic2Game.inj hque
        obtain ⟨⟨gl, bs⟩, hstep, h⟩ := Except.bind_eq_ok_iff.mp h
        obtain ⟨rfl, rfl⟩ := Prod.mk.inj (Except.ok.inj h)
        exact .handled g' got hidle hflag hpops (disposeQueueEvent_step hstep)
      | netio2Netlogic | netlogic2Netio | gamelogic2Netlogic => cases hque
  · obtain ⟨rfl, rfl⟩ := Prod.mk.inj (Except.ok.inj h)
    exact .waits _
  · obtain ⟨rfl, rfl⟩ := Prod.mk.inj (Except.ok.inj h)
    exact .gameWoken g got _ hidle (Bool.eq_false_of_not_eq_true hflag)

end Threads

/-- **Inversion.** A step of the machine is a step of the threads. -/
theorem threadsMachine_step {P : Protobuf} {K : Sockets} {s s' : Threads} {i : ThreadsIn}
    {out : List ThreadsOut} (h : (threadsMachine P K).step s i = .ok (s', out)) :
    ThreadsStep P K s i s' out := by
  simp only [threadsMachine, Threads.step] at h
  cases hdo : s.todo i.thread with
  | cons act rest =>
    rw [hdo] at h
    obtain ⟨rfl, rfl⟩ := Prod.mk.inj (Except.ok.inj h)
    exact Threads.perform_step i hdo
  | nil =>
    rw [hdo] at h
    cases i with
    | netIo t => exact Threads.netIoTurn_step hdo h
    | netLogic t => exact Threads.netLogicTurn_step hdo h
    | game g got => exact Threads.gameTurn_step hdo h

/-! ### What the threads have to do -/

/-- Pushes of the own nodes of the thread `t`, each followed by the write that announces it. -/
inductive Sends (t : Thread) : List Act → Prop
  | nil : Sends t []
  | send {node : QueNode} {w : Wire} {rest : List Act} (hnode : node.producer = t)
      (hw : w.writer = t) (hque : w.que = node.que) (hrest : Sends t rest) :
      Sends t (.push node :: .wake w :: rest)

/-- What a thread may have to do: sends, the first of which may have been begun. -/
inductive Pending (t : Thread) : List Act → Prop
  | sends {acts : List Act} (h : Sends t acts) : Pending t acts
  | begun {w : Wire} {rest : List Act} (hw : w.writer = t) (hrest : Sends t rest) :
      Pending t (.wake w :: rest)

theorem Pending.of_push {t : Thread} {node : QueNode} {rest : List Act}
    (h : Pending t (.push node :: rest)) : ∃ w rest', rest = .wake w :: rest' ∧
      node.producer = t ∧ w.writer = t ∧ w.que = node.que ∧ Sends t rest' := by
  cases h with
  | sends h =>
    cases h with
    | send hnode hw hque hrest => exact ⟨_, _, rfl, hnode, hw, hque, hrest⟩

theorem Pending.of_wake {t : Thread} {w : Wire} {rest : List Act}
    (h : Pending t (.wake w :: rest)) : w.writer = t ∧ Sends t rest := by
  cases h with
  | sends h => cases h
  | begun hw hrest => exact ⟨hw, hrest⟩

theorem Sends.not_wake {t : Thread} {w : Wire} {rest : List Act} :
    ¬Sends t (.wake w :: rest) := by
  intro h
  cases h

theorem sends_reportActs (reports : List (IoMsg × ℕ)) : Sends .netIo (reportActs reports) := by
  induction reports with
  | nil => exact .nil
  | cons p reports ih => exact .send (w := .netIo2NetLogic) rfl rfl rfl ih

theorem sends_broadcastActs (g : ServiceId) (out : List Broadcast) :
    Sends (.game g) (broadcastActs g out) := by
  induction out with
  | nil => exact .nil
  | cons b out ih => exact .send (w := .game2NetLogic g) rfl rfl rfl ih

/-- The queues and the descriptors of the router are those set up. -/
structure Router.Wired (r : Router) : Prop where
  que : r.que2Gamelogic = fun g => .netlogic2Game g
  socket : r.gamelogSocket = fun g => (g.val : ℤ)

theorem RouteStep.wired {P : Protobuf} {r r' : Router} {msg : IoMsg} {out : List NetOut}
    (h : RouteStep P r msg r' out) (hr : r.Wired) : r'.Wired :=
  ⟨h.arrays_eq.1.trans hr.que, h.arrays_eq.2.trans hr.socket⟩

/-- The actions by which net logic passes a message on to a game service. -/
theorem Router.Wired.mapM_sendsTo {r : Router} (h : r.Wired) (g : ServiceId) (msg : GameMsg)
    (conn : ℕ) : (r.sendsTo g msg).mapM (NetOut.act conn none) =
      .ok [.push (.netlogic2Game g msg conn), .wake (.netLogic2Game g)] := by
  have hindex : serviceIndex (r.gamelogSocket g) = .ok g := by
    rw [h.socket]
    exact serviceIndex_val g
  simp [Router.sendsTo, NetOut.act, h.que, hindex, bind, Except.bind, pure, Except.pure]

theorem mapM_reportServiceFull (uid : Uid) (conn : ℕ) :
    (reportServiceFull uid).mapM (NetOut.act conn none) =
      .ok [.push (.netlogic2Netio (.serviceFull uid) none), .wake .netLogic2NetIo] := rfl

/-- What net logic does with a message of net IO: it passes the message on, refuses the connection
or does nothing. -/
theorem RouteStep.acts_cases {P : Protobuf} {r r' : Router} {msg : IoMsg} {out : List NetOut}
    {conn : ℕ} {acts : List Act} (h : RouteStep P r msg r' out) (hr : r.Wired)
    (hacts : out.mapM (NetOut.act conn none) = .ok acts) :
    acts = [] ∨
    acts = [.push (.netlogic2Netio (.serviceFull msg.uid) none), .wake .netLogic2NetIo] ∨
    ∃ g m, out = r.sendsTo g m ∧ m.uid = msg.uid ∧
      acts = [.push (.netlogic2Game g m conn), .wake (.netLogic2Game g)] := by
  cases h with
  | routed uid g =>
    rw [hr.mapM_sendsTo] at hacts
    exact Or.inr (Or.inr ⟨g, _, rfl, rfl, (Except.ok.inj hacts).symm⟩)
  | refused uid =>
    rw [mapM_reportServiceFull] at hacts
    exact Or.inr (Or.inl (Except.ok.inj hacts).symm)
  | forwarded uid len data req g =>
    rw [hr.mapM_sendsTo] at hacts
    exact Or.inr (Or.inr ⟨g, _, rfl, rfl, (Except.ok.inj hacts).symm⟩)
  | dropped => exact Or.inl (Except.ok.inj hacts).symm
  | closed uid g =>
    rw [hr.mapM_sendsTo] at hacts
    exact Or.inr (Or.inr ⟨g, _, rfl, rfl, (Except.ok.inj hacts).symm⟩)
  | closedUnrouted => exact Or.inl (Except.ok.inj hacts).symm

theorem RouteStep.sends {P : Protobuf} {r r' : Router} {msg : IoMsg} {out : List NetOut}
    {conn : ℕ} {acts : List Act} (h : RouteStep P r msg r' out) (hr : r.Wired)
    (hacts : out.mapM (NetOut.act conn none) = .ok acts) : Sends .netLogic acts := by
  rcases h.acts_cases hr hacts with rfl | rfl | ⟨g, m, -, -, rfl⟩
  · exact .nil
  · exact .send rfl rfl rfl .nil
  · exact .send rfl rfl rfl .nil

/-- The router is wired, the threads send their own nodes, and net logic drains the queue of the
service whose event it has taken. -/
structure ThreadsInv (s : Threads) : Prop where
  wired : s.router.Wired
  pending : ∀ t, Pending t (s.todo t)
  current : s.netLogic.checkQue = true →
    ∃ w, (serviceEntry s.currentSerice).wire = some w ∧ s.currentQue = w.que

namespace Threads

variable {s : Threads}

theorem setTodo_of_ne {t t' : Thread} (acts : List Act) (h : t' ≠ t) :
    (s.setTodo t acts).todo t' = s.todo t' :=
  Function.update_of_ne h ..

theorem setTodo_self {t : Thread} (acts : List Act) : (s.setTodo t acts).todo t = acts :=
  Function.update_self ..

end Threads

/-- A turn of a thread that has nothing to do: it finds something to send, and may read from a
connection that leads to it. -/
structure IsTurn (t : Thread) (s s' : Threads) : Prop where
  idle : s.todo t = []
  sends : Sends t (s'.todo t)
  others : ∀ t' ≠ t, s'.todo t' = s.todo t'
  unread : ∀ w, w.reader ≠ t → s'.unread w = s.unread w
  le : ∀ w, s'.unread w ≤ s.unread w

/-- What a thread that has something to do does: it waits, or the first action is performed. -/
inductive IsAct (K : Sockets) (t : Thread) (s s' : Threads) : Prop
  | waits (hs : s' = s)
  | pushed (node : QueNode) (rest : List Act) (hdo : s.todo t = .push node :: rest)
      (hs : s' = { s.setTodo t rest with quePool := s.quePool ++ [node] })
  | wrote (w : Wire) (rest : List Act) (hdo : s.todo t = .wake w :: rest)
      (hroom : s.unread w < K.capacity w)
      (hs : s' = { s.setTodo t rest with
        unread := Function.update s.unread w (s.unread w + 1) })
  | failed (w : Wire) (rest : List Act) (hdo : s.todo t = .wake w :: rest)
      (hfull : K.capacity w ≤ s.unread w) (hnonblock : K.nonblock w = true)
      (hs : s' = s.setTodo t rest)

theorem ThreadsStep.isAct {P : Protobuf} {K : Sockets} {s s' : Threads} {i : ThreadsIn}
    {out : List ThreadsOut} (hstep : ThreadsStep P K s i s' out) (hbusy : s.todo i.thread ≠ []) :
    IsAct K i.thread s s' := by
  cases hstep with
  | waits => exact .waits rfl
  | pushed i hdo => exact .pushed _ _ hdo rfl
  | wrote i hdo hroom => exact .wrote _ _ hdo hroom rfl
  | failed i hdo hfull hnonblock => exact .failed _ _ hdo hfull hnonblock rfl
  | netIoSlept t hi | netIoReported t hi | netIoPopped t hi | netIoWoken t n hi
  | netLogicSlept t hi | routed t hi | packed t hi | dropped t hi | netLogicWoken t n hi
  | gameSlept g got hi | handled g got hi | gameWoken g got n hi => exact absurd hi hbusy

namespace ThreadsInv

variable {P : Protobuf} {K : Sockets} {s s' : Threads} {i : ThreadsIn} {out : List ThreadsOut}

theorem start (u : Unset) : ThreadsInv (Threads.start u) where
  wired := ⟨rfl, rfl⟩
  pending _ := .sends .nil
  current h := by cases h

/-- A step of a thread with nothing to do is a turn. -/
theorem isTurn (h : ThreadsInv s) (hstep : ThreadsStep P K s i s' out)
    (hidle : s.todo i.thread = []) : IsTurn i.thread s s' := by
  have hquiet (hs : s'.todo = s.todo) (hu : s'.unread = s.unread) : IsTurn i.thread s s' :=
    ⟨hidle, by rw [hs, hidle]; exact .nil, fun _ _ => by rw [hs], fun _ _ => by rw [hu],
      fun _ => by rw [hu]⟩
  have hread {w : Wire} (n : ℕ) (hw : w.reader = i.thread) (hs : s'.todo = s.todo)
      (hu : s'.unread = (s.setRead w n).unread) : IsTurn i.thread s s' := by
    refine ⟨hidle, by rw [hs, hidle]; exact .nil, fun _ _ => by rw [hs], fun w' hw' => ?_,
      fun w' => ?_⟩
    · rw [hu]
      refine Function.update_of_ne ?_ ..
      rintro rfl
      exact hw' hw
    · rw [hu, Threads.setRead]
      by_cases hww : w' = w
      · subst hww
        simp only [Function.update_self, Nat.sub_le]
      · simp only [Function.update_of_ne hww, Nat.le_refl]
  have hsent {acts : List Act} (hacts : Sends i.thread acts)
      (hs : s'.todo = (s.setTodo i.thread acts).todo) (hu : s'.unread = s.unread) :
      IsTurn i.thread s s' :=
    ⟨hidle, by rw [hs, Threads.setTodo_self]; exact hacts,
      fun _ ht => by rw [hs, Threads.setTodo_of_ne _ ht], fun _ _ => by rw [hu],
      fun _ => by rw [hu]⟩
  cases hstep with
  | waits | netIoSlept | netLogicSlept | dropped | gameSlept => exact hquiet rfl rfl
  | pushed i hdo | wrote i hdo | failed i hdo =>
    rw [hidle] at hdo
    cases hdo
  | netIoReported | netIoPopped => exact hsent (sends_reportActs _) rfl rfl
  | netIoWoken t n => exact hread (w := .netLogic2NetIo) n rfl rfl rfl
  | gameWoken g got n => exact hread (w := .netLogic2Game g) n rfl rfl rfl
  | routed t _ _ _ _ hroute hacts => exact hsent (hroute.sends h.wired hacts) rfl rfl
  | packed => exact hsent (.send rfl rfl rfl .nil) rfl rfl
  | netLogicWoken t n _ _ _ hentry =>
    exact hread n (ServiceEntry.reader_of_wire hentry) rfl rfl
  | handled => exact hsent (sends_broadcastActs _ _) rfl rfl

/-- A node that a thread has to push is its own, and is announced after that. -/
theorem of_push (h : ThreadsInv s) {t : Thread} {node : QueNode} {rest : List Act}
    (hdo : s.todo t = .push node :: rest) : ∃ w rest', rest = .wake w :: rest' ∧
      node.producer = t ∧ w.writer = t ∧ w.que = node.que ∧ Sends t rest' :=
  Pending.of_push (hdo ▸ h.pending t)

/-- A thread writes to its own connections. -/
theorem of_wake (h : ThreadsInv s) {t : Thread} {w : Wire} {rest : List Act}
    (hdo : s.todo t = .wake w :: rest) : w.writer = t ∧ Sends t rest :=
  Pending.of_wake (hdo ▸ h.pending t)

/-- What a thread may have to do is kept. -/
theorem step_pending (h : ThreadsInv s) (hstep : ThreadsStep P K s i s' out) (t : Thread) :
    Pending t (s'.todo t) := by
  have hsent {acts : List Act} (hacts : Sends i.thread acts)
      (hs : s'.todo = (s.setTodo i.thread acts).todo) : Pending t (s'.todo t) := by
    rw [hs]
    by_cases ht : t = i.thread
    · subst ht
      rw [Threads.setTodo_self]
      exact .sends hacts
    · rw [Threads.setTodo_of_ne _ ht]
      exact h.pending t
  by_cases hidle : s.todo i.thread = []
  · have hturn := h.isTurn hstep hidle
    by_cases ht : t = i.thread
    · subst ht
      exact .sends hturn.sends
    · rw [hturn.others t ht]
      exact h.pending t
  · cases hstep.isAct hidle with
    | waits hs => exact hs ▸ h.pending t
    | pushed node rest hdo hs =>
      subst hs
      obtain ⟨w, rest', rfl, -, hw, -, hrest⟩ := h.of_push hdo
      by_cases ht : t = i.thread
      · subst ht
        exact (Threads.setTodo_self (s := s) _).symm ▸ .begun hw hrest
      · exact (Threads.setTodo_of_ne (s := s) _ ht).symm ▸ h.pending t
    | wrote w rest hdo hroom hs => exact hsent (h.of_wake hdo).2 (by rw [hs])
    | failed w rest hdo hfull hnonblock hs => exact hsent (h.of_wake hdo).2 (by rw [hs])

/-- **Step lemma.** -/
theorem step (h : ThreadsInv s) (hstep : ThreadsStep P K s i s' out) : ThreadsInv s' := by
  refine ⟨?_, h.step_pending hstep, ?_⟩
  · cases hstep with
    | routed t _ _ _ _ hroute => exact hroute.wired h.wired
    | _ => exact h.wired
  · cases hstep with
    | netLogicSlept t hidle hempty hflag => exact fun htrue => by simp [hflag] at htrue
    | netLogicWoken t n hidle hflag hflag' hentry => exact fun _ => ⟨_, hentry, rfl⟩
    | _ => exact h.current

/-- **Run lemma.** -/
theorem exec {ok : Threads → ThreadsIn → Prop} {u : Unset} {is : List ThreadsIn}
    {os : List ThreadsOut} (hrun : (threadsMachine P K).Exec ok (Threads.start u) is os s) :
    ThreadsInv s :=
  hrun.invariant (P := ThreadsInv) (start u)
    fun _ _ _ _ h _ hstep => h.step (threadsMachine_step hstep)

end ThreadsInv

/-! ### The queues -/

/-- The nodes pushed to a queue, in order. -/
def pushes (q : QueId) (os : List ThreadsOut) : List QueNode :=
  os.filterMap fun
    | .pushed node => if node.que = q then some node else none
    | _ => none

/-- The nodes popped from a queue, in order. -/
def pops (q : QueId) (os : List ThreadsOut) : List QueNode :=
  os.filterMap fun
    | .popped node => if node.que = q then some node else none
    | _ => none

@[simp] theorem pushes_append (q : QueId) (os os' : List ThreadsOut) :
    pushes q (os ++ os') = pushes q os ++ pushes q os' := List.filterMap_append

@[simp] theorem pops_append (q : QueId) (os os' : List ThreadsOut) :
    pops q (os ++ os') = pops q os ++ pops q os' := List.filterMap_append

@[simp] theorem pushes_popped (q : QueId) (node : QueNode) : pushes q [.popped node] = [] := rfl

@[simp] theorem pops_pushed (q : QueId) (node : QueNode) : pops q [.pushed node] = [] := rfl

theorem pushes_pushed (q : QueId) (node : QueNode) :
    pushes q [.pushed node] = if node.que = q then [node] else [] := by
  by_cases hq : node.que = q <;> simp [pushes, hq]

theorem pops_popped (q : QueId) (node : QueNode) :
    pops q [.popped node] = if node.que = q then [node] else [] := by
  by_cases hq : node.que = q <;> simp [pops, hq]

namespace Threads

variable {s s' : Threads}

theorem queue_append {node : QueNode} (h : s'.quePool = s.quePool ++ [node]) (q : QueId) :
    s'.queue q = s.queue q ++ if node.que = q then [node] else [] := by
  rw [queue, queue, h, MergedQueues.part_append]
  by_cases hq : node.que = q
  · rw [if_pos hq, MergedQueues.part_cons_self hq]
    rfl
  · rw [if_neg hq, MergedQueues.part_cons_of_ne hq]
    rfl

theorem Pops.queue_eq {node : QueNode} {rest : List QueNode} (h : s.Pops node rest)
    (hs' : s'.quePool = rest) (q : QueId) :
    s.queue q = (if node.que = q then [node] else []) ++ s'.queue q := by
  rw [queue, queue, hs']
  by_cases hq : node.que = q
  · subst hq
    rw [if_pos rfl, MergedQueues.part_of_pop h, List.singleton_append]
  · rw [if_neg hq, MergedQueues.part_of_pop_of_ne h hq, List.nil_append]

end Threads

/-- What a step does with the queues: nothing, one push or one pop. -/
theorem ThreadsStep.queues {P : Protobuf} {K : Sockets} {s s' : Threads} {i : ThreadsIn}
    {out : List ThreadsOut} (h : ThreadsStep P K s i s' out) :
    (s'.quePool = s.quePool ∧ ∀ q, pushes q out = [] ∧ pops q out = []) ∨
    (∃ node, s'.quePool = s.quePool ++ [node] ∧ out = [.pushed node]) ∨
    ∃ node rest, s.Pops node rest ∧ s'.quePool = rest ∧ out = [.popped node] := by
  cases h with
  | waits | wrote | failed | netIoSlept | netIoReported | netLogicSlept | gameSlept =>
    exact Or.inl ⟨rfl, fun _ => ⟨rfl, rfl⟩⟩
  | netIoWoken | gameWoken => exact Or.inl ⟨rfl, fun _ => ⟨rfl, rfl⟩⟩
  | netLogicWoken t n hidle hflag hflag' hentry hout =>
    rcases hout with rfl | rfl <;> exact Or.inl ⟨rfl, fun _ => ⟨rfl, rfl⟩⟩
  | pushed => exact Or.inr (Or.inl ⟨_, rfl, rfl⟩)
  | netIoPopped t hidle hflag hpop => exact Or.inr (Or.inr ⟨_, _, hpop, rfl, rfl⟩)
  | routed t hidle hflag hque hpop => exact Or.inr (Or.inr ⟨_, _, hpop, rfl, rfl⟩)
  | packed t hidle hflag hque hpop => exact Or.inr (Or.inr ⟨_, _, hpop, rfl, rfl⟩)
  | dropped t hidle hflag hunused hque hpop => exact Or.inr (Or.inr ⟨_, _, hpop, rfl, rfl⟩)
  | handled g got hidle hflag hpop => exact Or.inr (Or.inr ⟨_, _, hpop, rfl, rfl⟩)

/-- **The queues are first in, first out.** What has been pushed to a queue is what has been popped
from it, followed by what waits in it. -/
theorem queues_fifo {P : Protobuf} {K : Sockets} {ok : Threads → ThreadsIn → Prop} {u : Unset}
    {is : List ThreadsIn} {os : List ThreadsOut} {s : Threads}
    (hrun : (threadsMachine P K).Exec ok (Threads.start u) is os s) (q : QueId) :
    pushes q os = pops q os ++ s.queue q := by
  refine hrun.invariant_outputs (P := fun os s => pushes q os = pops q os ++ s.queue q) rfl ?_
  intro os s i s' out h _ hstep
  rcases (threadsMachine_step hstep).queues with ⟨hpool, hout⟩ | ⟨node, hpool, rfl⟩ |
    ⟨node, rest, hpops, hpool, rfl⟩
  · rw [pushes_append, pops_append, (hout q).1, (hout q).2, List.append_nil, List.append_nil, h,
      Threads.queue, Threads.queue, hpool]
  · rw [pushes_append, pops_append, pushes_pushed, pops_pushed, List.append_nil,
      Threads.queue_append hpool, h, List.append_assoc]
  · rw [pushes_append, pops_append, pushes_popped, pops_popped, List.append_nil, h,
      hpops.queue_eq hpool, List.append_assoc]

end GameServer
